import QcomModules.CamReqMgr.RangedApply

/-! Scheduling, adding and flushing requests and the settings of user space use indexes in range
in any state whose links are in range. -/

namespace QcomModules.CamReqMgr

open Library Discipline
open List hiding Vector

/-! ## Scheduling -/

variable {strict : Bool} {D : Discipline Core Fault} {sched : SchedReq} {ks : List ℕ} {i : ℕ}
  {idx : ℤ} {f : TblSlot → TblSlot} {l : Link}

theorem yields_recordSyncLinks {hdl : ℤ} {hdls : Vector ℤ (maximumLinksPerSession - 1)}
    {syncIdx : ℤ} (hks : ∀ k ∈ ks, k < maxLinksPerSession) (h0 : 0 ≤ syncIdx)
    (hroom : syncIdx + ks.length < maximumLinksPerSession) :
    D.Yields (fun out => out.2 < (maximumLinksPerSession : ℤ))
      (recordSyncLinks hdl sched ks hdls syncIdx) := by
  induction ks generalizing hdls syncIdx with
  | nil =>
    rw [length_nil] at hroom
    change syncIdx < (maximumLinksPerSession : ℤ)
    omega
  | cons k ks ih =>
    have hk := hks k mem_cons_self
    have hrest : ∀ k' ∈ ks, k' < maxLinksPerSession :=
      fun k' hk' => hks k' (mem_cons_of_mem k hk')
    rw [length_cons] at hroom
    have hlt : syncIdx < (maximumLinksPerSession - 1 : ℕ) := by
      simp only [maximumLinksPerSession] at *
      omega
    refine .bind (yields_elemAt (P := fun _ => True) (fun _ _ => trivial)
      (Int.natCast_nonneg k) (Int.ofNat_lt.2 hk)) fun other _ => ?_
    split
    · refine .bind (yields_modElem_any h0 hlt) fun hdls _ => ih hrest (by omega) ?_
      push_cast at hroom
      omega
    · refine ih hrest h0 ?_
      push_cast at hroom
      omega

/-- The slots of a link stay marked as recovered, whatever request they hold. -/
def Link.KeepsMarks (l l' : Link) : Prop :=
  (l.inQ.lastAppliedIdx < numSlots → l'.inQ.lastAppliedIdx < numSlots) ∧
    ∀ k : SlotNum, (l.inQ.slot.get k).internalRecovered → (l'.inQ.slot.get k).internalRecovered

theorem Link.KeepsMarks.refl (l : Link) : l.KeepsMarks l := ⟨id, fun _ => id⟩

theorem Link.KeepsMarks.trans {l m n : Link} (h : l.KeepsMarks m) (h' : m.KeepsMarks n) :
    l.KeepsMarks n :=
  ⟨fun hlast => h'.1 (h.1 hlast), fun k hmark => h'.2 k (h.2 k hmark)⟩

def marked (strict : Bool) : Discipline Core Fault :=
  along strict Link.KeepsMarks Link.KeepsMarks.refl fun _ _ _ => Link.KeepsMarks.trans

theorem marked_modLink {f : Link → Link} (h : ∀ l, l.InRange → (f l).InRange)
    (hm : ∀ l : Link, l.KeepsMarks (f l)) :
    (marked strict).Follows (modLink i f) :=
  keeps_modLink fun l hl => ⟨h l hl, hm l⟩

theorem marked_modSlot {f : Slot → Slot} (h : SlotIdx idx)
    (hf : ∀ slot, slot.InRange → (f slot).InRange)
    (hm : ∀ slot : Slot, (f slot).internalRecovered = slot.internalRecovered) :
    (marked strict).Follows (modSlot i idx f) := by
  refine keeps_modSlot h hf fun l k hk => ⟨id, fun j => ?_⟩
  change l.inQ.slot[j.val].internalRecovered →
    ((l.inQ.slot.set k (f l.inQ.slot[k]) hk)[j.val]).internalRecovered
  rw [Vector.getElem_set]
  split
  · rename_i hkj
    subst hkj
    rw [hm]
    exact id
  · exact id

theorem marked_processSchedReq (i : ℕ) (hnum : sched.numLinks ≤ maxLinksPerSession) :
    (marked strict).Follows (processSchedReq i sched) := by
  refine .bind (keeps_link i) fun l hl => .bind (keeps_slotAt i hl.wrIdx) fun slot hslot => ?_
  have hlen : (range sched.numLinks.toNat).length ≤ maxLinksPerSession := by
    rw [length_range]
    simp only [maxLinksPerSession] at *
    omega
  refine .bind (.lift (yields_recordSyncLinks (fun k hk => ?_) (Int.le_refl 0) ?_))
    fun out hout => ?_
  · rw [length_range] at hlen
    exact Nat.lt_of_lt_of_le (mem_range.1 hk) hlen
  · simp only [maxLinksPerSession, maximumLinksPerSession] at *
    omega
  refine .seq (marked_modSlot hl.wrIdx (fun slot hin => ⟨hin.idx, hout⟩) fun _ => rfl) fun _ => ?_
  refine .seq (marked_modLink (fun l hl => ?_) .refl) fun _ => ?_
  · exact { hl with wrIdx := slotIdx_incIdx hl.wrIdx (by decide) }
  refine .ite (fun _ => marked_modLink (fun _ hl => hl) .refl) fun _ => ?_
  refine .seq (marked_modLink (fun _ hl => hl) .refl) fun _ => ?_
  exact .seq (keeps_syncedLinks hl) fun links =>
    .forM fun j _ => marked_modLink (fun _ hl => hl) .refl

theorem zero_le_maxLinks : (0 : ℤ) ≤ maxLinksPerSession := by decide

theorem marked_beginSchedule (linkHdl reqId : ℤ) :
    (marked strict).Follows (beginSchedule linkHdl reqId) := by
  refine .seq (keeps_getLinkPriv linkHdl) fun found => ?_
  cases found with
  | none => exact .pure trivial
  | some i =>
    refine .seq (keeps_link i) fun l => .ite (fun _ => .pure trivial) fun _ => ?_
    exact .seq (marked_modLink (fun _ hl => hl) .refl) fun _ => .pure trivial

theorem marked_scheduleRequest (linkHdl reqId bubbleEnable syncMode additionalTimeout : ℤ) :
    (marked strict).Follows
      (scheduleRequest linkHdl reqId bubbleEnable syncMode additionalTimeout) := by
  refine .seq (marked_beginSchedule linkHdl reqId) fun begun => ?_
  cases begun with
  | error rc => exact .pure trivial
  | ok i =>
    refine .seq (keeps_link i) fun l => ?_
    exact .seq (marked_processSchedReq i zero_le_maxLinks) fun _ => .pure trivial

theorem marked_validHandles {linkHdls : Vector ℤ maxLinksPerSession}
    (hks : ∀ k ∈ ks, k < maxLinksPerSession) :
    (marked strict).Follows (validHandles linkHdls ks) := by
  induction ks with
  | nil => exact .pure trivial
  | cons k ks ih =>
    have hk := hks k mem_cons_self
    have hrest := ih fun k' hk' => hks k' (mem_cons_of_mem k hk')
    refine .seq (keeps_elemAt_any (Int.natCast_nonneg k) (Int.ofNat_lt.2 hk)) fun hdl => ?_
    refine .seq (keeps_getLinkPriv hdl) fun found => ?_
    exact .ite (fun _ => .pure trivial) fun _ => hrest

theorem marked_scheduleRequestV2 (linkHdl : ℤ) (req : SchedReq) :
    (marked strict).Follows (scheduleRequestV2 linkHdl req) := by
  refine .seq (marked_beginSchedule linkHdl req.reqId) fun begun => ?_
  cases begun with
  | error rc => exact .pure trivial
  | ok i =>
    refine .seq (keeps_link i) fun l => .ite (fun _ => .ite (fun _ => .pure trivial) ?_) ?_
    · intro hnum
      have hle : req.numLinks ≤ maxLinksPerSession := by
        simp only [maximumLinksPerSession, maxLinksPerSession] at *
        omega
      refine .seq (marked_validHandles fun k hk => ?_) fun valid => .ite (fun _ => ?_) fun _ => ?_
      · rw [mem_range] at hk
        simp only [maxLinksPerSession] at *
        omega
      · exact .seq (marked_processSchedReq i hle) fun _ => .pure trivial
      · exact .pure trivial
    · exact fun _ => .seq (marked_processSchedReq i zero_le_maxLinks) fun _ => .pure trivial

/-! ## Adding the devices' parts of a request -/

theorem ranged_modTblSlot {pdTbl : ℤ} (h : SlotIdx idx) :
    (ranged strict).Follows (modTblSlot i pdTbl idx f) :=
  keeps_modTblSlot h fun l _ => Link.KeepsRecords.refl l

theorem ranged_modTblSlots (h : SlotIdx idx) : (ranged strict).Follows (modTblSlots i idx f) :=
  keeps_modTblSlots h fun l _ => Link.KeepsRecords.refl l

theorem ranged_findSlotForReq (i : ℕ) (reqId : ℤ) :
    (ranged strict).Keeps (findSlotForReq i reqId) fun idx => idx = -1 ∨ SlotIdx idx :=
  ranged_of_calm (calm_findSlotForReq i reqId)

theorem ranged_syncInfoFrom (add : AddReq) (slot : TblSlot) (type : SyncType)
    (hks : ∀ k ∈ ks, k < maximumLinksPerSession - 1) (tbl : Option (ℕ × ℤ)) :
    (ranged strict).Follows (syncInfoFrom l add slot type ks tbl) := by
  induction ks generalizing tbl with
  | nil => exact .pure trivial
  | cons k ks ih =>
    have hk := hks k mem_cons_self
    refine .seq (keeps_elemAt_any (Int.natCast_nonneg k) (Int.ofNat_lt.2 hk)) fun sync => ?_
    cases sync with
    | none => exact keeps_throwNull
    | some j =>
      refine .bind (ranged_findSlotForReq j add.reqId) fun idx hfound => ?_
      refine .ite (fun _ => .pure trivial) fun hneg => .seq (keeps_link j) fun sync => ?_
      dsimp only
      split
      · exact .pure trivial
      · refine .seq (ranged_modTblSlot (SlotIdx.of_found hfound hneg)) fun _ => ?_
        exact ih (fun k' hk' => hks k' (mem_cons_of_mem k hk')) _

theorem ranged_syncInfoForSyncMode (i : ℕ) (add : AddReq) (reqSlot : Slot) (pdTbl : ℤ)
    (type : SyncType) (h : SlotIdx idx) :
    (ranged strict).Follows (syncInfoForSyncMode i add reqSlot pdTbl idx type) := by
  refine .ite (fun _ => .bind (keeps_link i) fun l hl => ?_) fun _ => .pure trivial
  refine .seq (keeps_tblSlotAt i pdTbl h) fun slot => ?_
  exact ranged_syncInfoFrom add slot type (fun k => lt_of_mem_range hl.numSyncLinks) none

theorem ranged_markNextSkipped (i : ℕ) (add : AddReq) :
    (ranged strict).Follows (markNextSkipped i add) := by
  refine .ite (fun _ => ?_) fun _ => .pure trivial
  refine .bind (ranged_findSlotForReq i _) fun idx hfound => .ite (fun h0 => ?_) ?_
  · have hidx : SlotIdx idx := SlotIdx.of_found hfound (Int.not_lt.2 h0)
    exact ranged_modSlot hidx (fun slot hin => ⟨hin.idx, hin.numSyncLinks⟩) .refl
  · exact fun _ => .pure trivial

theorem ranged_addDelays (i : ℕ) (add : AddReq) (reqSlot : Slot) (pdTbl : ℤ) (h : SlotIdx idx) :
    (ranged strict).Follows (addDelays i add reqSlot pdTbl idx) := by
  have hEof (rcSof : ℤ) : (ranged strict).Follows (do
      if rcSof < 0 then pure rcSof
      else if (← tblSlotAt i pdTbl idx).injectDelayAtEof < add.skipAtEof % 256 then
        modTblSlot i pdTbl idx fun slot => { slot with injectDelayAtEof := add.skipAtEof % 256 }
        syncInfoForSyncMode i add reqSlot pdTbl idx .delayAtEof
      else pure 0 : Crm ℤ) := by
    refine .ite (fun _ => .pure trivial) fun _ => .seq (keeps_tblSlotAt i pdTbl h) fun slot => ?_
    refine .ite (fun _ => .seq (ranged_modTblSlot h) fun _ => ?_) fun _ => .pure trivial
    exact ranged_syncInfoForSyncMode i add reqSlot pdTbl _ h
  refine .seq (keeps_tblSlotAt i pdTbl h) fun slot => .ite (fun _ => ?_) fun _ => hEof 0
  refine .seq (ranged_modTblSlot h) fun _ => ?_
  exact .seq (ranged_syncInfoForSyncMode i add reqSlot pdTbl _ h) hEof

theorem ranged_addTriggerEof (i : ℕ) (add : AddReq) (reqSlot : Slot) (pdTbl : ℤ) (h : SlotIdx idx) :
    (ranged strict).Follows (addTriggerEof i add reqSlot pdTbl idx) := by
  refine .seq (ranged_modTblSlot h) fun _ => .seq (keeps_tblSlotAt i pdTbl h) fun slot => ?_
  refine .ite (fun _ => .pure trivial) fun _ => .seq (ranged_modTblSlot h) fun _ => ?_
  refine .seq (ranged_syncInfoForSyncMode i add reqSlot pdTbl _ h) fun rc => ?_
  refine .ite (fun _ => .pure trivial) fun _ => .seq (keeps_link i) fun l => ?_
  refine .ite (fun _ => ?_) fun _ => .pure trivial
  exact .seq (.forM fun dev _ => .seq (keeps_ask _) fun _ => .pure trivial) fun _ => .pure trivial

theorem ranged_processAddReq (i : ℕ) (add : AddReq) :
    (ranged strict).Follows (processAddReq i add) := by
  refine .seq (keeps_link i) fun l => ?_
  split
  · exact .pure trivial
  · rename_i device _
    refine .bind (ranged_findSlotForReq i _) fun idx hfound => .ite (fun _ => .pure trivial) ?_
    intro hneg
    have hidx := SlotIdx.of_found hfound hneg
    refine .seq (ranged_markNextSkipped i add) fun _ => .seq (keeps_slotAt i hidx) fun reqSlot => ?_
    refine .seq (ranged_addDelays i add reqSlot device.pdTbl hidx) fun rc => ?_
    have hready (rc : ℤ) : (ranged strict).Follows (do
        if rc < 0 then pure rc
        else
          let tbl ← tblAt i device.pdTbl
          modTblSlot i device.pdTbl idx (·.add device.devBit tbl.devMask)
          pure rc : Crm ℤ) := by
      refine .ite (fun _ => .pure trivial) fun _ => .seq (keeps_tblAt i _) fun tbl => ?_
      exact .seq (ranged_modTblSlot hidx) fun _ => .pure trivial
    refine .ite (fun _ => .pure trivial) fun _ => .ite (fun _ => ?_) fun _ => hready 0
    exact .seq (ranged_addTriggerEof i add reqSlot _ hidx) hready

theorem ranged_cbAddReq (i : ℕ) (add : AddReq) : (ranged strict).Follows (cbAddReq i add) := by
  refine .seq (ranged_findSlotForReq i _) fun idx => .ite (fun _ => ?_) fun _ => ?_
  · exact .seq (keeps_link i) fun l => .pure trivial
  refine .ite (fun _ => .seq (ranged_modLink (fun _ hl => hl) .refl) fun _ => ?_) fun _ =>
    .pure trivial
  refine .bind (keeps_link i) fun l hl => .seq (.forM fun k hk => ?_) fun _ => .pure trivial
  refine .seq (keeps_elemAt_any (Int.natCast_nonneg k)
    (Int.ofNat_lt.2 (lt_of_mem_range hl.numSyncLinks hk))) fun sync => ?_
  cases sync with
  | none => exact keeps_throwNull
  | some j => exact ranged_modLink (fun _ hl => hl) .refl

/-! ## Flushing -/

theorem ranged_flushReqSlot (i : ℕ) : (ranged strict).Follows (flushReqSlot i) := by
  refine .seq (.forM fun k hk => ?_) fun _ => ranged_modLink (fun l hl =>
    { hl with rdIdx := slotIdx_zero, wrIdx := slotIdx_zero }) .refl
  have hidx := slotIdx_natCast (mem_range.1 hk)
  refine .bind (keeps_slotAt i hidx) fun slot hslot => ?_
  have hrest : (ranged strict).Follows (do
      modSlot i k Slot.flushed
      modTblSlots i k TblSlot.flushed) :=
    .seq (ranged_modSlot hidx (fun slot hin => hin.unsynced rfl rfl) fun _ => .inl rfl) fun _ =>
      ranged_modTblSlots hidx
  refine .ite (fun _ => ?_) fun _ => hrest
  exact .seq (ranged_of_calm (calm_disconnectReqOnSyncLink i hslot)) fun _ => hrest

theorem ranged_flushDevWithMaxPd (i : ℕ) (flush : FlushInfo) (flushType maxPd : ℤ) :
    (ranged strict).Follows (flushDevWithMaxPd i flush flushType maxPd) := by
  refine .seq keeps_get fun s => .seq (ranged_modLink (fun _ hl => hl) .refl) fun _ => ?_
  exact .seq (keeps_link i) fun l => .forM fun dev _ =>
    .seq (keeps_ask _) fun _ => .pure trivial

theorem yields_highestFlushable (reqId : ℤ) {n : ℕ} {pd : ℤ} (hl : l.InRange) (h0 : 0 ≤ pd) :
    D.Yields (fun _ => True) (highestFlushable l reqId n pd) := by
  induction n generalizing pd with
  | zero => trivial
  | succ n ih =>
    rw [highestFlushable]
    split
    · rename_i hle
      have hmax := hl.maxDelay.2
      refine .bind (yields_elemAt (fun _ _ => trivial) (by omega) (by omega)) fun prev _ => ?_
      split
      · trivial
      · exact ih (by omega)
    · trivial

theorem ranged_cancelReq (i : ℕ) (flush : FlushInfo) (pd : ℤ) (h : SlotIdx idx) :
    (ranged strict).Follows (cancelReq i flush idx pd) := by
  refine .seq (ranged_modSlot h (fun slot hin => ⟨hin.idx, hin.numSyncLinks⟩) .refl) fun _ => ?_
  refine .seq (ranged_modSlot h (fun slot hin => ⟨hin.idx, hin.numSyncLinks⟩) fun _ => .inl rfl)
    fun _ => ?_
  refine .seq (ranged_flushDevWithMaxPd i flush 1 pd) fun _ => ?_
  exact .seq (ranged_modLink (fun _ hl => hl) .refl) fun _ => .pure trivial

theorem ranged_tryCancelReq (i : ℕ) (flush : FlushInfo) :
    (ranged strict).Follows (tryCancelReq i flush) := by
  refine .bind (ranged_findSlotForReq i _) fun idx hfound => .ite (fun _ => .pure trivial) ?_
  intro hneg
  have hidx := SlotIdx.of_found hfound hneg
  refine .bind (keeps_slotAt i hidx) fun slot hslot => ?_
  have htaken : (ranged strict).Follows (do
      let l ← link i
      let pd := l.ifePd
      if pd < 0 ∨ camPipelineDelayMax ≤ pd then pure pd
      else
        let prev ← StateT.lift (elemAt l.prevApplyData pd)
        if flush.reqId ≤ prev.reqId then pure (-EPERM)
        else
          let pd ← StateT.lift (highestFlushable l flush.reqId camPipelineDelayMax pd)
          cancelReq i flush idx pd) := by
    refine .bind (keeps_link i) fun l hl => .ite (fun _ => .pure trivial) fun hpd => ?_
    have h0 : 0 ≤ l.ifePd := by omega
    have hlt : l.ifePd < camPipelineDelayMax := by omega
    refine .seq (keeps_elemAt_any h0 hlt) fun prev => .ite (fun _ => .pure trivial) fun _ => ?_
    exact .seq (.lift (yields_highestFlushable _ hl h0)) fun pd => ranged_cancelReq i flush pd hidx
  have hunsynced {m : Crm ℤ} (hm : (ranged strict).Follows m) : (ranged strict).Follows (do
      if 0 < slot.reqId ∧ slot.numSyncLinks ≠ 0 then disconnectReqOnSyncLink i slot
      m) :=
    .ite (fun _ => .seq (ranged_of_calm (calm_disconnectReqOnSyncLink i hslot)) fun _ => hm)
      fun _ => hm
  cases slot.status with
  | reqPending => exact hunsynced htaken
  | reqApplied => exact hunsynced htaken
  | reqReady => exact hunsynced (ranged_cancelReq i flush _ hidx)
  | reqAdded => exact hunsynced (ranged_cancelReq i flush _ hidx)
  | noReq => exact hunsynced (.pure trivial)

theorem ranged_flushAll (i : ℕ) (flush : FlushInfo) :
    (ranged strict).Follows (flushAll i flush) := by
  have hforget {array : Vector Apply camPipelineDelayMax} (h : ∀ a ∈ array, SlotIdx a.idx) :
      ∀ a ∈ array.map fun apply => { apply with reqId := -1 }, SlotIdx a.idx := by
    intro a ha
    obtain ⟨b, hb, rfl⟩ := Vector.mem_map.1 ha
    exact h b hb
  refine .seq (ranged_modLink (fun _ hl => hl) .refl) fun _ => ?_
  refine .seq (ranged_flushReqSlot i) fun _ => .seq (ranged_modLink (fun l hl =>
    { hl with apply := hforget hl.apply, prevApply := hforget hl.prevApply }) .refl) fun _ => ?_
  refine .seq (keeps_link i) fun l => .seq (ranged_flushDevWithMaxPd i flush 0 _) fun _ => ?_
  exact .seq (ranged_modLink (fun _ hl => hl) .refl) fun _ => .pure trivial

theorem ranged_flushCancel (i : ℕ) (flush : FlushInfo) :
    (ranged strict).Follows (flushCancel i flush) :=
  .seq (ranged_modLink (fun _ hl => hl) .refl) fun _ => ranged_tryCancelReq i flush

/-! ## Settings of user space -/

theorem Link.InRange.clearSync (hl : l.InRange) : l.clearSync.InRange :=
  { hl with numSyncLinks := show (0 : ℤ) < maximumLinksPerSession by decide }

theorem ranged_syncConfig (linkHdls : ℤ × ℤ) (sync : Bool) :
    (ranged strict).Follows (syncConfig linkHdls sync) := by
  have hclear (i : ℕ) : (ranged strict).Follows (modLink i Link.clearSync) :=
    ranged_modLink (fun _ hl => hl.clearSync) .refl
  refine .seq (keeps_getLinkPriv _) fun first => .seq (keeps_getLinkPriv _) fun second => ?_
  cases first with
  | none => exact .pure trivial
  | some i =>
    cases second with
    | none => exact .seq (hclear i) fun _ => .pure trivial
    | some j =>
      refine .seq (.forM fun pair _ => .seq (hclear pair.1) fun _ => ?_) fun _ => .pure trivial
      have hrest : (ranged strict).Follows (modLink pair.1 fun l =>
          { l with initialSkip := true, sofTimestamp := 0 }) :=
        ranged_modLink (fun _ hl => hl) .refl
      refine .ite (fun _ => .seq (ranged_modLink (fun l hl => ?_) .refl) fun _ => hrest) fun _ =>
        hrest
      refine { hl with numSyncLinks := ?_ }
      change (if i = j then (2 : ℤ) else 1) < maximumLinksPerSession
      split <;> decide

theorem ranged_linkControl (i : ℕ) (activate : Bool) (initTimeout : ℤ) :
    (ranged strict).Follows (linkControl i activate initTimeout) := by
  have hevt (evt : Bool → LinkEvt) : (ranged strict).Follows (sendEvt i evt) :=
    ranged_of_calm (calm_sendEvt i evt)
  refine .seq (keeps_link i) fun l => .ite (fun _ => ?_) fun _ => ?_
  · exact .seq (ranged_modLink (fun _ hl => hl) .refl) fun _ => .seq (hevt _) fun _ => .pure trivial
  · refine .seq (ranged_modLink (fun _ hl => hl) .refl) fun _ => .seq (hevt _) fun _ => ?_
    exact .seq (ranged_modLink (fun _ hl => hl) .refl) fun _ => .pure trivial

end QcomModules.CamReqMgr
