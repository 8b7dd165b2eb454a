import QcomModules.CamReqMgr.RangedOperations
import QcomModules.Library.Runs

/-! Every index used on a link's slots is in range in every run in which no trigger or bubble
makes the watchdog's timeout look past the last slot of a link without pipeline delay. -/

namespace QcomModules.CamReqMgr

open Library Discipline
open List hiding Vector

/-! ## Links as they are set up -/

theorem delta_zero_inRange : (0 : ℤ) ≤ 0 ∧ (0 : ℤ) ≤ numSlots := by decide

theorem zero_lt_maximumLinks : (0 : ℤ) < maximumLinksPerSession := by decide

variable {tbl newTbl : ReqTbl} {lTbl : List ReqTbl} {a b idx : ℤ} {l l' m n : Link} {i : ℕ}
  {f : Link → Link} {s : Core} {α : Type} {t : TriggerNotify} {strict : Bool}

theorem ReqTbl.InRange.withDelta (h : tbl.InRange) {below : ℤ} (h0 : 0 ≤ below)
    (hle : below ≤ tbl.pd) : { tbl with pdDelta := tbl.pd - below }.InRange := by
  have hpd := h.pd.2
  refine ⟨h.pd, Int.sub_nonneg.2 hle, ?_⟩
  change tbl.pd - below ≤ numSlots
  simp only [camPipelineDelayMax, numSlots, maxReqSlots] at *
  omega

theorem insertAfter_inRange {rest : List ReqTbl} (hnew : newTbl.InRange) (htbl : tbl.InRange)
    (hrest : ∀ t ∈ rest, t.InRange) (hle : newTbl.pd ≤ tbl.pd) :
    ∀ t ∈ insertAfter newTbl tbl rest, t.InRange := by
  induction rest generalizing tbl with
  | nil =>
    refine forall_mem_cons.2 ⟨htbl.withDelta hnew.pd.1 hle, forall_mem_singleton.2 ?_⟩
    exact ⟨hnew.pd, delta_zero_inRange⟩
  | cons next rest ih =>
    obtain ⟨hnext, hrest⟩ := forall_mem_cons.1 hrest
    rw [insertAfter]
    split
    · rename_i hlt
      exact forall_mem_cons.2 ⟨htbl, ih hnext hrest (Int.le_of_lt hlt)⟩
    · rename_i hge
      refine forall_mem_cons.2 ⟨htbl.withDelta hnew.pd.1 hle, ?_⟩
      refine forall_mem_cons.2 ⟨hnew.withDelta hnext.pd.1 (Int.not_lt.1 hge), ?_⟩
      exact forall_mem_cons.2 ⟨hnext, hrest⟩

theorem addTblToLink_inRange (hnew : newTbl.InRange) (h : ∀ t ∈ lTbl, t.InRange) :
    ∀ t ∈ addTblToLink newTbl lTbl, t.InRange := by
  cases lTbl with
  | nil => exact forall_mem_singleton.2 hnew
  | cons head rest =>
    obtain ⟨hhead, hrest⟩ := forall_mem_cons.1 h
    rw [addTblToLink]
    split
    · rename_i hlt
      exact forall_mem_cons.2 ⟨hnew.withDelta hhead.pd.1 (Int.le_of_lt hlt), h⟩
    · rename_i hge
      exact insertAfter_inRange hnew hhead hrest (Int.not_lt.1 hge)

theorem PipelineDelay.max (ha : PipelineDelay a) (hb : PipelineDelay b) :
    PipelineDelay (Max.max a b) :=
  ⟨Int.le_trans ha.1 (Int.le_max_left a b), Int.max_lt.2 ⟨ha.2, hb.2⟩⟩

theorem PipelineDelay.min (ha : PipelineDelay a) (hb : PipelineDelay b) :
    PipelineDelay (Min.min a b) :=
  ⟨Int.le_min.2 ⟨ha.1, hb.1⟩, Int.lt_of_le_of_lt (Int.min_le_left a b) ha.2⟩

theorem DeviceInfo.pipelineDelay {info : DeviceInfo} (h : info.accepted) :
    PipelineDelay info.pDelay := by
  have haccepted := of_decide_eq_true h
  exact ⟨haccepted.1, haccepted.2.1⟩

theorem connectDevice_inRange {dev : DeviceInfo × KmdOps} (hl : l.InRange) (hdev : dev.1.accepted) :
    (connectDevice l dev).InRange := by
  have hpd := DeviceInfo.pipelineDelay hdev
  have htbls (new : Prop) [Decidable new] :
      ∀ t ∈ (if new then addTblToLink { pd := dev.1.pDelay } l.lTbl else l.lTbl), t.InRange := by
    split
    · exact addTblToLink_inRange ⟨hpd, delta_zero_inRange⟩ hl.tbls
    · exact hl.tbls
  refine { hl with
    tbls := fun t ht => ?_
    devs := forall_mem_append.2 ⟨hl.devs, forall_mem_singleton.2 ⟨hpd, hpd⟩⟩
    maxDelay := hl.maxDelay.max hpd
    minDelay := hl.minDelay.min hpd }
  obtain ⟨old, hold, rfl⟩ := mem_map.1 ht
  have hin := htbls _ old hold
  split
  · exact ⟨hin.pd, hin.pdDelta⟩
  · exact hin

theorem tblSetAllSkipCnt_inRange (h : ∀ t ∈ lTbl, t.InRange) :
    ∀ t ∈ tblSetAllSkipCnt lTbl, t.InRange := by
  cases lTbl with
  | nil => exact h
  | cons head rest =>
    intro t ht
    obtain ⟨old, hold, rfl⟩ := mem_map.1 ht
    exact ⟨(h old hold).pd, (h old hold).pdDelta⟩

theorem setupInQ_inRange : (∀ slot ∈ setupInQ.slot, slot.InRange) ∧ SlotIdx setupInQ.rdIdx ∧
    SlotIdx setupInQ.wrIdx := by
  refine ⟨fun slot hslot => ?_, slotIdx_zero, slotIdx_zero⟩
  obtain ⟨k, hk, rfl⟩ := Vector.mem_iff_getElem.1 hslot
  change Slot.InRange (Vector.ofFn _)[k]
  rw [Vector.getElem_ofFn]
  exact ⟨slotIdx_natCast hk, zero_lt_maximumLinks⟩

theorem reserved_inRange (linkHdl : ℤ) (dualTrigger : Bool) :
    Link.InRange { linkHdl, inQ := setupInQ, dualTrigger } where
  rdIdx := setupInQ_inRange.2.1
  wrIdx := setupInQ_inRange.2.2
  slots := setupInQ_inRange.1
  tbls _ ht := absurd ht not_mem_nil
  apply _ ha := Vector.eq_of_mem_replicate ha ▸ slotIdx_zero
  prevApply _ ha := Vector.eq_of_mem_replicate ha ▸ slotIdx_zero
  devs _ hdev := absurd hdev not_mem_nil
  maxDelay := ⟨Int.le_refl 0, show (0 : ℤ) < camPipelineDelayMax by decide⟩
  minDelay := show PipelineDelay 2 from ⟨by decide, by decide⟩
  numSyncLinks := zero_lt_maximumLinks

theorem setupLinkInfo_inRange {linkHdl : ℤ} {devs : List (DeviceInfo × KmdOps)}
    (h : setupLinkInfo linkHdl devs = some l) : l.InRange := by
  rw [setupLinkInfo] at h
  split at h
  · rename_i haccepted
    have hfold : ∀ (devs : List (DeviceInfo × KmdOps)) (l : Link), l.InRange →
        (∀ dev ∈ devs, dev.1.accepted) → (devs.foldl connectDevice l).InRange := by
      intro devs
      induction devs with
      | nil => exact fun l hl _ => hl
      | cons dev devs ih =>
        intro l hl hdevs
        obtain ⟨hdev, hdevs⟩ := forall_mem_cons.1 hdevs
        exact ih _ (connectDevice_inRange hl hdev) hdevs
    have hl (dual : Bool) := hfold devs _ (reserved_inRange linkHdl dual) fun dev hdev =>
      all_eq_true.1 haccepted.1 dev hdev
    cases h
    exact { hl _ with tbls := tblSetAllSkipCnt_inRange (hl _).tbls }
  · cases h

/-! ## Bubbles -/

theorem held_modSlot {f : Slot → Slot} (h : SlotIdx idx)
    (hf : ∀ slot, slot.InRange → (f slot).InRange)
    (hr : ∀ slot : Slot, slot.KeepsRecord (f slot)) :
    (held strict).Follows (modSlot i idx f) :=
  keeps_modSlot h hf fun l k hk => ⟨Link.Held.refl l, keepsRecords_withSlots hr l k hk⟩

theorem held_modLink (h : ∀ l, l.InRange → (f l).InRange) (hf : ∀ l : Link, l.Held (f l))
    (hr : ∀ l : Link, l.KeepsRecords (f l)) :
    (held strict).Follows (modLink i f) :=
  keeps_modLink fun l hl => ⟨h l hl, hf l, hr l⟩

theorem held_forgetApplied (i : ℕ) (h : SlotIdx idx) :
    (held strict).Follows (forgetApplied i idx) :=
  keeps_held (calm_modTblSlots h)

theorem held_dropSyncMode (i : ℕ) (h : SlotIdx idx) :
    (held strict).Keeps (dropSyncMode i idx) SlotIdx := by
  have hdrop {idx : ℤ} (h : SlotIdx idx) :
      (held strict).Follows (modSlot i idx fun slot => { slot with syncMode := 0 }) :=
    held_modSlot h (fun slot hin => ⟨hin.idx, hin.numSyncLinks⟩) .refl
  have hnext := slotIdx_incIdx h (show (0 : ℤ) ≤ 1 by decide)
  refine .seq (keeps_link i) fun l => .seq (keeps_elemAt_any (by decide) (by decide)) fun sync => ?_
  refine .ite (fun _ => .seq (hdrop h) fun _ => .seq (keeps_link i) fun l => ?_) fun _ => .pure h
  refine .ite (fun _ => keeps_throwNull) fun _ => ?_
  exact .seq (hdrop hnext) fun _ => .pure hnext

theorem held_recoverInternally (i : ℕ) (reqId : ℤ) (h : SlotIdx idx) :
    (held strict).Follows (recoverInternally i reqId idx) := by
  have hsend : (held strict).Follows (do
      let _ ← sendEvt i (.stalled reqId)
      modSlot i idx fun slot => { slot with internalRecovered := true }
      modLink i fun l => { l with tryForInternalRecovery := false }) := by
    refine .seq (keeps_held (calm_sendEvt i _)) fun _ => ?_
    refine .seq (held_modSlot h (fun slot hin => ⟨hin.idx, hin.numSyncLinks⟩)
      fun _ => .inr ⟨rfl, fun _ => rfl⟩) fun _ => ?_
    exact held_modLink (fun _ hl => hl) .refl .refl
  refine .seq (keeps_slotAt i h) fun slot => .ite (fun _ => ?_) fun _ => .pure trivial
  refine .seq (held_modLink (fun _ hl => hl) .refl .refl) fun _ => .seq (keeps_link i) ?_
  exact fun l => .ite (fun _ => keeps_throwNull) fun _ => hsend

theorem held_reapplyFrom (i n : ℕ) (h : SlotIdx idx) :
    (held strict).Follows (reapplyFrom i n idx) := by
  induction n generalizing idx with
  | zero => exact .pure trivial
  | succ n ih =>
    have hnext := slotIdx_incIdx h (show (0 : ℤ) ≤ 1 by decide)
    refine .seq (keeps_slotAt i hnext) fun slot => .ite (fun _ => ?_) fun _ => ih hnext
    refine .seq (held_modSlot hnext (fun slot hin => ⟨hin.idx, hin.numSyncLinks⟩) .refl) fun _ => ?_
    exact .seq (held_forgetApplied i hnext) fun _ => ih hnext

theorem held_markBubble (i : ℕ) (err : ErrorNotify) (h : SlotIdx idx) :
    (held strict).Follows (markBubble i err idx) := by
  refine .seq (held_modSlot h (fun slot hin => ⟨hin.idx, hin.numSyncLinks⟩) .refl) fun _ => ?_
  refine .seq (held_forgetApplied i h) fun _ => .bind (held_dropSyncMode i h) fun idx hidx => ?_
  refine .seq (held_recoverInternally i _ hidx) fun _ => .bind (keeps_link i) fun l hl => ?_
  refine .ite (fun _ => keeps_throwNull) fun _ => .seq (held_reapplyFrom i _ hl.rdIdx) fun _ => ?_
  exact held_modLink (fun _ hl => hl) .refl .refl

theorem Link.InRange.setBack (hl : l.InRange) (h : SlotIdx idx) : (l.setBack idx).InRange :=
  { hl with tbls := tblSetAllSkipCnt_inRange hl.tbls, rdIdx := h }

theorem findSlotForReq_run (reqId : ℤ) (hl : s.links[i]? = some l) (hin : l.InRange) :
    ∃ idx, findSlotForReq i reqId s = .ok (idx, s) ∧ (idx = -1 ∨ SlotIdx idx ∧
      ∃ slot, l.inQ.slot[idx.toNat]? = some slot ∧ slot.reqId = reqId) := by
  have hfrom : ∀ n idx, SlotIdx idx → ∃ idx', findSlotFrom i reqId n idx s = .ok (idx', s) ∧
      (idx' = -1 ∨ SlotIdx idx' ∧
        ∃ slot, l.inQ.slot[idx'.toNat]? = some slot ∧ slot.reqId = reqId) := by
    intro n
    induction n with
    | zero => exact fun idx _ => ⟨-1, rfl, .inl rfl⟩
    | succ n ih =>
      intro idx hidx
      obtain ⟨slot, hget, hrun⟩ := slotAt_run hl hidx
      have hstep : findSlotFrom i reqId (n + 1) idx s =
          (if slot.reqId = reqId then pure idx
            else findSlotFrom i reqId n (decIdx idx 1 numSlots) : Crm ℤ) s := by
        change Except.bind (slotAt i idx s) _ = _
        rw [hrun]
        rfl
      rw [hstep]
      by_cases hreq : slot.reqId = reqId
      · rw [if_pos hreq]
        exact ⟨idx, rfl, .inr ⟨hidx, slot, hget, hreq⟩⟩
      · rw [if_neg hreq]
        exact ih _ (slotIdx_decIdx hidx (by decide) (by decide))
  obtain ⟨idx, hrun, hidx⟩ := hfrom maxReqSlots l.inQ.rdIdx hin.rdIdx
  refine ⟨idx, ?_, hidx⟩
  change Except.bind (link i s) _ = _
  rw [link_run, hl]
  exact hrun

theorem allows_findSlotForReq {reqId : ℤ} {k : ℤ → Crm α} {Q : α → Core → Prop} (hs : s.InRange)
    (h : ∀ l idx, s.links[i]? = some l → (idx = -1 ∨ SlotIdx idx ∧
      ∃ slot, l.inQ.slot[idx.toNat]? = some slot ∧ slot.reqId = reqId) →
      (ranged strict).Allows s Q (k idx s)) :
    (ranged strict).Allows s Q ((findSlotForReq i reqId >>= k) s) := by
  cases hl : s.links[i]? with
  | none =>
    change (ranged strict).Allows s Q (Except.bind (Except.bind (link i s) _) _)
    rw [link_run, hl]
    exact fun h => Fault.noConfusion h.2
  | some l =>
    obtain ⟨idx, hrun, hidx⟩ := findSlotForReq_run reqId hl (hs i l hl)
    exact .step hrun (Discipline.refl _ s) (h l idx hl hidx)

/-- The slot holds a request that is to be recovered from a bubble. -/
def Link.BubblesAt (l : Link) (pos reqId : ℤ) : Prop :=
  ∃ slot ∈ l.inQ.slot[pos.toNat]?, slot.reqId = reqId ∧ slot.recover ≠ 0 ∧
    (slot.status = .reqPending ∨ slot.status = .reqApplied)

/-- A bubble of a link does not apply the request of the last slot again where the timeout check
leaves the queue. -/
def Link.ErrorFits (l : Link) (err : ErrorNotify) : Prop :=
  l.BubblesAt (numSlots - 1) err.notify.reqId →
    (err.notify.trigger = triggerPointSof ∨
      err.notify.trigger = triggerPointEof ∧ l.eofEventCnt ≠ 0) →
    ¬ l.TimerLeaves (numSlots - 1)

theorem allows_recoverBubble (err : ErrorNotify) (hs : s.InRange) (h : SlotIdx idx) :
    (ranged strict).Allows s (fun _ s' =>
      LinkWise Link.Held { s with links := s.links.modify i (·.setBack idx) } s')
      (recoverBubble i err idx s) := by
  have hset : (ranged strict).Follows (modLink i (·.setBack idx)) :=
    ranged_modLink (fun _ hl => hl.setBack h) .refl
  obtain ⟨hin, hrel, _⟩ := hset s hs
  have hmark := (held_markBubble i err h).related (E := ranged strict) hin (fun _ h => h)
    (fun _ _ => LinkWise.imp fun _ _ h => h.2) fun _ h => h
  exact .step rfl hrel (hmark.mono fun _ _ h => LinkWise.imp (fun _ _ h => h.1) h.2)

theorem allows_processError {err : ErrorNotify} (hs : s.InRange)
    (hfits : strict = true → HoldsAt i (·.ErrorFits err) s) :
    (ranged strict).Allows s (fun _ _ => True) (processError i err s) := by
  refine allows_findSlotForReq hs fun l idx hl hfound => .ite (fun _ => .pure hs trivial) ?_
  intro hneg
  obtain ⟨hidx, slot, hget, hreq⟩ := hfound.resolve_left fun heq => hneg (heq ▸ by decide)
  refine allows_slotAt hs hl hidx fun slot' hget' _ => .ite (fun _ => .pure hs trivial) ?_
  intro hrecover
  refine .ite (fun _ => .pure hs trivial) fun hstatus => ?_
  rw [hget] at hget'
  cases hget'
  refine .bind (allows_recoverBubble err hs hidx) fun _ s' hs' _ hrel => ?_
  refine .bind (allows_processReq err.notify hs' fun l' hl' htakes hstrict hleaves => ?_)
    fun _ s hs _ _ => .pure hs trivial
  obtain ⟨back, hback, hmax, hrd, hskip, heof⟩ := hrel i l' hl'
  rw [getElem?_modify_eq, hl] at hback
  cases hback
  obtain ⟨hnoskip, hzero, hlast⟩ := hleaves
  rw [hrd] at hlast
  have hbubbles : l.BubblesAt (numSlots - 1) err.notify.reqId := by
    refine ⟨slot, ?_, hreq, hrecover, ?_⟩
    · exact hlast ▸ hget
    · cases hst : slot.status with
      | reqPending => exact .inl rfl
      | reqApplied => exact .inr rfl
      | noReq | reqAdded | reqReady => simp [hst] at hstatus
  refine hfits hstrict l hl hbubbles (htakes.imp (·.1) fun h => ⟨h.1, ?_⟩) ⟨?_, ?_, rfl⟩
  · exact heof ▸ h.2.1
  · exact hskip ▸ hnoskip
  · exact hmax ▸ hzero

/-! ## Triggers -/

/-- The slot a trigger processes: at SOF the one behind an applied request. -/
def Link.readPos (l : Link) (trigger : BitVec 32) : ℤ :=
  if trigger = triggerPointSof ∧ l.statusAt l.inQ.rdIdx = some .reqApplied then
    incIdx l.inQ.rdIdx 1 numSlots
  else l.inQ.rdIdx

/-- A trigger of a link that is activated does not take up the request of the last slot where the
timeout check leaves the queue. -/
def Link.TriggerFits (l : Link) (trigger : BitVec 32) : Prop :=
  l.state.belowReady = false → l.TakesUp trigger (l.readPos trigger) →
    ¬ l.TimerLeaves (l.readPos trigger)

theorem Link.Calm.statusAt (h : l.Calm l') {pos : ℤ} (hpos : SlotIdx pos) :
    l'.statusAt pos = l.statusAt pos ∨ l'.statusAt pos = some .noReq := by
  have hlt : pos.toNat < maxReqSlots := (Int.toNat_lt hpos.1).2 hpos.2
  rw [Link.statusAt, Link.statusAt, Vector.getElem?_eq_getElem hlt, Vector.getElem?_eq_getElem hlt]
  exact (h.status pos.toNat hlt).imp (congrArg some) (congrArg some)

theorem Link.Calm.takesUp (h : l.Calm l') {pos : ℤ} (hpos : SlotIdx pos)
    (htakes : l'.TakesUp triggerPointSof pos) : l.TakesUp triggerPointSof pos := by
  obtain ⟨hsof, hreq, happlied⟩ := htakes.resolve_right fun heof => absurd heof.1 (by decide)
  have hsame := (h.statusAt hpos).resolve_right hreq
  exact .inl ⟨hsof, hsame ▸ hreq, hsame ▸ happlied⟩

theorem Link.Calm.timerLeaves (h : l.Calm l') {pos : ℤ} (hleaves : l'.TimerLeaves pos) :
    l.TimerLeaves pos := by
  obtain ⟨hskip, hmax, hpos⟩ := hleaves
  exact ⟨h.skipInitFrame ▸ hskip, h.maxDelay ▸ hmax, hpos⟩

def Link.Checked (trigger : BitVec 32) (l l' : Link) : Prop :=
  l.Calm l' ∧ (trigger ≠ triggerPointSof → l'.inQ = l.inQ)

theorem Link.Checked.refl (trigger : BitVec 32) (l : Link) : l.Checked trigger l :=
  ⟨.refl l, fun _ => rfl⟩

theorem Link.Checked.trans {trigger : BitVec 32} (h : l.Checked trigger m)
    (h' : m.Checked trigger n) : l.Checked trigger n :=
  ⟨h.1.trans h'.1, fun hne => (h'.2 hne).trans (h.2 hne)⟩

def checked (strict : Bool) (trigger : BitVec 32) : Discipline Core Fault :=
  along strict (Link.Recording (Link.Checked trigger))
    (Link.Recording.refl (Link.Checked.refl trigger))
    (Link.Recording.trans fun _ _ _ => Link.Checked.trans)

theorem Link.TriggerFits.stay {trigger : BitVec 32} (hfits : l.TriggerFits trigger) (hl : l.InRange)
    (h : l.Checked trigger l') (hready : l'.state.belowReady = false)
    (hstay : ¬ (trigger = triggerPointSof ∧ l'.statusAt l'.inQ.rdIdx = some .reqApplied))
    (htakes : l'.TakesUp trigger l'.inQ.rdIdx) : l'.TimerFits := by
  obtain ⟨hcalm, hqueue⟩ := h
  intro hleaves
  have hleaves := hcalm.timerLeaves hleaves
  rw [hcalm.rdIdx] at hstay htakes hleaves
  rw [hcalm.state] at hready
  have htakes : l.TakesUp trigger l.inQ.rdIdx := by
    by_cases hsof : trigger = triggerPointSof
    · subst hsof
      exact hcalm.takesUp hl.rdIdx htakes
    · have hstatus : l'.statusAt l.inQ.rdIdx = l.statusAt l.inQ.rdIdx := by
        rw [Link.statusAt, Link.statusAt, hqueue hsof]
      rwa [Link.TakesUp, hstatus, hcalm.eofEventCnt] at htakes
  have hpos : l.readPos trigger = l.inQ.rdIdx := by
    refine if_neg fun happlied => ?_
    have hreq := htakes.resolve_right fun heof => absurd (happlied.1 ▸ heof.1) (by decide)
    exact hreq.2.2 happlied.2
  exact hfits hready (hpos ▸ htakes) (hpos ▸ hleaves)

def Link.movedOn (l : Link) : Link :=
  { l with inQ := { l.inQ with rdIdx := incIdx l.inQ.rdIdx 1 numSlots } }

theorem Link.TriggerFits.move (hfits : l.TriggerFits triggerPointSof) (hl : l.InRange)
    (hcalm : l.Calm l') (hready : l'.state.belowReady = false)
    (happlied : l'.statusAt l'.inQ.rdIdx = some .reqApplied) (hm : l'.Calm m)
    (htakes : m.movedOn.TakesUp triggerPointSof m.movedOn.inQ.rdIdx) : m.movedOn.TimerFits := by
  intro hleaves
  have hrd : m.inQ.rdIdx = l.inQ.rdIdx := hm.rdIdx.trans hcalm.rdIdx
  have hpos : l.readPos triggerPointSof = incIdx l.inQ.rdIdx 1 numSlots := by
    refine if_pos ⟨rfl, ?_⟩
    rw [hcalm.rdIdx] at happlied
    rw [← (hcalm.statusAt hl.rdIdx).resolve_right fun hno => ?_]
    · exact happlied
    · rw [hno] at happlied
      cases happlied
  have hnext : SlotIdx (incIdx l.inQ.rdIdx 1 numSlots) := slotIdx_incIdx hl.rdIdx (by decide)
  have hleaves : l.TimerLeaves (incIdx m.inQ.rdIdx 1 numSlots) :=
    (hcalm.trans hm).timerLeaves hleaves
  have htakes : m.TakesUp triggerPointSof (incIdx m.inQ.rdIdx 1 numSlots) := htakes
  rw [hrd] at hleaves htakes
  rw [hcalm.state] at hready
  exact hfits hready (hpos ▸ (hcalm.trans hm).takesUp hnext htakes) (hpos ▸ hleaves)

theorem allows_after_calm {β : Type} {m : Crm α} {k : α → Crm β} {P : α → Prop}
    {Q : β → Core → Prop} (hs : s.InRange) (hat : HoldsAt i l.Calm s) (hm : (calm strict).Keeps m P)
    (hk : ∀ a s', s'.InRange → HoldsAt i l.Calm s' → P a → (ranged strict).Allows s' Q (k a s')) :
    (ranged strict).Allows s Q ((m >>= k) s) :=
  allows_after (K := Link.Calm) (fun _ _ => Link.Calm.trans) hs hat hm hk

theorem checkForLowerPdDevices_of_zero (hl : l.InRange) (hmax : l.maxDelay = 0) :
    l.checkForLowerPdDevices = -EAGAIN := by
  refine if_neg fun hany => ?_
  obtain ⟨dev, hdev, hlt⟩ := any_eq_true.1 hany
  have h0 := (hl.devs dev hdev).pDelay.1
  have hlt := of_decide_eq_true hlt
  omega

theorem calm_noneApplied {p : Link → Prop} [DecidablePred p] :
    (calm strict).Follows (modLink i fun l => { l with inQ := { l.inQ with
      lastAppliedIdx := if p l then -1 else l.inQ.lastAppliedIdx } }) := by
  refine calm_modLink (fun l hl => { hl with })
    (fun l => ⟨rfl, rfl, rfl, rfl, rfl, fun _ _ => .inl rfl⟩)
    fun l => ⟨fun hlast => ?_, fun _ => .refl _⟩
  dsimp only
  split
  · decide
  · exact hlast

theorem allows_moveToNextReqSlot (hs : s.InRange) (hl : s.links[i]? = some l)
    (hmax : l.maxDelay = 0) : (ranged strict).Allows s (fun rc s' => rc = 0 →
      HoldsAt i (fun l' => ∃ m, l.Calm m ∧ l' = m.movedOn) s') (moveToNextReqSlot i s) := by
  have hcalm : HoldsAt i l.Calm s := by
    intro l' hl'
    rw [hl] at hl'
    cases hl'
    exact .refl l
  have hmove : ∀ s : Core, s.InRange → HoldsAt i l.Calm s →
      (ranged strict).Allows s (fun rc s' => rc = 0 →
        HoldsAt i (fun l' => ∃ m, l.Calm m ∧ l' = m.movedOn) s') ((do
        modLink i Link.movedOn
        pure 0 : Crm ℤ) s) := by
    intro s hs hcalm
    have hmoved : (ranged strict).Follows (modLink i Link.movedOn) :=
      ranged_modLink (fun l hl => { hl with rdIdx := slotIdx_incIdx hl.rdIdx (by decide) }) .refl
    obtain ⟨hin, hrel, _⟩ := hmoved s hs
    refine .step rfl hrel (.pure hin fun _ l' hl' => ?_)
    rw [getElem?_modify_eq] at hl'
    obtain ⟨m, hm, rfl⟩ := Option.map_eq_some_iff.1 hl'
    exact ⟨m, hcalm m hm, rfl⟩
  refine allows_link hs fun l₀ hl₀ hin => ?_
  have hnext : SlotIdx (incIdx l₀.inQ.rdIdx 1 numSlots) := slotIdx_incIdx hin.rdIdx (by decide)
  have hrest : ∀ s : Core, s.InRange → HoldsAt i l.Calm s →
      (ranged strict).Allows s (fun rc s' => rc = 0 →
        HoldsAt i (fun l' => ∃ m, l.Calm m ∧ l' = m.movedOn) s') ((do
        let rc ←
          if (← slotAt i (incIdx l₀.inQ.rdIdx 1 numSlots)).status = .noReq then
            skipEmptySlot i (incIdx l₀.inQ.rdIdx 1 numSlots)
          else do
            modLink i fun l => { l with contEmptySlots := 0 }
            pure 0
        if rc ≠ 0 then pure rc
        else
          modLink i Link.movedOn
          pure 0 : Crm ℤ) s) := by
    intro s hs hcalm
    refine allows_after_calm hs hcalm (keeps_slotAt i hnext)
      fun slot s hs hcalm _ => .ite (fun _ => ?_) fun _ => ?_
    · refine Allows.bind (P := fun rc _ => rc = -EAGAIN)
        (allows_link hs fun l' hl' hin' => ?_) fun rc s hs _ hfail => ?_
      · have hfail := checkForLowerPdDevices_of_zero hin' ((hcalm l' hl').maxDelay.trans hmax)
        exact .ite (fun _ => .pure hs hfail) fun h0 => absurd (hfail ▸ by decide) h0
      · subst hfail
        exact .pure hs fun h => absurd h (by decide)
    · exact allows_after_calm hs hcalm
        (calm_modLink (fun _ hl => hl) .refl .refl) fun _ s hs hcalm _ => hmove s hs hcalm
  refine allows_after_calm hs hcalm (keeps_slotAt i hnext)
    fun slot s hs hcalm _ => .ite (fun _ => ?_) fun _ => hrest s hs hcalm
  refine allows_after_calm hs hcalm calm_noneApplied fun _ s hs hcalm _ => ?_
  exact allows_after_calm hs hcalm (calm_resetReqSlot i hnext)
    fun _ s hs hcalm _ => hrest s hs hcalm

theorem calm_retireDone (i : ℕ) (t : TriggerNotify) : (calm strict).Follows (retireDone i t) := by
  refine .bind (calm_findSlotForReq i t.reqId) fun idx hfound => .ite (fun h0 => ?_) ?_
  · have hidx : SlotIdx idx := SlotIdx.of_found hfound (Int.not_lt.2 h0)
    refine .seq calm_noneApplied fun _ => .seq (keeps_link i) fun l => ?_
    have hback : SlotIdx (if idx = l.inQ.rdIdx then decIdx idx 1 numSlots else idx) := by
      split
      · exact slotIdx_decIdx hidx (by decide) (by decide)
      · exact hidx
    refine .bind (calm_resetStep i) fun step hstep => ?_
    exact calm_resetReqSlot i (hstep.resetIdx hback)
  · exact fun _ => .pure trivial

def Link.SameDelay (l l' : Link) : Prop :=
  l'.maxDelay = l.maxDelay

theorem Link.SameDelay.refl (l : Link) : l.SameDelay l := rfl

theorem Link.SameDelay.trans (h : l.SameDelay m) (h' : m.SameDelay n) : l.SameDelay n :=
  Eq.trans h' h

def sameDelay (strict : Bool) : Discipline Core Fault :=
  along strict (Link.Recording Link.SameDelay) (Link.Recording.refl Link.SameDelay.refl)
    (Link.Recording.trans fun _ _ _ => Link.SameDelay.trans)

theorem sameDelay_of_calm {m : Crm α} {Q : α → Prop} (h : (calm strict).Keeps m Q) :
    (sameDelay strict).Keeps m Q :=
  h.loosen (fun _ => Iff.rfl) (fun _ _ => LinkWise.imp fun _ _ h => ⟨h.1.maxDelay, h.2⟩)
    fun _ h => h

theorem sameDelay_modLink (h : ∀ l, l.InRange → (f l).InRange)
    (hf : ∀ l : Link, l.SameDelay (f l))
    (hr : ∀ l : Link, l.KeepsRecords (f l)) :
    (sameDelay strict).Follows (modLink i f) :=
  keeps_modLink fun l hl => ⟨h l hl, hf l, hr l⟩

theorem sameDelay_modSlot {f : Slot → Slot} (h : SlotIdx idx)
    (hf : ∀ slot, slot.InRange → (f slot).InRange)
    (hr : ∀ slot : Slot, slot.KeepsRecord (f slot)) :
    (sameDelay strict).Follows (modSlot i idx f) :=
  keeps_modSlot h hf fun l k hk => ⟨Link.SameDelay.refl l, keepsRecords_withSlots hr l k hk⟩

theorem sameDelay_skipEmptySlot (i : ℕ) (h : SlotIdx idx) :
    (sameDelay strict).Follows (skipEmptySlot i idx) := by
  refine .seq (keeps_link i) fun l => .ite (fun _ => .pure trivial) fun _ => ?_
  refine .seq (sameDelay_modLink (fun _ hl => hl) .refl .refl) fun _ => ?_
  refine .ite (fun _ => .pure trivial) fun _ => ?_
  refine .seq (sameDelay_modSlot h (fun _ hin => ⟨hin.idx, hin.numSyncLinks⟩) fun _ => .inl rfl)
    fun _ => ?_
  refine .seq (sameDelay_modSlot h (fun _ hin => ⟨hin.idx, hin.numSyncLinks⟩)
    fun _ => .inr ⟨rfl, id⟩) fun _ => ?_
  refine .ite (fun _ => ?_) fun _ => .pure trivial
  refine .seq (sameDelay_modLink (fun l hl => ?_) .refl .refl) fun _ => .pure trivial
  exact { hl with wrIdx := slotIdx_incIdx hl.wrIdx (by decide) }

theorem sameDelay_moveToNextReqSlot (i : ℕ) : (sameDelay strict).Follows (moveToNextReqSlot i) := by
  have hmove (rc : ℤ) : (sameDelay strict).Follows (do
      if rc ≠ 0 then pure rc
      else
        modLink i Link.movedOn
        pure 0 : Crm ℤ) := by
    refine .ite (fun _ => .pure trivial) fun _ => ?_
    refine .seq (sameDelay_modLink (fun l hl => ?_) .refl .refl) fun _ => .pure trivial
    exact { hl with rdIdx := slotIdx_incIdx hl.rdIdx (by decide) }
  refine .bind (keeps_link i) fun l hl => ?_
  have hnext : SlotIdx (incIdx l.inQ.rdIdx 1 numSlots) := slotIdx_incIdx hl.rdIdx (by decide)
  have hrest : (sameDelay strict).Follows (do
      let rc ←
        if (← slotAt i (incIdx l.inQ.rdIdx 1 numSlots)).status = .noReq then
          skipEmptySlot i (incIdx l.inQ.rdIdx 1 numSlots)
        else do
          modLink i fun l => { l with contEmptySlots := 0 }
          pure 0
      if rc ≠ 0 then pure rc
      else
        modLink i Link.movedOn
        pure 0 : Crm ℤ) := by
    refine .seq (keeps_slotAt i hnext) fun slot => .ite (fun _ => ?_) fun _ => ?_
    · exact .seq (sameDelay_skipEmptySlot i hnext) hmove
    · exact .seq (sameDelay_modLink (fun _ hl => hl) .refl .refl) fun _ => hmove 0
  refine .seq (keeps_slotAt i hnext) fun slot => .ite (fun _ => ?_) fun _ => hrest
  refine .seq (sameDelay_of_calm calm_noneApplied) fun _ => ?_
  exact .seq (sameDelay_of_calm (calm_resetReqSlot i hnext)) fun _ => hrest

def CheckedFrom (s : Core) (i : ℕ) (trigger : BitVec 32) (l' : Link) : Prop :=
  ∃ l, s.links[i]? = some l ∧ l.Checked trigger l'

/-- The part of `cam_req_mgr_process_trigger` behind an applied request at SOF. -/
theorem allows_moveAndProcess (hsof : t.trigger = triggerPointSof) (hs : s.InRange)
    (hl' : s.links[i]? = some l') (hl : l.InRange)
    (hfits : strict = true → l.TriggerFits t.trigger) (hcalm : l.Calm l')
    (hready : l'.state.belowReady = false)
    (happlied : l'.statusAt l'.inQ.rdIdx = some .reqApplied) :
    (ranged strict).Allows s (fun _ _ => True) ((do
      let rc ← moveToNextReqSlot i
      if rc ≠ 0 then
        notifyFrameSkip i t.trigger
        pure 0
      else processReq i t : Crm ℤ) s) := by
  have hskip : (ranged strict).Follows (do
      notifyFrameSkip i t.trigger
      pure 0 : Crm ℤ) :=
    .seq (ranged_of_calm (calm_notifyFrameSkip i _)) fun _ => .pure trivial
  rw [hsof] at hfits
  by_cases hmax : l'.maxDelay = 0
  · refine .bind (allows_moveToNextReqSlot hs hl' hmax) fun rc s hs _ hmoved => ?_
    refine .ite (fun _ => hskip s hs) fun hrc =>
      allows_processReq t hs fun l'' hl'' htakes hstrict => ?_
    obtain ⟨m, hm, rfl⟩ := hmoved (Decidable.not_not.1 hrc) l'' hl''
    rw [hsof] at htakes
    exact (hfits hstrict).move hl hcalm hready happlied hm htakes
  · have hat : HoldsAt i (·.maxDelay ≠ 0) s := by
      intro l'' hl''
      rw [hl'] at hl''
      cases hl''
      exact hmax
    have hkeeps : ∀ l l' : Link, l.maxDelay ≠ 0 → l.SameDelay l' → l'.maxDelay ≠ 0 :=
      fun l l' hne heq h0 => hne (heq.symm.trans h0)
    refine allows_after (K := Link.SameDelay) hkeeps hs hat (sameDelay_moveToNextReqSlot i)
      fun rc s hs hat _ => ?_
    refine .ite (fun _ => hskip s hs) fun _ => allows_processReq t hs fun l'' hl'' _ _ hleaves => ?_
    exact hat l'' hl'' hleaves.2.1

theorem allows_processTrigger (hs : s.InRange)
    (hfits : strict = true → HoldsAt i (·.TriggerFits t.trigger) s) :
    (ranged strict).Allows s (fun _ _ => True) (processTrigger i t s) := by
  have hrest : ∀ s', s'.InRange → HoldsAt i (CheckedFrom s i t.trigger) s' →
      (ranged strict).Allows s' (fun _ _ => True) ((do
        let l ← link i
        let slot ← slotAt i l.inQ.rdIdx
        if l.state.belowReady then pure (-EPERM)
        else if t.trigger = triggerPointSof ∧ slot.status = .reqApplied then
          let rc ← moveToNextReqSlot i
          if rc ≠ 0 then
            notifyFrameSkip i t.trigger
            pure 0
          else processReq i t
        else processReq i t : Crm ℤ) s') := by
    intro s' hs' hat
    refine allows_link hs' fun l' hl' hin => allows_slotAt hs' hl' hin.rdIdx fun slot hget _ => ?_
    refine .ite (fun _ => .pure hs' trivial) fun hready => ?_
    obtain ⟨l, hl, hchecked⟩ := hat l' hl'
    have hstatus : l'.statusAt l'.inQ.rdIdx = some slot.status := by
      rw [Link.statusAt, hget, Option.map_some]
    have hready := Bool.eq_false_iff.2 hready
    refine .ite (fun happlied => ?_) fun hstay => ?_
    · exact allows_moveAndProcess happlied.1 hs' hl' (hs i l hl)
        (fun hstrict => hfits hstrict l hl) hchecked.1 hready
        (hstatus.trans (congrArg some happlied.2))
    · refine allows_processReq t hs' fun l'' hl'' htakes hstrict => ?_
      rw [hl'] at hl''
      cases hl''
      refine (hfits hstrict l hl).stay (hs i l hl) hchecked hready (fun happlied => hstay ?_) htakes
      exact ⟨happlied.1, Option.some.inj (hstatus.symm.trans happlied.2)⟩
  have hat : HoldsAt i (CheckedFrom s i t.trigger) s := fun l hl => ⟨l, hl, .refl _ l⟩
  have htrans : ∀ l₁ l₂ : Link, CheckedFrom s i t.trigger l₁ → l₁.Checked t.trigger l₂ →
      CheckedFrom s i t.trigger l₂ := by
    rintro l₁ l₂ ⟨l, hl, hchecked⟩ h
    exact ⟨l, hl, hchecked.trans h⟩
  refine .ite (fun hsof => ?_) fun hsof => ?_
  · refine allows_after (K := Link.Calm) (fun l₁ l₂ h hcalm => htrans l₁ l₂ h ⟨hcalm, ?_⟩) hs hat
      (calm_retireDone i t) fun _ s' hs' hat _ => hrest s' hs' hat
    exact fun hne => absurd hsof hne
  · have hlink : (checked strict t.trigger).Keeps (link i) Link.InRange := keeps_link i
    have hevt : (checked strict t.trigger).Follows (sendEvt i .eof) :=
      keeps_sendEvt i _ fun l _ => ⟨.refl _ l, .refl l⟩
    refine allows_after (K := Link.Checked t.trigger) htrans hs hat hlink
      fun l s' hs' hat _ => .ite (fun _ => ?_) fun _ => hrest s' hs' hat
    exact allows_after (K := Link.Checked t.trigger) htrans hs' hat hevt
      fun _ s' hs' hat _ => hrest s' hs' hat

/-! ## Runs -/

/-- The input does not make the timeout check of a link leave the queue. -/
def TimerOk (s : Except Fault Core) (input : Op × List Answer) : Prop :=
  match s, input.1 with
  | .ok s, .trigger i t => ∀ l ∈ s.links[i]?, l.TriggerFits t.trigger
  | .ok s, .error i err => ∀ l ∈ s.links[i]?, l.ErrorFits err
  | _, _ => True

/-- A link as it is set up, in a session with any recovery setting. -/
def Link.SetUp (l : Link) : Prop :=
  ∃ linkHdl devs forceErrRecovery,
    (setupLinkInfo linkHdl devs).map ({ · with forceErrRecovery }) = some l

theorem Link.SetUp.inRange (h : l.SetUp) : l.InRange := by
  obtain ⟨linkHdl, devs, forceErrRecovery, hsetup⟩ := h
  obtain ⟨l, hl, rfl⟩ := Option.map_eq_some_iff.1 hsetup
  have hin : l.InRange := setupLinkInfo_inRange hl
  exact hin

/-- No index was out of range, and none of the links' is. -/
def IndexesOk : Except Fault Core → Prop
  | .ok s => s.InRange
  | .error e => e ≠ .index

/-- A step gives a slot up, or it stays marked as recovered. -/
def Link.StepKeeps (l l' : Link) : Prop :=
  (l.inQ.lastAppliedIdx < numSlots → l'.inQ.lastAppliedIdx < numSlots) ∧
    ∀ k : SlotNum, (l'.inQ.slot.get k).reqId = -1 ∨
      ((l.inQ.slot.get k).internalRecovered → (l'.inQ.slot.get k).internalRecovered)

theorem Link.KeepsRecords.stepKeeps (h : l.KeepsRecords l') : l.StepKeeps l' :=
  ⟨h.1, fun k => (h.2 k).imp id And.right⟩

theorem Link.KeepsMarks.stepKeeps (h : l.KeepsMarks l') : l.StepKeeps l' :=
  ⟨h.1, fun k => .inr (h.2 k)⟩

/-- The outcome of an operation on the links, which only if it is judged strictly uses no index
out of range. -/
def StepsTo (strict : Bool) (s : Core) : Except Fault (ℤ × Core) → Prop
  | .ok (_, s') => s'.InRange ∧ LinkWise Link.StepKeeps s s'
  | .error e => ¬ (strict = true ∧ e = .index)

theorem stepsTo_of_allows {K : Link → Link → Prop} {hrefl : ∀ l, K l l}
    {htrans : ∀ l m n, K l m → K m n → K l n} {out : Except Fault (ℤ × Core)} {Q : ℤ → Core → Prop}
    (hK : ∀ l l', K l l' → l.StepKeeps l') (h : (along strict K hrefl htrans).Allows s Q out) :
    StepsTo strict s out := by
  cases out with
  | error e => exact h
  | ok out => exact ⟨h.1, LinkWise.imp hK h.2.1⟩

theorem stepsTo_of_ranged {m : Crm ℤ} (h : (ranged strict).Follows m) (hs : s.InRange) :
    StepsTo strict s (m s) :=
  stepsTo_of_allows (fun _ _ => Link.KeepsRecords.stepKeeps) (h s hs)

theorem stepsTo_of_marked {m : Crm ℤ} (h : (marked strict).Follows m) (hs : s.InRange) :
    StepsTo strict s (m s) :=
  stepsTo_of_allows (fun _ _ => Link.KeepsMarks.stepKeeps) (h s hs)

theorem run_stepsTo {input : Op × List Answer} (hs : s.InRange)
    (hok : strict = true → TimerOk (.ok s) input) :
    StepsTo strict s (input.1.run { s with answers := input.2 }) := by
  obtain ⟨op, answers⟩ := input
  have hs : Core.InRange { s with answers } := hs
  change StepsTo strict { s with answers } _
  cases op with
  | schedule linkHdl reqId bubbleEnable syncMode additionalTimeout =>
    exact stepsTo_of_marked (marked_scheduleRequest _ _ _ _ _) hs
  | scheduleV2 linkHdl req => exact stepsTo_of_marked (marked_scheduleRequestV2 _ _) hs
  | cbAddReq i add => exact stepsTo_of_ranged (ranged_cbAddReq _ _) hs
  | addReq i add => exact stepsTo_of_ranged (ranged_processAddReq _ _) hs
  | trigger i t =>
    exact stepsTo_of_allows (fun _ _ => Link.KeepsRecords.stepKeeps) (allows_processTrigger hs hok)
  | flushAll i flush => exact stepsTo_of_ranged (ranged_flushAll _ _) hs
  | flushCancel i flush => exact stepsTo_of_ranged (ranged_flushCancel _ _) hs
  | error i err =>
    exact stepsTo_of_allows (fun _ _ => Link.KeepsRecords.stepKeeps) (allows_processError hs hok)
  | syncConfig linkHdls sync => exact stepsTo_of_ranged (ranged_syncConfig _ _) hs
  | linkControl i activate initTimeout => exact stepsTo_of_ranged (ranged_linkControl _ _ _) hs

theorem indexesOk_advance (s : Except Fault Core) (input : Op × List Answer) (h : IndexesOk s)
    (hok : TimerOk s input) : IndexesOk (advance s input) := by
  cases s with
  | error e => exact h
  | ok s =>
    have hrun : StepsTo true s _ := run_stepsTo h fun _ => hok
    change IndexesOk (Except.bind (input.1.run { s with answers := input.2 }) _)
    cases hout : input.1.run { s with answers := input.2 } with
    | error e =>
      rw [hout] at hrun
      exact fun hindex => hrun ⟨rfl, hindex⟩
    | ok out =>
      rw [hout] at hrun
      exact hrun.1

theorem stepKeeps_advance {s : Except Fault Core} {s' : Core} {input : Op × List Answer}
    (h : advance s input = .ok s') : ∃ s₀, s = .ok s₀ ∧
      (s₀.InRange → s'.InRange ∧ LinkWise Link.StepKeeps s₀ s') := by
  cases s with
  | error e => cases h
  | ok s₀ =>
    refine ⟨s₀, rfl, fun hs => ?_⟩
    have hrun : StepsTo false s₀ (input.1.run { s₀ with answers := input.2 }) :=
      run_stepsTo hs fun hstrict => by cases hstrict
    change Except.bind (input.1.run { s₀ with answers := input.2 }) _ = _ at h
    cases hout : input.1.run { s₀ with answers := input.2 } with
    | error e =>
      rw [hout] at h
      cases h
    | ok out =>
      rw [hout] at h hrun
      cases h
      exact hrun

/-- No run from links as they are set up uses an index out of range, as long as no trigger and no
bubble takes up the request of the last slot of a link whose devices all have delay 0. -/
theorem indexes_in_range {core : Core} (hlinks : ∀ l ∈ core.links, l.SetUp)
    {s : Except Fault Core}
    (hrun : Relation.ReflTransGen (GuardedStep TimerOk advance) (.ok core) s) :
    s ≠ .error .index := by
  have hstart : IndexesOk (.ok core) :=
    fun i l hl => (hlinks l (mem_of_getElem? hl)).inRange
  have hend := invariant_of_guarded indexesOk_advance hstart hrun
  intro hfault
  rw [hfault] at hend
  exact hend rfl

section Runs

set_option maxRecDepth 20000

instance (l : Link) (pos : ℤ) : Decidable (l.TimerLeaves pos) :=
  inferInstanceAs (Decidable (_ ∧ _))

instance (l : Link) (trigger : BitVec 32) (pos : ℤ) : Decidable (l.TakesUp trigger pos) :=
  inferInstanceAs (Decidable (_ ∨ _))

instance (l : Link) (trigger : BitVec 32) : Decidable (l.TriggerFits trigger) :=
  inferInstanceAs (Decidable (_ → _ → ¬ _))

instance (l : Link) (pos reqId : ℤ) : Decidable (l.BubblesAt pos reqId) :=
  inferInstanceAs (Decidable (∃ slot ∈ l.inQ.slot[pos.toNat]?, _))

instance (l : Link) (err : ErrorNotify) : Decidable (l.ErrorFits err) :=
  inferInstanceAs (Decidable (_ → _ → ¬ _))

instance (s : Except Fault Core) (input : Op × List Answer) : Decidable (TimerOk s input) :=
  match s, input with
  | .error _, _ => isTrue trivial
  | .ok s, (.trigger i t, _) =>
    inferInstanceAs (Decidable (∀ l ∈ s.links[i]?, l.TriggerFits t.trigger))
  | .ok s, (.error i err, _) => inferInstanceAs (Decidable (∀ l ∈ s.links[i]?, l.ErrorFits err))
  | .ok _, (.schedule .., _) | .ok _, (.scheduleV2 .., _) | .ok _, (.cbAddReq .., _)
  | .ok _, (.addReq .., _) | .ok _, (.flushAll .., _) | .ok _, (.flushCancel .., _)
  | .ok _, (.syncConfig .., _) | .ok _, (.linkControl .., _) => isTrue trivial

/-- A link of one device, which takes its requests at SOF without delay. -/
def undelayedDev : DeviceInfo × KmdOps :=
  ({ devHdl := 10, name := "ife", devId := .ife, pDelay := 0, trigger := triggerPointSof }, {})

/-- A sensor that takes its requests two frames ahead. -/
def delayedDev : DeviceInfo × KmdOps :=
  ({ devHdl := 11, name := "sensor", devId := .sensor, pDelay := 2, trigger := triggerPointSof },
    {})

def coreOf (devs : List (DeviceInfo × KmdOps)) : Core :=
  { links := (setupLinkInfo 1 devs).toList }

theorem coreOf_setUp (devs : List (DeviceInfo × KmdOps)) :
    ∀ l ∈ (coreOf devs).links, l.SetUp := by
  intro l hl
  have hl := Option.mem_toList.1 hl
  exact ⟨1, devs, l.forceErrRecovery, by rw [hl]; rfl⟩

/-- The request `k + 1` is scheduled, added by the device and applied at SOF. -/
def frame (k : ℕ) (devHdls : List ℤ) : List (Op × List Answer) :=
  let sof : Op := .trigger 0 { trigger := triggerPointSof, reqId := k, jiffies := 100 }
  (.schedule 1 (k + 1) 0 0 0, []) :: (sof, []) ::
    devHdls.flatMap (fun devHdl =>
      [(.cbAddReq 0 { devHdl, reqId := k + 1 }, []), (.addReq 0 { devHdl, reqId := k + 1 }, [])]) ++
    [(sof, [])]

theorem indexes_in_range_delayed : ((frame 0 [10, 11]).foldl advance
    (.ok (coreOf [undelayedDev, delayedDev]))) ≠ .error .index :=
  indexes_in_range (coreOf_setUp _) (guarded_foldl (by decide +kernel))

/-- On a link without delay the request in the last slot leads out of the queue. -/
theorem not_indexes_in_range : ¬ ∀ core : Core, (∀ l ∈ core.links, l.SetUp) →
    ∀ inputs : List (Op × List Answer),
      inputs.foldl advance (.ok core) ≠ .error .index := by
  intro h
  have hrun := h (coreOf [undelayedDev]) (coreOf_setUp _)
    ((range 48).flatMap fun k => frame k [10])
  exact hrun (by decide +kernel)

end Runs

end QcomModules.CamReqMgr
