import QcomModules.CamReqMgr.Ranges

/-! The checks before a request is sent use indexes in range and leave the read index, and what
the watchdog's timeout depends on, as they are. -/

namespace QcomModules.CamReqMgr

open Library Discipline
open List hiding Vector

/-! ## The input queue -/

variable {strict : Bool} {i : ℕ} {idx syncSlotIdx n : ℤ} {f : TblSlot → TblSlot} {l : Link}
  {devs : List ConnectedDevice} {dev : ConnectedDevice}

theorem calm_modSlot {f : Slot → Slot} (h : SlotIdx idx)
    (hf : ∀ slot, slot.InRange → (f slot).InRange)
    (hs : ∀ slot, (f slot).status = slot.status ∨ (f slot).status = .noReq)
    (hr : ∀ slot : Slot, slot.KeepsRecord (f slot)) :
    (calm strict).Follows (modSlot i idx f) :=
  keeps_modSlot h hf fun l k hk => ⟨calm_withSlots hs l k hk, keepsRecords_withSlots hr l k hk⟩

theorem calm_modTblSlots (h : SlotIdx idx) : (calm strict).Follows (modTblSlots i idx f) :=
  keeps_modTblSlots h fun l _ => ⟨Link.Calm.refl l, .refl l⟩

theorem calm_modLink {f : Link → Link} (h : ∀ l, l.InRange → (f l).InRange)
    (hf : ∀ l : Link, l.Calm (f l))
    (hr : ∀ l : Link, l.KeepsRecords (f l)) :
    (calm strict).Follows (modLink i f) :=
  keeps_modLink fun l hl => ⟨h l hl, hf l, hr l⟩

theorem Slot.InRange.unsynced {slot : Slot} (h : slot.InRange) {slot' : Slot}
    (hidx : slot'.idx = slot.idx) (hnum : slot'.numSyncLinks = 0) : slot'.InRange :=
  ⟨hidx ▸ h.idx, hnum ▸ by decide⟩

theorem calm_findSlotForReq (i : ℕ) (reqId : ℤ) :
    (calm strict).Keeps (findSlotForReq i reqId) fun idx => idx = -1 ∨ SlotIdx idx := by
  have hfrom : ∀ n idx, SlotIdx idx →
      (calm strict).Keeps (findSlotFrom i reqId n idx) fun idx => idx = -1 ∨ SlotIdx idx := by
    intro n
    induction n with
    | zero => exact fun _ _ => .pure (.inl rfl)
    | succ n ih =>
      intro idx hidx
      refine .seq (keeps_slotAt i hidx) fun slot => .ite (fun _ => .pure (.inr hidx)) fun _ => ?_
      exact ih _ (slotIdx_decIdx hidx (by decide) (by decide))
  exact .bind (keeps_link i) fun l hl => hfrom _ _ hl.rdIdx

theorem SlotIdx.of_found (h : idx = -1 ∨ SlotIdx idx) (hneg : ¬ idx < 0) : SlotIdx idx :=
  h.resolve_left fun heq => hneg (heq ▸ by decide)

theorem calm_disconnectReqOnSyncLink (i : ℕ) {slot : Slot} (hslot : slot.InRange) :
    (calm strict).Follows (disconnectReqOnSyncLink i slot) := by
  refine .seq (keeps_link i) fun l => .forM fun k hk => ?_
  have hlt := hslot.numSyncLinks
  rw [mem_range] at hk
  refine .seq (keeps_elemAt_any (by omega) (by omega)) fun hdl => ?_
  refine .seq (keeps_getLinkPriv hdl) fun j => ?_
  cases j with
  | none => exact .pure trivial
  | some j =>
    refine .bind (calm_findSlotForReq j slot.reqId) fun syncIdx hfound => ?_
    refine .ite (fun _ => .pure trivial) fun hneg => ?_
    have hsync := SlotIdx.of_found hfound hneg
    refine .seq (keeps_slotAt j hsync) fun syncSlot => .ite (fun _ => ?_) fun _ => .pure trivial
    exact calm_modSlot hsync (fun slot hin => hin.unsynced rfl rfl) (fun _ => .inl rfl) .refl

theorem calm_resetReqSlot (i : ℕ) (h : SlotIdx idx) :
    (calm strict).Follows (resetReqSlot i idx) := by
  refine .ite (fun _ => .pure trivial) fun _ => .bind (keeps_slotAt i h) fun slot hslot => ?_
  refine .seq (keeps_link i) fun l => .ite (fun _ => .pure trivial) fun _ => ?_
  have hrest : (calm strict).Follows (do
      modSlot i idx Slot.retired
      modTblSlots i idx fun _ => {}) :=
    .seq (calm_modSlot h (fun slot hin => hin.unsynced rfl rfl) (fun _ => .inr rfl) fun _ =>
      .inl rfl) fun _ => calm_modTblSlots h
  exact .ite (fun _ => .seq (calm_disconnectReqOnSyncLink i hslot) fun _ => hrest) fun _ => hrest

/-! ## The walk over the tables -/

theorem ReqTbl.InRange.next {tbl : ReqTbl} (h : tbl.InRange) (hidx : SlotIdx idx) :
    SlotIdx (decIdx idx tbl.pdDelta numSlots) :=
  slotIdx_decIdx hidx h.pdDelta.1 h.pdDelta.2

section Walk

variable {D : Discipline Core Fault}

variable {lTbl : List ReqTbl} {idx : ℤ} {inQ : ReqQueue} {validateOnly : Bool}
  {applyData : Vector Apply camPipelineDelayMax}

theorem yields_injectDelay (trigger : BitVec 32) (h : ∀ tbl ∈ lTbl, tbl.InRange)
    (hidx : SlotIdx idx) :
    D.Yields (fun out => ∀ tbl ∈ out.2, tbl.InRange) (injectDelay trigger lTbl idx) := by
  induction lTbl generalizing idx with
  | nil => exact fun _ htbl => absurd htbl not_mem_nil
  | cons tbl rest ih =>
    have hhead := h tbl mem_cons_self
    refine .bind (yields_elemAt (fun _ _ => trivial) hidx.1 hidx.2) fun slot _ => ?_
    refine .bind (yields_modElem_any hidx.1 hidx.2) fun slots _ => ?_
    refine .bind (ih (fun t ht => h t (mem_cons_of_mem tbl ht)) (hhead.next hidx))
      fun out hout => ?_
    exact forall_mem_cons.2 ⟨⟨hhead.pd, hhead.pdDelta⟩, hout⟩

/-- The walk hands out slot indexes and keeps the tables in range. -/
structure TraverseData.InRange (data : TraverseData) : Prop where
  apply : ∀ a ∈ data.applyData, SlotIdx a.idx
  tbls : ∀ tbl ∈ data.lTbl, tbl.InRange

theorem yields_proceed {tbl : ReqTbl} {below : TraverseData} (htbl : tbl.InRange)
    (hidx : SlotIdx idx) (h : below.InRange) :
    D.Yields TraverseData.InRange (proceed inQ tbl idx validateOnly below) := by
  rw [proceed]
  split
  · exact ⟨h.apply, forall_mem_cons.2 ⟨htbl, h.tbls⟩⟩
  · refine .bind (yields_elemAt (fun _ _ => trivial) hidx.1 hidx.2) fun slot _ => ?_
    refine .bind (yields_modElem (P := fun a => SlotIdx a.idx) h.apply (fun _ _ => hidx)
      htbl.pd.1 htbl.pd.2) fun applyData happly => ⟨happly, forall_mem_cons.2 ⟨?_, h.tbls⟩⟩
    split
    · exact ⟨htbl.pd, htbl.pdDelta⟩
    · exact htbl

theorem yields_traverseTbls (happly : ∀ a ∈ applyData, SlotIdx a.idx)
    (h : ∀ tbl ∈ lTbl, tbl.InRange) (hidx : SlotIdx idx) :
    D.Yields TraverseData.InRange (traverseTbls inQ applyData validateOnly lTbl idx) := by
  induction lTbl generalizing idx with
  | nil => exact ⟨happly, h⟩
  | cons tbl rest ih =>
    have hhead := h tbl mem_cons_self
    have hrest : ∀ t ∈ rest, t.InRange := fun t ht => h t (mem_cons_of_mem tbl ht)
    refine .bind (yields_elemAt (fun _ _ => trivial) hidx.1 hidx.2) fun tblSlot _ => ?_
    refine .bind (yields_elemAt (fun _ _ => trivial) hidx.1 hidx.2) fun slot _ => ?_
    split
    · refine .bind (ih hrest (hhead.next hidx)) fun below hin => ?_
      split
      · exact yields_proceed hhead hidx hin
      · exact ⟨hin.apply, forall_mem_cons.2 ⟨hhead, hin.tbls⟩⟩
    · exact ⟨happly, h⟩

theorem yields_traverse (happly : ∀ a ∈ applyData, SlotIdx a.idx) (h : ∀ tbl ∈ lTbl, tbl.InRange)
    (hidx : SlotIdx idx) :
    D.Yields TraverseData.InRange (traverse inQ applyData validateOnly lTbl idx) := by
  cases lTbl with
  | nil => exact ⟨happly, h⟩
  | cons tbl rest => exact yields_traverseTbls happly h hidx

end Walk

theorem slotIdx_zero : SlotIdx 0 := ⟨Int.le_refl 0, by decide⟩

theorem calm_checkLinkIsReady (i : ℕ) (validateOnly : Bool) (h : SlotIdx idx) :
    (calm strict).Follows (checkLinkIsReady i idx validateOnly) := by
  refine .seq (calm_modLink (fun l hl => { hl with apply := ?_ }) .refl .refl) fun _ => ?_
  · intro a ha
    cases validateOnly with
    | true => exact hl.apply a ha
    | false =>
      rw [Vector.eq_of_mem_replicate ha]
      exact slotIdx_zero
  refine .seq (keeps_slotAt i h) fun linkSlot => .bind (keeps_link i) fun l hl => ?_
  refine .bind (.lift (yields_traverse hl.apply hl.tbls h)) fun data hdata => ?_
  refine .seq (calm_modLink (fun l hl => { hl with apply := hdata.apply, tbls := hdata.tbls })
    .refl .refl) fun _ => .ite (fun _ => ?_) fun _ => .pure trivial
  refine .seq keeps_get fun s => .ite (fun _ => ?_) fun _ => .pure trivial
  exact .seq (calm_modSlot h (fun slot hin => ⟨hin.idx, hin.numSyncLinks⟩) (fun _ => .inl rfl)
    .refl) fun _ => .pure trivial

theorem calm_injectDelayOnLink (i : ℕ) (trigger : BitVec 32) (h : SlotIdx idx) :
    (calm strict).Follows (injectDelayOnLink i idx trigger) := by
  refine .bind (keeps_link i) fun l hl => ?_
  refine .bind (.lift (yields_injectDelay trigger hl.tbls h)) fun out hout => ?_
  exact .seq (calm_modLink (fun l hl => { hl with tbls := hout }) .refl .refl)
    fun _ => .pure trivial

/-! ## Synced links -/

theorem calm_setSyncLinkSofSkip (i : ℕ) (skip : Bool) :
    (calm strict).Follows (setSyncLinkSofSkip i skip) :=
  calm_modLink (fun _ hl => hl) .refl .refl

theorem calm_checkOtherLink (i j : ℕ) (syncReqId : ℤ) :
    (calm strict).Follows (checkOtherLink i j syncReqId) := by
  refine .bind (keeps_link j) fun sync hsync => .ite (fun _ => ?_) fun _ => .pure trivial
  refine .bind (calm_findSlotForReq j syncReqId) fun idx hfound => .ite (fun _ => ?_) fun hne => ?_
  · exact .seq (calm_setSyncLinkSofSkip i true) fun _ => .pure trivial
  have hidx := hfound.resolve_left hne
  refine .seq (keeps_slotAt j hidx) fun slot => .seq (keeps_slotAt j hsync.rdIdx) fun rdSlot => ?_
  refine .ite (fun _ => .pure trivial) fun _ => .seq (calm_checkLinkIsReady j true hidx) fun rc =>
    ?_
  refine .seq (keeps_slotAt j hidx) fun slot => .ite (fun _ => ?_) fun _ => .pure trivial
  exact .seq (calm_setSyncLinkSofSkip i true) fun _ => .pure trivial

theorem calm_checkOwnLink (i : ℕ) {slot : Slot} (hslot : slot.InRange) :
    (calm strict).Follows (checkOwnLink i slot) := by
  refine .seq (calm_checkLinkIsReady i true hslot.idx) fun rc => .ite (fun _ => ?_) fun _ => ?_
  · exact .seq (calm_setSyncLinkSofSkip i true) fun _ => .pure trivial
  · exact .pure trivial

/-- The master has the larger delay, so that both look along the request order. -/
theorem calm_checkMslaveReady (i j : ℕ) {slot : Slot} {sync : Link} (hslot : slot.InRange)
    (hl : l.InRange) (hsync : sync.InRange)
    (hdir : l.isMaster = decide (sync.maxDelay < l.maxDelay)) :
    (calm strict).Follows (checkMslaveReady i j slot l sync) := by
  refine .ite (fun hmaster => .ite (fun _ => .pure trivial) fun _ => ?_) fun hslave => ?_
  · refine .seq (calm_checkOwnLink i hslot) fun rc => .ite (fun _ => .pure trivial) fun _ => ?_
    have hlt : sync.maxDelay < l.maxDelay := of_decide_eq_true (hdir.symm.trans hmaster)
    have hbound : l.maxDelay - sync.maxDelay ≤ numSlots := by
      have hmax := hl.maxDelay.2
      have hmin := hsync.maxDelay.1
      simp only [camPipelineDelayMax, numSlots, maxReqSlots] at *
      omega
    refine .seq (keeps_slotAt i (slotIdx_decIdx hslot.idx (by omega) hbound)) fun prev => ?_
    exact calm_checkOtherLink i j _
  · refine .seq (calm_modLink (fun _ hl => hl) .refl .refl) fun _ => ?_
    refine .seq (calm_checkOwnLink i hslot) fun rc => .ite (fun _ => .pure trivial) fun _ => ?_
    have hle : ¬ sync.maxDelay < l.maxDelay := by
      rw [hdir, decide_eq_true_eq] at hslave
      exact hslave
    refine .seq (keeps_slotAt i (slotIdx_incIdx hl.rdIdx (by omega))) fun next => ?_
    exact calm_checkOtherLink i j _

theorem calm_correctSync (i j : ℕ) (reqId syncReqId : ℤ) (h : SlotIdx syncSlotIdx) :
    (calm strict).Follows (correctSync i j reqId syncReqId syncSlotIdx) := by
  refine .ite (fun _ => .pure trivial) fun _ => .ite (fun _ => ?_) fun _ => ?_
  · exact .seq (calm_setSyncLinkSofSkip i true) fun _ => .pure trivial
  · refine .seq (keeps_slotAt j h) fun slot => .seq (keeps_link j) fun sync => ?_
    exact .ite (fun _ => .pure trivial) fun _ => .pure trivial

theorem calm_checkBothReady (i j : ℕ) {slot : Slot} (t : FrameTiming) (hslot : slot.InRange)
    (h : SlotIdx syncSlotIdx) : (calm strict).Follows (checkBothReady i j slot syncSlotIdx t) := by
  refine .seq (calm_checkLinkIsReady i true hslot.idx) fun rc => ?_
  refine .seq (calm_checkLinkIsReady j true h) fun rc' => .seq (keeps_slotAt j h) fun syncSlot => ?_
  refine .ite (fun _ => .ite (fun _ => ?_) fun _ => .pure trivial) fun _ => ?_
  · exact .seq (calm_setSyncLinkSofSkip i true) fun _ => .pure trivial
  · exact .ite (fun _ => .pure trivial) fun _ => .pure trivial

theorem calm_checkSyncReqIsReady (i j : ℕ) {slot : Slot} (trigger : BitVec 32)
    (hslot : slot.InRange) : (calm strict).Follows (checkSyncReqIsReady i j slot trigger) := by
  refine .seq (keeps_link i) fun l => .bind (keeps_link j) fun sync hsync => ?_
  refine .seq (keeps_slotAt j hsync.rdIdx) fun syncRdSlot => .ite (fun _ => ?_) fun _ => ?_
  · exact .seq (calm_modLink (fun _ hl => hl) .refl .refl) fun _ => .pure trivial
  refine .seq (calm_modLink (fun _ hl => hl) .refl .refl) fun _ => ?_
  refine .ite (fun _ => .pure trivial) fun _ => .seq (keeps_link j) fun sync => ?_
  refine .ite (fun _ => ?_) fun _ => ?_
  · exact .seq (calm_setSyncLinkSofSkip j false) fun _ => .pure trivial
  refine .bind (calm_findSlotForReq j slot.reqId) fun idx hfound => ?_
  refine .ite (fun _ => .pure trivial) fun hne => ?_
  have hidx := hfound.resolve_left hne
  refine .seq (keeps_slotAt j hidx) fun syncSlot => .ite (fun _ => .pure trivial) fun _ => ?_
  refine .seq (calm_checkBothReady i j _ hslot hidx) fun rc => .ite (fun _ => .pure trivial)
    fun _ => ?_
  exact .ite (fun _ => calm_correctSync i j _ _ hidx) fun _ => .pure trivial

theorem calm_checkSyncLink (i : ℕ) {slot : Slot} (trigger : BitVec 32) (syncLink : Option ℕ)
    (hslot : slot.InRange) : (calm strict).Follows (checkSyncLink i slot trigger syncLink) := by
  cases syncLink with
  | none => exact .pure trivial
  | some j =>
    intro s hs
    refine allows_link hs fun sync hsync _ => .ite (fun _ => ?_) fun _ => ?_
    · refine Keeps.seq (calm_checkLinkIsReady i true hslot.idx) (fun rc => ?_) s hs
      exact .ite (fun _ => .pure trivial) fun _ => .pure trivial
    refine .ite (fun _ => Keeps.pure trivial s hs) fun _ => allows_link hs fun l hl _ => ?_
    refine .ite (fun _ => calm_checkSyncReqIsReady i j trigger hslot s hs) fun hdelay => ?_
    -- Two links of different delay: which one is the master is written to both first.
    have hij : i ≠ j := by
      intro heq
      subst heq
      rw [hl] at hsync
      exact hdelay (Option.some.inj hsync ▸ rfl)
    have hmaster (k : ℕ) (b : Bool) :
        (calm strict).Follows (modLink k fun l => { l with isMaster := b }) :=
      calm_modLink (fun _ hl => hl) .refl .refl
    have hown := hmaster i (decide (sync.maxDelay < l.maxDelay)) s hs
    refine .step rfl hown.2.1 ?_
    have hother := hmaster j (!decide (sync.maxDelay < l.maxDelay)) _ hown.1
    refine .step rfl hother.2.1 ?_
    refine allows_link hother.1 fun l' hl' hlin => ?_
    refine allows_link hother.1 fun sync' hsync' hsyncin => ?_
    rw [getElem?_modify_ne _ _ hij.symm, getElem?_modify_eq, hl] at hl'
    rw [getElem?_modify_eq, getElem?_modify_ne _ _ hij, hsync] at hsync'
    have hdir : l'.isMaster = decide (sync'.maxDelay < l'.maxDelay) := by
      cases hl'
      cases hsync'
      rfl
    refine Keeps.ite (fun _ => ?_) (fun _ => ?_) _ hother.1
    · exact .seq (calm_setSyncLinkSofSkip j false) fun _ => .pure trivial
    · refine .seq (keeps_slotAt j hsyncin.rdIdx) fun rdSlot => .ite (fun _ => .pure trivial) ?_
      exact fun _ => calm_checkMslaveReady i j hslot hlin hsyncin hdir

theorem calm_checkSyncLinks (i : ℕ)
    (syncLink : Vector (Option ℕ) (maximumLinksPerSession - 1)) {slot : Slot}
    (trigger : BitVec 32) (hslot : slot.InRange) {ks : List ℕ}
    (hks : ∀ k ∈ ks, k < maximumLinksPerSession - 1) :
    (calm strict).Follows (checkSyncLinks i syncLink slot trigger ks) := by
  induction ks with
  | nil => exact .pure trivial
  | cons k ks ih =>
    have hk := hks k mem_cons_self
    refine .seq (keeps_elemAt_any (Int.natCast_nonneg k) (Int.ofNat_lt.2 hk)) fun sync => ?_
    refine .seq (calm_checkSyncLink i trigger sync hslot) fun rc => .ite (fun _ => .pure trivial)
      ?_
    exact fun _ => ih fun k' hk' => hks k' (mem_cons_of_mem k hk')

theorem lt_of_mem_range (hn : n < maximumLinksPerSession) {k : ℕ} (hk : k ∈ List.range n.toNat) :
    k < maximumLinksPerSession - 1 := by
  rw [mem_range] at hk
  simp only [maximumLinksPerSession] at *
  omega

theorem calm_checkMultiSyncLinkReady (i : ℕ)
    (syncLink : Vector (Option ℕ) (maximumLinksPerSession - 1)) {slot : Slot} (trigger : BitVec 32)
    (hslot : slot.InRange) (hn : n < maximumLinksPerSession) :
    (calm strict).Follows (checkMultiSyncLinkReady i syncLink slot n trigger) := by
  refine .seq (keeps_link i) fun l => .ite (fun _ => .pure trivial) fun _ => ?_
  refine .seq (calm_checkSyncLinks i syncLink trigger hslot fun k => lt_of_mem_range hn) fun rc =>
    ?_
  refine .ite (fun _ => .pure trivial) fun _ => ?_
  refine .seq (calm_injectDelayOnLink i trigger hslot.idx) fun rc => .ite (fun _ => .pure trivial)
    ?_
  exact fun _ => .seq (calm_checkLinkIsReady i false hslot.idx) fun _ => .pure trivial

/-! ## The check of a request -/

theorem calm_syncLinksOf (i : ℕ) {slot : Slot} (hslot : slot.InRange) :
    (calm strict).Keeps (syncLinksOf i slot) fun out => out.1 < maximumLinksPerSession := by
  have hfill (n : ℤ) (hn : n < maximumLinksPerSession) (src : ℕ → Crm (Option ℕ))
      (hsrc : ∀ k ∈ range n.toNat, (calm strict).Follows (src k)) :
      (calm strict).Follows ((range n.toNat).foldlM (fun array (k : ℕ) => do
        let sync ← src k
        StateT.lift (modElem array k fun _ => sync))
        (.replicate (maximumLinksPerSession - 1) none)) := by
    refine .foldlM trivial fun array _ k hk => .seq (hsrc k hk) fun sync => ?_
    exact .lift (yields_modElem_any (Int.natCast_nonneg k) (Int.ofNat_lt.2 (lt_of_mem_range hn hk)))
  refine .bind (keeps_link i) fun l hl => .ite (fun _ => ?_) fun _ => ?_
  · refine .seq (hfill _ hl.numSyncLinks _ fun k hk => ?_) fun array => .pure hl.numSyncLinks
    exact keeps_elemAt_any (Int.natCast_nonneg k)
      (Int.ofNat_lt.2 (lt_of_mem_range hl.numSyncLinks hk))
  · have hsrc : ∀ k ∈ range slot.numSyncLinks.toNat, (calm strict).Follows (do
        getLinkPriv (← StateT.lift (elemAt slot.syncLinkHdls k))) := fun k hk =>
      .seq (keeps_elemAt_any (Int.natCast_nonneg k)
        (Int.ofNat_lt.2 (lt_of_mem_range hslot.numSyncLinks hk))) fun hdl => keeps_getLinkPriv hdl
    have hrun := hfill _ hslot.numSyncLinks _ hsrc
    simp only [bind_assoc] at hrun
    exact .seq hrun fun array => .pure hslot.numSyncLinks

theorem keeps_syncedLinks {K : Link → Link → Prop} {hrefl : ∀ l, K l l}
    {htrans : ∀ l m n, K l m → K m n → K l n} (hl : l.InRange) :
    (along strict K hrefl htrans).Follows (syncedLinks l) := by
  refine .seq (.mapM fun k hk => ?_) fun links => .pure trivial
  exact keeps_elemAt_any (Int.natCast_nonneg k)
    (Int.ofNat_lt.2 (lt_of_mem_range hl.numSyncLinks hk))

theorem calm_leaveMsyncMode (i : ℕ) : (calm strict).Follows (leaveMsyncMode i) := by
  refine .bind (keeps_link i) fun l hl => .ite (fun _ => ?_) fun _ => .pure trivial
  refine .seq (calm_modLink (fun _ hl => hl) .refl .refl) fun _ => ?_
  exact .seq (keeps_syncedLinks hl) fun links => .forM fun j _ =>
    calm_modLink (fun _ hl => hl) .refl .refl

theorem calm_checkSolo (i : ℕ) {slot : Slot} (trigger : BitVec 32) (hslot : slot.InRange) :
    (calm strict).Follows (checkSolo i slot trigger) := by
  refine .seq (calm_leaveMsyncMode i) fun _ => ?_
  refine .seq (calm_checkLinkIsReady i true hslot.idx) fun rc => .ite (fun _ => .pure trivial) ?_
  refine fun _ => .seq (calm_injectDelayOnLink i trigger hslot.idx) fun rc => ?_
  exact .ite (fun _ => .pure trivial) fun _ => calm_checkLinkIsReady i false hslot.idx

theorem calm_checkRequest (i : ℕ) {slot : Slot} (trigger : BitVec 32) (hslot : slot.InRange) :
    (calm strict).Follows (checkRequest i slot trigger) := by
  refine .ite (fun _ => ?_) fun _ => calm_checkSolo i trigger hslot
  exact .bind (calm_syncLinksOf i hslot) fun out hn =>
    calm_checkMultiSyncLinkReady i out.2 trigger hslot hn

/-! ## Calls into the devices -/

theorem calm_askFrameDuration (i : ℕ) {wanted : ConnectedDevice → Crm Bool}
    (hdevs : ∀ dev ∈ devs, dev.InRange)
    (hwanted : ∀ dev ∈ devs, (calm strict).Follows (wanted dev)) :
    (calm strict).Follows (askFrameDuration i wanted devs) := by
  induction devs with
  | nil => exact .pure trivial
  | cons dev devs ih =>
    have hdev := hdevs dev mem_cons_self
    refine .seq (hwanted dev mem_cons_self) fun w => .ite (fun _ => ?_) fun _ => ?_
    · refine .seq (keeps_link i) fun l => ?_
      refine .seq (keeps_elemAt_any hdev.pdTbl.1 hdev.pdTbl.2) fun prev => ?_
      exact .seq (keeps_ask _) fun answer => .pure trivial
    · exact ih (fun d hd => hdevs d (mem_cons_of_mem dev hd))
        fun d hd => hwanted d (mem_cons_of_mem dev hd)

theorem calm_notifyFrameSkip (i : ℕ) (trigger : BitVec 32) :
    (calm strict).Follows (notifyFrameSkip i trigger) := by
  refine .bind (keeps_link i) fun l hl => .ite (fun _ => .pure trivial) fun _ => ?_
  refine .seq (calm_askFrameDuration i hl.devs fun _ _ => .pure trivial) fun changing => ?_
  cases changing with
  | none => exact .pure trivial
  | some changing =>
    refine .forM fun dev hdev => .bind (keeps_link i) fun l' hl' => ?_
    have hpd := (hl.devs dev hdev).pDelay
    refine .ite (fun _ => .pure trivial) fun _ => ?_
    refine .bind (keeps_elemAt hl'.prevApply hpd.1 hpd.2) fun prev hprev => ?_
    refine .seq (keeps_tblSlotAt i _ hprev) fun slot => .ite (fun _ => .pure trivial) fun _ => ?_
    refine .seq (keeps_elemAt_any hl'.maxDelay.1 hl'.maxDelay.2) fun lastApplied => ?_
    exact .seq (keeps_ask _) fun _ => .pure trivial

section Events

variable {K : Link → Link → Prop} {hrefl : ∀ l, K l l}
  {htrans : ∀ l m n, K l m → K m n → K l n}

theorem keeps_sendEvtTo (evt : Bool → LinkEvt) (devs : List ConnectedDevice)
    (tryForRecovery : Bool) :
    (along strict K hrefl htrans).Follows (sendEvtTo evt devs tryForRecovery) := by
  induction devs generalizing tryForRecovery with
  | nil => exact .pure trivial
  | cons dev devs ih =>
    refine .ite (fun _ => .seq (keeps_ask _) fun answer => ?_) fun _ => ih _
    exact .ite (fun _ => .pure trivial) fun _ => ih _

theorem keeps_sendEvt (i : ℕ) (evt : Bool → LinkEvt)
    (hK : ∀ (l : Link) b, K l { l with tryForInternalRecovery := b }) :
    (along strict K hrefl htrans).Follows (sendEvt i evt) := by
  refine .seq (keeps_link i) fun l => .seq (keeps_sendEvtTo evt _ _) fun out => ?_
  exact .seq (keeps_modLink fun l hl => ⟨hl, hK l _⟩) fun _ => .pure trivial

end Events

theorem calm_sendEvt (i : ℕ) (evt : Bool → LinkEvt) : (calm strict).Follows (sendEvt i evt) :=
  keeps_sendEvt i evt fun l _ => ⟨Link.Calm.refl l, .refl l⟩

theorem calm_skipRequest (trigger : BitVec 32) (req : ApplyRequest) (hdev : dev.InRange) :
    (calm strict).Follows (skipRequest i trigger dev req) := by
  refine .bind (keeps_link i) fun l hl => ?_
  refine .seq (keeps_elemAt_any hdev.pDelay.1 hdev.pDelay.2) fun prev => ?_
  exact .seq (keeps_elemAt_any hl.maxDelay.1 hl.maxDelay.2) fun lastApplied => .pure trivial

theorem timed_modTblSlot {pdTbl : ℤ} (h : SlotIdx idx) :
    (timed strict).Follows (modTblSlot i pdTbl idx f) :=
  keeps_modTblSlot h fun l _ => ⟨Link.Timed.refl l, .refl l⟩

theorem timed_modLink {f : Link → Link} (h : ∀ l, l.InRange → (f l).InRange)
    (hf : ∀ l : Link, l.Timed (f l))
    (hr : ∀ l : Link, l.KeepsRecords (f l)) :
    (timed strict).Follows (modLink i f) :=
  keeps_modLink fun l hl => ⟨h l hl, hf l, hr l⟩

theorem timed_afterEofApply (i : ℕ) (dev : ConnectedDevice) (h : SlotIdx idx) :
    (timed strict).Follows (afterEofApply i dev idx) := by
  refine .seq (timed_modTblSlot h) fun _ => ?_
  refine .seq (timed_modLink (fun _ hl => hl) .refl .refl) fun _ => ?_
  refine .seq (keeps_link i) fun l => .ite (fun _ => ?_) fun _ => .pure trivial
  exact .forM fun dev _ => .seq (keeps_ask _) fun _ => .pure trivial

theorem timed_sendSpecial (i : ℕ) (trigger : BitVec 32) (req : ApplyRequest) (hdev : dev.InRange) :
    (timed strict).Follows (sendSpecial i trigger req dev) := by
  refine .bind (keeps_link i) fun l hl => .ite (fun _ => .pure trivial) fun _ => ?_
  refine .bind (keeps_elemAt hl.apply hdev.pDelay.1 hdev.pDelay.2) fun apply hidx => ?_
  refine .seq (keeps_tblSlotAt i _ hidx) fun slot => .ite (fun _ => .pure trivial) fun _ => ?_
  refine .ite (fun _ => ?_) fun _ => .ite (fun _ => .pure trivial) fun _ => ?_
  · refine .seq (keeps_timed (calm_skipRequest trigger req hdev)) fun req => ?_
    exact .ite (fun _ => .seq (keeps_ask _) fun _ => .pure trivial) fun _ => .pure trivial
  · refine .ite (fun _ => .pure trivial) fun _ => .seq (keeps_ask _) fun answer => ?_
    refine .ite (fun _ => ?_) fun _ => .seq (timed_modTblSlot hidx) fun _ => .ite (fun _ => ?_) ?_
    · exact .seq (keeps_timed (calm_notifyFrameSkip i trigger)) fun _ => .pure trivial
    · exact .seq (timed_afterEofApply i dev hidx) fun _ => .pure trivial
    · exact fun _ => .pure trivial

theorem timed_sendSpecials (i : ℕ) (trigger : BitVec 32) (hdevs : ∀ dev ∈ devs, dev.InRange)
    (req : ApplyRequest) : (timed strict).Follows (sendSpecials i trigger devs req) := by
  induction devs generalizing req with
  | nil => exact .pure trivial
  | cons dev devs ih =>
    refine .seq (timed_sendSpecial i trigger req (hdevs dev mem_cons_self)) fun out => ?_
    cases out with
    | next req => exact ih (fun d hd => hdevs d (mem_cons_of_mem dev hd)) req
    | done req => exact .pure trivial
    | ret rc failedDev => exact .pure trivial

theorem timed_markApplied (i : ℕ) (dev : ConnectedDevice) (doneTimestamp : UInt64)
    (h : SlotIdx idx) : (timed strict).Follows (markApplied i dev idx doneTimestamp) := by
  have hsensor : (timed strict).Follows (do
      if dev.info.devId = .sensor then
        modLink i fun l => { l with lastAppliedDoneTimestamp := doneTimestamp }) :=
    .ite (fun _ => timed_modLink (fun _ hl => hl) .refl .refl) fun _ => .pure trivial
  exact .ite (fun _ => .seq (timed_modTblSlot h) fun _ => hsensor) fun _ => hsensor

theorem timed_sendRegular (i : ℕ) (trigger : BitVec 32) (reqSlotId : ℤ) (changing : Bool)
    (st : SendState) (hdev : dev.InRange) :
    (timed strict).Follows (sendRegular i trigger reqSlotId changing st dev) := by
  refine .bind (keeps_link i) fun l hl => .ite (fun _ => .pure trivial) fun _ => ?_
  refine .bind (keeps_elemAt hl.apply hdev.pDelay.1 hdev.pDelay.2) fun apply hidx => ?_
  refine .ite (fun _ => ?_) fun _ => ?_
  · refine .seq (keeps_timed (calm_skipRequest trigger st.req hdev)) fun req => ?_
    exact .ite (fun _ => .seq (keeps_ask _) fun _ => .pure trivial) fun _ => .pure trivial
  refine .seq (keeps_tblSlotAt i _ hidx) fun slot => .seq (keeps_slotAt i hidx) fun inQSlot => ?_
  refine .ite (fun _ => .pure trivial) fun _ => ?_
  have hmark (answer : Answer) (req : ApplyRequest) (st' : SendState) : (timed strict).Follows (do
      markApplied i dev apply.idx req.lastAppliedDoneTimestamp
      pure st') :=
    .seq (timed_markApplied i dev _ hidx) fun _ => .pure trivial
  refine .ite (fun _ => .seq (keeps_ask _) fun answer => ?_) fun _ => ?_
  · exact .ite (fun _ => .pure trivial) fun _ => hmark answer _ _
  · exact .ite (fun _ => .pure trivial) fun _ => hmark {} _ _

theorem timed_sendRegulars (i : ℕ) (trigger : BitVec 32) (reqSlotId : ℤ) (changing : Bool)
    (hdevs : ∀ dev ∈ devs, dev.InRange) (asked : List ConnectedDevice) (st : SendState) :
    (timed strict).Follows (sendRegulars i trigger reqSlotId changing asked devs st) := by
  induction devs generalizing asked st with
  | nil => exact .pure trivial
  | cons dev devs ih =>
    refine .seq (timed_sendRegular i trigger reqSlotId changing st
      (hdevs dev mem_cons_self)) fun st => .ite (fun _ => .pure trivial) fun _ => ?_
    exact ih (fun d hd => hdevs d (mem_cons_of_mem dev hd)) _ _

theorem timed_finishSend (i : ℕ) (trigger : BitVec 32) (st : SendState)
    (asked : List ConnectedDevice) : (timed strict).Follows (finishSend i trigger st asked) := by
  refine .ite (fun _ => ?_) fun _ => ?_
  · refine .seq (.forM fun dev _ => .seq (keeps_ask _) fun _ => .pure trivial) fun _ => ?_
    exact .seq (keeps_timed (calm_notifyFrameSkip i trigger)) fun _ => .pure trivial
  · exact .seq (timed_modLink (fun l hl => { hl with prevApply := hl.apply }) .refl .refl)
      fun _ => .pure trivial

theorem timed_sendReq (i : ℕ) (trigger : BitVec 32) :
    (timed strict).Follows (sendReq i trigger) := by
  refine .bind (keeps_link i) fun l hl => .ite (fun _ => .pure trivial) fun _ => ?_
  refine .seq (keeps_slotAt i hl.rdIdx) fun reqSlot => ?_
  refine .seq (keeps_timed (calm_askFrameDuration i hl.devs fun dev hdev => ?_)) fun changing => ?_
  · have hpd := (hl.devs dev hdev).pdTbl
    exact .seq (keeps_elemAt_any hpd.1 hpd.2) fun _ => .pure trivial
  cases changing with
  | none => exact .pure trivial
  | some changing =>
    have hregular (req : ApplyRequest) : (timed strict).Follows (do
        let out ← sendRegulars i trigger reqSlot.reqId changing [] l.devs { req }
        finishSend i trigger out.1 out.2) :=
      .seq (timed_sendRegulars i trigger _ _ hl.devs _ _) fun out =>
        timed_finishSend i trigger out.1 out.2
    refine .seq keeps_get fun s => .seq (timed_sendSpecials i trigger hl.devs _) fun out => ?_
    cases out with
    | next req => exact hregular req
    | done req => exact hregular req
    | ret rc failedDev => exact .pure trivial

end QcomModules.CamReqMgr
