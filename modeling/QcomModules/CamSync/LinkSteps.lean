import QcomModules.CamSync.Links

/-! Every section of every thread keeps the links. Two things are asked of a run: that only merged
objects are destroyed, and that a merge takes a row only when no signal carries a link to it. -/

namespace QcomModules.CamSync

open Library List SyncDevice

/-! ## What is asked of a section -/

def SyncPc.destroysMerged (d : SyncDevice) : SyncPc → Bool
  | .enter (.destroy obj) => (d.table obj).type = .group || (d.table obj).state = .invalid
  | _ => true

/-- A merge takes a row only when no signal still carries a link to it. -/
def SyncPc.takesFreshRow (pcs : List SyncPc) : SyncPc → Bool
  | .owning idx (.group _) => (carried pcs).all fun link => link.2 != idx
  | _ => true

def SyncPc.ReuseOk (d : SyncDevice) (pcs : List SyncPc) (pc : SyncPc) : Prop :=
  pc.destroysMerged d = true ∧ pc.takesFreshRow pcs = true

instance (d : SyncDevice) (pcs : List SyncPc) (pc : SyncPc) : Decidable (pc.ReuseOk d pcs) :=
  inferInstanceAs (Decidable (_ ∧ _))

theorem SyncPc.ReuseOk.perm {d : SyncDevice} {pcs pcs' : List SyncPc} {pc : SyncPc}
    (hperm : pcs.Perm pcs') (h : pc.ReuseOk d pcs) : pc.ReuseOk d pcs' := by
  refine ⟨h.1, ?_⟩
  have hfresh := h.2
  cases pc with
  | owning idx new =>
    cases new with
    | indv synx dma => rfl
    | group objs =>
      rw [SyncPc.takesFreshRow, all_eq_true] at hfresh ⊢
      intro link hlink
      exact hfresh link ((hperm.flatMap_right _).mem_iff.mpr hlink)
  | _ => rfl

variable {d : SyncDevice} {pc : SyncPc} {pcs : List SyncPc} {choice : SyncChoice}

theorem SyncPc.unlocked_of_enabled {obj : ℕ} (henabled : syncSystem.enabled d pc = true)
    (hlock : pc.lock = some obj) : d.rowLocked obj = false := by
  have hnot : pc.lock.all (fun obj => !d.rowLocked obj) = true := henabled
  rw [hlock, Option.all_some, Bool.not_eq_true'] at hnot
  exact hnot

/-! ## Registration, references and signals -/

section SameLinks

variable {d' : SyncDevice} (h : d.SameLinks d')
include h

theorem SyncDevice.SameLinks.trans {d'' : SyncDevice} (h' : d'.SameLinks d'') :
    d.SameLinks d'' where
  rows idx :=
    { type := (h'.rows idx).type.trans (h.rows idx).type
      invalid := (h'.rows idx).invalid.trans (h.rows idx).invalid
      remaining := (h'.rows idx).remaining.trans (h.rows idx).remaining
      parentsList := (h'.rows idx).parentsList.trans (h.rows idx).parentsList
      childrenList := (h'.rows idx).childrenList.trans (h.rows idx).childrenList }
  bitmap := h'.bitmap.trans h.bitmap
  rowLocked := h'.rowLocked.trans h.rowLocked
  members := h'.members.trans h.members

end SameLinks

structure SyncDevice.SameObjects (d d' : SyncDevice) : Prop where
  rows : ∀ idx, ∃ callbacks payloads, d'.table idx =
    { d.table idx with callbackList := callbacks, userPayloadList := payloads }
  bitmap : d'.bitmap = d.bitmap
  rowLocked : d'.rowLocked = d.rowLocked
  members : d'.members = d.members

theorem SyncDevice.SameObjects.refl (d : SyncDevice) : d.SameObjects d :=
  ⟨fun _ => ⟨_, _, rfl⟩, rfl, rfl, rfl⟩

theorem SyncDevice.SameObjects.setRow (d : SyncDevice) (obj : ℕ) (callbacks : List SyncCallback)
    (payloads : List SyncPayload) : d.SameObjects (d.setRow obj { d.table obj with
      callbackList := callbacks, userPayloadList := payloads }) where
  rows idx := by
    by_cases hidx : idx = obj
    · subst hidx
      exact ⟨_, _, setRow_table_self⟩
    · exact ⟨_, _, setRow_table_of_ne hidx⟩
  bitmap := rfl
  rowLocked := rfl
  members := rfl

theorem SyncDevice.SameObjects.sameLinks {d' : SyncDevice} (h : d.SameObjects d') :
    d.SameLinks d' where
  rows idx := by
    obtain ⟨callbacks, payloads, hrow⟩ := h.rows idx
    rw [hrow]
    exact ⟨rfl, .rfl, rfl, rfl, rfl⟩
  bitmap := h.bitmap
  rowLocked := h.rowLocked
  members := h.members

theorem dispatchSignaledCb_sameObjects (d : SyncDevice) (obj : ℕ) (status : SyncState)
    (cause : ℕ) : d.SameObjects (d.dispatchSignaledCb obj status cause) := by
  rw [SyncDevice.dispatchSignaledCb]
  split
  · exact .refl d
  · have hset := SyncDevice.SameObjects.setRow d obj [] []
    exact ⟨hset.rows, rfl, rfl, rfl⟩

variable {status state : SyncState} {objs : List ℕ}

theorem Linked.finishSignal (h : Linked d (pc :: pcs)) (hpc : pc.quiet = true) (obj : ℕ)
    (hsignaled : status.signaled = true) (cause : ℕ) :
    Linked (d.finishSignal obj status cause).1 ((d.finishSignal obj status cause).2 :: pcs) :=
  (h.device (dispatchSignaledCb_sameObjects d obj status cause).sameLinks).splice hpc hsignaled obj

theorem SyncState.ofStatus_signaled {status : ℕ} (h : SyncState.ofStatus status = some state) :
    state.signaled = true := by
  rw [SyncState.ofStatus.eq_def] at h
  split at h
  · cases h
    rfl
  · cases h
    rfl
  · cases h
    rfl
  · cases h

theorem SyncRow.signalValidate_ok {row : SyncRow} {status : ℕ}
    (h : row.signalValidate status = .ok state) :
    row.type = .indv ∧ row.state = .active ∧ state.signaled = true := by
  rw [SyncRow.signalValidate] at h
  split at h
  · cases h
  split at h
  · cases h
  split at h
  · cases h
  rename_i hgroup hactive
  split at h
  · cases h
  · rename_i hstatus
    cases h
    refine ⟨?_, not_not.mp hactive, SyncState.ofStatus_signaled hstatus⟩
    cases htype : row.type with
    | indv => rfl
    | group => exact absurd htype hgroup

theorem SyncState.ne_invalid_of_signaled (h : state.signaled = true) : state ≠ .invalid := by
  intro heq
  rw [heq] at h
  cases h

theorem signaledRow_sameLinks {row : SyncRow} (refCnt : ℤ) (hactive : row.state = .active)
    (hsignaled : state.signaled = true) :
    row.SameLinks { row with refCnt := refCnt, state := state } := by
  have hvalid := SyncState.ne_invalid_of_signaled hsignaled
  refine ⟨rfl, iff_of_false hvalid ?_, rfl, rfl, rfl⟩
  rw [hactive]
  exact SyncState.noConfusion

theorem updateParentState_sameLinks {row row' : SyncRow} (hsignaled : status.signaled = true)
    (h : row.updateParentState status = some row') : row.SameLinks row' := by
  have hvalid := SyncState.ne_invalid_of_signaled hsignaled
  rw [SyncRow.updateParentState] at h
  split at h
  · rename_i hstate
    cases h
    refine ⟨rfl, iff_of_false hvalid ?_, rfl, rfl, rfl⟩
    rw [hstate]
    exact SyncState.noConfusion
  · rename_i hstate
    cases h
    refine ⟨rfl, iff_of_false hvalid ?_, rfl, rfl, rfl⟩
    rw [hstate]
    exact SyncState.noConfusion
  · cases h
    exact .refl row
  · cases h
    exact .refl row
  · cases h

theorem SyncDevice.setRow_setRow (d : SyncDevice) (obj : ℕ) (row row' : SyncRow) :
    (d.setRow obj row).setRow obj row' = d.setRow obj row' := by
  rw [SyncDevice.setRow, SyncDevice.setRow, SyncDevice.setRow, Function.update_idem]

theorem SyncDevice.setRow_self (d : SyncDevice) (obj : ℕ) : d.setRow obj (d.table obj) = d := by
  rw [SyncDevice.setRow, Function.update_eq_self]

theorem signalParent_sameLinks (parent : ℕ) (cause : ℕ) (hsignaled : status.signaled = true) :
    (d.countDown parent).SameLinks (d.signalParent parent status cause) := by
  rw [SyncDevice.signalParent]
  split
  · exact .refl _
  · rename_i row hrow
    have hset : (d.countDown parent).SameLinks (d.setRow parent row) := by
      have hcount := setRow_setRow d parent
        { d.table parent with remaining := (d.table parent).remaining - 1 } row
      rw [← hcount]
      apply SyncDevice.SameLinks.setRow
      rw [SyncDevice.countDown, setRow_table_self]
      exact updateParentState_sameLinks hsignaled hrow
    split
    · exact hset.trans (dispatchSignaledCb_sameObjects _ parent row.state cause).sameLinks
    · exact hset

/-! ## Create, merge and destroy -/

theorem SyncRow.init_ok {row row' : SyncRow} {idx : ℕ} {type : SyncType}
    (h : row.init idx type = .ok row') :
    row'.type = type ∧ row'.state = .active ∧ row'.remaining = 0 ∧ row'.parentsList = [] := by
  rw [SyncRow.init] at h
  split at h
  · cases h
    exact ⟨rfl, rfl, rfl, rfl⟩
  · cases h

theorem SyncRow.init_inRange {idx : ℕ} (h : inRange idx = true) (row : SyncRow)
    (type : SyncType) : ∃ row', row.init idx type = .ok row' := by
  rw [SyncRow.init, if_pos h]
  exact ⟨_, rfl⟩

theorem Linked.createRow {idx : ℕ} {synx : Option ℕ} {dma : Option ℤ}
    (h : Linked d (.owning idx (.indv synx dma) :: pcs)) :
    Linked (d.createRow idx synx dma).1 ((d.createRow idx synx dma).2 :: pcs) := by
  obtain ⟨row, hrow⟩ := SyncRow.init_inRange (h.wellFormed _ mem_cons_self).1
    (d.table idx) .indv
  have hinit := SyncRow.init_ok hrow
  rw [SyncDevice.createRow, hrow]
  exact h.create hinit.1 hinit.2.2.2

theorem Linked.groupRow {idx : ℕ} (h : Linked d (.owning idx (.group objs) :: pcs))
    (hlocked : d.rowLocked idx = false)
    (hfresh : (SyncPc.owning idx (.group objs)).takesFreshRow pcs = true) :
    Linked (d.groupRow idx objs).1 ((d.groupRow idx objs).2 :: pcs) := by
  obtain ⟨row, hrow⟩ := SyncRow.init_inRange (h.wellFormed _ mem_cons_self).1
    (d.table idx) .group
  have hinit := SyncRow.init_ok hrow
  rw [SyncDevice.groupRow, hrow]
  apply h.group _ hinit.1 hinit.2.2.1 hinit.2.2.2 hlocked
  · intro child hmem
    rw [SyncPc.takesFreshRow, all_eq_true] at hfresh
    exact bne_iff_ne.mp (hfresh _ hmem) rfl
  · rw [hinit.2.1]
    exact SyncState.noConfusion

section Merge

variable {idx child : ℕ} {linked todo : List ℕ}

theorem Linked.failLink (h : Linked d (.mergeLink idx linked (child :: todo) :: pcs))
    {row : SyncRow} (hinvalid : row.state = .invalid) (hparents : row.parentsList = []) :
    Linked (d.setRow idx row) (.mergeClean idx linked.reverse :: pcs) := by
  obtain ⟨hlive, hmembers⟩ := h.merging idx linked (child :: todo) mem_cons_self
  have hwf := h.wellFormed _ mem_cons_self
  apply h.invalidate (.mergeClean idx linked.reverse) hlive hinvalid hparents
    (fun _ _ => SyncPc.noConfusion) hwf.1 rfl (fun _ => rfl) (fun _ => rfl)
    (fun _ => rfl) (fun _ => rfl) _ (fun _ _ _ => SyncPc.noConfusion) h.sole_merge
  intro c hparent
  have hpos : 0 < pending d (.mergeLink idx linked (child :: todo) :: pcs) c idx :=
    Nat.add_pos_left (count_pos_iff.mpr hparent) _
  have hmem := h.member c idx hlive hpos
  rw [hmembers] at hmem
  rw [SyncPc.unlinks, if_pos rfl]
  exact mem_reverse.mpr hmem

theorem Linked.linkChild (h : Linked d (.mergeLink idx linked (child :: todo) :: pcs))
    (hunlocked : d.rowLocked child = false) :
    Linked (d.linkChild idx linked child todo choice).1
      ((d.linkChild idx linked child todo choice).2 :: pcs) := by
  obtain ⟨hlive, hmembers⟩ := h.merging idx linked (child :: todo) mem_cons_self
  have hparents := h.parentsList_of_live hlive
  rw [SyncDevice.linkChild]
  split
  · exact h.failLink rfl hparents
  rename_i hgood
  rw [not_or] at hgood
  split
  · rename_i hfailed
    apply Linked.device h.skip
    apply SyncDevice.SameLinks.setRow
    exact ⟨rfl, iff_of_false hgood.2 hlive.2, rfl, rfl, rfl⟩
  split
  · exact h.skip
  split
  · rw [SyncDevice.failLink, setRow_setRow, setRow_table_self]
    exact h.failLink rfl hparents
  simp only
  split
  · rw [SyncDevice.failLink, setRow_setRow, setRow_table_self]
    exact h.failLink rfl hparents
  · have htype : (d.table child).type = .indv := by
      cases htype : (d.table child).type with
      | indv => rfl
      | group => exact absurd htype hgood.1
    exact h.link hunlocked htype hgood.2

theorem Linked.mergeEnd (h : Linked d (.mergeLink idx linked [] :: pcs)) :
    Linked (d.mergeEnd idx linked).1 ((d.mergeEnd idx linked).2 :: pcs) := by
  obtain ⟨hlive, -⟩ := h.merging idx linked [] mem_cons_self
  have hrow : (d.table idx).SameLinks
      (if (d.table idx).remaining = 0 ∧ (d.table idx).state.failed = false then
        { d.table idx with state := .signaledSuccess } else d.table idx) := by
    split
    · exact ⟨rfl, iff_of_false SyncState.noConfusion hlive.2, rfl, rfl, rfl⟩
    · exact .refl _
  rw [SyncDevice.mergeEnd]
  exact (h.device (.setRow hrow)).unlock

theorem Linked.unlink_clean (h : Linked d (.mergeClean idx (child :: todo) :: pcs)) :
    Linked (d.unlinkParent child idx) (.mergeClean idx todo :: pcs) := by
  have hwf : inRange idx = true := h.wellFormed _ mem_cons_self
  apply h.unlink (.mergeClean idx todo) (beq_self_eq_true idx)
    (fun _ _ => SyncPc.noConfusion) hwf rfl (fun _ => rfl)
    (fun _ => rfl) _ (fun _ _ _ => SyncPc.noConfusion)
  intro c other hmem
  rw [SyncPc.unlinks, mem_ite_nil_right] at hmem
  rw [SyncPc.unlinks, mem_ite_nil_right]
  rcases mem_cons.mp hmem.2 with hc | hc
  · exact .inr ⟨hc, hmem.1.symm⟩
  · exact .inl ⟨hmem.1, hc⟩

theorem inRange_ne_zero (h : inRange idx = true) : idx ≠ 0 := by
  intro hzero
  rw [hzero] at h
  cases h

theorem Linked.mergeFail (h : Linked d (.mergeClean idx [] :: pcs)) :
    Linked (d.mergeFail idx).1 ((d.mergeFail idx).2 :: pcs) := by
  have hinvalid := (h.sole_owner (beq_self_eq_true idx)).1
  rw [SyncDevice.mergeFail]
  apply h.release (.mergeLeaked idx) (inRange_ne_zero (h.wellFormed _ mem_cons_self))
    (fun _ => rfl) _ _
    (fun _ => ite_self _) (fun _ _ => SyncPc.noConfusion) trivial rfl (fun _ => rfl) (fun _ => rfl)
    (fun _ _ _ => SyncPc.noConfusion)
  · exact hinvalid
  · exact h.parentsList_of_invalid hinvalid

end Merge

section Destroy

variable {obj : ℕ} {children parents : List ℕ}

theorem Linked.destroy (h : Linked d (pc :: pcs)) (hpc : pc.quiet = true)
    (hok : (SyncPc.enter (.destroy obj)).destroysMerged d = true)
    (hlocked : d.rowLocked obj = false) :
    Linked (d.destroy obj).1 ((d.destroy obj).2 :: pcs) := by
  rw [SyncDevice.destroy]
  split
  · exact h.quiet hpc rfl trivial
  split
  · exact h.quiet hpc rfl trivial
  rename_i hrange hvalid
  rw [SyncPc.destroysMerged, Bool.or_eq_true, decide_eq_true_eq, decide_eq_true_eq] at hok
  have hlive : d.Live obj := ⟨hok.resolve_right hvalid, hvalid⟩
  have hparents := h.parentsList_of_live hlive
  have hinRange : inRange obj = true := by
    rw [Bool.not_eq_true, Bool.not_eq_false'] at hrange
    exact hrange
  rw [hparents]
  apply h.invalidate _ hlive rfl rfl (pc.ne_merged_of_quiet hpc) _ _ (pc.owns_quiet hpc)
    (fun _ => rfl) _
    (pc.unlinks_quiet hpc) _ (fun _ _ _ => SyncPc.noConfusion)
  · intro linked todo hmem
    have hlocks := h.locks obj
    have hcount : 0 < (pc :: pcs).countP (·.holds obj) :=
      countP_pos_iff.mpr ⟨_, mem_cons_of_mem _ hmem, beq_self_eq_true obj⟩
    rw [hlocked] at hlocks
    exact Nat.not_lt.mpr hlocks hcount
  · exact ⟨hinRange, rfl⟩
  · exact (pc.carries_quiet hpc).symm
  · exact fun other => (pc.holds_quiet hpc other).symm
  · intro child hparent
    rw [SyncPc.unlinks, if_pos rfl, mem_filter]
    rcases h.parent child obj hparent with hlinked | hunlink
    · refine ⟨hlinked.2, decide_eq_true (h.child child obj hparent).1⟩
    · obtain ⟨other, hother, hmem⟩ := hunlink
      have howned := h.owned obj
      have hbit := (d.bitmap obj).toNat_le
      have hcount : 0 < (pc :: pcs).countP (·.owns obj) :=
        countP_pos_iff.mpr ⟨other, hother, SyncPc.owns_of_unlinks hmem⟩
      have hrow : (d.table obj).valid = true := by
        rw [SyncRow.valid, decide_eq_false hvalid, Bool.not_false]
      rw [hrow, Bool.toNat_true] at howned
      omega

theorem Linked.destroyNext (h : Linked d (.destroyLinks obj children parents :: pcs)) :
    Linked (d.destroyNext obj children parents).1
      ((d.destroyNext obj children parents).2 :: pcs) := by
  have hwf := h.wellFormed _ mem_cons_self
  obtain ⟨hrange, rfl⟩ := hwf
  cases children with
  | nil =>
    rw [SyncDevice.destroyNext]
    exact h.release (.returned 0) (inRange_ne_zero hrange) (fun _ => rfl) rfl rfl
      (fun _ => ite_self _) (fun _ _ => SyncPc.noConfusion) trivial rfl (fun _ => rfl)
      (fun _ => rfl)
      (fun _ _ _ => SyncPc.noConfusion)
  | cons child children =>
    rw [SyncDevice.destroyNext]
    have hunlink : Linked (d.unlinkParent child obj) (.destroyLinks obj children [] :: pcs) := by
      apply h.unlink (.destroyLinks obj children []) (beq_self_eq_true obj)
        (fun _ _ => SyncPc.noConfusion) ⟨hrange, rfl⟩ rfl
        (fun _ => rfl) (fun _ => rfl) _ (fun _ _ _ => SyncPc.noConfusion)
      intro c other hmem
      rw [SyncPc.unlinks, mem_ite_nil_right] at hmem
      rw [SyncPc.unlinks, mem_ite_nil_right]
      rcases mem_cons.mp hmem.2 with hc | hc
      · exact .inr ⟨hc, hmem.1.symm⟩
      · exact .inl ⟨hmem.1, hc⟩
    split
    · rename_i hinvalid
      have hsame : d.unlinkParent child obj = d := by
        have hparents := h.parentsList_of_invalid hinvalid
        have hrow : { d.table child with
            parentsList := (d.table child).parentsList.erase obj } = d.table child := by
          rw [hparents, erase_nil, ← hparents]
        rw [SyncDevice.unlinkParent, hrow, SyncDevice.setRow_self]
      rw [← hsame]
      exact hunlink
    · exact hunlink

end Destroy

/-! ## All sections -/

theorem removeDuplicateArr_nodup (h : (removeDuplicateArr objs).length = objs.length) :
    objs.Nodup := by
  have hfold : ∀ (arr kept : List ℕ), kept.Nodup →
      (arr.foldl (fun kept obj => if obj ∈ kept then kept else kept ++ [obj]) kept).length ≤
        kept.length + arr.length ∧
      ((arr.foldl (fun kept obj => if obj ∈ kept then kept else kept ++ [obj]) kept).length =
        kept.length + arr.length → (kept ++ arr).Nodup) := by
    intro arr
    induction arr with
    | nil =>
      intro kept hkept
      exact ⟨Nat.le_refl _, fun _ => (append_nil kept).symm ▸ hkept⟩
    | cons obj arr ih =>
      intro kept hkept
      rw [foldl_cons, length_cons]
      split
      · have hle := (ih kept hkept).1
        exact ⟨Nat.le_succ_of_le hle, fun heq => absurd heq (Nat.ne_of_lt (by omega))⟩
      · rename_i hnot
        have hconcat : (kept ++ [obj]).Nodup := nodup_append.mpr
          ⟨hkept, nodup_singleton obj, by
            intro x hx y hy heq
            rw [mem_singleton.mp hy] at heq
            exact hnot (heq ▸ hx)⟩
        have hstep := ih (kept ++ [obj]) hconcat
        rw [length_append, length_singleton, append_assoc,
          singleton_append] at hstep
        exact ⟨by omega, fun heq => hstep.2 (by omega)⟩
  have hobjs := (hfold objs [] nodup_nil).2
  rw [length_nil, Nat.zero_add] at hobjs
  exact hobjs h

def SyncPc.still : SyncPc → Bool
  | .enter (.destroy _) | .destroyLinks _ _ _ => false
  | .signalSynx _ _ _ | .signalParents _ _ _ _ | .merged _ _ => false
  | _ => true

def SyncPc.registers : SyncPc → Bool
  | .enter (.registerCallback _ _) | .enter (.registerUserPayload _ _) => true
  | _ => false

/-- What a section does that has to do with one object at most and with no link: it goes on, it
writes what no invariant speaks of, it registers, or it signals an individual object. -/
inductive SectionEffect (d : SyncDevice) (pc : SyncPc) : SyncDevice × SyncPc → Prop where
  | goesOn {pc' : SyncPc} (hquiet : pc'.quiet = true) (hstill : pc'.still = true)
      (hwf : pc'.WellFormed) : SectionEffect d pc (d, pc')
  | notes (obj : ℕ) (refCnt : ℤ) (synxObj : Option ℕ) :
    SectionEffect d pc (d.setRow obj { d.table obj with refCnt, synxObj }, .returned 0)
  | registers {d' : SyncDevice} (hpc : pc.registers = true) (hsame : d.SameObjects d') :
    SectionEffect d pc (d', .returned 0)
  | signals (obj : ℕ) (refCnt : ℤ) (status : SyncState) (cause : ℕ)
      (hindv : (d.table obj).type = .indv) (hactive : (d.table obj).state = .active)
      (hsignaled : status.signaled = true) :
    SectionEffect d pc
      (d.setRow obj { d.table obj with refCnt, state := status }, .signalSynx obj status cause)
  | finishes {d' : SyncDevice} {obj cause : ℕ} {status : SyncState}
      (heffect : SectionEffect d pc (d', .signalSynx obj status cause))
      (hsignaled : status.signaled = true) (hlocked : d'.rowLocked obj = false) :
    SectionEffect d pc (d'.finishSignal obj status cause)

section Effect

variable {obj : ℕ}

theorem SectionEffect.returns (d : SyncDevice) (pc : SyncPc) (rc : ℤ) :
    SectionEffect d pc (d, .returned rc) :=
  .goesOn rfl rfl trivial

theorem registerCallback_effect (hpc : pc.registers = true) (obj : ℕ) (cb : SyncCallback)
    (alloc : Bool) : SectionEffect d pc (d.registerCallback obj cb alloc) := by
  rw [SyncDevice.registerCallback]
  split
  · exact .returns d pc _
  split
  · exact .returns d pc _
  split
  · exact .returns d pc _
  split
  · exact .registers hpc ⟨fun _ => ⟨_, _, rfl⟩, rfl, rfl, rfl⟩
  · have hset := SyncDevice.SameObjects.setRow d obj ((d.table obj).callbackList ++ [cb])
      (d.table obj).userPayloadList
    exact .registers hpc ⟨hset.rows, rfl, rfl, rfl⟩

theorem registerUserPayload_effect (hpc : pc.registers = true) (obj : ℕ) (payload : SyncPayload)
    (alloc : Bool) : SectionEffect d pc (d.registerUserPayload obj payload alloc) := by
  rw [SyncDevice.registerUserPayload]
  split
  · exact .returns d pc _
  split
  · exact .returns d pc _
  split
  · exact .returns d pc _
  split
  · exact .registers hpc ⟨fun _ => ⟨_, _, rfl⟩, rfl, rfl, rfl⟩
  split
  · exact .returns d pc _
  · have hset := SyncDevice.SameObjects.setRow d obj (d.table obj).callbackList
      ((d.table obj).userPayloadList ++ [payload])
    exact .registers hpc ⟨hset.rows, rfl, rfl, rfl⟩

theorem signal_effect (hlocked : d.rowLocked obj = false) (pc : SyncPc) (status cause : ℕ) :
    SectionEffect d pc (d.signal obj status cause) := by
  rw [SyncDevice.signal]
  split
  · exact .returns d pc _
  split
  · exact .returns d pc _
  · rename_i state hvalid
    obtain ⟨hindv, hactive, hsignaled⟩ := SyncRow.signalValidate_ok hvalid
    split
    · exact .notes obj _ _
    have hsignals : SectionEffect d pc (d.setRow obj { d.table obj with
        refCnt := (d.table obj).refCnt - 1, state := state }, .signalSynx obj state cause) :=
      .signals obj _ state cause hindv hactive hsignaled
    split
    · exact hsignals
    · exact hsignals.finishes hsignaled hlocked

theorem fenceCb_effect (hlocked : d.rowLocked obj = false) (pc : SyncPc) (status : ℕ) :
    SectionEffect d pc (d.fenceCb obj status) := by
  rw [SyncDevice.fenceCb]
  split
  · exact .returns d pc _
  · rename_i state hvalid
    obtain ⟨hindv, hactive, hsignaled⟩ := SyncRow.signalValidate_ok hvalid
    split
    · exact .notes obj _ _
    · have hsignals : SectionEffect d pc (d.setRow obj { d.table obj with
          refCnt := (d.table obj).refCnt + 1 - 1, state := state }, .signalSynx obj state 0) :=
        .signals obj _ state 0 hindv hactive hsignaled
      exact hsignals.finishes hsignaled hlocked

theorem enter_effect (choice : SyncChoice) {op : SyncOp}
    (henabled : syncSystem.enabled d (.enter op) = true) (hstill : (SyncPc.enter op).still = true) :
    SectionEffect d (.enter op) (d.enter choice op) := by
  cases op with
  | create synx dma => exact .goesOn rfl rfl trivial
  | registerCallback obj cb => exact registerCallback_effect rfl obj cb _
  | registerUserPayload obj payload => exact registerUserPayload_effect rfl obj payload _
  | getObjRef obj =>
    rw [SyncDevice.enter, SyncDevice.getObjRef]
    split
    · exact .returns d _ _
    split
    · exact .returns d _ _
    · exact .notes obj _ _
  | putObjRef obj =>
    rw [SyncDevice.enter, SyncDevice.putObjRef]
    split
    · exact .returns d _ _
    · exact .notes obj _ _
  | synxAssociate obj synx =>
    rw [SyncDevice.enter, SyncDevice.synxAssociate]
    split
    · exact .returns d _ _
    split
    · exact .returns d _ _
    split
    · exact .returns d _ _
    · exact .notes obj _ _
  | signal obj status cause =>
    exact signal_effect (SyncPc.unlocked_of_enabled henabled rfl) _ status cause
  | dmaFenceCb obj fd status =>
    rw [SyncDevice.enter, SyncDevice.dmaFenceCb]
    split
    · exact .returns d _ _
    split
    · exact .returns d _ _
    split
    · exact .returns d _ _
    · exact fenceCb_effect (SyncPc.unlocked_of_enabled henabled rfl) _ _
  | synxObjCb obj synx status =>
    rw [SyncDevice.enter, SyncDevice.synxObjCb]
    split
    · exact .returns d _ _
    split
    · exact .returns d _ _
    split
    · exact .returns d _ _
    · exact fenceCb_effect (SyncPc.unlocked_of_enabled henabled rfl) _ status
  | merge objs =>
    rw [SyncDevice.enter, SyncDevice.mergeEnter]
    split
    · exact .returns d _ _
    split
    · exact .returns d _ _
    · rename_i hlength
      exact .goesOn rfl rfl
        ⟨removeDuplicateArr_nodup (not_not.mp hlength), fun obj hobj => absurd hobj not_mem_nil⟩
  | destroy obj => cases hstill

theorem finding_effect {new : NewObj} (hwf : new.WellFormed) :
    SectionEffect d (.finding new) (d.act choice (.finding new)) := by
  rw [SyncDevice.act]
  split
  · exact .returns d _ _
  · rename_i hidx
    have hlt := findFirstZeroBit_lt hidx
    rw [Nat.zero_add] at hlt
    exact .goesOn rfl rfl ⟨hlt, hwf⟩

theorem mergeCheck_effect {checked todo : List ℕ}
    (hwf : (SyncPc.mergeCheck checked todo).WellFormed) :
    SectionEffect d (.mergeCheck checked todo) (d.act choice (.mergeCheck checked todo)) := by
  cases todo with
  | nil =>
    rw [SyncPc.WellFormed, append_nil] at hwf
    exact .goesOn rfl rfl hwf
  | cons obj todo =>
    rw [SyncDevice.act]
    split
    · rename_i hvalid
      rw [SyncDevice.checkValid, Bool.and_eq_true, Bool.and_eq_true] at hvalid
      refine .goesOn rfl rfl ?_
      rw [SyncPc.WellFormed, append_assoc, singleton_append]
      refine ⟨hwf.1, ?_⟩
      intro other hother
      rcases mem_append.mp hother with hother | hother
      · exact hwf.2 other hother
      · rw [mem_singleton.mp hother]
        exact hvalid.1.1
    · exact .returns d _ _

end Effect

theorem Linked.effect {out : SyncDevice × SyncPc} (h : Linked d (pc :: pcs))
    (hpc : pc.quiet = true) (heffect : SectionEffect d pc out) :
    Linked out.1 (out.2 :: pcs) := by
  induction heffect with
  | goesOn hquiet _ hwf => exact h.quiet hpc hquiet hwf
  | notes obj refCnt synxObj =>
    exact Linked.device (h.quiet hpc rfl trivial) (.setRow ⟨rfl, .rfl, rfl, rfl, rfl⟩)
  | registers _ hsame => exact Linked.device (h.quiet hpc rfl trivial) hsame.sameLinks
  | signals obj refCnt status cause _ hactive hsignaled =>
    exact Linked.device (h.quiet hpc rfl hsignaled)
      (.setRow (signaledRow_sameLinks refCnt hactive hsignaled))
  | finishes _ hsignaled _ ih => exact ih.finishSignal rfl _ hsignaled _

theorem Linked.act (h : Linked d (pc :: pcs))
    (henabled : syncSystem.enabled d pc = true) (hok : pc.ReuseOk d (pc :: pcs)) :
    Linked (d.act choice pc).1 ((d.act choice pc).2 :: pcs) := by
  have hwf := h.wellFormed pc mem_cons_self
  cases pc with
  | enter op =>
    cases op with
    | destroy obj => exact h.destroy rfl hok.1 (SyncPc.unlocked_of_enabled henabled rfl)
    | _ => exact h.effect rfl (enter_effect choice henabled rfl)
  | finding new => exact h.effect rfl (finding_effect hwf)
  | mergeCheck checked todo => exact h.effect rfl (mergeCheck_effect hwf)
  | found idx new =>
    rw [SyncDevice.act]
    split
    · exact h.quiet rfl rfl hwf.2
    · rename_i hfree
      exact h.take rfl (Bool.eq_false_iff.mpr hfree) hwf.1 hwf.2
  | owning idx new =>
    cases new with
    | indv synx dma => exact h.createRow
    | group objs => exact h.groupRow (SyncPc.unlocked_of_enabled henabled rfl) hok.2
  | signalSynx obj status cause => exact h.finishSignal rfl obj hwf cause
  | signalParents child status cause parents =>
    cases parents with
    | nil =>
      exact h.replace trivial (fun _ _ => SyncPc.noConfusion) rfl (fun _ => rfl)
        (fun _ => rfl) (fun _ => rfl)
        (fun _ _ _ => SyncPc.noConfusion)
    | cons parent parents =>
      have hlocked := SyncPc.unlocked_of_enabled henabled rfl
      exact (h.propagate hlocked).device (signalParent_sameLinks parent cause hwf)
  | mergeLink idx linked todo =>
    cases todo with
    | nil => exact h.mergeEnd
    | cons child todo => exact h.linkChild (SyncPc.unlocked_of_enabled henabled rfl)
  | mergeClean idx todo =>
    cases todo with
    | nil => exact h.mergeFail
    | cons child todo => exact h.unlink_clean
  | destroyLinks obj children parents => exact h.destroyNext
  | returned rc => exact h
  | created idx => exact h
  | mergeLeaked idx => exact h
  | merged idx objs => exact h

end QcomModules.CamSync
