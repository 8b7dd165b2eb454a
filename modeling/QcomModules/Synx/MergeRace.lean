import QcomModules.Synx.Merge

/-! One call of `synx_global_merge` against signals of its children, one locked section at a
time. A child is subtracted from the composite either by the call, which finds it signaled when
it links it, or by the notification that its own signal makes. -/

namespace QcomModules.Synx

open List Function

/-! ## Interleaved sections -/

/-- The children and the composite of the call. -/
structure MergeEnv where
  idxList : List ℕ
  pIdx : ℕ
  nodup : idxList.Nodup
  valid : ∀ idx ∈ idxList, synxIsValidIdx idx = true
  validParent : synxIsValidIdx pIdx = true
  notMem : pIdx ∉ idxList

/-- Where the call stands; `link` is about to link child `j`. -/
inductive MergePc where
  | idle
  | link (j : ℕ) (count : MergeCount)
  | fail (j : ℕ) (count : MergeCount) (rc : ℤ)
  | returned (rc : ℤ)
deriving DecidableEq, Repr

/-- The memory, the call, and the notifications of the composite that signals have still to
make, with the child and its status. Ghost: the children that the call counted and has not
subtracted, and those subtracted, by whomever. -/
structure MergeState where
  gmem : SynxSharedMem
  pc : MergePc
  notify : List (ℕ × ℕ)
  counted : List ℕ
  subtracted : List ℕ

inductive MergeStep (env : MergeEnv) : MergeState → MergeState → Prop where
  /-- Without children there is nothing to do. -/
  | empty (s : MergeState) (hpc : s.pc = .idle) (hlist : env.idxList = []) :
      MergeStep env s { s with pc := .returned 0 }
  | start (s : MergeState) (hpc : s.pc = .idle) (hlist : env.idxList ≠ []) :
      MergeStep env s { s with
        gmem := s.gmem.setEntry env.pIdx
          (mergeStartLocked (s.gmem.table env.pIdx) env.idxList.length)
        pc := .link 0 ⟨0, synxStateActive⟩ }
  | link (s : MergeState) (j idx : ℕ) (count : MergeCount) (hpc : s.pc = .link j count)
      (hidx : env.idxList[j]? = some idx) (hfree : (s.gmem.table idx).freeSlot ≠ none) :
      MergeStep env s { s with
        gmem := s.gmem.setEntry idx ((s.gmem.table idx).addParent env.pIdx)
        pc := .link (j + 1) (count.note (s.gmem.table idx))
        counted := if (s.gmem.table idx).status ≠ synxStateActive ∧
          (s.gmem.table idx).numChild = 0 then idx :: s.counted else s.counted }
  | linkFull (s : MergeState) (j idx : ℕ) (count : MergeCount) (hpc : s.pc = .link j count)
      (hidx : env.idxList[j]? = some idx) (hfull : (s.gmem.table idx).freeSlot = none) :
      MergeStep env s { s with pc := .fail j (count.note (s.gmem.table idx)) eNoMem }
  | settle (s : MergeState) (count : MergeCount)
      (hpc : s.pc = .link env.idxList.length count) :
      MergeStep env s { s with
        gmem := s.gmem.setEntry env.pIdx (mergeSettleLocked (s.gmem.table env.pIdx) count)
        pc := .returned 0
        counted := []
        subtracted := s.counted ++ s.subtracted }
  | fail (s : MergeState) (j : ℕ) (count : MergeCount) (rc : ℤ) (hpc : s.pc = .fail j count rc) :
      MergeStep env s { s with
        gmem := s.gmem.setEntry env.pIdx
          (mergeFailLocked (s.gmem.table env.pIdx) count env.idxList.length j)
        pc := .returned rc }
  /-- A child is signaled; notifications of other composites are left to `other`. -/
  | signal (s : MergeState) (idx status : ℕ) (hidx : idx ∈ env.idxList)
      (hstatus : synxStateActive < status) :
      MergeStep env s { s with
        gmem := s.gmem.apply idx (updateStatusLocked (s.gmem.table idx) status false)
        notify := ((updateStatusLocked (s.gmem.table idx) status false).hParents.filter
          (· = env.pIdx)).map (fun _ => (idx, status)) ++ s.notify }
  /-- A signal notifies the composite. -/
  | notify (s : MergeState) (idx status : ℕ) (before after : List (ℕ × ℕ))
      (hnotify : s.notify = before ++ (idx, status) :: after) :
      MergeStep env s { s with
        gmem := s.gmem.apply env.pIdx (updateStatusLocked (s.gmem.table env.pIdx) status true)
        notify := before ++ after
        subtracted := idx :: s.subtracted }
  /-- Entries other than the composite and its children change in any way. -/
  | other (s : MergeState) (idx : ℕ) (entry : SynxGlobalCoredata) (hidx : idx ∉ env.idxList)
      (hparent : idx ≠ env.pIdx) :
      MergeStep env s { s with gmem := s.gmem.setEntry idx entry }

/-- A child before the call: a leaf, active or signaled, that is not linked to the composite. -/
structure LeafEntry (env : MergeEnv) (entry : SynxGlobalCoredata) : Prop where
  numChild : entry.numChild = 0
  parents : env.pIdx ∉ entry.parentList

structure MergeState.Initial (env : MergeEnv) (s : MergeState) : Prop where
  handle : (s.gmem.table env.pIdx).handle ≠ 0
  refcount : (s.gmem.table env.pIdx).refcount ≠ 0
  status : (s.gmem.table env.pIdx).status = synxStateActive
  numChild : (s.gmem.table env.pIdx).numChild = 0
  leaves : ∀ idx ∈ env.idxList, LeafEntry env (s.gmem.table idx)
  pc : s.pc = .idle
  notify : s.notify = []
  counted : s.counted = []
  subtracted : s.subtracted = []

/-! ## Every child is in one place -/

/-- The children that are not subtracted yet, when the first `j` are linked. -/
def MergeState.waiting (env : MergeEnv) (s : MergeState) (j : ℕ) : List ℕ :=
  env.idxList.drop j ++
    (env.idxList.take j).filter (fun idx => (s.gmem.table idx).status = synxStateActive) ++
    s.notify.map Prod.fst ++ s.counted

/-- The children are leaves, and the first `j` of them are linked once. -/
structure Linked (env : MergeEnv) (s : MergeState) (j : ℕ) : Prop where
  numChild : ∀ idx ∈ env.idxList, (s.gmem.table idx).numChild = 0
  linked : ∀ idx ∈ env.idxList.take j, (s.gmem.table idx).parentList.count env.pIdx = 1
  unlinked : ∀ idx ∈ env.idxList.drop j, (s.gmem.table idx).parentList.count env.pIdx = 0
  notified : ∀ note ∈ s.notify, synxStateActive < note.2
  places : ∀ idx, (s.waiting env j).count idx + s.subtracted.count idx = env.idxList.count idx

/-- The composite counts the children that are not subtracted. -/
structure Counting (env : MergeEnv) (refcount : UInt16) (s : MergeState) (j : ℕ) : Prop where
  numChild : (s.gmem.table env.pIdx).numChild = UInt16.ofNat (s.waiting env j).length
  refcount : (s.gmem.table env.pIdx).refcount =
    if s.waiting env j = [] then refcount else refcount + 1
  status : (s.gmem.table env.pIdx).status = synxStateActive → s.subtracted = []

/-- The invariant, by where the call stands; a call that fails is of no interest. -/
def RaceInvariant (env : MergeEnv) (refcount : UInt16) (s : MergeState) : Prop :=
  match s.pc with
  | .idle => Linked env s 0 ∧ s.notify = [] ∧ s.counted = [] ∧ s.subtracted = [] ∧
      (s.gmem.table env.pIdx).handle ≠ 0 ∧
      (s.gmem.table env.pIdx).refcount = refcount ∧ (s.gmem.table env.pIdx).numChild = 0 ∧
      (s.gmem.table env.pIdx).status = synxStateActive
  | .link j count => Linked env s j ∧ Counting env refcount s j ∧
      count.numChildSignaled = s.counted.length ∧
      (s.counted ≠ [] → count.parentStatus ≠ synxStateActive)
  | .fail _ _ rc => rc ≠ 0
  | .returned rc => rc = 0 → Linked env s env.idxList.length ∧
      Counting env refcount s env.idxList.length ∧ s.counted = []

/-! ## Places -/

theorem count_filter_eq {l : List ℕ} (p : ℕ → Bool) (x : ℕ) :
    (l.filter p).count x = if p x then l.count x else 0 := by
  split
  · next hx => exact count_filter hx
  · next hx =>
      refine count_eq_zero.mpr fun hmem => hx ?_
      exact (mem_filter.mp hmem).2

namespace MergeEnv

variable (env : MergeEnv)

theorem pIdx_ne_zero : env.pIdx ≠ 0 := by
  have h := env.validParent
  simp only [synxIsValidIdx, Bool.and_eq_true, decide_eq_true_eq] at h
  exact h.1

theorem length_lt : env.idxList.length < 2 ^ 16 := by
  have hsub : env.idxList.Subperm (range synxGlobalMaxObjs) := by
    refine subperm_of_subset env.nodup fun idx hidx => ?_
    have hvalid := env.valid idx hidx
    simp only [synxIsValidIdx, Bool.and_eq_true, decide_eq_true_eq] at hvalid
    exact mem_range.mpr hvalid.2
  have hle := hsub.length_le
  rw [length_range, synxGlobalMaxObjs] at hle
  omega

theorem count_take_add_drop (j x : ℕ) :
    (env.idxList.take j).count x + (env.idxList.drop j).count x = env.idxList.count x := by
  rw [← count_append, take_append_drop]

end MergeEnv

namespace MergeState

variable {env : MergeEnv} {s : MergeState} {j : ℕ}

theorem count_waiting (idx : ℕ) : (s.waiting env j).count idx = (env.idxList.drop j).count idx +
    (if (s.gmem.table idx).status = synxStateActive then (env.idxList.take j).count idx else 0) +
    (s.notify.map Prod.fst).count idx + s.counted.count idx := by
  simp only [waiting, count_append, count_filter_eq, decide_eq_true_eq]

end MergeState

theorem Counting.of_perm {env : MergeEnv} {refcount : UInt16} {s s' : MergeState} {j j' : ℕ}
    (h : Counting env refcount s j) (hperm : (s'.waiting env j').Perm (s.waiting env j))
    (hentry : s'.gmem.table env.pIdx = s.gmem.table env.pIdx)
    (hsub : s'.subtracted = s.subtracted) : Counting env refcount s' j' where
  numChild := by rw [hentry, hperm.length_eq, h.numChild]
  refcount := by
    rw [hentry, h.refcount]
    simp only [← length_eq_zero_iff, hperm.length_eq]
  status hactive := by
    rw [hsub]
    exact h.status (by rw [← hentry]; exact hactive)

/-! ## Signals -/

section
variable {env : MergeEnv} {refcount : UInt16} {s : MergeState} {j idx status : ℕ}

def MergeState.signaled (env : MergeEnv) (s : MergeState) (idx status : ℕ) : MergeState :=
  { s with
    gmem := s.gmem.apply idx (updateStatusLocked (s.gmem.table idx) status false)
    notify := ((updateStatusLocked (s.gmem.table idx) status false).hParents.filter
      (· = env.pIdx)).map (fun _ => (idx, status)) ++ s.notify }

theorem signaled_of_not_active (hchild : (s.gmem.table idx).numChild = 0)
    (hstatus : (s.gmem.table idx).status ≠ synxStateActive) :
    s.signaled env idx status = s := by
  rw [MergeState.signaled, updateStatusLocked_signaled hchild hstatus]
  simp [SynxSharedMem.apply, SynxSharedMem.setEntry]

theorem notify_signaled (hchild : (s.gmem.table idx).numChild = 0)
    (hstatus : (s.gmem.table idx).status = synxStateActive) :
    (s.signaled env idx status).notify =
      List.replicate ((s.gmem.table idx).parentList.count env.pIdx) (idx, status) ++ s.notify := by
  rw [MergeState.signaled, updateStatusLocked_leaf hchild hstatus]
  simp only [map_const', append_cancel_right_eq]
  rw [count_eq_length_filter]
  rfl

theorem table_signaled (hchild : (s.gmem.table idx).numChild = 0)
    (hstatus : (s.gmem.table idx).status = synxStateActive) :
    (s.signaled env idx status).gmem.table = Function.update s.gmem.table idx
      { s.gmem.table idx with status := status, waiters := 0 } := by
  rw [MergeState.signaled, updateStatusLocked_leaf hchild hstatus]
  exact s.gmem.table_apply idx _

end

section
variable {env : MergeEnv} {refcount : UInt16} {s : MergeState} {j idx status : ℕ}

theorem Linked.count_le_one (env : MergeEnv) (x : ℕ) : env.idxList.count x ≤ 1 :=
  nodup_iff_count_le_one.mp env.nodup x

theorem Linked.waiting_signaled (h : Linked env s j) (hidx : idx ∈ env.idxList)
    (hstatus : synxStateActive < status)
    (hactive : (s.gmem.table idx).status = synxStateActive) :
    ((s.signaled env idx status).waiting env j).Perm (s.waiting env j) := by
  have hchild := h.numChild idx hidx
  rw [perm_iff_count]
  intro x
  rw [MergeState.count_waiting, MergeState.count_waiting, notify_signaled hchild hactive,
    table_signaled hchild hactive, map_append, count_append, map_replicate,
    count_replicate]
  have hcounted : (s.signaled env idx status).counted = s.counted := rfl
  rw [hcounted]
  by_cases hx : x = idx
  · subst hx
    have hsum := env.count_take_add_drop j x
    have hone := Linked.count_le_one env x
    have hmem := count_pos_iff.mpr hidx
    simp only [update_self, hactive, if_true, Nat.ne_of_gt hstatus, if_false,
      beq_self_eq_true]
    by_cases htake : x ∈ env.idxList.take j
    · have := h.linked x htake
      have := count_pos_iff.mpr htake
      omega
    · have hdrop : x ∈ env.idxList.drop j := by
        rw [← count_pos_iff]
        have := count_eq_zero.mpr htake
        omega
      have := h.unlinked x hdrop
      have := count_eq_zero.mpr htake
      omega
  · have hne : (idx == x) = false := by simpa using Ne.symm hx
    simp [update_of_ne hx, hne]

theorem Linked.congr (h : Linked env s j) {s' : MergeState}
    (hchild : ∀ x ∈ env.idxList, (s'.gmem.table x).numChild = (s.gmem.table x).numChild)
    (hparents : ∀ x ∈ env.idxList, (s'.gmem.table x).parentList = (s.gmem.table x).parentList)
    (hnotified : ∀ note ∈ s'.notify, synxStateActive < note.2)
    (hplaces : ∀ x, (s'.waiting env j).count x + s'.subtracted.count x = env.idxList.count x) :
    Linked env s' j where
  numChild x hx := by rw [hchild x hx, h.numChild x hx]
  linked x hx := by rw [hparents x (mem_of_mem_take hx), h.linked x hx]
  unlinked x hx := by rw [hparents x (mem_of_mem_drop hx), h.unlinked x hx]
  notified := hnotified
  places := hplaces

theorem Linked.signaled (h : Linked env s j) (hidx : idx ∈ env.idxList)
    (hstatus : synxStateActive < status)
    (hactive : (s.gmem.table idx).status = synxStateActive) :
    Linked env (s.signaled env idx status) j := by
  have hchild := h.numChild idx hidx
  have htable : (s.signaled env idx status).gmem.table = _ := table_signaled hchild hactive
  refine h.congr ?_ ?_ ?_ ?_
  · intro x _
    rw [htable]
    by_cases hxi : x = idx
    · rw [hxi, update_self]
    · rw [update_of_ne hxi]
  · intro x _
    rw [htable]
    by_cases hxi : x = idx
    · rw [hxi, update_self]
      rfl
    · rw [update_of_ne hxi]
  · intro note hnote
    rw [notify_signaled hchild hactive] at hnote
    rcases mem_append.mp hnote with hnew | hold
    · rw [eq_of_mem_replicate hnew]
      exact hstatus
    · exact h.notified note hold
  · intro x
    rw [(h.waiting_signaled hidx hstatus hactive).count_eq x]
    exact h.places x

end

/-! ## Sections of the call -/

section
variable {env : MergeEnv} {refcount : UInt16} {s : MergeState} {j idx status : ℕ}

theorem Linked.perm (h : Linked env s j) :
    (s.waiting env j ++ s.subtracted).Perm env.idxList := by
  rw [perm_iff_count]
  intro x
  rw [count_append]
  exact h.places x

theorem Linked.length_waiting_lt (h : Linked env s j) : (s.waiting env j).length < 2 ^ 16 := by
  have hlen := h.perm.length_eq
  have hlist := env.length_lt
  rw [length_append] at hlen
  omega

/-- The call links child `j`. -/
def MergeState.linkChild (env : MergeEnv) (s : MergeState) (j idx : ℕ) (count : MergeCount) :
    MergeState :=
  { s with
    gmem := s.gmem.setEntry idx ((s.gmem.table idx).addParent env.pIdx)
    pc := .link (j + 1) (count.note (s.gmem.table idx))
    counted := if (s.gmem.table idx).status ≠ synxStateActive ∧
      (s.gmem.table idx).numChild = 0 then idx :: s.counted else s.counted }

variable {count : MergeCount}

theorem drop_eq_cons (hidx : env.idxList[j]? = some idx) :
    env.idxList.drop j = idx :: env.idxList.drop (j + 1) := by
  obtain ⟨hlt, hget⟩ := List.getElem?_eq_some_iff.mp hidx
  rw [drop_eq_getElem_cons hlt, hget]

theorem take_eq_concat (hidx : env.idxList[j]? = some idx) :
    env.idxList.take (j + 1) = env.idxList.take j ++ [idx] := by
  rw [take_add_one, hidx]
  rfl

theorem status_linkChild (x : ℕ) :
    ((s.linkChild env j idx count).gmem.table x).status = (s.gmem.table x).status := by
  rw [MergeState.linkChild, SynxSharedMem.table_setEntry]
  by_cases hx : x = idx
  · rw [hx, update_self, status_addParent]
  · rw [update_of_ne hx]

theorem numChild_linkChild (x : ℕ) :
    ((s.linkChild env j idx count).gmem.table x).numChild = (s.gmem.table x).numChild := by
  rw [MergeState.linkChild, SynxSharedMem.table_setEntry]
  by_cases hx : x = idx
  · rw [hx, update_self, numChild_addParent]
  · rw [update_of_ne hx]

theorem Linked.waiting_linkChild (h : Linked env s j) (hidx : env.idxList[j]? = some idx) :
    ((s.linkChild env j idx count).waiting env (j + 1)).Perm (s.waiting env j) := by
  have hchild := h.numChild idx (mem_of_getElem? hidx)
  rw [perm_iff_count]
  intro x
  rw [MergeState.count_waiting, MergeState.count_waiting, status_linkChild, drop_eq_cons hidx,
    take_eq_concat hidx]
  simp only [count_append, count_cons, count_nil]
  have hnotify : (s.linkChild env j idx count).notify = s.notify := rfl
  have hcounted : (s.linkChild env j idx count).counted =
      if (s.gmem.table idx).status ≠ synxStateActive ∧ (s.gmem.table idx).numChild = 0 then
        idx :: s.counted else s.counted := rfl
  rw [hnotify, hcounted]
  by_cases hx : idx = x
  · subst hx
    by_cases hactive : (s.gmem.table idx).status = synxStateActive
    · simp only [hactive, if_true, beq_self_eq_true, ne_eq, not_true_eq_false, false_and,
        if_false]
      omega
    · simp only [hactive, if_false, hchild, ne_eq, not_false_eq_true, and_self, if_true,
        count_cons_self, beq_self_eq_true]
      omega
  · have hne : (idx == x) = false := by simpa using hx
    have hcount : List.count x (if (s.gmem.table idx).status ≠ synxStateActive ∧
        (s.gmem.table idx).numChild = 0 then idx :: s.counted else s.counted) =
        s.counted.count x := by
      split
      · rw [count_cons_of_ne (Ne.symm (Ne.symm hx))]
      · rfl
    rw [hcount]
    simp [hne]

theorem Linked.linkChild (h : Linked env s j) (hidx : env.idxList[j]? = some idx)
    (hfree : (s.gmem.table idx).freeSlot ≠ none) :
    Linked env (s.linkChild env j idx count) (j + 1) := by
  have hdrop := drop_eq_cons hidx
  have hmem : idx ∈ env.idxList.drop j := by simp [hdrop]
  have hnodup : (env.idxList.drop j).Nodup := env.nodup.sublist (drop_sublist j _)
  have hentry : (s.linkChild env j idx count).gmem.table =
      update s.gmem.table idx ((s.gmem.table idx).addParent env.pIdx) := rfl
  have htake : ∀ x ∈ env.idxList.take j, x ≠ idx := by
    rintro x hx rfl
    have := h.linked x hx
    have := h.unlinked x hmem
    omega
  refine ⟨?_, ?_, ?_, h.notified, ?_⟩
  · intro x hx
    rw [numChild_linkChild, h.numChild x hx]
  · intro x hx
    rw [take_eq_concat hidx, mem_append, mem_singleton] at hx
    rcases hx with hx | rfl
    · rw [hentry, update_of_ne (htake x hx), h.linked x hx]
    · rw [hentry, update_self, count_addParent env.pIdx_ne_zero hfree,
        h.unlinked x hmem]
  · intro x hx
    have hne : x ≠ idx := by
      rintro rfl
      rw [hdrop, nodup_cons] at hnodup
      exact hnodup.1 hx
    rw [hentry, update_of_ne hne]
    refine h.unlinked x ?_
    rw [hdrop]
    exact mem_cons_of_mem idx hx
  · intro x
    rw [(h.waiting_linkChild hidx).count_eq x]
    exact h.places x

theorem note_linkChild (h : Linked env s j) (hidx : env.idxList[j]? = some idx)
    (hsignaled : count.numChildSignaled = s.counted.length)
    (hstatus : s.counted ≠ [] → count.parentStatus ≠ synxStateActive) :
    (count.note (s.gmem.table idx)).numChildSignaled =
        (s.linkChild env j idx count).counted.length ∧
      ((s.linkChild env j idx count).counted ≠ [] →
        (count.note (s.gmem.table idx)).parentStatus ≠ synxStateActive) := by
  have hchild := h.numChild idx (mem_of_getElem? hidx)
  have hcounted : (s.linkChild env j idx count).counted =
      if (s.gmem.table idx).status ≠ synxStateActive ∧ (s.gmem.table idx).numChild = 0 then
        idx :: s.counted else s.counted := rfl
  rw [hcounted]
  by_cases hactive : (s.gmem.table idx).status = synxStateActive
  · simp only [MergeCount.note, hactive, ne_eq, not_true_eq_false, false_and, if_false]
    exact ⟨hsignaled, hstatus⟩
  · simp only [MergeCount.note, ne_eq, hactive, not_false_eq_true, hchild, and_self, if_true,
      length_cons, hsignaled, true_and]
    intro _
    split
    · exact hactive
    · split
      · exact hactive
      · next hparent => exact hparent

def MergeState.notified (env : MergeEnv) (s : MergeState) (idx status : ℕ)
    (rest : List (ℕ × ℕ)) : MergeState :=
  { s with
    gmem := s.gmem.apply env.pIdx (updateStatusLocked (s.gmem.table env.pIdx) status true)
    notify := rest
    subtracted := idx :: s.subtracted }

variable {before after : List (ℕ × ℕ)}

theorem table_notified_of_mem {x : ℕ} (hx : x ∈ env.idxList) :
    (s.notified env idx status (before ++ after)).gmem.table x = s.gmem.table x := by
  have hne : x ≠ env.pIdx := by
    rintro rfl
    exact env.notMem hx
  rw [MergeState.notified, SynxSharedMem.table_apply, update_of_ne hne]

theorem filter_notified (n : ℕ) :
    (env.idxList.take n).filter (fun x =>
      ((s.notified env idx status (before ++ after)).gmem.table x).status = synxStateActive) =
    (env.idxList.take n).filter (fun x => (s.gmem.table x).status = synxStateActive) := by
  refine filter_congr fun x hx => ?_
  rw [table_notified_of_mem (mem_of_mem_take hx)]

theorem waiting_notified (env : MergeEnv) (j : ℕ)
    (hnotify : s.notify = before ++ (idx, status) :: after) :
    (s.waiting env j).Perm
      (idx :: (s.notified env idx status (before ++ after)).waiting env j) := by
  have hrest : (s.notified env idx status (before ++ after)).notify = before ++ after := rfl
  have hcounted : (s.notified env idx status (before ++ after)).counted = s.counted := rfl
  rw [perm_iff_count]
  intro x
  simp only [MergeState.waiting, filter_notified, hrest, hcounted, hnotify, map_append,
    map_cons, count_append, count_cons]
  omega

theorem Linked.notified_step (h : Linked env s j)
    (hnotify : s.notify = before ++ (idx, status) :: after) :
    Linked env (s.notified env idx status (before ++ after)) j := by
  refine h.congr ?_ ?_ ?_ ?_
  · intro x hx
    rw [table_notified_of_mem hx]
  · intro x hx
    rw [table_notified_of_mem hx]
  · intro note hnote
    refine h.notified note ?_
    rw [hnotify]
    rcases mem_append.mp hnote with hb | ha
    · exact mem_append_left _ hb
    · exact mem_append_right _ (mem_cons_of_mem _ ha)
  · intro x
    have hplaces := h.places x
    have hcount := (waiting_notified env j hnotify).count_eq x
    have hsub : (s.notified env idx status (before ++ after)).subtracted =
        idx :: s.subtracted := rfl
    rw [count_cons] at hcount
    rw [hsub, count_cons]
    omega

theorem Counting.notified (h : Counting env refcount s j) (hlinked : Linked env s j)
    (href : refcount ≠ 0) (hnotify : s.notify = before ++ (idx, status) :: after) :
    Counting env refcount (s.notified env idx status (before ++ after)) j := by
  have hperm := waiting_notified env j hnotify
  have hlen := hperm.length_eq
  have hlt := hlinked.length_waiting_lt
  rw [length_cons] at hlen
  have hstatus : synxStateActive < status := hlinked.notified (idx, status) (by simp [hnotify])
  have hwaiting : s.waiting env j ≠ [] := by
    intro hnil
    simp [hnil] at hlen
  have hchild : (s.gmem.table env.pIdx).numChild ≠ 0 := by
    rw [h.numChild, ne_eq, ofNat_eq_zero_iff hlt]
    omega
  have hrefs : (s.gmem.table env.pIdx).refcount = refcount + 1 := by
    rw [h.refcount, if_neg hwaiting]
  have hone : (s.gmem.table env.pIdx).refcount ≠ 1 := by
    rw [hrefs]
    simpa using href
  have hsub : (s.gmem.table env.pIdx).numChild - 1 =
      UInt16.ofNat ((s.notified env idx status (before ++ after)).waiting env j).length := by
    rw [h.numChild, hlen]
    simp
  have hentry : (s.notified env idx status (before ++ after)).gmem.table env.pIdx =
      (updateStatusLocked (s.gmem.table env.pIdx) status true).entry := by
    rw [MergeState.notified, SynxSharedMem.table_apply, update_self]
  rw [updateStatusLocked_composite hchild hone] at hentry
  refine ⟨?_, ?_, ?_⟩
  · rw [hentry]
    exact hsub
  · rw [hentry]
    have hlt' : ((s.notified env idx status (before ++ after)).waiting env j).length < 2 ^ 16 := by
      omega
    simp only [hsub, ofNat_eq_zero_iff hlt', length_eq_zero_iff, hrefs]
    split
    · simp
    · rfl
  · intro hactive
    rw [hentry] at hactive
    simp only at hactive
    split at hactive
    · exact absurd hactive (Nat.ne_of_gt hstatus)
    · next hkeep => simp [hactive] at hkeep

def MergeState.settled (env : MergeEnv) (s : MergeState) (count : MergeCount) : MergeState :=
  { s with
    gmem := s.gmem.setEntry env.pIdx (mergeSettleLocked (s.gmem.table env.pIdx) count)
    pc := .returned 0
    counted := []
    subtracted := s.counted ++ s.subtracted }

theorem table_settled_of_mem {x : ℕ} (hx : x ∈ env.idxList) :
    (s.settled env count).gmem.table x = s.gmem.table x := by
  have hne : x ≠ env.pIdx := by
    rintro rfl
    exact env.notMem hx
  rw [MergeState.settled, SynxSharedMem.table_setEntry, update_of_ne hne]

theorem waiting_settled (env : MergeEnv) (s : MergeState) (j : ℕ) (count : MergeCount) :
    s.waiting env j = (s.settled env count).waiting env j ++ s.counted := by
  have hfilter : (env.idxList.take j).filter (fun x =>
      ((s.settled env count).gmem.table x).status = synxStateActive) =
      (env.idxList.take j).filter (fun x => (s.gmem.table x).status = synxStateActive) := by
    refine filter_congr fun x hx => ?_
    rw [table_settled_of_mem (mem_of_mem_take hx)]
  have hnotify : (s.settled env count).notify = s.notify := rfl
  have hcounted : (s.settled env count).counted = [] := rfl
  rw [MergeState.waiting, MergeState.waiting, hfilter, hnotify, hcounted, append_nil]

theorem Linked.settled (h : Linked env s j) : Linked env (s.settled env count) j := by
  refine h.congr ?_ ?_ h.notified ?_
  · intro x hx
    rw [table_settled_of_mem hx]
  · intro x hx
    rw [table_settled_of_mem hx]
  · intro x
    have hplaces := h.places x
    have hsub : (s.settled env count).subtracted = s.counted ++ s.subtracted := rfl
    rw [waiting_settled env s j count, count_append] at hplaces
    rw [hsub, count_append]
    omega

theorem Counting.settled (h : Counting env refcount s j) (hlinked : Linked env s j)
    (hsignaled : count.numChildSignaled = s.counted.length)
    (hstatus : s.counted ≠ [] → count.parentStatus ≠ synxStateActive) :
    Counting env refcount (s.settled env count) j := by
  have hlt := hlinked.length_waiting_lt
  have hlen := congrArg length (waiting_settled env s j count)
  rw [length_append] at hlen
  have hentry : (s.settled env count).gmem.table env.pIdx =
      mergeSettleLocked (s.gmem.table env.pIdx) count := by
    rw [MergeState.settled, SynxSharedMem.table_setEntry, update_self]
  have hsub : (s.gmem.table env.pIdx).numChild - UInt16.ofNat count.numChildSignaled =
      UInt16.ofNat ((s.settled env count).waiting env j).length := by
    rw [h.numChild, hsignaled, hlen, ← UInt16.ofNat_sub (Nat.le_add_left _ _),
      Nat.add_sub_cancel]
  refine ⟨?_, ?_, ?_⟩
  · rw [hentry]
    exact hsub
  · rw [hentry]
    have hlt' : ((s.settled env count).waiting env j).length < 2 ^ 16 := by omega
    simp only [mergeSettleLocked, hsub]
    simp only [ofNat_eq_zero_iff hlt', length_eq_zero_iff, h.refcount, hsignaled]
    by_cases hnil : (s.settled env count).waiting env j = []
    · by_cases hcounted : s.counted = []
      · have hwaiting : s.waiting env j = [] := by
          rw [waiting_settled env s j count, hnil, hcounted]
          rfl
        simp [hcounted, hwaiting, hnil]
      · have hwaiting : s.waiting env j ≠ [] := by
          rw [waiting_settled env s j count, hnil]
          simpa using hcounted
        simp [hnil, hcounted, hwaiting]
    · have hwaiting : s.waiting env j ≠ [] := by
        rw [waiting_settled env s j count]
        simp [hnil]
      simp [hnil, hwaiting]
  · intro hactive
    rw [hentry] at hactive
    simp only [mergeSettleLocked] at hactive
    have hsame : s.counted ++ s.subtracted = [] := by
      split at hactive
      · next hset =>
          have hcounted : s.counted = [] := by
            by_contra hne
            exact hstatus hne hactive
          rw [hcounted, nil_append]
          refine h.status ?_
          by_contra hne
          have herr : isErrorStatus count.parentStatus = false := by
            rw [hactive]
            rfl
          simp [hne, herr] at hset
      · next hkeep => simp [hactive] at hkeep
    exact hsame

theorem Counting.started (hinv : RaceInvariant env refcount s) (href : refcount ≠ 0)
    (hpc : s.pc = .idle) (hlist : env.idxList ≠ []) :
    RaceInvariant env refcount { s with
      gmem := s.gmem.setEntry env.pIdx
        (mergeStartLocked (s.gmem.table env.pIdx) env.idxList.length)
      pc := .link 0 ⟨0, synxStateActive⟩ } := by
  simp only [RaceInvariant, hpc] at hinv
  obtain ⟨hlinked, hnotify, hcounted, hsub, hhandle, hrefs, hchild, hstatus⟩ := hinv
  have hentry : mergeStartLocked (s.gmem.table env.pIdx) env.idxList.length =
      { s.gmem.table env.pIdx with
        numChild := UInt16.ofNat env.idxList.length
        refcount := refcount + 1 } := by
    rw [mergeStartLocked, if_pos ⟨hhandle, by rw [hrefs]; exact href⟩, hchild, hrefs]
    simp
  have htable : ∀ x ∈ env.idxList, update s.gmem.table env.pIdx
      (mergeStartLocked (s.gmem.table env.pIdx) env.idxList.length) x = s.gmem.table x := by
    intro x hx
    rw [update_of_ne]
    rintro rfl
    exact env.notMem hx
  simp only [RaceInvariant]
  refine ⟨hlinked.congr ?_ ?_ hlinked.notified ?_, ⟨?_, ?_, ?_⟩, ?_, ?_⟩
  · intro x hx
    rw [SynxSharedMem.table_setEntry, htable x hx]
  · intro x hx
    rw [SynxSharedMem.table_setEntry, htable x hx]
  · intro x
    simp [MergeState.waiting, hnotify, hcounted, hsub]
  · rw [SynxSharedMem.table_setEntry, update_self, hentry]
    simp [MergeState.waiting, hnotify, hcounted]
  · rw [SynxSharedMem.table_setEntry, update_self, hentry]
    simp [MergeState.waiting, hnotify, hcounted, hlist]
  · exact fun _ => hsub
  · rw [hcounted]
    rfl
  · exact fun hne => absurd hcounted hne

end

/-! ## The call on its own -/

section
variable {env : MergeEnv}

end

/-! ## Runs -/

section
variable {env : MergeEnv} {refcount : UInt16} {s s' : MergeState}

theorem RaceInvariant.congr (h : RaceInvariant env refcount s)
    (hpc : s'.pc = s.pc) (hnotify : s'.notify = s.notify) (hcounted : s'.counted = s.counted)
    (hsub : s'.subtracted = s.subtracted)
    (hleaves : ∀ x ∈ env.idxList, s'.gmem.table x = s.gmem.table x)
    (hparent : s'.gmem.table env.pIdx = s.gmem.table env.pIdx) :
    RaceInvariant env refcount s' := by
  have hwaiting : ∀ j, s'.waiting env j = s.waiting env j := by
    intro j
    have hfilter : (env.idxList.take j).filter (fun x =>
        (s'.gmem.table x).status = synxStateActive) =
        (env.idxList.take j).filter (fun x => (s.gmem.table x).status = synxStateActive) :=
      filter_congr fun x hx => by rw [hleaves x (mem_of_mem_take hx)]
    rw [MergeState.waiting, MergeState.waiting, hfilter, hnotify, hcounted]
  have hlinked : ∀ {j}, Linked env s j → Linked env s' j := by
    intro j hl
    refine hl.congr (fun x hx => by rw [hleaves x hx]) (fun x hx => by rw [hleaves x hx]) ?_ ?_
    · rw [hnotify]
      exact hl.notified
    · rw [hwaiting, hsub]
      exact hl.places
  have hcounting : ∀ {j}, Counting env refcount s j → Counting env refcount s' j := by
    intro j hc
    exact hc.of_perm (by rw [hwaiting]) hparent hsub
  simp only [RaceInvariant, hpc, hnotify, hcounted, hsub, hparent] at h ⊢
  cases hp : s.pc with
  | idle =>
    simp only [hp] at h ⊢
    exact ⟨hlinked h.1, h.2⟩
  | link j count =>
    simp only [hp] at h ⊢
    exact ⟨hlinked h.1, hcounting h.2.1, h.2.2⟩
  | fail j count rc =>
    simp only [hp] at h ⊢
    exact h
  | returned rc =>
    simp only [hp] at h ⊢
    exact fun hrc => ⟨hlinked (h hrc).1, hcounting (h hrc).2.1, (h hrc).2.2⟩

theorem RaceInvariant.signaled {idx status : ℕ} (h : RaceInvariant env refcount s)
    (hidx : idx ∈ env.idxList) (hstatus : synxStateActive < status) :
    RaceInvariant env refcount (s.signaled env idx status) := by
  have hpc : (s.signaled env idx status).pc = s.pc := rfl
  have hcounted : (s.signaled env idx status).counted = s.counted := rfl
  have hsub : (s.signaled env idx status).subtracted = s.subtracted := rfl
  have hstep : ∀ {j}, Linked env s j → Linked env (s.signaled env idx status) j ∧
      ((s.signaled env idx status).waiting env j).Perm (s.waiting env j) ∧
      (s.signaled env idx status).gmem.table env.pIdx = s.gmem.table env.pIdx := by
    intro j hl
    have hne : env.pIdx ≠ idx := by
      rintro rfl
      exact env.notMem hidx
    by_cases hactive : (s.gmem.table idx).status = synxStateActive
    · refine ⟨hl.signaled hidx hstatus hactive, hl.waiting_signaled hidx hstatus hactive, ?_⟩
      rw [table_signaled (hl.numChild idx hidx) hactive, update_of_ne hne]
    · rw [signaled_of_not_active (hl.numChild idx hidx) hactive]
      exact ⟨hl, Perm.refl _, rfl⟩
  simp only [RaceInvariant, hpc, hcounted, hsub] at h ⊢
  cases hp : s.pc with
  | idle =>
    simp only [hp] at h ⊢
    obtain ⟨hl, hnotify, hrest⟩ := h
    obtain ⟨hl', -, hparent⟩ := hstep hl
    refine ⟨hl', ?_, ?_⟩
    · by_cases hactive : (s.gmem.table idx).status = synxStateActive
      · rw [notify_signaled (hl.numChild idx hidx) hactive, hnotify, hl.unlinked idx hidx]
        rfl
      · rw [signaled_of_not_active (hl.numChild idx hidx) hactive, hnotify]
    · rw [hparent]
      exact hrest
  | link j count =>
    simp only [hp] at h ⊢
    obtain ⟨hl', hperm, hparent⟩ := hstep h.1
    exact ⟨hl', h.2.1.of_perm hperm hparent hsub, h.2.2⟩
  | fail j count rc =>
    simp only [hp] at h ⊢
    exact h
  | returned rc =>
    simp only [hp] at h ⊢
    intro hrc
    obtain ⟨hl', hperm, hparent⟩ := hstep (h hrc).1
    exact ⟨hl', (h hrc).2.1.of_perm hperm hparent hsub, (h hrc).2.2⟩

theorem RaceInvariant.notified {idx status : ℕ} {before after : List (ℕ × ℕ)}
    (h : RaceInvariant env refcount s) (href : refcount ≠ 0)
    (hnotify : s.notify = before ++ (idx, status) :: after) :
    RaceInvariant env refcount (s.notified env idx status (before ++ after)) := by
  have hpc : (s.notified env idx status (before ++ after)).pc = s.pc := rfl
  have hcounted : (s.notified env idx status (before ++ after)).counted = s.counted := rfl
  simp only [RaceInvariant, hpc, hcounted] at h ⊢
  cases hp : s.pc with
  | idle =>
    simp only [hp] at h
    simp [h.2.1] at hnotify
  | link j count =>
    simp only [hp] at h ⊢
    exact ⟨h.1.notified_step hnotify, h.2.1.notified h.1 href hnotify, h.2.2⟩
  | fail j count rc =>
    simp only [hp] at h ⊢
    exact h
  | returned rc =>
    simp only [hp] at h ⊢
    exact fun hrc => ⟨(h hrc).1.notified_step hnotify,
      (h hrc).2.1.notified (h hrc).1 href hnotify, (h hrc).2.2⟩

theorem RaceInvariant.step (h : RaceInvariant env refcount s) (href : refcount ≠ 0)
    (hstep : MergeStep env s s') : RaceInvariant env refcount s' := by
  cases hstep with
  | empty hpc hlist =>
    simp only [RaceInvariant, hpc] at h
    obtain ⟨hlinked, hnotify, hcounted, hsub, -, hrefs, hchild, -⟩ := h
    simp only [RaceInvariant, hlist, length_nil]
    refine fun _ => ⟨⟨hlinked.numChild, hlinked.linked, hlinked.unlinked, hlinked.notified,
      hlinked.places⟩, ⟨?_, ?_, fun _ => hsub⟩, hcounted⟩
    · simp [MergeState.waiting, hlist, hnotify, hcounted, hchild]
    · simp [MergeState.waiting, hlist, hnotify, hcounted, hrefs]
  | start hpc hlist => exact Counting.started h href hpc hlist
  | link j idx count hpc hidx hfree =>
    simp only [RaceInvariant, hpc] at h
    obtain ⟨hlinked, hcounting, hsignaled, hparent⟩ := h
    have hne : env.pIdx ≠ idx := by
      rintro rfl
      exact env.notMem (mem_of_getElem? hidx)
    have hnote := note_linkChild hlinked hidx hsignaled hparent
    have hentry : (s.linkChild env j idx count).gmem.table env.pIdx =
        s.gmem.table env.pIdx := by
      rw [MergeState.linkChild, SynxSharedMem.table_setEntry, update_of_ne hne]
    exact ⟨hlinked.linkChild hidx hfree,
      hcounting.of_perm (hlinked.waiting_linkChild hidx) hentry rfl, hnote⟩
  | linkFull j idx count hpc hidx hfull =>
    simp only [RaceInvariant]
    decide
  | settle count hpc =>
    simp only [RaceInvariant, hpc] at h
    obtain ⟨hlinked, hcounting, hsignaled, hparent⟩ := h
    exact fun _ => ⟨hlinked.settled, hcounting.settled hlinked hsignaled hparent, rfl⟩
  | fail j count rc hpc =>
    simp only [RaceInvariant, hpc] at h
    simp only [RaceInvariant]
    exact fun hrc => absurd hrc h
  | signal idx status hidx hstatus => exact h.signaled hidx hstatus
  | notify idx status before after hnotify => exact h.notified href hnotify
  | other idx entry hidx hparent =>
    refine h.congr rfl rfl rfl rfl ?_ ?_
    · intro x hx
      rw [SynxSharedMem.table_setEntry, update_of_ne]
      rintro rfl
      exact hidx hx
    · rw [SynxSharedMem.table_setEntry, update_of_ne (Ne.symm hparent)]

theorem MergeState.Initial.raceInvariant (h : s.Initial env) :
    RaceInvariant env (s.gmem.table env.pIdx).refcount s := by
  simp only [RaceInvariant, h.pc]
  refine ⟨⟨fun x hx => (h.leaves x hx).numChild, ?_, ?_, ?_, ?_⟩, h.notify, h.counted,
    h.subtracted, h.handle, trivial, h.numChild, h.status⟩
  · simp
  · intro x hx
    exact count_eq_zero.mpr (h.leaves x (mem_of_mem_drop hx)).parents
  · simp [h.notify]
  · simp [MergeState.waiting, h.notify, h.counted, h.subtracted]

theorem RaceInvariant.run (h : RaceInvariant env refcount s) (href : refcount ≠ 0)
    (hrun : Relation.ReflTransGen (MergeStep env) s s') : RaceInvariant env refcount s' := by
  induction hrun with
  | refl => exact h
  | tail _ hstep ih => exact ih.step href hstep

/-- When a merge of at least one child has succeeded and all its children are signaled and have
notified it, the composite is complete, the reference for its children is released, and each
child was subtracted once. -/
theorem merge_race_completes {t : MergeState} (hlist : env.idxList ≠ [])
    (hinit : s.Initial env) (hrun : Relation.ReflTransGen (MergeStep env) s t)
    (hreturned : t.pc = .returned 0)
    (hsignaled : ∀ idx ∈ env.idxList, (t.gmem.table idx).status ≠ synxStateActive)
    (hnotified : t.notify = []) :
    (t.gmem.table env.pIdx).numChild = 0 ∧
      (t.gmem.table env.pIdx).status ≠ synxStateActive ∧
      (t.gmem.table env.pIdx).refcount = (s.gmem.table env.pIdx).refcount ∧
      t.subtracted.Perm env.idxList := by
  have hinv := hinit.raceInvariant.run hinit.refcount hrun
  simp only [RaceInvariant, hreturned, true_imp_iff] at hinv
  obtain ⟨hlinked, hcounting, hcounted⟩ := hinv
  have hwaiting : t.waiting env env.idxList.length = [] := by
    simp only [MergeState.waiting, hnotified, hcounted, drop_length, take_length,
      map_nil, append_nil, nil_append, filter_eq_nil_iff, decide_eq_true_eq]
    exact hsignaled
  have hperm := hlinked.perm
  rw [hwaiting, nil_append] at hperm
  refine ⟨?_, ?_, ?_, hperm⟩
  · rw [hcounting.numChild, hwaiting]
    rfl
  · intro hactive
    rw [hcounting.status hactive] at hperm
    exact hlist hperm.symm.eq_nil
  · rw [hcounting.refcount, if_pos hwaiting]

def raceMem : SynxSharedMem where
  bitmap idx := idx = 1 || idx = 2
  table idx :=
    if idx = 1 ∨ idx = 2 then
      { status := synxStateActive, handle := idx, refcount := 1, subscribers := 1 }
    else {}

def raceEnv (idxList : List ℕ) (h : idxList.Sublist [2]) : MergeEnv where
  idxList := idxList
  pIdx := 1
  nodup := (by decide : [2].Nodup).sublist h
  valid idx hidx := by
    have := h.subset hidx
    simp_all [synxIsValidIdx, synxGlobalMaxObjs]
  validParent := by decide
  notMem hmem := by simpa using h.subset hmem

def raceStart : MergeState := ⟨raceMem, .idle, [], [], []⟩

theorem raceStart_initial (idxList : List ℕ) (h : idxList.Sublist [2]) :
    raceStart.Initial (raceEnv idxList h) where
  handle := show (raceMem.table 1).handle ≠ 0 by decide
  refcount := show (raceMem.table 1).refcount ≠ 0 by decide
  status := rfl
  numChild := rfl
  leaves idx hidx := by
    have hmem := h.subset hidx
    rw [mem_singleton] at hmem
    subst hmem
    exact ⟨rfl, show 1 ∉ (raceMem.table 2).parentList by decide⟩
  pc := rfl
  notify := rfl
  counted := rfl
  subtracted := rfl

/-- The leaf is signaled between being linked and the end of the merge. -/
theorem merge_race_completes_signaled_in_gap :
    ∃ t, Relation.ReflTransGen (MergeStep (raceEnv [2] (List.Sublist.refl _))) raceStart t ∧
      (t.gmem.table 1).numChild = 0 ∧ (t.gmem.table 1).status ≠ synxStateActive ∧
      (t.gmem.table 1).refcount = (raceStart.gmem.table 1).refcount ∧
      t.subtracted.Perm [2] := by
  let env := raceEnv [2] (Sublist.refl _)
  have h0 : Relation.ReflTransGen (MergeStep env) raceStart raceStart := .refl
  have h1 := h0.tail (MergeStep.start _ rfl (by decide))
  have h2 := h1.tail (MergeStep.link _ 0 2 _ rfl rfl (by decide))
  have h3 := h2.tail (MergeStep.signal _ 2 synxStateSignaledError (by decide) (by decide))
  have h4 := h3.tail (MergeStep.settle _ _ rfl)
  have h5 := h4.tail (MergeStep.notify _ 2 synxStateSignaledError [] [] rfl)
  refine ⟨_, h5, merge_race_completes (by decide) (raceStart_initial _ _) h5 rfl ?_ rfl⟩
  intro idx hidx
  have hmem : idx = 2 := by simpa [env, raceEnv] using hidx
  subst hmem
  decide

/-- A merge of no children succeeds and leaves the composite active. -/
theorem empty_merge_stays_active :
    ¬ ∀ (env : MergeEnv) (s t : MergeState), s.Initial env →
      Relation.ReflTransGen (MergeStep env) s t → t.pc = .returned 0 →
      (∀ idx ∈ env.idxList, (t.gmem.table idx).status ≠ synxStateActive) → t.notify = [] →
      (t.gmem.table env.pIdx).numChild = 0 ∧
        (t.gmem.table env.pIdx).status ≠ synxStateActive ∧
        (t.gmem.table env.pIdx).refcount = (s.gmem.table env.pIdx).refcount ∧
        t.subtracted.Perm env.idxList := by
  intro hall
  let env := raceEnv [] (nil_sublist _)
  have hrun :
      Relation.ReflTransGen (MergeStep env) raceStart { raceStart with pc := .returned 0 } :=
    .single (MergeStep.empty _ rfl rfl)
  have hnone : ∀ idx ∈ env.idxList, (raceStart.gmem.table idx).status ≠ synxStateActive := by
    intro idx hidx
    exact absurd hidx not_mem_nil
  have h := hall env _ _ (raceStart_initial _ _) hrun rfl hnone rfl
  exact h.2.1 (by decide)

end

end QcomModules.Synx
