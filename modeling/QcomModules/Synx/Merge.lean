import QcomModules.Synx.Global

/-! What one call of `synx_global_merge` does: which children it links, what it counts of them,
and what is left of the composite. -/

namespace QcomModules.Synx

open Function
open List hiding Vector

/-! ## Linking a child -/

section
variable {entry : SynxGlobalCoredata} {pIdx : ℕ}

theorem zero_notMem_parentList (entry : SynxGlobalCoredata) : 0 ∉ entry.parentList := by
  simp [SynxGlobalCoredata.parentList]

theorem parentList_addParent_perm (hp : pIdx ≠ 0) (hfree : entry.freeSlot ≠ none) :
    (entry.addParent pIdx).parentList.Perm (pIdx :: entry.parentList) := by
  obtain ⟨i, hi⟩ := Option.ne_none_iff_exists'.mp hfree
  obtain ⟨hlt, hzero⟩ := freeSlot_eq_some hi
  rw [perm_iff_count]
  intro q
  by_cases hq : q = 0
  · subst hq
    rw [count_cons_of_ne hp, count_eq_zero.mpr (zero_notMem_parentList _),
      count_eq_zero.mpr (zero_notMem_parentList _)]
  · rw [count_cons, count_parentList hq, count_parentList hq, SynxGlobalCoredata.addParent,
      hi]
    simp only [Vector.toList_setIfInBounds]
    rw [count_set hlt, hzero]
    simp [Ne.symm hq]

theorem addParent_eq : entry.addParent pIdx =
    { entry with parents := (entry.addParent pIdx).parents } := by
  rw [SynxGlobalCoredata.addParent]
  split <;> rfl

theorem addParent_full (hfull : entry.freeSlot = none) (pIdx : ℕ) :
    entry.addParent pIdx = entry := by
  rw [SynxGlobalCoredata.addParent, hfull]

theorem length_parentList_full (hfull : entry.freeSlot = none) :
    entry.parentList.length = synxGlobalMaxParents := by
  have hnone : 0 ∉ entry.parents.toList := by
    rw [SynxGlobalCoredata.freeSlot, idxOf?, findIdx?_eq_none_iff] at hfull
    intro hmem
    simpa using hfull 0 hmem
  have hall : entry.parentList = entry.parents.toList := by
    rw [SynxGlobalCoredata.parentList, filter_eq_self]
    intro p hp
    simp only [ne_eq, decide_not, Bool.not_eq_eq_eq_not, Bool.not_true, decide_eq_false_iff_not]
    rintro rfl
    exact hnone hp
  rw [hall, Vector.length_toList]
  rfl

theorem length_parentList_le (entry : SynxGlobalCoredata) :
    entry.parentList.length ≤ synxGlobalMaxParents := by
  have hle := length_filter_le (fun p => decide (p ≠ 0)) entry.parents.toList
  rwa [Vector.length_toList] at hle

end

/-! ## Counting the children -/

/-- An entry that will not be signaled any more. -/
def SynxGlobalCoredata.done (entry : SynxGlobalCoredata) : Bool :=
  entry.numChild = 0 && entry.status ≠ synxStateActive

def MergeCount.noteAll (table : ℕ → SynxGlobalCoredata) (count : MergeCount)
    (idxList : List ℕ) : MergeCount :=
  idxList.foldl (fun count idx => count.note (table idx)) count

section
variable {table : ℕ → SynxGlobalCoredata} {count : MergeCount} {entry : SynxGlobalCoredata}
  {idxList : List ℕ}

theorem note_congr {entry' : SynxGlobalCoredata} (hstatus : entry'.status = entry.status)
    (hchild : entry'.numChild = entry.numChild) : count.note entry' = count.note entry := by
  simp only [MergeCount.note, hstatus, hchild]

theorem numChildSignaled_note : (count.note entry).numChildSignaled =
    count.numChildSignaled + if entry.done then 1 else 0 := by
  by_cases hstatus : entry.status = synxStateActive
  · simp [MergeCount.note, SynxGlobalCoredata.done, hstatus]
  · simp [MergeCount.note, SynxGlobalCoredata.done, hstatus]

theorem numChildSignaled_noteAll (table : ℕ → SynxGlobalCoredata) (count : MergeCount)
    (idxList : List ℕ) : (count.noteAll table idxList).numChildSignaled =
    count.numChildSignaled + idxList.countP (fun idx => (table idx).done) := by
  induction idxList generalizing count with
  | nil => rfl
  | cons idx idxList ih =>
    rw [MergeCount.noteAll, foldl_cons, ← MergeCount.noteAll, ih, numChildSignaled_note,
      countP_cons]
    omega

theorem parentStatus_note (count : MergeCount) (entry : SynxGlobalCoredata) :
    ((count.note entry).parentStatus = count.parentStatus ∨
      entry.status ≠ synxStateActive ∧ (count.note entry).parentStatus = entry.status) ∧
    (entry.status ≠ synxStateActive → (count.note entry).parentStatus ≠ synxStateActive) ∧
    (isErrorStatus entry.status = true →
      isErrorStatus (count.note entry).parentStatus = true) ∧
    (isErrorStatus count.parentStatus = true →
      isErrorStatus (count.note entry).parentStatus = true) ∧
    (count.parentStatus ≠ synxStateActive →
      (count.note entry).parentStatus ≠ synxStateActive) := by
  by_cases hstatus : entry.status = synxStateActive
  · simp [MergeCount.note, hstatus]
  · by_cases herr : isErrorStatus entry.status = true
    · simp [MergeCount.note, hstatus, herr]
    · by_cases hfirst : count.parentStatus = synxStateActive
      · simp [MergeCount.note, hstatus, herr, hfirst]
      · simp [MergeCount.note, hstatus, herr, hfirst]

/-- What the loop notes of the statuses, from children and from what it started with. -/
structure StatusNoted (table : ℕ → SynxGlobalCoredata) (count count' : MergeCount)
    (idxList : List ℕ) : Prop where
  source : count'.parentStatus = count.parentStatus ∨
    ∃ idx ∈ idxList, (table idx).status ≠ synxStateActive ∧
      count'.parentStatus = (table idx).status
  active : ∀ idx ∈ idxList, (table idx).status ≠ synxStateActive →
    count'.parentStatus ≠ synxStateActive
  error : ∀ idx ∈ idxList, isErrorStatus (table idx).status = true →
    isErrorStatus count'.parentStatus = true
  keepsError : isErrorStatus count.parentStatus = true → isErrorStatus count'.parentStatus = true
  keepsActive : count.parentStatus ≠ synxStateActive → count'.parentStatus ≠ synxStateActive

theorem statusNoted_noteAll (table : ℕ → SynxGlobalCoredata) (count : MergeCount)
    (idxList : List ℕ) : StatusNoted table count (count.noteAll table idxList) idxList := by
  induction idxList generalizing count with
  | nil => exact ⟨.inl rfl, by simp, by simp, id, id⟩
  | cons idx idxList ih =>
    have hrest := ih (count.note (table idx))
    obtain ⟨hsource, hactive, herror, hkeepsError, hkeepsActive⟩ :=
      parentStatus_note count (table idx)
    refine ⟨?_, ?_, ?_, ?_, ?_⟩
    · rcases hrest.source with hsame | ⟨k, hk, hk'⟩
      · rcases hsource with hnote | ⟨hne, hnote⟩
        · exact .inl (hsame.trans hnote)
        · exact .inr ⟨idx, mem_cons_self, hne, hsame.trans hnote⟩
      · exact .inr ⟨k, mem_cons_of_mem idx hk, hk'⟩
    · intro k hk hne
      rcases mem_cons.mp hk with rfl | hk
      · exact hrest.keepsActive (hactive hne)
      · exact hrest.active k hk hne
    · intro k hk herr
      rcases mem_cons.mp hk with rfl | hk
      · exact hrest.keepsError (herror herr)
      · exact hrest.error k hk herr
    · exact fun herr => hrest.keepsError (hkeepsError herr)
    · exact fun hne => hrest.keepsActive (hkeepsActive hne)

end

/-! ## The loop -/

/-- What the loop leaves when it got past `n` of the children. -/
structure LoopResult (pIdx : ℕ) (gmem gmem' : SynxSharedMem) (linked : List ℕ) : Prop where
  bitmap : gmem'.bitmap = gmem.bitmap
  fields : ∀ k, gmem'.table k = { gmem.table k with parents := (gmem'.table k).parents }
  parents : ∀ k, (gmem'.table k).parentList.Perm
    (List.replicate (linked.count k) pIdx ++ (gmem.table k).parentList)
  unlinked : ∀ k, k ∉ linked → gmem'.table k = gmem.table k

theorem LoopResult.refl (pIdx : ℕ) (gmem : SynxSharedMem) : LoopResult pIdx gmem gmem [] where
  bitmap := rfl
  fields _ := rfl
  parents _ := Perm.refl _
  unlinked _ _ := rfl

theorem LoopResult.trans {pIdx : ℕ} {gmem gmem' gmem'' : SynxSharedMem} {linked linked' : List ℕ}
    (h : LoopResult pIdx gmem gmem' linked) (h' : LoopResult pIdx gmem' gmem'' linked') :
    LoopResult pIdx gmem gmem'' (linked ++ linked') where
  bitmap := h'.bitmap.trans h.bitmap
  fields k := by
    have h₁ := h.fields k
    have h₂ := h'.fields k
    rw [h₁] at h₂
    exact h₂
  parents k := by
    refine (h'.parents k).trans ?_
    rw [count_append, Nat.add_comm, ← replicate_append_replicate, append_assoc]
    exact (h.parents k).append_left _
  unlinked k hk := by
    rw [mem_append, not_or] at hk
    rw [h'.unlinked k hk.2, h.unlinked k hk.1]

theorem loopResult_link {pIdx idx : ℕ} (gmem : SynxSharedMem) (hp : pIdx ≠ 0)
    (hfree : (gmem.table idx).freeSlot ≠ none) :
    LoopResult pIdx gmem (gmem.setEntry idx ((gmem.table idx).addParent pIdx)) [idx] where
  bitmap := rfl
  fields k := by
    rw [SynxSharedMem.table_setEntry]
    by_cases hk : k = idx
    · rw [hk, update_self]
      exact addParent_eq
    · rw [update_of_ne hk]
  parents k := by
    rw [SynxSharedMem.table_setEntry]
    by_cases hk : k = idx
    · rw [hk, update_self, count_singleton_self]
      exact parentList_addParent_perm hp hfree
    · rw [update_of_ne hk, count_singleton, if_neg (by simpa using Ne.symm hk)]
      exact Perm.refl _
  unlinked k hk := by
    rw [SynxSharedMem.table_setEntry, update_of_ne (by simpa using hk)]

/-- The loop links all children, or stops at one with an invalid index, or at one without a free
slot, which it has noted. -/
theorem mergeLoop_stops {pIdx : ℕ} (hp : pIdx ≠ 0) (idxList : List ℕ) (j : ℕ) (count : MergeCount)
    (gmem : SynxSharedMem) :
    ∃ gmem' linked, LoopResult pIdx gmem gmem' linked ∧
      (∀ idx ∈ linked, synxIsValidIdx idx = true) ∧
      ((idxList = linked ∧ mergeLoop pIdx idxList j count gmem =
          (0, j + linked.length, count.noteAll gmem.table linked, gmem')) ∨
        ∃ idx rest, idxList = linked ++ idx :: rest ∧
          ((synxIsValidIdx idx = false ∧ mergeLoop pIdx idxList j count gmem =
            (0, j + linked.length, count.noteAll gmem.table linked, gmem')) ∨
          (synxIsValidIdx idx = true ∧ (gmem'.table idx).freeSlot = none ∧
            mergeLoop pIdx idxList j count gmem =
              (eNoMem, j + linked.length, count.noteAll gmem.table (linked ++ [idx]),
                gmem')))) := by
  induction idxList generalizing j count gmem with
  | nil => exact ⟨gmem, [], .refl pIdx gmem, by simp, .inl ⟨rfl, rfl⟩⟩
  | cons idx idxList ih =>
    by_cases hidx : synxIsValidIdx idx = true
    · by_cases hfull : (gmem.table idx).freeSlot = none
      · refine ⟨gmem, [], .refl pIdx gmem, by simp,
          .inr ⟨idx, idxList, rfl, .inr ⟨hidx, hfull, ?_⟩⟩⟩
        have hsame : gmem.setEntry idx (gmem.table idx) = gmem := by
          rw [SynxSharedMem.setEntry, update_eq_self]
        simp [mergeLoop, hidx, hfull, addParent_full hfull, hsame, MergeCount.noteAll]
      · have hlink := loopResult_link gmem hp hfull
        have hnote : ∀ count idxList,
            MergeCount.noteAll (gmem.setEntry idx ((gmem.table idx).addParent pIdx)).table
              count idxList = MergeCount.noteAll gmem.table count idxList := by
          intro count idxList
          simp only [MergeCount.noteAll]
          congr 1
          funext count k
          have hk := hlink.fields k
          exact note_congr (by rw [hk]) (by rw [hk])
        have hloop : mergeLoop pIdx (idx :: idxList) j count gmem =
            mergeLoop pIdx idxList (j + 1) (count.note (gmem.table idx))
              (gmem.setEntry idx ((gmem.table idx).addParent pIdx)) := by
          simp [mergeLoop, hidx, hfull]
        have hcons : ∀ l, (count.note (gmem.table idx)).noteAll gmem.table l =
            count.noteAll gmem.table (idx :: l) := fun _ => rfl
        obtain ⟨gmem', linked, hresult, hvalid, hrest⟩ := ih (j + 1)
          (count.note (gmem.table idx)) (gmem.setEntry idx ((gmem.table idx).addParent pIdx))
        simp only [hnote, hcons, Nat.add_assoc, Nat.add_comm 1] at hrest
        refine ⟨gmem', idx :: linked, hlink.trans hresult,
          forall_mem_cons.mpr ⟨hidx, hvalid⟩, ?_⟩
        rw [hloop, length_cons]
        rcases hrest with ⟨rfl, heq⟩ | ⟨k, rest, rfl, hstop⟩
        · exact .inl ⟨rfl, heq⟩
        · exact .inr ⟨k, rest, rfl, hstop⟩
    · have hinvalid : synxIsValidIdx idx = false := by simpa using hidx
      refine ⟨gmem, [], .refl pIdx gmem, by simp,
        .inr ⟨idx, idxList, rfl, .inl ⟨hinvalid, ?_⟩⟩⟩
      simp [mergeLoop, hinvalid, MergeCount.noteAll]

theorem mergeLoop_result {pIdx : ℕ} (hp : pIdx ≠ 0) (idxList : List ℕ)
    (hvalid : ∀ idx ∈ idxList, synxIsValidIdx idx = true) (j : ℕ) (count : MergeCount)
    (gmem : SynxSharedMem) :
    ∃ gmem',
      (mergeLoop pIdx idxList j count gmem =
          (0, j + idxList.length, count.noteAll gmem.table idxList, gmem') ∧
        LoopResult pIdx gmem gmem' idxList) ∨
      ∃ linked idx rest, idxList = linked ++ idx :: rest ∧
        mergeLoop pIdx idxList j count gmem =
          (eNoMem, j + linked.length, count.noteAll gmem.table (linked ++ [idx]), gmem') ∧
        LoopResult pIdx gmem gmem' linked ∧ (gmem'.table idx).freeSlot = none := by
  obtain ⟨gmem', linked, hresult, -, hstop⟩ := mergeLoop_stops hp idxList j count gmem
  refine ⟨gmem', ?_⟩
  rcases hstop with ⟨rfl, heq⟩ | ⟨idx, rest, rfl, ⟨hinvalid, -⟩ | ⟨-, hfull, heq⟩⟩
  · exact .inl ⟨heq, hresult⟩
  · have hidx := hvalid idx (by simp)
    rw [hinvalid] at hidx
    exact absurd hidx Bool.false_ne_true
  · exact .inr ⟨linked, idx, rest, rfl, heq, hresult, hfull⟩

/-! ## A new composite -/

theorem noteAll_congr {table table' : ℕ → SynxGlobalCoredata} {idxList : List ℕ}
    (h : ∀ idx ∈ idxList, table' idx = table idx) (count : MergeCount) :
    count.noteAll table' idxList = count.noteAll table idxList := by
  induction idxList generalizing count with
  | nil => rfl
  | cons idx idxList ih =>
    rw [MergeCount.noteAll, MergeCount.noteAll, foldl_cons, foldl_cons,
      h idx mem_cons_self]
    exact ih (fun k hk => h k (mem_cons_of_mem idx hk)) _

theorem length_lt_of_count_le {idxList : List ℕ}
    (hvalid : ∀ idx ∈ idxList, synxIsValidIdx idx = true)
    (hcount : ∀ idx, idxList.count idx ≤ synxGlobalMaxParents) : idxList.length < 2 ^ 16 := by
  have hsub : idxList.toFinset ⊆ Finset.range synxGlobalMaxObjs := by
    intro idx hidx
    have h := hvalid idx (mem_toFinset.mp hidx)
    simp only [synxIsValidIdx, Bool.and_eq_true, decide_eq_true_eq] at h
    exact Finset.mem_range.mpr h.2
  calc idxList.length = ∑ idx ∈ idxList.toFinset, idxList.count idx :=
        (sum_toFinset_count_eq_length idxList).symm
    _ ≤ ∑ _idx ∈ idxList.toFinset, synxGlobalMaxParents :=
        Finset.sum_le_sum fun idx _ => hcount idx
    _ ≤ ∑ _idx ∈ Finset.range synxGlobalMaxObjs, synxGlobalMaxParents :=
        Finset.sum_le_sum_of_subset hsub
    _ < 2 ^ 16 := by simp [synxGlobalMaxObjs, synxGlobalMaxParents]

/-- What a merge of a new composite leaves when it has linked the given children. -/
structure Merged (gmem gmem' : SynxSharedMem) (linked : List ℕ) (pIdx : ℕ) : Prop where
  bitmap : gmem'.bitmap = gmem.bitmap
  other : ∀ k, k ≠ pIdx → gmem'.table k = { gmem.table k with parents := (gmem'.table k).parents }
  unlinked : ∀ k, k ≠ pIdx → k ∉ linked → gmem'.table k = gmem.table k
  parents : ∀ k, (gmem'.table k).parentList.Perm
    (List.replicate (linked.count k) pIdx ++ (gmem.table k).parentList)
  handle : (gmem'.table pIdx).handle = (gmem.table pIdx).handle
  numChild : (gmem'.table pIdx).numChild.toNat =
    linked.countP (fun k => !(gmem.table k).done)
  refcount : (gmem'.table pIdx).refcount = if (gmem'.table pIdx).numChild = 0 then
    (gmem.table pIdx).refcount else (gmem.table pIdx).refcount + 1

def started (entry : SynxGlobalCoredata) (numList : ℕ) : SynxGlobalCoredata :=
  { entry with numChild := UInt16.ofNat numList, refcount := entry.refcount + 1 }

section
variable {gmem gmem' : SynxSharedMem} {idxList linked : List ℕ} {pIdx : ℕ}

theorem mergeStartLocked_new (hhandle : (gmem.table pIdx).handle ≠ 0)
    (href : (gmem.table pIdx).refcount ≠ 0) (hchild : (gmem.table pIdx).numChild = 0)
    (numList : ℕ) :
    mergeStartLocked (gmem.table pIdx) numList = started (gmem.table pIdx) numList := by
  rw [mergeStartLocked, if_pos ⟨hhandle, href⟩, hchild, UInt16.zero_add]
  rfl

theorem table_started_of_ne {k : ℕ} (hk : k ≠ pIdx) (numList : ℕ) :
    (gmem.setEntry pIdx (started (gmem.table pIdx) numList)).table k = gmem.table k := by
  rw [SynxSharedMem.table_setEntry, update_of_ne hk]

variable {numList : ℕ}

theorem LoopResult.parents_started
    (h : LoopResult pIdx (gmem.setEntry pIdx (started (gmem.table pIdx) numList)) gmem' linked)
    (k : ℕ) : (gmem'.table k).parentList.Perm
      (List.replicate (linked.count k) pIdx ++ (gmem.table k).parentList) := by
  have hperm := h.parents k
  by_cases hk : k = pIdx
  · subst hk
    rwa [SynxSharedMem.table_setEntry, update_self] at hperm
  · rwa [table_started_of_ne hk] at hperm

theorem LoopResult.length_lt
    (h : LoopResult pIdx (gmem.setEntry pIdx (started (gmem.table pIdx) numList)) gmem' linked)
    (hvalid : ∀ idx ∈ linked, synxIsValidIdx idx = true) : linked.length < 2 ^ 16 := by
  refine length_lt_of_count_le hvalid fun idx => ?_
  have hlen := (h.parents_started idx).length_eq
  have hle := length_parentList_le (gmem'.table idx)
  rw [length_append, length_replicate] at hlen
  omega

theorem LoopResult.entry_started
    (h : LoopResult pIdx (gmem.setEntry pIdx (started (gmem.table pIdx) numList)) gmem' linked) :
    gmem'.table pIdx = { started (gmem.table pIdx) numList with
      parents := (gmem'.table pIdx).parents } := by
  have hfields := h.fields pIdx
  rwa [SynxSharedMem.table_setEntry, update_self] at hfields

theorem LoopResult.merged {entry : SynxGlobalCoredata}
    (h : LoopResult pIdx (gmem.setEntry pIdx (started (gmem.table pIdx) numList)) gmem' linked)
    (hvalid : ∀ idx ∈ linked, synxIsValidIdx idx = true)
    (hparents : entry.parents = (gmem'.table pIdx).parents)
    (hhandle : entry.handle = (gmem.table pIdx).handle)
    (hchild : entry.numChild = UInt16.ofNat (linked.countP fun k => !(gmem.table k).done))
    (href : entry.refcount = if entry.numChild = 0 then (gmem.table pIdx).refcount
      else (gmem.table pIdx).refcount + 1) :
    Merged gmem (gmem'.setEntry pIdx entry) linked pIdx := by
  have hself : (gmem'.setEntry pIdx entry).table pIdx = entry := by
    rw [SynxSharedMem.table_setEntry, update_self]
  have hother : ∀ k, k ≠ pIdx → (gmem'.setEntry pIdx entry).table k = gmem'.table k := by
    intro k hk
    rw [SynxSharedMem.table_setEntry, update_of_ne hk]
  refine ⟨h.bitmap, ?_, ?_, ?_, ?_, ?_, ?_⟩
  · intro k hk
    have hfields := h.fields k
    rw [table_started_of_ne hk] at hfields
    rw [hother k hk]
    exact hfields
  · intro k hk hmem
    rw [hother k hk, h.unlinked k hmem, table_started_of_ne hk]
  · intro k
    by_cases hk : k = pIdx
    · have hlist : entry.parentList = (gmem'.table pIdx).parentList := by
        rw [SynxGlobalCoredata.parentList, SynxGlobalCoredata.parentList, hparents]
      rw [hk, hself, hlist]
      exact h.parents_started pIdx
    · rw [hother k hk]
      exact h.parents_started k
  · rw [hself, hhandle]
  · rw [hself, hchild]
    refine UInt16.toNat_ofNat_of_lt' ?_
    exact Nat.lt_of_le_of_lt countP_le_length (h.length_lt hvalid)
  · rw [hself]
    exact href

theorem length_eq_done_add (table : ℕ → SynxGlobalCoredata) (l : List ℕ) :
    l.length = l.countP (fun k => (table k).done) + l.countP (fun k => !(table k).done) := by
  have hsplit := length_eq_countP_add_countP (fun k => (table k).done) (l := l)
  simpa using hsplit

theorem LoopResult.settled {count : MergeCount}
    (h : LoopResult pIdx (gmem.setEntry pIdx (started (gmem.table pIdx) idxList.length)) gmem'
      idxList) (hlist : idxList ≠ []) (hvalid : ∀ idx ∈ idxList, synxIsValidIdx idx = true)
    (hcount : count.numChildSignaled = idxList.countP (fun k => (gmem.table k).done)) :
    Merged gmem (gmem'.setEntry pIdx (mergeSettleLocked (gmem'.table pIdx) count)) idxList
      pIdx := by
  have hlength := h.length_lt hvalid
  have hsplit := length_eq_done_add gmem.table idxList
  have hnum : UInt16.ofNat idxList.length - UInt16.ofNat count.numChildSignaled =
      UInt16.ofNat (idxList.countP fun k => !(gmem.table k).done) := by
    rw [hcount, hsplit, ← UInt16.ofNat_sub (Nat.le_add_right _ _), Nat.add_sub_cancel_left]
  have hchild : (mergeSettleLocked (gmem'.table pIdx) count).numChild =
      UInt16.ofNat (idxList.countP fun k => !(gmem.table k).done) := by
    rw [mergeSettleLocked, h.entry_started]
    exact hnum
  refine h.merged hvalid rfl ?_ hchild ?_
  · rw [mergeSettleLocked, h.entry_started]
    rfl
  · rw [hchild, mergeSettleLocked, h.entry_started]
    simp only [started, hnum]
    by_cases hzero : UInt16.ofNat (idxList.countP fun k => !(gmem.table k).done) = 0
    · have hsome : count.numChildSignaled ≠ 0 := by
        intro hnone
        rw [ofNat_eq_zero_iff (by omega)] at hzero
        exact hlist (length_eq_zero_iff.mp (by omega))
      simp [hzero, hsome]
    · simp [hzero]

theorem LoopResult.failed {count : MergeCount} (hle : linked.length ≤ idxList.length)
    (h : LoopResult pIdx (gmem.setEntry pIdx (started (gmem.table pIdx) idxList.length)) gmem'
      linked) (hvalid : ∀ idx ∈ linked, synxIsValidIdx idx = true)
    (hcount : count.numChildSignaled = linked.countP (fun k => (gmem.table k).done)) :
    Merged gmem (gmem'.setEntry pIdx
      (mergeFailLocked (gmem'.table pIdx) count idxList.length linked.length)) linked pIdx := by
  have hsplit := length_eq_done_add gmem.table linked
  have hnum : UInt16.ofNat idxList.length -
      UInt16.ofNat (count.numChildSignaled + (idxList.length - linked.length)) =
      UInt16.ofNat (linked.countP fun k => !(gmem.table k).done) := by
    rw [← UInt16.ofNat_sub (by omega)]
    congr 1
    omega
  have hchild : (mergeFailLocked (gmem'.table pIdx) count idxList.length linked.length).numChild =
      UInt16.ofNat (linked.countP fun k => !(gmem.table k).done) := by
    rw [mergeFailLocked, h.entry_started]
    exact hnum
  refine h.merged hvalid rfl ?_ hchild ?_
  · rw [mergeFailLocked, h.entry_started]
    rfl
  · rw [hchild, mergeFailLocked, h.entry_started]
    simp only [started, hnum]
    by_cases hzero : UInt16.ofNat (linked.countP fun k => !(gmem.table k).done) = 0
    · simp [hzero]
    · simp [hzero]

theorem noteAll_started (hmem : pIdx ∉ linked) (numList : ℕ) (count : MergeCount) :
    count.noteAll (gmem.setEntry pIdx (started (gmem.table pIdx) numList)).table linked =
      count.noteAll gmem.table linked :=
  noteAll_congr (fun _ hidx => table_started_of_ne (by rintro rfl; exact hmem hidx) numList) count

theorem synxGlobalMerge_cases (hvalid : ∀ idx ∈ idxList, synxIsValidIdx idx = true)
    (hp : synxIsValidIdx pIdx = true) (hlist : idxList ≠ []) (hmem : pIdx ∉ idxList)
    (hhandle : (gmem.table pIdx).handle ≠ 0) (href : (gmem.table pIdx).refcount ≠ 0)
    (hchild : (gmem.table pIdx).numChild = 0) :
    ∃ gmem',
      (LoopResult pIdx (gmem.setEntry pIdx (started (gmem.table pIdx) idxList.length)) gmem'
          idxList ∧
        synxGlobalMerge gmem idxList pIdx = (0, gmem'.setEntry pIdx
          (mergeSettleLocked (gmem'.table pIdx)
            (MergeCount.noteAll gmem.table ⟨0, synxStateActive⟩ idxList)))) ∨
      ∃ linked idx rest, idxList = linked ++ idx :: rest ∧
        LoopResult pIdx (gmem.setEntry pIdx (started (gmem.table pIdx) idxList.length)) gmem'
          linked ∧ (gmem'.table idx).freeSlot = none ∧
        synxGlobalMerge gmem idxList pIdx = (eNoMem, gmem'.setEntry pIdx
          (mergeFailLocked (gmem'.table pIdx)
            (MergeCount.noteAll gmem.table ⟨0, synxStateActive⟩ (linked ++ [idx]))
            idxList.length linked.length)) := by
  have hne : pIdx ≠ 0 := by
    rintro rfl
    simp [synxIsValidIdx] at hp
  have hstart := mergeStartLocked_new hhandle href hchild idxList.length
  obtain ⟨gmem', hloop⟩ := mergeLoop_result hne idxList hvalid 0 ⟨0, synxStateActive⟩
    (gmem.setEntry pIdx (started (gmem.table pIdx) idxList.length))
  refine ⟨gmem', ?_⟩
  rcases hloop with ⟨heq, hresult⟩ | ⟨linked, idx, rest, hsplit, heq, hresult, hfull⟩
  · rw [noteAll_started hmem] at heq
    refine .inl ⟨hresult, ?_⟩
    simp [synxGlobalMerge, hp, hlist, hstart, heq]
  · have hmem' : pIdx ∉ linked ++ [idx] := by
      rw [hsplit] at hmem
      simp only [mem_append, mem_cons, not_or] at hmem ⊢
      exact ⟨hmem.1, hmem.2.1, not_mem_nil⟩
    rw [noteAll_started hmem'] at heq
    refine .inr ⟨linked, idx, rest, hsplit, hresult, hfull, ?_⟩
    have hstop : linked.length ≠ idxList.length := by
      rw [hsplit, length_append, length_cons]
      omega
    simp [synxGlobalMerge, hp, hlist, hstart, heq, hstop]

theorem merged_of_ok (hvalid : ∀ idx ∈ idxList, synxIsValidIdx idx = true)
    (hp : synxIsValidIdx pIdx = true) (hlist : idxList ≠ []) (hmem : pIdx ∉ idxList)
    (hhandle : (gmem.table pIdx).handle ≠ 0) (href : (gmem.table pIdx).refcount ≠ 0)
    (hstatus : (gmem.table pIdx).status = synxStateActive)
    (hchild : (gmem.table pIdx).numChild = 0)
    (hok : (synxGlobalMerge gmem idxList pIdx).1 = 0) :
    Merged gmem (synxGlobalMerge gmem idxList pIdx).2 idxList pIdx ∧
      ∃ count, StatusNoted gmem.table ⟨0, synxStateActive⟩ count idxList ∧
        ((synxGlobalMerge gmem idxList pIdx).2.table pIdx).status = count.parentStatus := by
  obtain ⟨gmem', hcases⟩ := synxGlobalMerge_cases hvalid hp hlist hmem hhandle href hchild
  rcases hcases with ⟨hresult, heq⟩ | ⟨linked, idx, rest, -, -, -, heq⟩
  · have hcount := numChildSignaled_noteAll gmem.table ⟨0, synxStateActive⟩ idxList
    rw [Nat.zero_add] at hcount
    rw [heq]
    refine ⟨hresult.settled hlist hvalid hcount, _,
      statusNoted_noteAll gmem.table ⟨0, synxStateActive⟩ idxList, ?_⟩
    rw [SynxSharedMem.table_setEntry, update_self, mergeSettleLocked,
      hresult.entry_started]
    simp [started, hstatus]
  · rw [heq] at hok
    exact absurd hok (by decide : eNoMem ≠ 0)

end

end QcomModules.Synx
