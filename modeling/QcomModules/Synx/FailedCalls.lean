import QcomModules.Synx.Merge

/-! What calls that fail leave behind: a signal of an entry that cannot be signaled, and a merge
that stops at one of its children. -/

namespace QcomModules.Synx

open Library Function
open List hiding Vector

/-! ## Signals -/

section
variable {gmem : SynxSharedMem} {idx status : ℕ}

theorem notifyStep_signaled {entry : SynxGlobalCoredata} (hdone : entry.done = true)
    (gmem : SynxSharedMem) (p : ℕ) (h : gmem.table idx = entry) :
    (notifyStep status gmem p).1.table idx = entry := by
  rw [notifyStep]
  split
  · exact h
  · by_cases hp : p = idx
    · subst hp
      simp only [SynxGlobalCoredata.done, Bool.and_eq_true, decide_eq_true_eq] at hdone
      rw [h, updateStatusLocked_signaled hdone.1 hdone.2, SynxSharedMem.table_apply,
        update_self]
    · rwa [SynxSharedMem.table_apply, update_of_ne (Ne.symm hp)]

theorem updateStatusCore_leaf (hvalid : synxIsValidIdx idx = true)
    (hstatus : synxStateActive < status) (hchild : (gmem.table idx).numChild = 0)
    (hactive : (gmem.table idx).status = synxStateActive) (depth : ℕ) :
    ((synxGlobalUpdateStatusCore (depth + 1) gmem idx status false).2.table idx).status =
      status := by
  have hcore : (synxGlobalUpdateStatusCore (depth + 1) gmem idx status false).2 =
      (gmem.table idx).parentList.foldl (visit (notifyStep status) depth)
        (gmem.setEntry idx { gmem.table idx with status := status, waiters := 0 }) := by
    have hcond : (!synxIsValidIdx idx || decide (status ≤ synxStateActive)) = false := by
      simp [hvalid, hstatus]
    rw [synxGlobalUpdateStatusCore, hcond]
    simp only [Bool.false_eq_true, if_false, updateStatusLocked_leaf hchild hactive,
      updateStatusCore_eq_visit]
    rfl
  have hdone : SynxGlobalCoredata.done { gmem.table idx with status := status, waiters := 0 } =
      true := by
    simp [SynxGlobalCoredata.done, hchild, Nat.ne_of_gt hstatus]
  have hkept : ((gmem.table idx).parentList.foldl (visit (notifyStep status) depth)
      (gmem.setEntry idx { gmem.table idx with status := status, waiters := 0 })).table idx =
      { gmem.table idx with status := status, waiters := 0 } := by
    refine foldlRecOn _ _ (motive := fun s : SynxSharedMem => s.table idx =
      { gmem.table idx with status := status, waiters := 0 }) ?_ ?_
    · rw [SynxSharedMem.table_setEntry, update_self]
    · intro s hs p _
      exact visit_keeps (fun s p => notifyStep_signaled hdone s p) depth s p hs
  rw [hcore, hkept]

/-- A signal succeeds only if it signals the entry, and a signal that cannot do so fails and
changes nothing. -/
structure SignalReported (gmem : SynxSharedMem) (idx status : ℕ) (r : ℤ × SynxSharedMem) :
    Prop where
  changed : r.1 = 0 →
    (gmem.table idx).status = synxStateActive ∧ (r.2.table idx).status = status
  refused : synxIsValidIdx idx = false ∨ (gmem.table idx).numChild ≠ 0 ∨
    (gmem.table idx).status ≠ synxStateActive → r.1 < 0 ∧ r.2 = gmem

theorem signalReported_refused {rc : ℤ} (hrc : rc < 0) :
    SignalReported gmem idx status (rc, gmem) :=
  ⟨fun hok => absurd hok (ne_of_lt hrc), fun _ => ⟨hrc, rfl⟩⟩

theorem updateStatus_of_valid (hvalid : synxIsValidIdx idx = true)
    (hstatus : synxStateActive < status) (depth : ℕ) :
    synxGlobalUpdateStatus depth gmem idx status =
      if (gmem.table idx).numChild ≠ 0 then (0, gmem)
      else if (gmem.table idx).status ≠ synxStateActive then (eAlready, gmem)
      else synxGlobalUpdateStatusCore depth gmem idx status false := by
  have hcond : (!synxIsValidIdx idx || decide (status ≤ synxStateActive)) = false := by
    simp [hvalid, hstatus]
  rw [synxGlobalUpdateStatus, hcond, if_neg Bool.false_ne_true]

theorem updateStatus_of_invalid (h : ¬ (synxIsValidIdx idx = true ∧ synxStateActive < status))
    (depth : ℕ) : synxGlobalUpdateStatus depth gmem idx status = (eInval, gmem) := by
  have hcond : (!synxIsValidIdx idx || decide (status ≤ synxStateActive)) = true := by
    by_cases hvalid : synxIsValidIdx idx = true
    · have hle : ¬ synxStateActive < status := fun hstatus => h ⟨hvalid, hstatus⟩
      simp [Nat.not_lt.mp hle]
    · simp [hvalid]
  rw [synxGlobalUpdateStatus, hcond, if_pos rfl]

/-- All signals but those of composites with pending children, with a valid status. -/
theorem signalReported_iff (depth : ℕ) (gmem : SynxSharedMem) (idx status : ℕ) :
    SignalReported gmem idx status (synxGlobalUpdateStatus depth gmem idx status) ↔
      ¬ (synxIsValidIdx idx = true ∧ synxStateActive < status ∧
        (gmem.table idx).numChild ≠ 0) := by
  by_cases hargs : synxIsValidIdx idx = true ∧ synxStateActive < status
  · obtain ⟨hvalid, hstatus⟩ := hargs
    rw [updateStatus_of_valid hvalid hstatus]
    by_cases hchild : (gmem.table idx).numChild = 0
    · refine iff_of_true ?_ (fun h => h.2.2 hchild)
      rw [if_neg (not_not.mpr hchild)]
      by_cases hactive : (gmem.table idx).status = synxStateActive
      · rw [if_neg (not_not.mpr hactive)]
        cases depth with
        | zero => exact signalReported_refused (by decide)
        | succ depth =>
          refine ⟨fun _ => ⟨hactive, updateStatusCore_leaf hvalid hstatus hchild hactive depth⟩,
            ?_⟩
          simp [hvalid, hchild, hactive]
      · rw [if_pos hactive]
        exact signalReported_refused (by decide)
    · refine iff_of_false ?_ (not_not.mpr ⟨hvalid, hstatus, hchild⟩)
      rw [if_pos hchild]
      -- the lock has set the result to 0
      exact fun h => lt_irrefl 0 (h.refused (.inr (.inl hchild))).1
  · rw [updateStatus_of_invalid hargs]
    exact iff_of_true (signalReported_refused (by decide)) (fun h => hargs ⟨h.1, h.2.1⟩)

end

def pendingComposite : SynxSharedMem where
  bitmap := Function.update (fun _ => false) 5 true
  table := Function.update (fun _ => {}) 5
    { status := synxStateActive, handle := 5, refcount := 2, numChild := 1 }

theorem composite_signal_succeeds :
    ¬ SignalReported pendingComposite 5 synxStateSignaledSuccess
      (synxGlobalUpdateStatus synxGlobalMaxObjs pendingComposite 5 synxStateSignaledSuccess) := by
  intro h
  have hfails := (h.refused (.inr (.inl (by decide)))).1
  exact absurd hfails (by decide)

/-! ## Merges -/

/-- The memory once the composite waits for all the children of the list. -/
def mergeStarted (gmem : SynxSharedMem) (idxList : List ℕ) (pIdx : ℕ) : SynxSharedMem :=
  gmem.setEntry pIdx (mergeStartLocked (gmem.table pIdx) idxList.length)

/-- The position at which the loop of the merge ends. -/
def mergeStop (gmem : SynxSharedMem) (idxList : List ℕ) (pIdx : ℕ) : ℕ :=
  (mergeLoop pIdx idxList 0 ⟨0, synxStateActive⟩ (mergeStarted gmem idxList pIdx)).2.1

/-- After a merge that failed at position `j`, the composite waits for those of the children
before it that are not signaled, with a reference for them if there are any. -/
structure FailedMergeExact (gmem gmem' : SynxSharedMem) (idxList : List ℕ) (pIdx j : ℕ) :
    Prop where
  linked : ∀ k ∈ idxList.take j, pIdx ∈ (gmem'.table k).parentList
  done : ∀ k, k ≠ pIdx → (gmem'.table k).done = (gmem.table k).done
  numChild : (gmem'.table pIdx).numChild.toNat =
    (idxList.take j).countP (fun k => !((mergeStarted gmem idxList pIdx).table k).done)
  refcount : (gmem'.table pIdx).refcount = if (gmem'.table pIdx).numChild.toNat ≠ 0 then
    (gmem.table pIdx).refcount + 1 else (gmem.table pIdx).refcount

section
variable {gmem gmem' : SynxSharedMem} {idxList linked rest : List ℕ} {pIdx idx : ℕ}

/-- What the merge takes back is all it has counted of the other children, and once more the one
it stopped at if that is signaled. -/
theorem mergeFailLocked_numChild {count : MergeCount} {numList pending extra : ℕ}
    {entry : SynxGlobalCoredata} (hle : linked.length ≤ numList)
    (hentry : entry.numChild = UInt16.ofNat numList)
    (hcount : count.numChildSignaled + pending = linked.length + extra) :
    (mergeFailLocked entry count numList linked.length).numChild =
      UInt16.ofNat pending - UInt16.ofNat extra := by
  have hsum : UInt16.ofNat numList + UInt16.ofNat extra =
      UInt16.ofNat pending + UInt16.ofNat (count.numChildSignaled + (numList - linked.length)) := by
    rw [← UInt16.ofNat_add, ← UInt16.ofNat_add]
    congr 1
    omega
  rw [mergeFailLocked, hentry]
  simp only
  rw [UInt16.sub_eq_add_neg, UInt16.sub_eq_add_neg]
  grind

theorem LoopResult.entry_failed {count : MergeCount} {extra : ℕ}
    (h : LoopResult pIdx (gmem.setEntry pIdx (started (gmem.table pIdx) idxList.length)) gmem'
      linked) (hle : linked.length ≤ idxList.length)
    (hcount : count.numChildSignaled = linked.countP (fun k => ((gmem.setEntry pIdx
      (started (gmem.table pIdx) idxList.length)).table k).done) + extra)
    (entry : SynxGlobalCoredata)
    (hentry : entry = mergeFailLocked (gmem'.table pIdx) count idxList.length linked.length) :
    entry.numChild = UInt16.ofNat (linked.countP (fun k => !((gmem.setEntry pIdx
        (started (gmem.table pIdx) idxList.length)).table k).done)) - UInt16.ofNat extra ∧
      entry.refcount = (if entry.numChild = 0 then (gmem.table pIdx).refcount
        else (gmem.table pIdx).refcount + 1) ∧
      entry.parentList = (gmem'.table pIdx).parentList := by
  have hsplit := length_eq_done_add
    (gmem.setEntry pIdx (started (gmem.table pIdx) idxList.length)).table linked
  have hfields := h.entry_started
  have hnum : (gmem'.table pIdx).numChild = UInt16.ofNat idxList.length := by
    rw [hfields]
    rfl
  have href : (gmem'.table pIdx).refcount = (gmem.table pIdx).refcount + 1 := by
    rw [hfields]
    rfl
  subst hentry
  refine ⟨mergeFailLocked_numChild hle hnum (by omega), ?_, rfl⟩
  simp only [mergeFailLocked, href, UInt16.add_sub_cancel]

/-- The composite is left as it should be unless a child was noted once too often. -/
theorem LoopResult.exact_iff {count : MergeCount} {extra : ℕ}
    (h : LoopResult pIdx (mergeStarted gmem idxList pIdx) gmem' linked)
    (hstart : mergeStarted gmem idxList pIdx =
      gmem.setEntry pIdx (started (gmem.table pIdx) idxList.length))
    (hvalid : ∀ k ∈ linked, synxIsValidIdx k = true) (hfront : linked <+: idxList)
    (hextra : extra ≤ 1)
    (hcount : count.numChildSignaled = linked.countP (fun k =>
      ((mergeStarted gmem idxList pIdx).table k).done) + extra) :
    FailedMergeExact gmem (gmem'.setEntry pIdx
        (mergeFailLocked (gmem'.table pIdx) count idxList.length linked.length)) idxList pIdx
        linked.length ↔ extra = 0 := by
  have htake : idxList.take linked.length = linked := (prefix_iff_eq_take.mp hfront).symm
  rw [hstart] at h hcount
  obtain ⟨hnum, href, hlist⟩ := h.entry_failed hfront.length_le hcount _ rfl
  have hlt : linked.countP (fun k => !((gmem.setEntry pIdx
      (started (gmem.table pIdx) idxList.length)).table k).done) < 2 ^ 16 :=
    Nat.lt_of_le_of_lt countP_le_length (h.length_lt hvalid)
  generalize mergeFailLocked (gmem'.table pIdx) count idxList.length linked.length = entry at *
  constructor
  · intro hexact
    have hchild := hexact.numChild
    rw [htake, hstart, SynxSharedMem.table_setEntry, update_self, hnum] at hchild
    by_contra hne
    have hone : extra = 1 := by omega
    have hsame := UInt16.toNat_inj.mp (hchild.trans (UInt16.toNat_ofNat_of_lt' hlt).symm)
    rw [hone, UInt16.sub_eq_iff_eq_add, UInt16.left_eq_add] at hsame
    exact absurd hsame (by decide)
  · rintro rfl
    have hself : (gmem'.setEntry pIdx entry).table pIdx = entry := by
      rw [SynxSharedMem.table_setEntry, update_self]
    have hnum' : entry.numChild = UInt16.ofNat (linked.countP (fun k => !((gmem.setEntry pIdx
        (started (gmem.table pIdx) idxList.length)).table k).done)) := by
      rw [hnum]
      exact UInt16.sub_zero _
    refine ⟨?_, ?_, ?_, ?_⟩
    · intro k hk
      rw [htake] at hk
      have hmem : pIdx ∈ (gmem'.table k).parentList := by
        rw [(h.parents k).mem_iff]
        exact mem_append_left _ (mem_replicate.mpr
          ⟨Nat.ne_of_gt (count_pos_iff.mpr hk), rfl⟩)
      by_cases hpk : k = pIdx
      · rw [hpk] at hmem ⊢
        rwa [hself, hlist]
      · rwa [SynxSharedMem.table_setEntry, update_of_ne hpk]
    · intro k hk
      have hfields := h.fields k
      rw [table_started_of_ne hk] at hfields
      rw [SynxSharedMem.table_setEntry, update_of_ne hk, hfields]
      rfl
    · rw [htake, hstart, hself, hnum', UInt16.toNat_ofNat_of_lt' hlt]
    · rw [hself, href]
      simp only [ne_eq, ← UInt16.toNat_inj (a := entry.numChild), UInt16.toNat_zero, ite_not]

/-- A merge fails as it should if the child it stops at has an invalid index or is not signaled.
A signaled child without a free slot is taken back twice. -/
theorem failedMergeExact_iff (hp : synxIsValidIdx pIdx = true)
    (hhandle : (gmem.table pIdx).handle ≠ 0) (href : (gmem.table pIdx).refcount ≠ 0)
    (hchild : (gmem.table pIdx).numChild = 0) (j : ℕ) (hstop : mergeStop gmem idxList pIdx = j)
    (hfail : j < idxList.length) :
    FailedMergeExact gmem (synxGlobalMerge gmem idxList pIdx).2 idxList pIdx j ↔
      synxIsValidIdx idxList[j] = false ∨
        ((mergeStarted gmem idxList pIdx).table idxList[j]).done = false := by
  have hne : pIdx ≠ 0 := by
    rintro rfl
    simp [synxIsValidIdx] at hp
  have hstart : mergeStarted gmem idxList pIdx =
      gmem.setEntry pIdx (started (gmem.table pIdx) idxList.length) := by
    rw [mergeStarted, mergeStartLocked_new hhandle href hchild]
  obtain ⟨gmem', linked, hresult, hvalid, hends⟩ := mergeLoop_stops hne idxList 0
    ⟨0, synxStateActive⟩ (mergeStarted gmem idxList pIdx)
  have hnotes := numChildSignaled_noteAll (mergeStarted gmem idxList pIdx).table
    ⟨0, synxStateActive⟩
  simp only [Nat.zero_add] at hends hnotes
  rcases hends with ⟨hall, heq⟩ | ⟨idx, rest, hsplit, hends⟩
  · rw [mergeStop, heq] at hstop
    subst hall hstop
    exact absurd hfail (lt_irrefl _)
  · have hfront : linked <+: idxList := ⟨idx :: rest, hsplit.symm⟩
    have hmerge : ∀ rc count, mergeLoop pIdx idxList 0 ⟨0, synxStateActive⟩
        (mergeStarted gmem idxList pIdx) = (rc, linked.length, count, gmem') →
        j = linked.length ∧ (synxGlobalMerge gmem idxList pIdx).2 = gmem'.setEntry pIdx
          (mergeFailLocked (gmem'.table pIdx) count idxList.length linked.length) := by
      intro rc count heq
      rw [mergeStop, heq] at hstop
      subst hstop
      have hlist : idxList ≠ [] := ne_nil_of_length_pos (Nat.zero_lt_of_lt hfail)
      rw [mergeStarted] at heq
      refine ⟨rfl, ?_⟩
      simp [synxGlobalMerge, hp, hlist, heq, Nat.ne_of_lt hfail]
    rcases hends with ⟨hinvalid, heq⟩ | ⟨hidx, -, heq⟩
    · obtain ⟨rfl, hfinal⟩ := hmerge _ _ heq
      rw [hfinal, hresult.exact_iff hstart hvalid hfront (Nat.zero_le 1) (hnotes linked)]
      simp [hsplit, hinvalid]
    · obtain ⟨rfl, hfinal⟩ := hmerge _ _ heq
      have hcount := hnotes (linked ++ [idx])
      rw [countP_append, countP_singleton] at hcount
      rw [hfinal, hresult.exact_iff hstart hvalid hfront (by split <;> simp) hcount]
      simp [hsplit, hidx]

end

def fullChild : SynxSharedMem where
  bitmap _ := false
  table := Function.update (Function.update (fun _ => {}) 7
    { status := synxStateActive, handle := 7, refcount := 1 }) 5
    { status := synxStateSignaledSuccess, handle := 5, refcount := 1,
      parents := Vector.replicate 4 9 }

theorem failedMergeExact_invalid :
    mergeStop fullChild [0, 5] 7 = 0 ∧
      FailedMergeExact fullChild (synxGlobalMerge fullChild [0, 5] 7).2 [0, 5] 7 0 :=
  ⟨by decide, (failedMergeExact_iff (by decide) (by decide) (by decide) (by decide) 0 (by decide)
    (by decide)).mpr (.inl (by decide))⟩

/-- The count of the children wraps around. -/
theorem full_child_wraps : mergeStop fullChild [5] 7 = 0 ∧
    ((synxGlobalMerge fullChild [5] 7).2.table 7).numChild = 0xFFFF ∧
    ¬ FailedMergeExact fullChild (synxGlobalMerge fullChild [5] 7).2 [5] 7 0 := by
  refine ⟨by decide, by decide, ?_⟩
  intro h
  have hchild := h.numChild
  exact absurd hchild (by decide)

end QcomModules.Synx
