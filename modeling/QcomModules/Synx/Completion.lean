import QcomModules.Library.Runs
import QcomModules.Synx.Merge

/-! Composites of composites: any number of merges and any order of signals of the leaves. A
composite is complete when all the leaves below it are signaled; whether it then reports their
errors depends on the status that its last child passes on. -/

namespace QcomModules.Synx

open Library List Function

/-! ## The graph of the composites -/

/-- What the merges have built: the children of each composite, and the composites, last one
first. -/
structure CompositeGraph where
  kids : ℕ → List ℕ
  composites : List ℕ

/-- A composite ranks above all that were there when it was built, and all leaves have rank 0. -/
def rankIn : List ℕ → ℕ → ℕ
  | [], _ => 0
  | p :: composites, idx => if idx = p then composites.length + 1 else rankIn composites idx

namespace CompositeGraph

variable (graph : CompositeGraph)

def rank (idx : ℕ) : ℕ := rankIn graph.composites idx

/-- A merge without children builds nothing. -/
def add (pIdx : ℕ) (idxList : List ℕ) : CompositeGraph :=
  if idxList = [] then graph
  else ⟨Function.update graph.kids pIdx idxList, pIdx :: graph.composites⟩

/-- The leaves on which an entry depends. -/
inductive LeafBelow : ℕ → ℕ → Prop where
  | leaf {idx : ℕ} (h : graph.kids idx = []) : LeafBelow idx idx
  | child {pIdx idx leaf : ℕ} (hidx : idx ∈ graph.kids pIdx) (hleaf : LeafBelow idx leaf) :
      LeafBelow pIdx leaf

structure WellFormed : Prop where
  nodup : graph.composites.Nodup
  valid : ∀ p ∈ graph.composites, synxIsValidIdx p = true
  composite : ∀ p, p ∈ graph.composites ↔ graph.kids p ≠ []
  rank_lt : ∀ p, ∀ k ∈ graph.kids p, graph.rank k < graph.rank p

variable {graph}

theorem LeafBelow.isLeaf {idx leaf : ℕ} (h : graph.LeafBelow idx leaf) :
    graph.kids leaf = [] := by
  induction h with
  | leaf h => exact h
  | child _ _ ih => exact ih

theorem rankIn_le (composites : List ℕ) (idx : ℕ) :
    rankIn composites idx ≤ composites.length := by
  induction composites with
  | nil => exact le_refl 0
  | cons p composites ih =>
    rw [rankIn, length_cons]
    split
    · exact le_refl _
    · exact Nat.le_succ_of_le ih

theorem WellFormed.rank_lt_max (h : graph.WellFormed) (idx : ℕ) :
    graph.rank idx < synxGlobalMaxObjs := by
  have hsub : graph.composites.Subperm ((range synxGlobalMaxObjs).erase 0) := by
    refine subperm_of_subset h.nodup fun p hp => ?_
    have hvalid := h.valid p hp
    simp only [synxIsValidIdx, Bool.and_eq_true, decide_eq_true_eq] at hvalid
    rw [Nodup.mem_erase_iff nodup_range]
    exact ⟨hvalid.1, mem_range.mpr hvalid.2⟩
  have hle := hsub.length_le
  rw [length_erase_of_mem (by simp [synxGlobalMaxObjs]), length_range] at hle
  have hrank := rankIn_le graph.composites idx
  have hpos : 0 < synxGlobalMaxObjs := by decide
  rw [rank]
  omega

theorem WellFormed.notMem_kids (h : graph.WellFormed) (p : ℕ) : p ∉ graph.kids p := by
  intro hp
  exact Nat.lt_irrefl _ (h.rank_lt p p hp)

end CompositeGraph

/-! ## Calls -/

/-- The memory, and (ghost) the graph that the merges have built. -/
structure CompletionState where
  gmem : SynxSharedMem
  graph : CompositeGraph

inductive CompletionCall where
  | merge (idxList : List ℕ) (pIdx : ℕ)
  | signal (idx status : ℕ)
deriving DecidableEq, Repr

/-- One call, with `depth` levels of parents to notify. -/
def CompletionState.call (depth : ℕ) (s : CompletionState) : CompletionCall → CompletionState
  | .merge idxList pIdx =>
    ⟨(synxGlobalMerge s.gmem idxList pIdx).2, s.graph.add pIdx idxList⟩
  | .signal idx status => ⟨(synxGlobalUpdateStatus depth s.gmem idx status).2, s.graph⟩

/-- No code that clients define for themselves, and no entry that is not in use. -/
def Plain (status : ℕ) : Prop := synxStateActive ≤ status ∧ status ≤ synxStateSignaledMax

instance (status : ℕ) : Decidable (Plain status) := inferInstanceAs (Decidable (_ ∧ _))

theorem Plain.success {status : ℕ} (h : Plain status) (hactive : status ≠ synxStateActive)
    (herr : isErrorStatus status = false) : status = synxStateSignaledSuccess := by
  obtain ⟨hlow, hhigh⟩ := h
  simp only [isErrorStatus, Bool.and_eq_false_iff, decide_eq_false_iff_not] at herr
  simp only [synxStateActive, synxStateSignaledSuccess] at *
  omega

/-- A merge builds a new composite from entries of the table and succeeds; no leaf among them is
signaled with a client's own code. -/
structure MergeOk (s : CompletionState) (idxList : List ℕ) (pIdx : ℕ) : Prop where
  valid : ∀ idx ∈ idxList, synxIsValidIdx idx = true
  validParent : synxIsValidIdx pIdx = true
  notMem : pIdx ∉ idxList
  kids : s.graph.kids pIdx = []
  handle : (s.gmem.table pIdx).handle ≠ 0
  refcount : (s.gmem.table pIdx).refcount ≠ 0
  status : (s.gmem.table pIdx).status = synxStateActive
  parents : (s.gmem.table pIdx).parentList = []
  plain : ∀ idx ∈ idxList, s.graph.kids idx = [] → Plain (s.gmem.table idx).status
  ok : (synxGlobalMerge s.gmem idxList pIdx).1 = 0

/-- A signal of an active leaf has no code of a client's own. One that is no error does not complete
a composite with an error below it, unless its parents have an error already. -/
structure SignalOk (s : CompletionState) (idx status : ℕ) : Prop where
  plain : (s.gmem.table idx).status = synxStateActive → ∀ p, idx ∈ s.graph.kids p →
    status ≤ synxStateSignaledMax
  passed : (s.gmem.table idx).status = synxStateActive → isErrorStatus status = false →
    ∀ p, ∀ q ∈ s.graph.kids p, s.graph.LeafBelow q idx →
    (∀ leaf, s.graph.LeafBelow q leaf → leaf ≠ idx →
      (s.gmem.table leaf).status ≠ synxStateActive) →
    (∃ leaf, s.graph.LeafBelow q leaf ∧ isErrorStatus (s.gmem.table leaf).status = true) →
    isErrorStatus (s.gmem.table p).status = true

def CompletionOk (s : CompletionState) : CompletionCall → Prop
  | .merge idxList pIdx => MergeOk s idxList pIdx
  | .signal idx status => SignalOk s idx status

structure CompletionState.Initial (s : CompletionState) : Prop where
  numChild : ∀ idx, (s.gmem.table idx).numChild = 0
  parents : ∀ idx, (s.gmem.table idx).parentList = []
  graph : s.graph = ⟨fun _ => [], []⟩

/-- A composite is complete when all its leaves are signaled. It is then signaled with the status
of one of them: with an error if there is one, and with success otherwise. -/
structure CompletesRight (s : CompletionState) (pIdx : ℕ) : Prop where
  complete : (s.gmem.table pIdx).numChild = 0 ↔
    ∀ leaf, s.graph.LeafBelow pIdx leaf → (s.gmem.table leaf).status ≠ synxStateActive
  error : (s.gmem.table pIdx).numChild = 0 →
    (isErrorStatus (s.gmem.table pIdx).status = true ↔
      ∃ leaf, s.graph.LeafBelow pIdx leaf ∧ isErrorStatus (s.gmem.table leaf).status = true)
  source : (s.gmem.table pIdx).numChild = 0 →
    ∃ leaf, s.graph.LeafBelow pIdx leaf ∧
      (s.gmem.table pIdx).status = (s.gmem.table leaf).status
  success : (s.gmem.table pIdx).numChild = 0 →
    (∀ leaf, s.graph.LeafBelow pIdx leaf → isErrorStatus (s.gmem.table leaf).status = false) →
    (s.gmem.table pIdx).status = synxStateSignaledSuccess

/-! ## Between two sections -/

/-- The invariant while the composites of `todo` are still to be notified of `status`. -/
structure Consistent (graph : CompositeGraph) (status : ℕ) (gmem : SynxSharedMem)
    (todo : List ℕ) : Prop where
  wellFormed : graph.WellFormed
  parents : ∀ k p, (gmem.table k).parentList.count p = (graph.kids p).count k
  leaf : ∀ idx, graph.kids idx = [] → (gmem.table idx).numChild = 0
  notMem : ∀ idx, graph.kids idx = [] → idx ∉ todo
  numChild : ∀ p, graph.kids p ≠ [] → (gmem.table p).numChild.toNat =
    (graph.kids p).countP (fun k => !(gmem.table k).done) + todo.count p
  refcount : ∀ p, graph.kids p ≠ [] →
    (gmem.table p).refcount ≠ if (gmem.table p).numChild = 0 then 0 else 1
  active : ∀ p, ∀ k ∈ graph.kids p, (gmem.table k).done = true →
    (gmem.table p).status ≠ synxStateActive ∨ p ∈ todo
  error : ∀ p, ∀ k ∈ graph.kids p, (gmem.table k).done = true →
    isErrorStatus (gmem.table k).status = true →
    isErrorStatus (gmem.table p).status = true ∨ p ∈ todo ∧ isErrorStatus status = true
  source : ∀ p, graph.kids p ≠ [] → (gmem.table p).status = synxStateActive ∨
    ∃ leaf, graph.LeafBelow p leaf ∧ (gmem.table p).status = (gmem.table leaf).status
  plain : ∀ p, ∀ k ∈ graph.kids p, graph.kids k = [] → Plain (gmem.table k).status

section
variable {graph : CompositeGraph} {status : ℕ} {gmem : SynxSharedMem} {todo : List ℕ}

theorem done_iff {entry : SynxGlobalCoredata} :
    entry.done = true ↔ entry.numChild = 0 ∧ entry.status ≠ synxStateActive := by
  simp [SynxGlobalCoredata.done]

theorem Consistent.kids_done (h : Consistent graph status gmem todo) {p k : ℕ}
    (hchild : (gmem.table p).numChild = 0) (hk : k ∈ graph.kids p) :
    (gmem.table k).done = true := by
  have hnum := h.numChild p (ne_nil_of_mem hk)
  rw [hchild, UInt16.toNat_zero] at hnum
  have hnone : (graph.kids p).countP (fun k => !(gmem.table k).done) = 0 := by omega
  rw [countP_eq_zero] at hnone
  simpa using hnone k hk

theorem Consistent.mem_parentList (h : Consistent graph status gmem todo) {k q : ℕ} :
    q ∈ (gmem.table k).parentList ↔ k ∈ graph.kids q := by
  rw [← count_pos_iff, h.parents k q, count_pos_iff]

theorem Consistent.leaves_signaled (h : Consistent graph status gmem todo) {idx leaf : ℕ}
    (hleaf : graph.LeafBelow idx leaf) (hdone : (gmem.table idx).done = true) :
    (gmem.table leaf).status ≠ synxStateActive := by
  induction hleaf with
  | leaf _ => exact (done_iff.mp hdone).2
  | child hk _ ih => exact ih (h.kids_done (done_iff.mp hdone).1 hk)

theorem Consistent.error_of_leaf (h : Consistent graph status gmem []) {idx leaf : ℕ}
    (hleaf : graph.LeafBelow idx leaf) (hdone : (gmem.table idx).done = true)
    (herr : isErrorStatus (gmem.table leaf).status = true) :
    isErrorStatus (gmem.table idx).status = true := by
  induction hleaf with
  | leaf _ => exact herr
  | @child p k leaf hk _ ih =>
    have hkdone := h.kids_done (done_iff.mp hdone).1 hk
    simpa using h.error p k hk hkdone (ih hkdone herr)

theorem Consistent.done_of_leaves (h : Consistent graph status gmem []) (idx : ℕ)
    (hleaves : ∀ leaf, graph.LeafBelow idx leaf → (gmem.table leaf).status ≠ synxStateActive) :
    (gmem.table idx).done = true := by
  induction hrank : graph.rank idx using Nat.strong_induction_on generalizing idx with
  | _ n ih =>
    by_cases hkids : graph.kids idx = []
    · exact done_iff.mpr ⟨h.leaf idx hkids, hleaves idx (.leaf hkids)⟩
    · have hdone : ∀ k ∈ graph.kids idx, (gmem.table k).done = true := by
        intro k hk
        refine ih (graph.rank k) (hrank ▸ h.wellFormed.rank_lt idx k hk) k ?_ rfl
        exact fun leaf hleaf => hleaves leaf (.child hk hleaf)
      have hnone : (graph.kids idx).countP (fun k => !(gmem.table k).done) = 0 := by
        rw [countP_eq_zero]
        intro k hk
        simp [hdone k hk]
      have hnum := h.numChild idx hkids
      rw [hnone, count_nil] at hnum
      obtain ⟨k, hk⟩ := exists_mem_of_ne_nil _ hkids
      refine done_iff.mpr ⟨UInt16.toNat_inj.mp hnum, ?_⟩
      simpa using h.active idx k hk (hdone k hk)

theorem Consistent.plain_leaf (h : Consistent graph status gmem todo) {p leaf : ℕ}
    (hkids : graph.kids p ≠ []) (hleaf : graph.LeafBelow p leaf) :
    Plain (gmem.table leaf).status := by
  induction hleaf with
  | leaf hnil => exact absurd hnil hkids
  | @child p k leaf hk hbelow ih =>
    by_cases hknil : graph.kids k = []
    · cases hbelow with
      | leaf _ => exact h.plain p k hk hknil
      | child hx _ => exact absurd (hknil ▸ hx) not_mem_nil
    · exact ih hknil

theorem Consistent.completesRight (h : Consistent graph status gmem []) {p : ℕ}
    (hkids : graph.kids p ≠ []) : CompletesRight ⟨gmem, graph⟩ p := by
  obtain ⟨k, hk⟩ := exists_mem_of_ne_nil _ hkids
  have hdone : (gmem.table p).numChild = 0 → (gmem.table p).done = true := by
    intro hchild
    refine done_iff.mpr ⟨hchild, ?_⟩
    simpa using h.active p k hk (h.kids_done hchild hk)
  have hsource : (gmem.table p).numChild = 0 → ∃ leaf, graph.LeafBelow p leaf ∧
      (gmem.table p).status = (gmem.table leaf).status := by
    intro hchild
    rcases h.source p hkids with hactive | hleaf
    · exact absurd hactive (done_iff.mp (hdone hchild)).2
    · exact hleaf
  refine ⟨⟨?_, ?_⟩, ?_, hsource, ?_⟩
  · exact fun hchild leaf hleaf => h.leaves_signaled hleaf (hdone hchild)
  · exact fun hleaves => (done_iff.mp (h.done_of_leaves p hleaves)).1
  · intro hchild
    constructor
    · intro herr
      obtain ⟨leaf, hleaf, hstatus⟩ := hsource hchild
      exact ⟨leaf, hleaf, by rw [← hstatus]; exact herr⟩
    · rintro ⟨leaf, hleaf, herr⟩
      exact h.error_of_leaf hleaf (hdone hchild) herr
  · intro hchild hnone
    obtain ⟨leaf, hleaf, hstatus⟩ := hsource hchild
    rw [hstatus]
    exact (h.plain_leaf hkids hleaf).success (h.leaves_signaled hleaf (hdone hchild))
      (hnone leaf hleaf)

end

/-! ## Notifying a composite -/

/-- What the section of a notification does to a composite on which others hold a reference. -/
structure Notified (status p : ℕ) (gmem gmem' : SynxSharedMem) (hParents : List ℕ) : Prop where
  other : ∀ k, k ≠ p → gmem'.table k = gmem.table k
  numChild : (gmem'.table p).numChild.toNat + 1 = (gmem.table p).numChild.toNat
  status : (gmem'.table p).status = if (gmem.table p).status = synxStateActive ||
    isErrorStatus status then status else (gmem.table p).status
  parentList : (gmem'.table p).parentList = (gmem.table p).parentList
  refcount : (gmem'.table p).refcount ≠ if (gmem'.table p).numChild = 0 then 0 else 1
  hParents : hParents = if (gmem'.table p).numChild = 0 then (gmem.table p).parentList else []

theorem hParents_updateStatusLocked {entry : SynxGlobalCoredata} {status : ℕ}
    (hchild : entry.numChild ≠ 0) : (updateStatusLocked entry status true).hParents =
      if entry.numChild - 1 = 0 then entry.parentList else [] := by
  have hlist : ∀ (status : ℕ) (numChild : UInt16), SynxGlobalCoredata.parentList
      { entry with status := status, numChild := numChild } = entry.parentList :=
    fun _ _ => rfl
  by_cases hlast : entry.numChild - 1 = 0
  · by_cases href : entry.refcount - 1 = 0
    · simp [updateStatusLocked, hchild, hlast, href, hlist]
    · simp [updateStatusLocked, hchild, hlast, href, hlist]
  · simp [updateStatusLocked, hchild, hlast]

theorem notified_notifyStep {status p : ℕ} {gmem : SynxSharedMem}
    (hvalid : synxIsValidIdx p = true) (hstatus : synxStateActive < status)
    (hchild : (gmem.table p).numChild ≠ 0) (href : (gmem.table p).refcount ≠ 1) :
    Notified status p gmem (notifyStep status gmem p).1 (notifyStep status gmem p).2 := by
  have hstep : notifyStep status gmem p =
      (gmem.apply p (updateStatusLocked (gmem.table p) status true),
        (updateStatusLocked (gmem.table p) status true).hParents) := by
    simp [notifyStep, hvalid, Nat.not_le.mpr hstatus]
  have hentry : (notifyStep status gmem p).1.table p =
      (updateStatusLocked (gmem.table p) status true).entry := by
    rw [hstep, SynxSharedMem.table_apply, update_self]
  rw [updateStatusLocked_composite hchild href] at hentry
  have hpos : (1 : UInt16) ≤ (gmem.table p).numChild := by
    rw [UInt16.le_iff_toNat_le, UInt16.toNat_one]
    exact Nat.one_le_iff_ne_zero.mpr fun h => hchild (UInt16.toNat_inj.mp h)
  refine ⟨?_, ?_, ?_, ?_, ?_, ?_⟩
  · intro k hk
    rw [hstep, SynxSharedMem.table_apply, update_of_ne hk]
  · rw [hentry, UInt16.toNat_sub_of_le _ _ hpos]
    rw [UInt16.le_iff_toNat_le, UInt16.toNat_one] at hpos
    rw [UInt16.toNat_one]
    omega
  · rw [hentry]
  · rw [hentry]
    rfl
  · rw [hentry]
    simp only
    split
    · intro h
      have hadd := UInt16.sub_add_cancel (gmem.table p).refcount 1
      rw [h] at hadd
      exact href hadd.symm
    · exact href
  · rw [hentry, hstep]
    exact hParents_updateStatusLocked hchild

theorem countP_of_eq_off {f g : ℕ → Bool} {p : ℕ} (hp : f p = true)
    (hoff : ∀ k, k ≠ p → g k = f k) (l : List ℕ) :
    l.countP f = l.countP g + if g p then 0 else l.count p := by
  induction l with
  | nil => simp
  | cons k l ih =>
    rw [countP_cons, countP_cons, count_cons, ih]
    by_cases hk : k = p
    · subst hk
      by_cases hg : g k = true
      · simp [hp, hg]
      · simp [hp, hg]
        omega
    · rw [hoff k hk]
      have hne : (k == p) = false := by simpa using hk
      simp [hne]
      omega

/-- The invariant while the signal of a leaf makes its way up. -/
structure Signaling (graph : CompositeGraph) (idx status : ℕ) (gmem : SynxSharedMem)
    (todo : List ℕ) : Prop extends Consistent graph status gmem todo where
  signal : synxStateActive < status
  status_eq : (gmem.table idx).status = status
  sent : ∀ p ∈ todo, graph.LeafBelow p idx
  forwards : ∀ p, ∀ q ∈ graph.kids p, graph.LeafBelow q idx →
    (∀ leaf, graph.LeafBelow q leaf → (gmem.table leaf).status ≠ synxStateActive) →
    (∃ leaf, graph.LeafBelow q leaf ∧ isErrorStatus (gmem.table leaf).status = true) →
    isErrorStatus status = true ∨ isErrorStatus (gmem.table p).status = true

section
variable {graph : CompositeGraph} {idx status : ℕ} {gmem gmem' : SynxSharedMem}
  {todo hParents : List ℕ} {p : ℕ}

theorem Notified.error_mono (h : Notified status p gmem gmem' hParents) {k : ℕ}
    (herr : isErrorStatus (gmem.table k).status = true) :
    isErrorStatus (gmem'.table k).status = true := by
  by_cases hk : k = p
  · subst hk
    rw [h.status]
    by_cases hst : isErrorStatus status = true
    · simp [hst]
    · have hne : (gmem.table k).status ≠ synxStateActive := by
        intro hactive
        simp [hactive] at herr
      simpa [hst, hne] using herr
  · rwa [h.other k hk]

theorem Notified.status_ne_active (h : Notified status p gmem gmem' hParents)
    (hstatus : synxStateActive < status) : (gmem'.table p).status ≠ synxStateActive := by
  rw [h.status]
  split
  · exact Nat.ne_of_gt hstatus
  · next hkeep => exact fun hactive => hkeep (by simp [hactive])

theorem Notified.done_eq (h : Notified status p gmem gmem' hParents)
    (hstatus : synxStateActive < status) :
    (gmem'.table p).done = decide ((gmem'.table p).numChild = 0) := by
  simp [SynxGlobalCoredata.done, h.status_ne_active hstatus]

theorem Notified.not_done (h : Notified status p gmem gmem' hParents) :
    (gmem.table p).done = false := by
  have hchild : (gmem.table p).numChild ≠ 0 := by
    intro hzero
    have hnum := h.numChild
    rw [hzero, UInt16.toNat_zero] at hnum
    omega
  simp [SynxGlobalCoredata.done, hchild]

theorem Notified.mem_hParents (h : Notified status p gmem gmem' hParents)
    (hcons : Consistent graph status gmem todo) {q : ℕ} :
    q ∈ hParents ↔ (gmem'.table p).numChild = 0 ∧ p ∈ graph.kids q := by
  rw [h.hParents]
  split
  · next hlast =>
      rw [← count_pos_iff, hcons.parents p q, count_pos_iff]
      simp [hlast]
  · next hlast => simp [hlast]

theorem Signaling.error_forwarded (h : Signaling graph idx status gmem (p :: todo))
    (hn : Notified status p gmem gmem' hParents)
    (hkids : ∀ k ∈ graph.kids p, (gmem.table k).done = true) {q : ℕ} (hq : p ∈ graph.kids q)
    (herr : isErrorStatus (gmem'.table p).status = true) :
    isErrorStatus status = true ∨ isErrorStatus (gmem.table q).status = true := by
  by_cases hst : isErrorStatus status = true
  · exact .inl hst
  · have hown : isErrorStatus (gmem.table p).status = true := by
      rw [hn.status] at herr
      split at herr
      · exact absurd herr hst
      · exact herr
    have hne : (gmem.table p).status ≠ synxStateActive := by
      intro hactive
      simp [hactive] at hown
    have hcomposite : graph.kids p ≠ [] := by
      intro hnil
      exact h.notMem p hnil mem_cons_self
    refine h.forwards q p hq (h.sent p mem_cons_self) ?_ ?_
    · intro leaf hleaf
      cases hleaf with
      | leaf hnil => exact absurd hnil hcomposite
      | child hk hbelow => exact h.leaves_signaled hbelow (hkids _ hk)
    · rcases h.source p hcomposite with hactive | ⟨leaf, hleaf, hsame⟩
      · exact absurd hactive hne
      · exact ⟨leaf, hleaf, by rw [← hsame]; exact hown⟩

theorem Signaling.composite (h : Signaling graph idx status gmem (p :: todo)) :
    graph.kids p ≠ [] :=
  fun hnil => h.notMem p hnil mem_cons_self

section
variable (h : Signaling graph idx status gmem (p :: todo))
  (hn : Notified status p gmem gmem' hParents)
include h hn

theorem Signaling.leaf_eq {leaf : ℕ} (hnil : graph.kids leaf = []) :
    gmem'.table leaf = gmem.table leaf :=
  hn.other leaf fun heq => h.composite (heq ▸ hnil)

theorem Signaling.countP_done (q : ℕ) :
    (graph.kids q).countP (fun k => !(gmem.table k).done) =
      (graph.kids q).countP (fun k => !(gmem'.table k).done) +
        if (gmem'.table p).numChild = 0 then (graph.kids q).count p else 0 := by
  have hoff := countP_of_eq_off (f := fun k => !(gmem.table k).done)
    (g := fun k => !(gmem'.table k).done) (p := p) (by simp [hn.not_done])
    (fun k hk => by rw [hn.other k hk]) (graph.kids q)
  rw [hoff, hn.done_eq h.signal]
  by_cases hlast : (gmem'.table p).numChild = 0
  · simp [hlast]
  · simp [hlast]

theorem Signaling.numChild_notified (q : ℕ) (hq : graph.kids q ≠ []) :
    (gmem'.table q).numChild.toNat =
      (graph.kids q).countP (fun k => !(gmem'.table k).done) + (hParents ++ todo).count q := by
  have hparents : hParents.count q =
      if (gmem'.table p).numChild = 0 then (graph.kids q).count p else 0 := by
    rw [hn.hParents]
    split
    · exact h.parents p q
    · rfl
  have hnum := h.numChild q hq
  rw [h.countP_done hn q] at hnum
  rw [count_append, hparents]
  by_cases hqp : q = p
  · subst hqp
    have hdec := hn.numChild
    rw [count_cons_self] at hnum
    omega
  · rw [count_cons_of_ne (Ne.symm hqp)] at hnum
    rw [hn.other q hqp, hnum]
    omega

theorem Signaling.kids_done (hlast : (gmem'.table p).numChild = 0) :
    ∀ k ∈ graph.kids p, (gmem.table k).done = true := by
  have hself := h.wellFormed.notMem_kids p
  have hnum := h.numChild_notified hn p h.composite
  rw [hlast, UInt16.toNat_zero] at hnum
  have hnone : (graph.kids p).countP (fun k => !(gmem'.table k).done) = 0 := by omega
  rw [countP_eq_zero] at hnone
  intro k hk
  have hdone := hnone k hk
  rw [hn.other k (by rintro rfl; exact hself hk)] at hdone
  simpa using hdone

theorem Signaling.active_notified (q k : ℕ) (hk : k ∈ graph.kids q)
    (hdone : (gmem'.table k).done = true) :
    (gmem'.table q).status ≠ synxStateActive ∨ q ∈ hParents ++ todo := by
  by_cases hqp : q = p
  · rw [hqp]
    exact .inl (hn.status_ne_active h.signal)
  rw [hn.other q hqp]
  by_cases hkp : k = p
  · subst hkp
    rw [hn.done_eq h.signal, decide_eq_true_eq] at hdone
    exact .inr (mem_append_left _ ((hn.mem_hParents h.toConsistent).mpr ⟨hdone, hk⟩))
  · rw [hn.other k hkp] at hdone
    rcases h.active q k hk hdone with hne | hmem
    · exact .inl hne
    · exact .inr (mem_append_right _ (mem_of_ne_of_mem hqp hmem))

theorem Signaling.error_notified (q k : ℕ) (hk : k ∈ graph.kids q)
    (hdone : (gmem'.table k).done = true) (herr : isErrorStatus (gmem'.table k).status = true) :
    isErrorStatus (gmem'.table q).status = true ∨
      q ∈ hParents ++ todo ∧ isErrorStatus status = true := by
  by_cases hkp : k = p
  · subst hkp
    rw [hn.done_eq h.signal, decide_eq_true_eq] at hdone
    rcases h.error_forwarded hn (h.kids_done hn hdone) hk herr with hst | hq
    · exact .inr ⟨mem_append_left _ ((hn.mem_hParents h.toConsistent).mpr ⟨hdone, hk⟩), hst⟩
    · exact .inl (hn.error_mono hq)
  rw [hn.other k hkp] at hdone herr
  rcases h.error q k hk hdone herr with hq | ⟨hmem, hst⟩
  · exact .inl (hn.error_mono hq)
  · by_cases hqp : q = p
    · refine .inl ?_
      rw [hqp, hn.status]
      simp [hst]
    · exact .inr ⟨mem_append_right _ (mem_of_ne_of_mem hqp hmem), hst⟩

theorem Signaling.source_notified (q : ℕ) (hq : graph.kids q ≠ []) :
    (gmem'.table q).status = synxStateActive ∨
      ∃ leaf, graph.LeafBelow q leaf ∧ (gmem'.table q).status = (gmem'.table leaf).status := by
  have hkept (hsame : (gmem'.table q).status = (gmem.table q).status) :
      (gmem'.table q).status = synxStateActive ∨
        ∃ leaf, graph.LeafBelow q leaf ∧ (gmem'.table q).status = (gmem'.table leaf).status := by
    rw [hsame]
    rcases h.source q hq with hactive | ⟨leaf, hleaf, hsource⟩
    · exact .inl hactive
    · exact .inr ⟨leaf, hleaf, by rw [h.leaf_eq hn hleaf.isLeaf, hsource]⟩
  by_cases hqp : q = p
  · subst hqp
    have hsent := h.sent q mem_cons_self
    have hstatus := hn.status
    split at hstatus
    · exact .inr ⟨idx, hsent, by rw [h.leaf_eq hn hsent.isLeaf, hstatus, h.status_eq]⟩
    · exact hkept hstatus
  · exact hkept (by rw [hn.other q hqp])

theorem Signaling.notified : Signaling graph idx status gmem' (hParents ++ todo) := by
  have hsent := h.sent p mem_cons_self
  refine
    { h with
      parents := ?_
      leaf := fun k hnil => by rw [h.leaf_eq hn hnil, h.leaf k hnil]
      notMem := ?_
      numChild := h.numChild_notified hn
      refcount := ?_
      active := h.active_notified hn
      error := h.error_notified hn
      source := h.source_notified hn
      plain := fun q k hk hnil => by rw [h.leaf_eq hn hnil]; exact h.plain q k hk hnil
      status_eq := by rw [h.leaf_eq hn hsent.isLeaf, h.status_eq]
      sent := ?_
      forwards := ?_ }
  · intro k q
    by_cases hk : k = p
    · rw [hk, hn.parentList, h.parents p q]
    · rw [hn.other k hk, h.parents k q]
  · intro k hnil hmem
    rcases mem_append.mp hmem with hnew | hold
    · rw [hn.mem_hParents h.toConsistent, hnil] at hnew
      simp at hnew
    · exact h.notMem k hnil (mem_cons_of_mem p hold)
  · intro q hq
    by_cases hqp : q = p
    · rw [hqp]
      exact hn.refcount
    · rw [hn.other q hqp]
      exact h.refcount q hq
  · intro q hmem
    rcases mem_append.mp hmem with hnew | hold
    · rw [hn.mem_hParents h.toConsistent] at hnew
      exact .child hnew.2 hsent
    · exact h.sent q (mem_cons_of_mem p hold)
  · intro q k hk hidx hsignaled herr
    have hsig : ∀ leaf, graph.LeafBelow k leaf → (gmem.table leaf).status ≠ synxStateActive := by
      intro leaf hleaf
      rw [← h.leaf_eq hn hleaf.isLeaf]
      exact hsignaled leaf hleaf
    obtain ⟨leaf, hleaf, hlerr⟩ := herr
    rw [h.leaf_eq hn hleaf.isLeaf] at hlerr
    rcases h.forwards q k hk hidx hsig ⟨leaf, hleaf, hlerr⟩ with hst | hq
    · exact .inl hst
    · exact .inr (hn.error_mono hq)

end

theorem Signaling.notifyStep (h : Signaling graph idx status gmem (p :: todo)) :
    Notified status p gmem (notifyStep status gmem p).1 (notifyStep status gmem p).2 := by
  have hchild : (gmem.table p).numChild ≠ 0 := by
    intro hzero
    have hnum := h.numChild p h.composite
    rw [hzero, UInt16.toNat_zero, count_cons_self] at hnum
    omega
  have href := h.refcount p h.composite
  rw [if_neg hchild] at href
  exact notified_notifyStep (h.wellFormed.valid p ((h.wellFormed.composite p).mpr h.composite))
    h.signal hchild href

theorem visitRule_signaling :
    VisitRule (notifyStep status) graph.rank synxGlobalMaxObjs (Signaling graph idx status) where
  keeps h := h.notified h.notifyStep
  rank_lt h q hq :=
    h.wellFormed.rank_lt q _ ((h.notifyStep.mem_hParents h.toConsistent).mp hq).2
  bounded {_ i _} h := h.wellFormed.rank_lt_max i

end

/-! ## Signals -/

section
variable {graph : CompositeGraph} {idx status : ℕ} {gmem gmem' : SynxSharedMem}

theorem Consistent.stable {status' : ℕ} (h : Consistent graph status gmem []) :
    Consistent graph status' gmem [] :=
  { h with
    error := by
      intro p k hk hdone herr
      simpa using h.error p k hk hdone herr }

theorem Consistent.isLeaf (h : Consistent graph status gmem [])
    (hchild : (gmem.table idx).numChild = 0)
    (hactive : (gmem.table idx).status = synxStateActive) : graph.kids idx = [] := by
  by_contra hkids
  obtain ⟨k, hk⟩ := exists_mem_of_ne_nil _ hkids
  have hstatus := h.active idx k hk (h.kids_done hchild hk)
  simp [hactive] at hstatus

/-- The entry of a leaf has taken its status. -/
structure LeafSignaled (idx status : ℕ) (gmem gmem' : SynxSharedMem) : Prop where
  self : gmem'.table idx = { gmem.table idx with status := status, waiters := 0 }
  other : ∀ k, k ≠ idx → gmem'.table k = gmem.table k

theorem LeafSignaled.composite (hl : LeafSignaled idx status gmem gmem')
    (hnil : graph.kids idx = []) {q : ℕ} (hq : graph.kids q ≠ []) :
    gmem'.table q = gmem.table q := by
  refine hl.other q ?_
  rintro rfl
  exact hq hnil

theorem Consistent.leafSignaled {old : ℕ} (h : Consistent graph old gmem [])
    (hl : LeafSignaled idx status gmem gmem') (hstatus : synxStateActive < status)
    (hchild : (gmem.table idx).numChild = 0) (hactive : (gmem.table idx).status = synxStateActive)
    (hplain : ∀ q, idx ∈ graph.kids q → status ≤ synxStateSignaledMax) :
    Consistent graph status gmem' (gmem.table idx).parentList := by
  have hnil := h.isLeaf hchild hactive
  have hdone : (gmem'.table idx).done = true := by
    rw [done_iff, hl.self]
    exact ⟨hchild, Nat.ne_of_gt hstatus⟩
  have hnotDone : (gmem.table idx).done = false := by
    simp [SynxGlobalCoredata.done, hactive]
  refine
    { wellFormed := h.wellFormed
      parents := ?_
      leaf := ?_
      notMem := ?_
      numChild := ?_
      refcount := ?_
      active := ?_
      error := ?_
      source := ?_
      plain := ?_ }
  · intro k q
    by_cases hk : k = idx
    · rw [hk, hl.self]
      exact h.parents idx q
    · rw [hl.other k hk, h.parents k q]
  · intro k hk
    by_cases hki : k = idx
    · rw [hki, hl.self]
      exact hchild
    · rw [hl.other k hki, h.leaf k hk]
  · intro q hq hmem
    rw [h.mem_parentList, hq] at hmem
    exact not_mem_nil hmem
  · intro q hq
    have hoff := countP_of_eq_off (f := fun k => !(gmem.table k).done)
      (g := fun k => !(gmem'.table k).done) (p := idx) (by simp [hnotDone])
      (fun k hk => by rw [hl.other k hk]) (graph.kids q)
    have hnum := h.numChild q hq
    rw [hl.composite hnil hq, hnum, hoff, h.parents idx q]
    simp [hdone]
  · intro q hq
    rw [hl.composite hnil hq]
    exact h.refcount q hq
  · intro q k hk hkdone
    rw [hl.composite hnil (ne_nil_of_mem hk)]
    by_cases hki : k = idx
    · exact .inr (h.mem_parentList.mpr (hki ▸ hk))
    · rw [hl.other k hki] at hkdone
      exact .inl (by simpa using h.active q k hk hkdone)
  · intro q k hk hkdone herr
    rw [hl.composite hnil (ne_nil_of_mem hk)]
    by_cases hki : k = idx
    · subst hki
      rw [hl.self] at herr
      exact .inr ⟨h.mem_parentList.mpr hk, herr⟩
    · rw [hl.other k hki] at hkdone herr
      exact .inl (by simpa using h.error q k hk hkdone herr)
  · intro q hq
    rw [hl.composite hnil hq]
    rcases h.source q hq with hqa | ⟨leaf, hleaf, hsame⟩
    · exact .inl hqa
    · by_cases hli : leaf = idx
      · rw [hli, hactive] at hsame
        exact .inl hsame
      · exact .inr ⟨leaf, hleaf, by rw [hl.other leaf hli, hsame]⟩
  · intro q k hk hknil
    by_cases hki : k = idx
    · subst hki
      rw [hl.self]
      exact ⟨Nat.le_of_lt hstatus, hplain q hk⟩
    · rw [hl.other k hki]
      exact h.plain q k hk hknil

theorem Consistent.signaled {s : CompletionState} {old : ℕ}
    (h : Consistent s.graph old s.gmem []) (hok : SignalOk s idx status)
    (hstatus : synxStateActive < status) (hchild : (s.gmem.table idx).numChild = 0)
    (hactive : (s.gmem.table idx).status = synxStateActive)
    (hl : LeafSignaled idx status s.gmem gmem') :
    Signaling s.graph idx status gmem' (s.gmem.table idx).parentList := by
  have hnil := h.isLeaf hchild hactive
  refine
    { h.leafSignaled hl hstatus hchild hactive (hok.plain hactive) with
      signal := hstatus
      status_eq := by rw [hl.self]
      sent := ?_
      forwards := ?_ }
  · intro q hq
    exact .child (h.mem_parentList.mp hq) (.leaf hnil)
  · intro p q hq hidx hsignaled herr
    by_cases hst : isErrorStatus status = true
    · exact .inl hst
    · rw [hl.composite hnil (ne_nil_of_mem hq)]
      refine .inr (hok.passed hactive (by simpa using hst) p q hq hidx ?_ ?_)
      · intro leaf hleaf hne
        rw [← hl.other leaf hne]
        exact hsignaled leaf hleaf
      · obtain ⟨leaf, hleaf, hlerr⟩ := herr
        have hne : leaf ≠ idx := by
          rintro rfl
          rw [hl.self] at hlerr
          exact hst hlerr
        exact ⟨leaf, hleaf, by rw [← hl.other leaf hne]; exact hlerr⟩

theorem Consistent.updateStatus {s : CompletionState} {old depth : ℕ}
    (h : Consistent s.graph old s.gmem []) (hok : SignalOk s idx status)
    (hdepth : synxGlobalMaxObjs ≤ depth) :
    Consistent s.graph old (synxGlobalUpdateStatus depth s.gmem idx status).2 [] := by
  rw [synxGlobalUpdateStatus]
  split_ifs with hinvalid hchild hactive
  · exact h
  · exact h
  · exact h
  · simp only [ne_eq, not_not] at hchild hactive
    have hstatus : synxStateActive < status := by
      simp only [Bool.or_eq_true, decide_eq_true_eq, not_or] at hinvalid
      exact Nat.not_le.mp hinvalid.2
    obtain ⟨depth, rfl⟩ := Nat.exists_eq_add_of_le' (Nat.le_trans (by decide : 1 ≤ _) hdepth)
    rw [synxGlobalUpdateStatusCore, if_neg hinvalid, updateStatusLocked_leaf hchild hactive]
    simp only [updateStatusCore_eq_visit]
    have htable := SynxSharedMem.table_apply s.gmem idx ⟨0, { s.gmem.table idx with
      status := status, waiters := 0 }, (s.gmem.table idx).parentList,
      (s.gmem.table idx).waiters, some ((s.gmem.table idx).handle, status), false⟩
    have hsig := h.signaled hok hstatus hchild hactive
      ⟨by rw [htable, update_self], fun k hk => by rw [htable, update_of_ne hk]⟩
    have hrule : VisitRule (notifyStep status) s.graph.rank synxGlobalMaxObjs
        (Signaling s.graph idx status) := visitRule_signaling
    refine (hrule.foldl depth _ _ [] ?_ (by rw [append_nil]; exact hsig)).toConsistent.stable
    -- a parent has a rank above that of the leaf
    intro p hp
    have hrank := h.wellFormed.rank_lt p idx (h.mem_parentList.mp hp)
    omega

end

/-! ## Merges -/

section
variable {graph : CompositeGraph} {p : ℕ} {idxList : List ℕ}

theorem rankIn_cons_of_ne {composites : List ℕ} {k : ℕ} (hk : k ≠ p) :
    rankIn (p :: composites) k = rankIn composites k := by
  rw [rankIn, if_neg hk]

theorem add_of_ne_nil (hlist : idxList ≠ []) : graph.add p idxList =
    ⟨Function.update graph.kids p idxList, p :: graph.composites⟩ := by
  rw [CompositeGraph.add, if_neg hlist]

theorem CompositeGraph.WellFormed.add (h : graph.WellFormed) (hp : synxIsValidIdx p = true)
    (hlist : idxList ≠ []) (hmem : p ∉ idxList) (hkids : graph.kids p = [])
    (hnew : ∀ q, p ∉ graph.kids q) : (graph.add p idxList).WellFormed := by
  rw [add_of_ne_nil hlist]
  have hnotMem : p ∉ graph.composites := fun hcomp => (h.composite p).mp hcomp hkids
  refine ⟨nodup_cons.mpr ⟨hnotMem, h.nodup⟩, ?_, ?_, ?_⟩
  · intro q hq
    rcases mem_cons.mp hq with rfl | hq
    · exact hp
    · exact h.valid q hq
  · intro q
    by_cases hq : q = p
    · simp [hq, hlist]
    · simp [hq, h.composite q]
  · intro q k hk
    simp only [CompositeGraph.rank] at hk ⊢
    by_cases hq : q = p
    · subst hq
      rw [update_self] at hk
      have hne : k ≠ q := by
        rintro rfl
        exact hmem hk
      rw [rankIn_cons_of_ne hne, rankIn, if_pos rfl]
      exact Nat.lt_succ_of_le (CompositeGraph.rankIn_le _ k)
    · rw [update_of_ne hq] at hk
      have hne : k ≠ p := by
        rintro rfl
        exact hnew q hk
      rw [rankIn_cons_of_ne hne, rankIn_cons_of_ne hq]
      exact h.rank_lt q k hk

theorem kids_add_self (hlist : idxList ≠ []) : (graph.add p idxList).kids p = idxList := by
  rw [add_of_ne_nil hlist]
  exact update_self _ _ _

theorem kids_add_of_ne (hlist : idxList ≠ []) {q : ℕ} (hq : q ≠ p) :
    (graph.add p idxList).kids q = graph.kids q := by
  rw [add_of_ne_nil hlist]
  exact update_of_ne hq _ _

theorem CompositeGraph.LeafBelow.ne_of_new (hnew : ∀ q, p ∉ graph.kids q) {q leaf : ℕ}
    (h : graph.LeafBelow q leaf) (hq : q ≠ p) : leaf ≠ p := by
  induction h with
  | leaf _ => exact hq
  | child hk _ ih => exact ih fun heq => hnew _ (heq ▸ hk)

theorem leafBelow_add_iff (hlist : idxList ≠ []) (hnew : ∀ q, p ∉ graph.kids q) {q leaf : ℕ}
    (hq : q ≠ p) : (graph.add p idxList).LeafBelow q leaf ↔ graph.LeafBelow q leaf := by
  have hkids : ∀ k, k ≠ p → (graph.add p idxList).kids k = graph.kids k :=
    fun k hk => kids_add_of_ne hlist hk
  constructor
  · intro h
    induction h with
    | leaf hnil => exact .leaf (by rw [← hkids _ hq]; exact hnil)
    | child hk _ ih =>
      rw [hkids _ hq] at hk
      exact .child hk (ih (by rintro rfl; exact hnew _ hk))
  · intro h
    induction h with
    | leaf hnil => exact .leaf (by rw [hkids _ hq]; exact hnil)
    | child hk _ ih =>
      refine .child (by rw [hkids _ hq]; exact hk) (ih ?_)
      rintro rfl
      exact hnew _ hk

section
variable {s : CompletionState} {gmem' : SynxSharedMem} {status k q : ℕ}

theorem Merged.done_eq (hm : Merged s.gmem gmem' idxList p) (hk : k ≠ p) :
    (gmem'.table k).done = (s.gmem.table k).done := by
  rw [hm.other k hk]
  rfl

theorem Merged.status_eq (hm : Merged s.gmem gmem' idxList p) (hk : k ≠ p) :
    (gmem'.table k).status = (s.gmem.table k).status := by
  rw [hm.other k hk]

theorem MergeOk.ne_child (hok : MergeOk s idxList p) (hk : k ∈ idxList) : k ≠ p := by
  rintro rfl
  exact hok.notMem hk

theorem MergeOk.notMem_kids (hok : MergeOk s idxList p) (h : Consistent s.graph status s.gmem [])
    (q : ℕ) : p ∉ s.graph.kids q := by
  rw [← count_eq_zero, ← h.parents p q, hok.parents]
  rfl

theorem MergeOk.ne_kid (hok : MergeOk s idxList p) (h : Consistent s.graph status s.gmem [])
    (hk : k ∈ s.graph.kids q) : k ≠ p := by
  rintro rfl
  exact hok.notMem_kids h q hk

variable {count : MergeCount}
variable (h : Consistent s.graph status s.gmem []) (hok : MergeOk s idxList p)
  (hlist : idxList ≠ []) (hm : Merged s.gmem gmem' idxList p)
include h hok hlist hm

theorem Consistent.parents_merged (k q : ℕ) :
    (gmem'.table k).parentList.count q = ((s.graph.add p idxList).kids q).count k := by
  rw [(hm.parents k).count_eq q, count_append, count_replicate, h.parents k q]
  by_cases hq : q = p
  · rw [hq, kids_add_self hlist, hok.kids]
    simp
  · rw [kids_add_of_ne hlist hq]
    simp [Ne.symm hq]

theorem Consistent.numChild_merged (q : ℕ) (hq : (s.graph.add p idxList).kids q ≠ []) :
    (gmem'.table q).numChild.toNat =
      ((s.graph.add p idxList).kids q).countP (fun k => !(gmem'.table k).done) +
        ([] : List ℕ).count q := by
  by_cases hqp : q = p
  · rw [hqp, kids_add_self hlist, hm.numChild, count_nil, Nat.add_zero]
    refine countP_congr fun k hk => ?_
    rw [hm.done_eq (hok.ne_child hk)]
  · rw [kids_add_of_ne hlist hqp] at hq ⊢
    rw [hm.other q hqp, h.numChild q hq]
    refine congrArg (· + _) (countP_congr fun k hk => ?_)
    rw [hm.done_eq (hok.ne_kid h hk)]

theorem Consistent.refcount_merged (q : ℕ) (hq : (s.graph.add p idxList).kids q ≠ []) :
    (gmem'.table q).refcount ≠ if (gmem'.table q).numChild = 0 then 0 else 1 := by
  by_cases hqp : q = p
  · rw [hqp, hm.refcount]
    split
    · exact hok.refcount
    · simpa using hok.refcount
  · rw [kids_add_of_ne hlist hqp] at hq
    rw [hm.other q hqp]
    exact h.refcount q hq

theorem Consistent.active_merged
    (hnoted : StatusNoted s.gmem.table ⟨0, synxStateActive⟩ count idxList)
    (hcount : (gmem'.table p).status = count.parentStatus) (q k : ℕ)
    (hk : k ∈ (s.graph.add p idxList).kids q) (hdone : (gmem'.table k).done = true) :
    (gmem'.table q).status ≠ synxStateActive ∨ q ∈ ([] : List ℕ) := by
  by_cases hqp : q = p
  · rw [hqp, kids_add_self hlist] at hk
    rw [hm.done_eq (hok.ne_child hk)] at hdone
    rw [hqp, hcount]
    exact .inl (hnoted.active k hk (done_iff.mp hdone).2)
  · rw [kids_add_of_ne hlist hqp] at hk
    rw [hm.done_eq (hok.ne_kid h hk)] at hdone
    rw [hm.status_eq hqp]
    exact h.active q k hk hdone

theorem Consistent.error_merged
    (hnoted : StatusNoted s.gmem.table ⟨0, synxStateActive⟩ count idxList)
    (hcount : (gmem'.table p).status = count.parentStatus) (q k : ℕ)
    (hk : k ∈ (s.graph.add p idxList).kids q) (hdone : (gmem'.table k).done = true)
    (herr : isErrorStatus (gmem'.table k).status = true) :
    isErrorStatus (gmem'.table q).status = true ∨
      q ∈ ([] : List ℕ) ∧ isErrorStatus status = true := by
  by_cases hqp : q = p
  · rw [hqp, kids_add_self hlist] at hk
    rw [hm.status_eq (hok.ne_child hk)] at herr
    rw [hqp, hcount]
    exact .inl (hnoted.error k hk herr)
  · rw [kids_add_of_ne hlist hqp] at hk
    rw [hm.done_eq (hok.ne_kid h hk)] at hdone
    rw [hm.status_eq (hok.ne_kid h hk)] at herr
    rw [hm.status_eq hqp]
    exact h.error q k hk hdone herr

theorem Consistent.source_merged
    (hnoted : StatusNoted s.gmem.table ⟨0, synxStateActive⟩ count idxList)
    (hcount : (gmem'.table p).status = count.parentStatus) (q : ℕ)
    (hq : (s.graph.add p idxList).kids q ≠ []) :
    (gmem'.table q).status = synxStateActive ∨ ∃ leaf,
      (s.graph.add p idxList).LeafBelow q leaf ∧
        (gmem'.table q).status = (gmem'.table leaf).status := by
  have hnew := hok.notMem_kids h
  -- a leaf below another entry is one below it before, with the status it had
  have hleaf {q leaf : ℕ} (hq : q ≠ p) (hbelow : s.graph.LeafBelow q leaf) :
      (gmem'.table leaf).status = (s.gmem.table leaf).status :=
    hm.status_eq (hbelow.ne_of_new hnew hq)
  by_cases hqp : q = p
  · subst hqp
    rw [hcount]
    rcases hnoted.source with hsame | ⟨k, hk, hne, hsame⟩
    · exact .inl hsame
    · have hkq := hok.ne_child hk
      have hbelow : ∃ leaf, s.graph.LeafBelow k leaf ∧
          (s.gmem.table k).status = (s.gmem.table leaf).status := by
        by_cases hknil : s.graph.kids k = []
        · exact ⟨k, .leaf hknil, rfl⟩
        · exact (h.source k hknil).resolve_left hne
      obtain ⟨leaf, hbelow, hksame⟩ := hbelow
      refine .inr ⟨leaf, .child (by rw [kids_add_self hlist]; exact hk) ?_, ?_⟩
      · exact (leafBelow_add_iff hlist hnew hkq).mpr hbelow
      · rw [hleaf hkq hbelow, hsame, hksame]
  · rw [kids_add_of_ne hlist hqp] at hq
    rw [hm.status_eq hqp]
    rcases h.source q hq with hactive | ⟨leaf, hbelow, hsame⟩
    · exact .inl hactive
    · exact .inr ⟨leaf, (leafBelow_add_iff hlist hnew hqp).mpr hbelow,
        by rw [hleaf hqp hbelow, hsame]⟩

theorem Consistent.merged
    (hnoted : StatusNoted s.gmem.table ⟨0, synxStateActive⟩ count idxList)
    (hcount : (gmem'.table p).status = count.parentStatus) :
    Consistent (s.graph.add p idxList) status gmem' [] where
  wellFormed := h.wellFormed.add hok.validParent hlist hok.notMem hok.kids (hok.notMem_kids h)
  parents := h.parents_merged hok hlist hm
  leaf k hk := by
    have hne : k ≠ p := by
      rintro rfl
      exact hlist (kids_add_self hlist ▸ hk)
    rw [kids_add_of_ne hlist hne] at hk
    rw [hm.other k hne]
    exact h.leaf k hk
  notMem _ _ := not_mem_nil
  numChild := h.numChild_merged hok hlist hm
  refcount := h.refcount_merged hok hlist hm
  active := h.active_merged hok hlist hm hnoted hcount
  error := h.error_merged hok hlist hm hnoted hcount
  source := h.source_merged hok hlist hm hnoted hcount
  plain q k hk hnil := by
    have hkp : k ≠ p := by
      rintro rfl
      exact hlist (kids_add_self hlist ▸ hnil)
    rw [kids_add_of_ne hlist hkp] at hnil
    rw [hm.status_eq hkp]
    by_cases hqp : q = p
    · rw [hqp, kids_add_self hlist] at hk
      exact hok.plain k hk hnil
    · rw [kids_add_of_ne hlist hqp] at hk
      exact h.plain q k hk hnil

end

end

/-! ## Runs -/

section
variable {depth : ℕ} {s t : CompletionState}

theorem CompletionState.Initial.consistent (h : s.Initial) :
    Consistent s.graph synxStateActive s.gmem [] := by
  rw [h.graph]
  refine ⟨⟨nodup_nil, by simp, by simp, by simp⟩, ?_, ?_, by simp, by simp, by simp, by simp,
    by simp, by simp, by simp⟩
  · intro k p
    rw [h.parents k]
    rfl
  · intro k _
    exact h.numChild k

theorem Consistent.call (hdepth : synxGlobalMaxObjs ≤ depth) {c : CompletionCall}
    (h : Consistent s.graph synxStateActive s.gmem []) (hok : CompletionOk s c) :
    Consistent (s.call depth c).graph synxStateActive (s.call depth c).gmem [] := by
  cases c with
  | merge idxList pIdx =>
    have hmerge : MergeOk s idxList pIdx := hok
    by_cases hlist : idxList = []
    · have hsame : s.call depth (.merge idxList pIdx) = s := by
        simp [CompletionState.call, CompositeGraph.add, synxGlobalMerge, hlist,
          hmerge.validParent]
      rw [hsame]
      exact h
    · obtain ⟨hm, count, hnoted, hcount⟩ := merged_of_ok hmerge.valid hmerge.validParent hlist
        hmerge.notMem hmerge.handle hmerge.refcount hmerge.status (h.leaf pIdx hmerge.kids)
        hmerge.ok
      exact h.merged hmerge hlist hm hnoted hcount
  | signal idx status => exact h.updateStatus hok hdepth

/-- In every run whose signals pass their errors on, each composite is complete when its leaves
are, with an error when one of them has one. -/
theorem completesRight_of_signalOk (hdepth : synxGlobalMaxObjs ≤ depth) (hinit : s.Initial)
    (hrun : Relation.ReflTransGen
      (GuardedStep CompletionOk (CompletionState.call depth)) s t) (pIdx : ℕ)
    (hkids : t.graph.kids pIdx ≠ []) : CompletesRight t pIdx := by
  have hstep : ∀ s c, Consistent s.graph synxStateActive s.gmem [] → CompletionOk s c →
      Consistent (s.call depth c).graph synxStateActive (s.call depth c).gmem [] :=
    fun _ _ h hok => h.call hdepth hok
  exact (invariant_of_guarded hstep hinit.consistent hrun).completesRight hkids

/-- The merges build new composites, and the leaves are signaled in any way. -/
def GraphOk (s : CompletionState) : CompletionCall → Prop
  | .merge idxList pIdx => MergeOk s idxList pIdx
  | .signal _ _ => True

/-- Four new handles. -/
def chainStart : CompletionState where
  gmem :=
    { bitmap := fun idx => 1 ≤ idx && idx ≤ 4
      table := fun idx =>
        if 1 ≤ idx ∧ idx ≤ 4 then
          { status := synxStateActive, handle := idx, refcount := 1, subscribers := 1 }
        else {} }
  graph := ⟨fun _ => [], []⟩

theorem chainStart_initial : chainStart.Initial where
  numChild idx := by
    simp only [chainStart]
    split <;> rfl
  parents idx := by
    simp only [chainStart]
    split <;> rfl
  graph := rfl

/-! The handle 3 merges 1 and 2, and 4 merges 3. -/

theorem chain_first_ok : MergeOk chainStart [1, 2] 3 :=
  ⟨by decide, by decide, by decide, rfl, by decide, by decide, by decide, by decide, by decide,
    by decide⟩

theorem chain_second_ok : MergeOk (chainStart.call synxGlobalMaxObjs (.merge [1, 2] 3)) [3] 4 :=
  ⟨by decide, by decide, by decide, rfl, by decide, by decide, by decide, by decide, by decide,
    by decide⟩

/-- Two errors below a composite of a composite. -/
theorem completesRight_two_errors :
    ∃ t, Relation.ReflTransGen
        (GuardedStep CompletionOk (CompletionState.call synxGlobalMaxObjs)) chainStart t ∧
      t.graph.kids 4 ≠ [] ∧ CompletesRight t 4 := by
  have h1 : Relation.ReflTransGen
      (GuardedStep CompletionOk (CompletionState.call synxGlobalMaxObjs)) chainStart _ :=
    .single ⟨.merge [1, 2] 3, chain_first_ok, rfl⟩
  have h2 := h1.tail ⟨.merge [3] 4, chain_second_ok, rfl⟩
  have h3 := h2.tail ⟨.signal 1 synxStateSignaledError,
    ⟨fun _ _ _ => by decide, fun _ herr => absurd herr (by decide)⟩, rfl⟩
  have h4 := h3.tail ⟨.signal 2 synxStateSignaledSsr,
    ⟨fun _ _ _ => by decide, fun _ herr => absurd herr (by decide)⟩, rfl⟩
  have hkids : ((((chainStart.call synxGlobalMaxObjs (.merge [1, 2] 3)).call synxGlobalMaxObjs
      (.merge [3] 4)).call synxGlobalMaxObjs (.signal 1 synxStateSignaledError)).call
        synxGlobalMaxObjs (.signal 2 synxStateSignaledSsr)).graph.kids 4 ≠ [] := by decide
  exact ⟨_, h4, hkids, completesRight_of_signalOk (le_refl _) chainStart_initial h4 4 hkids⟩

/-- A composite whose last child succeeds hides the error of its first one from its parent. -/
theorem hidden_error :
    ¬ ∀ (s t : CompletionState), s.Initial →
      Relation.ReflTransGen
        (GuardedStep GraphOk (CompletionState.call synxGlobalMaxObjs)) s t →
      ∀ pIdx, t.graph.kids pIdx ≠ [] → CompletesRight t pIdx := by
  intro hall
  have h1 : Relation.ReflTransGen
      (GuardedStep GraphOk (CompletionState.call synxGlobalMaxObjs)) chainStart _ :=
    .single ⟨.merge [1, 2] 3, chain_first_ok, rfl⟩
  have h2 := h1.tail ⟨.merge [3] 4, chain_second_ok, rfl⟩
  have h3 := h2.tail ⟨.signal 1 synxStateSignaledError, trivial, rfl⟩
  have h4 := h3.tail ⟨.signal 2 synxStateSignaledSuccess, trivial, rfl⟩
  have h := hall chainStart _ chainStart_initial h4 4 (by decide)
  have herr := (h.error (by decide)).mpr ⟨1, ?_, by decide⟩
  · exact absurd herr (by decide)
  · exact .child (by decide : 3 ∈ _) (.child (by decide : 1 ∈ _) (.leaf rfl))

end

end QcomModules.Synx
