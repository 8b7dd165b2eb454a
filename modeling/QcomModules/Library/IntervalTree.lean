import QcomModules.Library.Insertion

/-! Interval trees, seen as their nodes in the order of their starts, and the walk over the
nodes that overlap an interval. -/

namespace QcomModules.Library

open List

variable {α : Type*} {start last : α → ℕ} {lo hi : ℕ}

/-- A node that has a point in common with `[lo, hi]`. -/
def overlaps (start last : α → ℕ) (lo hi : ℕ) (x : α) : Bool :=
  decide (start x ≤ hi) && decide (lo ≤ last x)

theorem overlaps_iff {x : α} : overlaps start last lo hi x = true ↔ start x ≤ hi ∧ lo ≤ last x := by
  rw [overlaps, Bool.and_eq_true, decide_eq_true_iff, decide_eq_true_iff]

def treeInsert (start : α → ℕ) (x : α) (xs : List α) : List α :=
  insertBefore (fun y => decide (start x < start y)) x xs

def iterFirst (start last : α → ℕ) (xs : List α) (lo hi : ℕ) : Option α :=
  xs.find? (overlaps start last lo hi)

/-- The next overlapping node behind `node`. -/
def iterNext [DecidableEq α] (start last : α → ℕ) (xs : List α) (node : α) (lo hi : ℕ) : Option α :=
  (xs.dropWhile fun x => x != node).tail.find? (overlaps start last lo hi)

theorem iterNext_append [DecidableEq α] {front back : List α} {x : α} (hx : x ∉ front) :
    iterNext start last (front ++ x :: back) x lo hi = back.find? (overlaps start last lo hi) := by
  have hskip : ∀ y ∈ front, (y != x) = true := by
    intro y hy
    rw [bne_iff_ne]
    rintro rfl
    exact hx hy
  rw [iterNext, dropWhile_append_of_pos hskip, dropWhile_cons_of_neg (by simp)]
  rfl

def Before (start last : α → ℕ) (x y : α) : Prop :=
  start x ≤ last x ∧ start y ≤ last y ∧ last x < start y

instance : IsTrans α (Before start last) where
  trans x y z hxy hyz := ⟨hxy.1, hyz.2.1, by
    obtain ⟨-, hy, hlt⟩ := hxy
    have hlt' := hyz.2.2
    omega⟩

/-- The nodes of a tree of disjoint intervals, in order. -/
structure DisjointTree (start last : α → ℕ) (xs : List α) : Prop where
  ordered : xs.Pairwise (Before start last)
  proper : ∀ x ∈ xs, start x ≤ last x

namespace DisjointTree

variable {xs : List α}

theorem nil : DisjointTree start last ([] : List α) where
  ordered := List.Pairwise.nil
  proper := by
    intro x hx
    cases hx

theorem erase [DecidableEq α] (h : DisjointTree start last xs) (x : α) :
    DisjointTree start last (xs.erase x) where
  ordered := h.ordered.sublist erase_sublist
  proper := fun y hy => h.proper y (erase_subset hy)

theorem nodup (h : DisjointTree start last xs) : xs.Nodup := by
  refine h.ordered.imp ?_
  intro a b hab heq
  obtain ⟨hproper, -, hlt⟩ := hab
  rw [heq] at hproper hlt
  omega

theorem insert (h : DisjointTree start last xs) {x : α} (hx : start x ≤ last x)
    (hfree : ∀ y ∈ xs, last x < start y ∨ last y < start x) :
    DisjointTree start last (treeInsert start x xs) where
  ordered := by
    refine pairwise_insertBefore h.ordered ?_ ?_
    · intro y hy hlt
      have hstart : start x < start y := of_decide_eq_true hlt
      have hproper := h.proper y hy
      refine ⟨hx, hproper, ?_⟩
      rcases hfree y hy with hbefore | hafter
      · exact hbefore
      · omega
    · intro y hy hlt
      have hstart : ¬ start x < start y := of_decide_eq_false hlt
      have hproper := h.proper y hy
      refine ⟨hproper, hx, ?_⟩
      rcases hfree y hy with hbefore | hafter
      · omega
      · exact hafter
  proper := by
    intro y hy
    rcases mem_insertBefore.mp hy with heq | hold
    · rwa [heq]
    · exact h.proper y hold

theorem disjoint (h : DisjointTree start last xs) {x y : α} (hx : x ∈ xs) (hy : y ∈ xs)
    (hne : x ≠ y) : last x < start y ∨ last y < start x := by
  obtain ⟨i, hi, hix⟩ := mem_iff_getElem.mp hx
  obtain ⟨j, hj, hjy⟩ := mem_iff_getElem.mp hy
  have hordered := pairwise_iff_getElem.mp h.ordered
  subst hix hjy
  rcases Nat.lt_trichotomy i j with hij | hij | hij
  · exact Or.inl (hordered i j hi hj hij).2.2
  · subst hij
    exact absurd rfl hne
  · exact Or.inr (hordered j i hj hi hij).2.2

theorem sublist {ys : List α} (h : DisjointTree start last xs) (hys : ys.Sublist xs) :
    DisjointTree start last ys where
  ordered := h.ordered.sublist hys
  proper := fun y hy => h.proper y (hys.subset hy)

/-! ## The walk -/

/-- The first overlapping node of a list in order is before all others. -/
theorem find_some (h : DisjointTree start last xs) {x : α}
    (hfind : xs.find? (overlaps start last lo hi) = some x) :
    x ∈ xs ∧ overlaps start last lo hi x = true ∧
      ∀ y ∈ xs, overlaps start last lo hi y = true → y = x ∨ start x < start y := by
  obtain ⟨hx, front, back, heq, hfront⟩ := find?_eq_some_iff_append.mp hfind
  have hmem : x ∈ xs := by
    rw [heq]
    simp
  refine ⟨hmem, hx, ?_⟩
  intro y hy hover
  have hproper := h.proper x hmem
  rw [heq, mem_append, mem_cons] at hy
  rcases hy with hy | hy | hy
  · have hnot := hfront y hy
    rw [hover] at hnot
    cases hnot
  · exact Or.inl hy
  · have hordered := h.ordered
    rw [heq] at hordered
    have htail := (pairwise_append.mp hordered).2.1
    have hbefore := (pairwise_cons.mp htail).1 y hy
    exact Or.inr (Nat.lt_of_le_of_lt hproper hbefore.2.2)

theorem iterFirst_some (h : DisjointTree start last xs) {x : α}
    (hfirst : iterFirst start last xs lo hi = some x) :
    x ∈ xs ∧ overlaps start last lo hi x = true ∧
      ∀ y ∈ xs, overlaps start last lo hi y = true → y = x ∨ start x < start y :=
  h.find_some hfirst

theorem iterFirst_none (hfirst : iterFirst start last xs lo hi = none) :
    ∀ y ∈ xs, overlaps start last lo hi y = false := by
  intro y hy
  have hnot := find?_eq_none.mp hfirst y hy
  simpa using hnot

variable [DecidableEq α]

variable {x y : α}

theorem mem_behind (h : DisjointTree start last xs) (hx : x ∈ xs) :
    (xs.dropWhile fun y => y != x).tail.Sublist xs ∧
      ∀ y ∈ xs, y ∈ (xs.dropWhile fun y => y != x).tail ↔ start x < start y := by
  obtain ⟨front, back, heq⟩ := append_of_mem hx
  have hnodup := h.nodup
  have hordered := h.ordered
  rw [heq] at hnodup hordered
  obtain ⟨hfront, hback, hcross⟩ := pairwise_append.mp hordered
  have hskip : ∀ y ∈ front, (y != x) = true := by
    intro y hy
    rw [bne_iff_ne]
    intro hyx
    exact (nodup_append.mp hnodup).2.2 y hy x (by simp) hyx
  have hdrop : (xs.dropWhile fun y => y != x).tail = back := by
    rw [heq, dropWhile_append_of_pos hskip, dropWhile_cons_of_neg (by simp)]
    rfl
  have hproper := h.proper x hx
  rw [hdrop]
  refine ⟨?_, ?_⟩
  · rw [heq]
    exact (sublist_cons_self x back).trans (sublist_append_right front _)
  · intro y hy
    constructor
    · intro hin
      have hbefore := (pairwise_cons.mp hback).1 y hin
      exact Nat.lt_of_le_of_lt hproper hbefore.2.2
    · intro hlt
      rw [heq, mem_append, mem_cons] at hy
      rcases hy with hin | hin | hin
      · have hbefore := hcross y hin x (by simp)
        have hstart := hbefore.1
        have hend := hbefore.2.2
        omega
      · rw [hin] at hlt
        omega
      · exact hin

theorem iterNext_some (h : DisjointTree start last xs) (hx : x ∈ xs)
    (hnext : iterNext start last xs x lo hi = some y) :
    y ∈ xs ∧ overlaps start last lo hi y = true ∧ start x < start y ∧
      ∀ z ∈ xs, overlaps start last lo hi z = true → start x < start z →
        z = y ∨ start y < start z := by
  obtain ⟨hsub, hbehind⟩ := h.mem_behind hx
  obtain ⟨hy, hover, hfirst⟩ := (h.sublist hsub).find_some hnext
  refine ⟨hsub.subset hy, hover, (hbehind y (hsub.subset hy)).mp hy, ?_⟩
  intro z hz hzover hlt
  exact hfirst z ((hbehind z hz).mpr hlt) hzover

theorem iterNext_none (h : DisjointTree start last xs) (hx : x ∈ xs)
    (hnext : iterNext start last xs x lo hi = none) :
    ∀ z ∈ xs, start x < start z → overlaps start last lo hi z = false := by
  obtain ⟨-, hbehind⟩ := h.mem_behind hx
  intro z hz hlt
  have hnot := find?_eq_none.mp hnext z ((hbehind z hz).mpr hlt)
  simpa using hnot

end DisjointTree

end QcomModules.Library
