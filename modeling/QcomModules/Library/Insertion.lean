import Mathlib.Data.List.Chain
import Mathlib.Data.List.Perm.Basic

/-! Insertion before the first element of a kind, as lists are kept sorted in place. -/

namespace QcomModules.Library

open List

variable {α : Type*}

/-- `x` inserted before the first element that meets `p`, or at the end. -/
def insertBefore (p : α → Bool) (x : α) : List α → List α
  | [] => [x]
  | y :: ys => if p y then x :: y :: ys else y :: insertBefore p x ys

theorem insertBefore_perm (p : α → Bool) (x : α) (xs : List α) :
    (insertBefore p x xs).Perm (x :: xs) := by
  induction xs with
  | nil => exact Perm.refl _
  | cons y ys ih =>
    rw [insertBefore]
    split
    · exact Perm.refl _
    · exact (ih.cons y).trans (Perm.swap x y ys)

variable {x : α} {r : α → α → Prop}

theorem mem_insertBefore {p : α → Bool} {y : α} {xs : List α} :
    y ∈ insertBefore p x xs ↔ y = x ∨ y ∈ xs := by
  rw [(insertBefore_perm p x xs).mem_iff, mem_cons]

theorem pairwise_insertBefore [IsTrans α r] {p : α → Bool} {x : α} {xs : List α}
    (hxs : xs.Pairwise r) (hpos : ∀ y ∈ xs, p y = true → r x y)
    (hneg : ∀ y ∈ xs, p y = false → r y x) : (insertBefore p x xs).Pairwise r := by
  induction xs with
  | nil => exact pairwise_singleton r x
  | cons y ys ih =>
    have htail := pairwise_cons.mp hxs
    rw [insertBefore]
    split
    case isTrue hy =>
      have hxy : r x y := hpos y (by simp) hy
      refine pairwise_cons.mpr ⟨?_, hxs⟩
      intro z hz
      rcases mem_cons.mp hz with heq | hrest
      · rwa [heq]
      · exact IsTrans.trans _ _ _ hxy (htail.1 z hrest)
    case isFalse hy =>
      refine pairwise_cons.mpr ⟨?_, ?_⟩
      · intro z hz
        rcases mem_insertBefore.mp hz with heq | hrest
        · rw [heq]
          exact hneg y (by simp) (by simpa using hy)
        · exact htail.1 z hrest
      · exact ih htail.2 (fun z hz => hpos z (mem_cons_of_mem _ hz))
          (fun z hz => hneg z (mem_cons_of_mem _ hz))

theorem isChain_insert {pre post : List α} (h : (pre ++ post).IsChain r)
    (hpre : ∀ y ∈ pre.getLast?, r y x) (hpost : ∀ y ∈ post.head?, r x y) :
    (pre ++ x :: post).IsChain r := by
  obtain ⟨hfirst, hsecond, -⟩ := isChain_append.1 h
  refine isChain_append.2 ⟨hfirst, isChain_cons.2 ⟨hpost, hsecond⟩, ?_⟩
  intro y hy z hz
  obtain rfl : x = z := Option.some.inj hz
  exact hpre y hy

end QcomModules.Library
