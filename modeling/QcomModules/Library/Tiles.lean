import Mathlib.Data.List.Basic

/-! Lists of tiles that cover the positions from zero on one behind the other. -/

namespace QcomModules.Library

open List

universe u v

variable {τ : Type u} {P : ℕ → ℕ → τ → Prop}

/-- The tiles cover the positions below a bound; `P k c t` says that `t` covers `c` positions from
`k` on. -/
inductive Tiles (P : ℕ → ℕ → τ → Prop) : List τ → ℕ → Prop
  | nil : Tiles P [] 0
  | snoc {tiles : List τ} {k c : ℕ} {t : τ} (h : Tiles P tiles k) (hpos : 0 < c) (ht : P k c t) :
      Tiles P (tiles ++ [t]) (k + c)

variable {tiles : List τ} {n : ℕ}

theorem Tiles.at_tile (h : Tiles P tiles n) {front back : List τ} {t : τ}
    (heq : tiles = front ++ t :: back) :
    ∃ k c, Tiles P front k ∧ 0 < c ∧ P k c t ∧ k + c ≤ n ∧ (back = [] ↔ k + c = n) := by
  induction h generalizing back with
  | nil => exact absurd heq.symm (append_ne_nil_of_right_ne_nil _ (cons_ne_nil _ _))
  | @snoc tiles k c last h hpos ht ih =>
    obtain rfl | ⟨back, next, rfl⟩ := eq_nil_or_concat back
    · obtain ⟨rfl, hlast⟩ := append_inj' heq rfl
      cases hlast
      exact ⟨k, c, h, hpos, ht, Nat.le_refl _, fun _ => rfl, fun _ => rfl⟩
    · rw [concat_eq_append, ← cons_append, ← append_assoc] at heq
      obtain ⟨rfl, -⟩ := append_inj' heq rfl
      obtain ⟨j, d, hfront, hd, hj, hle, -⟩ := ih rfl
      refine ⟨j, d, hfront, hd, hj, by omega, fun hnil => ?_, fun hend => by omega⟩
      exact absurd hnil (by simp)

theorem Tiles.exists_at {i : ℕ} (h : Tiles P tiles n) (hi : i < n) :
    ∃ front t back k c, tiles = front ++ t :: back ∧ Tiles P front k ∧ P k c t ∧ k ≤ i ∧
      i < k + c ∧ k + c ≤ n := by
  induction h with
  | nil => exact absurd hi (Nat.not_lt_zero i)
  | @snoc tiles k c last h hpos ht ih =>
    obtain hlt | hle := Nat.lt_or_ge i k
    · obtain ⟨front, t, back, j, d, rfl, hfront, hj, hji, hid, hle⟩ := ih hlt
      refine ⟨front, t, back ++ [last], j, d, ?_, hfront, hj, hji, hid, by omega⟩
      rw [append_assoc, cons_append]
    · exact ⟨tiles, last, [], k, c, rfl, h, ht, hle, hi, Nat.le_refl _⟩

theorem Tiles.flatMap_eq {β : Type v} {f : τ → List β} {g : ℕ → List β} (h0 : g 0 = [])
    (hstep : ∀ k c t, P k c t → g (k + c) = g k ++ f t) (h : Tiles P tiles n) :
    tiles.flatMap f = g n := by
  induction h with
  | nil => exact h0.symm
  | @snoc tiles k c t h hpos ht ih =>
    rw [flatMap_append, ih, flatMap_singleton, hstep k c t ht]

end QcomModules.Library
