import Mathlib.Logic.Function.Iterate
import Mathlib.Tactic.Basic

/-! Probing: visit positions one after another until a body stops, and linear probing
around a table of `m` slots. -/

namespace QcomModules.Library

open List

variable {π β : Type*}

/-- Visit at most `n` positions, from `p` on and moving by `next`, until `body` stops.
The last position visited comes with what the body stopped with. -/
def probe (next : π → π) (body : π → Option β) : ℕ → π → π × Option β
  | 0, p => (p, none)
  | n + 1, p =>
    match body p with
    | some b => (p, some b)
    | none => if n = 0 then (p, none) else probe next body n (next p)

def visited (next : π → π) : ℕ → π → List π
  | 0, _ => []
  | n + 1, p => p :: visited next n (next p)

variable {n : ℕ} {p q : π} {body : π → Option β}

theorem mem_visited {next : π → π} : q ∈ visited next n p ↔ ∃ k < n, next^[k] p = q := by
  induction n generalizing p with
  | zero => simp [visited]
  | succ n ih =>
    rw [visited, mem_cons, ih]
    constructor
    · rintro (rfl | ⟨k, hk, hq⟩)
      · exact ⟨0, by omega, rfl⟩
      · exact ⟨k + 1, by omega, hq⟩
    · rintro ⟨k, hk, hq⟩
      cases k with
      | zero => exact .inl hq.symm
      | succ k => exact .inr ⟨k, by omega, hq⟩

/-- A probe stops at the first visited position whose body stops. -/
theorem probe_eq_of_visited {next : π → π} {b : β} {before after : List π}
    (hvisited : visited next n p = before ++ q :: after) (hstop : body q = some b)
    (hbefore : ∀ x ∈ before, body x = none) : probe next body n p = (q, some b) := by
  induction n generalizing p before with
  | zero => simp [visited] at hvisited
  | succ n ih =>
    cases before with
    | nil =>
      obtain ⟨rfl, _⟩ := cons.inj hvisited
      simp only [probe, hstop]
    | cons x before =>
      obtain ⟨rfl, hrest⟩ := cons.inj hvisited
      have hn : n ≠ 0 := by
        rintro rfl
        simp [visited] at hrest
      have hfirst : body p = none := hbefore p (by simp)
      simp only [probe, hfirst, hn, if_false]
      exact ih hrest fun x hx => hbefore x (by simp [hx])

/-- Every probe stops at a first visited position or stops nowhere. -/
theorem probe_cases (next : π → π) (body : π → Option β) (n : ℕ) (p : π) :
    (∃ before q after b, visited next n p = before ++ q :: after ∧ body q = some b ∧
      (∀ x ∈ before, body x = none) ∧ probe next body n p = (q, some b)) ∨
    ((∀ x ∈ visited next n p, body x = none) ∧ (probe next body n p).2 = none) := by
  induction n generalizing p with
  | zero => exact .inr ⟨by simp [visited], rfl⟩
  | succ n ih =>
    cases hp : body p with
    | some b =>
      exact .inl ⟨[], p, visited next n (next p), b, rfl, hp, by simp, by simp only [probe, hp]⟩
    | none =>
      rcases ih (next p) with ⟨before, q, after, b, hv, hq, hb, heq⟩ | ⟨hnone, hout⟩
      · have hbefore : ∀ x ∈ p :: before, body x = none := by
          rintro x (_ | ⟨_, hx⟩)
          · exact hp
          · exact hb x hx
        have hv' : visited next (n + 1) p = (p :: before) ++ q :: after := by
          rw [visited, hv, cons_append]
        exact .inl ⟨p :: before, q, after, b, hv', hq, hbefore,
          probe_eq_of_visited hv' hq hbefore⟩
      · refine .inr ⟨?_, ?_⟩
        · rintro x (_ | ⟨_, hx⟩)
          · exact hp
          · exact hnone x hx
        · simp only [probe, hp]
          split
          · rfl
          · exact hout

theorem probe_fst_of_none {next : π → π} (h : ∀ x ∈ visited next n p, body x = none) :
    (probe next body n p).1 = (visited next n p).getLast?.getD p := by
  induction n generalizing p with
  | zero => rfl
  | succ n ih =>
    have hfirst : body p = none := h p (by simp [visited])
    have hrest : ∀ x ∈ visited next n (next p), body x = none :=
      fun x hx => h x (by simp [visited, hx])
    simp only [probe, hfirst]
    split
    · next hzero => simp [hzero, visited]
    · next hzero =>
        obtain ⟨k, rfl⟩ := Nat.exists_eq_succ_of_ne_zero hzero
        rw [ih hrest]
        simp only [visited, getLast?_cons, Option.getD_some]

theorem append_cons_cases {before before' after after' : List π} {x y : π}
    (h : before ++ x :: after = before' ++ y :: after') : x ∈ before' ∨ x = y ∨ y ∈ before := by
  induction before generalizing before' with
  | nil =>
    cases before' with
    | nil => exact .inr (.inl (cons.inj h).1)
    | cons z before' => exact .inl (by simp [(cons.inj h).1])
  | cons z before ih =>
    cases before' with
    | nil => exact .inr (.inr (by simp [(cons.inj h).1]))
    | cons z' before' =>
      rcases ih (cons.inj h).2 with hx | hxy | hy
      · exact .inl (by simp [hx])
      · exact .inr (.inl hxy)
      · exact .inr (.inr (by simp [hy]))

theorem exists_add_mod_eq {m h target : ℕ} (hh : h < m) (ht : target < m) :
    ∃ k < m, (h + k) % m = target := by
  by_cases hle : h ≤ target
  · refine ⟨target - h, by omega, ?_⟩
    rw [Nat.add_sub_cancel' hle, Nat.mod_eq_of_lt ht]
  · refine ⟨target + m - h, by omega, ?_⟩
    rw [show h + (target + m - h) = target + m by omega, Nat.add_mod_right,
      Nat.mod_eq_of_lt ht]

end QcomModules.Library
