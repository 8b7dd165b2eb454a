import Mathlib.Tactic.Ring

/-! Serial numbers: counters of a fixed width that are compared by the half of their range that the
difference falls in. -/

namespace QcomModules.Library

variable {w : ℕ}

def serialGte (a b : BitVec (w + 1)) : Bool :=
  (a - b).toNat ≤ 2 ^ w

def serialSub (a b : BitVec (w + 1)) : ℤ :=
  if 2 ^ w < (a - b).toNat then (a - b).toNat - 2 ^ (w + 1) else (a - b).toNat

section Window

variable {base a b : BitVec (w + 1)}

theorem toNat_sub_of_places : (a - b).toNat =
    if (b - base).toNat ≤ (a - base).toNat then (a - base).toNat - (b - base).toNat
    else 2 ^ (w + 1) - ((b - base).toNat - (a - base).toNat) := by
  have hsub : a - b = (a - base) - (b - base) := by grind
  rw [hsub, BitVec.toNat_sub, Nat.pow_succ]
  split
  · rw [show 2 ^ w * 2 - (b - base).toNat + (a - base).toNat =
      (a - base).toNat - (b - base).toNat + 2 ^ w * 2 by omega, Nat.add_mod_right]
    exact Nat.mod_eq_of_lt (by omega)
  · rw [Nat.mod_eq_of_lt (by omega)]
    omega

variable (ha : (a - base).toNat < 2 ^ w) (hb : (b - base).toNat < 2 ^ w)
include ha hb

/-- Counters in a window of half the range are compared by their places in it. -/
theorem serialGte_of_window : serialGte a b = decide ((b - base).toNat ≤ (a - base).toNat) := by
  have hpow := Nat.pow_succ (n := 2) (m := w)
  rw [serialGte, @toNat_sub_of_places w base, decide_eq_decide]
  split <;> omega

theorem serialSub_of_window : serialSub a b = ((a - base).toNat : ℤ) - (b - base).toNat := by
  have hpow : ((2 ^ w : ℕ) : ℤ) = 2 ^ w := by norm_cast
  rw [serialSub, @toNat_sub_of_places w base, Nat.pow_succ, Int.pow_succ, ← hpow]
  split <;> split <;> omega

end Window

theorem toNat_sub_ofInt (x y : ℤ) :
    ((BitVec.ofInt w x - BitVec.ofInt w y).toNat : ℤ) = (x - y) % 2 ^ w := by
  have hcast : ((2 ^ w : ℕ) : ℤ) = 2 ^ w := by norm_cast
  have hpos : (2 ^ w : ℤ) ≠ 0 := by
    rw [← hcast]
    exact Int.natCast_ne_zero.2 (Nat.ne_of_gt (Nat.two_pow_pos w))
  have hnat (z : ℤ) : ((BitVec.ofInt w z).toNat : ℤ) = z - 2 ^ w * (z / 2 ^ w) := by
    rw [BitVec.toNat_ofInt, hcast, Int.toNat_of_nonneg (Int.emod_nonneg _ hpos), Int.emod_def]
  rw [BitVec.toNat_sub, Int.natCast_emod, Int.natCast_add, Int.natCast_sub (BitVec.isLt _).le,
    hnat, hnat, hcast]
  have hsplit : (2 : ℤ) ^ w - (y - 2 ^ w * (y / 2 ^ w)) + (x - 2 ^ w * (x / 2 ^ w)) =
      x - y + 2 ^ w * (1 + y / 2 ^ w - x / 2 ^ w) := by ring
  rw [hsplit, Int.add_mul_emod_self_left]

end QcomModules.Library
