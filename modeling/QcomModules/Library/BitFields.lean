import Mathlib.Data.Nat.Bitwise

/-! Fields of a word: runs of bits that are read and written apart from each other. -/

namespace QcomModules.Library

variable {w : ℕ}

/-- The word whose lowest `n` bits are set. -/
def bitMask (w n : ℕ) : BitVec w := BitVec.ofNat w (2 ^ n - 1)

/-- The field of `n` bits from bit `i` on. -/
def getBits (v : BitVec w) (i n : ℕ) : BitVec w := (v >>> i) &&& bitMask w n

/-- Replace the field of `n` bits from bit `i` on. -/
def setBits (v : BitVec w) (i n : ℕ) (x : BitVec w) : BitVec w :=
  (v &&& ~~~(bitMask w n <<< i)) ||| ((x &&& bitMask w n) <<< i)

theorem getLsbD_bitMask (w n j : ℕ) : (bitMask w n).getLsbD j = decide (j < w ∧ j < n) := by
  rw [bitMask, BitVec.getLsbD_ofNat, Nat.testBit_two_pow_sub_one, Bool.decide_and]

theorem getLsbD_getBits (v : BitVec w) (i n j : ℕ) :
    (getBits v i n).getLsbD j = (decide (j < n) && v.getLsbD (i + j)) := by
  rw [getBits, BitVec.getLsbD_and, BitVec.getLsbD_ushiftRight, getLsbD_bitMask]
  by_cases hin : i + j < w
  · have hj : j < w := by omega
    simp [hj, Bool.and_comm]
  · rw [BitVec.getLsbD_of_ge v _ (by omega), Bool.false_and, Bool.and_false]

variable {i n k : ℕ} {v v' x : BitVec w}

theorem getLsbD_setBits (v x : BitVec w) {j : ℕ} (hj : j < w) :
    (setBits v i n x).getLsbD j =
      if i ≤ j ∧ j < i + n then x.getLsbD (j - i) else v.getLsbD j := by
  have hsub : j - i < w := by omega
  rw [setBits, BitVec.getLsbD_or, BitVec.getLsbD_and, BitVec.getLsbD_not, BitVec.getLsbD_shiftLeft,
    BitVec.getLsbD_shiftLeft, BitVec.getLsbD_and, getLsbD_bitMask]
  by_cases hlow : j < i
  · simp [hj, hlow]
  · by_cases hhigh : j - i < n
    · rw [if_pos (by omega)]
      simp [hj, hlow, hsub, hhigh]
    · rw [if_neg (by omega)]
      simp [hj, hlow, hhigh]

theorem getBits_congr (h : ∀ j < n, v.getLsbD (i + j) = v'.getLsbD (i + j)) :
    getBits v i n = getBits v' i n := by
  refine BitVec.eq_of_getLsbD_eq fun j _ => ?_
  rw [getLsbD_getBits, getLsbD_getBits]
  by_cases hj : j < n
  · rw [h j hj]
  · rw [decide_eq_false hj, Bool.false_and, Bool.false_and]

theorem getBits_setBits (hin : i + n ≤ w) (hx : x.toNat < 2 ^ n) :
    getBits (setBits v i n x) i n = x := by
  refine BitVec.eq_of_getLsbD_eq fun j _ => ?_
  rw [getLsbD_getBits]
  by_cases hj : j < n
  · rw [getLsbD_setBits v x (by omega), if_pos (by omega), Nat.add_sub_cancel_left,
      decide_eq_true hj, Bool.true_and]
  · have hhigh : x.getLsbD j = false :=
      Nat.testBit_lt_two_pow (hx.trans_le (Nat.pow_le_pow_right (by decide) (Nat.not_lt.1 hj)))
    rw [decide_eq_false hj, Bool.false_and, hhigh]

theorem getBits_setBits_of_disjoint {i' n' : ℕ} (h : i' + n' ≤ i ∨ i + n ≤ i') :
    getBits (setBits v i n x) i' n' = getBits v i' n' := by
  refine getBits_congr fun j hj => ?_
  by_cases hin : i' + j < w
  · rw [getLsbD_setBits v x hin, if_neg (by omega)]
  · rw [BitVec.getLsbD_of_ge _ _ (by omega), BitVec.getLsbD_of_ge _ _ (by omega)]

theorem setBits_getBits : setBits v i n (getBits v i n) = v := by
  refine BitVec.eq_of_getLsbD_eq fun j hj => ?_
  rw [getLsbD_setBits v _ hj, getLsbD_getBits]
  by_cases hin : i ≤ j ∧ j < i + n
  · rw [if_pos hin, decide_eq_true (by omega), Bool.true_and, Nat.add_sub_cancel' hin.1]
  · rw [if_neg hin]

theorem getBits_of_setWidth (hin : i + n ≤ k) (h : v.setWidth k = v'.setWidth k) :
    getBits v i n = getBits v' i n := by
  refine getBits_congr fun j hj => ?_
  have hbit := congrArg (BitVec.getLsbD · (i + j)) h
  simp only [BitVec.getLsbD_setWidth, show i + j < k by omega, decide_true, Bool.true_and] at hbit
  exact hbit

theorem setWidth_setBits (hki : k ≤ i) : (setBits v i n x).setWidth k = v.setWidth k := by
  refine BitVec.eq_of_getLsbD_eq fun j hj => ?_
  rw [BitVec.getLsbD_setWidth, BitVec.getLsbD_setWidth]
  by_cases hw : j < w
  · rw [getLsbD_setBits v x hw, if_neg (by omega)]
  · rw [BitVec.getLsbD_of_ge _ _ (by omega), BitVec.getLsbD_of_ge _ _ (by omega)]

/-! ## Flags -/

def flagBit (w : ℕ) (b : Bool) : BitVec w := BitVec.ofNat w b.toNat

theorem toNat_flagBit (b : Bool) : (flagBit w b).toNat < 2 ^ 1 :=
  (Nat.mod_le _ _).trans_lt b.toNat_lt

theorem flagBit_ne_zero (hw : 0 < w) (b : Bool) : decide (flagBit w b ≠ 0) = b := by
  cases b with
  | false => exact decide_eq_false (not_not.2 rfl)
  | true =>
    refine decide_eq_true fun h => ?_
    have hzero : (0 : BitVec w).toNat = 0 := BitVec.toNat_ofNat 0 w ▸ Nat.zero_mod _
    have hnat := congrArg BitVec.toNat h
    rw [flagBit, BitVec.toNat_ofNat, Bool.toNat_true, hzero,
      Nat.mod_eq_of_lt (Nat.one_lt_two_pow hw.ne')] at hnat
    exact absurd hnat Nat.one_ne_zero

end QcomModules.Library
