import QcomModules.Library.ByteMemory

/-! Byte strings as numbers with the least significant byte first: the increment that carries from
byte to byte, and the comparison of two strings from their first byte on. -/

namespace QcomModules.Library

def leNum (bs : List Byte) : ℕ := Nat.ofDigits 256 (bs.map BitVec.toNat)

@[simp] theorem leNum_nil : leNum [] = 0 := rfl

@[simp] theorem leNum_cons (b : Byte) (bs : List Byte) :
    leNum (b :: bs) = b.toNat + 256 * leNum bs := Nat.ofDigits_cons ..

/-- Increment the first byte, and the next one as long as a byte wraps. -/
def incBytes : List Byte → List Byte
  | [] => []
  | b :: bs => if b + 1 ≠ 0 then (b + 1) :: bs else (b + 1) :: incBytes bs

@[simp] theorem length_incBytes (bs : List Byte) : (incBytes bs).length = bs.length := by
  induction bs with
  | nil => rfl
  | cons b bs ih =>
    rw [incBytes]
    split
    · rfl
    · rw [List.length_cons, ih, List.length_cons]

theorem leNum_incBytes {bs : List Byte} (h : leNum bs + 1 < 256 ^ bs.length) :
    leNum (incBytes bs) = leNum bs + 1 := by
  induction bs with
  | nil => exact absurd h (by decide)
  | cons b bs ih =>
    rw [incBytes]
    by_cases hb : b + 1 ≠ 0
    · have hnat : (b + 1).toNat = b.toNat + 1 := by bv_omega
      rw [if_pos hb, leNum_cons, leNum_cons, hnat, Nat.add_right_comm]
    · have hwraps : b.toNat = 255 := by bv_omega
      have hzero : (b + 1).toNat = 0 := by bv_omega
      rw [leNum_cons, List.length_cons, Nat.pow_succ'] at h
      rw [if_neg hb, leNum_cons, leNum_cons, ih (by omega), hzero]
      omega

/-- The sign of the difference at the first byte in which two strings differ. -/
def memCmp : List Byte → List Byte → ℤ
  | a :: as, b :: bs => if a = b then memCmp as bs else (a.toNat : ℤ) - b.toNat
  | _, _ => 0

end QcomModules.Library
