import Mathlib.Data.List.Basic

/-! One's complement sums of 16-bit words, and the words of a byte string in either byte order.
A sum is told by its residue and by whether it is 0. -/

namespace QcomModules.Library

open List

abbrev Word := BitVec 16

def onesAdd (a b : Word) : Word := a + b + if a + b < b then 1 else 0

def onesSum : List Word → Word
  | [] => 0#16
  | w :: l => onesAdd w (onesSum l)

def swapBytes (w : Word) : Word := .ofNat 16 (w.toNat % 256 * 256 + w.toNat / 256)

/-! ## Sums -/

section Sums

variable {a b c : Word}

theorem toNat_onesAdd (a b : Word) : (onesAdd a b).toNat =
    if a.toNat + b.toNat < 65536 then a.toNat + b.toNat else a.toNat + b.toNat - 65535 := by
  rw [onesAdd]
  split <;> split <;> bv_omega

theorem zero_onesAdd (a : Word) : onesAdd 0#16 a = a := by
  apply BitVec.eq_of_toNat_eq
  rw [toNat_onesAdd, BitVec.toNat_zero, Nat.zero_add, if_pos a.isLt]

theorem onesAdd_assoc (a b c : Word) : onesAdd (onesAdd a b) c = onesAdd a (onesAdd b c) := by
  apply BitVec.eq_of_toNat_eq
  have ha := a.isLt
  have hb := b.isLt
  have hc := c.isLt
  simp only [toNat_onesAdd]
  split_ifs <;> omega

theorem onesAdd_comm (a b : Word) : onesAdd a b = onesAdd b a := by
  apply BitVec.eq_of_toNat_eq
  rw [toNat_onesAdd, toNat_onesAdd, Nat.add_comm]

theorem onesAdd_full (h : a ≠ 0#16) : onesAdd a 0xFFFF#16 = a := by
  apply BitVec.eq_of_toNat_eq
  have hpos : a.toNat ≠ 0 := fun hzero => h (BitVec.eq_of_toNat_eq hzero)
  rw [toNat_onesAdd, show (0xFFFF#16).toNat = 65535 from rfl, if_neg (by omega),
    Nat.add_sub_cancel]

theorem onesAdd_not (a : Word) : onesAdd a (~~~ a) = 0xFFFF#16 := by
  apply BitVec.eq_of_toNat_eq
  have ha := a.isLt
  rw [toNat_onesAdd, BitVec.toNat_not, if_pos (by omega)]
  exact Nat.add_sub_cancel' (by omega)

theorem onesSum_append (l l' : List Word) :
    onesSum (l ++ l') = onesAdd (onesSum l) (onesSum l') := by
  induction l with
  | nil => exact (zero_onesAdd _).symm
  | cons w l ih => rw [cons_append, onesSum, ih, onesSum, onesAdd_assoc]

theorem onesAdd_eq_zero_iff : onesAdd a b = 0#16 ↔ a = 0#16 ∧ b = 0#16 := by
  have ha := a.isLt
  have hb := b.isLt
  simp only [← BitVec.toNat_inj, toNat_onesAdd, BitVec.toNat_zero]
  split_ifs <;> omega

theorem onesSum_ne_zero {w : Word} {l : List Word} (hw : w ∈ l) (hne : w ≠ 0#16) :
    onesSum l ≠ 0#16 := by
  induction l with
  | nil => cases hw
  | cons v l ih =>
    intro hzero
    obtain ⟨hv, hl⟩ := onesAdd_eq_zero_iff.mp hzero
    rcases mem_cons.mp hw with rfl | hw
    · exact hne hv
    · exact ih hw hl

end Sums

/-! ## Byte order -/

theorem toNat_swapBytes (w : Word) : (swapBytes w).toNat = w.toNat % 256 * 256 + w.toNat / 256 := by
  have hw := w.isLt
  rw [swapBytes, BitVec.toNat_ofNat, Nat.mod_eq_of_lt (by omega)]

theorem swapBytes_swapBytes (w : Word) : swapBytes (swapBytes w) = w := by
  apply BitVec.eq_of_toNat_eq
  have hw := w.isLt
  rw [toNat_swapBytes, toNat_swapBytes]
  omega

theorem swapBytes_not (w : Word) : swapBytes (~~~ w) = ~~~ swapBytes w := by
  apply BitVec.eq_of_toNat_eq
  have hw := w.isLt
  rw [toNat_swapBytes, BitVec.toNat_not, BitVec.toNat_not, toNat_swapBytes]
  omega

theorem swapBytes_onesAdd (a b : Word) :
    swapBytes (onesAdd a b) = onesAdd (swapBytes a) (swapBytes b) := by
  apply BitVec.eq_of_toNat_eq
  have ha := a.isLt
  have hb := b.isLt
  simp only [toNat_swapBytes, toNat_onesAdd]
  split_ifs <;> omega

theorem onesSum_map_swapBytes (l : List Word) :
    onesSum (l.map swapBytes) = swapBytes (onesSum l) := by
  induction l with
  | nil => rfl
  | cons w l ih => rw [map_cons, onesSum, ih, onesSum, swapBytes_onesAdd]

/-- The words of a byte string with the first byte on top, and a 0 behind a last odd byte. -/
def beWords : List UInt8 → List Word
  | [] => []
  | [a] => [.ofNat 16 (a.toNat * 256)]
  | a :: b :: bs => .ofNat 16 (a.toNat * 256 + b.toNat) :: beWords bs

/-- The words of a byte string with the first byte at the bottom. -/
def leWords (bs : List UInt8) : List Word := (beWords bs).map swapBytes

theorem beWords_append {bs : List UInt8} (h : bs.length % 2 = 0) (cs : List UInt8) :
    beWords (bs ++ cs) = beWords bs ++ beWords cs := by
  induction bs using beWords.induct with
  | case1 => rfl
  | case2 a => cases h
  | case3 a b bs ih =>
    rw [cons_append, cons_append, beWords, beWords, ih, cons_append]
    rw [length_cons, length_cons] at h
    omega

end QcomModules.Library
