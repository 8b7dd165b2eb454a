import Mathlib

/-! Words as little-endian bytes, and a byte-addressed memory that is written and read in runs. -/

namespace QcomModules.Library

open List

abbrev Byte := BitVec 8

/-! ## Words -/

def bytes16 (w : BitVec 16) : List Byte := [w.setWidth 8, (w >>> 8).setWidth 8]

def bytes32 (w : BitVec 32) : List Byte :=
  [w.setWidth 8, (w >>> 8).setWidth 8, (w >>> 16).setWidth 8, (w >>> 24).setWidth 8]

/-- The 16-bit word whose bytes, lowest first, are `b₀` and `b₁`. -/
def word16 (b₀ b₁ : Byte) : BitVec 16 := BitVec.ofNat 16 (b₀.toNat + 2 ^ 8 * b₁.toNat)

def word32 (b₀ b₁ b₂ b₃ : Byte) : BitVec 32 :=
  BitVec.ofNat 32 (b₀.toNat + 2 ^ 8 * b₁.toNat + 2 ^ 16 * b₂.toNat + 2 ^ 24 * b₃.toNat)

@[simp] theorem length_bytes16 (w : BitVec 16) : (bytes16 w).length = 2 := rfl

@[simp] theorem length_bytes32 (w : BitVec 32) : (bytes32 w).length = 4 := rfl

variable {k a : ℕ} {w : BitVec 16} {bs : List Byte}

theorem byte_eq_iff {n : ℕ} (w : BitVec n) (b : Byte) :
    (w >>> k).setWidth 8 = b ↔ w.toNat / 2 ^ k % 2 ^ 8 = b.toNat := by
  rw [← BitVec.toNat_inj, BitVec.toNat_setWidth, BitVec.toNat_ushiftRight,
    Nat.shiftRight_eq_div_pow]

theorem bytes16_eq_iff (w : BitVec 16) (b₀ b₁ : Byte) :
    bytes16 w = [b₀, b₁] ↔ w = word16 b₀ b₁ := by
  have hlow : w.setWidth 8 = b₀ ↔ w.toNat % 2 ^ 8 = b₀.toNat := by
    rw [← BitVec.toNat_inj, BitVec.toNat_setWidth]
  rw [bytes16, cons.injEq, cons.injEq, hlow, byte_eq_iff, ← BitVec.toNat_inj, word16,
    BitVec.toNat_ofNat]
  have hw := w.isLt
  have h₀ := b₀.isLt
  have h₁ := b₁.isLt
  constructor
  · rintro ⟨_, _, _⟩
    omega
  · intro h
    refine ⟨?_, ?_, rfl⟩ <;> omega

theorem bytes32_eq_iff (w : BitVec 32) (b₀ b₁ b₂ b₃ : Byte) :
    bytes32 w = [b₀, b₁, b₂, b₃] ↔ w = word32 b₀ b₁ b₂ b₃ := by
  have hlow : w.setWidth 8 = b₀ ↔ w.toNat % 2 ^ 8 = b₀.toNat := by
    rw [← BitVec.toNat_inj, BitVec.toNat_setWidth]
  rw [bytes32, cons.injEq, cons.injEq, cons.injEq, cons.injEq, hlow,
    byte_eq_iff, byte_eq_iff, byte_eq_iff, ← BitVec.toNat_inj, word32, BitVec.toNat_ofNat]
  have hw := w.isLt
  have h₀ := b₀.isLt
  have h₁ := b₁.isLt
  have h₂ := b₂.isLt
  have h₃ := b₃.isLt
  constructor
  · rintro ⟨_, _, _, _, _⟩
    omega
  · intro h
    refine ⟨?_, ?_, ?_, ?_, rfl⟩ <;> omega

theorem bytes16_inj {v : BitVec 16} (h : bytes16 v = bytes16 w) : v = w := by
  rw [(bytes16_eq_iff v _ _).1 h, ← (bytes16_eq_iff w _ _).1 rfl]

theorem bytes32_inj {v w : BitVec 32} (h : bytes32 v = bytes32 w) : v = w := by
  rw [(bytes32_eq_iff v _ _ _ _).1 h, ← (bytes32_eq_iff w _ _ _ _).1 rfl]

/-! ## Memory -/

/-- What each address holds. -/
abbrev Mem := ℕ → Byte

def Mem.store (m : Mem) (a : ℕ) (bs : List Byte) : Mem := fun k =>
  if a ≤ k then bs.getD (k - a) (m k) else m k

def Mem.read16 (m : Mem) (a : ℕ) : BitVec 16 := word16 (m a) (m (a + 1))

def Mem.read32 (m : Mem) (a : ℕ) : BitVec 32 :=
  word32 (m a) (m (a + 1)) (m (a + 2)) (m (a + 3))

def Mem.read64 (m : Mem) (a : ℕ) : BitVec 64 := m.read32 (a + 4) ++ m.read32 a

/-- The bytes from an address on, each cut down to the bits of its mask. -/
def Mem.readMasked (m : Mem) : ℕ → List Byte → List Byte
  | _, [] => []
  | a, s :: ss => (m a &&& s) :: m.readMasked (a + 1) ss

@[simp] theorem Mem.length_readMasked (m : Mem) (a : ℕ) (ss : List Byte) :
    (m.readMasked a ss).length = ss.length := by
  induction ss generalizing a with
  | nil => rfl
  | cons s ss ih => rw [Mem.readMasked, length_cons, ih, length_cons]

theorem Mem.readMasked_append (m : Mem) (a : ℕ) (ss ts : List Byte) :
    m.readMasked a (ss ++ ts) = m.readMasked a ss ++ m.readMasked (a + ss.length) ts := by
  induction ss generalizing a with
  | nil => rfl
  | cons s ss ih =>
    rw [cons_append, Mem.readMasked, ih, Mem.readMasked, cons_append, length_cons,
      Nat.add_right_comm, Nat.add_assoc]

theorem Mem.getElem?_readMasked (m : Mem) (a : ℕ) (ss : List Byte) (j : ℕ) :
    (m.readMasked a ss)[j]? = ss[j]?.map (m (a + j) &&& ·) := by
  induction ss generalizing a j with
  | nil => rfl
  | cons s ss ih =>
    cases j with
    | zero => rfl
    | succ j =>
      rw [Mem.readMasked, getElem?_cons_succ, ih, getElem?_cons_succ,
        Nat.add_right_comm, Nat.add_assoc]

theorem Mem.readMasked_congr {m m' : Mem} {a a' : ℕ} {ss : List Byte}
    (h : ∀ j < ss.length, m (a + j) = m' (a' + j)) : m.readMasked a ss = m'.readMasked a' ss := by
  refine ext_getElem? fun j => ?_
  rw [Mem.getElem?_readMasked, Mem.getElem?_readMasked]
  by_cases hj : j < ss.length
  · rw [h j hj]
  · rw [getElem?_eq_none (Nat.le_of_not_lt hj), Option.map_none, Option.map_none]

theorem Mem.store_of_lt (m : Mem) (bs : List Byte) (h : k < a) :
    m.store a bs k = m k := if_neg (by omega)

theorem Mem.store_of_ge (m : Mem) (h : a + bs.length ≤ k) : m.store a bs k = m k := by
  rw [Mem.store, if_pos (by omega), getD_eq_default _ _ (by omega)]

theorem Mem.store_add (m : Mem) (a : ℕ) {j : ℕ} {b : Byte} (h : bs[j]? = some b) :
    m.store a bs (a + j) = b := by
  rw [Mem.store, if_pos (Nat.le_add_right a j), Nat.add_sub_cancel_left, getD_eq_getElem?_getD,
    h, Option.getD_some]

/-! ## Holding bytes -/

def Mem.Holds (m : Mem) (a : ℕ) (bs : List Byte) : Prop :=
  ∀ j b, bs[j]? = some b → m (a + j) = b

theorem Mem.holds_store (m : Mem) (a : ℕ) (bs : List Byte) : (m.store a bs).Holds a bs :=
  fun _ _ h => m.store_add a h

variable {m : Mem}

theorem Mem.Holds.store_behind {c : ℕ} (h : m.Holds a bs) (hle : a + bs.length ≤ c)
    (cs : List Byte) : (m.store c cs).Holds a bs := by
  intro j b hj
  have hlt := (List.getElem?_eq_some_iff.1 hj).1
  rw [Mem.store_of_lt m cs (by omega), h j b hj]

theorem Mem.Holds.left {cs : List Byte} (h : m.Holds a (bs ++ cs)) :
    m.Holds a bs := fun j b hj => h j b (by
  rw [getElem?_append_left (List.getElem?_eq_some_iff.1 hj).1, hj])

theorem Mem.Holds.right {m : Mem} {a : ℕ} {bs cs : List Byte} (h : m.Holds a (bs ++ cs)) :
    m.Holds (a + bs.length) cs := fun j b hj => by
  rw [Nat.add_assoc]
  exact h (bs.length + j) b (by
    rw [getElem?_append_right (Nat.le_add_right _ _), Nat.add_sub_cancel_left, hj])

theorem Mem.Holds.readMasked {ss : List Byte} (h : m.Holds a bs) (hlen : ss.length ≤ bs.length) :
    m.readMasked a ss = List.zipWith (· &&& ·) bs ss := by
  apply ext_getElem?
  intro j
  rw [Mem.getElem?_readMasked, getElem?_zipWith]
  by_cases hj : j < ss.length
  · have hj' : j < bs.length := Nat.lt_of_lt_of_le hj hlen
    rw [getElem?_eq_getElem hj, getElem?_eq_getElem hj', h j _ (getElem?_eq_getElem hj')]
    rfl
  · rw [getElem?_eq_none (show ss.length ≤ j by omega)]
    cases bs[j]? <;> rfl

theorem Mem.Holds.read16 (h : m.Holds a (bytes16 w)) : m.read16 a = w := by
  have h₀ : m a = w.setWidth 8 := h 0 _ rfl
  have h₁ : m (a + 1) = (w >>> 8).setWidth 8 := h 1 _ rfl
  rw [Mem.read16, h₀, h₁]
  exact ((bytes16_eq_iff w _ _).1 rfl).symm

theorem Mem.Holds.read32 {w : BitVec 32} (h : m.Holds a (bytes32 w)) : m.read32 a = w := by
  have h₀ : m a = w.setWidth 8 := h 0 _ rfl
  have h₁ : m (a + 1) = (w >>> 8).setWidth 8 := h 1 _ rfl
  have h₂ : m (a + 2) = (w >>> 16).setWidth 8 := h 2 _ rfl
  have h₃ : m (a + 3) = (w >>> 24).setWidth 8 := h 3 _ rfl
  rw [Mem.read32, h₀, h₁, h₂, h₃]
  exact ((bytes32_eq_iff w _ _ _ _).1 rfl).symm

end QcomModules.Library
