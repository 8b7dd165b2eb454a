import Mathlib.Data.List.Basic

/-! Ranges of a list, and how they fall on the parts of an append. -/

namespace QcomModules.Library

open List

universe u

variable {α : Type u}

/-- The elements from `off` on, `len` at most. -/
def slice (off len : ℕ) (xs : List α) : List α :=
  (xs.drop off).take len

theorem length_slice (off len : ℕ) (xs : List α) :
    (slice off len xs).length = min len (xs.length - off) := by
  rw [slice, length_take, length_drop]

@[simp] theorem slice_nil (off len : ℕ) : slice off len ([] : List α) = [] := by
  rw [slice, drop_nil, take_nil]

@[simp] theorem slice_zero_len (off : ℕ) (xs : List α) : slice off 0 xs = [] :=
  take_zero

theorem slice_zero (len : ℕ) (xs : List α) : slice 0 len xs = xs.take len := rfl

variable {off : ℕ} {xs : List α}

theorem slice_append_of_le (h : xs.length ≤ off) (len : ℕ) (ys : List α) :
    slice off len (xs ++ ys) = slice (off - xs.length) len ys := by
  rw [slice, slice, drop_append, drop_eq_nil_of_le h, nil_append]

theorem slice_append_of_lt {len : ℕ} (h : off < xs.length) (ys : List α) :
    slice off len (xs ++ ys) =
      slice off (min len (xs.length - off)) xs ++ ys.take (len - (xs.length - off)) := by
  have hdrop : (xs ++ ys).drop off = xs.drop off ++ ys := by
    rw [drop_append, Nat.sub_eq_zero_of_le (Nat.le_of_lt h), drop_zero]
  rw [slice, slice, hdrop, take_append, length_drop]
  congr 1
  rw [take_eq_take_iff, length_drop]
  omega

theorem slice_append_of_add_le {len : ℕ} (h : off + len ≤ xs.length) (ys : List α) :
    slice off len (xs ++ ys) = slice off len xs := by
  rw [slice, slice, drop_append_of_le_length (by omega),
    take_append_of_le_length (by rw [length_drop]; omega)]

end QcomModules.Library
