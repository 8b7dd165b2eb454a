import Mathlib.Data.Nat.ModEq
import QcomModules.Library.Runs

/-! The bounded first-in first-out queue and its representation in a ring of slots. -/

namespace QcomModules.Library

open List

variable {α : Type*}

inductive FifoOp (α : Type*) where
  | write (x : α)
  | read
deriving Repr, DecidableEq

/-- What a queue operation reports: a write is taken or refused, a read yields the
oldest element or nothing. -/
inductive FifoOut (α : Type*) where
  | written
  | full
  | got (x : α)
  | empty
deriving Repr, DecidableEq

/-- One operation of the first-in first-out queue holding at most `cap` elements. -/
def fifoStep (cap : ℕ) : List α → FifoOp α → List α × FifoOut α
  | xs, .write x => if xs.length < cap then (xs ++ [x], .written) else (xs, .full)
  | [], .read => ([], .empty)
  | x :: xs, .read => (xs, .got x)

/-! ## Rings of slots -/

/-- The slot after `i` in a ring of `n` slots. -/
def ringNext (n i : ℕ) : ℕ := if i + 1 < n then i + 1 else 0

theorem ringNext_lt {n i : ℕ} (hn : 0 < n) : ringNext n i < n := by
  unfold ringNext
  split <;> omega

theorem ringNext_mod {n : ℕ} (hn : 0 < n) (i : ℕ) : ringNext n (i % n) = (i + 1) % n := by
  have hlt := Nat.mod_lt i hn
  rw [ringNext, ← Nat.mod_add_mod]
  by_cases hlast : i % n + 1 < n
  · rw [if_pos hlast, Nat.mod_eq_of_lt hlast]
  · have hwrap : i % n + 1 = n := by omega
    rw [if_neg hlast, hwrap, Nat.mod_self]

/-- Slots `r, r + 1, ...` of a ring of `n` slots hold `xs`, and `w` is the next free one.
Fewer than `n` elements are pending, so equal cursors mean an empty ring. -/
structure RingHolds (n : ℕ) (slot : ℕ → α) (r w : ℕ) (xs : List α) : Prop where
  read_lt : r < n
  length_lt : xs.length < n
  write_eq : w = (r + xs.length) % n
  contents : ∀ k (hk : k < xs.length), slot ((r + k) % n) = xs[k]

namespace RingHolds

variable {n r w : ℕ} {slot : ℕ → α} {xs : List α}

theorem write_lt (h : RingHolds n slot r w xs) : w < n := by
  have hr := h.read_lt
  rw [h.write_eq]
  exact Nat.mod_lt _ (by omega)

theorem nil (slot : ℕ → α) (hr : r < n) : RingHolds n slot r r [] where
  read_lt := hr
  length_lt := by simpa using (show 0 < n by omega)
  write_eq := by simp [Nat.mod_eq_of_lt hr]
  contents := by simp

theorem length_eq (h : RingHolds n slot r w xs) :
    xs.length = if r ≤ w then w - r else n + w - r := by
  have hr := h.read_lt
  have hl := h.length_lt
  have hw := h.write_eq
  by_cases hwrap : r + xs.length < n
  · rw [Nat.mod_eq_of_lt hwrap] at hw
    rw [if_pos (by omega)]
    omega
  · rw [Nat.mod_eq_sub_mod (by omega), Nat.mod_eq_of_lt (by omega)] at hw
    rw [if_neg (by omega)]
    omega

theorem eq_nil_iff (h : RingHolds n slot r w xs) : xs = [] ↔ r = w := by
  have hr := h.read_lt
  have hw := h.write_lt
  have hl := h.length_eq
  rw [← length_eq_zero_iff, hl]
  split <;> omega

private theorem add_succ_mod {n r k : ℕ} (hr : r < n) :
    (ringNext n r + k) % n = (r + (k + 1)) % n := by
  unfold ringNext
  split
  · congr 1
    omega
  · have hwrap : r + (k + 1) = k + n := by omega
    rw [hwrap, Nat.add_mod_right, Nat.zero_add]

variable {slot' : ℕ → α} {x : α}

theorem push (h : RingHolds n slot r w xs) (hroom : xs.length + 1 < n) (hx : slot' w = x)
    (hframe : ∀ j, j < n → j ≠ w → slot' j = slot j) :
    RingHolds n slot' r (ringNext n w) (xs ++ [x]) where
  read_lt := h.read_lt
  length_lt := by simpa using hroom
  write_eq := by
    have hstep := add_succ_mod (k := 0) h.write_lt
    have hlt := ringNext_lt (n := n) (i := w) (by omega)
    rw [Nat.add_zero, Nat.mod_eq_of_lt hlt, Nat.zero_add] at hstep
    rw [hstep, h.write_eq, Nat.mod_add_mod, length_append, length_singleton,
      Nat.add_assoc]
  contents := by
    intro k hk
    have hr := h.read_lt
    simp only [length_append, length_singleton] at hk
    by_cases hlast : k < xs.length
    · have hne : (r + k) % n ≠ w := by
        rw [h.write_eq]
        intro heq
        have hmod : k % n = xs.length % n :=
          Nat.ModEq.add_left_cancel' r (show r + k ≡ r + xs.length [MOD n] from heq)
        rw [Nat.mod_eq_of_lt (by omega), Nat.mod_eq_of_lt (by omega)] at hmod
        omega
      rw [hframe _ (Nat.mod_lt _ (by omega)) hne, h.contents k hlast]
      simp [hlast]
    · have hkeq : k = xs.length := by omega
      subst hkeq
      rw [← h.write_eq, hx]
      simp

theorem pop (h : RingHolds n slot r w (x :: xs)) :
    slot r = x ∧ RingHolds n slot (ringNext n r) w xs := by
  have hr := h.read_lt
  have hl := h.length_lt
  simp only [length_cons] at hl
  refine ⟨?_, ?_⟩
  · have h0 := h.contents 0 (by simp)
    rwa [Nat.add_zero, Nat.mod_eq_of_lt hr] at h0
  · refine ⟨ringNext_lt (by omega), by omega, ?_, ?_⟩
    · rw [add_succ_mod hr]
      exact h.write_eq
    · intro k hk
      rw [add_succ_mod hr]
      exact h.contents (k + 1) (by simpa using hk)

theorem slot_ne {i j : ℕ} (hij : i ≠ j) (hi : i < n) (hj : j < n) :
    (r + i) % n ≠ (r + j) % n := by
  intro heq
  have hmod : i % n = j % n := Nat.ModEq.add_left_cancel' r (show r + i ≡ r + j [MOD n] from heq)
  rw [Nat.mod_eq_of_lt hi, Nat.mod_eq_of_lt hj] at hmod
  exact hij hmod

theorem free_slot (h : RingHolds n slot r w xs) (k : ℕ) :
    (w + k) % n = (r + (xs.length + k)) % n := by
  rw [h.write_eq, Nat.mod_add_mod, Nat.add_assoc]

theorem pushAll {ys : List α} (h : RingHolds n slot r w xs) (hroom : xs.length + ys.length < n)
    (hys : ∀ k (hk : k < ys.length), slot' ((w + k) % n) = ys[k])
    (hframe : ∀ j, j < n → (∀ k < ys.length, j ≠ (w + k) % n) → slot' j = slot j) :
    RingHolds n slot' r ((w + ys.length) % n) (xs ++ ys) where
  read_lt := h.read_lt
  length_lt := by rwa [length_append]
  write_eq := by rw [h.free_slot, length_append]
  contents := by
    intro k hk
    rw [length_append] at hk
    by_cases hold : k < xs.length
    · have hsame : slot' ((r + k) % n) = slot ((r + k) % n) := by
        apply hframe _ (Nat.mod_lt _ (by omega))
        intro i hi
        rw [h.free_slot]
        exact slot_ne (by omega) (by omega) (by omega)
      rw [hsame, h.contents k hold, getElem_append_left hold]
    · have hnew := hys (k - xs.length) (by omega)
      rw [h.free_slot, Nat.add_sub_of_le (by omega)] at hnew
      rw [hnew, getElem_append_right (by omega)]

theorem nodup (h : RingHolds n slot r w xs)
    (hslot : ∀ i < n, ∀ j < n, slot i = slot j → i = j) : xs.Nodup := by
  have hr := h.read_lt
  have hl := h.length_lt
  rw [Nodup, pairwise_iff_getElem]
  intro i j hi hj hij heq
  have hsame : slot ((r + i) % n) = slot ((r + j) % n) := by
    rw [h.contents i hi, h.contents j hj, heq]
  exact slot_ne (by omega) (hi.trans hl) (hj.trans hl)
    (hslot _ (Nat.mod_lt _ (by omega)) _ (Nat.mod_lt _ (by omega)) hsame)

theorem popAll {ys : List α} (h : RingHolds n slot r w (ys ++ xs)) :
    (∀ k (hk : k < ys.length), slot ((r + k) % n) = ys[k]) ∧
      RingHolds n slot ((r + ys.length) % n) w xs := by
  have hl := h.length_lt
  rw [length_append] at hl
  refine ⟨?_, Nat.mod_lt _ (by omega), by omega, ?_, ?_⟩
  · intro k hk
    rw [h.contents k (by rw [length_append]; omega), getElem_append_left hk]
  · rw [h.write_eq, Nat.mod_add_mod, length_append, Nat.add_assoc]
  · intro k hk
    rw [Nat.mod_add_mod, Nat.add_assoc, h.contents _ (by rw [length_append]; omega),
      getElem_append_right (by omega)]
    simp only [Nat.add_sub_cancel_left]

theorem truncate {ys : List α} (h : RingHolds n slot r w (xs ++ ys)) :
    RingHolds n slot r ((r + xs.length) % n) xs where
  read_lt := h.read_lt
  length_lt := by
    have hl := h.length_lt
    rw [length_append] at hl
    omega
  write_eq := rfl
  contents := by
    intro k hk
    rw [h.contents k (by rw [length_append]; omega), getElem_append_left hk]

end RingHolds

/-! ## Rings under running counters -/

/-- The slots of a ring of `n` slots hold `xs` from that of element number `taken` on. All of
the slots may be in use: the counters that go with the ring tell a full one from an empty one. -/
structure CountedRing (n : ℕ) (slot : ℕ → α) (taken : ℕ) (xs : List α) : Prop where
  length_le : xs.length ≤ n
  contents : ∀ k (hk : k < xs.length), slot ((taken + k) % n) = xs[k]

namespace CountedRing

variable {n taken : ℕ} {slot : ℕ → α} {xs : List α}

theorem nil (n : ℕ) (slot : ℕ → α) (taken : ℕ) : CountedRing n slot taken [] where
  length_le := Nat.zero_le n
  contents := by simp

theorem push (h : CountedRing n slot taken xs) (hroom : xs.length < n) (x : α) :
    CountedRing n (Function.update slot ((taken + xs.length) % n) x) taken (xs ++ [x]) where
  length_le := by
    rw [length_append, length_singleton]
    exact hroom
  contents := by
    intro k hk
    rw [length_append, length_singleton] at hk
    by_cases hlast : k = xs.length
    · subst hlast
      rw [Function.update_self, getElem_concat_length rfl]
    · have hne : (taken + k) % n ≠ (taken + xs.length) % n :=
        RingHolds.slot_ne hlast (by omega) hroom
      rw [Function.update_of_ne hne, h.contents k (by omega),
        getElem_append_left (by omega)]

theorem pop {x : α} (h : CountedRing n slot taken (x :: xs)) :
    slot (taken % n) = x ∧ CountedRing n slot (taken + 1) xs := by
  refine ⟨h.contents 0 (Nat.succ_pos _), (Nat.le_succ _).trans h.length_le, ?_⟩
  intro k hk
  rw [Nat.add_right_comm, Nat.add_assoc]
  exact h.contents (k + 1) (Nat.succ_lt_succ hk)

end CountedRing

/-! ## Copies of consecutive slots -/

/-- The slots from `i` on filled with `xs`. -/
def fillSlots (slot : ℕ → α) (i : ℕ) (xs : List α) : ℕ → α :=
  fun j => if h : i ≤ j ∧ j - i < xs.length then xs[j - i] else slot j

/-- The contents of `k` slots from `i` on. -/
def readSlots (slot : ℕ → α) (i k : ℕ) : List α := (List.range k).map fun j => slot (i + j)

theorem fillSlots_add {slot : ℕ → α} {i k : ℕ} {xs : List α} (hk : k < xs.length) :
    fillSlots slot i xs (i + k) = xs[k] := by
  have hin : i ≤ i + k ∧ i + k - i < xs.length := by omega
  rw [fillSlots, dif_pos hin]
  simp only [Nat.add_sub_cancel_left]

theorem fillSlots_of_out {slot : ℕ → α} {i j : ℕ} {xs : List α}
    (h : j < i ∨ i + xs.length ≤ j) : fillSlots slot i xs j = slot j := by
  rw [fillSlots, dif_neg (by omega)]

theorem length_readSlots (slot : ℕ → α) (i k : ℕ) : (readSlots slot i k).length = k := by
  rw [readSlots, length_map, length_range]

theorem readSlots_eq {slot : ℕ → α} {i len : ℕ} {xs : List α} (hlen : xs.length = len)
    (h : ∀ k (hk : k < xs.length), slot (i + k) = xs[k]) : readSlots slot i len = xs := by
  refine ext_getElem ((length_readSlots ..).trans hlen.symm) ?_
  intro k _ hk
  simp only [readSlots, getElem_map, getElem_range]
  exact h k hk

namespace RingHolds

variable {n r w : ℕ} {slot : ℕ → α} {xs ys : List α}

theorem fill (h : RingHolds n slot r w xs) (hroom : xs.length + ys.length < n)
    (hfit : w + ys.length < n) :
    RingHolds n (fillSlots slot w ys) r (w + ys.length) (xs ++ ys) := by
  have hpush : RingHolds n (fillSlots slot w ys) r ((w + ys.length) % n) (xs ++ ys) := by
    refine h.pushAll hroom ?_ ?_
    · intro k hk
      rw [Nat.mod_eq_of_lt (by omega), fillSlots_add hk]
    · intro j _ hj
      apply fillSlots_of_out
      by_contra hin
      refine hj (j - w) (by omega) ?_
      rw [Nat.mod_eq_of_lt (by omega)]
      omega
  rwa [Nat.mod_eq_of_lt hfit] at hpush

/-- Elements that pass the end of the ring are appended by two copies, the second one
from the first slot on. -/
theorem fillWrapped {rest : ℕ} (h : RingHolds n slot r w xs)
    (hroom : xs.length + ys.length < n) (hrest : w + ys.length = rest + n) :
    RingHolds n (fillSlots (fillSlots slot w (ys.take (ys.length - rest))) 0
      (ys.drop (ys.length - rest))) r rest (xs ++ ys) := by
  have hw := h.write_lt
  have htake : (ys.take (ys.length - rest)).length = n - w := by
    rw [length_take]
    omega
  have hdrop : (ys.drop (ys.length - rest)).length = rest := by
    rw [length_drop]
    omega
  have hpush : RingHolds n (fillSlots (fillSlots slot w (ys.take (ys.length - rest))) 0
      (ys.drop (ys.length - rest))) r ((w + ys.length) % n) (xs ++ ys) := by
    refine h.pushAll hroom ?_ ?_
    · intro k hk
      by_cases hfirst : w + k < n
      · have hout : w + k < 0 ∨ 0 + (ys.drop (ys.length - rest)).length ≤ w + k := by omega
        rw [Nat.mod_eq_of_lt hfirst, fillSlots_of_out hout, fillSlots_add (by omega),
          getElem_take]
      · have hmod : (w + k) % n = 0 + (w + k - n) := by
          rw [Nat.mod_eq_sub_mod (by omega), Nat.mod_eq_of_lt (by omega), Nat.zero_add]
        rw [hmod, fillSlots_add (by omega), getElem_drop]
        congr 1
        omega
    · intro j hj hne
      have hlow : rest ≤ j := by
        by_contra hlt
        refine hne (n - w + j) (by omega) ?_
        have hsum : w + (n - w + j) = j + n := by omega
        rw [hsum, Nat.add_mod_right, Nat.mod_eq_of_lt hj]
      have hhigh : j < w := by
        by_contra hge
        refine hne (j - w) (by omega) ?_
        rw [Nat.add_sub_of_le (by omega), Nat.mod_eq_of_lt hj]
      rw [fillSlots_of_out (by omega), fillSlots_of_out (by omega)]
  rwa [hrest, Nat.add_mod_right, Nat.mod_eq_of_lt (by omega)] at hpush

theorem read_eq (h : RingHolds n slot r w (ys ++ xs)) (hfit : r + ys.length ≤ n) :
    readSlots slot r ys.length = ys := by
  apply readSlots_eq rfl
  intro k hk
  have hslot := h.popAll.1 k hk
  rwa [Nat.mod_eq_of_lt (by omega)] at hslot

theorem readWrapped_eq {rest : ℕ} (h : RingHolds n slot r w (ys ++ xs))
    (hrest : r + ys.length = rest + n) :
    readSlots slot r (ys.length - rest) ++ readSlots slot 0 rest = ys := by
  have hr := h.read_lt
  have hl := h.length_lt
  rw [length_append] at hl
  have htake : (ys.take (ys.length - rest)).length = ys.length - rest := by
    rw [length_take]
    omega
  have hdrop : (ys.drop (ys.length - rest)).length = rest := by
    rw [length_drop]
    omega
  have hfirst : readSlots slot r (ys.length - rest) = ys.take (ys.length - rest) := by
    apply readSlots_eq htake
    intro k hk
    have hslot := h.popAll.1 k (by omega)
    rw [Nat.mod_eq_of_lt (by omega)] at hslot
    rw [hslot, getElem_take]
  have hsecond : readSlots slot 0 rest = ys.drop (ys.length - rest) := by
    apply readSlots_eq hdrop
    intro k hk
    have hslot := h.popAll.1 (ys.length - rest + k) (by omega)
    have hsum : r + (ys.length - rest + k) = 0 + k + n := by omega
    rw [hsum, Nat.add_mod_right, Nat.mod_eq_of_lt (by omega)] at hslot
    rw [hslot, getElem_drop]
  rw [hfirst, hsecond, take_append_drop]

end RingHolds

end QcomModules.Library
