import Mathlib.Data.Int.Notation
import Mathlib.Data.List.Basic

/-! The message queues between the driver and the firmware of the GMU, which shares their headers
and their memory: the words of a queue that a read and a write touch. Sizes are in words. -/

namespace QcomModules.Kgsl.Hfi

open List

def hfiQueueSize : UInt32 := 4096

/-- The `queue_size` that `init_queues` sets. -/
def queueSize : UInt32 := hfiQueueSize / 4

def hfiQueueStatusDisabled : UInt32 := 0

def eInval : ℤ := -22

def eNoData : ℤ := -61

def eMsgSize : ℤ := -90

def eNoSpc : ℤ := -28

structure HfiQueueHeader where
  status : UInt32
  readIndex : UInt32
  writeIndex : UInt32

def msgHdrGetSize (hdr : UInt32) : UInt32 := (hdr >>> 8) &&& 0xFF

/-- `ALIGN(x, SZ_4)`. -/
def align4 (x : UInt32) : UInt32 := (x + 3) / 4 * 4

/-- The indexes that a loop of `n` rounds goes through from `idx`, and the one behind them. -/
def ringIndexes : ℕ → UInt32 → List UInt32 × UInt32
  | 0, idx => ([], idx)
  | n + 1, idx =>
    let rest := ringIndexes n ((idx + 1) % queueSize)
    (idx :: rest.1, rest.2)

/-- What a read does: its result, the indexes of the queue it accesses, the bytes of the output
it clears, the words it puts there, and the index it leaves. -/
structure QueueRead where
  result : ℤ
  accessed : List UInt32
  cleared : UInt32
  output : List UInt32
  readIndex : UInt32

def gen8HfiQueueRead (hdr : HfiQueueHeader) (queue : UInt32 → UInt32) (maxSize : UInt32) :
    QueueRead :=
  if hdr.status = hfiQueueStatusDisabled then ⟨eInval, [], 0, [], hdr.readIndex⟩
  else if hdr.readIndex = hdr.writeIndex then ⟨eNoData, [], 0, [], hdr.readIndex⟩
  else
    let size := msgHdrGetSize (queue hdr.readIndex)
    if maxSize / 4 < size then ⟨eMsgSize, [hdr.readIndex], maxSize, [], hdr.readIndex⟩
    else if hdr.readIndex < queueSize then
      let words := ringIndexes (min size.toNat (maxSize / 4).toNat) hdr.readIndex
      ⟨size.toNat, hdr.readIndex :: words.1, maxSize, words.1.map queue,
        align4 words.2 % queueSize⟩
    else ⟨eNoData, [hdr.readIndex], maxSize, [], align4 hdr.readIndex % queueSize⟩

def emptySpace (hdr : HfiQueueHeader) : UInt32 :=
  if hdr.readIndex ≤ hdr.writeIndex then queueSize - (hdr.writeIndex - hdr.readIndex)
  else hdr.readIndex - hdr.writeIndex

/-- What a write does: its result, the indexes of the queue it accesses with the words it puts
there, and the index it leaves. -/
structure QueueWrite where
  result : ℤ
  accessed : List UInt32
  words : List UInt32
  writeIndex : UInt32

def gen8HfiQueueWrite (hdr : HfiQueueHeader) (msg : List UInt32) (sizeBytes : UInt32) :
    QueueWrite :=
  let sizeDwords := sizeBytes / 4
  let alignSize := align4 sizeDwords
  if hdr.status = hfiQueueStatusDisabled ∨ sizeBytes % 4 ≠ 0 then
    ⟨eInval, [], [], hdr.writeIndex⟩
  else if emptySpace hdr ≤ alignSize then ⟨eNoSpc, [], [], hdr.writeIndex⟩
  else
    let body := ringIndexes sizeDwords.toNat hdr.writeIndex
    let cookies := ringIndexes (alignSize - sizeDwords).toNat body.2
    ⟨0, body.1 ++ cookies.1,
      msg.take sizeDwords.toNat ++ replicate (alignSize - sizeDwords).toNat 0xfafafafa,
      cookies.2⟩

/-- Reads and writes touch the words of the queue only, and a read the bytes of the output. -/
structure QueueSafe (hdr : HfiQueueHeader) (queue : UInt32 → UInt32) (maxSize : UInt32)
    (msg : List UInt32) (sizeBytes : UInt32) : Prop where
  read : ∀ idx ∈ (gen8HfiQueueRead hdr queue maxSize).accessed, idx < queueSize
  write : ∀ idx ∈ (gen8HfiQueueWrite hdr msg sizeBytes).accessed, idx < queueSize
  cleared : (gen8HfiQueueRead hdr queue maxSize).cleared ≤ maxSize
  output : 4 * (gen8HfiQueueRead hdr queue maxSize).output.length ≤ maxSize.toNat

/-! ## The rounds of a loop -/

theorem mod_queueSize_lt (idx : UInt32) : idx % queueSize < queueSize := by
  rw [UInt32.lt_iff_toNat_lt, UInt32.toNat_mod]
  exact Nat.mod_lt _ (by decide)

theorem length_ringIndexes (n : ℕ) (idx : UInt32) : (ringIndexes n idx).1.length = n := by
  induction n generalizing idx with
  | zero => rfl
  | succ n ih => exact congrArg (· + 1) (ih _)

theorem ringIndexes_lt (n : ℕ) {idx : UInt32} (h : idx < queueSize) :
    (∀ i ∈ (ringIndexes n idx).1, i < queueSize) ∧ (ringIndexes n idx).2 < queueSize := by
  induction n generalizing idx with
  | zero => exact ⟨forall_mem_nil _, h⟩
  | succ n ih =>
    obtain ⟨hrest, hlast⟩ := ih (mod_queueSize_lt (idx + 1))
    exact ⟨forall_mem_cons.mpr ⟨h, hrest⟩, hlast⟩

theorem mem_ringIndexes {n : ℕ} (hn : n ≠ 0) (idx : UInt32) : idx ∈ (ringIndexes n idx).1 := by
  cases n with
  | zero => exact absurd rfl hn
  | succ n => exact mem_cons_self

/-! ## Reading and writing -/

section Bounds

variable {hdr : HfiQueueHeader} {queue : UInt32 → UInt32} {maxSize : UInt32}
  {msg : List UInt32} {sizeBytes : UInt32}

theorem read_accessed_iff :
    (∀ idx ∈ (gen8HfiQueueRead hdr queue maxSize).accessed, idx < queueSize) ↔
      (hdr.status ≠ hfiQueueStatusDisabled → hdr.readIndex ≠ hdr.writeIndex →
        hdr.readIndex < queueSize) := by
  rw [gen8HfiQueueRead]
  by_cases hstatus : hdr.status = hfiQueueStatusDisabled
  · rw [if_pos hstatus]
    exact iff_of_true (forall_mem_nil _) fun hne => absurd hstatus hne
  by_cases hempty : hdr.readIndex = hdr.writeIndex
  · rw [if_neg hstatus, if_pos hempty]
    exact iff_of_true (forall_mem_nil _) fun _ hne => absurd hempty hne
  rw [if_neg hstatus, if_neg hempty]
  simp only [ne_eq, hstatus, hempty, not_false_eq_true, forall_const]
  split_ifs with hbig hlt
  · exact forall_mem_singleton
  · exact iff_of_true (forall_mem_cons.mpr ⟨hlt, (ringIndexes_lt _ hlt).1⟩) hlt
  · exact forall_mem_singleton

theorem read_output :
    (gen8HfiQueueRead hdr queue maxSize).cleared ≤ maxSize ∧
      4 * (gen8HfiQueueRead hdr queue maxSize).output.length ≤ maxSize.toNat := by
  have hzero : (0 : UInt32) ≤ maxSize := UInt32.le_iff_toNat_le.mpr (Nat.zero_le _)
  rw [gen8HfiQueueRead]
  simp only
  split_ifs with hstatus hempty hbig hlt
  · exact ⟨hzero, Nat.zero_le _⟩
  · exact ⟨hzero, Nat.zero_le _⟩
  · exact ⟨UInt32.le_refl _, Nat.zero_le _⟩
  · refine ⟨UInt32.le_refl _, ?_⟩
    have hmin := Nat.min_le_right (msgHdrGetSize (queue hdr.readIndex)).toNat (maxSize / 4).toNat
    rw [UInt32.toNat_div, show (4 : UInt32).toNat = 4 from rfl] at hmin
    rw [length_map, length_ringIndexes, UInt32.toNat_div, show (4 : UInt32).toNat = 4 from rfl]
    omega
  · exact ⟨UInt32.le_refl _, Nat.zero_le _⟩

/-- The write index is not checked: a write that finds room begins at it. -/
theorem write_accessed_iff :
    (∀ idx ∈ (gen8HfiQueueWrite hdr msg sizeBytes).accessed, idx < queueSize) ↔
      (hdr.status ≠ hfiQueueStatusDisabled → sizeBytes % 4 = 0 → sizeBytes ≠ 0 →
        align4 (sizeBytes / 4) < emptySpace hdr → hdr.writeIndex < queueSize) := by
  rw [gen8HfiQueueWrite]
  by_cases hrefused : hdr.status = hfiQueueStatusDisabled ∨ sizeBytes % 4 ≠ 0
  · rw [if_pos hrefused]
    exact iff_of_true (forall_mem_nil _) fun hstatus haligned =>
      absurd (hrefused.resolve_left hstatus) (not_not_intro haligned)
  rw [if_neg hrefused]
  obtain ⟨hstatus, haligned⟩ := not_or.mp hrefused
  by_cases hspace : emptySpace hdr ≤ align4 (sizeBytes / 4)
  · rw [if_pos hspace]
    exact iff_of_true (forall_mem_nil _) fun _ _ _ hroom => absurd hspace (UInt32.not_le.mpr hroom)
  rw [if_neg hspace]
  constructor
  · intro hmem _ _ hne _
    apply hmem
    apply mem_append_left
    apply mem_ringIndexes
    intro hzero
    have hmod := UInt32.toNat_inj.mpr (not_not.mp haligned)
    rw [UInt32.toNat_div, show (4 : UInt32).toNat = 4 from rfl] at hzero
    rw [UInt32.toNat_mod, show (4 : UInt32).toNat = 4 from rfl, UInt32.toNat_zero] at hmod
    apply hne
    rw [← UInt32.toNat_inj, UInt32.toNat_zero]
    omega
  · intro hlt
    by_cases hzero : sizeBytes = 0
    · subst hzero
      exact forall_mem_nil _
    have hidx := hlt hstatus (not_not.mp haligned) hzero (UInt32.not_le.mp hspace)
    obtain ⟨hbody, hlast⟩ := ringIndexes_lt (sizeBytes / 4).toNat hidx
    exact forall_mem_append.mpr ⟨hbody, (ringIndexes_lt _ hlast).1⟩

end Bounds

/-- Whatever the firmware left in a header and in the queue, the driver stays inside where the
index it begins with is one of the queue. -/
theorem gmu_queueSafe_iff (hdr : HfiQueueHeader) (queue : UInt32 → UInt32) (maxSize : UInt32)
    (msg : List UInt32) (sizeBytes : UInt32) :
    QueueSafe hdr queue maxSize msg sizeBytes ↔
      (hdr.status ≠ hfiQueueStatusDisabled → hdr.readIndex ≠ hdr.writeIndex →
        hdr.readIndex < queueSize) ∧
      (hdr.status ≠ hfiQueueStatusDisabled → sizeBytes % 4 = 0 → sizeBytes ≠ 0 →
        align4 (sizeBytes / 4) < emptySpace hdr → hdr.writeIndex < queueSize) :=
  ⟨fun h => ⟨read_accessed_iff.mp h.read, write_accessed_iff.mp h.write⟩, fun h =>
    ⟨read_accessed_iff.mpr h.1, write_accessed_iff.mpr h.2, read_output.1, read_output.2⟩⟩

/-- The header of a message is read from behind the queue where the firmware moves the read index
there. -/
theorem read_leaves_queue : ¬ QueueSafe ⟨1, 5000, 0⟩ (fun _ => 0) 4096 [0x100] 4 := by
  intro h
  exact absurd (h.read 5000 mem_cons_self) (by decide)

end QcomModules.Kgsl.Hfi
