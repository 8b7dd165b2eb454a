import QcomModules.Vidc.HfiQueue

/-! The memory that the interface queues touch, whatever the firmware left in the indexes and in
the queue. The index arithmetic of the driver is in 32 bits. -/

namespace QcomModules.Vidc

open List

/-! ## Accesses -/

/-- `VIDC_IFACEQ_QUEUE_SIZE`, the `mem_size` of every queue, in bytes. -/
def vidcIfaceqQueueSize : UInt32 := 1024 * 50 * 16

/-- `mem_size >> 2`. -/
def queueWords : UInt32 := vidcIfaceqQueueSize >>> 2

/-- The bytes that one copy touches in a memory. -/
structure Copy where
  start : ℕ
  len : ℕ

/-- All bytes of the copy are among the first `n`. -/
def Copy.Within (c : Copy) (n : ℕ) : Prop := ∀ b, c.start ≤ b → b < c.start + c.len → b < n

def emptySpace (readIdx writeIdx : UInt32) : UInt32 :=
  if readIdx ≤ writeIdx then queueWords - (writeIdx - readIdx) else readIdx - writeIdx

def packetSizeInWords (packetSize : UInt32) : UInt32 := packetSize >>> 2

/-- `__write_queue` for a packet whose first word is `packetSize`: its return value and what it
copies into the queue memory. -/
def writeAccesses (readIdx writeIdx packetSize : UInt32) : ℤ × List Copy :=
  let size := packetSizeInWords packetSize
  if size = 0 ∨ queueWords < size then (eNoData, [])
  else if emptySpace readIdx writeIdx ≤ size then (eNotEmpty, [])
  else if vidcIfaceqQueueSize < writeIdx <<< 2 then (eNoData, [])
  else
    let newWriteIdx := writeIdx + size
    if newWriteIdx < queueWords then (0, [⟨(writeIdx <<< 2).toNat, (size <<< 2).toNat⟩])
    else
      let rest := newWriteIdx - queueWords
      (0, [⟨(writeIdx <<< 2).toNat, ((size - rest) <<< 2).toNat⟩, ⟨0, (rest <<< 2).toNat⟩])

/-- What `__read_queue` returns, reads from the queue memory and writes to the packet. -/
structure ReadAccesses where
  rc : ℤ
  queue : List Copy
  packet : List Copy

def readAccesses (qArray : ℕ → UInt32) (readIdx writeIdx : UInt32) : ReadAccesses :=
  let start := (readIdx <<< 2).toNat
  let size := packetSizeInWords (qArray (start / 4))
  if readIdx = writeIdx then ⟨eNoData, [], []⟩
  else if vidcIfaceqQueueSize - (4 : UInt32) < readIdx <<< 2 then ⟨eNoData, [], []⟩
  else if size = 0 then ⟨eNoData, [⟨start, 4⟩], []⟩
  else if (size <<< 2).toNat ≤ vidcIfaceqVarHugePktSize ∧ readIdx ≤ queueWords then
    let newReadIdx := readIdx + size
    if newReadIdx < queueWords then
      ⟨0, [⟨start, 4⟩, ⟨start, (size <<< 2).toNat⟩], [⟨0, (size <<< 2).toNat⟩]⟩
    else
      let rest := newReadIdx - queueWords
      let first := ((size - rest) <<< 2).toNat
      ⟨0, [⟨start, 4⟩, ⟨start, first⟩, ⟨0, (rest <<< 2).toNat⟩],
        [⟨0, first⟩, ⟨first, (rest <<< 2).toNat⟩]⟩
  else ⟨eNoData, [⟨start, 4⟩], []⟩

/-- Both operations stay inside the queue memory, and a read inside the packet buffer. -/
structure QueueSafe (qArray : ℕ → UInt32) (readIdx writeIdx packetSize : UInt32) : Prop where
  write : ∀ c ∈ (writeAccesses readIdx writeIdx packetSize).2, c.Within (4 * queueWords.toNat)
  read : ∀ c ∈ (readAccesses qArray readIdx writeIdx).queue, c.Within (4 * queueWords.toNat)
  packet : ∀ c ∈ (readAccesses qArray readIdx writeIdx).packet, c.Within vidcIfaceqVarHugePktSize

/-! ## 32-bit arithmetic -/

section Arithmetic

variable (x : UInt32)

theorem toNat_shl2 : (x <<< 2).toNat = x.toNat * 4 % 2 ^ 32 := by
  rw [UInt32.toNat_shiftLeft, show (2 : UInt32).toNat % 32 = 2 from rfl, Nat.shiftLeft_eq]

theorem packetSizeInWords_lt : (packetSizeInWords x).toNat < 2 ^ 30 := by
  have hlt := x.toNat_lt
  rw [packetSizeInWords, UInt32.toNat_shiftRight, show (2 : UInt32).toNat % 32 = 2 from rfl,
    Nat.shiftRight_eq_div_pow]
  omega

theorem toNat_queueWords : queueWords.toNat = 204800 := rfl

theorem toNat_vidcIfaceqQueueSize : vidcIfaceqQueueSize.toNat = 819200 := rfl

theorem toNat_pos_of_ne_zero (h : x ≠ 0) : 0 < x.toNat :=
  Nat.pos_of_ne_zero fun hzero => h (UInt32.toNat_inj.mp hzero)

end Arithmetic

theorem Copy.within_of_le {start len n : ℕ} (h : start + len ≤ n) : (Copy.mk start len).Within n :=
  fun _ _ hb => hb.trans_le h

/-! ## Reading -/

section Bounds

variable {qArray : ℕ → UInt32} {readIdx writeIdx packetSize : UInt32}

theorem readAccesses_within :
    (∀ c ∈ (readAccesses qArray readIdx writeIdx).queue, c.Within (4 * queueWords.toNat)) ∧
      ∀ c ∈ (readAccesses qArray readIdx writeIdx).packet, c.Within vidcIfaceqVarHugePktSize := by
  rw [readAccesses]
  have hquarter := packetSizeInWords_lt (qArray ((readIdx <<< 2).toNat / 4))
  generalize packetSizeInWords (qArray ((readIdx <<< 2).toNat / 4)) = size at hquarter ⊢
  simp only
  split_ifs with _ hrange hzero hcheck hfits
  · exact ⟨forall_mem_nil _, forall_mem_nil _⟩
  · exact ⟨forall_mem_nil _, forall_mem_nil _⟩
  all_goals
    have hstart : (readIdx <<< 2).toNat ≤ 819200 - 4 :=
      UInt32.le_iff_toNat_le.mp (UInt32.not_lt.mp hrange)
    have hfetch : (Copy.mk (readIdx <<< 2).toNat 4).Within (4 * queueWords.toNat) :=
      Copy.within_of_le (by rw [toNat_queueWords]; omega)
  · exact ⟨forall_mem_singleton.mpr hfetch, forall_mem_nil _⟩
  pick_goal 3
  · exact ⟨forall_mem_singleton.mpr hfetch, forall_mem_nil _⟩
  all_goals
    obtain ⟨hhuge, hidx⟩ := hcheck
    have hpos := toNat_pos_of_ne_zero size hzero
    have hlt := size.toNat_lt
    rw [UInt32.le_iff_toNat_le, toNat_queueWords] at hidx
    rw [toNat_shl2, vidcIfaceqVarHugePktSize] at hhuge
    rw [toNat_shl2] at hstart
    rw [UInt32.lt_iff_toNat_lt, UInt32.toNat_add, toNat_queueWords] at hfits
  · have hend : (Copy.mk (readIdx <<< 2).toNat (size <<< 2).toNat).Within
        (4 * queueWords.toNat) := Copy.within_of_le (by
      simp only [toNat_shl2, toNat_queueWords]
      omega)
    refine ⟨forall_mem_cons.mpr ⟨hfetch, forall_mem_singleton.mpr hend⟩,
      forall_mem_singleton.mpr (Copy.within_of_le ?_)⟩
    simp only [toNat_shl2, vidcIfaceqVarHugePktSize]
    omega
  · have hrest : (readIdx + size - queueWords).toNat = readIdx.toNat + size.toNat - 204800 := by
      rw [UInt32.toNat_sub, UInt32.toNat_add, toNat_queueWords]
      omega
    have hfirst : (size - (readIdx + size - queueWords)).toNat = 204800 - readIdx.toNat := by
      rw [UInt32.toNat_sub, hrest]
      omega
    refine ⟨forall_mem_cons.mpr ⟨hfetch, forall_mem_cons.mpr ⟨Copy.within_of_le ?_,
      forall_mem_singleton.mpr (Copy.within_of_le ?_)⟩⟩, forall_mem_cons.mpr
        ⟨Copy.within_of_le ?_, forall_mem_singleton.mpr (Copy.within_of_le ?_)⟩⟩
    all_goals
      simp only [toNat_shl2, hrest, hfirst, toNat_queueWords, vidcIfaceqVarHugePktSize]
      omega

/-! ## Writing -/

/-- The index has bits that the shift to a byte offset drops, and the packet is not to go around
the end of the queue: the copy around the end is then taken nevertheless. -/
def Overruns (readIdx writeIdx packetSize : UInt32) : Prop :=
  0 < packetSizeInWords packetSize ∧
    packetSizeInWords packetSize < emptySpace readIdx writeIdx ∧ 2 ^ 30 ≤ writeIdx.toNat ∧
    writeIdx.toNat % 2 ^ 30 + (packetSizeInWords packetSize).toNat < queueWords.toNat

theorem writeAccesses_within_iff :
    (∀ c ∈ (writeAccesses readIdx writeIdx packetSize).2, c.Within (4 * queueWords.toNat)) ↔
      ¬ Overruns readIdx writeIdx packetSize := by
  rw [writeAccesses, Overruns]
  have hquarter := packetSizeInWords_lt packetSize
  have hlt := writeIdx.toNat_lt
  generalize packetSizeInWords packetSize = size at hquarter ⊢
  simp only
  split_ifs with hsize hspace hrange hfits
  · refine iff_of_true (forall_mem_nil _) fun hover => ?_
    rw [UInt32.lt_iff_toNat_lt, toNat_queueWords] at hsize
    rw [UInt32.lt_iff_toNat_lt, toNat_queueWords, show (0 : UInt32).toNat = 0 from rfl] at hover
    rcases hsize with rfl | hsize
    · exact Nat.lt_irrefl 0 hover.1
    · omega
  · exact iff_of_true (forall_mem_nil _) fun hover => absurd hspace (UInt32.not_le.mpr hover.2.1)
  · refine iff_of_true (forall_mem_nil _) fun hover => ?_
    rw [UInt32.lt_iff_toNat_lt, toNat_shl2, toNat_vidcIfaceqQueueSize] at hrange
    rw [toNat_queueWords] at hover
    omega
  all_goals
    rw [not_or, UInt32.not_lt, UInt32.le_iff_toNat_le, toNat_queueWords] at hsize
    have hpos := toNat_pos_of_ne_zero size hsize.1
    rw [UInt32.not_lt, UInt32.le_iff_toNat_le, toNat_shl2, toNat_vidcIfaceqQueueSize] at hrange
    rw [UInt32.lt_iff_toNat_lt, UInt32.toNat_add, toNat_queueWords] at hfits
  · refine iff_of_true (forall_mem_singleton.mpr (Copy.within_of_le ?_)) fun hover => ?_
    · simp only [toNat_shl2, toNat_queueWords]
      omega
    · rw [toNat_queueWords] at hover
      omega
  · have hrest : (writeIdx + size - queueWords).toNat =
        (writeIdx.toNat + size.toNat + (2 ^ 32 - 204800)) % 2 ^ 32 := by
      rw [UInt32.toNat_sub, UInt32.toNat_add, toNat_queueWords]
      omega
    have hfirst : ((size - (writeIdx + size - queueWords)) <<< 2).toNat =
        819200 - writeIdx.toNat % 2 ^ 30 * 4 := by
      rw [toNat_shl2, UInt32.toNat_sub, hrest]
      omega
    rw [toNat_queueWords]
    constructor
    · rintro hcopies ⟨-, -, hhigh, hover⟩
      have hbyte := hcopies _ (mem_cons_of_mem _ mem_cons_self) 819200 (Nat.zero_le _)
      simp only [toNat_shl2, hrest] at hbyte
      omega
    · intro hover
      refine forall_mem_cons.mpr ⟨Copy.within_of_le ?_,
        forall_mem_singleton.mpr (Copy.within_of_le ?_)⟩
      · simp only [hfirst, toNat_shl2]
        omega
      · have hhigh : 2 ^ 30 ≤ writeIdx.toNat → 204800 ≤ writeIdx.toNat % 2 ^ 30 + size.toNat := by
          intro hhigh
          by_contra hlow
          exact hover ⟨UInt32.lt_iff_toNat_lt.mpr hpos, UInt32.not_le.mp hspace, hhigh,
            Nat.lt_of_not_le hlow⟩
        simp only [toNat_shl2, hrest]
        omega

end Bounds

/-- Whatever the firmware left in the indexes and in the memory, reads and writes stay inside the
queue and the packet buffer except for the write of a packet that overruns. -/
theorem queueSafe_iff (qArray : ℕ → UInt32) (readIdx writeIdx packetSize : UInt32) :
    QueueSafe qArray readIdx writeIdx packetSize ↔ ¬ Overruns readIdx writeIdx packetSize :=
  ⟨fun h => writeAccesses_within_iff.mp h.write, fun h =>
    ⟨writeAccesses_within_iff.mpr h, readAccesses_within.1, readAccesses_within.2⟩⟩

/-- A packet of one word is copied far behind the end of the memory where both indexes are
`0x40000000`: the length of the second copy wraps. -/
theorem write_overruns_queue : ¬ QueueSafe (fun _ => 0) 0x40000000 0x40000000 4 := by
  intro h
  have hbyte := h.write ⟨0, 4294148100⟩ (mem_cons_of_mem _ mem_cons_self) 819200
  exact absurd (hbyte (by decide) (by decide)) (by decide)

end QcomModules.Vidc
