import QcomModules.HwFence.QueueRefinement

/-! What the result of `hw_fence_read_queue_helper` tells a caller that drains a queue. The
index after the read is compared in the unit of the header, the write index in dwords. -/

namespace QcomModules.HwFence

open Library List

/-- A queue as the device tree configures it: a whole number of payloads, and an index unit
that divides the payload. -/
structure QueueConfig where
  queue : MsmHwFenceQueue
  entries : ℕ
  size_eq : queue.qSizeBytes.toNat = 64 * entries
  factor_dvd : queue.rdWrIdxFactor.toNat ∣ payloadSizeU32.toNat

namespace QueueConfig

variable (c : QueueConfig)

/-- The header word naming slot `k`. -/
def word (k : ℕ) : UInt32 := defaultToCustom c.queue (UInt32.ofNat (16 * k))

/-- The queue holds `xs`, oldest first, from slot `r` up to slot `w`. -/
structure Pending (mem : QueueMem) (r w : ℕ) (xs : List MsmHwFenceQueuePayload) : Prop where
  read : mem.header.readIndex = c.word r
  write : mem.header.writeIndex = c.word w
  ring : RingHolds c.entries (ClientQueue.slot mem) r w xs

def read (mem : QueueMem) : ℤ × Option MsmHwFenceQueuePayload × QueueMem :=
  hwFenceReadQueueHelper c.queue mem

/-- A read returns 1 exactly if a payload is left after it, and 0 exactly if none is. -/
def TellsIfMore (mem : QueueMem) : Prop :=
  ∃ r w rest, c.Pending (c.read mem).2.2 r w rest ∧
    ((c.read mem).1 = 1 ↔ rest ≠ []) ∧ ((c.read mem).1 = 0 ↔ rest = [])

/-- The word that stands for slot `n` equals the dword index of slot `w` just if the two
slots are the same. -/
def Comparable (n w : ℕ) : Prop :=
  requiresIdxTranslation c.queue = true →
    ((16 * n / c.queue.rdWrIdxFactor.toNat + c.queue.rdWrIdxStart.toNat) % 2 ^ 32 = 16 * w ↔
      n = w)

/-- The reading side of a queue with at least two slots; it never looks at `skip_wr_idx`. -/
def reader (htwo : 2 ≤ c.entries) : ClientQueue where
  queue := { c.queue with skipWrIdx := false }
  entries := c.entries
  two_le_entries := htwo
  size_eq := c.size_eq
  factor_dvd := c.factor_dvd
  same_index_word := rfl
  drv := ⟨0⟩
  clientId := 1
  queueType := .tx
  has_lock := by decide

theorem read_reader (htwo : 2 ≤ c.entries) (mem : QueueMem) :
    c.read mem = (c.reader htwo).read mem := rfl

theorem word_reader (htwo : 2 ≤ c.entries) (k : ℕ) : c.word k = (c.reader htwo).word k := rfl

theorem entries_lt : c.entries < 2 ^ 26 := by
  have hlt := c.queue.qSizeBytes.toNat_lt
  have hsize := c.size_eq
  omega

theorem toNat_word {k : ℕ} (hk : k < c.entries) :
    (c.word k).toNat = if requiresIdxTranslation c.queue = true then
      (16 * k / c.queue.rdWrIdxFactor.toNat + c.queue.rdWrIdxStart.toNat) % 2 ^ 32
    else 16 * k := by
  have hlt := c.entries_lt
  have hidx : (UInt32.ofNat (16 * k)).toNat = 16 * k := by
    rw [UInt32.toNat_ofNat']
    omega
  rw [word, defaultToCustom]
  split
  · rw [idxTranslateDefaultToCustom, UInt32.toNat_add, UInt32.toNat_div, hidx]
  · exact hidx

variable {c} {mem : QueueMem} {r w : ℕ} {xs rest : List MsmHwFenceQueuePayload}
  {x : MsmHwFenceQueuePayload}

theorem Pending.two_le (h : c.Pending mem r w (x :: rest)) : 2 ≤ c.entries := by
  have hlt := h.ring.length_lt
  rw [length_cons] at hlt
  omega

theorem word_inj {j k : ℕ} (htwo : 2 ≤ c.entries) (hj : j < c.entries) (hk : k < c.entries)
    (h : c.word j = c.word k) : j = k := by
  have hj' := (c.reader htwo).customToDefault_word hj
  have hk' := (c.reader htwo).customToDefault_word hk
  rw [← c.word_reader htwo] at hj' hk'
  rw [h, hk'] at hj'
  omega

theorem Pending.eq_nil_iff (h : c.Pending mem r w xs) (htwo : 2 ≤ c.entries) :
    xs = [] ↔ mem.header.readIndex = mem.header.writeIndex := by
  rw [h.ring.eq_nil_iff, h.read, h.write]
  exact ⟨fun heq => by rw [heq], word_inj htwo h.ring.read_lt h.ring.write_lt⟩

theorem Pending.read_eq (h : c.Pending mem r w (x :: rest)) :
    (c.read mem).1 = (if (c.word (ringNext c.entries r)).toNat = 16 * w then 0 else 1) ∧
      c.Pending (c.read mem).2.2 (ringNext c.entries r) w rest := by
  have htwo := h.two_le
  have hr := (c.reader htwo).customToDefault_word h.ring.read_lt
  have hw := (c.reader htwo).customToDefault_word h.ring.write_lt
  have hnext := (c.reader htwo).advance_word h.ring.read_lt hr
  have hne : ¬16 * r = 16 * w := by
    have hslot := mt h.ring.eq_nil_iff.mpr (cons_ne_nil x rest)
    omega
  have hread : mem.header.readIndex = (c.reader htwo).word r := h.read
  have hwrite : mem.header.writeIndex = (c.reader htwo).word w := h.write
  have heq : c.read mem =
      (if (c.word (ringNext c.entries r)).toNat = 16 * w then 0 else 1,
        some (readPayload mem.vaQueue (16 * r)),
        { mem with header :=
            { mem.header with readIndex := c.word (ringNext c.entries r) } }) := by
    rw [c.read_reader htwo, ClientQueue.read, hwFenceReadQueueHelper]
    simp only [translateQueueIndexesCustomToDefault, hread, hwrite, hnext, ← UInt32.toNat_inj,
      hr, hw, if_neg hne]
    rfl
  rw [heq]
  exact ⟨rfl, rfl, h.write, h.ring.pop.2⟩

theorem Pending.tells_iff (h : c.Pending mem r w (x :: rest)) :
    c.TellsIfMore mem ↔ c.Comparable (ringNext c.entries r) w := by
  have htwo := h.two_le
  obtain ⟨hret, hafter⟩ := h.read_eq
  have hnext : ringNext c.entries r < c.entries := hafter.ring.read_lt
  have hnil : rest = [] ↔ ringNext c.entries r = w := hafter.ring.eq_nil_iff
  have htells : c.TellsIfMore mem ↔
      ((c.word (ringNext c.entries r)).toNat = 16 * w ↔ ringNext c.entries r = w) := by
    rw [← hnil]
    constructor
    · rintro ⟨r', w', rest', hpending, -, hzero⟩
      rw [hret, hpending.eq_nil_iff htwo, ← hafter.eq_nil_iff htwo] at hzero
      rw [← hzero]
      split
      · next heq => exact iff_of_true heq rfl
      · next hne => exact iff_of_false hne (by decide)
    · intro hiff
      refine ⟨_, w, rest, hafter, ?_⟩
      rw [hret]
      by_cases heq : rest = []
      · rw [if_pos (hiff.mpr heq)]
        exact ⟨iff_of_false (by decide) (not_not.mpr heq), iff_of_true rfl heq⟩
      · rw [if_neg (mt hiff.mp heq)]
        exact ⟨iff_of_true rfl heq, iff_of_false (by decide) heq⟩
  rw [htells, c.toNat_word hnext, Comparable]
  split
  · next hreq => simp only [hreq, true_imp_iff]
  · next hreq =>
      refine iff_of_true ?_ fun hreq' => absurd hreq' hreq
      omega

theorem tells_always_iff (htwo : 2 ≤ c.entries) :
    (∀ mem r w xs, c.Pending mem r w xs → xs ≠ [] → c.TellsIfMore mem) ↔
      requiresIdxTranslation c.queue = false := by
  constructor
  · intro hall
    by_contra htrans
    rw [Bool.not_eq_false] at htrans
    -- one payload in the last slot, then one in the first
    have hone : ∀ r < c.entries, c.Comparable (ringNext c.entries r) (ringNext c.entries r) := by
      intro r hr
      have hpending : c.Pending ⟨⟨c.word r, c.word (ringNext c.entries r), 0⟩, fun _ => 0⟩ r
          (ringNext c.entries r) [readPayload (fun _ => 0) 0] := by
        refine ⟨rfl, rfl, ?_⟩
        exact (RingHolds.nil _ hr).push (by rw [length_nil]; omega) rfl fun _ _ _ => rfl
      exact hpending.tells_iff.mp (hall _ _ _ _ hpending (cons_ne_nil _ _))
    have hzero := (hone (c.entries - 1) (by omega) htrans).mpr rfl
    have hsecond := (hone 0 (by omega) htrans).mpr rfl
    have hlast : ringNext c.entries (c.entries - 1) = 0 := if_neg (by omega)
    have hfirst : ringNext c.entries 0 = 1 := if_pos (by omega)
    rw [hlast] at hzero
    rw [hfirst] at hsecond
    have hstart := c.queue.rdWrIdxStart.toNat_lt
    simp only [requiresIdxTranslation, Bool.and_eq_true, Bool.or_eq_true, bne_iff_ne, ne_eq,
      ← UInt32.toNat_inj, decide_eq_true_eq, gt_iff_lt, UInt32.lt_iff_toNat_lt,
      UInt32.toNat_zero, UInt32.toNat_one] at htrans
    have hzeroStart : c.queue.rdWrIdxStart.toNat = 0 := by
      rw [Nat.mul_zero, Nat.zero_div, Nat.zero_add, Nat.mod_eq_of_lt hstart] at hzero
      exact hzero
    have hone' : 1 < c.queue.rdWrIdxFactor.toNat := htrans.2.resolve_left (not_not.mpr hzeroStart)
    have hhalf : 16 * 1 / c.queue.rdWrIdxFactor.toNat ≤ 16 * 1 / 2 :=
      Nat.div_le_div_left hone' (by decide)
    rw [hzeroStart, Nat.add_zero, Nat.mod_eq_of_lt (by omega)] at hsecond
    omega
  · intro hreq mem r w xs h hne
    obtain ⟨x, rest, rfl⟩ := exists_cons_of_ne_nil hne
    rw [h.tells_iff]
    intro htrue
    rw [hreq] at htrue
    cases htrue

/-- What the result says of the rest is right in the states where the two indexes can be
compared, and in all states of the queues without index translation only. -/
theorem read_result_tells_iff (c : QueueConfig) :
    (∀ mem r w x rest, c.Pending mem r w (x :: rest) →
      (c.TellsIfMore mem ↔ c.Comparable (ringNext c.entries r) w)) ∧
    (2 ≤ c.entries →
      ((∀ mem r w xs, c.Pending mem r w xs → xs ≠ [] → c.TellsIfMore mem) ↔
        requiresIdxTranslation c.queue = false)) :=
  ⟨fun _ _ _ _ _ h => h.tells_iff, tells_always_iff⟩

/-- Three payloads; the indexes count payloads from three on. -/
def threePayloads : QueueConfig where
  queue := { qSizeBytes := 192, rdWrIdxStart := 3, rdWrIdxFactor := 16, skipWrIdx := false }
  entries := 3
  size_eq := by decide
  factor_dvd := by decide

/-- Zeroed slots, read from the first one on and written up to the slot of `writeIndex`. -/
def threePayloadsMem (writeIndex : UInt32) : QueueMem :=
  ⟨⟨3, writeIndex, 0⟩, fun _ => 0⟩

theorem threePayloads_one :
    threePayloads.Pending (threePayloadsMem 4) 0 1 [readPayload (fun _ => 0) 0] :=
  ⟨by decide, by decide, (RingHolds.nil _ (by decide)).push (by decide) rfl fun _ _ _ => rfl⟩

theorem threePayloads_two :
    threePayloads.Pending (threePayloadsMem 5) 0 2
      [readPayload (fun _ => 0) 0, readPayload (fun _ => 0) 16] :=
  ⟨by decide, by decide, threePayloads_one.ring.push (by decide) rfl fun _ _ _ => rfl⟩

theorem read_result_tells_threePayloads : threePayloads.TellsIfMore (threePayloadsMem 5) :=
  ((read_result_tells_iff threePayloads).1 _ _ _ _ _ threePayloads_two).mpr fun _ => by decide

/-- The last payload is read, the queue is empty, and the result says that more is left. -/
theorem last_payload_tells_more :
    threePayloads.Pending (threePayloadsMem 4) 0 1 [readPayload (fun _ => 0) 0] ∧
      (threePayloads.read (threePayloadsMem 4)).1 = 1 ∧
      threePayloads.Pending (threePayloads.read (threePayloadsMem 4)).2.2 1 1 [] ∧
      ¬threePayloads.TellsIfMore (threePayloadsMem 4) := by
  refine ⟨threePayloads_one, by decide, threePayloads_one.read_eq.2, ?_⟩
  rintro ⟨r, w, rest, hpending, hone, -⟩
  exact hone.mp (by decide) ((hpending.eq_nil_iff (by decide)).mpr (by decide))

end QueueConfig

end QcomModules.HwFence
