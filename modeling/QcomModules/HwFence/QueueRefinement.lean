import QcomModules.HwFence.Queue

/-! A client queue refines the first-in first-out queue with one slot fewer than it has. -/

namespace QcomModules.HwFence

open Library

/-- A queue of a registered client: a whole number of payloads, an index unit that divides
the payload, one write index word for both sides, and, for an Rx queue, a lock of its own. -/
structure ClientQueue where
  queue : MsmHwFenceQueue
  entries : ℕ
  two_le_entries : 2 ≤ entries
  size_eq : queue.qSizeBytes.toNat = 64 * entries
  factor_dvd : queue.rdWrIdxFactor.toNat ∣ payloadSizeU32.toNat
  same_index_word : queue.skipWrIdx = false
  drv : LockTable
  clientId : UInt32
  queueType : QueueType
  has_lock : lockClientQueue queueType →
    (clientId - 1) * hwFenceLockIdxOffset < drv.clientLockTblCnt

/-! ## Index translation -/

@[simp] theorem payloadSizeU32_toNat : payloadSizeU32.toNat = 16 := by decide

private theorem factor_cases {f : ℕ} (h : f ∣ 16) : f = 1 ∨ f = 2 ∨ f = 4 ∨ f = 8 ∨ f = 16 := by
  have hle : f ≤ 16 := Nat.le_of_dvd (by decide) h
  interval_cases f <;> omega

theorem customToDefault_defaultToCustom (queue : MsmHwFenceQueue)
    (hf : queue.rdWrIdxFactor.toNat ∣ 16) {idx : UInt32} {k : ℕ} (hk : idx.toNat = 16 * k) :
    customToDefault queue (defaultToCustom queue idx) = idx := by
  unfold customToDefault defaultToCustom
  split
  · apply UInt32.toNat_inj.mp
    have hidx := idx.toNat_lt
    have hstart := queue.rdWrIdxStart.toNat_lt
    simp only [idxTranslateCustomToDefault, idxTranslateDefaultToCustom, UInt32.toNat_mul,
      UInt32.toNat_sub, UInt32.toNat_add, UInt32.toNat_div]
    rcases factor_cases hf with h | h | h | h | h <;> rw [h] <;> omega
  · rfl

namespace ClientQueue

variable (q : ClientQueue)

/-- The header word naming slot `k`. -/
def word (k : ℕ) : UInt32 := defaultToCustom q.queue (UInt32.ofNat (16 * k))

theorem entries_lt : q.entries < 2 ^ 26 := by
  have hlt := q.queue.qSizeBytes.toNat_lt
  have hsize := q.size_eq
  omega

variable {k r w : ℕ} {mem : QueueMem} {xs : List MsmHwFenceQueuePayload}

theorem ofNat_toNat (hk : k < q.entries) : (UInt32.ofNat (16 * k)).toNat = 16 * k := by
  have hlt := q.entries_lt
  rw [UInt32.toNat_ofNat']
  omega

theorem customToDefault_word (hk : k < q.entries) :
    (customToDefault q.queue (q.word k)).toNat = 16 * k := by
  have hidx := q.ofNat_toNat hk
  rw [word, customToDefault_defaultToCustom q.queue q.factor_dvd hidx, hidx]

theorem qSizeU32_toNat : (q.queue.qSizeBytes / 4).toNat = 16 * q.entries := by
  rw [UInt32.toNat_div, q.size_eq, show (4 : UInt32).toNat = 4 from rfl]
  omega

/-- The index after an access to slot `k`, wrapped and translated, names the next slot. -/
theorem advance_word {idx : UInt32} (hk : k < q.entries) (hidx : idx.toNat = 16 * k) :
    defaultToCustom q.queue
        (if idx + payloadSizeU32 ≥ q.queue.qSizeBytes / 4 then 0 else idx + payloadSizeU32) =
      q.word (ringNext q.entries k) := by
  have hlt := q.entries_lt
  have hadd : (idx + payloadSizeU32).toNat = 16 * (k + 1) := by
    rw [UInt32.toNat_add, hidx, payloadSizeU32_toNat]
    omega
  unfold word
  congr 1
  by_cases hwrap : k + 1 < q.entries
  · have hlow : ¬ idx + payloadSizeU32 ≥ q.queue.qSizeBytes / 4 := by
      rw [ge_iff_le, UInt32.le_iff_toNat_le, hadd, q.qSizeU32_toNat]
      omega
    rw [if_neg hlow, ringNext, if_pos hwrap]
    apply UInt32.toNat_inj.mp
    rw [hadd, q.ofNat_toNat hwrap]
  · have hhigh : idx + payloadSizeU32 ≥ q.queue.qSizeBytes / 4 := by
      rw [ge_iff_le, UInt32.le_iff_toNat_le, hadd, q.qSizeU32_toNat]
      omega
    rw [if_pos hhigh, ringNext, if_neg hwrap]
    rfl

/-! ## Representation -/

/-- The payload in slot `k`. -/
def slot (mem : QueueMem) (k : ℕ) : MsmHwFenceQueuePayload := readPayload mem.vaQueue (16 * k)

/-- The memory represents the pending payloads `xs`, oldest first. -/
def Represents (mem : QueueMem) (xs : List MsmHwFenceQueuePayload) : Prop :=
  ∃ r w, mem.header.readIndex = q.word r ∧ mem.header.writeIndex = q.word w ∧
    RingHolds q.entries (slot mem) r w xs

/-- Both indexes name one slot. -/
def Idle (mem : QueueMem) : Prop :=
  ∃ k < q.entries, mem.header.readIndex = q.word k ∧ mem.header.writeIndex = q.word k

theorem Idle.represents_nil {q : ClientQueue} (h : q.Idle mem) : q.Represents mem [] := by
  obtain ⟨k, hk, hr, hw⟩ := h
  exact ⟨k, k, hr, hw, .nil _ hk⟩

def update (payload : MsmHwFenceQueuePayload) (mem : QueueMem) : ℤ × QueueMem :=
  hwFenceUpdateQueueHelper q.drv q.clientId q.queue payload q.queueType mem

def read (mem : QueueMem) : ℤ × Option MsmHwFenceQueuePayload × QueueMem :=
  hwFenceReadQueueHelper q.queue mem

theorem readPayload_writePayload_self (va : ℕ → BitVec 32) (idx : ℕ)
    (p : MsmHwFenceQueuePayload) : readPayload (writePayload va idx p) idx = p := by
  apply MsmHwFenceQueuePayload.ofDwords_dword
  intro i hi
  simp [writePayload, hi]

theorem readPayload_writePayload_other (va : ℕ → BitVec 32) {j : ℕ} (h : j ≠ k)
    (p : MsmHwFenceQueuePayload) :
    readPayload (writePayload va (16 * k) p) (16 * j) = readPayload va (16 * j) := by
  have hother : ∀ i, i < 16 → writePayload va (16 * k) p (16 * j + i) = va (16 * j + i) := by
    intro i hi
    simp only [writePayload, payloadSizeU32_toNat]
    rw [if_neg]
    omega
  have hfirst := hother 0 (by decide)
  rw [Nat.add_zero] at hfirst
  simp [readPayload, MsmHwFenceQueuePayload.ofDwords, hother, hfirst]

/-- The free-space test of the update refuses exactly the last slot. -/
theorem free_le_iff (h : RingHolds q.entries (slot mem) r w xs) {ri wi : UInt32}
    (hri : ri.toNat = 16 * r) (hwi : wi.toNat = 16 * w) :
    (if ri ≤ wi then q.queue.qSizeBytes / 4 - (wi - ri) else ri - wi) ≤ payloadSizeU32 ↔
      xs.length = q.entries - 1 := by
  have hlt := q.entries_lt
  have hr := h.read_lt
  have hw := h.write_lt
  have hlen := h.length_eq
  have htwo := q.two_le_entries
  have hsize := q.qSizeU32_toNat
  rw [UInt32.le_iff_toNat_le]
  by_cases hle : r ≤ w
  · have hcmp : ri ≤ wi := by
      rw [UInt32.le_iff_toNat_le]
      omega
    have hdiff : (wi - ri).toNat = 16 * (w - r) := by
      rw [UInt32.toNat_sub, hri, hwi]
      omega
    rw [if_pos hcmp, UInt32.toNat_sub, hsize, hdiff, payloadSizeU32_toNat]
    rw [if_pos hle] at hlen
    omega
  · have hcmp : ¬ ri ≤ wi := by
      rw [UInt32.le_iff_toNat_le]
      omega
    rw [if_neg hcmp, UInt32.toNat_sub, hri, hwi, payloadSizeU32_toNat]
    rw [if_neg hle] at hlen
    omega

theorem update_eq (hri : mem.header.readIndex = q.word r) (hwi : mem.header.writeIndex = q.word w)
    (h : RingHolds q.entries (slot mem) r w xs) (p : MsmHwFenceQueuePayload) :
    q.update p mem =
      if xs.length = q.entries - 1 then (eInval, mem)
      else (0, { header := { mem.header with writeIndex := q.word (ringNext q.entries w) }
                 vaQueue := writePayload mem.vaQueue (16 * w) p }) := by
  have hlock : ¬ (lockClientQueue q.queueType ∧
      (q.clientId - 1) * hwFenceLockIdxOffset ≥ q.drv.clientLockTblCnt) := by
    rintro ⟨hl, hge⟩
    exact absurd (q.has_lock hl) (by simpa using hge)
  have hr := q.customToDefault_word h.read_lt
  have hw := q.customToDefault_word h.write_lt
  unfold update hwFenceUpdateQueueHelper translateQueueIndexesCustomToDefault
  simp only [writeWord, setWriteWord, q.same_index_word, hri, hwi, if_neg hlock,
    q.free_le_iff h hr hw, Bool.false_eq_true, if_false, q.advance_word h.write_lt hw]
  simp only [hw]

theorem read_eq (hri : mem.header.readIndex = q.word r) (hwi : mem.header.writeIndex = q.word w)
    (h : RingHolds q.entries (slot mem) r w xs) :
    ∃ more, more ≠ eInval ∧ q.read mem =
      if xs = [] then (eInval, none, mem)
      else (more, some (slot mem r),
        { mem with header := { mem.header with readIndex := q.word (ringNext q.entries r) } }) := by
  have hr := q.customToDefault_word h.read_lt
  have hw := q.customToDefault_word h.write_lt
  have hempty : customToDefault q.queue (q.word r) = customToDefault q.queue (q.word w) ↔
      xs = [] := by
    rw [← UInt32.toNat_inj, hr, hw, h.eq_nil_iff]
    omega
  refine ⟨if q.word (ringNext q.entries r) = customToDefault q.queue (q.word w) then 0 else 1,
    by unfold eInval; split <;> decide, ?_⟩
  unfold read hwFenceReadQueueHelper translateQueueIndexesCustomToDefault
  simp only [hri, hwi, hempty, q.advance_word h.read_lt hr, slot]
  simp only [hr]

theorem update_represents (h : q.Represents mem xs) (p : MsmHwFenceQueuePayload) :
    (xs.length < q.entries - 1 ∧ (q.update p mem).1 = 0 ∧
      q.Represents (q.update p mem).2 (xs ++ [p])) ∨
    (xs.length = q.entries - 1 ∧ q.update p mem = (eInval, mem)) := by
  obtain ⟨r, w, hri, hwi, hring⟩ := h
  have hlt := hring.length_lt
  have htwo := q.two_le_entries
  rw [q.update_eq hri hwi hring p]
  by_cases hfull : xs.length = q.entries - 1
  · exact .inr ⟨hfull, by rw [if_pos hfull]⟩
  · rw [if_neg hfull]
    refine .inl ⟨by omega, rfl, r, ringNext q.entries w, hri, rfl, ?_⟩
    refine hring.push (by omega) (readPayload_writePayload_self _ _ p) ?_
    intro j _ hj
    exact readPayload_writePayload_other _ hj p

theorem read_represents (h : q.Represents mem xs) :
    (xs = [] ∧ q.read mem = (eInval, none, mem)) ∨
    (∃ x rest, xs = x :: rest ∧ (q.read mem).1 ≠ eInval ∧ (q.read mem).2.1 = some x ∧
      q.Represents (q.read mem).2.2 rest) := by
  obtain ⟨r, w, hri, hwi, hring⟩ := h
  obtain ⟨more, hmore, heq⟩ := q.read_eq hri hwi hring
  cases xs with
  | nil => exact .inl ⟨rfl, by rw [heq, if_pos rfl]⟩
  | cons x rest =>
    rw [if_neg (List.cons_ne_nil x rest)] at heq
    obtain ⟨hx, hrest⟩ := hring.pop
    refine .inr ⟨x, rest, rfl, ?_⟩
    rw [heq]
    exact ⟨hmore, by rw [hx], ringNext q.entries r, w, rfl, hwi, hrest⟩

/-! ## Runs -/

/-- One call on the queue and what its caller learns from it. -/
def step (mem : QueueMem) : FifoOp MsmHwFenceQueuePayload →
    QueueMem × FifoOut MsmHwFenceQueuePayload
  | .write p =>
    let (ret, mem') := q.update p mem
    (mem', if ret = 0 then .written else .full)
  | .read =>
    match q.read mem with
    | (_, some p, mem') => (mem', .got p)
    | (_, none, mem') => (mem', .empty)

theorem step_refines (h : q.Represents mem xs) (op : FifoOp MsmHwFenceQueuePayload) :
    q.Represents (q.step mem op).1 (fifoStep (q.entries - 1) xs op).1 ∧
      (q.step mem op).2 = (fifoStep (q.entries - 1) xs op).2 := by
  cases op with
  | write p =>
    rcases q.update_represents h p with ⟨hlt, hret, hrep⟩ | ⟨hfull, heq⟩
    · simp only [step, fifoStep, hlt, if_true, hret]
      exact ⟨hrep, trivial⟩
    · have hnot : ¬ xs.length < q.entries - 1 := by omega
      simp only [step, fifoStep, hnot, if_false, heq]
      exact ⟨h, by rw [if_neg (by decide)]⟩
  | read =>
    rcases q.read_represents h with ⟨rfl, heq⟩ | ⟨x, rest, rfl, _, hpay, hrep⟩
    · simp only [step, fifoStep, heq]
      exact ⟨h, trivial⟩
    · simp only [step, fifoStep]
      split
      next ret p mem' hread =>
        rw [hread] at hpay hrep
        simp only [Option.some.injEq] at hpay
        exact ⟨hrep, by rw [hpay]⟩
      next ret mem' hread =>
        rw [hread] at hpay
        cases hpay

/-- Every run on an idle queue gives the outputs of a first-in first-out queue of capacity
`entries - 1`. In the state reached a write fails, changing nothing, exactly when that many
payloads are pending, and a read returns `-EINVAL` exactly when none is. -/
theorem run_refines_bounded_fifo {mem : QueueMem} (hidle : q.Idle mem)
    (ops : List (FifoOp MsmHwFenceQueuePayload)) :
    let reached := (runOutputs q.step mem ops).1
    let pending := (runOutputs (fifoStep (q.entries - 1)) [] ops).1
    (runOutputs q.step mem ops).2 = (runOutputs (fifoStep (q.entries - 1)) [] ops).2 ∧
      (∀ p, (q.update p reached).1 ≠ 0 ↔ pending.length = q.entries - 1) ∧
      (∀ p, (q.update p reached).1 ≠ 0 → (q.update p reached).2 = reached) ∧
      ((q.read reached).1 = eInval ↔ pending = []) := by
  intro reached pending
  obtain ⟨hrep, hout⟩ := runOutputs_simulates (R := q.Represents)
    (fun _ _ op h => q.step_refines h op) hidle.represents_nil ops
  refine ⟨hout, ?_, ?_, ?_⟩
  · intro p
    rcases q.update_represents hrep p with ⟨hlt, hret, _⟩ | ⟨hfull, heq⟩
    · exact iff_of_false (by simp [reached, hret]) (by simp only [pending]; omega)
    · exact iff_of_true (by simp only [reached, heq]; decide) hfull
  · intro p hfail
    rcases q.update_represents hrep p with ⟨_, hret, _⟩ | ⟨_, heq⟩
    · exact absurd hret hfail
    · simp only [reached, heq]
  · rcases q.read_represents hrep with ⟨hnil, heq⟩ | ⟨x, rest, hcons, hret, _, _⟩
    · exact iff_of_true (by simp only [reached, heq]) hnil
    · exact iff_of_false hret (by simp only [pending, hcons]; simp)

end ClientQueue

/-- A Tx queue of two payloads whose indexes count payloads from three on. -/
def sampleClientQueue : ClientQueue where
  queue := { qSizeBytes := 128, rdWrIdxStart := 3, rdWrIdxFactor := 16, skipWrIdx := false }
  entries := 2
  two_le_entries := by decide
  size_eq := by decide
  factor_dvd := by decide
  same_index_word := rfl
  drv := { clientLockTblCnt := 0 }
  clientId := 5
  queueType := .tx
  has_lock := by decide

def sampleQueueMem : QueueMem where
  header := { readIndex := 3, writeIndex := 3, txWm := 0 }
  vaQueue := fun _ => 0

theorem sampleQueueMem_idle : sampleClientQueue.Idle sampleQueueMem :=
  ⟨0, by decide, by decide, by decide⟩

/-- A payload that differs from the others in its `seqno`. -/
def samplePayload (seqno : BitVec 64) : MsmHwFenceQueuePayload where
  size := 64
  type := 1
  version := 0x100
  ctxtId := 7
  seqno := seqno
  hash := 2
  flags := 0
  clientData := 0
  error := 0
  timestampLo := 0
  timestampHi := 0
  reserve := 0

/-- The second write finds the queue full, the first payload comes back, then none is left. -/
theorem sample_queue_run_refines_bounded_fifo :
    sampleClientQueue.Idle sampleQueueMem ∧
      (runOutputs sampleClientQueue.step sampleQueueMem
        [.write (samplePayload 1), .write (samplePayload 2), .read, .read]).2 =
        [.written, .full, .got (samplePayload 1), .empty] :=
  ⟨sampleQueueMem_idle,
    (sampleClientQueue.run_refines_bounded_fifo sampleQueueMem_idle _).1.trans (by decide)⟩

end QcomModules.HwFence
