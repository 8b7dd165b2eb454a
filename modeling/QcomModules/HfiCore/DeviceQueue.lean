import QcomModules.HfiCore.Wrappers
import QcomModules.Library.Fifo

/-! The device side of the HFI queues: `get_hfi_buffer_device_queue` takes what the driver publishes
in the shared vring, and `set_hfi_buffer_device_queue` gives it back through the used ring. -/

namespace QcomModules.HfiCore

open Library List

def ENODATA : ℤ := 61

structure VringDesc where
  addr : UInt64
  len : UInt32
  deriving DecidableEq

structure VringUsedElem where
  id : UInt32
  len : UInt32
  deriving DecidableEq

/-- `struct vring`, in shared memory. -/
structure Vring where
  desc : UInt16 → VringDesc
  availRing : ℕ → UInt16
  availIdx : UInt16
  usedRing : ℕ → VringUsedElem
  usedIdx : UInt16

/-- The vring, what the device side keeps in its handle, and how far the driver, which follows
`used->idx`, has read the used ring. -/
structure DeviceQueue where
  ring : Vring
  availIdx : UInt32
  lastUsedIdx : UInt16

namespace DeviceQueue

def created : DeviceQueue where
  ring := ⟨fun _ => ⟨0, 0⟩, fun _ => 0, 0, fun _ => ⟨0, 0⟩, 0⟩
  availIdx := 0
  lastUsedIdx := 0

end DeviceQueue

/-- The slot that a counter is masked to, in a ring of `size` slots. -/
def ringSlot (size idx : UInt32) : ℕ := (idx &&& (size - 1)).toNat

/-- `set_hfi_buffer_device_queue`; no payload stands for `NULL` and for a wrong size. -/
def setHfiBufferDeviceQueue (size : UInt32) (q : DeviceQueue) :
    Option HfiQueueBuffer → ℤ × DeviceQueue
  | none => (-EINVAL, q)
  | some buffer =>
    if size ≤ buffer.idx then (-EINVAL, q)
    else
      (0, { q with
        ring := { q.ring with
          usedRing := Function.update q.ring.usedRing
            (ringSlot size q.ring.usedIdx.toUInt32) ⟨buffer.idx, buffer.bufLen⟩
          usedIdx := q.ring.usedIdx + 1 } })

/-- `get_hfi_buffer_device_queue`: result, the buffer filled in, queue. The 16 bits of
`avail->idx` are compared with the 32 bits of the position kept in the handle. -/
def getHfiBufferDeviceQueue (size : UInt32) (q : DeviceQueue) (payloadOk : Bool) :
    ℤ × Option HfiQueueBuffer × DeviceQueue :=
  if !payloadOk then (-EINVAL, none, q)
  else if q.ring.availIdx.toUInt32 = q.availIdx then (-ENODATA, none, q)
  else
    let availIdx := q.ring.availRing (ringSlot size q.availIdx)
    let desc := q.ring.desc availIdx
    (0, some ⟨desc.addr, desc.addr, desc.len, availIdx.toUInt32⟩,
      { q with availIdx := q.availIdx + 1 })

/-! ## The driver on the other side -/

/-- The driver fills a descriptor and publishes it in the next slot of the avail ring. -/
def DeviceQueue.publish (size : UInt32) (q : DeviceQueue) (id : UInt16) (desc : VringDesc) :
    DeviceQueue :=
  { q with
    ring := { q.ring with
      desc := Function.update q.ring.desc id desc
      availRing := Function.update q.ring.availRing
        (ringSlot size q.ring.availIdx.toUInt32) id
      availIdx := q.ring.availIdx + 1 } }

/-- The driver reads the next entry of the used ring, if there is one. -/
def DeviceQueue.collect (size : UInt32) (q : DeviceQueue) : Option VringUsedElem × DeviceQueue :=
  if q.ring.usedIdx = q.lastUsedIdx then (none, q)
  else
    (some (q.ring.usedRing (ringSlot size q.lastUsedIdx.toUInt32)),
      { q with lastUsedIdx := q.lastUsedIdx + 1 })

inductive DeviceOp
  | publish (id : UInt16) (desc : VringDesc)
  | get (payloadOk : Bool)
  | set (payload : Option HfiQueueBuffer)
  | collect
  deriving DecidableEq

inductive DeviceOut
  | published
  | got (ret : ℤ) (buffer : Option HfiQueueBuffer)
  | set (ret : ℤ)
  | collected (entry : Option VringUsedElem)
  deriving DecidableEq

def deviceStep (size : UInt32) (q : DeviceQueue) : DeviceOp → DeviceQueue × DeviceOut
  | .publish id desc => (q.publish size id desc, .published)
  | .get payloadOk =>
    let (ret, buffer, q) := getHfiBufferDeviceQueue size q payloadOk
    (q, .got ret buffer)
  | .set payload =>
    let (ret, q) := setHfiBufferDeviceQueue size q payload
    (q, .set ret)
  | .collect =>
    let (entry, q) := q.collect size
    (q, .collected entry)

/-! ## The two queues it stands for -/

/-- The buffers published and not yet got, and the entries set and not yet collected, with the
numbers of those that were got and collected. -/
structure DeviceFifos where
  published : List (UInt16 × VringDesc)
  got : ℕ
  used : List VringUsedElem
  collected : ℕ
  deriving DecidableEq

namespace DeviceFifos

def created : DeviceFifos := ⟨[], 0, [], 0⟩

def get (t : DeviceFifos) : DeviceFifos × DeviceOut :=
  match t.published with
  | [] => (t, .got (-ENODATA) none)
  | (id, desc) :: rest =>
    ({ t with published := rest, got := t.got + 1 },
      .got 0 (some ⟨desc.addr, desc.addr, desc.len, id.toUInt32⟩))

def set (size : UInt32) (t : DeviceFifos) (buffer : HfiQueueBuffer) : DeviceFifos × DeviceOut :=
  if size ≤ buffer.idx then (t, .set (-EINVAL))
  else ({ t with used := t.used ++ [⟨buffer.idx, buffer.bufLen⟩] }, .set 0)

def collect (t : DeviceFifos) : DeviceFifos × DeviceOut :=
  match t.used with
  | [] => (t, .collected none)
  | entry :: rest =>
    ({ t with used := rest, collected := t.collected + 1 }, .collected (some entry))

def step (size : UInt32) (t : DeviceFifos) : DeviceOp → DeviceFifos × DeviceOut
  | .publish id desc => ({ t with published := t.published ++ [(id, desc)] }, .published)
  | .get true => t.get
  | .get false => (t, .got (-EINVAL) none)
  | .set (some buffer) => t.set size buffer
  | .set none => (t, .set (-EINVAL))
  | .collect => t.collect

/-- What the two sides keep to: a buffer is published while fewer than `size` are waiting, and
leaves the descriptors of those as they are; an entry is set while the driver has fewer than
`size` of them to read. -/
def Allows (size : UInt32) (t : DeviceFifos) : DeviceOp → Prop
  | .publish id desc =>
    t.published.length < size.toNat ∧ ∀ b ∈ t.published, b.1 = id → b.2 = desc
  | .set (some buffer) => buffer.idx < size → t.used.length < size.toNat
  | .get _ | .set none | .collect => True

instance (size : UInt32) (t : DeviceFifos) : ∀ op, Decidable (t.Allows size op)
  | .publish _ _ => inferInstanceAs (Decidable (_ ∧ _))
  | .set (some _) => inferInstanceAs (Decidable (_ → _))
  | .get _ | .set none | .collect => inferInstanceAs (Decidable True)

/-- The empty queue is not asked for a buffer once the count of those that were got, kept in 32
bits, has left the range of the 16 bits of `avail->idx`. -/
def InRange (t : DeviceFifos) : DeviceOp → Prop
  | .get true => t.published = [] → t.got % 2 ^ 32 < 2 ^ 16
  | _ => True

instance (t : DeviceFifos) : ∀ op, Decidable (t.InRange op)
  | .get true => inferInstanceAs (Decidable (_ → _))
  | .get false | .publish _ _ | .set _ | .collect => inferInstanceAs (Decidable True)

end DeviceFifos

/-! ## The counters -/

section Counters

variable {k : ℕ} {size : UInt32}

theorem ringSlot_eq (hsize : size.toNat = 2 ^ k) (idx : UInt32) :
    ringSlot size idx = idx.toNat % 2 ^ k := by
  have hone : (1 : UInt32) ≤ size := by
    rw [UInt32.le_iff_toNat_le, hsize]
    exact Nat.one_le_two_pow
  have hmask : (size - 1).toNat = 2 ^ k - 1 := by
    rw [UInt32.toNat_sub_of_le _ _ hone, hsize]
    rfl
  rw [ringSlot, UInt32.toNat_and, hmask, Nat.and_two_pow_sub_one_eq_mod]

variable {m d : ℕ} {i : UInt16}

theorem ringSlot_of_count {w : ℕ} (hk : k ≤ 15) (hsize : size.toNat = 2 ^ k) (hw : 16 ≤ w)
    {idx : UInt32} (hidx : idx.toNat = m % 2 ^ w) : ringSlot size idx = m % 2 ^ k := by
  rw [ringSlot_eq hsize, hidx, Nat.mod_mod_of_dvd _ (Nat.pow_dvd_pow 2 (by omega))]

theorem toNat_succ16 (h : i.toNat = m % 2 ^ 16) : (i + 1).toNat = (m + 1) % 2 ^ 16 := by
  rw [UInt16.toNat_add, h, UInt16.toNat_one, Nat.mod_add_mod]

theorem toNat_succ32 {i : UInt32} (h : i.toNat = m % 2 ^ 32) :
    (i + 1).toNat = (m + 1) % 2 ^ 32 := by
  rw [UInt32.toNat_add, h, UInt32.toNat_one, Nat.mod_add_mod]

theorem counters_eq_iff {j : UInt16} (hi : i.toNat = (m + d) % 2 ^ 16) (hj : j.toNat = m % 2 ^ 16)
    (hd : d < 2 ^ 16) : i = j ↔ d = 0 := by
  rw [← UInt16.toNat_inj, hi, hj]
  omega

theorem wide_counter_eq_iff {j : UInt32} (hi : i.toNat = (m + d) % 2 ^ 16)
    (hj : j.toNat = m % 2 ^ 32) (hd : d < 2 ^ 16) :
    i.toUInt32 = j ↔ d = 0 ∧ m % 2 ^ 32 < 2 ^ 16 := by
  rw [← UInt32.toNat_inj, UInt16.toNat_toUInt32, hi, hj]
  omega

end Counters

/-! ## The vring holds the two queues -/

/-- The counters stand where the two queues say, and the rings and descriptors between them hold
what is waiting. -/
structure Vring.Holds (size : UInt32) (q : DeviceQueue) (t : DeviceFifos) : Prop where
  availIdx : q.ring.availIdx.toNat = (t.got + t.published.length) % 2 ^ 16
  handle : q.availIdx.toNat = t.got % 2 ^ 32
  avail : CountedRing size.toNat q.ring.availRing t.got (t.published.map Prod.fst)
  desc : ∀ b ∈ t.published, q.ring.desc b.1 = b.2
  usedIdx : q.ring.usedIdx.toNat = (t.collected + t.used.length) % 2 ^ 16
  lastUsedIdx : q.lastUsedIdx.toNat = t.collected % 2 ^ 16
  used : CountedRing size.toNat q.ring.usedRing t.collected t.used

namespace Vring.Holds

variable {k : ℕ} {size : UInt32} {q : DeviceQueue} {t : DeviceFifos}

theorem created (size : UInt32) : Vring.Holds size DeviceQueue.created DeviceFifos.created where
  availIdx := rfl
  handle := rfl
  avail := .nil _ _ _
  desc := by simp [DeviceFifos.created]
  usedIdx := rfl
  lastUsedIdx := rfl
  used := .nil _ _ _

theorem publish (hk : k ≤ 15) (hsize : size.toNat = 2 ^ k) (h : Vring.Holds size q t)
    {id : UInt16} {desc : VringDesc} (hroom : t.published.length < size.toNat)
    (hdesc : ∀ b ∈ t.published, b.1 = id → b.2 = desc) :
    Vring.Holds size (q.publish size id desc)
      { t with published := t.published ++ [(id, desc)] } where
  availIdx := by
    rw [length_append, length_singleton, ← Nat.add_assoc]
    exact toNat_succ16 h.availIdx
  handle := h.handle
  avail := by
    have hslot : ringSlot size q.ring.availIdx.toUInt32 =
        (t.got + (t.published.map Prod.fst).length) % size.toNat := by
      rw [hsize, length_map]
      exact ringSlot_of_count hk hsize le_rfl (by rw [UInt16.toNat_toUInt32, h.availIdx])
    have hpush := h.avail.push (by rwa [length_map]) id
    rw [← hslot] at hpush
    rwa [map_append, map_singleton]
  desc := by
    intro b hb
    change Function.update q.ring.desc id desc b.1 = b.2
    rcases mem_append.1 hb with hold | hnew
    · by_cases hid : b.1 = id
      · rw [hid, Function.update_self, hdesc b hold hid]
      · rw [Function.update_of_ne hid, h.desc b hold]
    · obtain rfl := mem_singleton.1 hnew
      exact Function.update_self ..
  usedIdx := h.usedIdx
  lastUsedIdx := h.lastUsedIdx
  used := h.used

theorem ring_lt (hk : k ≤ 15) (hsize : size.toNat = 2 ^ k) : size.toNat < 2 ^ 16 := by
  rw [hsize]
  exact Nat.pow_lt_pow_right (by decide) (by omega)

theorem availIdx_eq_iff (hk : k ≤ 15) (hsize : size.toNat = 2 ^ k) (h : Vring.Holds size q t) :
    q.ring.availIdx.toUInt32 = q.availIdx ↔
      t.published = [] ∧ t.got % 2 ^ 32 < 2 ^ 16 := by
  have hlen : t.published.length ≤ size.toNat := by
    have := h.avail.length_le
    rwa [length_map] at this
  rw [wide_counter_eq_iff h.availIdx h.handle (hlen.trans_lt (ring_lt hk hsize)),
    length_eq_zero_iff]

theorem get (hk : k ≤ 15) (hsize : size.toNat = 2 ^ k) (h : Vring.Holds size q t)
    {b : UInt16 × VringDesc} {rest : List (UInt16 × VringDesc)} (hb : t.published = b :: rest) :
    getHfiBufferDeviceQueue size q true =
        (0, some ⟨b.2.addr, b.2.addr, b.2.len, b.1.toUInt32⟩,
          { q with availIdx := q.availIdx + 1 }) ∧
      Vring.Holds size { q with availIdx := q.availIdx + 1 }
        { t with published := rest, got := t.got + 1 } := by
  have havail := h.avail
  have hidx := h.availIdx
  rw [hb] at havail hidx
  obtain ⟨hslot, hrest⟩ := havail.pop
  have hne : q.ring.availIdx.toUInt32 ≠ q.availIdx := by
    rw [ne_eq, h.availIdx_eq_iff hk hsize, hb]
    simp
  have hhead : q.ring.availRing (ringSlot size q.availIdx) = b.1 := by
    rw [ringSlot_of_count hk hsize (by decide) h.handle, ← hsize, hslot]
  have hdesc : q.ring.desc b.1 = b.2 := h.desc b (hb ▸ mem_cons_self)
  constructor
  · simp [getHfiBufferDeviceQueue, hne, hhead, hdesc]
  · refine ⟨?_, toNat_succ32 h.handle, hrest, ?_, h.usedIdx, h.lastUsedIdx, h.used⟩
    · rw [hidx, length_cons, Nat.add_right_comm, Nat.add_assoc]
    · intro c hc
      exact h.desc c (hb ▸ mem_cons_of_mem b hc)

theorem set (hk : k ≤ 15) (hsize : size.toNat = 2 ^ k) (h : Vring.Holds size q t)
    {buffer : HfiQueueBuffer} (hroom : buffer.idx < size → t.used.length < size.toNat) :
    .set (setHfiBufferDeviceQueue size q (some buffer)).1 = (t.set size buffer).2 ∧
      Vring.Holds size (setHfiBufferDeviceQueue size q (some buffer)).2 (t.set size buffer).1 := by
  by_cases hidx : size ≤ buffer.idx
  · simp only [setHfiBufferDeviceQueue, DeviceFifos.set, if_pos hidx]
    exact ⟨trivial, h⟩
  · simp only [setHfiBufferDeviceQueue, DeviceFifos.set, if_neg hidx]
    refine ⟨trivial, h.availIdx, h.handle, h.avail, h.desc, ?_, h.lastUsedIdx, ?_⟩
    · rw [length_append, length_singleton, ← Nat.add_assoc]
      exact toNat_succ16 h.usedIdx
    · have hslot : ringSlot size q.ring.usedIdx.toUInt32 =
          (t.collected + t.used.length) % size.toNat := by
        rw [hsize]
        exact ringSlot_of_count hk hsize le_rfl (by rw [UInt16.toNat_toUInt32, h.usedIdx])
      rw [hslot]
      exact h.used.push (hroom (UInt32.not_le.1 hidx)) _

theorem collect (hk : k ≤ 15) (hsize : size.toNat = 2 ^ k) (h : Vring.Holds size q t) :
    .collected (q.collect size).1 = t.collect.2 ∧
      Vring.Holds size (q.collect size).2 t.collect.1 := by
  have hlt : t.used.length < 2 ^ 16 := h.used.length_le.trans_lt (ring_lt hk hsize)
  have hempty := counters_eq_iff h.usedIdx h.lastUsedIdx hlt
  rw [length_eq_zero_iff] at hempty
  cases hused : t.used with
  | nil =>
    rw [DeviceQueue.collect, if_pos (hempty.2 hused), DeviceFifos.collect, hused]
    exact ⟨rfl, h⟩
  | cons entry rest =>
    have hring := h.used
    have hidx := h.usedIdx
    rw [hused] at hring hidx
    obtain ⟨hslot, hrest⟩ := hring.pop
    have hne : q.ring.usedIdx ≠ q.lastUsedIdx := by
      rw [ne_eq, hempty, hused]
      exact cons_ne_nil entry rest
    have hentry : q.ring.usedRing (ringSlot size q.lastUsedIdx.toUInt32) = entry := by
      have hcount : ringSlot size q.lastUsedIdx.toUInt32 = t.collected % 2 ^ k :=
        ringSlot_of_count hk hsize le_rfl (by rw [UInt16.toNat_toUInt32, h.lastUsedIdx])
      rw [hcount, ← hsize, hslot]
    rw [DeviceQueue.collect, if_neg hne, DeviceFifos.collect, hused, hentry]
    refine ⟨rfl, h.availIdx, h.handle, h.avail, h.desc, ?_, toNat_succ16 h.lastUsedIdx, hrest⟩
    rw [hidx, length_cons, Nat.add_right_comm, Nat.add_assoc]

theorem get_empty (hk : k ≤ 15) (hsize : size.toNat = 2 ^ k) (h : Vring.Holds size q t)
    (hb : t.published = []) :
    (getHfiBufferDeviceQueue size q true).1 = -ENODATA ↔ t.got % 2 ^ 32 < 2 ^ 16 := by
  have hcheck := h.availIdx_eq_iff hk hsize
  rw [hb, eq_self, true_and] at hcheck
  rw [← hcheck, getHfiBufferDeviceQueue, if_neg (by decide)]
  split
  · exact iff_of_true rfl ‹_›
  · exact iff_of_false (show (0 : ℤ) ≠ -ENODATA by decide) ‹_›

variable {op : DeviceOp}

theorem step (hk : k ≤ 15) (hsize : size.toNat = 2 ^ k) (h : Vring.Holds size q t)
    (hok : t.Allows size op) (hin : t.InRange op) :
    (deviceStep size q op).2 = (t.step size op).2 ∧
      Vring.Holds size (deviceStep size q op).1 (t.step size op).1 := by
  cases op with
  | publish id desc => exact ⟨rfl, h.publish hk hsize hok.1 hok.2⟩
  | get payloadOk =>
    cases payloadOk with
    | false => exact ⟨rfl, h⟩
    | true =>
      rcases hb : t.published with _ | ⟨b, rest⟩
      · have hcheck := (h.availIdx_eq_iff hk hsize).2 ⟨hb, hin hb⟩
        have hget : getHfiBufferDeviceQueue size q true = (-ENODATA, none, q) := by
          rw [getHfiBufferDeviceQueue, if_neg (by decide), if_pos hcheck]
        simp only [deviceStep, DeviceFifos.step, DeviceFifos.get, hget, hb]
        exact ⟨trivial, h⟩
      · obtain ⟨hget, hrest⟩ := h.get hk hsize hb
        simp only [deviceStep, DeviceFifos.step, DeviceFifos.get, hget, hb]
        exact ⟨trivial, hrest⟩
  | set payload =>
    cases payload with
    | none => exact ⟨rfl, h⟩
    | some buffer => exact h.set hk hsize hok
  | collect => exact h.collect hk hsize

theorem answers_iff (hk : k ≤ 15) (hsize : size.toNat = 2 ^ k) (h : Vring.Holds size q t)
    (hok : t.Allows size op) : (deviceStep size q op).2 = (t.step size op).2 ↔ t.InRange op := by
  refine ⟨fun heq => ?_, fun hin => (h.step hk hsize hok hin).1⟩
  match op with
  | .get true =>
    intro hb
    rw [← h.get_empty hk hsize hb]
    simp only [deviceStep, DeviceFifos.step, DeviceFifos.get, hb, DeviceOut.got.injEq] at heq
    exact heq.1
  | .get false | .publish _ _ | .set _ | .collect => trivial

theorem run_eq_iff (hk : k ≤ 15) (hsize : size.toNat = 2 ^ k) (h : Vring.Holds size q t)
    {ops : List DeviceOp}
    (hok : EachStep (DeviceFifos.Allows size) (fun t op => (t.step size op).1) t ops) :
    (runOutputs (deviceStep size) q ops).2 = (runOutputs (DeviceFifos.step size) t ops).2 ↔
      EachStep DeviceFifos.InRange (fun t op => (t.step size op).1) t ops :=
  runOutputs_eq_iff (fun _ _ _ h hok => h.answers_iff hk hsize hok)
    (fun _ _ _ h hok hin => (h.step hk hsize hok hin).2) h hok

end Vring.Holds

/-- From a new queue, every call and every read of the used ring is answered as the two queues
have it exactly when each step of the run is in range. -/
theorem deviceQueue_refines_iff (k : ℕ) (hk : k ≤ 15) (size : UInt32) (hsize : size.toNat = 2 ^ k)
    (ops : List DeviceOp)
    (hok : EachStep (DeviceFifos.Allows size) (fun t op => (t.step size op).1)
      DeviceFifos.created ops) :
    (runOutputs (deviceStep size) DeviceQueue.created ops).2 =
        (runOutputs (DeviceFifos.step size) DeviceFifos.created ops).2 ↔
      EachStep DeviceFifos.InRange (fun t op => (t.step size op).1) DeviceFifos.created ops :=
  (Vring.Holds.created size).run_eq_iff hk hsize hok

/-- Two buffers are published and got, one is given back, and the queue is empty again. -/
theorem deviceQueue_refines_short :
    (runOutputs (deviceStep 2) DeviceQueue.created
        [.get true, .publish 1 ⟨0x1000, 64⟩, .publish 0 ⟨0x2000, 32⟩, .get true, .get true,
          .set (some ⟨0x1000, 0x1000, 16, 1⟩), .collect, .collect, .get true]).2 =
      [.got (-61) none, .published, .published, .got 0 (some ⟨0x1000, 0x1000, 64, 1⟩),
        .got 0 (some ⟨0x2000, 0x2000, 32, 0⟩), .set 0, .collected (some ⟨1, 16⟩),
        .collected none, .got (-61) none] :=
  ((deviceQueue_refines_iff 1 (by decide) 2 rfl _ (by decide)).2 (by decide)).trans (by decide)

/-! ## Past the range of `avail->idx` -/

/-- A buffer is published and got, over and over. -/
def rounds : ℕ → List DeviceOp
  | 0 => []
  | m + 1 => rounds m ++ [.publish 0 ⟨0x1000, 64⟩, .get true]

theorem foldl_rounds (m : ℕ) :
    (rounds m).foldl (fun t op => (t.step 1 op).1) DeviceFifos.created = ⟨[], m, [], 0⟩ := by
  induction m with
  | zero => rfl
  | succ m ih =>
    rw [rounds, foldl_append, ih]
    rfl

theorem allows_rounds (m : ℕ) :
    EachStep (DeviceFifos.Allows 1) (fun t op => (t.step 1 op).1) DeviceFifos.created
      (rounds m) := by
  induction m with
  | zero => trivial
  | succ m ih =>
    rw [rounds, eachStep_append, foldl_rounds]
    exact ⟨ih, ⟨Nat.zero_lt_one, by simp⟩, trivial, trivial⟩

/-- After 65536 buffers the empty queue hands out the last one again. -/
theorem deviceQueue_not_refines :
    ¬ ∀ k ≤ 15, ∀ size : UInt32, size.toNat = 2 ^ k → ∀ ops : List DeviceOp,
      EachStep (DeviceFifos.Allows size) (fun t op => (t.step size op).1)
        DeviceFifos.created ops →
      (runOutputs (deviceStep size) DeviceQueue.created ops).2 =
        (runOutputs (DeviceFifos.step size) DeviceFifos.created ops).2 := by
  intro hall
  obtain ⟨m, hm⟩ : ∃ m, m = 2 ^ 16 := ⟨_, rfl⟩
  have hok : EachStep (DeviceFifos.Allows 1) (fun t op => (t.step 1 op).1) DeviceFifos.created
      (rounds m ++ [.get true]) :=
    eachStep_append.2 ⟨allows_rounds m, trivial, trivial⟩
  have heq := hall 0 (by decide) 1 rfl _ hok
  have hrange := ((Vring.Holds.created 1).run_eq_iff (k := 0) (by decide) rfl hok).1 heq
  have hlast := (eachStep_append.1 hrange).2.1
  rw [foldl_rounds, hm] at hlast
  exact absurd (hlast rfl) (by decide)

end QcomModules.HfiCore
