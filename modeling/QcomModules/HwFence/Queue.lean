import Mathlib.Tactic.IntervalCases
import QcomModules.Library.Fifo

/-! Client queues of the HW-fence driver: payload layout, index translation, and the
read and update helpers over the shared dwords. -/

namespace QcomModules.HwFence

/-- `-EINVAL`. -/
def eInval : ℤ := -22

structure MsmHwFenceQueuePayload where
  size : BitVec 32
  type : BitVec 16
  version : BitVec 16
  ctxtId : BitVec 64
  seqno : BitVec 64
  hash : BitVec 64
  flags : BitVec 64
  clientData : BitVec 64
  error : BitVec 32
  timestampLo : BitVec 32
  timestampHi : BitVec 32
  reserve : BitVec 32
deriving DecidableEq, Repr

namespace MsmHwFenceQueuePayload

/-- Dword `i` of the payload in memory; a little-endian `u64` takes two dwords. -/
def dword (p : MsmHwFenceQueuePayload) : ℕ → BitVec 32
  | 0 => p.size
  | 1 => p.version ++ p.type
  | 2 => p.ctxtId.setWidth 32
  | 3 => p.ctxtId.extractLsb' 32 32
  | 4 => p.seqno.setWidth 32
  | 5 => p.seqno.extractLsb' 32 32
  | 6 => p.hash.setWidth 32
  | 7 => p.hash.extractLsb' 32 32
  | 8 => p.flags.setWidth 32
  | 9 => p.flags.extractLsb' 32 32
  | 10 => p.clientData.setWidth 32
  | 11 => p.clientData.extractLsb' 32 32
  | 12 => p.error
  | 13 => p.timestampLo
  | 14 => p.timestampHi
  | _ => p.reserve

/-- The payload whose dwords start at `d 0`. -/
def ofDwords (d : ℕ → BitVec 32) : MsmHwFenceQueuePayload where
  size := d 0
  type := (d 1).setWidth 16
  version := (d 1).extractLsb' 16 16
  ctxtId := d 3 ++ d 2
  seqno := d 5 ++ d 4
  hash := d 7 ++ d 6
  flags := d 9 ++ d 8
  clientData := d 11 ++ d 10
  error := d 12
  timestampLo := d 13
  timestampHi := d 14
  reserve := d 15

variable {w : ℕ}

private theorem append_halves (x : BitVec (w + w)) : x.extractLsb' w w ++ x.setWidth w = x := by
  apply BitVec.eq_of_getLsbD_eq
  intro i hi
  by_cases hlow : i < w
  · simp [BitVec.getLsbD_append, hlow]
  · simp [BitVec.getLsbD_append, hlow, show w + (i - w) = i by omega,
      show i - w < w by omega]

private theorem append_low (x y : BitVec w) : (x ++ y).setWidth w = y := by
  apply BitVec.eq_of_getLsbD_eq
  intro i hi
  simp [BitVec.getLsbD_append, hi]

private theorem append_high (x y : BitVec w) : (x ++ y).extractLsb' w w = x := by
  apply BitVec.eq_of_getLsbD_eq
  intro i hi
  simp only [BitVec.getLsbD_extractLsb', BitVec.getLsbD_append]
  simp [hi]

theorem ofDwords_dword (p : MsmHwFenceQueuePayload) {d : ℕ → BitVec 32}
    (h : ∀ i, i < 16 → d i = p.dword i) : ofDwords d = p := by
  have hjoin : ∀ x : BitVec 64, (x.extractLsb' 32 32 ++ x.setWidth 32 : BitVec 64) = x :=
    fun x => append_halves (w := 32) x
  have hlow : ∀ x y : BitVec 16, BitVec.setWidth 16 (x ++ y : BitVec 32) = y :=
    fun x y => append_low x y
  have hhigh : ∀ x y : BitVec 16, BitVec.extractLsb' 16 16 (x ++ y : BitVec 32) = x :=
    fun x y => append_high x y
  simp [ofDwords, h, dword, hjoin, hlow, hhigh]

end MsmHwFenceQueuePayload

/-- `sizeof(struct msm_hw_fence_queue_payload) / sizeof(u32)`. -/
def payloadSizeU32 : UInt32 := 64 / 4

/-- `struct msm_hw_fence_queue`, without its addresses. -/
structure MsmHwFenceQueue where
  qSizeBytes : UInt32
  rdWrIdxStart : UInt32
  rdWrIdxFactor : UInt32
  skipWrIdx : Bool
deriving DecidableEq, Repr

/-- The words of a queue header that the driver reads and writes; both header layouts hold
the three of them at distinct places. -/
structure HfiQueueHeader where
  readIndex : UInt32
  writeIndex : UInt32
  txWm : UInt32
deriving DecidableEq, Repr

/-- Shared memory of one queue: its header words and its dwords from `va_queue` on. -/
structure QueueMem where
  header : HfiQueueHeader
  vaQueue : ℕ → BitVec 32

/-- `enum`-like queue types: `HW_FENCE_TX_QUEUE - 1` and `HW_FENCE_RX_QUEUE - 1`. -/
inductive QueueType where
  | tx
  | rx
deriving DecidableEq, Repr

/-! ## Index translation -/

def requiresIdxTranslation (queue : MsmHwFenceQueue) : Bool :=
  queue.rdWrIdxFactor != 0 && (queue.rdWrIdxStart != 0 || queue.rdWrIdxFactor > 1)

def idxTranslateCustomToDefault (queue : MsmHwFenceQueue) (idx : UInt32) : UInt32 :=
  (idx - queue.rdWrIdxStart) * queue.rdWrIdxFactor

def idxTranslateDefaultToCustom (queue : MsmHwFenceQueue) (idx : UInt32) : UInt32 :=
  idx / queue.rdWrIdxFactor + queue.rdWrIdxStart

/-- The dword index that a header word stands for. -/
def customToDefault (queue : MsmHwFenceQueue) (idx : UInt32) : UInt32 :=
  if requiresIdxTranslation queue then idxTranslateCustomToDefault queue idx else idx

/-- The header word that stands for a dword index. -/
def defaultToCustom (queue : MsmHwFenceQueue) (idx : UInt32) : UInt32 :=
  if requiresIdxTranslation queue then idxTranslateDefaultToCustom queue idx else idx

def translateQueueIndexesCustomToDefault (queue : MsmHwFenceQueue) (readIdx writeIdx : UInt32) :
    UInt32 × UInt32 :=
  (customToDefault queue readIdx, customToDefault queue writeIdx)

/-! ## Queue accesses -/

/-- Copy a payload to the dwords from `idx` on. -/
def writePayload (va : ℕ → BitVec 32) (idx : ℕ) (p : MsmHwFenceQueuePayload) : ℕ → BitVec 32 :=
  fun i => if idx ≤ i ∧ i < idx + payloadSizeU32.toNat then p.dword (i - idx) else va i

/-- The payload in the dwords from `idx` on. -/
def readPayload (va : ℕ → BitVec 32) (idx : ℕ) : MsmHwFenceQueuePayload :=
  MsmHwFenceQueuePayload.ofDwords fun i => va (idx + i)

/-- `hw_fence_read_queue_helper`: return code, the payload if one was copied out, memory. -/
def hwFenceReadQueueHelper (queue : MsmHwFenceQueue) (mem : QueueMem) :
    ℤ × Option MsmHwFenceQueuePayload × QueueMem :=
  let qSizeU32 := queue.qSizeBytes / 4
  let (readIdx, writeIdx) := translateQueueIndexesCustomToDefault queue
    mem.header.readIndex mem.header.writeIndex
  if readIdx = writeIdx then
    (eInval, none, mem)
  else
    let toReadIdx := readIdx + payloadSizeU32
    let toReadIdx := if toReadIdx ≥ qSizeU32 then 0 else toReadIdx
    let toReadIdx := defaultToCustom queue toReadIdx
    -- the final comparison is of the translated read index with the dword write index
    (if toReadIdx = writeIdx then 0 else 1, some (readPayload mem.vaQueue readIdx.toNat),
      { mem with header := { mem.header with readIndex := toReadIdx } })

/-- The driver data an update of a queue depends on. -/
structure LockTable where
  clientLockTblCnt : UInt32
deriving DecidableEq, Repr

def hwFenceLockIdxOffset : UInt32 := 8

/-- `_lock_client_queue`: only Rx queues are locked. -/
def lockClientQueue (queueType : QueueType) : Bool := queueType = .rx

/-- The word a writer publishes its index in. -/
def writeWord (queue : MsmHwFenceQueue) (header : HfiQueueHeader) : UInt32 :=
  if queue.skipWrIdx then header.txWm else header.writeIndex

def setWriteWord (queue : MsmHwFenceQueue) (header : HfiQueueHeader) (idx : UInt32) :
    HfiQueueHeader :=
  if queue.skipWrIdx then { header with txWm := idx } else { header with writeIndex := idx }

/-- `hw_fence_update_queue_helper`; the Rx lock is taken and released around the body. -/
def hwFenceUpdateQueueHelper (drv : LockTable) (clientId : UInt32) (queue : MsmHwFenceQueue)
    (payload : MsmHwFenceQueuePayload) (queueType : QueueType) (mem : QueueMem) :
    ℤ × QueueMem :=
  let qSizeU32 := queue.qSizeBytes / 4
  let lockIdx := (clientId - 1) * hwFenceLockIdxOffset
  if lockClientQueue queueType ∧ lockIdx ≥ drv.clientLockTblCnt then
    (eInval, mem)
  else
    let (readIdx, writeIdx) := translateQueueIndexesCustomToDefault queue
      mem.header.readIndex (writeWord queue mem.header)
    let qFreeU32 := if readIdx ≤ writeIdx then qSizeU32 - (writeIdx - readIdx)
      else readIdx - writeIdx
    if qFreeU32 ≤ payloadSizeU32 then
      (eInval, mem)
    else
      let toWriteIdx := writeIdx + payloadSizeU32
      let toWriteIdx := if toWriteIdx ≥ qSizeU32 then 0 else toWriteIdx
      let toWriteIdx := defaultToCustom queue toWriteIdx
      (0, { header := setWriteWord queue mem.header toWriteIdx
            vaQueue := writePayload mem.vaQueue writeIdx.toNat payload })

end QcomModules.HwFence
