import Mathlib
import QcomModules.Library.Runs

/-! Uplink aggregation: packets are copied one behind the other into a buffer that is sent as one
frame. -/

namespace QcomModules.Rmnet

open Library

/-! ## Buffers -/

def pageSize : ℕ := 4096

/-- `SKB_DATA_ALIGN(sizeof(struct skb_shared_info))`, which lies behind the data of every buffer. -/
abbrev Overhead := { n : ℕ // 0 < n ∧ n < pageSize }

/-- The bytes that fit a buffer of `PAGE_SIZE << order` bytes. -/
def bufferRoom (overhead : Overhead) (order : ℕ) : ℕ :=
  pageSize <<< order - overhead

/-- A buffer in which packets are aggregated. -/
structure AggSkb (overhead : Overhead) where
  order : ℕ
  bytes : List UInt8
  fits : bytes.length ≤ bufferRoom overhead order

variable {overhead : Overhead}

/-- `build_skb` on pages of an order. -/
def AggSkb.build (order : ℕ) : AggSkb overhead where
  order
  bytes := []
  fits := Nat.zero_le _

def AggSkb.tailroom (skb : AggSkb overhead) : ℕ :=
  bufferRoom overhead skb.order - skb.bytes.length

/-- `skb_put_data`; `none` for `skb_over_panic`. -/
def AggSkb.put (skb : AggSkb overhead) (data : List UInt8) : Option (AggSkb overhead) :=
  if h : data.length ≤ skb.tailroom then
    some
      { order := skb.order
        bytes := skb.bytes ++ data
        fits := by
          have := skb.fits
          rw [AggSkb.tailroom] at h
          rw [List.length_append]
          omega }
  else none

/-! ## State -/

structure AggParams where
  aggSize : UInt16
  aggCount : UInt8
  aggFeatures : UInt8
  aggTime : UInt32
  deriving DecidableEq, Repr

/-- What is handed to `send_agg_skb`: packets, or a command. -/
inductive Frame where
  | packets (bytes : List UInt8)
  | command (bytes : List UInt8)
  deriving DecidableEq, Repr

/-- `struct rmnet_aggregation_state`, with the frames sent so far. Times are in nanoseconds. -/
structure AggState (overhead : Overhead) where
  params : AggParams
  aggTime : ℤ
  aggLast : ℤ
  aggSkb : Option (AggSkb overhead)
  inProgress : Bool
  aggCount : UInt8
  aggSizeOrder : ℕ
  sent : List Frame

/-- A linear packet with its priority. -/
structure TxSkb where
  bytes : List UInt8
  priority : BitVec 32
  len_lt : bytes.length < 2 ^ 32

def TxSkb.len (skb : TxSkb) : BitVec 32 :=
  BitVec.ofNat 32 skb.bytes.length

/-- What a pass of `rmnet_map_tx_aggregate` gets from outside: the clock when it starts and when it
opens a buffer, and whether the buffer can be built. -/
structure Pass where
  now : ℤ
  opened : ℤ
  built : Bool

/-! ## Sending -/

def AggState.send (s : AggState overhead) (frame : Frame) : AggState overhead :=
  { s with sent := s.sent ++ [frame] }

def AggState.ship (s : AggState overhead) (skb : AggSkb overhead) : AggState overhead :=
  { s with aggSkb := none, aggCount := 0, aggTime := 0, inProgress := false }.send
    (.packets skb.bytes)

def sendAggSkb (s : AggState overhead) : AggState overhead :=
  match s.aggSkb with
  | none => s
  | some skb => s.ship skb

def flushTxPacketWork (s : AggState overhead) : AggState overhead :=
  if s.inProgress then
    match s.aggSkb with
    | none => { s with inProgress := false }
    | some skb => s.ship skb
  else s

/-! ## Aggregating -/

def aggTimeLimit : ℤ := 1000000

def aggBypassTime : ℤ := 10000000

/-- A difference of `struct timespec64` exceeds a number of nanoseconds. -/
def exceeds (diff limit : ℤ) : Prop :=
  0 < diff / 1000000000 ∨ limit < diff % 1000000000

instance (diff limit : ℤ) : Decidable (exceeds diff limit) :=
  inferInstanceAs (Decidable (_ ∨ _))

def egressFormatAggregation : BitVec 32 := 1#32 <<< 31

def egressFormatPriority : BitVec 32 := 1#32 <<< 28

/-- `RMNET_LLM`. -/
def llm (prio : BitVec 32) : Prop :=
  prio = 0xDA001A#32

def apsLlb (prio : BitVec 32) : Prop :=
  prio >>> 16 = 0x9B6D#32 ∧ prio &&& 0x0200#32 ≠ 0

def TxSkb.prioritized (skb : TxSkb) (fmt : BitVec 32) : Prop :=
  fmt &&& egressFormatPriority ≠ 0 ∧ (llm skb.priority ∨ apsLlb skb.priority)

instance (skb : TxSkb) (fmt : BitVec 32) : Decidable (skb.prioritized fmt) :=
  inferInstanceAs (Decidable (_ ∧ (_ = _ ∨ _ ∧ _)))

/-- The packet is admitted as the first one of a buffer: `(int)(agg_size - skb->len)` is
positive. -/
def AggParams.admits (params : AggParams) (skb : TxSkb) : Prop :=
  0 < (params.aggSize.toBitVec.setWidth 32 - skb.len).toInt

instance (params : AggParams) (skb : TxSkb) : Decidable (params.admits skb) :=
  inferInstanceAs (Decidable (_ < _))

/-- The label `schedule`. -/
def AggState.schedule (s : AggState overhead) : AggState overhead :=
  { s with inProgress := true }

/-- The branch of `rmnet_map_tx_aggregate` without a buffer. -/
def openBuffer (s : AggState overhead) (last : ℤ) (skb : TxSkb) (pass : Pass) :
    Option (AggState overhead) :=
  if exceeds (s.aggLast - last) aggBypassTime ∨ ¬ s.params.admits skb then
    some (s.send (.packets skb.bytes))
  else if pass.built then
    (AggSkb.build s.aggSizeOrder).put skb.bytes |>.map fun aggSkb =>
      { s with aggSkb := some aggSkb, aggCount := 1, aggTime := pass.opened }.schedule
  else
    some ({ s with aggSkb := none, aggCount := 0, aggTime := 0 }.send (.packets skb.bytes))

def AggState.full (s : AggState overhead) (aggSkb : AggSkb overhead) (skb : TxSkb) : Prop :=
  aggSkb.tailroom < skb.bytes.length ∨ s.params.aggCount ≤ s.aggCount ∨
    exceeds (s.aggLast - s.aggTime) aggTimeLimit

instance (s : AggState overhead) (aggSkb : AggSkb overhead) (skb : TxSkb) :
    Decidable (s.full aggSkb skb) :=
  inferInstanceAs (Decidable (_ ∨ _ ∨ _))

/-- `rmnet_map_tx_aggregate`; `again` is for the second pass. -/
def txAggregate (s : AggState overhead) (fmt : BitVec 32) (skb : TxSkb) (pass again : Pass) :
    Option (AggState overhead) :=
  let last := s.aggLast
  let s := { s with aggLast := pass.now }
  if skb.prioritized fmt then some ((sendAggSkb s).send (.packets skb.bytes))
  else
    match s.aggSkb with
    | none => openBuffer s last skb pass
    | some aggSkb =>
      if s.full aggSkb skb then
        -- `goto new_packet`, where nothing is pending any more
        openBuffer { sendAggSkb s with aggLast := again.now } s.aggLast skb again
      else
        aggSkb.put skb.bytes |>.map fun aggSkb =>
          { s with aggSkb := some aggSkb, aggCount := s.aggCount + 1 }.schedule

/-! ## Configuration and commands -/

def getOrder (size : ℕ) : ℕ :=
  ((size - 1) / pageSize).size

def updateUlAggConfig (s : AggState overhead) (size : UInt16) (count features : UInt8)
    (time : UInt32) : AggState overhead :=
  let s := { s with params := ⟨size, count, features, time⟩ }
  if size.toNat < pageSize then s
  else
    let order := getOrder size.toNat
    let size := UInt16.ofNat (pageSize <<< order) - UInt16.ofNat overhead
    { s with params := { s.params with aggSize := size }, aggSizeOrder := order }

/-- `rmnet_map_tx_aggregate_init`. -/
def aggInit (overhead : Overhead) : AggState overhead :=
  updateUlAggConfig
    { params := ⟨0, 0, 0, 0⟩, aggTime := 0, aggLast := 0, aggSkb := none, inProgress := false
      aggCount := 0, aggSizeOrder := 0, sent := [] }
    (UInt16.ofNat (pageSize - 1)) 20 0 3000000

def txQmapCmd (s : AggState overhead) (fmt : BitVec 32) (cmd : List UInt8) (flush : Bool) :
    AggState overhead :=
  (if flush ∧ fmt &&& egressFormatAggregation ≠ 0 then sendAggSkb s else s).send (.command cmd)

/-! ## Operations -/

inductive AggOp where
  | updateUlAggConfig (size : UInt16) (count features : UInt8) (time : UInt32)
  | txAggregate (fmt : BitVec 32) (skb : TxSkb) (pass again : Pass)
  | flushTxPacketWork
  | txQmapCmd (fmt : BitVec 32) (cmd : List UInt8) (flush : Bool)

/-- One operation; `none` where the kernel stops at a copy that does not fit. -/
def aggStep (s : AggState overhead) : AggOp → Option (AggState overhead)
  | .updateUlAggConfig size count features time =>
    some (Rmnet.updateUlAggConfig s size count features time)
  | .txAggregate fmt skb pass again => Rmnet.txAggregate s fmt skb pass again
  | .flushTxPacketWork => some (Rmnet.flushTxPacketWork s)
  | .txQmapCmd fmt cmd flush => some (Rmnet.txQmapCmd s fmt cmd flush)

end QcomModules.Rmnet
