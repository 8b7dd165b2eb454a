import QcomModules.Gsi.Ring
import QcomModules.Library.ByteMemory

/-! Transfers on the channels of the GSI driver: a batch is queued as elements of the ring, with
its user data kept by the driver, and events of the hardware hand the user data back. -/

namespace QcomModules.Gsi

open Library

def EINVAL : ℤ := 22
def EPERM : ℤ := 1

def GSI_VEID_DEFAULT : UInt8 := 16
def GSI_VEID_MAX : ℕ := 17

inductive GsiChanState
  | notAllocated | allocated | started | stopped | stopInProc | flowControl | error
  deriving DecidableEq

inductive GsiXferElemType
  | data
  | immeCmd
  | nop
  | other (value : UInt32)
  deriving DecidableEq

structure GsiXferElem where
  addr : UInt64
  len : UInt16
  flags : UInt16
  type : GsiXferElemType
  xferUserData : UInt64
  deriving DecidableEq

structure GsiUserData where
  valid : Bool
  p : UInt64
  deriving DecidableEq

structure GsiChanStats where
  queued : UInt64
  completed : UInt64
  userdataInUse : UInt64

structure GsiEvtCtx where
  ring : GsiRingCtx
  completed : UInt64

/-- `struct gsi_chan_ctx` of a channel that has an event ring, with the bytes of its ring. -/
structure GsiChanCtx where
  props : GsiChanProps
  state : GsiChanState
  ring : GsiRingCtx
  mem : Mem
  userData : ℕ → GsiUserData
  evtr : GsiEvtCtx
  stats : GsiChanStats

/-- The channel that `gsi_alloc_channel` sets up, in a later state of it. -/
def gsiAllocChannel (props : GsiChanProps) (state : GsiChanState) (mem : Mem) (evtr : GsiEvtCtx) :
    GsiChanCtx where
  props := props
  state := state
  ring := gsiInitChanRing props
  mem := mem
  userData := fun _ => ⟨false, 0⟩
  evtr := evtr
  stats := ⟨0, 0, 0⟩

namespace GsiChanCtx

def setRing (ctx : GsiChanCtx) (ring : GsiRingCtx) : GsiChanCtx := { ctx with ring := ring }

def setUserData (ctx : GsiChanCtx) (i : ℕ) (data : GsiUserData) : GsiChanCtx :=
  { ctx with userData := Function.update ctx.userData i data }

/-- Bytes written to the element number `idx`. -/
def writeElem (ctx : GsiChanCtx) (idx : UInt16) (bs : List Byte) : GsiChanCtx :=
  { ctx with mem := ctx.mem.store (idx.toNat * ctx.ring.elemSz.toNat) bs }

/-- The number of entries of `user_data` of a coalescing channel. -/
def capacity (ctx : GsiChanCtx) : ℕ := ctx.ring.maxNumElem.toNat + 1 + GSI_VEID_MAX

end GsiChanCtx

/-! ## Ring elements -/

def bytes64 (w : UInt64) : List Byte :=
  bytes32 w.toUInt32.toBitVec ++ bytes32 (w >>> 32).toUInt32.toBitVec

/-- `struct gsi_tre`; the reserved fields are zero. -/
structure GsiTre where
  bufferPtr : UInt64
  bufLen : UInt16
  chain : Bool
  ieob : Bool
  ieot : Bool
  bei : Bool
  reType : UInt8

def GsiTre.flags (tre : GsiTre) : UInt16 :=
  tre.chain.toUInt16 ||| tre.ieob.toUInt16 <<< 8 ||| tre.ieot.toUInt16 <<< 9 |||
    tre.bei.toUInt16 <<< 10

def GsiTre.bytes (tre : GsiTre) : List Byte :=
  bytes64 tre.bufferPtr ++ bytes16 tre.bufLen.toBitVec ++ bytes16 0 ++
    bytes16 tre.flags.toBitVec ++ [tre.reType.toBitVec, 0]

/-- `struct gsi_gci_tre`; the reserved fields are zero. -/
structure GsiGciTre where
  bufferPtr : BitVec 41
  bufLen : UInt16
  cookie : BitVec 40
  reType : UInt8

def GsiGciTre.bytes (tre : GsiGciTre) : List Byte :=
  bytes64 (UInt64.ofNat tre.bufferPtr.toNat ||| tre.bufLen.toUInt64 <<< 48) ++
    bytes64 (UInt64.ofNat tre.cookie.toNat ||| tre.reType.toUInt64 <<< 48)

def GSI_RE_XFER : UInt8 := 0x2
def GSI_RE_IMMD_CMD : UInt8 := 0x3
def GSI_RE_NOP : UInt8 := 0x4
def GSI_RE_COAL : UInt8 := 0x8

def GSI_XFER_FLAG_CHAIN : UInt16 := 0x1
def GSI_XFER_FLAG_EOB : UInt16 := 0x100
def GSI_XFER_FLAG_EOT : UInt16 := 0x200
def GSI_XFER_FLAG_BEI : UInt16 := 0x400

/-! ## Queueing -/

/-- What becomes of an element of a batch: the kernel stops, the element is refused, or it is
written, with the entry of `user_data` that was given to it. -/
inductive Populated
  | bug
  | failed (ret : ℤ) (ctx : GsiChanCtx)
  | done (entry : ℕ) (ctx : GsiChanCtx)

def GsiChanCtx.markValid (ctx : GsiChanCtx) (i : ℕ) : GsiChanCtx :=
  ctx.setUserData i { ctx.userData i with valid := true }

@[simp] theorem GsiChanCtx.markValid_ring (ctx : GsiChanCtx) (i : ℕ) :
    (ctx.markValid i).ring = ctx.ring := rfl

/-- `__gsi_get_gci_cookie`; there is no result at its `BUG()`. -/
def gsiGetGciCookie (ctx : GsiChanCtx) (idx : UInt16) : Option (ℕ × GsiChanCtx) :=
  if ¬ (ctx.userData idx.toNat).valid then some (idx.toNat, ctx.markValid idx.toNat)
  else
    let ctx := { ctx with stats := { ctx.stats with
      userdataInUse := ctx.stats.userdataInUse + 1 } }
    let last := ctx.ring.maxNumElem.toNat + 1
    match (List.range GSI_VEID_MAX).find? fun i => !(ctx.userData (last + i)).valid with
    | some i => some (last + i, ctx.markValid (last + i))
    | none =>
      match (List.range last).find? fun i => !(ctx.userData i).valid with
      | some i => some (i, ctx.markValid i)
      | none => none

def gsiPopulateGciTre (ctx : GsiChanCtx) (xfer : GsiXferElem) : Populated :=
  if xfer.addr &&& 0xFFFFFF0000000000 ≠ 0 then .failed (-EINVAL) ctx
  else if xfer.type ≠ .data then .failed (-EINVAL) ctx
  else
    let idx := gsiFindIdxFromAddr ctx.ring ctx.ring.wpLocal
    match gsiGetGciCookie ctx idx with
    | none => .bug
    | some (cookie, ctx) =>
      let tre : GsiGciTre :=
        ⟨.ofNat 41 xfer.addr.toNat, xfer.len, .ofNat 40 cookie, GSI_RE_COAL⟩
      if ctx.ring.maxNumElem.toNat + GSI_VEID_MAX < tre.cookie.toNat then .failed (-EPERM) ctx
      else
        let ctx := ctx.writeElem idx tre.bytes
        .done tre.cookie.toNat (ctx.setUserData tre.cookie.toNat
          { ctx.userData tre.cookie.toNat with p := xfer.xferUserData })

/-- The type of ring element for a type of transfer, if it is a good one. -/
def GsiXferElemType.reType : GsiXferElemType → Option UInt8
  | data => some GSI_RE_XFER
  | immeCmd => some GSI_RE_IMMD_CMD
  | nop => some GSI_RE_NOP
  | other _ => none

def GsiXferElem.tre (xfer : GsiXferElem) (reType : UInt8) : GsiTre where
  bufferPtr := xfer.addr
  bufLen := xfer.len
  chain := xfer.flags &&& GSI_XFER_FLAG_CHAIN ≠ 0
  ieob := xfer.flags &&& GSI_XFER_FLAG_EOB ≠ 0
  ieot := xfer.flags &&& GSI_XFER_FLAG_EOT ≠ 0
  bei := xfer.flags &&& GSI_XFER_FLAG_BEI ≠ 0
  reType := reType

/-- The ring element and the user data of a transfer in place. -/
def GsiChanCtx.writeTre (ctx : GsiChanCtx) (idx : UInt16) (xfer : GsiXferElem) (reType : UInt8) :
    GsiChanCtx :=
  (ctx.writeElem idx (xfer.tre reType).bytes).setUserData idx.toNat ⟨true, xfer.xferUserData⟩

def gsiPopulateTre (ctx : GsiChanCtx) (xfer : GsiXferElem) : Populated :=
  match xfer.type.reType with
  | none => .failed (-EINVAL) ctx
  | some reType =>
    if ctx.state = .notAllocated then .failed (-GSI_STATUS_UNSUPPORTED_OP) ctx
    else
      let idx := gsiFindIdxFromAddr ctx.ring ctx.ring.wpLocal
      .done idx.toNat (ctx.writeTre idx xfer reType)

def gsiQueryChannelFreeRe (ctx : GsiChanCtx) : UInt16 :=
  let first := gsiFindIdxFromAddr ctx.ring ctx.ring.rpLocal
  let last := gsiFindIdxFromAddr ctx.ring ctx.ring.wpLocal
  let used := if first ≤ last then last - first else ctx.ring.maxNumElem + 1 - (first - last)
  ctx.ring.maxNumElem - used

def gsiPopulate (ctx : GsiChanCtx) (xfer : GsiXferElem) : Populated :=
  if ctx.props.prot = .gci then gsiPopulateGciTre ctx xfer else gsiPopulateTre ctx xfer

/-- The loop of `gsi_queue_xfer`: whether it got through the batch, and the entries of `user_data`
given out. -/
def gsiPopulateBatch (ctx : GsiChanCtx) :
    List GsiXferElem → Option (Bool × List ℕ × GsiChanCtx)
  | [] => some (true, [], ctx)
  | xfer :: xfers =>
    match gsiPopulate ctx xfer with
    | .bug => none
    | .failed _ ctx => some (false, [], ctx)
    | .done entry ctx =>
      (gsiPopulateBatch (ctx.setRing (gsiIncrRingWp ctx.ring)) xfers).map
        fun (ok, entries, ctx) => (ok, entry :: entries, ctx)

/-- `gsi_ring_chan_doorbell`, without the registers of the hardware. -/
def gsiRingChanDoorbell (ctx : GsiChanCtx) : GsiChanCtx :=
  let evtr :=
    if ctx.props.dir = .fromGsi then
      { ctx.evtr with ring := { ctx.evtr.ring with wp := ctx.evtr.ring.wpLocal } }
    else ctx.evtr
  { ctx with evtr := evtr, ring := { ctx.ring with wp := ctx.ring.wpLocal } }

def gsiDoorbellIf (ringDb : Bool) (ctx : GsiChanCtx) : GsiChanCtx :=
  if ringDb then gsiRingChanDoorbell ctx else ctx

/-- `gsi_queue_xfer` on a channel of the driver: result, entries of `user_data` given to the
transfers, channel. -/
def gsiQueueXfer (ctx : GsiChanCtx) (xfers : List GsiXferElem) (ringDb : Bool) :
    Option (ℤ × List ℕ × GsiChanCtx) :=
  if ctx.state = .notAllocated then some (-GSI_STATUS_UNSUPPORTED_OP, [], ctx)
  else if ctx.props.prot ≠ .gpi ∧ ctx.props.prot ≠ .gci then
    some (-GSI_STATUS_UNSUPPORTED_OP, [], ctx)
  else if xfers = [] then some (0, [], gsiDoorbellIf ringDb ctx)
  else if ctx.props.prot ≠ .gci ∧ (gsiQueryChannelFreeRe ctx).toNat < xfers.length then
    some (-GSI_STATUS_RING_INSUFFICIENT_SPACE, [], ctx)
  else
    match gsiPopulateBatch ctx xfers with
    | none => none
    | some (false, _, ctx') =>
      -- the write pointer is all that is taken back
      some (-GSI_STATUS_INVALID_PARAMS, [],
        ctx'.setRing { ctx'.ring with wpLocal := ctx.ring.wpLocal })
    | some (true, entries, ctx') =>
      some (0, entries, gsiDoorbellIf ringDb { ctx' with
        stats := { ctx'.stats with
          queued := ctx'.stats.queued + UInt64.ofNat xfers.length } })

/-! ## Completion -/

def GSI_XFER_COMPL_TYPE_GCI : UInt8 := 0x28

structure GsiXferComplEvt where
  xferPtr : UInt64
  len : UInt16
  veid : UInt8
  code : UInt8
  type : UInt8
  deriving DecidableEq

/-- The low 40 bits, which hold the cookie of a coalescing event. -/
def GsiXferComplEvt.cookie (evt : GsiXferComplEvt) : UInt64 := evt.xferPtr &&& 0xFFFFFFFFFF

structure GsiChanXferNotify where
  chanUserData : UInt64
  xferUserData : UInt64
  evtId : UInt8
  bytesXfered : UInt16
  veid : UInt8
  deriving DecidableEq

/-- Whether an event moves the read pointers and retires its transfer. -/
def GsiChanProps.retires (props : GsiChanProps) (callback : Bool) : Bool :=
  !callback || (props.dir = .toGsi && !props.txPoll)

/-- The read pointer at the element of an event, with the elements before it counted; there is no
result where the kernel stops. -/
def gsiCountCompleted (ctx : GsiChanCtx) (rp : UInt64) : Option GsiChanCtx :=
  if ctx.ring.rpLocal = rp then some ctx
  else
    (gsiGetCompleteNum ctx.ring ctx.ring.rpLocal rp).map fun num =>
      { ctx with
        stats := { ctx.stats with completed := ctx.stats.completed + num.toUInt64 }
        ring := { ctx.ring with rpLocal := rp } }

/-- The part of `gsi_process_chan` for an event with the address of a ring element. -/
def gsiAdvanceChan (ctx : GsiChanCtx) (rp : UInt64) (callback : Bool) : Option GsiChanCtx :=
  (gsiCountCompleted ctx rp).map fun ctx =>
    let ring := if ctx.props.retires callback then gsiIncrRingRp ctx.ring else ctx.ring
    ctx.setRing { ring with rp := ring.rpLocal }

/-- One more transfer is completed, and its entry of `user_data` is free. -/
def GsiChanCtx.retire (ctx : GsiChanCtx) (i : ℕ) : GsiChanCtx :=
  { ctx with
    stats := { ctx.stats with completed := ctx.stats.completed + 1 }
    userData := Function.update ctx.userData i { ctx.userData i with valid := false } }

/-- The part of `gsi_process_chan` that hands back the entry `rpIdx` of `user_data`. -/
def gsiNotifyChan (ctx : GsiChanCtx) (evt : GsiXferComplEvt) (rpIdx : UInt16) (veid : UInt8)
    (callback : Bool) : GsiChanXferNotify × GsiChanCtx :=
  let data := ctx.userData rpIdx.toNat
  let notify : GsiChanXferNotify :=
    { chanUserData := ctx.props.chanUserData
      xferUserData := data.p
      evtId := evt.code
      bytesXfered := evt.len
      veid := veid }
  (notify, if ctx.props.retires callback then ctx.retire rpIdx.toNat else ctx)

/-- `gsi_process_chan` for the channel of the event; there is no result where the kernel stops. -/
def gsiProcessChan (ctx : GsiChanCtx) (evt : GsiXferComplEvt) (notify : GsiChanXferNotify)
    (callback : Bool) : Option (GsiChanXferNotify × GsiChanCtx) :=
  if ctx.props.prot ≠ .gpi ∧ ctx.props.prot ≠ .gci then some (notify, ctx)
  else if evt.type ≠ GSI_XFER_COMPL_TYPE_GCI then
    (gsiAdvanceChan ctx evt.xferPtr callback).map fun ctx =>
      gsiNotifyChan ctx evt (gsiFindIdxFromAddr ctx.ring evt.xferPtr) GSI_VEID_DEFAULT callback
  else some (gsiNotifyChan ctx evt evt.cookie.toUInt16 evt.veid callback)

/-- The event ring moves past an event, and its element is given back to the hardware. -/
def GsiChanCtx.recycleEvt (ctx : GsiChanCtx) : GsiChanCtx :=
  { ctx with
    evtr := {
      ring := gsiIncrRingWp (gsiIncrRingRp ctx.evtr.ring)
      completed := ctx.evtr.completed + 1 } }

/-- `gsi_process_evt_re` where `evt` is the event at the read pointer of the event ring. -/
def gsiProcessEvtRe (ctx : GsiChanCtx) (evt : GsiXferComplEvt) (notify : GsiChanXferNotify)
    (callback : Bool) : Option (GsiChanXferNotify × GsiChanCtx) :=
  (gsiProcessChan ctx evt notify callback).map fun (notify, ctx) =>
    if callback && (ctx.props.dir = .fromGsi || ctx.props.txPoll) then (notify, ctx)
    else (notify, ctx.recycleEvt)

end QcomModules.Gsi
