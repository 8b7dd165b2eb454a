import Mathlib
import QcomModules.Library.Serial

/-! Management rx reorder: the snapshot of the latest frame that the host has seen on a link. -/

namespace QcomModules.RxReo

open Library

/-! ## Counters and timestamps -/

structure MgmtRxReoSnapshotParams where
  valid : Bool
  mgmtPktCtr : BitVec 16
  globalTimestamp : BitVec 32
  deriving Repr, DecidableEq

abbrev MAX_MLO_LINKS : ℕ := 6

scoped instance neZero_links : NeZero MAX_MLO_LINKS := ⟨by decide⟩

/-- The parameters that the firmware reports with a frame. -/
structure MgmtRxReoParams where
  valid : Bool
  linkId : Fin MAX_MLO_LINKS
  mgmtPktCtr : BitVec 16
  globalTimestamp : BitVec 32
  startTimestamp : BitVec 32
  endTimestamp : BitVec 32
  deriving Repr, DecidableEq

def comparePktCtrsGte (ctr1 ctr2 : BitVec 16) : Bool :=
  @serialGte 15 ctr1 ctr2

def subtractPktCtrs (ctr1 ctr2 : BitVec 16) : ℤ :=
  @serialSub 15 ctr1 ctr2

def compareGlobalTimestampsGte (ts1 ts2 : BitVec 32) : Bool :=
  @serialGte 31 ts1 ts2

/-! ## Frame descriptors -/

inductive FrameDescriptorType where
  | hostConsumedFrame
  | fwConsumedFrame
  | errorFrame
  deriving Repr, DecidableEq

inductive IngressDropReason where
  | invalid
  | invalidReoParams
  | outOfOrderPktCtr
  | duplicatePktCtr
  | zeroDuration
  | snapshotSanityFailure
  deriving Repr, DecidableEq

inductive ReoListType where
  | ingress
  | egress
  | invalid
  deriving Repr, DecidableEq

/-- How many frames of each link a frame has to wait for. -/
structure WaitCount where
  perLinkCount : Fin MAX_MLO_LINKS → ℕ
  totalCount : ℕ

def WaitCount.zero : WaitCount where
  perLinkCount := fun _ => 0
  totalCount := 0

structure FrameDescriptor where
  type : FrameDescriptorType
  frameType : BitVec 8
  reoParams : MgmtRxReoParams
  waitCount : WaitCount
  isStale : Bool
  isParallelRx : Bool
  queuedList : ReoListType
  pktCtrDelta : ℤ
  reoRequired : Bool
  dropReason : IngressDropReason
  drop : Bool

/-- The descriptor of a frame as the handlers of the target interface fill it in. -/
def FrameDescriptor.init (type : FrameDescriptorType) (frameType : BitVec 8)
    (reoParams : MgmtRxReoParams) (reoRequired : Bool) : FrameDescriptor where
  type := type
  frameType := frameType
  reoParams := reoParams
  waitCount := .zero
  isStale := false
  isParallelRx := false
  queuedList := .invalid
  pktCtrDelta := 0
  reoRequired := reoRequired
  dropReason := .invalid
  drop := false

/-! ## The host snapshot -/

inductive QdfStatus where
  | success
  | failure
  | invalid
  | nullValue
  deriving Repr, DecidableEq

/-- The frame is dropped; this is the build with error handling. -/
def handleOutOfOrderPktCtr (desc : FrameDescriptor) (hostSs : MgmtRxReoSnapshotParams) :
    FrameDescriptor :=
  { desc with
    drop := true
    dropReason :=
      if desc.reoParams.mgmtPktCtr = hostSs.mgmtPktCtr then .duplicatePktCtr
      else .outOfOrderPktCtr }

def MgmtRxReoParams.snapshot (reoParams : MgmtRxReoParams) : MgmtRxReoSnapshotParams where
  valid := true
  mgmtPktCtr := reoParams.mgmtPktCtr
  globalTimestamp := reoParams.globalTimestamp

/-- A gap above a threshold other than zero starts the self recovery. -/
def exceedsDeltaThresh (pktCtrDeltaThresh : BitVec 16) (pktCtrDelta : ℤ) : Bool :=
  pktCtrDeltaThresh != 0 && (pktCtrDeltaThresh.toNat : ℤ) < pktCtrDelta

def updateHostSnapshot (pktCtrDeltaThresh : BitVec 16) (hostSs : MgmtRxReoSnapshotParams)
    (desc : FrameDescriptor) : QdfStatus × MgmtRxReoSnapshotParams × FrameDescriptor :=
  if !desc.reoParams.valid then
    (.failure, hostSs, desc)
  else if !hostSs.valid then
    (.success, desc.reoParams.snapshot, { desc with pktCtrDelta := 1 })
  else
    let desc :=
      if comparePktCtrsGte hostSs.mgmtPktCtr desc.reoParams.mgmtPktCtr then
        handleOutOfOrderPktCtr desc hostSs
      else desc
    let pktCtrDelta := subtractPktCtrs desc.reoParams.mgmtPktCtr hostSs.mgmtPktCtr
    let desc := { desc with pktCtrDelta := pktCtrDelta }
    if pktCtrDelta ≠ 1 ∧ exceedsDeltaThresh pktCtrDeltaThresh pktCtrDelta then
      (.failure, hostSs, desc)
    else
      -- a frame to drop gets here as well
      (.success, desc.reoParams.snapshot, desc)

end QcomModules.RxReo
