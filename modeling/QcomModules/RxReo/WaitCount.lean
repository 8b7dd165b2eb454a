import QcomModules.RxReo.Lists

/-! Management rx reorder: how many frames of the other links a frame has to wait for, calculated
from the snapshots of each link. -/

namespace QcomModules.RxReo

/-! ## Snapshots of a link -/

/-- The snapshots that the host shares with the target. -/
inductive SharedSnapshotId where
  | fwConsumed
  | fwForwarded
  | macHw
  deriving Repr, DecidableEq

structure LinkSnapshots where
  macHwSs : MgmtRxReoSnapshotParams
  fwForwardedSs : MgmtRxReoSnapshotParams
  fwConsumedSs : MgmtRxReoSnapshotParams
  hostSs : MgmtRxReoSnapshotParams

def MgmtRxReoSnapshotParams.aheadOf (first second : MgmtRxReoSnapshotParams) : Bool :=
  compareGlobalTimestampsGte first.globalTimestamp second.globalTimestamp &&
    comparePktCtrsGte first.mgmtPktCtr second.mgmtPktCtr

/-- The timestamps and the counters of two snapshots say the same about their order. -/
def MgmtRxReoSnapshotParams.agreesWith (first second : MgmtRxReoSnapshotParams) : Bool :=
  compareGlobalTimestampsGte first.globalTimestamp second.globalTimestamp ==
    comparePktCtrsGte first.mgmtPktCtr second.mgmtPktCtr

/-- A snapshot of the firmware is invalidated where it is ahead of the one of the MAC hardware, or
where it and the host snapshot contradict each other. -/
def invalidateFwSnapshot (macHwSs hostSs fwSs : MgmtRxReoSnapshotParams) :
    MgmtRxReoSnapshotParams :=
  if fwSs.valid && (!macHwSs.aheadOf fwSs || hostSs.valid && !hostSs.agreesWith fwSs) then
    { fwSs with valid := false }
  else fwSs

def invalidateStaleSnapshots (ss : LinkSnapshots) : LinkSnapshots :=
  if !ss.macHwSs.valid then ss
  else
    let hostSs :=
      if ss.hostSs.valid && !ss.macHwSs.aheadOf ss.hostSs then { ss.hostSs with valid := false }
      else ss.hostSs
    { ss with
      hostSs := hostSs
      fwForwardedSs := invalidateFwSnapshot ss.macHwSs hostSs ss.fwForwardedSs
      fwConsumedSs := invalidateFwSnapshot ss.macHwSs hostSs ss.fwConsumedSs }

/-- The host snapshot is not ahead of what the firmware has forwarded and consumed. -/
def hostSnapshotSane (ss : LinkSnapshots) : Bool :=
  let tsUpTo (fwSs : MgmtRxReoSnapshotParams) :=
    compareGlobalTimestampsGte fwSs.globalTimestamp ss.hostSs.globalTimestamp
  let ctrUpTo (fwSs : MgmtRxReoSnapshotParams) :=
    comparePktCtrsGte fwSs.mgmtPktCtr ss.hostSs.mgmtPktCtr
  ss.macHwSs.aheadOf ss.hostSs &&
    match ss.fwForwardedSs.valid, ss.fwConsumedSs.valid with
    | true, false => tsUpTo ss.fwForwardedSs && ctrUpTo ss.fwForwardedSs
    | false, true => tsUpTo ss.fwConsumedSs && ctrUpTo ss.fwConsumedSs
    | true, true =>
      (tsUpTo ss.fwConsumedSs || tsUpTo ss.fwForwardedSs) &&
        (ctrUpTo ss.fwConsumedSs || ctrUpTo ss.fwForwardedSs)
    | false, false => true

def snapshotsCheckSanity (ss : LinkSnapshots) : Bool :=
  if !ss.macHwSs.valid then
    !(ss.fwForwardedSs.valid || ss.fwConsumedSs.valid || ss.hostSs.valid)
  else if !ss.fwForwardedSs.valid && !ss.fwConsumedSs.valid then !ss.hostSs.valid
  else
    (!ss.fwForwardedSs.valid || ss.macHwSs.aheadOf ss.fwForwardedSs) &&
      (!ss.fwConsumedSs.valid || ss.macHwSs.aheadOf ss.fwConsumedSs) &&
        (!ss.hostSs.valid || hostSnapshotSane ss)

/-! ## Frames pending on a link -/

/-- `qdf_assert_always` of a count that is to be no less than zero. -/
def assertNonneg (framesPending : ℤ) : Option ℤ :=
  if 0 ≤ framesPending then some framesPending else none

/-- The estimate where the last frame seen by the MAC hardware is not before the incoming frame. -/
def refineFramesPending (ss : LinkSnapshots) (ts : BitVec 32) (framesPending : ℤ) : Option ℤ := do
  let framesPending ←
    if ss.fwConsumedSs.valid &&
        compareGlobalTimestampsGte ss.fwConsumedSs.globalTimestamp ts then do
      let framesPending ← assertNonneg
        (subtractPktCtrs ss.fwConsumedSs.mgmtPktCtr ss.hostSs.mgmtPktCtr - 1)
      if ss.fwForwardedSs.valid &&
          !compareGlobalTimestampsGte ss.fwForwardedSs.globalTimestamp ts then
        pure (max 0 (subtractPktCtrs ss.fwForwardedSs.mgmtPktCtr ss.hostSs.mgmtPktCtr))
      else pure framesPending
    else pure framesPending
  if ss.fwForwardedSs.valid &&
      compareGlobalTimestampsGte ss.fwForwardedSs.globalTimestamp ts then do
    let deltaFwdHost ← assertNonneg
      (subtractPktCtrs ss.fwForwardedSs.mgmtPktCtr ss.hostSs.mgmtPktCtr - 1)
    assertNonneg (min framesPending deltaFwdHost)
  else pure framesPending

def UINT_MAX : ℕ := 2 ^ 32 - 1

def framesPending (ss : LinkSnapshots) (ts : BitVec 32) : Option ℕ :=
  if !ss.macHwSs.valid then some 0
  else if !ss.hostSs.valid then some UINT_MAX
  else if subtractPktCtrs ss.macHwSs.mgmtPktCtr ss.hostSs.mgmtPktCtr = 0 then some 0
  else if compareGlobalTimestampsGte ss.hostSs.globalTimestamp ts then some 0
  else do
    let pending ← assertNonneg (subtractPktCtrs ss.macHwSs.mgmtPktCtr ss.hostSs.mgmtPktCtr)
    let pending ←
      if pending ≠ 0 ∧ compareGlobalTimestampsGte ss.macHwSs.globalTimestamp ts = true then do
        let pending ← assertNonneg (pending - 1)
        refineFramesPending ss ts pending
      else pure pending
    let pending ← assertNonneg pending
    pure pending.toNat

/-! ## The wait count of a frame -/

structure LinkView where
  isValidLink : Bool
  pdev : Bool
  privObject : Bool
  initComplete : Bool
  read : SharedSnapshotId → Option MgmtRxReoSnapshotParams

abbrev HostSnapshots := Fin MAX_MLO_LINKS → MgmtRxReoSnapshotParams

def LinkView.snapshots (view : LinkView) (hostSs : MgmtRxReoSnapshotParams) :
    Option LinkSnapshots := do
  let fwConsumedSs ← view.read .fwConsumed
  let fwForwardedSs ← view.read .fwForwarded
  let macHwSs ← view.read .macHw
  pure
    { macHwSs := macHwSs
      fwForwardedSs := fwForwardedSs
      fwConsumedSs := fwConsumedSs
      hostSs := hostSs }

def WaitCount.set (w : WaitCount) (link : Fin MAX_MLO_LINKS) (count : ℕ) : WaitCount where
  perLinkCount := Function.update w.perLinkCount link count
  totalCount := w.totalCount + count

/-- A calculation that has come to a link: where it stops, the status says why. -/
structure Calculation where
  status : QdfStatus
  hostSs : HostSnapshots
  desc : FrameDescriptor

def Calculation.count (c : Calculation) (link : Fin MAX_MLO_LINKS) (count : ℕ) : Calculation :=
  { c with desc := { c.desc with waitCount := c.desc.waitCount.set link count } }

/-- The host drops a frame for which the snapshots of a link contradict each other. -/
def handleSnapshotSanityFailures (desc : FrameDescriptor) : FrameDescriptor :=
  { desc with drop := true, dropReason := .snapshotSanityFailure }

def calculateLink (views : Fin MAX_MLO_LINKS → LinkView) (c : Calculation)
    (link : Fin MAX_MLO_LINKS) : Option Calculation :=
  if c.status ≠ .success then some c
  else if !(views link).isValidLink then some (c.count link 0)
  else if !(views link).pdev then some (c.count link 0)
  else if !(views link).privObject then some { c with status := .failure }
  else if !(views link).initComplete then some (c.count link 0)
  else
    match (views link).snapshots (c.hostSs link) with
    | none => some { c with status := .failure }
    | some ss =>
      let ss := invalidateStaleSnapshots ss
      let c := { c with hostSs := Function.update c.hostSs link ss.hostSs }
      if !snapshotsCheckSanity ss then
        some { c with status := .invalid, desc := handleSnapshotSanityFailures c.desc }
      else if link = c.desc.reoParams.linkId then some (c.count link 0)
      else (framesPending ss c.desc.globalTs).map (c.count link)

def calculateWaitCount (views : Fin MAX_MLO_LINKS → LinkView) (hostSs : HostSnapshots)
    (desc : FrameDescriptor) : Option Calculation :=
  if !(views desc.reoParams.linkId).isValidLink then
    some { status := .invalid, hostSs := hostSs, desc := desc }
  else if !(views desc.reoParams.linkId).privObject then
    some { status := .failure, hostSs := hostSs, desc := desc }
  else
    (List.finRange MAX_MLO_LINKS).foldlM (calculateLink views)
      { status := .success, hostSs := hostSs, desc := desc }

end QcomModules.RxReo
