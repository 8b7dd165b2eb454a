import Mathlib

/-! The camera request manager's links: the input queue of requests, one table of request slots
for each pipeline delay, and the connected devices with what they answer. -/

namespace QcomModules.CamReqMgr

/-- `MAX_REQ_SLOTS`, the `num_slots` of the input queue and of every pipeline delay table. -/
def maxReqSlots : ℕ := 48

def camPipelineDelayMax : ℕ := 3

/-- `MAXIMUM_LINKS_PER_SESSION`; a link has room for one link less than this to sync with. -/
def maximumLinksPerSession : ℕ := 4

/-- `MAX_LINKS_PER_SESSION` of the user interface. -/
def maxLinksPerSession : ℕ := 2

def maxDevForSpecialOps : ℕ := 4

def EPERM : ℤ := 1
def ENOENT : ℤ := 2
def EAGAIN : ℤ := 11
def EFAULT : ℤ := 14
def ENODEV : ℤ := 19
def EINVAL : ℤ := 22
def EBADR : ℤ := 53
def EBADSLT : ℤ := 57

def triggerPointSof : BitVec 32 := 1

def triggerPointEof : BitVec 32 := 2

/-- `BIT(n)` in a 32-bit map. -/
def bit (n : ℕ) : BitVec 32 := 1#32 <<< n

def incIdx (val step maxVal : ℤ) : ℤ :=
  (val + step).tmod maxVal

def decIdx (val step maxVal : ℤ) : ℤ :=
  if val - step < 0 then maxVal + (val - step) else val - step

/-! ## Data of a link -/

inductive CrmSlotStatus where
  | noReq | reqAdded | reqPending | reqReady | reqApplied
  deriving DecidableEq, Repr

inductive CrmReqState where
  | empty | pending | ready
  deriving DecidableEq, Repr

inductive LinkState where
  | available | idle | ready | err
  deriving DecidableEq, Repr

/-- `state < CAM_CRM_LINK_STATE_READY`. -/
def LinkState.belowReady : LinkState → Bool
  | .available | .idle => true
  | .ready | .err => false

/-- `enum cam_req_mgr_device_id`, as far as the manager tells devices apart. -/
inductive DeviceId where
  | sensor | ife | other
  deriving DecidableEq, Repr

/-- `CAM_REQ_MGR_SYNC_MODE_SYNC`; every other value schedules without sync. -/
def syncModeSync : ℤ := 1

/-- `struct cam_req_mgr_slot`. -/
structure Slot where
  idx : ℤ
  skipIdx : ℤ := 0
  status : CrmSlotStatus := .noReq
  recover : ℤ := 0
  reqId : ℤ := -1
  syncMode : ℤ := 0
  additionalTimeout : ℤ := 0
  recoveryCounter : ℤ := 0
  numSyncLinks : ℤ := 0
  syncLinkHdls : Vector ℤ (maximumLinksPerSession - 1) := .replicate _ 0
  bubbleTimes : BitVec 32 := 0
  frameSyncShift : UInt64 := 0
  mismatchedFrameMode : ℤ := 0
  internalRecovered : Bool := false
  skipSet : Bool := false
  deriving DecidableEq, Repr

/-- `struct crm_tbl_slot_special_ops`, with the first `num_dev` handles. -/
structure SpecialOps where
  devHdl : List ℤ := []
  applyAtEof : Bool := false
  deriving DecidableEq, Repr

structure TblSlot where
  reqReadyMap : BitVec 32 := 0
  reqApplyMap : BitVec 32 := 0
  state : CrmReqState := .empty
  injectDelayAtSof : ℕ := 0
  injectDelayAtEof : ℕ := 0
  ops : SpecialOps := {}
  deriving DecidableEq, Repr

/-- `struct cam_req_mgr_req_tbl`; the list of a link's tables follows the `next` pointers. -/
structure ReqTbl where
  pd : ℤ
  devCount : ℕ := 0
  devMask : BitVec 32 := 0
  skipTraverse : ℤ := 0
  pdDelta : ℤ := 0
  slot : Vector TblSlot maxReqSlots := .replicate _ {}
  deriving DecidableEq, Repr

structure ReqQueue where
  slot : Vector Slot maxReqSlots
  rdIdx : ℤ := 0
  wrIdx : ℤ := 0
  lastAppliedIdx : ℤ := 0
  deriving DecidableEq, Repr

structure Apply where
  idx : ℤ := 0
  pd : ℤ := 0
  reqId : ℤ := 0
  skipIdx : ℤ := 0
  deriving DecidableEq, Repr

/-- `struct cam_req_mgr_device_info`, as a device reports it. -/
structure DeviceInfo where
  devHdl : ℤ
  name : String
  devId : DeviceId := .other
  pDelay : ℤ
  mDelay : ℤ := 0
  trigger : BitVec 32
  triggerOn : Bool := false
  deriving DecidableEq, Repr

/-- The optional callbacks of `struct cam_req_mgr_kmd_ops` a device provides. -/
structure KmdOps where
  applyReq : Bool := true
  processEvt : Bool := true
  notifyFrameSkip : Bool := true
  flushReq : Bool := true
  deriving DecidableEq, Repr

/-- `struct cam_req_mgr_connected_device`; `pd_tbl` is named by its pipeline delay. -/
structure ConnectedDevice where
  devHdl : ℤ
  devBit : ℕ
  pdTbl : ℤ
  info : DeviceInfo
  ops : KmdOps
  deriving DecidableEq, Repr

/-- `struct cam_req_mgr_core_link` with its request data; a link another one points to is named
by its place among the links. `forceErrRecovery` is a setting of the link's session. -/
structure Link where
  linkHdl : ℤ
  devs : List ConnectedDevice := []
  maxDelay : ℤ := 0
  minDelay : ℤ := 2
  pdMask : BitVec 32 := 0
  inQ : ReqQueue
  lTbl : List ReqTbl := []
  applyData : Vector Apply camPipelineDelayMax := .replicate _ { reqId := -1 }
  prevApplyData : Vector Apply camPipelineDelayMax := .replicate _ { reqId := -1 }
  watchdog : Option ℤ := none
  state : LinkState := .ready
  syncLink : Vector (Option ℕ) (maximumLinksPerSession - 1) := .replicate _ none
  numSyncLinks : ℤ := 0
  syncLinkSofSkip : Bool := false
  openReqCnt : BitVec 32 := 0
  lastFlushId : ℤ := 0
  isMaster : Bool := false
  initialSkip : Bool := true
  inMsyncMode : Bool := false
  initialSyncReq : ℤ := -1
  retryCnt : ℕ := 0
  sofTimestamp : UInt64 := 0
  prevSofTimestamp : UInt64 := 0
  dualTrigger : Bool := false
  eofEventCnt : ℤ := 0
  skipInitFrame : Bool := false
  lastSofTriggerJiffies : UInt64 := 0
  workCongestion : Bool := false
  tryForInternalRecovery : Bool := false
  isSendingReq : Bool := false
  standbyAfterEof : Bool := false
  contEmptySlots : ℕ := 0
  lastAppliedDoneTimestamp : UInt64 := 0
  expTimeForResume : ℤ := 0
  isStandby : Bool := false
  forceErrRecovery : ℤ := 0
  deriving DecidableEq, Repr

/-! ## Connecting the devices -/

/-- `__cam_req_mgr_setup_in_q` on the zeroed queue of a reserved link. -/
def setupInQ : ReqQueue where
  slot := .ofFn fun i => { idx := i.val }

/-- The place of a new table behind the first one, after the tables of larger delay. -/
def insertAfter (newTbl : ReqTbl) (tbl : ReqTbl) : List ReqTbl → List ReqTbl
  | [] => [{ tbl with pdDelta := tbl.pd - newTbl.pd }, { newTbl with pdDelta := 0 }]
  | next :: rest =>
    if newTbl.pd < next.pd then tbl :: insertAfter newTbl next rest
    else { tbl with pdDelta := tbl.pd - newTbl.pd } ::
      { newTbl with pdDelta := newTbl.pd - next.pd } :: next :: rest

def addTblToLink (newTbl : ReqTbl) : List ReqTbl → List ReqTbl
  | [] => [newTbl]
  | head :: rest =>
    if head.pd < newTbl.pd then
      { newTbl with pdDelta := newTbl.pd - head.pd } :: head :: rest
    else insertAfter newTbl head rest

def tblSetAllSkipCnt (lTbl : List ReqTbl) : List ReqTbl :=
  match lTbl with
  | [] => []
  | head :: _ => lTbl.map fun tbl => { tbl with skipTraverse := head.pd - tbl.pd }

/-- `get_dev_info` of a device passes the checks of `__cam_req_mgr_setup_link_info`. -/
def DeviceInfo.accepted (info : DeviceInfo) : Bool :=
  0 ≤ info.pDelay ∧ info.pDelay < camPipelineDelayMax ∧ 0 ≤ info.mDelay ∧ info.mDelay < 3

/-- The second loop of `__cam_req_mgr_setup_link_info`: a device gets its table and its bit. -/
def connectDevice (link : Link) (dev : DeviceInfo × KmdOps) : Link :=
  let info := dev.1
  let new := link.pdMask &&& bit info.pDelay.toNat = 0
  let pdMask := if new then link.pdMask ||| bit info.pDelay.toNat else link.pdMask
  let lTbl := if new then addTblToLink { pd := info.pDelay } link.lTbl else link.lTbl
  let devBit := ((lTbl.find? (·.pd = info.pDelay)).map (·.devCount)).getD 0
  { link with
    pdMask := pdMask
    lTbl := lTbl.map fun tbl =>
      if tbl.pd = info.pDelay then
        { tbl with devCount := tbl.devCount + 1, devMask := tbl.devMask ||| bit devBit }
      else tbl
    devs := link.devs ++ [⟨info.devHdl, devBit, info.pDelay, info, dev.2⟩]
    maxDelay := max link.maxDelay info.pDelay
    minDelay := min link.minDelay info.pDelay }

/-- `__cam_req_mgr_setup_link_info` on a freshly reserved link; `none` where it takes its error
path, which takes the link's tables down again. -/
def setupLinkInfo (linkHdl : ℤ) (devs : List (DeviceInfo × KmdOps)) : Option Link :=
  let numTriggerDevices := (devs.filter (·.1.triggerOn)).length
  if devs.all (·.1.accepted) ∧ numTriggerDevices ≤ 2 then
    let link := devs.foldl connectDevice
      { linkHdl := linkHdl, inQ := setupInQ, dualTrigger := numTriggerDevices = 2 }
    some { link with lTbl := tblSetAllSkipCnt link.lTbl }
  else none

/-! ## What the driver asks of the devices -/

structure ApplyRequest where
  linkHdl : ℤ
  devHdl : ℤ := 0
  requestId : ℤ := 0
  lastAppliedMaxPdReq : ℤ := 0
  reportIfBubble : ℤ := 0
  triggerPoint : BitVec 32 := 0
  lastAppliedDoneTimestamp : UInt64 := 0
  reApply : Bool := false
  recovery : Bool := false
  noFurtherRequests : Bool := false
  frameDurationChanging : Bool := false
  deriving DecidableEq, Repr

/-- The link events a device is sent here, with their payloads. -/
inductive LinkEvt where
  | bubble (reqId : ℤ)
  | fatal (reqId : ℤ) (tryForRecovery : Bool)
  | stalled (reqId : ℤ) (tryForRecovery : Bool)
  | eof (tryForRecovery : Bool)
  | pause (tryForRecovery : Bool)
  | resume (tryForRecovery : Bool)
  | frameDurationChanging (reqId : ℤ) (isRecovery : Bool)
  | registerEof (enable : Bool)
  deriving DecidableEq, Repr

inductive DeviceCall where
  | applyReq (req : ApplyRequest)
  | notifyFrameSkip (req : ApplyRequest)
  | processEvt (devHdl : ℤ) (evt : LinkEvt)
  | flushReq (devHdl reqId flushType : ℤ) (enableSensorStandby : Bool)
  deriving DecidableEq, Repr

/-- What a device gives back: its code, and what it writes into the structure it was passed. The
flag tells that the frame duration changes, or that the recovery asked for failed. -/
structure Answer where
  rc : ℤ := 0
  lastAppliedDoneTimestamp : UInt64 := 0
  flag : Bool := false
  deriving DecidableEq, Repr

/-! ## Steps over all links -/

/-- The links of the driver, its debug settings, the answers the devices still have to give in
this step, and the calls made so far. -/
structure Core where
  links : List Link
  recoveryOnApplyFail : Bool := false
  simulateSkipFrame : Bool := false
  disableSensorStandby : Bool := false
  msecsPerJiffy : ℕ := 4
  answers : List Answer := []
  calls : List DeviceCall := []
  deriving DecidableEq, Repr

/-- What stops a step: an index outside its array, or a pointer to nothing. -/
inductive Fault where
  | index | null
  deriving DecidableEq, Repr

abbrev Crm := StateT Core (Except Fault)

/-- `array[idx]`. -/
def elemAt {α : Type} {n : ℕ} (array : Vector α n) (idx : ℤ) : Except Fault α :=
  if h : 0 ≤ idx ∧ idx.toNat < n then .ok (array.get ⟨idx.toNat, h.2⟩) else .error .index

/-- An update of `array[idx]`. -/
def modElem {α : Type} {n : ℕ} (array : Vector α n) (idx : ℤ) (f : α → α) :
    Except Fault (Vector α n) :=
  if h : 0 ≤ idx ∧ idx.toNat < n then
    .ok (array.set idx.toNat (f (array.get ⟨idx.toNat, h.2⟩)) h.2)
  else .error .index

/-- The link a pointer leads to. -/
def link (i : ℕ) : Crm Link := do
  match (← get).links[i]? with
  | some l => pure l
  | none => throw .null

def modLink (i : ℕ) (f : Link → Link) : Crm Unit :=
  modify fun s => { s with links := s.links.modify i f }

def getLinkPriv (hdl : ℤ) : Crm (Option ℕ) := do
  pure ((← get).links.findIdx? (·.linkHdl = hdl))

/-- `in_q->slot[idx]`. -/
def slotAt (i : ℕ) (idx : ℤ) : Crm Slot := do
  StateT.lift (elemAt (← link i).inQ.slot idx)

def Link.withSlots (l : Link) (slot : Vector Slot maxReqSlots) : Link :=
  { l with inQ := { l.inQ with slot := slot } }

def modSlot (i : ℕ) (idx : ℤ) (f : Slot → Slot) : Crm Unit := do
  let slot ← StateT.lift (modElem (← link i).inQ.slot idx f)
  modLink i (·.withSlots slot)

/-- The table a device's `pd_tbl` points to. -/
def tblAt (i : ℕ) (pdTbl : ℤ) : Crm ReqTbl := do
  match (← link i).lTbl.find? (·.pd = pdTbl) with
  | some tbl => pure tbl
  | none => throw .null

/-- `pd_tbl->slot[idx]`. -/
def tblSlotAt (i : ℕ) (pdTbl idx : ℤ) : Crm TblSlot := do
  StateT.lift (elemAt (← tblAt i pdTbl).slot idx)

def ReqTbl.withSlots (tbl : ReqTbl) (slot : Vector TblSlot maxReqSlots) : ReqTbl :=
  { tbl with slot := slot }

def Link.withTbls (l : Link) (lTbl : List ReqTbl) : Link :=
  { l with lTbl := lTbl }

def modTblSlot (i : ℕ) (pdTbl idx : ℤ) (f : TblSlot → TblSlot) : Crm Unit := do
  let slot ← StateT.lift (modElem (← tblAt i pdTbl).slot idx f)
  modLink i fun l => l.withTbls
    (l.lTbl.map fun tbl => if tbl.pd = pdTbl then tbl.withSlots slot else tbl)

/-- The loops that update `slot[idx]` of every table of a link. -/
def modTblSlots (i : ℕ) (idx : ℤ) (f : TblSlot → TblSlot) : Crm Unit := do
  let lTbl ← StateT.lift
    ((← link i).lTbl.mapM fun tbl => return tbl.withSlots (← modElem tbl.slot idx f))
  modLink i (·.withTbls lTbl)

/-- A call into a device and its answer; devices that say nothing of note succeed. -/
def ask (call : DeviceCall) : Crm Answer := do
  let s ← get
  set { s with answers := s.answers.tail, calls := s.calls ++ [call] }
  pure (s.answers.headD {})

end QcomModules.CamReqMgr
