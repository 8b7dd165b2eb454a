import QcomModules.CamReqMgr.Apply

/-! The operations on a link: scheduling requests, adding the devices' parts of them, flushing,
recovering from bubbles, frame triggers and the settings of user space. -/

namespace QcomModules.CamReqMgr

/-! ## Scheduling -/

structure SchedReq where
  reqId : ℤ
  bubbleEnable : ℤ := 0
  syncMode : ℤ := 0
  additionalTimeout : ℤ := 0
  numLinks : ℤ := 0
  numValidParams : ℤ := 0
  paramMask : BitVec 32 := 0
  param0 : ℤ := 0
  linkHdls : Vector ℤ maxLinksPerSession := .replicate _ 0
  deriving DecidableEq, Repr

def mismatchedFrameModeMask : BitVec 32 := bit 0

/-- The fields `cam_req_mgr_process_sched_req` sets in the slot at the write index. -/
def Slot.schedule (slot : Slot) (sched : SchedReq) : Slot :=
  { slot with
    status := .reqAdded
    reqId := sched.reqId
    syncMode := sched.syncMode
    skipIdx := 0
    recover := sched.bubbleEnable
    additionalTimeout := if sched.additionalTimeout < 0 then 0 else sched.additionalTimeout
    mismatchedFrameMode :=
      if 0 < sched.numValidParams ∧ sched.paramMask &&& mismatchedFrameModeMask ≠ 0 then
        sched.param0
      else slot.mismatchedFrameMode }

/-- The loop of `cam_req_mgr_process_sched_req` over the handles of the request, which leaves
out the link's own; `syncIdx` counts the others. -/
def recordSyncLinks (hdl : ℤ) (sched : SchedReq) :
    List ℕ → Vector ℤ (maximumLinksPerSession - 1) → ℤ →
      Except Fault (Vector ℤ (maximumLinksPerSession - 1) × ℤ)
  | [], hdls, syncIdx => .ok (hdls, syncIdx)
  | k :: ks, hdls, syncIdx => do
    let other ← elemAt sched.linkHdls k
    if hdl ≠ other then
      recordSyncLinks hdl sched ks (← modElem hdls syncIdx fun _ => other) (syncIdx + 1)
    else recordSyncLinks hdl sched ks hdls syncIdx

def processSchedReq (i : ℕ) (sched : SchedReq) : Crm Unit := do
  let l ← link i
  let slot ← slotAt i l.inQ.wrIdx
  let (hdls, syncIdx) ← StateT.lift
    (recordSyncLinks l.linkHdl sched (List.range sched.numLinks.toNat) slot.syncLinkHdls 0)
  modSlot i l.inQ.wrIdx fun slot =>
    { slot.schedule sched with syncLinkHdls := hdls, numSyncLinks := syncIdx }
  modLink i fun l => { l with
    openReqCnt := l.openReqCnt + 1
    inQ := { l.inQ with wrIdx := incIdx l.inQ.wrIdx 1 numSlots } }
  if sched.syncMode = syncModeSync then
    modLink i fun l => { l with
      initialSyncReq := if l.initialSyncReq = -1 then sched.reqId else l.initialSyncReq }
  else
    modLink i fun l => { l with initialSyncReq := -1 }
    (← syncedLinks l).forM fun j => modLink j fun l => { l with initialSyncReq := -1 }

/-- The recovery setting of the session over that of a request. -/
def Link.bubbleEnable (l : Link) (requested : ℤ) : ℤ :=
  if l.forceErrRecovery = 0 then requested else if l.forceErrRecovery = 1 then 1 else 0

/-- The checks both versions of `cam_req_mgr_schedule_request` start with. -/
def beginSchedule (linkHdl reqId : ℤ) : Crm (Except ℤ ℕ) := do
  match ← getLinkPriv linkHdl with
  | none => pure (.error (-EINVAL))
  | some i =>
    if reqId ≤ (← link i).lastFlushId then pure (.error (-EBADR))
    else
      modLink i fun l => { l with lastFlushId := 0 }
      pure (.ok i)

def scheduleRequest (linkHdl reqId bubbleEnable syncMode additionalTimeout : ℤ) : Crm ℤ := do
  match ← beginSchedule linkHdl reqId with
  | .error rc => pure rc
  | .ok i =>
    let bubbleEnable := (← link i).bubbleEnable bubbleEnable
    processSchedReq i { reqId, bubbleEnable, syncMode, additionalTimeout }
    pure 0

def validHandles (linkHdls : Vector ℤ maxLinksPerSession) : List ℕ → Crm Bool
  | [] => pure true
  | k :: ks => do
    let hdl ← StateT.lift (elemAt linkHdls k)
    if hdl = 0 ∨ (← getLinkPriv hdl).isNone then pure false else validHandles linkHdls ks

def scheduleRequestV2 (linkHdl : ℤ) (req : SchedReq) : Crm ℤ := do
  match ← beginSchedule linkHdl req.reqId with
  | .error rc => pure rc
  | .ok i =>
    let bubbleEnable := (← link i).bubbleEnable req.bubbleEnable
    if req.syncMode = syncModeSync then
      if req.numLinks ≤ 0 ∨
        min (maximumLinksPerSession : ℤ) maxLinksPerSession < req.numLinks then
        pure (-EINVAL)
      else if ← validHandles req.linkHdls (List.range req.numLinks.toNat) then
        processSchedReq i { req with bubbleEnable }
        pure 0
      else pure (-EINVAL)
    else
      processSchedReq i { req with bubbleEnable, numLinks := 0 }
      pure 0

/-! ## Adding the devices' parts of a request -/

/-- `struct cam_req_mgr_add_request`. -/
structure AddReq where
  devHdl : ℤ
  reqId : ℤ
  skipAtSof : ℕ := 0
  skipAtEof : ℕ := 0
  triggerEof : Bool := false
  triggerSkip : Bool := false
  deriving DecidableEq, Repr

inductive SyncType where
  | delayAtSof | delayAtEof | applyAtEof
  deriving DecidableEq, Repr

/-- What `cam_req_mgr_sync_info_for_sync_mode` copies to the slot of a synced link. -/
def TblSlot.syncInfo (sync slot : TblSlot) (syncDevHdl : ℤ) : SyncType → TblSlot
  | .delayAtSof => { sync with injectDelayAtSof := slot.injectDelayAtSof }
  | .delayAtEof => { sync with injectDelayAtEof := slot.injectDelayAtEof }
  | .applyAtEof => { sync with ops :=
      { applyAtEof := slot.ops.applyAtEof
        devHdl := if sync.ops.devHdl.length = maxDevForSpecialOps then sync.ops.devHdl
          else sync.ops.devHdl ++ [syncDevHdl] } }

def Link.devHandleToName (l : Link) (devHdl : ℤ) : String :=
  ((l.devs.find? (·.devHdl = devHdl)).map (·.info.name)).getD "Invalid dev_hdl"

def Link.nameToDevHandle (l : Link) (name : String) : ℤ :=
  ((l.devs.find? (·.info.name = name)).map (·.devHdl)).getD (-EINVAL)

/-- The loop of `cam_req_mgr_sync_info_for_sync_mode`; `tbl` is the table of the last link whose
device was found. -/
def syncInfoFrom (l : Link) (add : AddReq) (slot : TblSlot) (type : SyncType) :
    List ℕ → Option (ℕ × ℤ) → Crm ℤ
  | [], _ => pure 0
  | k :: ks, tbl => do
    match ← StateT.lift (elemAt l.syncLink k) with
    | none => throw .null
    | some j =>
      let idx ← findSlotForReq j add.reqId
      if idx < 0 then pure (-EBADSLT)
      else
        let sync ← link j
        let syncDevHdl := sync.nameToDevHandle (l.devHandleToName add.devHdl)
        let tbl := ((sync.devs.find? (·.devHdl = syncDevHdl)).map fun dev =>
          (j, dev.pdTbl)).or tbl
        match tbl with
        | none => pure (-EINVAL)
        | some (owner, pdTbl) =>
          modTblSlot owner pdTbl idx (·.syncInfo slot syncDevHdl type)
          syncInfoFrom l add slot type ks tbl

/-- `cam_req_mgr_sync_info_for_sync_mode`, for a request of sync mode. -/
def syncInfoForSyncMode (i : ℕ) (add : AddReq) (reqSlot : Slot) (pdTbl idx : ℤ)
    (type : SyncType) : Crm ℤ := do
  if reqSlot.syncMode = syncModeSync then
    let l ← link i
    let slot ← tblSlotAt i pdTbl idx
    syncInfoFrom l add slot type (List.range l.numSyncLinks.toNat) none
  else pure 0

/-- `trigger_skip` marks the next request. -/
def markNextSkipped (i : ℕ) (add : AddReq) : Crm Unit := do
  if add.triggerSkip then
    let nextIdx ← findSlotForReq i (add.reqId + 1)
    if 0 ≤ nextIdx then modSlot i nextIdx fun slot => { slot with skipSet := true }

/-- `skip_at_sof` and `skip_at_eof` of a device. -/
def addDelays (i : ℕ) (add : AddReq) (reqSlot : Slot) (pdTbl idx : ℤ) : Crm ℤ := do
  let rcSof ←
    if (← tblSlotAt i pdTbl idx).injectDelayAtSof < add.skipAtSof % 256 then do
      modTblSlot i pdTbl idx fun slot => { slot with injectDelayAtSof := add.skipAtSof % 256 }
      syncInfoForSyncMode i add reqSlot pdTbl idx .delayAtSof
    else pure 0
  if rcSof < 0 then pure rcSof
  else if (← tblSlotAt i pdTbl idx).injectDelayAtEof < add.skipAtEof % 256 then
    modTblSlot i pdTbl idx fun slot => { slot with injectDelayAtEof := add.skipAtEof % 256 }
    syncInfoForSyncMode i add reqSlot pdTbl idx .delayAtEof
  else pure 0

/-- `trigger_eof` of a device. -/
def addTriggerEof (i : ℕ) (add : AddReq) (reqSlot : Slot) (pdTbl idx : ℤ) : Crm ℤ := do
  modTblSlot i pdTbl idx fun slot => { slot with ops := { slot.ops with applyAtEof := true } }
  if (← tblSlotAt i pdTbl idx).ops.devHdl.length = maxDevForSpecialOps then pure (-EINVAL)
  else
    modTblSlot i pdTbl idx fun slot =>
      { slot with ops := { slot.ops with devHdl := slot.ops.devHdl ++ [add.devHdl] } }
    let rc ← syncInfoForSyncMode i add reqSlot pdTbl idx .applyAtEof
    if rc < 0 then pure rc
    else
      let l ← link i
      if !l.standbyAfterEof ∧ !l.isStandby then
        (l.devs.filter fun dev => dev.info.devId = .ife ∧ dev.ops.processEvt).forM fun dev => do
          let _ ← ask (.processEvt dev.devHdl (.registerEof true))
      pure 0

/-- The device's bit in the ready map, and the slot ready once all bits are there. -/
def TblSlot.add (slot : TblSlot) (devBit : ℕ) (devMask : BitVec 32) : TblSlot :=
  let reqReadyMap := slot.reqReadyMap ||| bit devBit
  { slot with reqReadyMap, state := if reqReadyMap = devMask then .ready else .pending }

def processAddReq (i : ℕ) (add : AddReq) : Crm ℤ := do
  let l ← link i
  match l.devs.find? (·.devHdl = add.devHdl) with
  | none => pure (-EINVAL)
  | some device =>
    let idx ← findSlotForReq i add.reqId
    if idx < 0 then pure (-EBADSLT)
    else
      markNextSkipped i add
      let reqSlot ← slotAt i idx
      let rc ← addDelays i add reqSlot device.pdTbl idx
      if rc < 0 then pure rc
      else
        let rc ←
          if add.triggerEof then addTriggerEof i add reqSlot device.pdTbl idx else pure 0
        if rc < 0 then pure rc
        else
          let tbl ← tblAt i device.pdTbl
          modTblSlot i device.pdTbl idx (·.add device.devBit tbl.devMask)
          pure rc

/-- `cam_req_mgr_cb_add_req` up to the task it enqueues; the EOF count is shared with the synced
links. -/
def cbAddReq (i : ℕ) (add : AddReq) : Crm ℤ := do
  let idx ← findSlotForReq i add.reqId
  if idx < 0 then
    pure (if add.reqId % 2 ^ 32 ≤ (← link i).lastFlushId then -EBADR else -ENOENT)
  else
    if add.triggerEof then
      modLink i fun l => { l with eofEventCnt := l.eofEventCnt + 1 }
      let l ← link i
      (List.range l.numSyncLinks.toNat).forM fun (k : ℕ) => do
        match ← StateT.lift (elemAt l.syncLink k) with
        | none => throw .null
        | some j => modLink j fun sync => { sync with eofEventCnt := l.eofEventCnt }
    pure 0

/-! ## Flushing -/

/-- `struct cam_req_mgr_flush_info`; `standby` asks for sensor standby. -/
structure FlushInfo where
  reqId : ℤ
  standby : Bool := false
  deriving DecidableEq, Repr

def flushDevWithMaxPd (i : ℕ) (flush : FlushInfo) (flushType maxPd : ℤ) : Crm Unit := do
  let enableStandby := !(← get).disableSensorStandby && flush.standby
  modLink i fun l => { l with isStandby := enableStandby }
  ((← link i).devs.filter fun dev => dev.info.pDelay ≤ maxPd ∧ dev.ops.flushReq).forM fun dev => do
    let _ ← ask (.flushReq dev.devHdl flush.reqId flushType enableStandby)

/-- `__cam_req_mgr_get_dev_pd` of the IFE. -/
def Link.ifePd (l : Link) : ℤ :=
  ((l.devs.find? (·.info.devId = .ife)).map (·.info.pDelay)).getD (-ENODEV)

/-- The highest delay whose devices did not take the request yet. -/
def highestFlushable (l : Link) (reqId : ℤ) : ℕ → ℤ → Except Fault ℤ
  | 0, pd => .ok pd
  | n + 1, pd =>
    if pd + 1 ≤ l.maxDelay then do
      let prev ← elemAt l.prevApplyData (pd + 1)
      if reqId ≤ prev.reqId then .ok pd else highestFlushable l reqId n (pd + 1)
    else .ok pd

/-- The request leaves the queue and the devices of delay at most `pd`. -/
def cancelReq (i : ℕ) (flush : FlushInfo) (idx pd : ℤ) : Crm ℤ := do
  modSlot i idx fun slot => { slot with additionalTimeout := 0 }
  inQSkipIdx i idx
  flushDevWithMaxPd i flush 1 pd
  modLink i fun l => { l with openReqCnt := l.openReqCnt - 1 }
  pure 0

def tryCancelReq (i : ℕ) (flush : FlushInfo) : Crm ℤ := do
  let idx ← findSlotForReq i flush.reqId
  if idx < 0 then pure (-ENOENT)
  else
    let slot ← slotAt i idx
    if 0 < slot.reqId ∧ slot.numSyncLinks ≠ 0 then disconnectReqOnSyncLink i slot
    match slot.status with
    | .reqPending | .reqApplied =>
      let l ← link i
      let pd := l.ifePd
      if pd < 0 ∨ camPipelineDelayMax ≤ pd then pure pd
      else
        let prev ← StateT.lift (elemAt l.prevApplyData pd)
        if flush.reqId ≤ prev.reqId then pure (-EPERM)
        else
          let pd ← StateT.lift (highestFlushable l flush.reqId camPipelineDelayMax pd)
          cancelReq i flush idx pd
    | .reqReady | .reqAdded => cancelReq i flush idx camPipelineDelayMax
    | .noReq => pure (-EINVAL)

/-- `cam_req_mgr_process_flush_req` with `CAM_REQ_MGR_FLUSH_TYPE_ALL`. -/
def flushAll (i : ℕ) (flush : FlushInfo) : Crm ℤ := do
  modLink i fun l => { l with lastFlushId := flush.reqId }
  flushReqSlot i
  modLink i fun l => { l with
    applyData := l.applyData.map fun apply => { apply with reqId := -1 }
    prevApplyData := l.prevApplyData.map fun apply => { apply with reqId := -1 } }
  flushDevWithMaxPd i flush 0 (← link i).maxDelay
  modLink i fun l => { l with openReqCnt := 0, expTimeForResume := 0 }
  pure 0

/-- `cam_req_mgr_process_flush_req` with `CAM_REQ_MGR_FLUSH_TYPE_CANCEL_REQ`. -/
def flushCancel (i : ℕ) (flush : FlushInfo) : Crm ℤ := do
  modLink i fun l => { l with lastFlushId := flush.reqId }
  tryCancelReq i flush

/-! ## Bubbles and triggers -/

/-- `struct cam_req_mgr_error_notify` of a bubble (`isBubble`) or of a warning to recover
internally. -/
structure ErrorNotify where
  isBubble : Bool := true
  notify : TriggerNotify
  deriving DecidableEq, Repr

def reqMaximumBubbleTimes : BitVec 32 := 2

/-- Devices forget that they applied the request of a slot. -/
def forgetApplied (i : ℕ) (idx : ℤ) : Crm Unit :=
  modTblSlots i idx fun slot => { slot with reqApplyMap := 0 }

/-- The synced request and the next one lose their sync; the index moves on to the next. -/
def dropSyncMode (i : ℕ) (idx : ℤ) : Crm ℤ := do
  if (← StateT.lift (elemAt (← link i).syncLink 0)).isSome then
    modSlot i idx fun slot => { slot with syncMode := 0 }
    if (← link i).lTbl.isEmpty then throw .null
    let idx := incIdx idx 1 numSlots
    modSlot i idx fun slot => { slot with syncMode := 0 }
    pure idx
  else pure idx

/-- The internal recovery of back-to-back bubbles. -/
def recoverInternally (i : ℕ) (reqId idx : ℤ) : Crm Unit := do
  let slot ← slotAt i idx
  if reqMaximumBubbleTimes ≤ slot.bubbleTimes ∧ !slot.internalRecovered then
    modLink i fun l => { l with tryForInternalRecovery := true }
    if (← link i).watchdog.isNone then throw .null
    let _ ← sendEvt i (.stalled reqId)
    modSlot i idx fun slot => { slot with internalRecovered := true }
    modLink i fun l => { l with tryForInternalRecovery := false }

/-- Slots behind the bubbled one up to the last applied are to be applied again. -/
def reapplyFrom (i : ℕ) : ℕ → ℤ → Crm Unit
  | 0, _ => pure ()
  | n + 1, idx => do
    let idx := incIdx idx 1 numSlots
    if (← slotAt i idx).status = .reqApplied then
      modSlot i idx fun slot => { slot with status := .reqAdded }
      forgetApplied i idx
    reapplyFrom i n idx

/-- `slot_diff` of `cam_req_mgr_process_error`. -/
def ReqQueue.slotDiff (inQ : ReqQueue) (idx : ℤ) : ℤ :=
  if 0 ≤ inQ.lastAppliedIdx then
    if inQ.lastAppliedIdx - idx < 0 then inQ.lastAppliedIdx - idx + numSlots
    else inQ.lastAppliedIdx - idx
  else 1

/-- A link set back to the slot of a bubbled request. -/
def Link.setBack (l : Link) (idx : ℤ) : Link :=
  { l with
    lTbl := tblSetAllSkipCnt l.lTbl
    inQ := { l.inQ with rdIdx := idx } }

/-- The bubbled request and those applied after it are marked to be applied again. -/
def markBubble (i : ℕ) (err : ErrorNotify) (idx : ℤ) : Crm Unit := do
  modSlot i idx fun slot => { slot with
    bubbleTimes := if err.isBubble then slot.bubbleTimes + 1 else slot.bubbleTimes
    status := .reqAdded }
  forgetApplied i idx
  recoverInternally i err.notify.reqId (← dropSyncMode i idx)
  let l ← link i
  let slotDiff := (l.inQ.slotDiff l.inQ.rdIdx).toNat
  if l.lTbl.isEmpty ∧ slotDiff ≠ 0 then throw .null
  reapplyFrom i slotDiff l.inQ.rdIdx
  modLink i fun l => { l with state := .err, openReqCnt := l.openReqCnt + 1 }

/-- The recovery of `cam_req_mgr_process_error`, up to its final re-apply. -/
def recoverBubble (i : ℕ) (err : ErrorNotify) (idx : ℤ) : Crm Unit := do
  modLink i (·.setBack idx)
  markBubble i err idx

/-- `cam_req_mgr_process_error` of a bubble or an internal recovery warning. -/
def processError (i : ℕ) (err : ErrorNotify) : Crm ℤ := do
  let idx ← findSlotForReq i err.notify.reqId
  if idx < 0 then pure 0
  else
    let slot ← slotAt i idx
    if slot.recover = 0 then pure 0
    else if slot.status ≠ .reqPending ∧ slot.status ≠ .reqApplied then pure (-EINVAL)
    else
      recoverBubble i err idx
      let _ ← processReq i err.notify
      pure 0

/-- The part of `cam_req_mgr_process_trigger` for the request whose buffer is done at SOF. -/
def retireDone (i : ℕ) (t : TriggerNotify) : Crm Unit := do
  let idx ← findSlotForReq i t.reqId
  if 0 ≤ idx then
    modLink i fun l => { l with inQ := { l.inQ with
      lastAppliedIdx := if idx = l.inQ.lastAppliedIdx then -1 else l.inQ.lastAppliedIdx } }
    let rd := (← link i).inQ.rdIdx
    let idx := if idx = rd then decIdx idx 1 numSlots else idx
    resetReqSlot i (decIdx idx ((← resetStep i) + 1) numSlots)

def processTrigger (i : ℕ) (t : TriggerNotify) : Crm ℤ := do
  if t.trigger = triggerPointSof then retireDone i t
  else if t.trigger = triggerPointEof ∧ (← link i).standbyAfterEof then
    let _ ← sendEvt i .eof
  let l ← link i
  let slot ← slotAt i l.inQ.rdIdx
  if l.state.belowReady then pure (-EPERM)
  else if t.trigger = triggerPointSof ∧ slot.status = .reqApplied then
    let rc ← moveToNextReqSlot i
    if rc ≠ 0 then
      notifyFrameSkip i t.trigger
      pure 0
    else processReq i t
  else processReq i t

/-! ## Settings of user space -/

theorem zero_lt_syncLinks : 0 < maximumLinksPerSession - 1 := by decide

/-- What `cam_req_mgr_sync_config` clears in a link it names. -/
def Link.clearSync (l : Link) : Link :=
  { l with
    syncLinkSofSkip := false
    isMaster := false
    inMsyncMode := false
    initialSyncReq := -1
    numSyncLinks := 0
    syncLink := l.syncLink.set 0 none zero_lt_syncLinks }

/-- A link synced with another one; a link named twice is counted twice. -/
def Link.syncWith (l : Link) (other : ℕ) (numSyncLinks : ℤ) : Link :=
  { l with
    syncLink := l.syncLink.set 0 (some other) zero_lt_syncLinks, numSyncLinks := numSyncLinks }

/-- `cam_req_mgr_sync_config` of two handles. -/
def syncConfig (linkHdls : ℤ × ℤ) (sync : Bool) : Crm ℤ := do
  match ← getLinkPriv linkHdls.1, ← getLinkPriv linkHdls.2 with
  | none, _ => pure (-EINVAL)
  | some i, none =>
    modLink i Link.clearSync
    pure (-EINVAL)
  | some i, some j =>
    [(i, j), (j, i)].forM fun pair => do
      modLink pair.1 Link.clearSync
      if sync then modLink pair.1 (·.syncWith pair.2 (if i = j then 2 else 1))
      modLink pair.1 fun l => { l with initialSkip := true, sofTimestamp := 0 }
    pure 0

/-- `cam_req_mgr_link_control` on one link. -/
def linkControl (i : ℕ) (activate : Bool) (initTimeout : ℤ) : Crm ℤ := do
  let l ← link i
  if activate then
    modLink i fun l => { l with
      state := .ready
      skipInitFrame := l.skipInitFrame || initTimeout ≠ 0
      watchdog := some (l.watchdog.getD (2 * initTimeout + watchdogTimeout))
      initialSkip := true }
    let _ ← sendEvt i .resume
    pure (if l.watchdog.isSome then -EFAULT else 0)
  else
    modLink i fun l => { l with isStandby := false }
    let _ ← sendEvt i .pause
    modLink i fun l => { l with state := .idle, skipInitFrame := false, watchdog := none }
    pure 0

/-! ## Runs -/

inductive Op where
  | schedule (linkHdl reqId bubbleEnable syncMode additionalTimeout : ℤ)
  | scheduleV2 (linkHdl : ℤ) (req : SchedReq)
  | cbAddReq (i : ℕ) (add : AddReq)
  | addReq (i : ℕ) (add : AddReq)
  | trigger (i : ℕ) (t : TriggerNotify)
  | flushAll (i : ℕ) (flush : FlushInfo)
  | flushCancel (i : ℕ) (flush : FlushInfo)
  | error (i : ℕ) (err : ErrorNotify)
  | syncConfig (linkHdls : ℤ × ℤ) (sync : Bool)
  | linkControl (i : ℕ) (activate : Bool) (initTimeout : ℤ)
  deriving DecidableEq, Repr

def Op.run : Op → Crm ℤ
  | .schedule linkHdl reqId bubbleEnable syncMode additionalTimeout =>
    scheduleRequest linkHdl reqId bubbleEnable syncMode additionalTimeout
  | .scheduleV2 linkHdl req => scheduleRequestV2 linkHdl req
  | .cbAddReq i add => CamReqMgr.cbAddReq i add
  | .addReq i add => processAddReq i add
  | .trigger i t => processTrigger i t
  | .flushAll i flush => CamReqMgr.flushAll i flush
  | .flushCancel i flush => CamReqMgr.flushCancel i flush
  | .error i err => processError i err
  | .syncConfig linkHdls sync => CamReqMgr.syncConfig linkHdls sync
  | .linkControl i activate initTimeout => CamReqMgr.linkControl i activate initTimeout

/-- One operation with the answers of the devices it calls; a fault ends the run. -/
def advance (s : Except Fault Core) (input : Op × List Answer) : Except Fault Core := do
  let (_, s) ← input.1.run { ← s with answers := input.2 }
  pure s

end QcomModules.CamReqMgr
