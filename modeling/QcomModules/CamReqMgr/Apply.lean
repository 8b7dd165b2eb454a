import QcomModules.CamReqMgr.Readiness

/-! Applying the request at the read index: what the devices are sent, retries after a refused
apply, and the retirement of the request applied before. -/

namespace QcomModules.CamReqMgr

/-! ## Notices to the devices -/

/-- The search for the sensor that tells whether the frame duration changes; `none` where it
fails. -/
def askFrameDuration (i : ℕ) (wanted : ConnectedDevice → Crm Bool) :
    List ConnectedDevice → Crm (Option Bool)
  | [] => pure (some false)
  | dev :: devs => do
    if dev.info.devId = .sensor ∧ dev.ops.processEvt ∧ (← wanted dev) then
      let l ← link i
      let prev ← StateT.lift (elemAt l.prevApplyData dev.pdTbl)
      let answer ← ask (.processEvt dev.devHdl
        (.frameDurationChanging prev.reqId (l.state = .err)))
      pure (if answer.rc ≠ 0 then none else some answer.flag)
    else askFrameDuration i wanted devs

def notifyDevFrameSkip (i : ℕ) (trigger : BitVec 32) (frameDurationChanging : Bool)
    (dev : ConnectedDevice) : Crm Unit := do
  let l ← link i
  if camPipelineDelayMax ≤ dev.info.pDelay then pure ()
  else
    let prev ← StateT.lift (elemAt l.prevApplyData dev.info.pDelay)
    let slot ← tblSlotAt i dev.pdTbl prev.idx
    let found := slot.ops.devHdl.contains dev.devHdl
    let atOtherTrigger := found ∧ (trigger = triggerPointSof ∧ slot.ops.applyAtEof ∨
      trigger = triggerPointEof ∧ !slot.ops.applyAtEof)
    if atOtherTrigger ∨ !dev.ops.notifyFrameSkip then pure ()
    else
      let lastApplied ← StateT.lift (elemAt l.prevApplyData l.maxDelay)
      let _ ← ask (.notifyFrameSkip {
        linkHdl := l.linkHdl
        devHdl := dev.devHdl
        requestId := prev.reqId
        triggerPoint := trigger
        lastAppliedMaxPdReq := lastApplied.reqId
        frameDurationChanging })

def notifyFrameSkip (i : ℕ) (trigger : BitVec 32) : Crm Unit := do
  let l ← link i
  if l.maxDelay < 0 ∨ camPipelineDelayMax ≤ l.maxDelay then pure ()
  else
    match ← askFrameDuration i (fun _ => pure true) l.devs with
    | none => pure ()
    | some frameDurationChanging =>
      l.devs.forM (notifyDevFrameSkip i trigger frameDurationChanging)

/-- The loop of `__cam_req_mgr_send_evt`; a device whose recovery failed resets the flag. -/
def sendEvtTo (evt : Bool → LinkEvt) : List ConnectedDevice → Bool → Crm (ℤ × Bool)
  | [], tryForRecovery => pure (0, tryForRecovery)
  | dev :: devs, tryForRecovery => do
    if dev.ops.processEvt then
      let answer ← ask (.processEvt dev.devHdl (evt tryForRecovery))
      let tryForRecovery := tryForRecovery && !answer.flag
      if answer.rc ≠ 0 then pure (answer.rc, tryForRecovery)
      else sendEvtTo evt devs tryForRecovery
    else sendEvtTo evt devs tryForRecovery

def sendEvt (i : ℕ) (evt : Bool → LinkEvt) : Crm ℤ := do
  let l ← link i
  let (rc, tryForRecovery) ← sendEvtTo evt l.devs l.tryForInternalRecovery
  modLink i fun l => { l with tryForInternalRecovery := tryForRecovery }
  pure rc

/-- `__cam_req_mgr_notify_error_on_link`, up to the message to user space. -/
def notifyErrorOnLink (i : ℕ) (dev : ConnectedDevice) : Crm Unit := do
  let l ← link i
  if camPipelineDelayMax ≤ dev.info.pDelay ∨ camPipelineDelayMax ≤ l.minDelay then pure ()
  else
    let apply ← StateT.lift (elemAt l.applyData l.minDelay)
    let _ ← sendEvt i (.stalled apply.reqId)

/-! ## Sending the request -/

/-- `apply_data[pd].skip_idx || apply_data[pd].req_id < 0`. -/
def Apply.skips (apply : Apply) : Bool :=
  apply.skipIdx ≠ 0 ∨ apply.reqId < 0

/-- The event at which a device hears of frames without a request for it. -/
def skipRequest (i : ℕ) (trigger : BitVec 32) (dev : ConnectedDevice) (req : ApplyRequest) :
    Crm ApplyRequest := do
  let l ← link i
  let prev ← StateT.lift (elemAt l.prevApplyData dev.info.pDelay)
  let lastApplied ← StateT.lift (elemAt l.prevApplyData l.maxDelay)
  let req := { req with
    devHdl := dev.devHdl
    requestId := prev.reqId
    triggerPoint := trigger
    reportIfBubble := 0
    lastAppliedMaxPdReq := lastApplied.reqId }
  pure req

/-- A loop over the devices goes on, is left, or returns from `__cam_req_mgr_send_req`. -/
inductive SendLoop where
  | next (req : ApplyRequest)
  | done (req : ApplyRequest)
  | ret (rc : ℤ) (failedDev : Option ConnectedDevice)

/-- After its request at EOF is applied, a device that listens to EOF on its own account may
stop. -/
def afterEofApply (i : ℕ) (dev : ConnectedDevice) (idx : ℤ) : Crm Unit := do
  modTblSlot i dev.pdTbl idx fun slot => { slot with ops := { slot.ops with applyAtEof := false } }
  modLink i fun l => { l with
    eofEventCnt := if 0 < l.eofEventCnt then l.eofEventCnt - 1 else l.eofEventCnt }
  let l ← link i
  if l.eofEventCnt = 0 ∧ !l.standbyAfterEof then
    (l.devs.filter (·.ops.processEvt)).forM fun dev => do
      let _ ← ask (.processEvt dev.devHdl (.registerEof false))

/-- A device of the special operations loop of `__cam_req_mgr_send_req`. -/
def sendSpecial (i : ℕ) (trigger : BitVec 32) (req : ApplyRequest) (dev : ConnectedDevice) :
    Crm SendLoop := do
  let l ← link i
  if camPipelineDelayMax ≤ dev.info.pDelay then pure (.next req)
  else
    let apply ← StateT.lift (elemAt l.applyData dev.info.pDelay)
    let slot ← tblSlotAt i dev.pdTbl apply.idx
    if slot.ops.devHdl.contains dev.devHdl = false ∨ slot.reqApplyMap &&& bit dev.devBit ≠ 0 then
      pure (.next req)
    else if apply.skips then
      let req ← skipRequest i trigger dev req
      if dev.ops.notifyFrameSkip then
        let _ ← ask (.notifyFrameSkip req)
      pure (.next req)
    -- A request for EOF is not applied at SOF, nor one without EOF data at EOF.
    else if trigger = triggerPointSof ∧ slot.ops.applyAtEof ∨
        trigger = triggerPointEof ∧ !slot.ops.applyAtEof then
      pure (.done req)
    else
      let req := { req with
        devHdl := dev.devHdl, requestId := apply.reqId, triggerPoint := trigger }
      if !dev.ops.applyReq then pure (.done req)
      else
        let answer ← ask (.applyReq req)
        if answer.rc ≠ 0 then
          notifyFrameSkip i trigger
          pure (.ret answer.rc (some dev))
        else
          modTblSlot i dev.pdTbl apply.idx fun slot =>
            { slot with reqApplyMap := slot.reqApplyMap ||| bit dev.devBit }
          if trigger = triggerPointEof ∧ slot.ops.applyAtEof then
            afterEofApply i dev apply.idx
            pure (.ret 0 none)
          else pure (.next req)

def sendSpecials (i : ℕ) (trigger : BitVec 32) :
    List ConnectedDevice → ApplyRequest → Crm SendLoop
  | [], req => pure (.done req)
  | dev :: devs, req => do
    match ← sendSpecial i trigger req dev with
    | .next req => sendSpecials i trigger devs req
    | out => pure out

/-- The state of the regular loop of `__cam_req_mgr_send_req`. -/
structure SendState where
  rc : ℤ := 0
  req : ApplyRequest
  reqAppliedToMinPd : ℤ := -1

/-- The marks a device that was not refused leaves: its bit in the apply map, and the time the
sensor took the request. -/
def markApplied (i : ℕ) (dev : ConnectedDevice) (idx : ℤ) (doneTimestamp : UInt64) : Crm Unit := do
  if dev.ops.applyReq then
    modTblSlot i dev.pdTbl idx fun slot =>
      { slot with reqApplyMap := slot.reqApplyMap ||| bit dev.devBit }
  if dev.info.devId = .sensor then
    modLink i fun l => { l with lastAppliedDoneTimestamp := doneTimestamp }

/-- A device of the regular loop of `__cam_req_mgr_send_req`; `reqSlotId` is the request id of
the slot read at its start. -/
def sendRegular (i : ℕ) (trigger : BitVec 32) (reqSlotId : ℤ) (frameDurationChanging : Bool)
    (st : SendState) (dev : ConnectedDevice) : Crm SendState := do
  let l ← link i
  if camPipelineDelayMax ≤ dev.info.pDelay ∨ dev.info.trigger &&& trigger = 0 then pure st
  else
    let apply ← StateT.lift (elemAt l.applyData dev.info.pDelay)
    if apply.skips then
      let req ← skipRequest i trigger dev st.req
      let req := { req with noFurtherRequests := reqSlotId = -1, frameDurationChanging }
      if dev.ops.notifyFrameSkip then
        let _ ← ask (.notifyFrameSkip req)
      pure { st with req }
    else
      let slot ← tblSlotAt i dev.pdTbl apply.idx
      let inQSlot ← slotAt i apply.idx
      let req := { st.req with
        devHdl := dev.devHdl
        requestId := apply.reqId
        reportIfBubble := inQSlot.recover
        reApply := st.req.reApply ||
          decide (0 < l.retryCnt) && inQSlot.recover == 0 && l.dualTrigger }
      let found := slot.ops.devHdl.contains dev.devHdl
      if slot.reqApplyMap &&& bit dev.devBit ≠ 0 ∨
          found ∧ (trigger = triggerPointSof ∧ slot.ops.applyAtEof ∨
            trigger = triggerPointEof ∧ !slot.ops.applyAtEof) then
        pure { st with req }
      else
        let req := { req with
          triggerPoint := trigger
          frameDurationChanging
          lastAppliedDoneTimestamp :=
            if dev.info.devId = .ife ∧ inQSlot.mismatchedFrameMode = 0 then
              l.lastAppliedDoneTimestamp
            else 0 }
        let answer ←
          if dev.ops.applyReq then ask (.applyReq req) else pure { rc := st.rc }
        let req := if dev.ops.applyReq then
          { req with lastAppliedDoneTimestamp := answer.lastAppliedDoneTimestamp } else req
        if dev.ops.applyReq ∧ answer.rc < 0 then pure { st with rc := answer.rc, req }
        else
          markApplied i dev apply.idx req.lastAppliedDoneTimestamp
          pure { rc := answer.rc, req, reqAppliedToMinPd :=
            if dev.info.pDelay = l.minDelay then req.requestId else st.reqAppliedToMinPd }

/-- The regular loop; it is left at the device that refuses, which is returned with the devices
asked before it, last first. -/
def sendRegulars (i : ℕ) (trigger : BitVec 32) (reqSlotId : ℤ) (frameDurationChanging : Bool) :
    List ConnectedDevice → List ConnectedDevice → SendState →
      Crm (SendState × List ConnectedDevice)
  | _, [], st => pure (st, [])
  | asked, dev :: devs, st => do
    let st ← sendRegular i trigger reqSlotId frameDurationChanging st dev
    if st.rc < 0 then pure (st, dev :: asked)
    else sendRegulars i trigger reqSlotId frameDurationChanging (dev :: asked) devs st

/-- The end of `__cam_req_mgr_send_req`, after the regular loop. -/
def finishSend (i : ℕ) (trigger : BitVec 32) (st : SendState) (asked : List ConnectedDevice) :
    Crm (ℤ × Option ConnectedDevice) := do
  if st.rc < 0 then
    (asked.filter (·.ops.processEvt)).forM fun dev => do
      let _ ← ask (.processEvt dev.devHdl (.bubble st.req.requestId))
    notifyFrameSkip i trigger
    pure (st.rc, asked.head?)
  else
    modLink i fun l => { l with
      prevApplyData := l.applyData
      openReqCnt := if 0 < st.reqAppliedToMinPd then l.openReqCnt - 1 else l.openReqCnt }
    pure (st.rc, none)

/-- `__cam_req_mgr_send_req`: its code and the device that failed, if one did. -/
def sendReq (i : ℕ) (trigger : BitVec 32) : Crm (ℤ × Option ConnectedDevice) := do
  let l ← link i
  if l.maxDelay < 0 ∨ camPipelineDelayMax ≤ l.maxDelay then pure (-EINVAL, none)
  else
    let reqSlot ← slotAt i l.inQ.rdIdx
    let wanted (dev : ConnectedDevice) : Crm Bool := do
      pure (← StateT.lift (elemAt l.applyData dev.pdTbl)).skips
    match ← askFrameDuration i wanted l.devs with
    | none => pure (-EINVAL, none)
    | some frameDurationChanging =>
      let req : ApplyRequest :=
        { linkHdl := l.linkHdl
          reApply := decide (0 < l.retryCnt) && (← get).recoveryOnApplyFail
          recovery := l.state = .err }
      match ← sendSpecials i trigger l.devs req with
      | .ret rc failedDev => pure (rc, failedDev)
      | .next req | .done req =>
        let (st, asked) ←
          sendRegulars i trigger reqSlot.reqId frameDurationChanging [] l.devs { req }
        finishSend i trigger st asked

/-! ## Processing the read index -/

/-- `struct cam_req_mgr_trigger_notify` and the time it is processed at. -/
structure TriggerNotify where
  trigger : BitVec 32
  reqId : ℤ := 0
  sofTimestampVal : UInt64 := 0
  jiffies : UInt64 := 0
  deriving DecidableEq, Repr

/-- The frame times and the congestion check a processed SOF updates. -/
def Link.noteSof (l : Link) (t : TriggerNotify) (msecsPerJiffy : ℕ) : Link :=
  let timeout := (t.sofTimestampVal - l.sofTimestamp) / 2 / 1000000
  { l with
    prevSofTimestamp := l.sofTimestamp
    sofTimestamp := t.sofTimestampVal
    workCongestion :=
      (t.jiffies - l.lastSofTriggerJiffies).toNat * msecsPerJiffy < timeout.toNat
    lastSofTriggerJiffies := t.jiffies }

/-- The local `sync_link` array of `__cam_req_mgr_process_req` and its length: the links of
`sched_req` v1 where the slot names none, else those the slot names. -/
def syncLinksOf (i : ℕ) (slot : Slot) :
    Crm (ℤ × Vector (Option ℕ) (maximumLinksPerSession - 1)) := do
  let l ← link i
  if slot.numSyncLinks = 0 then
    let array ← (List.range l.numSyncLinks.toNat).foldlM (fun array (k : ℕ) => do
      let sync ← StateT.lift (elemAt l.syncLink k)
      StateT.lift (modElem array k fun _ => sync)) (.replicate _ none)
    pure (l.numSyncLinks, array)
  else
    let array ← (List.range slot.numSyncLinks.toNat).foldlM (fun array (k : ℕ) => do
      let sync ← getLinkPriv (← StateT.lift (elemAt slot.syncLinkHdls k))
      StateT.lift (modElem array k fun _ => sync)) (.replicate _ none)
    pure (slot.numSyncLinks, array)

/-- The links of `link->sync_link` that are set. -/
def syncedLinks (l : Link) : Crm (List ℕ) := do
  let links ← (List.range l.numSyncLinks.toNat).mapM fun (k : ℕ) =>
    StateT.lift (elemAt l.syncLink k)
  pure (links.filterMap id)

/-- A request without sync takes its link and the synced ones out of the master-slave mode. -/
def leaveMsyncMode (i : ℕ) : Crm Unit := do
  let l ← link i
  if l.inMsyncMode then
    modLink i fun l => { l with inMsyncMode := false, initialSyncReq := -1 }
    (← syncedLinks l).forM fun j =>
      modLink j fun l => { l with inMsyncMode := false, initialSyncReq := -1 }

/-- The check of a request without sync: ready, not delayed, and its settings taken. -/
def checkSolo (i : ℕ) (slot : Slot) (trigger : BitVec 32) : Crm ℤ := do
  leaveMsyncMode i
  let rc ← checkLinkIsReady i slot.idx true
  if rc ≠ 0 then pure rc
  else
    let rc ← injectDelayOnLink i slot.idx trigger
    if rc ≠ 0 then pure rc else checkLinkIsReady i slot.idx false

/-- The check of a request that is not yet known to be ready. -/
def checkRequest (i : ℕ) (slot : Slot) (trigger : BitVec 32) : Crm ℤ := do
  if slot.syncMode = syncModeSync then
    let (numSyncLinks, syncLink) ← syncLinksOf i slot
    checkMultiSyncLinkReady i syncLink slot numSyncLinks trigger
  else checkSolo i slot trigger

/-- The checks of `__cam_req_mgr_process_req` on a request: the code with which the frame goes
by, or `none` where the request is sent. -/
def admitReq (i : ℕ) (slot : Slot) (rd : ℤ) (trigger : BitVec 32) : Crm (Option ℤ) := do
  if slot.status ≠ .reqReady then
    let rc ← checkRequest i slot trigger
    if rc < 0 then
      modSlot i rd fun slot => { slot with status := .reqPending }
      pure (some (if (← link i).state = .err then -EPERM else rc))
    else
      modSlot i rd fun slot => { slot with status := .reqReady }
      modLink i fun l => { l with isSendingReq := true }
      pure none
  else
    let rc ← injectDelayOnLink i slot.idx trigger
    if rc < 0 then pure (some rc) else pure none

/-- A request refused three times is reported, and internal recovery tried at the first such
stall. -/
def reportRefusals (i : ℕ) (rd : ℤ) (dev : ConnectedDevice) : Crm Unit := do
  let slot ← slotAt i rd
  modLink i fun l => { l with
    tryForInternalRecovery := l.tryForInternalRecovery || slot.recoveryCounter == 0 }
  notifyErrorOnLink i dev
  if (← link i).tryForInternalRecovery then
    modSlot i rd fun slot => { slot with recoveryCounter := slot.recoveryCounter + 1 }
  modLink i fun l => { l with tryForInternalRecovery := false, retryCnt := 0 }

/-- A refused apply is retried at the next frame. -/
def retryLater (i : ℕ) (rd rc : ℤ) (failedDev : Option ConnectedDevice) : Crm Unit := do
  modSlot i rd fun slot => { slot with status := .reqPending }
  modLink i fun l => { l with isSendingReq := false }
  match failedDev with
  | none => pure ()
  | some dev =>
    if (← link i).workCongestion then pure ()
    else
      modLink i fun l => { l with
        retryCnt := if rc ≠ -EAGAIN then l.retryCnt + 1 else l.retryCnt }
      -- `MAXIMUM_RETRY_ATTEMPTS`
      if 3 ≤ (← link i).retryCnt then reportRefusals i rd dev

/-- Whether every device has the request its table's delay selects. -/
def allApplied (i : ℕ) (applyData : Vector Apply camPipelineDelayMax) :
    List ConnectedDevice → Crm (Option Bool)
  | [] => pure (some true)
  | dev :: devs => do
    if camPipelineDelayMax ≤ dev.info.pDelay then pure none
    else
      let apply ← StateT.lift (elemAt applyData dev.info.pDelay)
      let tbl ← tblAt i dev.pdTbl
      let tblSlot ← tblSlotAt i dev.pdTbl apply.idx
      if apply.reqId ≠ -1 ∧ tblSlot.reqApplyMap ≠ tbl.devMask then pure (some false)
      else allApplied i applyData devs

/-- `reset_step`: how far behind the read index a slot is retired. -/
def resetStep (i : ℕ) : Crm ℤ := do
  let l ← link i
  (← syncedLinks l).foldlM (fun step j => do
    let sync ← link j
    pure (if l.inMsyncMode ∧ step < sync.maxDelay then sync.maxDelay else step)) l.maxDelay

/-- The end of `__cam_req_mgr_process_req` after the devices took the request. -/
def settleApplied (i : ℕ) (rd rc : ℤ) : Crm ℤ := do
  modLink i fun l => { l with retryCnt := 0 }
  validateCrmWdTimer i
  modLink i fun l => { l with
    state := if l.state = .err then .ready else l.state
    syncLinkSofSkip := false }
  let l ← link i
  match ← allApplied i l.applyData l.devs with
  | none => pure (-EINVAL)
  | some applied =>
    if applied then
      modSlot i rd fun slot => { slot with status := .reqApplied }
      modLink i fun l => { l with inQ := { l.inQ with lastAppliedIdx := rd } }
      resetReqSlot i (decIdx rd ((← resetStep i) + 1) numSlots)
    modLink i fun l => { l with isSendingReq := false }
    pure rc

def processReq (i : ℕ) (t : TriggerNotify) : Crm ℤ := do
  let l ← link i
  let rd := l.inQ.rdIdx
  if l.state = .idle then pure (-EPERM)
  else
    let slot ← slotAt i rd
    if t.trigger ≠ triggerPointSof ∧ t.trigger ≠ triggerPointEof ∨
        t.trigger = triggerPointEof ∧ l.eofEventCnt = 0 ∨ slot.status = .reqApplied then
      pure 0
    else if t.trigger = triggerPointSof ∧ slot.status = .noReq then
      notifyFrameSkip i t.trigger
      pure 0
    else
      let msecsPerJiffy := (← get).msecsPerJiffy
      if t.trigger = triggerPointSof then modLink i (·.noteSof t msecsPerJiffy)
      match ← admitReq i slot rd t.trigger with
      | some rc =>
        notifyFrameSkip i t.trigger
        validateCrmWdTimer i
        pure rc
      | none =>
        let (rc, failedDev) ← sendReq i t.trigger
        if rc < 0 then
          retryLater i rd rc failedDev
          pure rc
        else settleApplied i rd rc

end QcomModules.CamReqMgr
