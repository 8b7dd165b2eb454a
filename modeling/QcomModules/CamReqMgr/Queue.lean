import QcomModules.CamReqMgr.Link

/-! The input queue of a link: finding, flushing and retiring requests, the watchdog's frame
timeout, and the move of the read index to the next slot. -/

namespace QcomModules.CamReqMgr

/-- `num_slots` as the index arithmetic takes it. -/
def numSlots : ℤ := maxReqSlots

def findSlotFrom (i : ℕ) (reqId : ℤ) : ℕ → ℤ → Crm ℤ
  | 0, _ => pure (-1)
  | n + 1, idx => do
    let slot ← slotAt i idx
    if slot.reqId = reqId then pure idx
    else findSlotFrom i reqId n (decIdx idx 1 numSlots)

def findSlotForReq (i : ℕ) (reqId : ℤ) : Crm ℤ := do
  findSlotFrom i reqId maxReqSlots (← link i).inQ.rdIdx

/-- The slot of a synced link whose request no longer waits for link `hdl`. -/
def Slot.disconnect (slot : Slot) (hdl : ℤ) : Slot :=
  { slot with
    syncMode := 0
    numSyncLinks := 0
    syncLinkHdls := slot.syncLinkHdls.map fun h => if h = hdl then 0 else h }

def disconnectSyncLink (hdl : ℤ) (slot : Slot) (k : ℕ) : Crm Unit := do
  match ← getLinkPriv (← StateT.lift (elemAt slot.syncLinkHdls k)) with
  | none => pure ()
  | some j =>
    let syncIdx ← findSlotForReq j slot.reqId
    if syncIdx < 0 then pure ()
    else
      let syncSlot ← slotAt j syncIdx
      if syncSlot.syncMode = syncModeSync then modSlot j syncIdx (·.disconnect hdl)

def disconnectReqOnSyncLink (i : ℕ) (slot : Slot) : Crm Unit := do
  let l ← link i
  (List.range slot.numSyncLinks.toNat).forM (disconnectSyncLink l.linkHdl slot)

/-- What `__cam_req_mgr_flush_req_slot` leaves in a slot of the input queue. -/
def Slot.flushed (slot : Slot) : Slot :=
  { slot with
    reqId := -1
    bubbleTimes := 0
    internalRecovered := false
    skipIdx := 1
    recover := 0
    additionalTimeout := 0
    syncMode := 0
    status := .noReq
    numSyncLinks := 0
    syncLinkHdls := .replicate _ 0 }

/-- What `__cam_req_mgr_flush_req_slot` leaves in a slot of a pipeline delay table. -/
def TblSlot.flushed (slot : TblSlot) : TblSlot :=
  { slot with reqReadyMap := 0, reqApplyMap := 0, state := .empty, ops := {} }

def flushSlot (i : ℕ) (idx : ℕ) : Crm Unit := do
  let slot ← slotAt i idx
  if 0 < slot.reqId ∧ slot.numSyncLinks ≠ 0 then disconnectReqOnSyncLink i slot
  modSlot i idx Slot.flushed
  modTblSlots i idx TblSlot.flushed

def flushReqSlot (i : ℕ) : Crm Unit := do
  (List.range maxReqSlots).forM (flushSlot i)
  modLink i fun l => { l with
    eofEventCnt := 0
    inQ := { l.inQ with wrIdx := 0, rdIdx := 0 }
    contEmptySlots := 0 }

/-- What `__cam_req_mgr_reset_req_slot` leaves in a slot of the input queue. -/
def Slot.retired (slot : Slot) : Slot :=
  { slot with
    reqId := -1
    bubbleTimes := 0
    internalRecovered := false
    skipIdx := 0
    recover := 0
    additionalTimeout := 0
    recoveryCounter := 0
    syncMode := 0
    status := .noReq
    numSyncLinks := 0
    skipSet := false
    frameSyncShift := 0
    syncLinkHdls := .replicate _ 0 }

def resetReqSlot (i : ℕ) (idx : ℤ) : Crm Unit := do
  if idx < 0 then pure ()
  else
    let slot ← slotAt i idx
    let l ← link i
    if slot.status = .reqAdded ∨ l.inQ.lastAppliedIdx = idx then pure ()
    else
      if 0 < slot.reqId ∧ slot.numSyncLinks ≠ 0 then disconnectReqOnSyncLink i slot
      modSlot i idx Slot.retired
      modTblSlots i idx fun _ => {}

def watchdogTimeout : ℤ := 1000

def computeTimeout (x : ℤ) : ℤ :=
  x + (x * (x + 25)).tdiv 100

/-- The new expiry of a watchdog that expires after `expires` milliseconds. -/
def watchdogFor (maxFrameTimeout expires : ℤ) : ℤ :=
  if maxFrameTimeout + watchdogTimeout > expires then maxFrameTimeout + watchdogTimeout
  else if maxFrameTimeout ≠ 0 then watchdogTimeout + computeTimeout maxFrameTimeout
  else if expires > watchdogTimeout then watchdogTimeout
  else expires

def validateCrmWdTimer (i : ℕ) : Crm Unit := do
  let l ← link i
  if l.skipInitFrame then modLink i fun l => { l with skipInitFrame := false }
  else
    let next ← slotAt i (decIdx l.inQ.rdIdx (l.maxDelay - 1) numSlots)
    let current ← slotAt i (decIdx l.inQ.rdIdx l.maxDelay numSlots)
    if current.reqId = -1 ∧ next.reqId = -1 then
      if l.expTimeForResume ≠ 0 then
        modLink i fun l => { l with
          watchdog := l.watchdog.map fun _ => l.expTimeForResume + watchdogTimeout
          expTimeForResume := 0 }
    else
      modLink i fun l => { l with
        watchdog := l.watchdog.map
          (watchdogFor (max current.additionalTimeout next.additionalTimeout)) }

def Link.checkForLowerPdDevices (l : Link) : ℤ :=
  if l.devs.any (·.info.pDelay < l.maxDelay) then 0 else -EAGAIN

def inQSkipIdx (i : ℕ) (idx : ℤ) : Crm Unit :=
  modSlot i idx fun slot => { slot with reqId := -1, skipIdx := 1 }

/-- The part of `__cam_req_mgr_move_to_next_req_slot` for a slot without a request. -/
def skipEmptySlot (i : ℕ) (idx : ℤ) : Crm ℤ := do
  let l ← link i
  let rc := l.checkForLowerPdDevices
  if rc ≠ 0 then pure rc
  else
    modLink i fun l => { l with contEmptySlots := l.contEmptySlots + 1 }
    if l.maxDelay ≤ l.contEmptySlots then pure (-EAGAIN)
    else
      inQSkipIdx i idx
      modSlot i idx fun slot => { slot with status := .reqAdded }
      if l.inQ.wrIdx = idx then
        modLink i fun l => { l with inQ := { l.inQ with wrIdx := incIdx l.inQ.wrIdx 1 numSlots } }
      pure 0

def moveToNextReqSlot (i : ℕ) : Crm ℤ := do
  let l ← link i
  let idx := incIdx l.inQ.rdIdx 1 numSlots
  if (← slotAt i idx).status = .reqApplied then
    -- A slot that irq congestion kept from being reset in time.
    modLink i fun l => { l with inQ := { l.inQ with
      lastAppliedIdx := if l.inQ.lastAppliedIdx = idx then -1 else l.inQ.lastAppliedIdx } }
    resetReqSlot i idx
  let rc ←
    if (← slotAt i idx).status = .noReq then skipEmptySlot i idx
    else do
      modLink i fun l => { l with contEmptySlots := 0 }
      pure 0
  if rc ≠ 0 then pure rc
  else
    modLink i fun l => { l with inQ := { l.inQ with rdIdx := incIdx l.inQ.rdIdx 1 numSlots } }
    pure 0

end QcomModules.CamReqMgr
