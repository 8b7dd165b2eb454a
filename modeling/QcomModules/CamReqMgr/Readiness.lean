import QcomModules.CamReqMgr.Queue

/-! Whether a request may be applied: the walk over the pipeline delay tables, injected delays,
and the checks against the links a request is synced with. -/

namespace QcomModules.CamReqMgr

/-! ## The walk over the tables -/

/-- `__cam_req_mgr_inject_delay`: the code, and the tables with their delays counted down. -/
def injectDelay (trigger : BitVec 32) : List ReqTbl → ℤ → Except Fault (ℤ × List ReqTbl)
  | [], _ => .ok (0, [])
  | tbl :: rest, currIdx => do
    let slot ← elemAt tbl.slot currIdx
    let atSof := trigger = triggerPointSof ∧ 0 < slot.injectDelayAtSof
    let atEof := trigger = triggerPointEof ∧ 0 < slot.injectDelayAtEof
    let slots ← modElem tbl.slot currIdx fun slot =>
      if atSof then { slot with injectDelayAtSof := slot.injectDelayAtSof - 1 }
      else if atEof then { slot with injectDelayAtEof := slot.injectDelayAtEof - 1 }
      else slot
    let (rc, rest) ← injectDelay trigger rest (decIdx currIdx tbl.pdDelta numSlots)
    .ok (if atSof ∨ atEof then -EAGAIN else rc, { tbl with slot := slots } :: rest)

/-- `struct cam_req_mgr_traverse` on the way back up: the code, the mask of tables that may
proceed, and what was written to the apply data and the skip counters. -/
structure TraverseData where
  rc : ℤ
  result : BitVec 32
  applyData : Vector Apply camPipelineDelayMax
  lTbl : List ReqTbl

/-- A table that may proceed at `currIdx`: its request goes to the apply data, except that a
table still skipping the first frames applies none. -/
def proceed (inQ : ReqQueue) (tbl : ReqTbl) (currIdx : ℤ) (validateOnly : Bool)
    (below : TraverseData) : Except Fault TraverseData := do
  let result := below.result ||| bit tbl.pd.toNat
  if validateOnly then .ok { below with rc := 0, result, lTbl := tbl :: below.lTbl }
  else
    let slot ← elemAt inQ.slot currIdx
    let skips := decide (0 < tbl.skipTraverse)
    let applyData ← modElem below.applyData tbl.pd fun apply =>
      { apply with
        pd := tbl.pd, reqId := if skips then -1 else slot.reqId, idx := currIdx }
    let tbl := if skips then { tbl with skipTraverse := tbl.skipTraverse - 1 } else tbl
    .ok { rc := 0, result, applyData, lTbl := tbl :: below.lTbl }

/-- `__cam_req_mgr_traverse` from a table on; past the last one nothing is missing. -/
def traverseTbls (inQ : ReqQueue) (applyData : Vector Apply camPipelineDelayMax)
    (validateOnly : Bool) : List ReqTbl → ℤ → Except Fault TraverseData
  | [], _ => .ok ⟨0, 0, applyData, []⟩
  | tbl :: rest, currIdx => do
    let tblSlot ← elemAt tbl.slot currIdx
    let slot ← elemAt inQ.slot currIdx
    if tblSlot.state = .ready ∨ slot.skipIdx = 1 ∨ 0 < tbl.skipTraverse then
      let below ←
        traverseTbls inQ applyData validateOnly rest (decIdx currIdx tbl.pdDelta numSlots)
      if 0 ≤ below.rc then proceed inQ tbl currIdx validateOnly below
      else .ok { below with lTbl := tbl :: below.lTbl }
    else .ok ⟨-EAGAIN, 0, applyData, tbl :: rest⟩

def traverse (inQ : ReqQueue) (applyData : Vector Apply camPipelineDelayMax)
    (validateOnly : Bool) (lTbl : List ReqTbl) (idx : ℤ) : Except Fault TraverseData :=
  match lTbl with
  | [] => .ok ⟨-EINVAL, 0, applyData, []⟩
  | _ => traverseTbls inQ applyData validateOnly lTbl idx

def checkLinkIsReady (i : ℕ) (idx : ℤ) (validateOnly : Bool) : Crm ℤ := do
  modLink i fun l => { l with
    applyData := if validateOnly then l.applyData else .replicate _ {}
    initialSkip := false }
  let linkSlot ← slotAt i idx
  let l ← link i
  let data ← StateT.lift (traverse l.inQ l.applyData validateOnly l.lTbl idx)
  modLink i fun l => { l with applyData := data.applyData, lTbl := data.lTbl }
  if data.rc = 0 ∧ data.result = l.pdMask then
    if (← get).simulateSkipFrame ∧ linkSlot.skipSet then
      modSlot i idx fun slot => { slot with skipSet := false }
      pure (-EAGAIN)
    else pure 0
  else pure (-EAGAIN)

/-- `__cam_req_mgr_inject_delay` on the tables of a link. -/
def injectDelayOnLink (i : ℕ) (idx : ℤ) (trigger : BitVec 32) : Crm ℤ := do
  let (rc, lTbl) ← StateT.lift (injectDelay trigger (← link i).lTbl idx)
  modLink i (·.withTbls lTbl)
  pure rc

/-! ## Requests synced with other links -/

/-- `link->max_delay - sync_link->max_delay` as C computes it on an unsigned enumeration. -/
def delayAhead (l sync : Link) : ℤ :=
  (l.maxDelay - sync.maxDelay) % 2 ^ 32

def setSyncLinkSofSkip (i : ℕ) (skip : Bool) : Crm Unit :=
  modLink i fun l => { l with syncLinkSofSkip := skip }

/-- The part of `__cam_req_mgr_check_sync_for_mslave` that looks for the request `syncReqId` on
the other link; a request missing or unready there marks this link's frame as skipped. -/
def checkOtherLink (i j : ℕ) (syncReqId : ℤ) : Crm ℤ := do
  let sync ← link j
  if sync.initialSyncReq ≠ -1 ∧ sync.initialSyncReq ≤ syncReqId then
    let syncSlotIdx ← findSlotForReq j syncReqId
    if syncSlotIdx = -1 then
      setSyncLinkSofSkip i true
      pure (-EINVAL)
    else if (← slotAt j syncSlotIdx).status ≠ .reqApplied ∧
        1 ≤ (syncSlotIdx - sync.inQ.rdIdx + numSlots).tmod numSlots ∧
        (← slotAt j sync.inQ.rdIdx).status ≠ .reqApplied then
      pure (-EINVAL)
    else
      let rc ← checkLinkIsReady j syncSlotIdx true
      if rc ≠ 0 ∧ (← slotAt j syncSlotIdx).status ≠ .reqApplied then
        setSyncLinkSofSkip i true
        pure rc
      else pure 0
  else pure 0

/-- The own request of a master or slave link is checked before the other link's. -/
def checkOwnLink (i : ℕ) (slot : Slot) : Crm ℤ := do
  let rc ← checkLinkIsReady i slot.idx true
  if rc ≠ 0 then setSyncLinkSofSkip i true
  pure rc

/-- The ready check of `__cam_req_mgr_check_sync_for_mslave`: the link of larger delay looks
back, the one of smaller delay ahead, by the difference of the delays. -/
def checkMslaveReady (i j : ℕ) (slot : Slot) (l sync : Link) : Crm ℤ := do
  if l.isMaster then
    if sync.initialSkip then pure (-EAGAIN)
    else
      let rc ← checkOwnLink i slot
      if rc ≠ 0 then pure rc
      else
        let prevIdx := decIdx slot.idx (l.maxDelay - sync.maxDelay) numSlots
        checkOtherLink i j (← slotAt i prevIdx).reqId
  else
    modLink i fun l => { l with initialSkip := false }
    let rc ← checkOwnLink i slot
    if rc ≠ 0 then pure rc
    else
      let nextIdx := incIdx l.inQ.rdIdx (sync.maxDelay - l.maxDelay) numSlots
      checkOtherLink i j (← slotAt i nextIdx).reqId

def checkSyncForMslave (i j : ℕ) (slot : Slot) : Crm ℤ := do
  let l ← link i
  let sync ← link j
  if sync.syncLinkSofSkip then
    setSyncLinkSofSkip j false
    pure (-EAGAIN)
  else if l.inMsyncMode ∧ sync.inMsyncMode ∧
      slot.reqId - (← slotAt j sync.inQ.rdIdx).reqId > delayAhead l sync then
    pure (-EINVAL)
  else checkMslaveReady i j slot l sync

def defaultFrameDuration : UInt64 := 33333333

def initialInSyncReq : ℤ := 5

/-- The timing of a request against a synced link, from the frames both have seen. -/
structure FrameTiming where
  syncFrameDuration : UInt64
  refTimestamp : UInt64
  syncRefTimestamp : UInt64

def frameTiming (l sync : Link) (slot syncRdSlot : Slot) : FrameTiming where
  syncFrameDuration :=
    if sync.prevSofTimestamp ≠ 0 then sync.sofTimestamp - sync.prevSofTimestamp
    else defaultFrameDuration
  refTimestamp := l.sofTimestamp + slot.frameSyncShift
  syncRefTimestamp := sync.sofTimestamp + syncRdSlot.frameSyncShift

def FrameTiming.delta (t : FrameTiming) : UInt64 :=
  if t.refTimestamp ≥ t.syncRefTimestamp then t.refTimestamp - t.syncRefTimestamp
  else t.syncRefTimestamp - t.refTimestamp

/-- On its first frame a link also skips the frame that syncs with a skipped one. -/
def FrameTiming.skipsFirst (t : FrameTiming) : Bool :=
  (t.refTimestamp > t.syncRefTimestamp ∧ t.syncRefTimestamp > 0 ∧
    t.refTimestamp - t.syncRefTimestamp < t.syncFrameDuration / 2) ∨
  t.refTimestamp ≤ t.syncRefTimestamp

/-- The self-correction at the end of `__cam_req_mgr_check_sync_req_is_ready`. -/
def correctSync (i j : ℕ) (reqId syncReqId syncSlotIdx : ℤ) : Crm ℤ := do
  if reqId > syncReqId then pure (-EAGAIN)
  else if reqId < syncReqId then
    setSyncLinkSofSkip i true
    pure 0
  else if (← slotAt j syncSlotIdx).status ≠ .reqApplied ∧ !(← link j).isSendingReq then
    pure (-EAGAIN)
  else pure 0

/-- The part of `__cam_req_mgr_check_sync_req_is_ready` that finds both requests ready. -/
def checkBothReady (i j : ℕ) (slot : Slot) (syncSlotIdx : ℤ) (t : FrameTiming) : Crm ℤ := do
  let ready := (← checkLinkIsReady i slot.idx true) = 0
  let rc ← checkLinkIsReady j syncSlotIdx true
  let syncSlot ← slotAt j syncSlotIdx
  let syncReady := ¬ (rc ≠ 0 ∧ syncSlot.status ≠ .reqApplied ∧ syncSlot.status ≠ .reqReady)
  if decide syncReady ≠ decide ready then
    if t.delta > t.syncFrameDuration / 2 then setSyncLinkSofSkip i true
    pure (-EINVAL)
  else if ¬ ready then pure (-EINVAL)
  else pure 0

def checkSyncReqIsReady (i j : ℕ) (slot : Slot) (trigger : BitVec 32) : Crm ℤ := do
  let l ← link i
  let sync ← link j
  let syncRdSlot ← slotAt j sync.inQ.rdIdx
  let t := frameTiming l sync slot syncRdSlot
  if sync.initialSkip ∧ slot.reqId > syncRdSlot.reqId then
    modLink i fun l => { l with initialSkip := false }
    pure (-EAGAIN)
  else
    modLink i fun l => { l with initialSkip := false }
    if l.initialSkip ∧ t.skipsFirst then pure (-EAGAIN)
    else if (← link j).syncLinkSofSkip then
      setSyncLinkSofSkip j false
      pure (-EAGAIN)
    else
      let syncSlotIdx ← findSlotForReq j slot.reqId
      if syncSlotIdx = -1 then pure (-EAGAIN)
      else
        let slotIdxDiff := (syncSlotIdx - sync.inQ.rdIdx + numSlots).tmod numSlots
        if (← slotAt j syncSlotIdx).status ≠ .reqApplied ∧
            (1 < slotIdxDiff ∨ slotIdxDiff = 1 ∧ syncRdSlot.status ≠ .reqApplied) then
          pure (-EAGAIN)
        else
          let rc ← checkBothReady i j slot syncSlotIdx t
          if rc ≠ 0 then pure rc
          else if trigger = triggerPointSof ∧ t.syncRefTimestamp > 0 ∧
              t.delta < t.syncFrameDuration / 5 ∧ syncRdSlot.syncMode = syncModeSync ∧
              l.initialSyncReq ≤ slot.reqId ∧
              initialInSyncReq + l.maxDelay ≤ slot.reqId - l.initialSyncReq then
            correctSync i j slot.reqId syncRdSlot.reqId syncSlotIdx
          else pure 0

/-- One link of the loop of `__cam_req_mgr_check_multi_sync_link_ready`; zero goes on. -/
def checkSyncLink (i : ℕ) (slot : Slot) (trigger : BitVec 32) (syncLink : Option ℕ) : Crm ℤ := do
  match syncLink with
  | none => pure (-EINVAL)
  | some j =>
    let sync ← link j
    if slot.reqId ≤ sync.lastFlushId then
      if (← checkLinkIsReady i slot.idx true) = 0 then pure 0 else pure (-EINVAL)
    else if sync.state = .idle then pure (-EINVAL)
    else
      let l ← link i
      if l.maxDelay = sync.maxDelay then checkSyncReqIsReady i j slot trigger
      else
        let ahead := decide (sync.maxDelay < l.maxDelay)
        modLink i fun l => { l with isMaster := ahead }
        modLink j fun sync => { sync with isMaster := !ahead }
        checkSyncForMslave i j slot

def checkSyncLinks (i : ℕ) (syncLink : Vector (Option ℕ) (maximumLinksPerSession - 1))
    (slot : Slot) (trigger : BitVec 32) : List ℕ → Crm ℤ
  | [] => pure 0
  | k :: ks => do
    let rc ← checkSyncLink i slot trigger (← StateT.lift (elemAt syncLink k))
    if rc < 0 then pure rc else checkSyncLinks i syncLink slot trigger ks

def checkMultiSyncLinkReady (i : ℕ)
    (syncLink : Vector (Option ℕ) (maximumLinksPerSession - 1)) (slot : Slot)
    (numSyncLinks : ℤ) (trigger : BitVec 32) : Crm ℤ := do
  if (← link i).state = .idle then pure (-EINVAL)
  else
    let rc ← checkSyncLinks i syncLink slot trigger (List.range numSyncLinks.toNat)
    if rc < 0 then pure rc
    else if (← injectDelayOnLink i slot.idx trigger) < 0 then pure (-EINVAL)
    else
      let _ ← checkLinkIsReady i slot.idx false
      pure 0

end QcomModules.CamReqMgr
