import Mathlib

/-! The software clock manager: clients ask for clock rates, and a request is admitted while the
current of all clients stays below a threshold. -/

namespace QcomModules.Mmrm

/-! ## Clocks and levels -/

/-- `enum mmrm_sw_vdd_levels`, below `MMRM_VDD_LEVEL_MAX`. -/
abbrev Level := Fin 9

scoped instance neZero_levels : NeZero 9 := ⟨by decide⟩

def lowSvs : Level := 1

def turboL1 : Level := 8

/-- `mmrm_sw_vdd_corner`: the regulator levels, which the kernel orders as the vdd levels. -/
structure VddCorners where
  corner : Level → ℤ
  strictMono : ∀ {a b : Level}, a < b → corner a < corner b

/-- `struct clk`, as the manager asks it: `clk_round_rate` and `qcom_clk_get_voltage`. -/
structure Clk where
  roundRate : BitVec 64 → BitVec 64
  getVoltage : BitVec 64 → ℤ

/-- `mmrm_sw_get_req_level`; `none` for an invalid voltage corner. -/
def getReqLevel (corners : VddCorners) (clk : Clk) (clkVal : BitVec 64) : Option Level :=
  let voltageCorner := clk.getVoltage (clk.roundRate clkVal)
  if voltageCorner < 0 ∨ corners.corner turboL1 < voltageCorner then none
  else if voltageCorner < corners.corner lowSvs then some lowSvs
  else (List.finRange 9).find? fun level => voltageCorner = corners.corner level

/-! ## Clients -/

/-- `enum mmrm_client_priority`; `unset` for the 0 of a free entry. -/
inductive Priority where
  | unset
  | high
  | low
deriving DecidableEq, Repr

/-- `struct mmrm_sw_clk_client_tbl_entry`. -/
structure ClkClient where
  /-- `none` where `IS_ERR_OR_NULL(clk)`. -/
  clk : Option Clk
  pri : Priority
  /-- `notifier_cb_fn` is there. -/
  notifier : Bool
  clkSrcId : BitVec 32
  maxNumHwBlocks : BitVec 32
  freq : Level → BitVec 64
  currentMa : Level → Level → BitVec 32
  /-- `client` is there. -/
  client : Bool
  clkRate : BitVec 64
  vddLevel : Level
  reserve : Bool
  refCount : BitVec 32
  numHwBlocks : BitVec 32
  isCrmClient : Bool
  hwDrvInstances : ℕ
  numPwrStates : ℕ
  maxRateIdx : ℕ
  crmClientTbl : List (BitVec 64)

/-- `struct mmrm_sw_throttled_clients_data`. -/
structure ThrottledClient where
  tableId : ℕ
  deltaCuMa : BitVec 32
  prevVddLevel : Level
deriving DecidableEq, Repr

/-- `struct mmrm_sw_clk_mgr_info`, with its peak current data. -/
structure ClkMgr (tot : ℕ) where
  clkClientTbl : Fin tot → ClkClient
  /-- `tbl_entry_id` of each of `throttle_clients_info`. -/
  throttleClientsInfo : List (Fin tot)
  threshold : BitVec 32
  aggregVal : BitVec 32
  aggregLevel : Level
  throttledClients : List ThrottledClient

variable {tot : ℕ}

def ClkMgr.setEntry (m : ClkMgr tot) (uid : Fin tot) (e : ClkClient) : ClkMgr tot :=
  { m with clkClientTbl := Function.update m.clkClientTbl uid e }

/-- `-EINVAL`. -/
def einval : ℤ := -22

/-- `-ENOMEM`. -/
def enomem : ℤ := -12

/-! ## Registration -/

/-- A description of a client, with the tables that `mmrm_sw_update_freq` and
`mmrm_sw_update_curr` make for its clock. -/
structure ClkDesc where
  clientDomain : BitVec 32
  clientId : BitVec 32
  clk : Option Clk
  pri : Priority
  notifier : Bool
  hwDrvInstances : ℕ
  numPwrStates : ℕ
  freq : Level → BitVec 64
  currentMa : Level → Level → BitVec 32

def ClkDesc.srcId (desc : ClkDesc) : BitVec 32 :=
  desc.clientDomain <<< 16 ||| desc.clientId

/-- What a registration meets: `msm_mmrm_allow_multiple_register`, and memory for the client and
for its votes. -/
structure RegisterEnv where
  allowMultiple : Bool
  clientAllocated : Bool
  tblAllocated : Bool

/-- The label `err_fail_alloc_clk_client`. -/
def ClkClient.abandon (e : ClkClient) : ClkClient :=
  { e with client := false, clk := none, pri := .unset, notifier := false }

def maxHwDrvInstances : ℕ := 6

def maxPowerStates : ℕ := 5

def ClkClient.populate (e : ClkClient) (desc : ClkDesc) : ClkClient :=
  { e with
    refCount := 1, client := true, clk := desc.clk, pri := desc.pri, notifier := desc.notifier }

/-- A table of votes, all zero, for a client that the resource manager of the clock manages. -/
def ClkClient.setUpCrm (e : ClkClient) (desc : ClkDesc) : ClkClient :=
  if 0 < desc.hwDrvInstances ∧ 0 < desc.numPwrStates then
    { e with
      crmClientTbl := List.replicate (desc.hwDrvInstances * desc.numPwrStates + 1) 0
      isCrmClient := true
      maxRateIdx := 0
      hwDrvInstances := desc.hwDrvInstances
      numPwrStates := desc.numPwrStates }
  else e

/-- `mmrm_sw_clk_client_register` on the entry found; `false` where it returns no client. -/
def registerEntry (e : ClkClient) (desc : ClkDesc) (env : RegisterEnv) : ClkClient × Bool :=
  if e.client then
    if env.allowMultiple then ({ e with refCount := e.refCount + 1 }, true) else (e, false)
  else if !env.clientAllocated then (e.abandon, false)
  else if maxHwDrvInstances < desc.hwDrvInstances ∨ maxPowerStates < desc.numPwrStates then
    ((e.populate desc).abandon, false)
  else if (0 < desc.hwDrvInstances ∧ 0 < desc.numPwrStates) ∧ !env.tblAllocated then
    ({ (e.populate desc).abandon with crmClientTbl := [] }, false)
  else
    ({ (e.populate desc).setUpCrm desc with freq := desc.freq, currentMa := desc.currentMa }, true)

/-- `mmrm_sw_clk_client_register`, with the client it returns. -/
def clkClientRegister (m : ClkMgr tot) (desc : ClkDesc) (env : RegisterEnv) :
    ClkMgr tot × Option (Fin tot) :=
  match (List.finRange tot).find? fun c => (m.clkClientTbl c).clkSrcId = desc.srcId with
  | none => (m, none)
  | some c =>
    let r := registerEntry (m.clkClientTbl c) desc env
    (m.setEntry c r.1, if r.2 then some c else none)

def ClkClient.release (e : ClkClient) : ClkClient :=
  { e with
    crmClientTbl := [], vddLevel := 0, clkRate := 0, client := false, clk := none
    pri := .unset, notifier := false, isCrmClient := false, maxRateIdx := 0
    hwDrvInstances := 0, numPwrStates := 0 }

/-- `ref_count` after a reference is dropped. -/
def ClkClient.dropped (e : ClkClient) : BitVec 32 :=
  if 0 < e.refCount then e.refCount - 1 else e.refCount

def clkClientDeregister (m : ClkMgr tot) (uid : Fin tot) : ClkMgr tot :=
  let e := { m.clkClientTbl uid with refCount := (m.clkClientTbl uid).dropped }
  m.setEntry uid (if e.refCount = 0 then e.release else e)

/-! ## Requests -/

structure ClientData where
  numHwBlocks : BitVec 32
  /-- `MMRM_CLIENT_DATA_FLAG_RESERVE_ONLY`. -/
  reserveOnly : Bool
  /-- `drv_type` is `MMRM_CRM_SW_DRV`. -/
  swDrv : Bool
  crmDrvIdx : ℕ
  pwrSt : ℕ
deriving DecidableEq, Repr

/-- What a request meets: `msm_mmrm_enable_throttle_feature`, the answer of a notifier, whether a
throttled clock is set and its data allocated, and whether the rate of the client is set. -/
structure SetvalEnv where
  enableThrottle : Bool
  notified : Bool
  throttledClkSet : Bool
  allocated : Bool
  clkSet : Bool
deriving DecidableEq, Repr

/-- The current that other clients are charged with counts for a client that has a clock and a
rate. -/
def ClkClient.Active (e : ClkClient) : Prop :=
  e.clk.isSome ∧ e.clkRate ≠ 0

instance (e : ClkClient) : Decidable e.Active :=
  inferInstanceAs (Decidable (_ ∧ _))

/-- The scan of `mmrm_sw_check_req_level`, with the level of `next_max_entry`. -/
def scanLevels (m : ClkMgr tot) (clkSrcId : BitVec 32) (reqLevel : Level) :
    Option Level → List (Fin tot) → Level
  | none, [] => reqLevel
  | some level, [] => if reqLevel < level then level else reqLevel
  | nextMax, c :: cs =>
    let e := m.clkClientTbl c
    if ¬ e.Active ∨ e.clkSrcId = clkSrcId then scanLevels m clkSrcId reqLevel nextMax cs
    else if e.vddLevel = m.aggregLevel then m.aggregLevel
    else if e.vddLevel < m.aggregLevel ∧ reqLevel < e.vddLevel then
      scanLevels m clkSrcId reqLevel (some e.vddLevel) cs
    else scanLevels m clkSrcId reqLevel nextMax cs

/-- `mmrm_sw_check_req_level`: the level the request moves to. -/
def checkReqLevel (m : ClkMgr tot) (clkSrcId : BitVec 32) (reqLevel : Level) : Level :=
  if reqLevel < m.aggregLevel then scanLevels m clkSrcId reqLevel none (List.finRange tot)
  else reqLevel

/-- `current_ma[vdd_level][level] * num_hw_blocks`. -/
def ClkClient.cur (e : ClkClient) (level : Level) : BitVec 32 :=
  e.currentMa e.vddLevel level * e.numHwBlocks

def calculateTotalCurrent (m : ClkMgr tot) (level : Level) (new : Fin tot) : BitVec 32 :=
  (List.finRange tot).foldl (fun sumCur c =>
    if ¬ (m.clkClientTbl c).Active ∨ c = new then sumCur
    else sumCur + (m.clkClientTbl c).cur level) 0

/-! ## Throttling -/

/-- What the manager saves at its level when a client goes down to `MMRM_VDD_LEVEL_LOW_SVS`. -/
def ClkMgr.saving (m : ClkMgr tot) (t : Fin tot) : BitVec 32 :=
  (m.clkClientTbl t).currentMa (m.clkClientTbl t).vddLevel m.aggregLevel -
    (m.clkClientTbl t).currentMa lowSvs m.aggregLevel

/-- The client saves more than is missing; the missing current is compared as unsigned. -/
def ClkMgr.CanThrottle (m : ClkMgr tot) (deltaCur : BitVec 32) (t : Fin tot) : Prop :=
  (m.clkClientTbl t).currentMa lowSvs m.aggregLevel <
      (m.clkClientTbl t).currentMa (m.clkClientTbl t).vddLevel m.aggregLevel ∧
    deltaCur < m.saving t

instance (m : ClkMgr tot) (deltaCur : BitVec 32) (t : Fin tot) :
    Decidable (m.CanThrottle deltaCur t) :=
  inferInstanceAs (Decidable (_ ∧ _))

/-- The client to throttle, with its place in `throttle_clients_info`. -/
def ClkMgr.findThrottle (m : ClkMgr tot) (deltaCur : BitVec 32) : Option (Fin tot × ℕ) :=
  m.throttleClientsInfo.zipIdx.find? fun p => m.CanThrottle deltaCur p.1

/-- What keeps a client that was found from being throttled. -/
def throttleRc (e : ClkClient) (env : SetvalEnv) : ℤ :=
  if e.notifier ∧ !env.notified then einval
  else if !e.reserve ∧ !env.throttledClkSet then einval
  else if !env.allocated then enomem
  else 0

def ClkClient.throttle (e : ClkClient) : ClkClient :=
  { e with clkRate := e.freq lowSvs, vddLevel := lowSvs, reserve := false }

def ClkMgr.throttled (m : ClkMgr tot) (t : Fin tot) (i : ℕ) : ClkMgr tot :=
  { m.setEntry t (m.clkClientTbl t).throttle with
    throttledClients :=
      m.throttledClients ++ [⟨i, m.saving t, (m.clkClientTbl t).vddLevel⟩] }

/-- `mmrm_sw_throttle_low_priority_client`, with the current that is still missing. -/
def throttleLowPriorityClient (m : ClkMgr tot) (deltaCur : BitVec 32) (env : SetvalEnv) :
    ClkMgr tot × BitVec 32 × ℤ :=
  match m.findThrottle deltaCur with
  | none => (m, deltaCur, 0)
  | some (t, i) =>
    let rc := throttleRc (m.clkClientTbl t) env
    if rc ≠ 0 then (m, deltaCur, rc) else (m.throttled t i, deltaCur - m.saving t, 0)

/-- `mmrm_reinstate_throttled_client`: the clients are notified and taken off the list. -/
def reinstateThrottledClient (m : ClkMgr tot) : ClkMgr tot :=
  { m with
    throttledClients := m.throttledClients.filter fun d =>
      ¬ m.aggregVal + d.deltaCuMa ≤ m.threshold }

/-! ## Admission -/

def ClkMgr.setPeak (m : ClkMgr tot) (val : BitVec 32) (level : Level) : ClkMgr tot :=
  { m with aggregVal := val, aggregLevel := level }

/-- `new_cur` of `mmrm_sw_check_peak_current`. -/
def newCur (e : ClkClient) (reqLevel adjLevel : Level) (clkVal numHwBlocks : BitVec 32) :
    BitVec 32 :=
  if clkVal ≠ 0 then e.currentMa reqLevel adjLevel * numHwBlocks else 0

/-- `old_cur` of `mmrm_sw_check_peak_current`. -/
def ClkMgr.oldCur (m : ClkMgr tot) (e : ClkClient) : BitVec 32 :=
  if e.clkRate ≠ 0 then e.cur m.aggregLevel else 0

/-- `peak_cur` and `delta_cur` of a request that moves the level to `adjLevel`. -/
def ClkMgr.peakDelta (m : ClkMgr tot) (uid : Fin tot) (adjLevel : Level) (new : BitVec 32) :
    BitVec 32 × BitVec 32 :=
  if adjLevel ≠ m.aggregLevel then (calculateTotalCurrent m adjLevel uid + new, 0)
  else (m.aggregVal, new - m.oldCur (m.clkClientTbl uid))

/-- The end of `mmrm_sw_check_peak_current`, from the sums on. -/
def admitPeak (m : ClkMgr tot) (uid : Fin tot) (adjLevel : Level) (peakCur deltaCur : BitVec 32)
    (env : SetvalEnv) : ClkMgr tot × ℤ :=
  -- the sum is signed here, and compared as unsigned with the threshold
  if (peakCur + deltaCur).toInt ≤ 0 then (m.setPeak 0 adjLevel, 0)
  else if m.threshold ≤ peakCur + deltaCur then
    if (m.clkClientTbl uid).pri = .high ∧ env.enableThrottle then
      let r := throttleLowPriorityClient m deltaCur env
      if r.2.2 ≠ 0 then (r.1, r.2.2)
      else (reinstateThrottledClient (r.1.setPeak (peakCur + r.2.1) adjLevel), 0)
    else (m, einval)
  else (reinstateThrottledClient (m.setPeak (peakCur + deltaCur) adjLevel), 0)

def checkPeakCurrent (m : ClkMgr tot) (uid : Fin tot) (reqLevel : Level)
    (clkVal numHwBlocks : BitVec 32) (env : SetvalEnv) : ClkMgr tot × ℤ :=
  let e := m.clkClientTbl uid
  let adjLevel := checkReqLevel m e.clkSrcId reqLevel
  let sums := m.peakDelta uid adjLevel (newCur e reqLevel adjLevel clkVal numHwBlocks)
  admitPeak m uid adjLevel sums.1 sums.2 env

/-! ## Votes of several drivers -/

/-- The place of a vote in `crm_client_tbl`. -/
def ClkClient.newValIdx (e : ClkClient) (data : ClientData) : ℕ :=
  if data.swDrv then e.crmClientTbl.length - 1
  else e.numPwrStates * data.crmDrvIdx + data.pwrSt

/-- The largest vote from a place on, other than the one at `skip`, with its place. -/
def scanVotes (skip : ℕ) : ℕ → List (BitVec 64) → BitVec 64 × ℕ → BitVec 64 × ℕ
  | _, [], best => best
  | i, vote :: votes, best =>
    scanVotes skip (i + 1) votes
      (if i = skip then best else if best.1 < vote then (vote, i) else best)

/-- `mmrm_sw_get_max_crm_rate`, with `new_max_rate_idx`. -/
def getMaxCrmRate (e : ClkClient) (data : ClientData) (newClkVal : BitVec 64) : BitVec 64 × ℕ :=
  if e.clkRate < newClkVal then (newClkVal, e.newValIdx data)
  else if e.newValIdx data = e.maxRateIdx then
    let best := scanVotes e.maxRateIdx 0 e.crmClientTbl (0, e.maxRateIdx)
    if best.1 ≤ newClkVal then (newClkVal, e.maxRateIdx) else best
  else (e.clkRate, e.maxRateIdx)

/-! ## Setting a rate -/

/-- The rate that counts for a client: its own request, or the largest vote. -/
def ClkClient.effective (e : ClkClient) (data : ClientData) (clkVal : BitVec 64) : BitVec 64 :=
  if e.isCrmClient then (getMaxCrmRate e data clkVal).1 else clkVal

/-- The level of a request; `none` where the rate has none or the blocks are out of range. -/
def ClkClient.requestLevel (corners : VddCorners) (e : ClkClient) (clk : Clk) (data : ClientData)
    (clkVal : BitVec 64) : Option Level :=
  if clkVal ≠ 0 then do
    let level ← getReqLevel corners clk (e.effective data clkVal)
    guard (1 ≤ data.numHwBlocks ∧ data.numHwBlocks ≤ e.maxNumHwBlocks)
    return level
  else some 0

/-- The request asks for what the client has. Several drivers always set their rate. -/
def ClkClient.Repeats (e : ClkClient) (data : ClientData) (clkVal : BitVec 64) : Prop :=
  e.clkRate = clkVal ∧ e.numHwBlocks = data.numHwBlocks ∧ e.isCrmClient = false

instance (e : ClkClient) (data : ClientData) (clkVal : BitVec 64) :
    Decidable (e.Repeats data clkVal) :=
  inferInstanceAs (Decidable (_ ∧ _ ∧ _))

/-- The place of a vote does not exist. -/
def ClkClient.InvalidCrm (e : ClkClient) (data : ClientData) : Prop :=
  e.isCrmClient = true ∧ (e.hwDrvInstances ≤ data.crmDrvIdx ∨ e.numPwrStates ≤ data.pwrSt)

instance (e : ClkClient) (data : ClientData) : Decidable (e.InvalidCrm data) :=
  inferInstanceAs (Decidable (_ ∧ (_ ∨ _)))

/-- Update the table entry; the vote and its maximum are those of the entry before the request. -/
def ClkClient.record (e : ClkClient) (old : ClkClient) (data : ClientData) (clkVal : BitVec 64)
    (reqLevel : Level) : ClkClient :=
  { e with
    clkRate := old.effective data clkVal
    maxRateIdx := if old.isCrmClient then (getMaxCrmRate old data clkVal).2 else e.maxRateIdx
    crmClientTbl :=
      if old.isCrmClient then e.crmClientTbl.set (e.newValIdx data) clkVal else e.crmClientTbl
    vddLevel := reqLevel
    reserve := data.reserveOnly
    numHwBlocks := data.numHwBlocks }

def ClkClient.setReserve (e : ClkClient) (reserve : Bool) : ClkClient :=
  { e with reserve }

/-- The result of `clk_set_rate` or `qcom_clk_crm_set_rate`. -/
def SetvalEnv.setRateRc (env : SetvalEnv) : ℤ :=
  if env.clkSet then 0 else einval

def clkClientSetval (corners : VddCorners) (m : ClkMgr tot) (uid : Fin tot) (data : ClientData)
    (clkVal : BitVec 64) (env : SetvalEnv) : ClkMgr tot × ℤ :=
  let e := m.clkClientTbl uid
  match e.clk with
  | none => (m, einval)
  | some clk =>
    if e.InvalidCrm data then (m, einval)
    else if e.Repeats data clkVal then
      if e.reserve = data.reserveOnly then (m, 0)
      else
        (m.setEntry uid (e.setReserve data.reserveOnly),
          if data.reserveOnly then 0 else env.setRateRc)
    else
      match e.requestLevel corners clk data clkVal with
      | none => (m, einval)
      | some reqLevel =>
        let r := checkPeakCurrent m uid reqLevel
          ((e.effective data clkVal).setWidth 32) data.numHwBlocks env
        if r.2 ≠ 0 then r
        else
          (r.1.setEntry uid ((r.1.clkClientTbl uid).record e data clkVal reqLevel),
            if data.reserveOnly ∧ e.isCrmClient = false then 0 else env.setRateRc)

/-! ## Operations -/

inductive ClkOp (tot : ℕ) where
  | register (desc : ClkDesc) (env : RegisterEnv)
  | deregister (uid : Fin tot)
  | setval (uid : Fin tot) (data : ClientData) (clkVal : BitVec 64) (env : SetvalEnv)

def clkStep (corners : VddCorners) (m : ClkMgr tot) : ClkOp tot → ClkMgr tot
  | .register desc env => (clkClientRegister m desc env).1
  | .deregister uid => clkClientDeregister m uid
  | .setval uid data clkVal env => (clkClientSetval corners m uid data clkVal env).1

/-- `mmrm_init_sw_clk_mgr`: no client, no current. -/
structure ClkMgr.Initial (m : ClkMgr tot) : Prop where
  client : ∀ c, (m.clkClientTbl c).client = false
  clk : ∀ c, (m.clkClientTbl c).clk = none
  clkRate : ∀ c, (m.clkClientTbl c).clkRate = 0
  refCount : ∀ c, (m.clkClientTbl c).refCount = 0
  isCrmClient : ∀ c, (m.clkClientTbl c).isCrmClient = false
  aggregVal : m.aggregVal = 0
  aggregLevel : m.aggregLevel = 0
  throttledClients : m.throttledClients = []

end QcomModules.Mmrm
