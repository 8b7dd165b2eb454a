import QcomModules.Library.Probe
import QcomModules.HwFence.Fence

/-! The HW-fence table: hashing, probing, and the operations on entries found by key or
given by index. -/

namespace QcomModules.HwFence

open Library

/-- The part of `struct hw_fence_driver_data` that the table operations use. -/
structure HwFenceDriverData where
  hwFencesTblCnt : UInt32
  hwFenceTableEntries : UInt32
  hwFencesTbl : ℕ → MsmHwFence
  hlosKeyTbl : ℕ → UInt64
  fctlReady : Bool
  rxqClientsNum : UInt32
  /-- `clients[id]` is not `NULL`. -/
  clients : ℕ → Bool

namespace HwFenceDriverData

def setFence (drv : HwFenceDriverData) (i : ℕ) (hwFence : MsmHwFence) : HwFenceDriverData :=
  { drv with hwFencesTbl := Function.update drv.hwFencesTbl i hwFence }

def setHlosKey (drv : HwFenceDriverData) (i : ℕ) (key : UInt64) : HwFenceDriverData :=
  { drv with hlosKeyTbl := Function.update drv.hlosKeyTbl i key }

end HwFenceDriverData

/-! ## Hashing and iteration -/

/-- Conversion of an `int` result to `u64`. -/
def intToU64 (x : UInt32) : UInt64 := ⟨x.toBitVec.signExtend 64⟩

/-- `_calculate_hash`, with `HW_FENCE_HASH_A_MULT` and `HW_FENCE_HASH_C_MULT`. -/
def calculateHash (context seqno mSize : UInt64) : UInt32 :=
  let bMultiplier := context + (context - 1)
  ((4969 * seqno * bMultiplier + 907 * context) % mSize).toUInt32

/-- `_hw_fence_iterator_init`: the first slot, or nothing for a bad range. -/
def hwFenceIteratorInit (drv : HwFenceDriverData) (context seqno : UInt64)
    (startStep endStep : UInt32) :
    Option UInt64 :=
  if startStep ≥ endStep ∨ endStep > drv.hwFencesTblCnt then none
  else
    let mSize := drv.hwFencesTblCnt.toUInt64
    some ((intToU64 (calculateHash context seqno mSize) + startStep.toUInt64) % mSize)

/-- The slot that `_hw_fence_iterator_next` moves to. -/
def hwFenceLookupNext (drv : HwFenceDriverData) (hash : UInt64) : UInt64 :=
  (hash + 1) % drv.hwFencesTblCnt.toUInt64

/-- `for_each_hw_fence` with a flag that starts false: the body returns a value when it sets
the flag. The hash out-parameter keeps its value when the range is bad. -/
def forEachHwFence {β : Type*} (drv : HwFenceDriverData) (hash context seqno : UInt64)
    (startStep endStep : UInt32) (body : UInt64 → Option β) : UInt64 × Option β :=
  match hwFenceIteratorInit drv context seqno startStep endStep with
  | none => (hash, none)
  | some first =>
    probe (hwFenceLookupNext drv) body (endStep.toNat - startStep.toNat) first

def hwFenceMatch (drv : HwFenceDriverData) (hash context seqno hlosKey : UInt64) : Bool :=
  let hwFence := drv.hwFencesTbl hash.toNat
  hwFence.ctxId = context && hwFence.seqId = seqno && drv.hlosKeyTbl hash.toNat = hlosKey

/-- What the table lookups report: the local `ret`, the entry whose address is returned, the
hash out-parameter and the driver data. -/
structure LookupResult where
  ret : ℤ
  hwFence : Option ℕ
  hash : UInt64
  drv : HwFenceDriverData

/-- The common end of the table lookups. -/
def LookupResult.ofLoop (drv : HwFenceDriverData) :
    UInt64 × Option (ℤ × HwFenceDriverData) → LookupResult
  | (hash, none) => { ret := 0, hwFence := none, hash := hash, drv := drv }
  | (hash, some (ret, drv')) =>
    { ret := ret, hwFence := if ret = 0 then some hash.toNat else none
      hash := hash, drv := drv' }

/-! ## Operations on entries of the table -/

def unreserveHwFence (drv : HwFenceDriverData) (hash : UInt64) : ℤ × HwFenceDriverData :=
  let hwFence := drv.hwFencesTbl hash.toNat
  if hwFence.hlosRefcount ≠ 0 then
    let hwFence := hwFence.editRefcount .decr
    if hwFence.refcount = 0 then
      (0, (drv.setFence hash.toNat { cleanupHwFence hwFence with valid := 0 }).setHlosKey
        hash.toNat 0)
    else
      (0, drv.setFence hash.toNat hwFence)
  else
    (eInval, drv)

/-- `_fence_found`, as a process function of the lookup. -/
def fenceFoundAt (drv : HwFenceDriverData) (hash : UInt64) : ℤ × HwFenceDriverData :=
  let (ret, hwFence) := fenceFound (drv.hwFencesTbl hash.toNat)
  (ret, drv.setFence hash.toNat hwFence)

def hwFenceLookupAndCreateRange (drv : HwFenceDriverData) (clientId : UInt32)
    (hlosKey context seqno : UInt64) (pendingChildCnt : UInt32) (hash : UInt64)
    (startStep endStep : UInt32) (flags : UInt64) : LookupResult :=
  LookupResult.ofLoop drv <|
    forEachHwFence drv hash context seqno startStep endStep fun hash =>
      if (drv.hwFencesTbl hash.toNat).valid = 0 then
        some (0, (drv.setFence hash.toNat (reserveHwFence (drv.hwFencesTbl hash.toNat) clientId
          context seqno pendingChildCnt)).setHlosKey hash.toNat hlosKey)
      else if hwFenceMatch drv hash context seqno hlosKey then
        if flags &&& msmHwFenceFlagCreateSignaled ≠ 0 then some (fenceFoundAt drv hash)
        else some (eAlready, drv)
      else none

def hwFenceLookupAndCreate (drv : HwFenceDriverData) (clientId : UInt32)
    (hlosKey context seqno : UInt64) (pendingChildCnt : UInt32) (hash : UInt64) : LookupResult :=
  hwFenceLookupAndCreateRange drv clientId hlosKey context seqno pendingChildCnt hash 0
    drv.hwFencesTblCnt 0

def hwFenceLookupAndProcessRange (drv : HwFenceDriverData) (hlosKey context seqno hash : UInt64)
    (startStep endStep : UInt32)
    (processFn : HwFenceDriverData → UInt64 → ℤ × HwFenceDriverData) : LookupResult :=
  LookupResult.ofLoop drv <|
    forEachHwFence drv hash context seqno startStep endStep fun hash =>
      if hwFenceMatch drv hash context seqno hlosKey then some (processFn drv hash) else none

def hwFenceLookupAndProcess (drv : HwFenceDriverData) (hlosKey context seqno hash : UInt64)
    (processFn : HwFenceDriverData → UInt64 → ℤ × HwFenceDriverData) : LookupResult :=
  hwFenceLookupAndProcessRange drv hlosKey context seqno hash 0 drv.hwFencesTblCnt processFn

def hwFenceDestroyRefcount (drv : HwFenceDriverData) (hash : UInt64) (ref : UInt32) :
    ℤ × HwFenceDriverData :=
  if hash ≥ drv.hwFenceTableEntries.toUInt64 then (eInval, drv)
  else
    let (ret, hwFence) := destroyRefcountLocked (drv.hwFencesTbl hash.toNat) ref
    (ret, drv.setFence hash.toNat hwFence)

/-- `hw_fence_destroy_with_hash`, through `hw_fence_put_and_unlock`; `tableDel` is what
`hw_fence_dma_fence_table_del` returns if it is called. -/
def hwFenceDestroyWithHash (drv : HwFenceDriverData) (hash : UInt64) (tableDel : ℤ) :
    ℤ × HwFenceDriverData :=
  if hash ≥ drv.hwFenceTableEntries.toUInt64 then (eInval, drv)
  else
    let (ret, hwFence, releaseDma) := putLocked (drv.hwFencesTbl hash.toNat)
    (if releaseDma.isSome then tableDel else ret, drv.setFence hash.toNat hwFence)

/-- `hw_fence_create` for a client with the given id and `skip_fctl_ref`: the return code, the
hash out-parameter and the driver data. -/
def hwFenceCreate (drv : HwFenceDriverData) (clientId : UInt32) (skipFctlRef : Bool)
    (hlosKey context seqno hash : UInt64) : ℤ × UInt64 × HwFenceDriverData :=
  let created := hwFenceLookupAndCreate drv clientId hlosKey context seqno 0 hash
  let ret := if created.hwFence.isNone then eInval else 0
  let hash := created.hash
  let drv := created.drv
  if !drv.fctlReady then
    let (_, drv) := hwFenceDestroyRefcount drv hash hwFenceFctlRefcount
    let (_, drv) := hwFenceDestroyWithHash drv hash 0
    (eAgain, hash, drv)
  else if skipFctlRef then
    let (ret, drv) := hwFenceDestroyRefcount drv hash hwFenceFctlRefcount
    (ret, hash, drv)
  else
    (ret, hash, drv)

/-- `hw_fence_destroy`; the local hash is unset before the lookup. -/
def hwFenceDestroy (drv : HwFenceDriverData) (hlosKey context seqno : UInt64) :
    ℤ × HwFenceDriverData :=
  let found := hwFenceLookupAndProcess drv hlosKey context seqno 0 unreserveHwFence
  (if found.hwFence.isNone then eInval else 0, found.drv)

/-! ## Import and signal -/

/-- `_hw_fence_register_wait_with_hash` with `fence == NULL`; `ctlRet` is what
`_fence_ctl_signal` returns if it is called. -/
def hwFenceRegisterWaitWithHash (drv : HwFenceDriverData) (clientId : UInt32) (hash : UInt64)
    (dmaFenceSignaled incrRefcount : Bool) (importFlags : UInt64) (ctlRet : ℤ) :
    ℤ × HwFenceDriverData × List Wakeup :=
  let reg := registerWaitLocked (drv.hwFencesTbl hash.toNat) clientId dmaFenceSignaled
    incrRefcount importFlags
  let drv := drv.setFence hash.toNat reg.hwFence
  if reg.ret ≠ 0 then (reg.ret, drv, [])
  else if reg.isSignaled then
    let wakeup := Wakeup.client clientId.toNat hash reg.clientData
      (drv.hwFencesTbl hash.toNat).error true
    if ctlRet ≠ 0 then (ctlRet, (hwFenceDestroyWithHash drv hash 0).2, [wakeup])
    else (0, drv, [wakeup])
  else (0, drv, [])

def hwFenceProcessFenceWithHash (drv : HwFenceDriverData) (clientId : UInt32) (hash : UInt64)
    (importFlags : UInt64) (ctlRet : ℤ) : ℤ × HwFenceDriverData × List Wakeup :=
  if hash ≥ drv.hwFencesTblCnt.toUInt64 then (eInval, drv, [])
  else hwFenceRegisterWaitWithHash drv clientId hash false true importFlags ctlRet

/-- One round of `_signal_parent_fences`. -/
def signalParentFence (drv : HwFenceDriverData) (parentHash clientData : UInt64)
    (error : UInt32) : HwFenceDriverData × List Wakeup :=
  if parentHash ≥ drv.hwFenceTableEntries.toUInt64 then (drv, [])
  else
    let (joinFence, signal) :=
      updateAndGetJoinFenceSignalStatus (drv.hwFencesTbl parentHash.toNat) error
    let drv := drv.setFence parentHash.toNat joinFence
    if signal then
      ((hwFenceDestroyRefcount drv parentHash hwFenceFctlRefcount).2,
        signalAllWaitClients drv.rxqClientsNum drv.clients joinFence joinFence.waitClientMask
          parentHash clientData joinFence.error joinFence.hSynx)
    else (drv, [])

/-- `_signal_parent_fences`, from round `i` on. -/
def signalParentFences (hash clientData : UInt64) (error : UInt32) :
    List (Fin 3) → HwFenceDriverData → HwFenceDriverData × List Wakeup
  | [], drv => (drv, [])
  | i :: is, drv =>
    let (drv, first) := signalParentFence drv ((drv.hwFencesTbl hash.toNat).parentList.get i)
      clientData error
    let (drv, rest) := signalParentFences hash clientData error is drv
    (drv, first ++ rest)

def signalFenceIfUnsignaled (drv : HwFenceDriverData) (hash : UInt64) (error : UInt32)
    (releaseRef : Bool) : Bool × HwFenceDriverData × List Wakeup :=
  let hwFence := drv.hwFencesTbl hash.toNat
  let hasFctlRefcount := hwFence.refcount &&& hwFenceFctlRefcount ≠ 0
  let release := fun (drv : HwFenceDriverData) =>
    if releaseRef ∧ hasFctlRefcount then (hwFenceDestroyRefcount drv hash hwFenceFctlRefcount).2
    else drv
  match signalLocked hwFence error with
  | none => (false, release drv, [])
  | some (hwFence, snapshot) =>
    let drv := drv.setFence hash.toNat hwFence
    let hSynx := if releaseRef then snapshot.hSynx else 0
    let (drv, parents) := signalParentFences hash hwFence.clientData error
      ((List.finRange 3).take snapshot.parentsCnt.toNat) drv
    let own := signalAllWaitClients drv.rxqClientsNum drv.clients (drv.hwFencesTbl hash.toNat)
      snapshot.waitClientMask hash snapshot.clientData error hSynx
    (true, release drv, parents ++ own)

/-- The fields of a dma-fence that the driver compares with an entry. -/
structure DmaFence where
  context : UInt64
  seqno : UInt64
  error : UInt32
deriving DecidableEq, Repr

def hwFenceSignalFence (drv : HwFenceDriverData) (fence : Option DmaFence) (hash : UInt64)
    (error : UInt32) (releaseRef : Bool) : ℤ × HwFenceDriverData × List Wakeup :=
  if hash ≥ drv.hwFenceTableEntries.toUInt64 then (eInval, drv, [])
  else
    let hwFence := drv.hwFencesTbl hash.toNat
    if fence.any fun fence => hwFence.ctxId ≠ fence.context ∨ hwFence.seqId ≠ fence.seqno then
      (eInval, drv, [])
    else
      let (_, drv, wakeups) := signalFenceIfUnsignaled drv hash error releaseRef
      (0, drv, wakeups)

def msmHwFenceSignalCallback (drv : HwFenceDriverData) (fence : DmaFence) (hash : UInt64) :
    HwFenceDriverData × List Wakeup :=
  let (ret, drv, wakeups) := hwFenceSignalFence drv (some fence) hash fence.error false
  if ret ≠ 0 then (drv, wakeups)
  else ((hwFenceDestroyRefcount drv hash hwFenceDmaFenceRefcount).2, wakeups)

/-- What the kernel answers while `hw_fence_add_callback` runs: whether memory is left, what
`hw_fence_interop_add_cb` returns, and whether the dma-fence is signaled by then. -/
structure AddCallbackEnv where
  allocated : Bool
  addCbRet : ℤ
  isSignaled : Bool
deriving DecidableEq, Repr

def hwFenceAddCallback (drv : HwFenceDriverData) (fence : DmaFence) (hash : UInt64)
    (env : AddCallbackEnv) : ℤ × HwFenceDriverData × List Wakeup :=
  if hash ≥ drv.hwFenceTableEntries.toUInt64 then (eInval, drv, [])
  else if !env.allocated then (eNoMem, drv, [])
  else
    let drv := drv.setFence hash.toNat
      ((drv.hwFencesTbl hash.toNat).editRefcount (.setBits hwFenceDmaFenceRefcount))
    if env.addCbRet = 0 then (0, drv, [])
    else if env.isSignaled then
      let (drv, wakeups) := msmHwFenceSignalCallback drv fence hash
      (0, drv, wakeups)
    else
      (env.addCbRet, (hwFenceDestroyRefcount drv hash hwFenceDmaFenceRefcount).2, [])

end QcomModules.HwFence
