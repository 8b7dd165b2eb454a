import QcomModules.HwFence.Queue

/-! One entry of the HW-fence table and the critical sections that edit it. Every
definition here is one section between the lock and the unlock of the entry. -/

namespace QcomModules.HwFence

/-- `-EALREADY`, `-EAGAIN` and `-ENOMEM`. -/
def eAlready : ℤ := -114
def eAgain : ℤ := -11
def eNoMem : ℤ := -12

/-! ## Bits of the reference word and of the flags -/

def hwFenceFctlRefcount : UInt32 := 0x80000000
def hwFenceDmaFenceRefcount : UInt32 := 0x40000000
def hwFenceHlosRefcountMask : UInt32 := 0x3fffffff

def msmHwFenceFlagSignal : UInt64 := 1
def msmHwFenceFlagCreateSignaled : UInt64 := 2
def msmHwFenceFlagInternalOwned : UInt64 := 4
def msmHwFenceReusable : UInt64 := 8

def msmHwFenceMaxJoinParents : ℕ := 3
def hwFenceInvalidParentFence : UInt64 := ~~~0
def hwFenceJoinFenceClientId : UInt32 := ~~~0
def hwFenceSynxFenceClientId : UInt32 := ~~~1

/-- `BIT(n)` of a 64-bit mask; the shift amount is taken modulo 64, as the target's
shift instruction does. -/
def bit (n : UInt32) : UInt64 := 1 <<< n.toUInt64

/-! ## Entries -/

/-- What a critical section did to the reference word. -/
inductive RefEdit where
  | incr
  | decr
  | setBits (bits : UInt32)
  | clearBits (bits : UInt32)
  | assign (value : UInt32)
deriving DecidableEq, Repr

def RefEdit.apply : RefEdit → UInt32 → UInt32
  | .incr, r => r + 1
  | .decr, r => r - 1
  | .setBits bits, r => r ||| bits
  | .clearBits bits, r => r &&& ~~~bits
  | .assign value, _ => value

/-- `struct msm_hw_fence`, without its lock and its debug timestamps. `refEdits` is a ghost
record of the edits of `refcount`, each with the value it was applied to, newest first. -/
structure MsmHwFence where
  valid : UInt32 := 0
  error : UInt32 := 0
  ctxId : UInt64 := 0
  seqId : UInt64 := 0
  waitClientMask : UInt64 := 0
  fenceAllocator : UInt32 := 0
  fenceSignalClient : UInt32 := 0
  flags : UInt64 := 0
  parentList : Vector UInt64 3 := Vector.replicate 3 0
  parentsCnt : UInt32 := 0
  pendingChildCnt : UInt32 := 0
  refcount : UInt32 := 0
  hSynx : UInt32 := 0
  clientData : UInt64 := 0
  refEdits : List (RefEdit × UInt32) := []
deriving DecidableEq, Repr

namespace MsmHwFence

def editRefcount (hwFence : MsmHwFence) (edit : RefEdit) : MsmHwFence :=
  { hwFence with
    refcount := edit.apply hwFence.refcount
    refEdits := (edit, hwFence.refcount) :: hwFence.refEdits }

/-- `refcount & HW_FENCE_HLOS_REFCOUNT_MASK`. -/
def hlosRefcount (hwFence : MsmHwFence) : UInt32 := hwFence.refcount &&& hwFenceHlosRefcountMask

/-- `flags & flag`, as a condition. -/
def hasFlag (hwFence : MsmHwFence) (flag : UInt64) : Bool := hwFence.flags &&& flag != 0

end MsmHwFence

/-- `_cleanup_hw_fence`: clears everything but `valid`. -/
def cleanupHwFence (hwFence : MsmHwFence) : MsmHwFence :=
  { hwFence.editRefcount (.assign 0) with
    error := 0
    ctxId := 0
    seqId := 0
    waitClientMask := 0
    fenceAllocator := 0
    fenceSignalClient := 0
    flags := 0
    parentsCnt := 0
    pendingChildCnt := 0
    hSynx := 0
    parentList := Vector.replicate 3 hwFenceInvalidParentFence
    clientData := 0 }

def deleteIfUnreferenced (hwFence : MsmHwFence) : MsmHwFence :=
  if hwFence.refcount = 0 then { cleanupHwFence hwFence with valid := 0 } else hwFence

/-- Section of `hw_fence_destroy_refcount`. -/
def destroyRefcountLocked (hwFence : MsmHwFence) (ref : UInt32) : ℤ × MsmHwFence :=
  if hwFence.refcount &&& ref ≠ 0 then
    (0, deleteIfUnreferenced (hwFence.editRefcount (.clearBits ref)))
  else
    (eInval, hwFence)

/-- `_reserve_hw_fence`, on the entry. -/
def reserveHwFence (hwFence : MsmHwFence) (clientId : UInt32) (context seqno : UInt64)
    (pendingChildCnt : UInt32) : MsmHwFence :=
  { (cleanupHwFence hwFence).editRefcount (.assign (hwFenceFctlRefcount + 1)) with
    valid := 1
    ctxId := context
    seqId := seqno
    fenceAllocator := clientId
    pendingChildCnt := pendingChildCnt }

def fenceFound (hwFence : MsmHwFence) : ℤ × MsmHwFence :=
  if hwFence.hlosRefcount = hwFenceHlosRefcountMask then (eInval, hwFence)
  else (0, hwFence.editRefcount .incr)

/-- Section of `hw_fence_put_and_unlock`; the last component says that the internally owned
dma-fence is to be released, with the flags and the error read under the lock. -/
def putLocked (hwFence : MsmHwFence) : ℤ × MsmHwFence × Option (UInt64 × UInt32) :=
  if hwFence.hlosRefcount ≠ 0 then
    let hwFence := hwFence.editRefcount .decr
    if hwFence.hasFlag msmHwFenceFlagInternalOwned ∧ hwFence.hlosRefcount = 0 then
      let hwFence := { hwFence with flags := hwFence.flags &&& ~~~msmHwFenceFlagInternalOwned }
      (0, deleteIfUnreferenced hwFence, some (hwFence.flags, hwFence.error))
    else
      (0, deleteIfUnreferenced hwFence, none)
  else
    (eInval, hwFence, none)

/-- Result of the section of `_hw_fence_register_wait_with_hash`. -/
structure RegisterWait where
  ret : ℤ
  hwFence : MsmHwFence
  isSignaled : Bool
  clientData : UInt64
deriving DecidableEq, Repr

/-- Section of `_hw_fence_register_wait_with_hash`. Where the source leaves the local
`client_data` unset, zero stands for it; no caller of that branch uses it. -/
def registerWaitLocked (hwFence : MsmHwFence) (clientId : UInt32)
    (dmaFenceSignaled incrRefcount : Bool)
    (importFlags : UInt64) : RegisterWait :=
  if (hwFence.flags &&& msmHwFenceReusable) ^^^ (importFlags &&& msmHwFenceReusable) ≠ 0 then
    { ret := eInval, hwFence := hwFence, isSignaled := false, clientData := 0 }
  else if hwFence.hasFlag msmHwFenceReusable ∧ dmaFenceSignaled ∧
      hwFence.hasFlag msmHwFenceFlagSignal then
    { ret := eInval, hwFence := hwFence, isSignaled := false, clientData := 0 }
  else
    let takeRef := fun (f : MsmHwFence) => if incrRefcount then f.editRefcount .incr else f
    if hwFence.fenceAllocator = clientId then
      -- a creating client that imports takes the reference for the fence controller again
      if hwFence.hasFlag msmHwFenceFlagSignal then
        { ret := eInval, hwFence := takeRef hwFence, isSignaled := dmaFenceSignaled
          clientData := 0 }
      else
        { ret := 0, hwFence := takeRef (hwFence.editRefcount (.setBits hwFenceFctlRefcount))
          isSignaled := dmaFenceSignaled, clientData := 0 }
    else
      { ret := 0
        hwFence := takeRef
          { hwFence with waitClientMask := hwFence.waitClientMask ||| bit clientId }
        isSignaled := hwFence.hasFlag msmHwFenceFlagSignal
        clientData := hwFence.clientData }

/-- What `_signal_fence_if_unsignaled` copies out under the lock. -/
structure SignalSnapshot where
  clientData : UInt64
  waitClientMask : UInt64
  parentsCnt : UInt32
  hSynx : UInt32
deriving DecidableEq, Repr

/-- Section of `_signal_fence_if_unsignaled`: nothing if the fence is signaled already. -/
def signalLocked (hwFence : MsmHwFence) (error : UInt32) : Option (MsmHwFence × SignalSnapshot) :=
  if hwFence.hasFlag msmHwFenceFlagSignal then none
  else some
    ({ hwFence with
        flags := hwFence.flags ||| msmHwFenceFlagSignal
        error := error
        parentsCnt := 0 },
      { clientData := hwFence.clientData
        waitClientMask := hwFence.waitClientMask
        parentsCnt := hwFence.parentsCnt
        hSynx := hwFence.hSynx })

def updateAndGetJoinFenceSignalStatus (joinFence : MsmHwFence) (childFenceError : UInt32) :
    MsmHwFence × Bool :=
  let pending := if joinFence.pendingChildCnt ≠ 0 then joinFence.pendingChildCnt - 1 else 0
  ({ joinFence with error := joinFence.error ||| childFenceError, pendingChildCnt := pending },
    pending = 0)

/-- The section of `hw_fence_process_fence_array` that makes the join fence a parent of an
unsignaled child; nothing if the child has too many parents. -/
def addParentLocked (hwFenceChild : MsmHwFence) (hashJoinFence : UInt64) : Option MsmHwFence :=
  let parentsCnt := hwFenceChild.parentsCnt + 1
  if parentsCnt.toNat ≥ msmHwFenceMaxJoinParents ∨ parentsCnt < 1 then none
  else some { hwFenceChild with
    parentsCnt := parentsCnt
    parentList := hwFenceChild.parentList.setIfInBounds (parentsCnt.toNat - 1) hashJoinFence }

/-- The parents that a signal of the entry goes through. -/
def MsmHwFence.activeParents (hwFence : MsmHwFence) : List UInt64 :=
  hwFence.parentList.toList.take hwFence.parentsCnt.toNat

/-! ## Wake-ups -/

/-- A call of `_fence_ctl_signal` for a client, or the signal of a backing synx fence. -/
inductive Wakeup where
  | client (clientId : ℕ) (hash : UInt64) (clientData : UInt64) (error : UInt32)
      (signalFromImport : Bool)
  | synx (hSynx : UInt32) (error : UInt32)
deriving DecidableEq, Repr

/-- The client ids that the loop of `_signal_all_wait_clients` calls for. -/
def waitClientIds (rxqClientsNum : UInt32) (registered : ℕ → Bool) (waitClientMask : UInt64) :
    List ℕ :=
  (List.range (rxqClientsNum.toNat + 1)).filter fun waitClientId =>
    waitClientMask &&& bit (UInt32.ofNat waitClientId) != 0 && registered waitClientId

def signalAllWaitClients (rxqClientsNum : UInt32) (registered : ℕ → Bool) (hwFence : MsmHwFence)
    (waitClientMask hash clientData : UInt64) (error hSynx : UInt32) : List Wakeup :=
  (waitClientIds rxqClientsNum registered waitClientMask).map
      (fun waitClientId => .client waitClientId hash clientData error false) ++
    if hwFence.fenceAllocator ≠ hwFenceSynxFenceClientId ∧ hSynx ≠ 0 then [.synx hSynx error]
    else []

end QcomModules.HwFence
