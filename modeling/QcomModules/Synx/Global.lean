import Mathlib
import QcomModules.Library.DepthFirst

/-! The global synx table of `synx_global.c`: one entry per handle, shared by all cores, with
composite entries that count their pending children. Every `…Locked` definition is one section
between the lock and the unlock of an entry; locks are granted. -/

namespace QcomModules.Synx

open List hiding Vector

/-! ## Entries -/

/-- `-SYNX_NOENT`, `-SYNX_NOMEM`, `-SYNX_INVALID` and `-SYNX_ALREADY`. -/
def eNoEnt : ℤ := -2
def eNoMem : ℤ := -12
def eInval : ℤ := -22
def eAlready : ℤ := -114

def synxStateActive : ℕ := 1
def synxStateSignaledSuccess : ℕ := 2
def synxStateSignaledError : ℕ := 3
def synxStateSignaledSsr : ℕ := 6
def synxStateSignaledMax : ℕ := 64

def synxGlobalMaxObjs : ℕ := 4096
def synxGlobalMaxParents : ℕ := 4
def synxCoreApss : ℕ := 0
def synxCoreMax : ℕ := 8

/-- A status that signals an error, a cancellation or a restart of a subsystem. Statuses above
the maximum are the clients' own and no errors. -/
def isErrorStatus (status : ℕ) : Bool :=
  synxStateSignaledSuccess < status && status ≤ synxStateSignaledMax

@[simp]
theorem isErrorStatus_active : isErrorStatus synxStateActive = false := rfl

/-- `struct synx_global_coredata`; the default is a zeroed entry. -/
structure SynxGlobalCoredata where
  status : ℕ := 0
  handle : ℕ := 0
  refcount : UInt16 := 0
  numChild : UInt16 := 0
  subscribers : UInt16 := 0
  waiters : UInt16 := 0
  parents : Vector ℕ 4 := Vector.replicate 4 0
  hHwfence : ℕ := 0
deriving DecidableEq, Repr

/-- `1UL << id`. -/
def coreBit (id : ℕ) : UInt16 := 1 <<< UInt16.ofNat id

structure SynxSharedMem where
  bitmap : ℕ → Bool
  table : ℕ → SynxGlobalCoredata

def synxIsValidIdx (idx : ℕ) : Bool := idx ≠ 0 && idx < synxGlobalMaxObjs

namespace SynxSharedMem

variable (gmem : SynxSharedMem)

def setEntry (idx : ℕ) (entry : SynxGlobalCoredata) : SynxSharedMem :=
  { gmem with table := Function.update gmem.table idx entry }

def clearBit (idx : ℕ) : SynxSharedMem :=
  { gmem with bitmap := Function.update gmem.bitmap idx false }

end SynxSharedMem

/-! ## Signaling -/

/-- What the section of `synx_global_update_status_core` returns: the parents to notify, the
cores to notify with the handle and the status to send, and whether the entry was cleared. -/
structure UpdateStatus where
  ret : ℤ
  entry : SynxGlobalCoredata
  hParents : List ℕ
  waitCores : UInt16
  data : Option (ℕ × ℕ)
  clear : Bool
deriving DecidableEq, Repr

/-- The entries of `parents[]` that are in use. -/
def SynxGlobalCoredata.parentList (entry : SynxGlobalCoredata) : List ℕ :=
  entry.parents.toList.filter (· ≠ 0)

/-- Section of `synx_global_update_status_core`. -/
def updateStatusLocked (entry : SynxGlobalCoredata) (status : ℕ) (isRecursion : Bool) :
    UpdateStatus :=
  if entry.numChild ≠ 0 then
    -- composite handle cannot be signaled directly
    if !isRecursion then ⟨eInval, entry, [], 0, none, false⟩
    else
      let notified := { entry with
        numChild := entry.numChild - 1
        status := if entry.status = synxStateActive || isErrorStatus status then status
          else entry.status }
      if notified.numChild = 0 then
        -- release ref held by constituting handles
        let released := { notified with waiters := 0, refcount := notified.refcount - 1 }
        if released.refcount = 0 then
          ⟨0, {}, notified.parentList, notified.waiters, some (notified.handle, notified.status),
            true⟩
        else
          ⟨0, released, notified.parentList, notified.waiters,
            some (notified.handle, notified.status), false⟩
      else ⟨0, notified, [], 0, none, false⟩
  else if entry.status ≠ synxStateActive then ⟨eAlready, entry, [], 0, none, false⟩
  else
    ⟨0, { entry with status := status, waiters := 0 }, entry.parentList, entry.waiters,
      some (entry.handle, status), false⟩

/-- The effect of that section on the shared memory, the bit of a cleared entry included. -/
def SynxSharedMem.apply (gmem : SynxSharedMem) (idx : ℕ) (update : UpdateStatus) : SynxSharedMem :=
  if update.clear then (gmem.setEntry idx update.entry).clearBit idx
  else gmem.setEntry idx update.entry

@[simp]
theorem SynxSharedMem.table_apply (gmem : SynxSharedMem) (idx : ℕ) (update : UpdateStatus) :
    (gmem.apply idx update).table = Function.update gmem.table idx update.entry := by
  rw [SynxSharedMem.apply]
  split <;> rfl

@[simp]
theorem SynxSharedMem.table_setEntry (gmem : SynxSharedMem) (idx : ℕ)
    (entry : SynxGlobalCoredata) :
    (gmem.setEntry idx entry).table = Function.update gmem.table idx entry := rfl

/-- `synx_global_update_status_core`, with parents notified at most `depth` levels up. The
status passed on is the one passed in. -/
def synxGlobalUpdateStatusCore : ℕ → SynxSharedMem → ℕ → ℕ → Bool → ℤ × SynxSharedMem
  | 0, gmem, _, _, _ => (eInval, gmem)
  | depth + 1, gmem, idx, status, isRecursion =>
    if !synxIsValidIdx idx || status ≤ synxStateActive then (eInval, gmem)
    else
      let update := updateStatusLocked (gmem.table idx) status isRecursion
      (update.ret, update.hParents.foldl
        (fun gmem pIdx => (synxGlobalUpdateStatusCore depth gmem pIdx status true).2)
        (gmem.apply idx update))

/-- `synx_global_update_status`; a composite is left alone with the result of its lock. -/
def synxGlobalUpdateStatus (depth : ℕ) (gmem : SynxSharedMem) (idx status : ℕ) :
    ℤ × SynxSharedMem :=
  if !synxIsValidIdx idx || status ≤ synxStateActive then (eInval, gmem)
  else if (gmem.table idx).numChild ≠ 0 then (0, gmem)
  else if (gmem.table idx).status ≠ synxStateActive then (eAlready, gmem)
  else synxGlobalUpdateStatusCore depth gmem idx status false

/-! ## Merging -/

/-- First section of `synx_global_merge`: the composite waits for all its children, and they
hold one reference on it. -/
def mergeStartLocked (entry : SynxGlobalCoredata) (numList : ℕ) : SynxGlobalCoredata :=
  if entry.handle ≠ 0 ∧ entry.refcount ≠ 0 then
    { entry with
      numChild := entry.numChild + UInt16.ofNat numList
      refcount := entry.refcount + 1 }
  else entry

/-- What `synx_global_merge` has found of the children so far. -/
structure MergeCount where
  numChildSignaled : ℕ
  parentStatus : ℕ
deriving DecidableEq, Repr

/-- The first free slot of `parents[]`. -/
def SynxGlobalCoredata.freeSlot (entry : SynxGlobalCoredata) : Option ℕ :=
  entry.parents.toList.idxOf? 0

def SynxGlobalCoredata.addParent (entry : SynxGlobalCoredata) (pIdx : ℕ) : SynxGlobalCoredata :=
  match entry.freeSlot with
  | some i => { entry with parents := entry.parents.setIfInBounds i pIdx }
  | none => entry

/-- A child that is signaled already, fully or in part, is noted. -/
def MergeCount.note (count : MergeCount) (entry : SynxGlobalCoredata) : MergeCount :=
  if entry.status ≠ synxStateActive then
    { numChildSignaled := count.numChildSignaled + if entry.numChild = 0 then 1 else 0
      parentStatus :=
        if isErrorStatus entry.status then entry.status
        else if count.parentStatus = synxStateActive then entry.status
        else count.parentStatus }
  else count

/-- Last section of a successful `synx_global_merge`. -/
def mergeSettleLocked (entry : SynxGlobalCoredata) (count : MergeCount) : SynxGlobalCoredata :=
  let numChild := entry.numChild - UInt16.ofNat count.numChildSignaled
  { entry with
    numChild := numChild
    refcount := if numChild = 0 ∧ count.numChildSignaled ≠ 0 then entry.refcount - 1
      else entry.refcount
    status := if entry.status = synxStateActive ||
        (isErrorStatus count.parentStatus && !isErrorStatus entry.status) then count.parentStatus
      else entry.status }

/-- Last section of a failed one, at child `j` of the list. -/
def mergeFailLocked (entry : SynxGlobalCoredata) (count : MergeCount) (numList j : ℕ) :
    SynxGlobalCoredata :=
  let numChild := entry.numChild - UInt16.ofNat (count.numChildSignaled + (numList - j))
  { entry with
    numChild := numChild
    status := synxStateSignaledError
    refcount := if numChild = 0 then entry.refcount - 1 else entry.refcount }

/-- The loop of `synx_global_merge` over the children from `j` on: the result, the child it
stopped at, what it found, and the memory. -/
def mergeLoop (pIdx : ℕ) : List ℕ → ℕ → MergeCount → SynxSharedMem →
    ℤ × ℕ × MergeCount × SynxSharedMem
  | [], j, count, gmem => (0, j, count, gmem)
  | idx :: idxList, j, count, gmem =>
    -- the lock of the composite has set the result to 0
    if !synxIsValidIdx idx then (0, j, count, gmem)
    else
      let entry := gmem.table idx
      let gmem := gmem.setEntry idx (entry.addParent pIdx)
      if entry.freeSlot = none then (eNoMem, j, count.note entry, gmem)
      else mergeLoop pIdx idxList (j + 1) (count.note entry) gmem

def synxGlobalMerge (gmem : SynxSharedMem) (idxList : List ℕ) (pIdx : ℕ) : ℤ × SynxSharedMem :=
  if !synxIsValidIdx pIdx then (eInval, gmem)
  else if idxList = [] then (0, gmem)
  else
    let gmem := gmem.setEntry pIdx (mergeStartLocked (gmem.table pIdx) idxList.length)
    let (rc, j, count, gmem) := mergeLoop pIdx idxList 0 ⟨0, synxStateActive⟩ gmem
    if j = idxList.length then
      (0, gmem.setEntry pIdx (mergeSettleLocked (gmem.table pIdx) count))
    else
      (rc, gmem.setEntry pIdx (mergeFailLocked (gmem.table pIdx) count idxList.length j))

/-! ## References -/

def synxHandleIndexBits : ℕ := 16
def synxHandleCoreBits : ℕ := 4

def synxEncodeHandle (idx coreId : ℕ) (globalIdx : Bool) : ℕ :=
  if synxGlobalMaxObjs ≤ idx then 0
  else
    let handle := if globalIdx then 1 <<< synxHandleCoreBits else 0
    (handle ||| coreId) <<< synxHandleIndexBits ||| idx

def findFirstZeroBit (gmem : SynxSharedMem) : Option ℕ :=
  (List.range synxGlobalMaxObjs).find? (fun idx => !gmem.bitmap idx)

def synxGlobalAllocIndex (gmem : SynxSharedMem) : Option ℕ × SynxSharedMem :=
  (findFirstZeroBit gmem).elim (none, gmem)
    (fun idx => (some idx, { gmem with bitmap := Function.update gmem.bitmap idx true }))

def synxGlobalInitCoredata (gmem : SynxSharedMem) (hSynx : ℕ) : ℤ × SynxSharedMem :=
  let idx := hSynx % 2 ^ synxHandleIndexBits
  let entry := gmem.table idx
  if !synxIsValidIdx idx then (eInval, gmem)
  else if entry.status ≠ 0 ∨ entry.refcount ≠ 0 ∨ entry.subscribers ≠ 0 ∨ entry.handle ≠ 0 ∨
      entry.parents.get 0 ≠ 0 then (eInval, gmem)
  else
    (0, gmem.setEntry idx
      { status := synxStateActive
        refcount := 1
        subscribers := coreBit synxCoreApss
        handle := hSynx })

def synxAllocGlobalHandle (gmem : SynxSharedMem) : ℤ × SynxSharedMem :=
  let alloc := synxGlobalAllocIndex gmem
  alloc.1.elim (eNoMem, alloc.2)
    (fun idx => synxGlobalInitCoredata alloc.2 (synxEncodeHandle idx synxCoreApss true))

def synxGlobalGetRef (gmem : SynxSharedMem) (idx : ℕ) : ℤ × SynxSharedMem :=
  if !synxIsValidIdx idx then (eInval, gmem)
  else if (gmem.table idx).handle ≠ 0 ∧ (gmem.table idx).refcount ≠ 0 then
    (0, gmem.setEntry idx
      { gmem.table idx with refcount := (gmem.table idx).refcount + 1 })
  else (eNoEnt, gmem)

def synxGlobalPutRef (gmem : SynxSharedMem) (idx : ℕ) : SynxSharedMem :=
  if !synxIsValidIdx idx then gmem
  else if (gmem.table idx).refcount - 1 = 0 then (gmem.setEntry idx {}).clearBit idx
  else gmem.setEntry idx { gmem.table idx with refcount := (gmem.table idx).refcount - 1 }

def synxGlobalTestStatusUpdateCoredata (gmem : SynxSharedMem) (idx id hHwfence : ℕ)
    (isWaiter : Bool) : ℤ × SynxSharedMem :=
  if synxCoreMax ≤ id || !synxIsValidIdx idx then (eInval, gmem)
  else
    let entry := gmem.table idx
    if entry.status = synxStateActive ∨ entry.numChild ≠ 0 then
      (synxStateActive, gmem.setEntry idx { entry with
        refcount := entry.refcount + 1
        subscribers := entry.subscribers ||| coreBit id
        waiters := if isWaiter then entry.waiters ||| coreBit id else entry.waiters
        hHwfence := hHwfence })
    else (entry.status, gmem)

/-! ## Recovery of a core -/

/-- Section of `synx_global_recover_interop`: the entry, whether it was cleared, and whether it
is to be signaled. -/
def recoverLocked (entry : SynxGlobalCoredata) (coreId : ℕ) : SynxGlobalCoredata × Bool × Bool :=
  if entry.refcount ≠ 0 ∧ entry.subscribers &&& coreBit coreId ≠ 0 then
    if entry.refcount - 1 = 0 then ({}, true, false)
    else
      ({ entry with
          subscribers := entry.subscribers &&& ~~~coreBit coreId
          refcount := entry.refcount - 1 },
        false, entry.status = synxStateActive)
  else (entry, false, false)

/-- The loop of `synx_global_recover_interop` over the given entries, with what is noted in
`clear_idx`. -/
def recoverLoop (depth coreId : ℕ) : List ℕ → SynxSharedMem → List ℕ → SynxSharedMem × List ℕ
  | [], gmem, clearIdx => (gmem, clearIdx)
  | idx :: rest, gmem, clearIdx =>
    if gmem.bitmap idx then
      let (entry, clear, update) := recoverLocked (gmem.table idx) coreId
      let gmem := gmem.setEntry idx entry
      recoverLoop depth coreId rest
        (if update then
          (synxGlobalUpdateStatusCore depth gmem idx synxStateSignaledSsr false).2 else gmem)
        (if clear then idx :: clearIdx else clearIdx)
    else recoverLoop depth coreId rest gmem clearIdx

def synxGlobalRecover (depth : ℕ) (gmem : SynxSharedMem) (coreId : ℕ) : SynxSharedMem :=
  let (gmem, clearIdx) := recoverLoop depth coreId (List.range' 1 (synxGlobalMaxObjs - 1)) gmem []
  clearIdx.foldl SynxSharedMem.clearBit gmem

/-! ## What the sections do -/

section
variable {entry : SynxGlobalCoredata} {status pIdx : ℕ}

theorem ofNat_eq_zero_iff {n : ℕ} (h : n < 2 ^ 16) : UInt16.ofNat n = 0 ↔ n = 0 := by
  rw [← UInt16.toNat_inj, UInt16.toNat_ofNat_of_lt' h]
  rfl

theorem count_parentList (hp : pIdx ≠ 0) :
    entry.parentList.count pIdx = entry.parents.toList.count pIdx := by
  rw [SynxGlobalCoredata.parentList, count_filter (by simpa using hp)]

theorem freeSlot_eq_some {i : ℕ} (h : entry.freeSlot = some i) :
    ∃ hi : i < entry.parents.toList.length, entry.parents.toList[i] = 0 := by
  rw [SynxGlobalCoredata.freeSlot, idxOf?, findIdx?_eq_some_iff_getElem] at h
  obtain ⟨hi, hzero, -⟩ := h
  exact ⟨hi, by simpa using hzero⟩

theorem count_addParent (hp : pIdx ≠ 0) (hfree : entry.freeSlot ≠ none) :
    (entry.addParent pIdx).parentList.count pIdx = entry.parentList.count pIdx + 1 := by
  obtain ⟨i, hi⟩ := Option.ne_none_iff_exists'.mp hfree
  obtain ⟨hlt, hzero⟩ := freeSlot_eq_some hi
  rw [count_parentList hp, count_parentList hp, SynxGlobalCoredata.addParent, hi]
  simp only [Vector.toList_setIfInBounds]
  rw [count_set hlt, hzero]
  simp [hp.symm]

@[simp]
theorem status_addParent : (entry.addParent pIdx).status = entry.status := by
  rw [SynxGlobalCoredata.addParent]
  split <;> rfl

@[simp]
theorem numChild_addParent : (entry.addParent pIdx).numChild = entry.numChild := by
  rw [SynxGlobalCoredata.addParent]
  split <;> rfl

theorem updateStatusLocked_signaled (hchild : entry.numChild = 0)
    (hstatus : entry.status ≠ synxStateActive) (isRecursion : Bool) :
    updateStatusLocked entry status isRecursion = ⟨eAlready, entry, [], 0, none, false⟩ := by
  simp [updateStatusLocked, hchild, hstatus]

theorem updateStatusLocked_leaf (hchild : entry.numChild = 0)
    (hstatus : entry.status = synxStateActive) (isRecursion : Bool) :
    updateStatusLocked entry status isRecursion =
      ⟨0, { entry with status := status, waiters := 0 }, entry.parentList, entry.waiters,
        some (entry.handle, status), false⟩ := by
  simp [updateStatusLocked, hchild, hstatus]

theorem updateStatusLocked_composite (hchild : entry.numChild ≠ 0)
    (href : entry.refcount ≠ 1) :
    (updateStatusLocked entry status true).entry = { entry with
      numChild := entry.numChild - 1
      status := if entry.status = synxStateActive || isErrorStatus status then status
        else entry.status
      waiters := if entry.numChild - 1 = 0 then 0 else entry.waiters
      refcount := if entry.numChild - 1 = 0 then entry.refcount - 1 else entry.refcount } := by
  have hne : entry.refcount - 1 ≠ 0 := by
    intro h
    have hadd := UInt16.sub_add_cancel entry.refcount 1
    rw [h] at hadd
    exact href hadd.symm
  by_cases hlast : entry.numChild - 1 = 0
  · simp [updateStatusLocked, hchild, hlast, hne]
  · simp [updateStatusLocked, hchild, hlast]

end

/-! ## Notifications -/

/-- One notification of a parent: the memory after its section, and its own parents. -/
def notifyStep (status : ℕ) (gmem : SynxSharedMem) (idx : ℕ) : SynxSharedMem × List ℕ :=
  if !synxIsValidIdx idx || status ≤ synxStateActive then (gmem, [])
  else
    let update := updateStatusLocked (gmem.table idx) status true
    (gmem.apply idx update, update.hParents)

theorem updateStatusCore_eq_visit (depth : ℕ) (gmem : SynxSharedMem) (idx status : ℕ) :
    (synxGlobalUpdateStatusCore depth gmem idx status true).2 =
      Library.visit (notifyStep status) depth gmem idx := by
  induction depth generalizing gmem idx with
  | zero => rfl
  | succ depth ih =>
    rw [synxGlobalUpdateStatusCore, Library.visit, notifyStep]
    split
    · rfl
    · simp only [ih]

end QcomModules.Synx
