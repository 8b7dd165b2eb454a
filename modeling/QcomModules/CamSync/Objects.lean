import Mathlib
import QcomModules.Library.Threads

/-! The camera sync driver: the table of sync objects, and the calls on it as threads. One step of
a thread is one section under the lock of a row; a merge keeps the lock of its own row while it
takes those of the children one after another. -/

namespace QcomModules.CamSync

open Library Function

/-! ## The table -/

def maxObjs : ℕ := 2048

def EINVAL : ℤ := 22
def ENOMEM : ℤ := 12
def EALREADY : ℤ := 114
def ECANCELED : ℤ := 125

inductive SyncType where
  | indv
  | group
deriving DecidableEq, Repr

inductive SyncState where
  | invalid
  | active
  | signaledSuccess
  | signaledError
  | signaledCancel
deriving DecidableEq, Repr

/-- The states that a status of the callers can name: a signal takes no other. -/
def SyncState.ofStatus : ℕ → Option SyncState
  | 2 => some .signaledSuccess
  | 3 => some .signaledError
  | 4 => some .signaledCancel
  | _ => none

def SyncState.signaled : SyncState → Bool
  | .signaledSuccess | .signaledError | .signaledCancel => true
  | .invalid | .active => false

def SyncState.failed : SyncState → Bool
  | .signaledError | .signaledCancel => true
  | .invalid | .active | .signaledSuccess => false

structure SyncCallback where
  callbackFunc : ℕ
  cbData : ℕ
deriving DecidableEq, Repr

/-- The two words of `payload_data`. -/
abbrev SyncPayload := UInt64 × UInt64

structure SyncRow where
  type : SyncType
  state : SyncState
  remaining : UInt32
  refCnt : ℤ
  parentsList : List ℕ
  childrenList : List ℕ
  callbackList : List SyncCallback
  userPayloadList : List SyncPayload
  /-- The file descriptor of the dma fence, when `ext_fence_mask` has its bit. -/
  dmaFence : Option ℤ
  synxObj : Option ℕ
deriving DecidableEq, Repr

structure SyncEvent where
  syncObj : ℕ
  status : SyncState
  payload : SyncPayload
  eventCause : ℕ
deriving DecidableEq, Repr

structure SyncDispatch where
  syncObj : ℕ
  status : SyncState
  callback : SyncCallback
deriving DecidableEq, Repr

/-- The device. `rowLocked` tells the row locks that are held between two steps; `dispatched` and
`events` keep what went to the worker and to the event queue. The last three fields are
history: what was registered, and the children each merge has gone through. -/
structure SyncDevice where
  table : ℕ → SyncRow
  bitmap : ℕ → Bool
  rowLocked : ℕ → Bool
  dispatched : List SyncDispatch
  events : List SyncEvent
  registered : List (ℕ × SyncCallback)
  payloads : List (ℕ × SyncPayload)
  members : ℕ → List ℕ

def inRange (obj : ℕ) : Bool := 0 < obj && obj < maxObjs

def SyncDevice.setRow (d : SyncDevice) (obj : ℕ) (row : SyncRow) : SyncDevice :=
  { d with table := Function.update d.table obj row }

def SyncDevice.setBit (d : SyncDevice) (obj : ℕ) (bit : Bool) : SyncDevice :=
  { d with bitmap := Function.update d.bitmap obj bit }

def SyncDevice.setLock (d : SyncDevice) (obj : ℕ) (locked : Bool) : SyncDevice :=
  { d with rowLocked := Function.update d.rowLocked obj locked }

def SyncDevice.setMembers (d : SyncDevice) (obj : ℕ) (children : List ℕ) : SyncDevice :=
  { d with members := Function.update d.members obj children }

def SyncDevice.send (d : SyncDevice) (dispatched : List SyncDispatch) (events : List SyncEvent) :
    SyncDevice :=
  { d with dispatched := d.dispatched ++ dispatched, events := d.events ++ events }

def SyncDevice.noteCallback (d : SyncDevice) (obj : ℕ) (cb : SyncCallback) : SyncDevice :=
  { d with registered := d.registered ++ [(obj, cb)] }

def SyncDevice.notePayload (d : SyncDevice) (obj : ℕ) (payload : SyncPayload) : SyncDevice :=
  { d with payloads := d.payloads ++ [(obj, payload)] }

section Updates

variable {d : SyncDevice} {obj idx : ℕ}

@[simp] theorem SyncDevice.setRow_table_self {row : SyncRow} :
    (d.setRow obj row).table obj = row := update_self ..

theorem SyncDevice.setRow_table_of_ne {row : SyncRow} (h : idx ≠ obj) :
    (d.setRow obj row).table idx = d.table idx := update_of_ne h ..

@[simp] theorem SyncDevice.setBit_bitmap_self {bit : Bool} :
    (d.setBit obj bit).bitmap obj = bit := update_self ..

theorem SyncDevice.setBit_bitmap_of_ne {bit : Bool} (h : idx ≠ obj) :
    (d.setBit obj bit).bitmap idx = d.bitmap idx := update_of_ne h ..

@[simp] theorem SyncDevice.setLock_rowLocked_self {locked : Bool} :
    (d.setLock obj locked).rowLocked obj = locked := update_self ..

theorem SyncDevice.setLock_rowLocked_of_ne {locked : Bool} (h : idx ≠ obj) :
    (d.setLock obj locked).rowLocked idx = d.rowLocked idx := update_of_ne h ..

@[simp] theorem SyncDevice.setMembers_members_self {children : List ℕ} :
    (d.setMembers obj children).members obj = children := update_self ..

theorem SyncDevice.setMembers_members_of_ne {children : List ℕ} (h : idx ≠ obj) :
    (d.setMembers obj children).members idx = d.members idx := update_of_ne h ..

end Updates

/-- The row that `cam_sync_deinit_row` leaves. -/
def SyncRow.deinit : SyncRow where
  type := .indv
  state := .invalid
  remaining := 0
  refCnt := 0
  parentsList := []
  childrenList := []
  callbackList := []
  userPayloadList := []
  dmaFence := none
  synxObj := none

/-- `cam_sync_init_row`. The associations with other fences stay. -/
def SyncRow.init (row : SyncRow) (idx : ℕ) (type : SyncType) : Except ℤ SyncRow :=
  if inRange idx then
    .ok { row with
      type := type
      state := .active
      remaining := 0
      refCnt := 0
      parentsList := []
      childrenList := []
      callbackList := []
      userPayloadList := [] }
  else .error (-EINVAL)

/-- The table after probe: bit zero is set so that no object gets that index. -/
def SyncDevice.probe : SyncDevice where
  table := fun _ => SyncRow.deinit
  bitmap := fun idx => idx == 0
  rowLocked := fun _ => false
  dispatched := []
  events := []
  registered := []
  payloads := []
  members := fun _ => []

/-! ## Operations and places -/

inductive SyncOp where
  | create (synx : Option ℕ) (dma : Option ℤ)
  | registerCallback (obj : ℕ) (cb : SyncCallback)
  | registerUserPayload (obj : ℕ) (payload : SyncPayload)
  | getObjRef (obj : ℕ)
  | putObjRef (obj : ℕ)
  | synxAssociate (obj synx : ℕ)
  | signal (obj status cause : ℕ)
  | dmaFenceCb (obj : ℕ) (fd status : ℤ)
  | synxObjCb (obj synx status : ℕ)
  | merge (objs : List ℕ)
  | destroy (obj : ℕ)
deriving DecidableEq, Repr

/-- What a row is taken for. -/
inductive NewObj where
  | indv (synx : Option ℕ) (dma : Option ℤ)
  | group (objs : List ℕ)
deriving DecidableEq, Repr

/-- Where a thread is between two sections. -/
inductive SyncPc where
  | enter (op : SyncOp)
  | returned (rc : ℤ)
  /-- Before the search for a free row, between it and the bit, and before the row lock. -/
  | finding (new : NewObj)
  | found (idx : ℕ) (new : NewObj)
  | owning (idx : ℕ) (new : NewObj)
  | created (idx : ℕ)
  /-- A signal that has given up the row lock for the synx object. -/
  | signalSynx (obj : ℕ) (status : SyncState) (cause : ℕ)
  /-- `cam_sync_signal_parent_util` on the parents taken off a child. -/
  | signalParents (child : ℕ) (status : SyncState) (cause : ℕ) (parents : List ℕ)
  | mergeCheck (checked todo : List ℕ)
  /-- The loop of `cam_sync_init_group_object`, and its cleanup. -/
  | mergeLink (idx : ℕ) (linked todo : List ℕ)
  | mergeClean (idx : ℕ) (todo : List ℕ)
  /-- A failed merge has returned and has not given the row lock back. -/
  | mergeLeaked (idx : ℕ)
  | merged (idx : ℕ) (objs : List ℕ)
  | destroyLinks (obj : ℕ) (children parents : List ℕ)
deriving DecidableEq, Repr

def SyncPc.lock : SyncPc → Option ℕ
  | .enter (.create _ _) | .enter (.putObjRef _) | .enter (.merge _) => none
  | .enter (.registerCallback obj _) | .enter (.registerUserPayload obj _) => some obj
  | .enter (.getObjRef obj) | .enter (.synxAssociate obj _) => some obj
  | .enter (.signal obj _ _) | .enter (.dmaFenceCb obj _ _) => some obj
  | .enter (.synxObjCb obj _ _) | .enter (.destroy obj) => some obj
  | .returned _ | .created _ | .mergeLeaked _ | .merged _ _ => none
  | .finding _ | .found _ _ => none
  | .owning idx _ => some idx
  | .signalSynx obj _ _ => some obj
  | .signalParents _ _ _ parents => parents.head?
  | .mergeCheck _ todo => todo.head?
  | .mergeLink _ _ todo => todo.head?
  | .mergeClean _ todo => todo.head?
  | .destroyLinks obj children parents => some ((children ++ parents).headD obj)

/-- Whether the two allocations a section can make succeed. -/
structure SyncChoice where
  firstAlloc : Bool
  secondAlloc : Bool
deriving DecidableEq, Repr

/-! ## Dispatch -/

def SyncDevice.dispatchSignaledCb (d : SyncDevice) (obj : ℕ) (status : SyncState)
    (cause : ℕ) : SyncDevice :=
  let row := d.table obj
  if row.state = .invalid then d
  else
    (d.setRow obj { row with callbackList := [], userPayloadList := [] }).send
      (row.callbackList.map (⟨obj, status, ·⟩)) (row.userPayloadList.map (⟨obj, status, ·, cause⟩))

def SyncDevice.registerCallback (d : SyncDevice) (obj : ℕ) (cb : SyncCallback)
    (alloc : Bool) : SyncDevice × SyncPc :=
  let row := d.table obj
  if !inRange obj then (d, .returned (-EINVAL))
  else if row.state = .invalid then (d, .returned (-EINVAL))
  else if !alloc then (d, .returned (-ENOMEM))
  else if row.state.signaled && row.remaining == 0 then
    ((d.noteCallback obj cb).send [⟨obj, row.state, cb⟩] [], .returned 0)
  else
    ((d.setRow obj { row with callbackList := row.callbackList ++ [cb] }).noteCallback obj cb,
      .returned 0)

def regPayloadEvent : ℕ := 5

/-- `cam_sync_handle_register_user_payload`. A signaled row sends the event at once, whatever
remains of it. -/
def SyncDevice.registerUserPayload (d : SyncDevice) (obj : ℕ) (payload : SyncPayload)
    (alloc : Bool) : SyncDevice × SyncPc :=
  let row := d.table obj
  if !inRange obj then (d, .returned (-EINVAL))
  else if !alloc then (d, .returned (-ENOMEM))
  else if row.state = .invalid then (d, .returned (-EINVAL))
  else if row.state.signaled then
    ((d.notePayload obj payload).send [] [⟨obj, row.state, payload, regPayloadEvent⟩], .returned 0)
  else if payload ∈ row.userPayloadList then (d, .returned (-EALREADY))
  else
    ((d.setRow obj { row with
      userPayloadList := row.userPayloadList ++ [payload] }).notePayload obj payload, .returned 0)

/-! ## References and associations -/

def SyncDevice.getObjRef (d : SyncDevice) (obj : ℕ) : SyncDevice × SyncPc :=
  let row := d.table obj
  if !inRange obj then (d, .returned (-EINVAL))
  else if row.state ≠ .active then (d, .returned (-EINVAL))
  else (d.setRow obj { row with refCnt := row.refCnt + 1 }, .returned 0)

def SyncDevice.putObjRef (d : SyncDevice) (obj : ℕ) : SyncDevice × SyncPc :=
  let row := d.table obj
  if !inRange obj then (d, .returned (-EINVAL))
  else (d.setRow obj { row with refCnt := row.refCnt - 1 }, .returned 0)

/-- The section of `cam_sync_synx_associate_obj` after its check of the object. The signal of the
synx object by an object that is signaled already is outside. -/
def SyncDevice.synxAssociate (d : SyncDevice) (obj synx : ℕ) : SyncDevice × SyncPc :=
  let row := d.table obj
  if !inRange obj then (d, .returned (-EINVAL))
  else if row.synxObj.isSome then (d, .returned (-EINVAL))
  else if row.state ≠ .active then (d, .returned 0)
  else (d.setRow obj { row with synxObj := some synx }, .returned 0)

/-! ## Signal -/

def SyncRow.updateParentState (row : SyncRow) (newState : SyncState) : Option SyncRow :=
  match row.state with
  | .active | .signaledSuccess => some { row with state := newState }
  | .signaledError | .signaledCancel => some row
  | .invalid => none

/-- One round of `cam_sync_signal_parent_util`. -/
def SyncDevice.signalParent (d : SyncDevice) (parent : ℕ) (status : SyncState)
    (cause : ℕ) : SyncDevice :=
  let row := { d.table parent with remaining := (d.table parent).remaining - 1 }
  match row.updateParentState status with
  | none => d.setRow parent row
  | some row =>
    if row.remaining = 0 then
      (d.setRow parent row).dispatchSignaledCb parent row.state cause
    else d.setRow parent row

/-- `cam_sync_signal_validate_util`, with the state that the status names. -/
def SyncRow.signalValidate (row : SyncRow) (status : ℕ) : Except ℤ SyncState :=
  if row.state = .invalid then .error (-EINVAL)
  else if row.type = .group then .error (-EINVAL)
  else if row.state ≠ .active then .error (-EALREADY)
  else match SyncState.ofStatus status with
    | none => .error (-EINVAL)
    | some state => .ok state

/-- The end of a signal under the row lock: dispatch, and take the parents off. -/
def SyncDevice.finishSignal (d : SyncDevice) (obj : ℕ) (status : SyncState)
    (cause : ℕ) : SyncDevice × SyncPc :=
  let d := d.dispatchSignaledCb obj status cause
  let row := d.table obj
  (d.setRow obj { row with parentsList := [] }, .signalParents obj status cause row.parentsList)

/-- The first section of `cam_sync_signal`. -/
def SyncDevice.signal (d : SyncDevice) (obj status cause : ℕ) : SyncDevice × SyncPc :=
  let row := d.table obj
  if !inRange obj then (d, .returned (-EINVAL))
  else match row.signalValidate status with
    | .error rc => (d, .returned rc)
    | .ok state =>
      if row.refCnt - 1 ≠ 0 then
        (d.setRow obj { row with refCnt := row.refCnt - 1 }, .returned 0)
      else
        let d := d.setRow obj { row with refCnt := row.refCnt - 1, state := state }
        if row.synxObj.isSome then (d, .signalSynx obj state cause)
        else d.finishSignal obj state cause

/-- What the two callbacks of external fences share: they count as a reference of their own. -/
def SyncDevice.fenceCb (d : SyncDevice) (obj status : ℕ) : SyncDevice × SyncPc :=
  let row := d.table obj
  match row.signalValidate status with
  | .error rc => (d, .returned rc)
  | .ok state =>
    if row.refCnt + 1 - 1 ≠ 0 then
      (d.setRow obj { row with refCnt := row.refCnt + 1 - 1 }, .returned 0)
    else
      (d.setRow obj { row with refCnt := row.refCnt + 1 - 1, state := state }).finishSignal
        obj state 0

def SyncDevice.dmaFenceCb (d : SyncDevice) (obj : ℕ) (fd status : ℤ) : SyncDevice × SyncPc :=
  if !inRange obj then (d, .returned (-EINVAL))
  else if (d.table obj).dmaFence = none then (d, .returned (-EINVAL))
  else if (d.table obj).dmaFence ≠ some fd then (d, .returned (-EINVAL))
  else d.fenceCb obj (if status < 0 then (if status = -ECANCELED then 4 else 3) else 2)

def SyncDevice.synxObjCb (d : SyncDevice) (obj synx status : ℕ) : SyncDevice × SyncPc :=
  if !inRange obj then (d, .returned (-EINVAL))
  else if (d.table obj).synxObj = none then (d, .returned (-EINVAL))
  else if (d.table obj).synxObj ≠ some synx then (d, .returned (-EINVAL))
  else d.fenceCb obj status

/-! ## Create and merge -/

/-- The array that `cam_common_util_remove_duplicate_arr` leaves; it returns the length. -/
def removeDuplicateArr (arr : List ℕ) : List ℕ :=
  arr.foldl (fun kept obj => if obj ∈ kept then kept else kept ++ [obj]) []

def SyncDevice.mergeEnter (d : SyncDevice) (objs : List ℕ) : SyncDevice × SyncPc :=
  if objs.length ≤ 1 then (d, .returned (-EINVAL))
  else if (removeDuplicateArr objs).length ≠ objs.length then (d, .returned (-EINVAL))
  else (d, .mergeCheck [] objs)

def SyncDevice.checkValid (d : SyncDevice) (obj : ℕ) : Bool :=
  inRange obj && d.bitmap obj && !decide ((d.table obj).state = .invalid)

/-- `find_first_zero_bit` from an index on. The size that the code returns when all bits are set is
`none`. -/
def findFirstZeroBit (bitmap : ℕ → Bool) : ℕ → ℕ → Option ℕ
  | 0, _ => none
  | size + 1, idx => if bitmap idx then findFirstZeroBit bitmap size (idx + 1) else some idx

theorem findFirstZeroBit_lt {bitmap : ℕ → Bool} {size idx found : ℕ}
    (h : findFirstZeroBit bitmap size idx = some found) : found < idx + size := by
  induction size generalizing idx with
  | zero => cases h
  | succ size ih =>
    rw [findFirstZeroBit] at h
    split at h
    · have hlt := ih h
      omega
    · cases h
      omega

/-- The rest of `cam_sync_create_util` once the bit is set. -/
def SyncDevice.createRow (d : SyncDevice) (idx : ℕ) (synx : Option ℕ) (dma : Option ℤ) :
    SyncDevice × SyncPc :=
  match (d.table idx).init idx .indv with
  | .error _ => (d.setBit idx false, .returned (-EINVAL))
  | .ok row =>
    (d.setRow idx
      { row with synxObj := synx.or row.synxObj, dmaFence := dma.or row.dmaFence },
      .created idx)

/-- `cam_sync_init_group_object` up to its loop. It does not look at what the row initialisation
returns. -/
def SyncDevice.groupRow (d : SyncDevice) (idx : ℕ) (objs : List ℕ) : SyncDevice × SyncPc :=
  let row := match (d.table idx).init idx .group with
    | .error _ => d.table idx
    | .ok row => row
  (((d.setRow idx row).setLock idx true).setMembers idx [], .mergeLink idx [] objs)

/-- The jump to `clean_children_info`. -/
def SyncDevice.failLink (d : SyncDevice) (idx : ℕ) (linked : List ℕ) : SyncDevice × SyncPc :=
  (d.setRow idx { d.table idx with state := .invalid }, .mergeClean idx linked.reverse)

/-- One round of the loop of `cam_sync_init_group_object`. -/
def SyncDevice.linkChild (d : SyncDevice) (idx : ℕ) (linked : List ℕ) (child : ℕ)
    (todo : List ℕ) (choice : SyncChoice) : SyncDevice × SyncPc :=
  let row := d.table idx
  let childRow := d.table child
  let next := d.setMembers idx (linked ++ [child])
  if childRow.type = .group ∨ childRow.state = .invalid then d.failLink idx linked
  else if childRow.state.failed then
    (next.setRow idx { row with state := childRow.state }, .mergeLink idx (linked ++ [child]) todo)
  else if childRow.state ≠ .active then (next, .mergeLink idx (linked ++ [child]) todo)
  else
    let row := { row with remaining := row.remaining + 1 }
    if !choice.firstAlloc then (d.setRow idx row).failLink idx linked
    else
      let row := { row with childrenList := row.childrenList ++ [child] }
      if !choice.secondAlloc then (d.setRow idx row).failLink idx linked
      else
        ((next.setRow idx row).setRow child
          { childRow with parentsList := childRow.parentsList ++ [idx] },
          .mergeLink idx (linked ++ [child]) todo)

/-- The end of the loop, and the unlock in `cam_sync_merge`. -/
def SyncDevice.mergeEnd (d : SyncDevice) (idx : ℕ) (objs : List ℕ) : SyncDevice × SyncPc :=
  let row := d.table idx
  let row := if row.remaining = 0 ∧ row.state.failed = false then
      { row with state := .signaledSuccess }
    else row
  ((d.setRow idx row).setLock idx false, .merged idx objs)

/-- The parents list of a child without one link, as `cam_sync_util_cleanup_parents_list` with
`SYNC_LIST_CLEAN_ONE` leaves it. -/
def SyncDevice.unlinkParent (d : SyncDevice) (child parent : ℕ) : SyncDevice :=
  let row := d.table child
  d.setRow child { row with parentsList := row.parentsList.erase parent }

def SyncDevice.unlinkChild (d : SyncDevice) (parent child : ℕ) : SyncDevice :=
  let row := d.table parent
  d.setRow parent { row with childrenList := row.childrenList.erase child }

/-- The end of a failed merge: the bit is cleared and the row lock is kept. -/
def SyncDevice.mergeFail (d : SyncDevice) (idx : ℕ) : SyncDevice × SyncPc :=
  ((d.setRow idx { d.table idx with childrenList := [] }).setBit idx false, .mergeLeaked idx)

/-! ## Destroy -/

/-- The first section of `cam_sync_deinit_object`. Links without an index stay. -/
def SyncDevice.destroy (d : SyncDevice) (obj : ℕ) : SyncDevice × SyncPc :=
  let row := d.table obj
  if !inRange obj then (d, .returned (-EINVAL))
  else if row.state = .invalid then (d, .returned (-EINVAL))
  else
    (d.setRow obj { row with
        state := .invalid
        childrenList := row.childrenList.filter (· = 0)
        parentsList := row.parentsList.filter (· = 0) },
      .destroyLinks obj (row.childrenList.filter (0 < ·)) (row.parentsList.filter (0 < ·)))

/-- The later sections: one for each child, one for each parent, and the last. -/
def SyncDevice.destroyNext (d : SyncDevice) (obj : ℕ) : List ℕ → List ℕ → SyncDevice × SyncPc
  | child :: children, parents =>
    (if (d.table child).state = .invalid then d else d.unlinkParent child obj,
      .destroyLinks obj children parents)
  | [], parent :: parents =>
    (if (d.table parent).state = .invalid then d else d.unlinkChild parent obj,
      .destroyLinks obj [] parents)
  | [], [] => ((d.setRow obj SyncRow.deinit).setBit obj false, .returned 0)

/-! ## The system -/

def SyncDevice.enter (d : SyncDevice) (choice : SyncChoice) : SyncOp → SyncDevice × SyncPc
  | .create synx dma => (d, .finding (.indv synx dma))
  | .registerCallback obj cb => d.registerCallback obj cb choice.firstAlloc
  | .registerUserPayload obj payload => d.registerUserPayload obj payload choice.firstAlloc
  | .getObjRef obj => d.getObjRef obj
  | .putObjRef obj => d.putObjRef obj
  | .synxAssociate obj synx => d.synxAssociate obj synx
  | .signal obj status cause => d.signal obj status cause
  | .dmaFenceCb obj fd status => d.dmaFenceCb obj fd status
  | .synxObjCb obj synx status => d.synxObjCb obj synx status
  | .merge objs => d.mergeEnter objs
  | .destroy obj => d.destroy obj

def SyncDevice.act (choice : SyncChoice) (d : SyncDevice) : SyncPc → SyncDevice × SyncPc
  | .enter op => d.enter choice op
  | .finding new =>
    match findFirstZeroBit d.bitmap maxObjs 0 with
    | none => (d, .returned (-ENOMEM))
    | some idx => (d, .found idx new)
  | .found idx new =>
    if d.bitmap idx then (d, .finding new) else (d.setBit idx true, .owning idx new)
  | .owning idx (.indv synx dma) => d.createRow idx synx dma
  | .owning idx (.group objs) => d.groupRow idx objs
  | .signalSynx obj status cause => d.finishSignal obj status cause
  | .signalParents child status cause (parent :: parents) =>
    (d.signalParent parent status cause, .signalParents child status cause parents)
  | .signalParents _ _ _ [] => (d, .returned 0)
  | .mergeCheck checked (obj :: todo) =>
    if d.checkValid obj then (d, .mergeCheck (checked ++ [obj]) todo)
    else (d, .returned (-EINVAL))
  | .mergeCheck checked [] => (d, .finding (.group checked))
  | .mergeLink idx linked (child :: todo) => d.linkChild idx linked child todo choice
  | .mergeLink idx linked [] => d.mergeEnd idx linked
  | .mergeClean idx (child :: todo) => (d.unlinkParent child idx, .mergeClean idx todo)
  | .mergeClean idx [] => d.mergeFail idx
  | .destroyLinks obj children parents => d.destroyNext obj children parents
  | .returned rc => (d, .returned rc)
  | .created idx => (d, .created idx)
  | .mergeLeaked idx => (d, .mergeLeaked idx)
  | .merged idx objs => (d, .merged idx objs)

/-- The driver with its callers. A section waits for a row lock that another thread holds. -/
def syncSystem : ThreadSystem SyncDevice SyncPc SyncOp SyncChoice where
  enter := .enter
  enabled := fun d pc => pc.lock.all (fun obj => !d.rowLocked obj)
  act := SyncDevice.act

abbrev SyncSystem := Threads SyncDevice SyncPc

abbrev SyncInput := ThreadInput SyncOp SyncChoice

def SyncSystem.probe : SyncSystem := ⟨SyncDevice.probe, []⟩

end QcomModules.CamSync
