import Mathlib

/-! The serialization of non-scan commands on a pdev, from `wlan_serialization_non_scan.c`,
`wlan_serialization_internal.c` and the queue and utility files beside them.

A command entry is linked into a list of its pdev and into the same list of its vdev, and the two
are always changed under one lock, so the list of a vdev is given here by the entries of that vdev
in the list of the pdev. What runs between taking and releasing the lock of the pdev queue is one
step; an operation is a stack of the steps it still has to take. -/

namespace QcomModules.Wlan

/-! ## Commands and queues -/

/-- The non-scan part of `wlan_serialization_cmd_type`. -/
inductive SerCmdType where
  | nonscan
  | forceDisassocSta
  | forceDeauthSta
  | performPreAuth
  | wmStatusChange
  | ndpInitReq
  | ndpRespReq
  | ndpDataEndInitReq
  | ndpEndAllReq
  | ndpUpdateConfigReq
  | addts
  | delts
  | tdlsSendMgmt
  | tdlsAddPeer
  | tdlsDelPeer
  | setHwMode
  | nssUpdate
  | setDualMacConfig
  | setAntennaMode
  | vdevDelete
  | vdevStartBss
  | vdevStopBss
  | vdevConnect
  | vdevDisconnect
  | vdevRestart
  | pdevRestart
  | pdevCsaRestart
  | vdevRoam
  | setMloLink
  | mloVdevLinkSwitch
  | sapBwUpdate
  | highApAvailability
  | linkRecfg
deriving DecidableEq, Repr

/-- `wlan_serialization_command`, for a type of vdevs. -/
structure SerCommand (V : Type) where
  cmdType : SerCmdType
  cmdId : UInt32
  isHighPriority : Bool
  isBlocking : Bool
  queueDisable : Bool
  vdev : V
deriving DecidableEq, Repr

/-- The bits of `cmd_in_use`. -/
structure CmdInUse where
  markedForActivation : Bool := false
  isActive : Bool := false
  activeMarkedForCancel : Bool := false
  activeMarkedForRemoval : Bool := false
  markedForMovement : Bool := false
deriving DecidableEq, Repr

/-- `wlan_serialization_command_list`; `node` stands for its address. -/
structure CommandList (V : Type) where
  node : ℕ
  cmd : SerCommand V
  cmdInUse : CmdInUse
deriving DecidableEq, Repr

/-- The sizes of the lists. A pdev has at most `WLAN_SER_MAX_VDEVS` vdevs. -/
structure SerConfig (V : Type) [Fintype V] where
  maxVdevs : ℕ
  maxPendingCmds : ℕ
  vdevMaxPendingCmds : V → ℕ
  card_le : Fintype.card V ≤ maxVdevs
  maxPendingCmds_lt : maxPendingCmds < 2 ^ 16

/-- The non-scan `wlan_serialization_pdev_queue`, with the disabled vdev queues. -/
structure SerPdev (V : Type) where
  activeList : List (CommandList V)
  pendingList : List (CommandList V)
  cmdPoolList : List ℕ
  vdevActiveCmdBitmap : Finset V
  blockingCmdActive : Bool
  blockingCmdWaiting : ℕ
  queueDisable : Finset V

variable {V : Type} [DecidableEq V] [Fintype V]

/-- `wlan_serialization_pdev_create_handler`. -/
def SerPdev.create (cfg : SerConfig V) : SerPdev V where
  activeList := []
  pendingList := []
  cmdPoolList := List.range (cfg.maxVdevs + cfg.maxPendingCmds)
  vdevActiveCmdBitmap := ∅
  blockingCmdActive := false
  blockingCmdWaiting := 0
  queueDisable := ∅

/-- `wlan_serialization_get_list_from_pdev_queue`. -/
def SerPdev.list (s : SerPdev V) (isActive : Bool) : List (CommandList V) :=
  if isActive then s.activeList else s.pendingList

def SerPdev.setList (s : SerPdev V) (isActive : Bool) (l : List (CommandList V)) : SerPdev V :=
  if isActive then { s with activeList := l } else { s with pendingList := l }

/-- `wlan_serialization_get_list_from_vdev_queue`. -/
def SerPdev.vdevList (s : SerPdev V) (isActive : Bool) (vdev : V) : List (CommandList V) :=
  (s.list isActive).filter fun e => e.cmd.vdev = vdev

def SerConfig.maxCmds (cfg : SerConfig V) (isActive : Bool) : ℕ :=
  if isActive then cfg.maxVdevs else cfg.maxPendingCmds

def SerConfig.vdevMaxCmds (cfg : SerConfig V) (isActive : Bool) (vdev : V) : ℕ :=
  if isActive then cfg.maxVdevs / cfg.maxVdevs else cfg.vdevMaxPendingCmds vdev

/-- The match of `WLAN_SER_MATCH_CMD_ID_VDEV`. -/
def matchCmd (cmd : SerCommand V) (e : CommandList V) : Bool :=
  e.cmd.cmdId = cmd.cmdId && e.cmd.cmdType = cmd.cmdType && e.cmd.vdev = cmd.vdev

def wlanSerializationAnyVdevCmdActive (s : SerPdev V) : Bool := s.vdevActiveCmdBitmap ≠ ∅

def SerPdev.setInUse (s : SerPdev V) (isActive : Bool) (node : ℕ) (f : CmdInUse → CmdInUse) :
    SerPdev V :=
  s.setList isActive ((s.list isActive).map fun e =>
    if e.node = node then { e with cmdInUse := f e.cmdInUse } else e)

def SerPdev.release (s : SerPdev V) (node : ℕ) : SerPdev V :=
  { s with cmdPoolList := s.cmdPoolList ++ [node] }

/-! ## Admission -/

/-- `wlan_serialization_is_active_non_scan_cmd_allowed`; it counts the blocking commands that
have to wait. The copy of the counter it tests has eight bits. -/
def wlanSerializationIsActiveNonScanCmdAllowed (cmd : SerCommand V) (s : SerPdev V) :
    Bool × SerPdev V :=
  if cmd.isBlocking then
    if wlanSerializationAnyVdevCmdActive s then
      (false, { s with blockingCmdWaiting := (s.blockingCmdWaiting + 1) % 2 ^ 16 })
    else (true, s)
  else if s.blockingCmdActive || s.blockingCmdWaiting % 2 ^ 8 ≠ 0 then (false, s)
  else (cmd.vdev ∉ s.vdevActiveCmdBitmap, s)

def wlanSerializationIsNonScanPendingQueueEmpty (cmd : SerCommand V) (s : SerPdev V) : Bool :=
  (s.vdevList false cmd.vdev).isEmpty

def wlanSerializationIsActiveCmdAllowed (cmd : SerCommand V) (s : SerPdev V) :
    Bool × SerPdev V :=
  let r := wlanSerializationIsActiveNonScanCmdAllowed cmd s
  (r.1 && wlanSerializationIsNonScanPendingQueueEmpty cmd r.2, r.2)

def wlanSerializationIsCmdPresentQueue (cmd : SerCommand V) (isActive : Bool) (s : SerPdev V) :
    Bool :=
  (s.vdevList isActive cmd.vdev).any (matchCmd cmd)

inductive SerStatus where
  | pending
  | active
  | deniedListFull
  | queueDisabled
  | deniedUnspecified
deriving DecidableEq, Repr

/-- `wlan_ser_add_non_scan_cmd`. The queue of the vdev is disabled even if its list is full. -/
def wlanSerAddNonScanCmd (cfg : SerConfig V) (e : CommandList V) (isActive : Bool)
    (s : SerPdev V) : SerStatus × SerPdev V :=
  let s := if e.cmd.queueDisable then
      { s with queueDisable := insert e.cmd.vdev s.queueDisable }
    else s
  if (s.vdevList isActive e.cmd.vdev).length = cfg.vdevMaxCmds isActive e.cmd.vdev then
    (.deniedListFull, s)
  else if (s.list isActive).length = cfg.maxCmds isActive then (.deniedListFull, s)
  else
    let s := s.setList isActive
      (if e.cmd.isHighPriority then e :: s.list isActive else s.list isActive ++ [e])
    if isActive then
      (.active,
        { s with
          vdevActiveCmdBitmap := insert e.cmd.vdev s.vdevActiveCmdBitmap
          blockingCmdActive := s.blockingCmdActive || e.cmd.isBlocking })
    else (.pending, s)

/-- The part of `wlan_serialization_enqueue_cmd` that follows the choice of the queue. -/
def enqueueInto (cfg : SerConfig V) (cmd : SerCommand V) (activeQueue : Bool) (s : SerPdev V) :
    SerStatus × Option ℕ × SerPdev V :=
  if wlanSerializationIsCmdPresentQueue cmd activeQueue s then (.deniedUnspecified, none, s)
  else
    match s.cmdPoolList with
    | [] => (.deniedListFull, none, s)
    | node :: pool =>
      match wlanSerAddNonScanCmd cfg ⟨node, cmd, {}⟩ activeQueue
        { s with cmdPoolList := pool } with
      | (.active, s) =>
        (.active, some node,
          s.setInUse true node fun u => { u with markedForActivation := true })
      | (.pending, s) => (.pending, none, s)
      | (status, s) => (status, none, s.release node)

/-- The locked part of `wlan_serialization_enqueue_cmd`: the status, the entry to activate, and
the queues. -/
def wlanSerializationEnqueueCmd (cfg : SerConfig V) (cmd : SerCommand V) (s : SerPdev V) :
    SerStatus × Option ℕ × SerPdev V :=
  if cmd.vdev ∈ s.queueDisable then (.queueDisabled, none, s)
  else
    let r := wlanSerializationIsActiveCmdAllowed cmd s
    enqueueInto cfg cmd r.1 r.2

/-! ## Removal -/

inductive RemoveStatus (V : Type) where
  | eFailure
  | ePending
  | success (e : CommandList V)

/-- `wlan_ser_remove_non_scan_cmd`. An entry about to be activated is only marked. -/
def wlanSerRemoveNonScanCmd (cmd : SerCommand V) (isActive : Bool) (s : SerPdev V) :
    RemoveStatus V × SerPdev V :=
  match (s.vdevList isActive cmd.vdev).find? (matchCmd cmd) with
  | none => (.eFailure, s)
  | some e =>
    if e.cmdInUse.markedForActivation then
      (.ePending,
        s.setInUse isActive e.node fun u => { u with activeMarkedForRemoval := true })
    else
      let s := s.setList isActive ((s.list isActive).eraseP (matchCmd cmd))
      if isActive then
        (.success e,
          { s with
            blockingCmdActive := s.blockingCmdActive && !e.cmd.isBlocking
            vdevActiveCmdBitmap := s.vdevActiveCmdBitmap.erase cmd.vdev })
      else (.success e, s)

/-! ## From pending to active -/

/-- Sets or clears `CMD_MARKED_FOR_MOVEMENT`. -/
def CommandList.markForMovement (e : CommandList V) (b : Bool) : CommandList V :=
  { e with cmdInUse := { e.cmdInUse with markedForMovement := b } }

/-- The walk over the pending list of the pdev: the entry to activate, and the list with the marks
that the walk leaves. The next entry is marked before the current one is looked at further. -/
def walkPending (bitmap : Finset V) :
    Bool → List (CommandList V) → List (CommandList V) × Option (CommandList V)
  | _, [] => ([], none)
  | marked, e :: rest =>
    let e := if marked then e.markForMovement true else e
    if e.cmd.isBlocking && bitmap ≠ ∅ then (e :: rest, none)
    else if e.cmd.vdev ∈ bitmap then
      let r := walkPending bitmap true rest
      (e.markForMovement false :: r.1, r.2)
    else (e :: rest.modifyHead (·.markForMovement true), some e)

/-- The search of `wlan_ser_move_non_scan_pending_to_active`, in the list of a vdev or in that of
the pdev. -/
def searchPending (lookup : Option V) (s : SerPdev V) : SerPdev V × Option (CommandList V) :=
  match lookup with
  | some vdev =>
    (s, if vdev ∈ s.vdevActiveCmdBitmap then none
      else (s.vdevList false vdev).head?.filter fun e => !e.cmdInUse.markedForMovement)
  | none =>
    let r := walkPending s.vdevActiveCmdBitmap false s.pendingList
    ({ s with pendingList := r.1 }, r.2)

/-- Moves an entry that the search found, and gives its address if it is to be activated. -/
def moveToActive (cfg : SerConfig V) (e : CommandList V) (s : SerPdev V) :
    Option ℕ × SerPdev V :=
  match wlanSerRemoveNonScanCmd e.cmd false s with
  | (.success e, s) =>
    match wlanSerAddNonScanCmd cfg e true s with
    | (.active, s) =>
      let s := s.setInUse true e.node fun u => { u with markedForActivation := true }
      (some e.node, if e.cmd.isBlocking then
        { s with blockingCmdWaiting := (s.blockingCmdWaiting + (2 ^ 16 - 1)) % 2 ^ 16 }
      else s)
    | (_, s) => (none, s.release e.node)
  | (_, s) => (none, s)

/-- What `wlan_ser_move_non_scan_pending_to_active` does under the lock up to an activation. -/
def moveSection (cfg : SerConfig V) (lookup : Option V) (s : SerPdev V) : Option ℕ × SerPdev V :=
  match searchPending lookup s with
  | (s, none) => (none, s)
  | (s, some e) => moveToActive cfg e s

/-! ## Cancellation -/

/-- The arguments of `wlan_ser_cancel_non_scan_cmd` that select commands. -/
structure CancelReq (V : Type) where
  cmd : Option (SerCommand V)
  pdev : Bool
  vdev : Option V
  cmdType : SerCmdType
  nonBlock : Bool
deriving DecidableEq, Repr

/-- Whether an entry is to be cancelled; all entries here are of the pdev. -/
def CancelReq.selects (req : CancelReq V) (e : CommandList V) : Bool :=
  req.cmd.all (fun cmd => matchCmd cmd e) &&
    req.vdev.all (fun vdev => e.cmd.vdev = vdev) &&
    (req.cmdType = .nonscan || req.vdev.all fun vdev =>
      e.cmd.cmdType = req.cmdType && e.cmd.vdev = vdev) &&
    !(req.nonBlock && e.cmd.isBlocking)

/-- `wlan_serialization_get_cmd_from_queue`: the first entry, or the one after an address. The
code follows the link at that address even if its entry has left the list; here that is the end. -/
def getCmdFromQueue (l : List (CommandList V)) : Option ℕ → Option (CommandList V)
  | none => l.head?
  | some node => (l.dropWhile fun e => e.node ≠ node).tail.head?

/-- Where a cancellation goes on after the callbacks of a command that it has removed. -/
structure CancelCursor where
  pnode : Option ℕ
  qsize : ℕ
deriving DecidableEq, Repr

/-- The loop of `wlan_ser_cancel_non_scan_cmd` up to the next removal. -/
def cancelLoop (req : CancelReq V) (isActive : Bool) :
    ℕ → Option ℕ → Option ℕ → SerPdev V → Option (CancelCursor × SerCommand V) × SerPdev V
  | 0, _, _, s => (none, s)
  | qsize + 1, nnode, pnode, s =>
    match getCmdFromQueue (s.list isActive) nnode with
    | none => (none, s)
    | some e =>
      if !req.selects e then cancelLoop req isActive qsize (some e.node) (some e.node) s
      else if isActive && e.cmdInUse.markedForActivation then
        cancelLoop req isActive qsize (some e.node) pnode
          (s.setInUse true e.node fun u => { u with activeMarkedForCancel := true })
      else
        (some (⟨pnode, qsize⟩, e.cmd),
          (s.setList isActive ((s.list isActive).eraseP fun x => x.node = e.node)).release
            e.node)

def cancelClear (isActive : Bool) (cmd : SerCommand V) (s : SerPdev V) : SerPdev V :=
  if isActive then
    { s with
      blockingCmdActive := s.blockingCmdActive && !cmd.isBlocking
      vdevActiveCmdBitmap := s.vdevActiveCmdBitmap.erase cmd.vdev }
  else if cmd.isBlocking then
    { s with blockingCmdWaiting := (s.blockingCmdWaiting + (2 ^ 16 - 1)) % 2 ^ 16 }
  else s

/-! ## Operations -/

/-- A step that is still to be taken. -/
inductive SerFrame (V : Type) where
  | enqueue (cmd : SerCommand V)
  | dequeue (cmd : SerCommand V)
  | cancel (req : CancelReq V) (isActive : Bool)
  | cancelResume (req : CancelReq V) (isActive : Bool) (cursor : CancelCursor)
      (removed : SerCommand V)
  | activate (node : ℕ)
  | move (vdev : Option V) (blockingCmdRemoved : Bool)
  | moveResume (vdevQueueLookup : Bool)
deriving DecidableEq, Repr

/-- The end of a section of a move: an entry to activate, and then the rest of the move. -/
def moveFrames (vdevQueueLookup : Bool) : Option ℕ → List (SerFrame V)
  | none => []
  | some node => [.activate node, .moveResume vdevQueueLookup]

/-- The end of a section of a cancellation. When all active commands are gone, pending ones are
moved. -/
def cancelFrames (req : CancelReq V) (isActive : Bool) :
    Option (CancelCursor × SerCommand V) × SerPdev V → SerPdev V × List (SerFrame V)
  | (some (cursor, cmd), s) => (s, [.cancelResume req isActive cursor cmd])
  | (none, s) =>
    (s, if isActive && (s.list isActive).isEmpty && !wlanSerializationAnyVdevCmdActive s then
      [.move none false] else [])

/-- `WLAN_SER_CANCEL_NON_SCAN_CMD`, and the cancellation after an activation. -/
def CancelReq.ofCmd (cmd : SerCommand V) (cmdType : SerCmdType) : CancelReq V where
  cmd := some cmd
  pdev := false
  vdev := none
  cmdType := cmdType
  nonBlock := false

/-- The last part of `wlan_serialization_activate_cmd`. The command is removed if its callback
has failed, or if its removal or its cancellation was asked for in the meantime. -/
def wlanSerializationActivateCmd (activated : Bool) (node : ℕ) (s : SerPdev V) :
    SerPdev V × List (SerFrame V) :=
  let s := s.setInUse true node fun u =>
    { u with markedForActivation := false, isActive := true }
  (s, match s.activeList.find? fun e => e.node = node with
    | none => []
    | some e =>
      if !activated || e.cmdInUse.activeMarkedForRemoval then [.dequeue e.cmd]
      else if e.cmdInUse.activeMarkedForCancel then
        [.cancel (CancelReq.ofCmd e.cmd e.cmd.cmdType) true]
      else [])

/-- One step, and the steps that it calls for. `activated` is the result of the callback that
precedes the end of an activation. -/
def runFrame (cfg : SerConfig V) (activated : Bool) (s : SerPdev V) :
    SerFrame V → SerPdev V × List (SerFrame V)
  | .enqueue cmd =>
    let r := wlanSerializationEnqueueCmd cfg cmd s
    (r.2.2, (r.2.1.map SerFrame.activate).toList)
  | .dequeue cmd =>
    match wlanSerRemoveNonScanCmd cmd true s with
    | (.success e, s) => (s.release e.node, [.move (some e.cmd.vdev) e.cmd.isBlocking])
    | (_, s) => (s, [])
  | .cancel req isActive =>
    cancelFrames req isActive
      (cancelLoop req isActive (s.list isActive).length none none s)
  | .cancelResume req isActive cursor removed =>
    let s := cancelClear isActive removed s
    cancelFrames req isActive (if req.vdev.isNone && !req.pdev then (none, s)
      else cancelLoop req isActive cursor.qsize cursor.pnode cursor.pnode s)
  | .activate node => wlanSerializationActivateCmd activated node s
  | .move vdev blockingCmdRemoved =>
    let lookup := if !blockingCmdRemoved && s.blockingCmdWaiting = 0 then vdev else none
    let r := moveSection cfg lookup s
    (r.2, moveFrames lookup.isSome r.1)
  | .moveResume vdevQueueLookup =>
    if vdevQueueLookup || s.blockingCmdActive then (s, [])
    else
      let r := moveSection cfg none s
      (r.2, moveFrames false r.1)

/-- The non-scan part of `wlan_serialization_cancel_type`. -/
inductive SerCancelType where
  | nonScanCmd
  | pdevNonScanCmd
  | vdevNonScanCmd
  | vdevNonScanCmdType
  | vdevNonScanNbCmd
deriving DecidableEq, Repr

def wlanSerializationFindAndCancelCmd (cmd : SerCommand V) : SerCancelType → CancelReq V
  | .nonScanCmd => CancelReq.ofCmd cmd .nonscan
  | .pdevNonScanCmd => ⟨none, true, none, .nonscan, false⟩
  | .vdevNonScanCmd => ⟨none, false, some cmd.vdev, .nonscan, false⟩
  | .vdevNonScanCmdType => ⟨none, false, some cmd.vdev, cmd.cmdType, false⟩
  | .vdevNonScanNbCmd => ⟨none, false, some cmd.vdev, .nonscan, true⟩

/-- Requests, removals of active commands, and cancellations in the queues that are named. -/
inductive SerOp (V : Type) where
  | request (cmd : SerCommand V)
  | remove (cmd : SerCommand V)
  | cancel (reqType : SerCancelType) (cmd : SerCommand V) (activeQueue pendingQueue : Bool)
deriving DecidableEq, Repr

def SerOp.frames : SerOp V → List (SerFrame V)
  | .request cmd => [.enqueue cmd]
  | .remove cmd => [.dequeue cmd]
  | .cancel reqType cmd activeQueue pendingQueue =>
    (if activeQueue then [.cancel (wlanSerializationFindAndCancelCmd cmd reqType) true]
      else []) ++
      if pendingQueue then [.cancel (wlanSerializationFindAndCancelCmd cmd reqType) false] else []

/-! ## Threads -/

/-- The queues of a pdev and the threads that work on them. -/
structure SerSystem (V : Type) where
  pdev : SerPdev V
  threads : List (List (SerFrame V))

/-- A thread starts an operation, or takes its next step. -/
inductive SerStep (V : Type) where
  | start (op : SerOp V)
  | run (thread : ℕ) (activated : Bool)
deriving DecidableEq, Repr

def SerSystem.create (cfg : SerConfig V) : SerSystem V := ⟨SerPdev.create cfg, []⟩

def SerSystem.step (cfg : SerConfig V) (s : SerSystem V) : SerStep V → SerSystem V
  | .start op => { s with threads := s.threads ++ [op.frames] }
  | .run thread activated =>
    match s.threads[thread]? with
    | some (f :: rest) =>
      let r := runFrame cfg activated s.pdev f
      ⟨r.1, s.threads.set thread (r.2 ++ rest)⟩
    | _ => s

/-- The same with one thread, that starts an operation when the one before it is done. -/
structure SerTask (V : Type) where
  pdev : SerPdev V
  todo : List (SerFrame V)

inductive SerTaskStep (V : Type) where
  | start (op : SerOp V)
  | run (activated : Bool)
deriving DecidableEq, Repr

def SerTask.create (cfg : SerConfig V) : SerTask V := ⟨SerPdev.create cfg, []⟩

def SerTask.step (cfg : SerConfig V) (s : SerTask V) : SerTaskStep V → SerTask V
  | .start op => if s.todo = [] then { s with todo := op.frames } else s
  | .run activated =>
    match s.todo with
    | [] => s
    | f :: rest =>
      let r := runFrame cfg activated s.pdev f
      ⟨r.1, r.2 ++ rest⟩

end QcomModules.Wlan
