import QcomModules.Library.Runs

/-! KGSL sync objects: the steps of the functions that add sync points, of the callbacks that
expire them and of the function that destroys the object. -/

namespace QcomModules.Kgsl

open Library

/-! ## The object -/

inductive SyncpointType where
  | timestamp
  | fence
  | timeline
deriving Repr, DecidableEq

/-- How often a reference was taken and dropped for a sync point. -/
structure RefLog where
  gets : ℕ
  puts : ℕ
deriving Repr, DecidableEq

def RefLog.zero : RefLog := ⟨0, 0⟩

def RefLog.get (r : RefLog) : RefLog := { r with gets := r.gets + 1 }

def RefLog.put (r : RefLog) : RefLog := { r with puts := r.puts + 1 }

/-- Where the callback of a sync point is: not registered, in the list of its event group or
fence, queued for the event worker, at a step of `drawobj_sync_expire` (`expire`, `check`,
`sched`), behind it (`won`, `lost`), queued as timeline work, before its last
`kgsl_drawobj_put`, taken off its list, or finished. -/
inductive SyncCallback where
  | idle
  | listed
  | queued
  | expire
  | check
  | sched
  | won
  | lost
  | work
  | putObj
  | removed
  | done
deriving Repr, DecidableEq

/-- The callback of a fence runs with the lock of the fence held. -/
def SyncCallback.locked : SyncCallback → Bool
  | .expire | .check | .sched | .won | .lost => true
  | _ => false

/-- No callback runs or will run. -/
def SyncCallback.finished : SyncCallback → Bool
  | .idle | .removed | .done => true
  | _ => false

/-- `struct kgsl_drawobj_sync_event` with its bit of `syncobj->pending` and logs of the
references: the context of a timestamp, the two of a timeline's fence (from its creation, and
the one handed over to the callback) and the one of the object. -/
structure SyncEvent where
  type : SyncpointType
  pending : Bool
  cb : SyncCallback
  context : RefLog
  created : RefLog
  fence : RefLog
  obj : RefLog
deriving Repr, DecidableEq

/-- Where the function is that adds the last sync point. -/
inductive SyncAdder where
  | idle
  | setBit
  | register
  | added
  | clearBit
  | putFence
  | putCreated
  | putObj
  | putContext
deriving Repr, DecidableEq

/-- The steps of `syncobj_destroy` for a sync point whose bit it cleared. -/
inductive SyncCancel where
  | cancelEvent
  | putContext
  | cancelFence
  | removeCallback
  | putFence
  | putObj
deriving Repr, DecidableEq

/-- Where `kgsl_drawobj_destroy` is. -/
inductive SyncDestroyer where
  | notStarted
  | clear (i : ℕ)
  | within (i : ℕ) (p : SyncCancel)
  | checkPending
  | sched
  | putInitial
  | done
deriving Repr, DecidableEq

/-- The steps that matter for the dispatcher: a bit cleared by a callback, by the function that
set it, or by the destroy, and a call of `drawctxt_sched`. -/
inductive SyncMark where
  | expired (i : ℕ)
  | retracted (i : ℕ)
  | destroyed (i : ℕ)
  | sched
deriving Repr, DecidableEq

/-- `struct kgsl_drawobj_sync` with the functions at work on it, a count of the calls of
`kgsl_drawobj_destroy_object` and a trace, newest first. -/
structure KgslSyncobj where
  synclist : List SyncEvent
  refcount : ℕ
  timerArmed : Bool
  timerHolds : Bool
  adder : SyncAdder
  destroyer : SyncDestroyer
  freed : ℕ
  trace : List SyncMark
deriving Repr, DecidableEq

namespace KgslSyncobj

def create : KgslSyncobj where
  synclist := []
  refcount := 1
  timerArmed := false
  timerHolds := false
  adder := .idle
  destroyer := .notStarted
  freed := 0
  trace := []

def eventsPending (s : KgslSyncobj) : Bool := s.synclist.any SyncEvent.pending

def set (s : KgslSyncobj) (i : ℕ) (e : SyncEvent) : KgslSyncobj :=
  { s with synclist := s.synclist.set i e }

/-- `kgsl_drawobj_put`. -/
def put (s : KgslSyncobj) : KgslSyncobj :=
  { s with
    refcount := s.refcount - 1
    freed := if s.refcount = 1 then s.freed + 1 else s.freed }

/-! ## Adding a sync point -/

/-- What registering a callback can come to: it is listed, its timestamp or fence is through
already, or it fails. -/
inductive Registration where
  | listed
  | signaled
  | failed
deriving Repr, DecidableEq

/-- A new event; its fence comes with a reference, and its context was found with one. -/
def newEvent (type : SyncpointType) : SyncEvent where
  type := type
  pending := false
  cb := .idle
  context := if type = .timestamp then RefLog.zero.get else RefLog.zero
  created := if type = .timeline then RefLog.zero.get else RefLog.zero
  fence := RefLog.zero
  obj := RefLog.zero.get

/-- The beginning of `drawobj_add_sync_timeline`, `drawobj_add_sync_fence` and
`drawobj_add_sync_timestamp`, where the object is referenced and a place in the list taken. -/
def addSync (s : KgslSyncobj) (type : SyncpointType) : KgslSyncobj :=
  if s.adder = .idle ∧ s.destroyer = .notStarted then
    { s with
      synclist := s.synclist ++ [newEvent type]
      refcount := s.refcount + 1
      adder := .setBit }
  else s

/-- The callback is registered, with a reference of its own on a timeline's fence. -/
def register (s : KgslSyncobj) (i : ℕ) (e : SyncEvent) (result : Registration) : KgslSyncobj :=
  match e.type with
  | .timestamp =>
    match result with
    | .listed => { s.set i { e with cb := .listed } with adder := .idle }
    | .signaled => { s.set i { e with cb := .queued } with adder := .idle }
    | .failed => { s with adder := .clearBit }
  | .fence =>
    match result with
    | .listed => { s.set i { e with cb := .listed } with adder := .idle }
    | .signaled | .failed => { s with adder := .clearBit }
  | .timeline =>
    match result with
    | .listed => { s.set i { e with cb := .listed, fence := e.fence.get } with adder := .added }
    | .signaled | .failed => { s.set i { e with fence := e.fence.get } with adder := .clearBit }

/-- The next step of the function that adds the sync point `i`. A timeline's fence cannot fail
to take a callback other than by being signaled. -/
def addStep (s : KgslSyncobj) (i : ℕ) (e : SyncEvent) (result : Registration) : KgslSyncobj :=
  match s.adder with
  | .idle => s
  | .setBit => { s.set i { e with pending := true } with adder := .register }
  | .register => s.register i e result
  | .added => { s.set i { e with created := e.created.put } with adder := .idle }
  | .clearBit =>
    { s.set i { e with pending := false } with
      adder := if e.type = .timeline then .putFence else .putObj
      trace := .retracted i :: s.trace }
  | .putFence => { s.set i { e with fence := e.fence.put } with adder := .putCreated }
  | .putCreated => { s.set i { e with created := e.created.put } with adder := .putObj }
  | .putObj =>
    { (s.set i { e with obj := e.obj.put }).put with
      adder := if e.type = .timestamp then .putContext else .idle }
  | .putContext => { s.set i { e with context := e.context.put } with adder := .idle }

/-! ## Callbacks -/

/-- The event of a timestamp is signaled by its group, or the fence is signaled and calls the
callback. -/
def signal (s : KgslSyncobj) (i : ℕ) (e : SyncEvent) : KgslSyncobj :=
  if e.cb = .listed then
    s.set i { e with cb := if e.type = .timestamp then .queued else .expire }
  else s

/-- The next step of `drawobj_sync_func`, `drawobj_sync_fence_func` or
`drawobj_sync_timeline_fence_callback` with its work. -/
def callbackStep (s : KgslSyncobj) (i : ℕ) (e : SyncEvent) : KgslSyncobj :=
  match e.cb with
  | .idle | .listed | .removed | .done => s
  | .queued => s.set i { e with cb := .expire }
  | .expire =>
    if e.pending then
      { s.set i { e with pending := false, cb := .check } with trace := .expired i :: s.trace }
    else s.set i { e with cb := .lost }
  | .check => s.set i { e with cb := if s.eventsPending then .won else .sched }
  | .sched =>
    { s.set i { e with cb := .won } with timerArmed := false, trace := .sched :: s.trace }
  | .won =>
    match e.type with
    | .timestamp => s.set i { e with cb := .putObj, context := e.context.put }
    | .fence => (s.set i { e with cb := .done, obj := e.obj.put }).put
    | .timeline => s.set i { e with cb := .work }
  | .lost => s.set i { e with cb := if e.type = .timestamp then .putObj else .done }
  | .work => s.set i { e with cb := .putObj, fence := e.fence.put }
  | .putObj => (s.set i { e with cb := .done, obj := e.obj.put }).put

/-! ## The timer -/

/-- The dispatcher arms the timer of an object that waits. -/
def timerArm (s : KgslSyncobj) : KgslSyncobj :=
  if s.destroyer = .notStarted then { s with timerArmed := true } else s

/-- `syncobj_timer` up to the reference it takes. -/
def timerFire (s : KgslSyncobj) : KgslSyncobj :=
  if s.timerArmed ∧ ¬ s.timerHolds then
    if s.refcount = 0 then { s with timerArmed := false }
    else { s with timerArmed := false, timerHolds := true, refcount := s.refcount + 1 }
  else s

def timerPut (s : KgslSyncobj) : KgslSyncobj :=
  if s.timerHolds then { s.put with timerHolds := false } else s

/-! ## Destroying the object -/

def cancelOf : SyncpointType → SyncCancel
  | .timestamp => .cancelEvent
  | .fence => .cancelFence
  | .timeline => .removeCallback

/-- The steps of `syncobj_destroy` for the sync point `i`, whose bit it cleared. Taking a
callback off a fence waits for the lock of the fence. -/
def cancelStep (s : KgslSyncobj) (i : ℕ) (e : SyncEvent) : SyncCancel → KgslSyncobj
  | .cancelEvent =>
    { s.set i { e with cb := if e.cb = .listed then .queued else e.cb } with
      destroyer := .within i .putContext }
  | .putContext =>
    { s.set i { e with context := e.context.put } with destroyer := .clear (i + 1) }
  | .cancelFence =>
    if e.cb.locked then s
    else
      { s.set i { e with cb := if e.cb = .listed then .removed else e.cb } with
        destroyer := .within i .putObj }
  | .removeCallback =>
    if e.cb.locked then s
    else
      { s.set i { e with cb := if e.cb = .listed then .removed else e.cb } with
        destroyer := .within i .putFence }
  | .putFence =>
    { s.set i { e with fence := e.fence.put } with destroyer := .within i .putObj }
  | .putObj =>
    { (s.set i { e with obj := e.obj.put }).put with destroyer := .clear (i + 1) }

/-- The next step of `kgsl_drawobj_destroy`. It begins when no sync point is being added, and
waits for the timer. -/
def destroyStep (s : KgslSyncobj) : KgslSyncobj :=
  match s.destroyer with
  | .notStarted =>
    if s.adder = .idle ∧ ¬ s.timerHolds then
      { s with timerArmed := false, destroyer := .clear 0 }
    else s
  | .clear i =>
    match s.synclist[i]? with
    | some e =>
      if e.pending then
        { s.set i { e with pending := false } with
          destroyer := .within i (cancelOf e.type)
          trace := .destroyed i :: s.trace }
      else { s with destroyer := .clear (i + 1) }
    | none => { s with destroyer := .checkPending }
  | .within i p =>
    match s.synclist[i]? with
    | some e => s.cancelStep i e p
    | none => s
  | .checkPending => { s with destroyer := if s.eventsPending then .sched else .putInitial }
  | .sched => { s with destroyer := .putInitial, trace := .sched :: s.trace }
  | .putInitial => { s.put with destroyer := .done }
  | .done => s

/-! ## Runs -/

inductive Op where
  | addSync (type : SyncpointType)
  | addStep (result : Registration)
  | signal (i : ℕ)
  | callback (i : ℕ)
  | timerArm
  | timerFire
  | timerPut
  | destroy
deriving Repr, DecidableEq

def Op.adds : Op → Bool
  | .addSync _ | .addStep _ => true
  | _ => false

def onEvent (s : KgslSyncobj) (i : ℕ) (act : SyncEvent → KgslSyncobj) : KgslSyncobj :=
  match s.synclist[i]? with
  | some e => act e
  | none => s

def step (s : KgslSyncobj) : Op → KgslSyncobj
  | .addSync type => s.addSync type
  | .addStep result =>
    s.onEvent (s.synclist.length - 1) fun e => s.addStep (s.synclist.length - 1) e result
  | .signal i => s.onEvent i (s.signal i)
  | .callback i => s.onEvent i (s.callbackStep i)
  | .timerArm => s.timerArm
  | .timerFire => s.timerFire
  | .timerPut => s.timerPut
  | .destroy => s.destroyStep

end KgslSyncobj

end QcomModules.Kgsl
