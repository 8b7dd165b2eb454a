import QcomModules.Library.Insertion

/-! A KGSL timeline: its fences and events, and the locked sections of the calls on it. -/

namespace QcomModules.Kgsl

open Library

/-! ## The timeline -/

def timelineENoEnt : ℤ := -2

/-- How far a fence is: not allocated, before the locked section of
`kgsl_timeline_fence_alloc`, returned to its users, and behind the locked section of its
release. -/
inductive FenceStage where
  | free
  | allocating
  | handedOut
  | released
deriving Repr, DecidableEq

/-- `struct kgsl_timeline_fence` with the state of its `dma_fence`; `signals` counts the calls
of `dma_fence_signal_locked`. -/
structure TimelineFence where
  stage : FenceStage
  seqno : ℕ
  refcount : ℕ
  signals : ℕ
  error : ℤ
deriving Repr, DecidableEq

/-- Who holds `timeline->lock`, and what its call does next: take `fence_lock` to add a fence
or to move the signaled ones, or signal the fences of its private list. -/
inductive LockHolder where
  | adding (id : ℕ)
  | moving
  | signaling (temp : List ℕ)
  | destroying (temp : List ℕ)
deriving Repr, DecidableEq

/-- How far `kgsl_ioctl_timeline_destroy` is: the id removed, the fences taken off the list,
the lock taken to signal them, and done. -/
inductive DestroyPhase where
  | notCalled
  | removed
  | flushed (temp : List ℕ)
  | signaling
  | done
deriving Repr, DecidableEq

/-- The timeline. Fences are named by number, events by their seqno. `callers` counts the
calls that hold a reference from `kgsl_timeline_by_id`, and `pending` has the seqnos of the
timeline objects that have still to signal it. -/
structure KgslTimeline where
  value : ℕ
  fences : List ℕ
  events : List ℕ
  fence : ℕ → TimelineFence
  next : ℕ
  lock : Option LockHolder
  inIdr : Bool
  callers : ℕ
  destroy : DestroyPhase
  pending : List ℕ

namespace KgslTimeline

def alloc (initial : ℕ) : KgslTimeline where
  value := initial
  fences := []
  events := []
  fence := fun _ => { stage := .free, seqno := 0, refcount := 0, signals := 0, error := 0 }
  next := 0
  lock := none
  inIdr := true
  callers := 0
  destroy := .notCalled
  pending := []

/-! ## Sections -/

/-- `timeline_fence_signaled`, with 64-bit seqnos compared as unsigned integers. -/
def fenceSignaled (s : KgslTimeline) (id : ℕ) : Bool := decide ((s.fence id).seqno ≤ s.value)

def setFence (s : KgslTimeline) (id : ℕ) (f : TimelineFence) : KgslTimeline :=
  { s with fence := Function.update s.fence id f }

def signalLocked (s : KgslTimeline) (id : ℕ) : KgslTimeline :=
  s.setFence id { s.fence id with signals := (s.fence id).signals + 1 }

def fenceGet (s : KgslTimeline) (id : ℕ) : KgslTimeline :=
  s.setFence id { s.fence id with refcount := (s.fence id).refcount + 1 }

def fencePut (s : KgslTimeline) (id : ℕ) : KgslTimeline :=
  s.setFence id { s.fence id with refcount := (s.fence id).refcount - 1 }

def lockTemp : Option LockHolder → List ℕ
  | some (.signaling temp) => temp
  | some (.destroying temp) => temp
  | _ => []

def flushTemp : DestroyPhase → List ℕ
  | .flushed temp => temp
  | _ => []

/-- The fences on a private list, which hold one reference for the signaling call. -/
def taken (s : KgslTimeline) : List ℕ := lockTemp s.lock ++ flushTemp s.destroy

/-- Someone other than a signaling call has a reference to the fence. -/
def Held (s : KgslTimeline) (id : ℕ) : Prop :=
  (s.fence id).stage = .handedOut ∧ (if id ∈ s.taken then 1 else 0) < (s.fence id).refcount

instance (s : KgslTimeline) (id : ℕ) : Decidable (s.Held id) :=
  inferInstanceAs (Decidable (_ ∧ _))

/-- The first section of `kgsl_timeline_fence_alloc`: the fence is set up. -/
def fenceAlloc (s : KgslTimeline) (seqno : ℕ) : KgslTimeline :=
  { s.setFence s.next
      { stage := .allocating, seqno := seqno, refcount := 1, signals := 0, error := 0 } with
    next := s.next + 1 }

/-- Its section on `timeline->lock`, up to `kgsl_timeline_add_fence`: a fence whose seqno is
reached is signaled, by `dma_fence_is_signaled_locked`, and not added. -/
def fenceAllocLocked (s : KgslTimeline) (id : ℕ) : KgslTimeline :=
  if s.fenceSignaled id then
    let s' := s.signalLocked id
    s'.setFence id { s'.fence id with stage := .handedOut }
  else { s with lock := some (.adding id) }

/-- `kgsl_timeline_add_fence`, at the end of which the fence is returned. -/
def addFence (s : KgslTimeline) (id : ℕ) : KgslTimeline :=
  { s.setFence id { s.fence id with stage := .handedOut } with
    fences := insertBefore
      (fun entry => decide ((s.fence id).seqno < (s.fence entry).seqno)) id s.fences
    lock := none }

/-- `kgsl_timeline_add_signal`: the walk to the place of the event goes backwards. -/
def addSignal (s : KgslTimeline) (seqno : ℕ) : KgslTimeline :=
  if seqno ≤ s.value then s
  else
    { s with
      events :=
        (insertBefore (fun event => decide (event ≤ seqno)) seqno s.events.reverse).reverse }

/-- `kgsl_timeline_signal` up to its section on `fence_lock`. -/
def signal (s : KgslTimeline) (seqno : ℕ) : KgslTimeline :=
  if seqno < s.value then s
  else
    { s with
      value := seqno
      events := s.events.dropWhile fun event => decide (event ≤ seqno)
      lock := some .moving }

/-- The fences which `kgsl_timeline_signal` moves: their seqno is reached, and they can
still be referenced. -/
def Moves (s : KgslTimeline) (id : ℕ) : Bool :=
  s.fenceSignaled id && decide (0 < (s.fence id).refcount)

def getAll (s : KgslTimeline) (ids : List ℕ) : KgslTimeline := ids.foldl fenceGet s

/-- The section of `kgsl_timeline_signal` on `fence_lock`. -/
def moveFences (s : KgslTimeline) : KgslTimeline :=
  let temp := s.fences.filter s.Moves
  { s.getAll temp with
    fences := s.fences.filter fun id => !s.Moves id
    lock := some (.signaling temp.reverse) }

/-- The section of `timeline_fence_release` on `fence_lock`. -/
def release (s : KgslTimeline) (id : ℕ) : KgslTimeline :=
  { s.setFence id { s.fence id with stage := .released } with fences := s.fences.erase id }

/-- The section of `kgsl_ioctl_timeline_destroy` on `fence_lock`. -/
def destroyFlush (s : KgslTimeline) : KgslTimeline :=
  let temp := s.fences.filter fun id => decide (0 < (s.fence id).refcount)
  { s.getAll temp with fences := [], destroy := .flushed temp }

/-- `dma_fence_set_error`, `dma_fence_signal_locked` and `dma_fence_put` on one fence. -/
def destroyFence (s : KgslTimeline) (id : ℕ) : KgslTimeline :=
  let s' := s.setFence id { s.fence id with error := timelineENoEnt }
  (s'.signalLocked id).fencePut id

/-! ## Steps -/

end KgslTimeline

inductive TimelineOp where
  | byId
  | put
  | fenceAlloc (seqno : ℕ)
  | fenceAllocLocked (id : ℕ)
  | addFence
  | addTimeline (seqno : ℕ)
  | addSignal (seqno : ℕ)
  | signal (seqno : ℕ)
  | retire (seqno : ℕ)
  | moveFences
  | signalNext
  | fenceGet (id : ℕ)
  | fencePut (id : ℕ)
  | release (id : ℕ)
  | destroyRemove
  | destroyFlush
  | destroyLock
deriving Repr, DecidableEq

namespace KgslTimeline

/-- One step; where it cannot happen nothing does. Sections on `timeline->lock` wait for the
lock, calls of the interface need a timeline found by its id, and a fence is released once it
has no references. -/
def step (s : KgslTimeline) : TimelineOp → KgslTimeline
  | .byId => if s.inIdr then { s with callers := s.callers + 1 } else s
  | .put => { s with callers := s.callers - 1 }
  | .fenceAlloc seqno => if 0 < s.callers then s.fenceAlloc seqno else s
  | .fenceAllocLocked id =>
    if s.lock = none ∧ (s.fence id).stage = .allocating then s.fenceAllocLocked id else s
  | .addFence =>
    match s.lock with
    | some (.adding id) => s.addFence id
    | _ => s
  | .addTimeline seqno =>
    if 0 < s.callers then { s with pending := seqno :: s.pending } else s
  | .addSignal seqno => if s.lock = none then s.addSignal seqno else s
  | .signal seqno => if s.lock = none ∧ 0 < s.callers then s.signal seqno else s
  | .retire seqno =>
    if s.lock = none ∧ seqno ∈ s.pending then
      { s with pending := s.pending.erase seqno }.signal seqno
    else s
  | .moveFences => if s.lock = some .moving then s.moveFences else s
  | .signalNext =>
    match s.lock with
    | some (.signaling []) => { s with lock := none }
    | some (.signaling (id :: temp)) =>
      { (s.signalLocked id).fencePut id with lock := some (.signaling temp) }
    | some (.destroying []) => { s with lock := none, destroy := .done }
    | some (.destroying (id :: temp)) => { s.destroyFence id with lock := some (.destroying temp) }
    | _ => s
  | .fenceGet id => if s.Held id then s.fenceGet id else s
  | .fencePut id => if s.Held id then s.fencePut id else s
  | .release id =>
    if (s.fence id).stage = .handedOut ∧ (s.fence id).refcount = 0 then s.release id else s
  | .destroyRemove => if s.inIdr then { s with inIdr := false, destroy := .removed } else s
  | .destroyFlush => if s.destroy = .removed then s.destroyFlush else s
  | .destroyLock =>
    match s.lock, s.destroy with
    | none, .flushed temp => { s with lock := some (.destroying temp), destroy := .signaling }
    | _, _ => s

end KgslTimeline

end QcomModules.Kgsl
