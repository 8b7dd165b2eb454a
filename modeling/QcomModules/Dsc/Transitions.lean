import Mathlib
import QcomModules.Library.Runs

/-! The driver, psoc and vdev transitions and operations of the driver state management. Every
function runs under the lock of the driver; a call that waits does so between two of them. -/

namespace QcomModules.Dsc

open Library

variable {P V C D : Type*}

/-! ## The tree -/

inductive DscNode (P V : Type*) where
  | driver
  | psoc (psoc : P)
  | vdev (vdev : V)
deriving DecidableEq, Repr

/-- The psocs of the driver and the vdevs of each psoc, each in its list once. -/
structure DscTree (P V : Type*) where
  psocs : List P
  vdevs : P → List V
  psocOf : V → P
  psocs_nodup : psocs.Nodup
  vdevs_nodup : ∀ psoc, (vdevs psoc).Nodup
  mem_psocs : ∀ psoc, psoc ∈ psocs
  mem_vdevs : ∀ psoc vdev, vdev ∈ vdevs psoc ↔ psocOf vdev = psoc

/-- `tree.Above n m`: `m` is down the tree from `n`. -/
def DscTree.Above (tree : DscTree P V) : DscNode P V → DscNode P V → Prop
  | .driver, .psoc _ => True
  | .driver, .vdev _ => True
  | .psoc psoc, .vdev vdev => tree.psocOf vdev = psoc
  | _, _ => False

/-- The order in which a wait for operations visits the tree below a node. -/
def DscTree.waitOrder (tree : DscTree P V) : DscNode P V → List (DscNode P V)
  | .driver => .driver :: tree.psocs.flatMap fun psoc =>
    .psoc psoc :: (tree.vdevs psoc).map .vdev
  | .psoc psoc => .psoc psoc :: (tree.vdevs psoc).map .vdev
  | .vdev vdev => [.vdev vdev]

/-! ## Containers -/

inductive QdfStatus where
  | success
  | nomem
  | inval
  | again
  | busy
deriving DecidableEq, Repr

/-- A pending transition, on the stack of the call that waits for it. -/
structure DscTran (C D : Type*) where
  abort : Bool
  desc : D
  call : C
deriving DecidableEq, Repr

structure DscTrans (C D : Type*) where
  activeDesc : Option D
  queue : List (DscTran C D)
deriving DecidableEq, Repr

structure DscOps where
  count : ℕ
  event : Bool
deriving DecidableEq, Repr

namespace DscTrans

def active (trans : DscTrans C D) : Bool := trans.activeDesc.isSome

def queued (trans : DscTrans C D) : Bool := !trans.queue.isEmpty

def activeOrQueued (trans : DscTrans C D) : Bool := trans.active || trans.queued

end DscTrans

/-! ## Callers -/

/-- A wait for operations: the nodes still to visit, and the node whose event it waits for. -/
inductive OpsWait (P V : Type*) where
  | notCalled
  | sampling (todo : List (DscNode P V))
  | waiting (node : DscNode P V) (todo : List (DscNode P V))
  | returned
deriving DecidableEq, Repr

/-- What a caller is doing. Each transition asked for is a caller of its own, and so is each wait
for operations other than the one that belongs to a transition. -/
inductive DscCall (P V D : Type*) where
  | idle
  | waiting (node : DscNode P V) (desc : D)
  | woken (node : DscNode P V) (desc : D) (abort : Bool)
  | holding (node : DscNode P V) (desc : D) (wait : OpsWait P V)
  | polling (wait : OpsWait P V)
deriving DecidableEq, Repr

/-- Ghost record of the waits. -/
inductive DscEvent (P V C : Type*) where
  | queued (node : DscNode P V) (call : C)
  | started (node : DscNode P V) (call : C)
deriving DecidableEq, Repr

/-- The memory of the driver, its callers, and as ghosts whether an assertion has failed, the
operations in flight and the record of the waits. -/
structure DscState (P V C D : Type*) where
  trans : DscNode P V → DscTrans C D
  ops : DscNode P V → DscOps
  calls : C → DscCall P V D
  panicked : Bool
  inFlight : List (DscNode P V)
  log : List (DscEvent P V C)

def DscState.create : DscState P V C D where
  trans := fun _ => ⟨none, []⟩
  ops := fun _ => ⟨0, false⟩
  calls := fun _ => .idle
  panicked := false
  inFlight := []
  log := []

/-- Whether the platform recovers and whether the driver is being unloaded. -/
structure QdfPlatform where
  isRecovering : Bool
  isDriverUnloading : Bool
deriving DecidableEq, Repr

namespace DscState

variable [DecidableEq P] [DecidableEq V] [DecidableEq C]

def dscAssert (s : DscState P V C D) (cond : Bool) : DscState P V C D :=
  { s with panicked := s.panicked || !cond }

def setTrans (s : DscState P V C D) (node : DscNode P V) (trans : DscTrans C D) :
    DscState P V C D :=
  { s with trans := Function.update s.trans node trans }

def setOps (s : DscState P V C D) (node : DscNode P V) (ops : DscOps) : DscState P V C D :=
  { s with ops := Function.update s.ops node ops }

def setCall (s : DscState P V C D) (c : C) (call : DscCall P V D) : DscState P V C D :=
  { s with calls := Function.update s.calls c call }

/-! ## Transition containers -/

def transStart (s : DscState P V C D) (node : DscNode P V) (desc : D) : DscState P V C D :=
  (s.dscAssert !(s.trans node).active).setTrans node { s.trans node with activeDesc := some desc }

def transStop (s : DscState P V C D) (node : DscNode P V) : DscState P V C D :=
  (s.dscAssert (s.trans node).active).setTrans node { s.trans node with activeDesc := none }

def transQueue (s : DscState P V C D) (node : DscNode P V) (c : C) (desc : D) :
    DscState P V C D :=
  { s.setTrans node { s.trans node with queue := (s.trans node).queue ++ [⟨false, desc, c⟩] } with
    log := s.log ++ [.queued node c] }

def transDequeue (s : DscState P V C D) (node : DscNode P V) :
    Option (DscTran C D) × DscState P V C D :=
  ((s.trans node).queue.head?,
    s.setTrans node { s.trans node with queue := (s.trans node).queue.tail })

/-- The next queued transition starts, and its event wakes the call that waits. -/
def transTrigger (s : DscState P V C D) (node : DscNode P V) : Bool × DscState P V C D :=
  match s.transDequeue node with
  | (none, _) => (false, s)
  | (some tran, s) =>
    let s := (s.transStart node tran.desc).setCall tran.call (.woken node tran.desc tran.abort)
    (true, { s with log := s.log ++ [.started node tran.call] })

/-! ## Which transitions can start -/

variable (tree : DscTree P V)

def psocTransActiveDownTree (s : DscState P V C D) (psoc : P) : Bool :=
  (tree.vdevs psoc).any fun vdev => (s.trans (.vdev vdev)).active

def driverTransActiveDownTree (s : DscState P V C D) : Bool :=
  tree.psocs.any fun psoc =>
    (s.trans (.psoc psoc)).active || s.psocTransActiveDownTree tree psoc

def driverCanTrans (s : DscState P V C D) : Bool :=
  !(s.trans .driver).activeOrQueued && !s.driverTransActiveDownTree tree

def driverCanTrigger (s : DscState P V C D) : Bool :=
  !(s.trans .driver).active && !s.driverTransActiveDownTree tree

def psocCanTrans (s : DscState P V C D) (psoc : P) : QdfStatus :=
  if (s.trans .driver).activeOrQueued then .inval
  else if (s.trans (.psoc psoc)).activeOrQueued || s.psocTransActiveDownTree tree psoc then .again
  else .success

def psocCanTrigger (s : DscState P V C D) (psoc : P) : Bool :=
  !(s.trans .driver).activeOrQueued && !(s.trans (.psoc psoc)).active &&
    !s.psocTransActiveDownTree tree psoc

def vdevCanTrans (platform : QdfPlatform) (s : DscState P V C D) (vdev : V) : QdfStatus :=
  if (s.trans .driver).activeOrQueued then .inval
  else if platform.isRecovering then .inval
  else if (s.trans (.psoc (tree.psocOf vdev))).activeOrQueued then
    if platform.isDriverUnloading then .inval else .busy
  else if (s.trans (.vdev vdev)).activeOrQueued then .busy
  else .success

/-- The check of each level, as the status of its `trans_start` and `op_start`. -/
def canTrans (platform : QdfPlatform) (s : DscState P V C D) : DscNode P V → QdfStatus
  | .driver => if s.driverCanTrans tree then .success else .again
  | .psoc psoc => s.psocCanTrans tree psoc
  | .vdev vdev => vdevCanTrans tree platform s vdev

/-! ## Starts -/

def transStartNolock (platform : QdfPlatform) (s : DscState P V C D) (node : DscNode P V)
    (desc : D) : QdfStatus × DscState P V C D :=
  match canTrans tree platform s node with
  | .success => (.success, s.transStart node desc)
  | status => (status, s)

/-- A caller of `trans_start` holds the transition if it could start. -/
def start (platform : QdfPlatform) (s : DscState P V C D) (c : C) (node : DscNode P V) (desc : D) :
    QdfStatus × DscState P V C D :=
  match transStartNolock tree platform s node desc with
  | (.success, s) => (.success, s.setCall c (.holding node desc .notCalled))
  | (status, s) => (status, s)

/-- A caller of `trans_start_wait` holds the transition, is refused, or waits in the queue. -/
def startWait (platform : QdfPlatform) (s : DscState P V C D) (c : C) (node : DscNode P V)
    (desc : D) : DscState P V C D :=
  match transStartNolock tree platform s node desc with
  | (.success, s) => s.setCall c (.holding node desc .notCalled)
  | (.inval, s) => s
  | (_, s) => (s.transQueue node c desc).setCall c (.waiting node desc)

/-! ## Stops -/

def driverTransTriggerChecked (s : DscState P V C D) : Bool × DscState P V C D :=
  if !(s.trans .driver).queued then (false, s)
  -- handled, but not triggered: more children have to stop first
  else if !s.driverCanTrigger tree then (true, s)
  else s.transTrigger .driver

def psocTransTriggerChecked (s : DscState P V C D) (psoc : P) : Bool × DscState P V C D :=
  if !(s.trans (.psoc psoc)).queued then (false, s)
  else if !s.psocCanTrigger tree psoc then (true, s)
  else s.transTrigger (.psoc psoc)

/-- The fan-out of a psoc: its own queue, or those of its vdevs. -/
def triggerPsocOrVdevs (s : DscState P V C D) (psoc : P) : DscState P V C D :=
  let (triggered, s) := s.transTrigger (.psoc psoc)
  if triggered then s
  else (tree.vdevs psoc).foldl (fun s vdev => (s.transTrigger (.vdev vdev)).2) s

def driverTriggerTrans (s : DscState P V C D) : DscState P V C D :=
  let (triggered, s) := s.transTrigger .driver
  if triggered then s else tree.psocs.foldl (triggerPsocOrVdevs tree) s

def psocTriggerTrans (s : DscState P V C D) (psoc : P) : DscState P V C D :=
  let (handled, s) := s.driverTransTriggerChecked tree
  if handled then s else triggerPsocOrVdevs tree s psoc

def vdevTriggerTrans (s : DscState P V C D) (vdev : V) : DscState P V C D :=
  let (handled, s) := s.driverTransTriggerChecked tree
  if handled then s
  else
    let (handled, s) := s.psocTransTriggerChecked tree (tree.psocOf vdev)
    if handled then s else (s.transTrigger (.vdev vdev)).2

def driverTransStop (s : DscState P V C D) : DscState P V C D :=
  (s.transStop .driver).driverTriggerTrans tree

def psocTransStop (s : DscState P V C D) (psoc : P) : DscState P V C D :=
  let s := if (s.trans (.psoc psoc)).active then s.transStop (.psoc psoc) else s.transStop .driver
  s.psocTriggerTrans tree psoc

def vdevTransStop (s : DscState P V C D) (vdev : V) : DscState P V C D :=
  (s.transStop (.vdev vdev)).vdevTriggerTrans tree vdev

def stop (s : DscState P V C D) : DscNode P V → DscState P V C D
  | .driver => s.driverTransStop tree
  | .psoc psoc => s.psocTransStop tree psoc
  | .vdev vdev => s.vdevTransStop tree vdev

/-! ## Operations -/

/-- An operation of a node. Its record for debugging may find no memory. -/
def opStart (platform : QdfPlatform) (s : DscState P V C D) (node : DscNode P V) (memory : Bool) :
    QdfStatus × DscState P V C D :=
  match canTrans tree platform s node with
  | .success =>
    if memory then
      (.success, { s.setOps node { s.ops node with count := (s.ops node).count + 1 } with
        inFlight := node :: s.inFlight })
    else (.nomem, s)
  | status => (status, s)

def opStop (s : DscState P V C D) (node : DscNode P V) : DscState P V C D :=
  let s := s.dscAssert (decide (0 < (s.ops node).count))
  let count := (s.ops node).count - 1
  { s.setOps node ⟨count, (s.ops node).event || count = 0⟩ with
    inFlight := s.inFlight.erase node }

/-- The step of a wait that samples the next node under the lock. -/
def sample (s : DscState P V C D) : OpsWait P V → DscState P V C D × OpsWait P V
  | .sampling [] => (s, .returned)
  | .sampling (node :: todo) =>
    if 0 < (s.ops node).count then
      (s.setOps node { s.ops node with event := false }, .waiting node todo)
    else (s, .sampling todo)
  | .waiting node todo =>
    if (s.ops node).event then (s, .sampling todo) else (s, .waiting node todo)
  | .notCalled => (s, .notCalled)
  | .returned => (s, .returned)

/-- `dsc_driver_wait_for_ops` asserts that no operation can start while it waits. -/
def waitAssert (s : DscState P V C D) : DscNode P V → OpsWait P V → DscState P V C D
  | .driver, .sampling (.driver :: _) => s.dscAssert !s.driverCanTrans tree
  | _, _ => s

end DscState

/-! ## Runs -/

inductive DscAction (P V C D : Type*) where
  | start (c : C) (node : DscNode P V) (desc : D)
  | startWait (c : C) (node : DscNode P V) (desc : D)
  | tranWait (c : C)
  | stop (c : C)
  | opStart (node : DscNode P V) (memory : Bool)
  | opStop (node : DscNode P V)
  | waitForOps (c : C)
  | poll (c : C) (order : List (DscNode P V))
  | sample (c : C)
deriving DecidableEq, Repr

namespace DscState

variable [DecidableEq P] [DecidableEq V] [DecidableEq C] (tree : DscTree P V)

/-- An idle caller asks for a transition, the holder of one waits for operations and stops it,
and an operation that stops has been started. -/
def Enabled (s : DscState P V C D) : DscAction P V C D → Prop
  | .start c _ _ => s.calls c = .idle
  | .startWait c _ _ => s.calls c = .idle
  | .opStop node => node ∈ s.inFlight
  | .poll c _ => s.calls c = .idle
  | _ => True

instance [DecidableEq D] (s : DscState P V C D) :
    (a : DscAction P V C D) → Decidable (s.Enabled a)
  | .start c _ _ | .startWait c _ _ | .poll c _ => inferInstanceAs (Decidable (s.calls c = .idle))
  | .opStop node => inferInstanceAs (Decidable (node ∈ s.inFlight))
  | .tranWait _ | .stop _ | .opStart _ _ | .waitForOps _ | .sample _ => .isTrue trivial

def perform (s : DscState P V C D) : QdfPlatform × DscAction P V C D → DscState P V C D
  | (platform, .start c node desc) => (start tree platform s c node desc).2
  | (platform, .startWait c node desc) => startWait tree platform s c node desc
  | (_, .tranWait c) =>
    match s.calls c with
    | .woken _ _ true => s.setCall c .idle
    | .woken node desc false => s.setCall c (.holding node desc .notCalled)
    | _ => s
  | (_, .stop c) =>
    match s.calls c with
    | .holding node _ .notCalled => (s.stop tree node).setCall c .idle
    | .holding node _ .returned => (s.stop tree node).setCall c .idle
    | _ => s
  | (platform, .opStart node memory) => (opStart tree platform s node memory).2
  | (_, .opStop node) => s.opStop node
  | (_, .waitForOps c) =>
    match s.calls c with
    | .holding node desc .notCalled =>
      s.setCall c (.holding node desc (.sampling (tree.waitOrder node)))
    | _ => s
  | (_, .poll c order) => s.setCall c (.polling (.sampling order))
  | (_, .sample c) =>
    match s.calls c with
    | .holding node desc wait =>
      let s := s.waitAssert tree node wait
      (s.sample wait).1.setCall c (.holding node desc (s.sample wait).2)
    | .polling .returned => s.setCall c .idle
    | .polling wait => (s.sample wait).1.setCall c (.polling (s.sample wait).2)
    | _ => s

def Reachable (s : DscState P V C D) : Prop :=
  Relation.ReflTransGen (GuardedStep (fun s i => s.Enabled i.2) (perform tree)) .create s

end DscState

end QcomModules.Dsc
