import QcomModules.RxReo.Lists

/-! The reorder lists under any interleaving: frames that enter, ageouts, moves to the egress list
and releases, one step for each part that runs with the lock of a list held. -/

namespace QcomModules.RxReo

/-- Who holds the lock of the ingress list between two parts. -/
inductive Phase where
  | idle
  | entering (desc : FrameDescriptor) (new : Option ReoListEntry)
  | moving (ready : List ReoListEntry)

/-- The lists, with a log of the entries queued to them and one of the entries released. -/
structure ReoState where
  ingress : List ReoListEntry
  egress : List ReoListEntry
  lastReleasedFrame : Option MgmtRxReoParams
  phase : Phase
  allocated : ℕ
  queued : List ℕ
  released : List ReoListEntry

def ReoState.init : ReoState where
  ingress := []
  egress := []
  lastReleasedFrame := none
  phase := .idle
  allocated := 0
  queued := []
  released := []

structure IncomingFrame where
  type : FrameDescriptorType
  frameType : BitVec 8
  reoParams : MgmtRxReoParams
  reoRequired : Bool

def IncomingFrame.desc (frame : IncomingFrame) : FrameDescriptor :=
  .init frame.type frame.frameType frame.reoParams frame.reoRequired

inductive ReoAction where
  /-- the part of a frame's entry that holds the locks of both lists; the wait counts have been
  calculated before -/
  | enterEgress (frame : IncomingFrame) (waitCount : WaitCount) (pktCtrDelta : ℤ)
  /-- the rest of it, with the lock of the ingress list still held -/
  | enterIngress (now : BitVec 64)
  | moveIngress
  | moveEgress
  | ageout (now : BitVec 64)
  | release (defer : ReoListEntry → Bool)

def queuedIds (type : ReoListType) (desc : FrameDescriptor) (new : Option ReoListEntry) : List ℕ :=
  if desc.queuedList = type then new.toList.map ReoListEntry.id else []

def ReoState.prepared (s : ReoState) (desc : FrameDescriptor) : Option ReoListEntry :=
  if desc.needsEntry then some (prepareListEntry s.allocated desc) else none

def ReoState.enterEgress (config : ReoConfig) (s : ReoState) (desc : FrameDescriptor) :
    Option ReoState :=
  (updateEgressList config s.lastReleasedFrame s.egress desc (s.prepared desc)).map fun r =>
    { s with
      egress := r.list
      allocated := s.allocated + 1
      queued := s.queued ++ queuedIds .egress r.desc (s.prepared desc)
      phase :=
        if r.status = .success ∧ checkSanityList r.list = true then
          .entering r.desc (s.prepared desc)
        else .idle }

def ReoState.enterIngress (now : BitVec 64) (s : ReoState) (desc : FrameDescriptor)
    (new : Option ReoListEntry) : Option ReoState :=
  (updateIngressList now s.ingress desc new).map fun r =>
    { s with
      ingress := r.list
      queued := s.queued ++ queuedIds .ingress r.desc new
      phase := .idle }

def ReoState.moveIngress (config : ReoConfig) (s : ReoState) : ReoState :=
  let (ready, rest) := splitIngress config s.ingress
  { s with
    ingress := rest
    phase := if ready.isEmpty then .idle else .moving ready }

def ReoState.moveEgress (config : ReoConfig) (s : ReoState) (ready : List ReoListEntry) :
    ReoState :=
  { s with egress := joinEgress config s.egress ready, phase := .idle }

def ReoState.release (defer : ReoListEntry → Bool) (s : ReoState) : Option ReoState :=
  (releaseFirstEntry defer s.lastReleasedFrame s.egress).map fun
    | .stopped => s
    | .released entry egress lastReleasedFrame =>
      { s with
        egress := egress
        lastReleasedFrame := lastReleasedFrame
        released := s.released ++ [entry] }

/-- A part whose lock is held elsewhere waits; there is no next state where an assertion fails. -/
def ReoState.step (config : ReoConfig) (s : ReoState) : ReoAction → Option ReoState
  | .enterEgress frame waitCount pktCtrDelta =>
    match s.phase with
    | .idle =>
      s.enterEgress config
        { frame.desc with waitCount := waitCount, pktCtrDelta := pktCtrDelta }
    | _ => some s
  | .enterIngress now =>
    match s.phase with
    | .entering desc new => s.enterIngress now desc new
    | _ => some s
  | .moveIngress =>
    match s.phase with
    | .idle => some (s.moveIngress config)
    | _ => some s
  | .moveEgress =>
    match s.phase with
    | .moving ready => some (s.moveEgress config ready)
    | _ => some s
  | .ageout now =>
    match s.phase with
    | .idle => some { s with ingress := ageoutEntries config now s.ingress }
    | _ => some s
  | .release defer => s.release defer

def Phase.ready : Phase → List ReoListEntry
  | .moving ready => ready
  | _ => []

@[simp] theorem Phase.ready_idle : Phase.idle.ready = [] := rfl

@[simp] theorem Phase.ready_entering (desc : FrameDescriptor) (new : Option ReoListEntry) :
    (Phase.entering desc new).ready = [] := rfl

@[simp] theorem Phase.ready_moving (ready : List ReoListEntry) :
    (Phase.moving ready).ready = ready := rfl

def ReoState.entries (s : ReoState) : List ReoListEntry :=
  s.egress ++ s.phase.ready ++ s.ingress

end QcomModules.RxReo
