import QcomModules.RxReo.Sections
import QcomModules.RxReo.WaitCount

/-! Management rx reorder: the entry of a frame as one call, from the update of the host snapshot to
the release of the entries that need not wait. -/

namespace QcomModules.RxReo

structure ReoContext where
  hostSnapshot : HostSnapshots
  lists : ReoState

def ReoContext.init : ReoContext where
  hostSnapshot := fun _ => { valid := false, mgmtPktCtr := 0, globalTimestamp := 0 }
  lists := .init

def IEEE80211_FC0_TYPE_MGT : BitVec 8 := 0

/-- A frame, with what the call finds: the links, whether the entry can be prepared, the time, and
the entries whose delivery is left to another context. -/
structure AlgoInput where
  frame : IncomingFrame
  views : Fin MAX_MLO_LINKS → LinkView
  prepares : Bool
  now : BitVec 64
  defer : ReoListEntry → Bool

def AlgoInput.linkId (input : AlgoInput) : Fin MAX_MLO_LINKS :=
  input.frame.reoParams.linkId

/-- The entries at the front of the egress list are released, `fuel` of them at most. -/
def ReoState.releaseEntries (defer : ReoListEntry → Bool) : ℕ → ReoState → Option ReoState
  | 0, s => some s
  | fuel + 1, s =>
    match s.release defer with
    | none => none
    | some s' =>
      if s'.egress.length < s.egress.length then s'.releaseEntries defer fuel else some s'

def ReoState.moveAndRelease (config : ReoConfig) (defer : ReoListEntry → Bool) (s : ReoState) :
    Option ReoState :=
  let s := s.moveIngress config
  match s.phase with
  | .moving ready =>
    let s := s.moveEgress config ready
    if checkSanityLists s.egress s.ingress then s.releaseEntries defer s.egress.length
    else some s
  | _ => s.releaseEntries defer s.egress.length

def ReoState.updateLists (config : ReoConfig) (input : AlgoInput) (s : ReoState)
    (desc : FrameDescriptor) : Option ReoState :=
  if desc.needsEntry && !input.prepares then some s
  else do
    let s ← s.enterEgress config desc
    match s.phase with
    | .entering desc new => do
      let s ← s.enterIngress input.now desc new
      if checkSanityList s.ingress then s.moveAndRelease config input.defer else pure s
    | _ => pure s

/-- The host snapshot of the frame's link is updated, the frame's wait counts are calculated and the
lists updated; an exit on the way leaves what has been done until then. -/
def ReoContext.algoEntry (config : ReoConfig) (ctx : ReoContext) (input : AlgoInput) :
    Option ReoContext :=
  let desc := input.frame.desc
  let link := input.linkId
  if desc.frameType ≠ IEEE80211_FC0_TYPE_MGT then some ctx
  else if !desc.reoParams.valid then some ctx
  else if !(input.views link).privObject then some ctx
  else
    let (status, hostSs, desc) :=
      updateHostSnapshot config.pktCtrDeltaThresh (ctx.hostSnapshot link) desc
    let ctx := { ctx with hostSnapshot := Function.update ctx.hostSnapshot link hostSs }
    if status ≠ .success then some ctx
    else if desc.drop then some ctx
    else do
      let c ← calculateWaitCount input.views ctx.hostSnapshot desc
      let ctx := { ctx with hostSnapshot := c.hostSs }
      if c.status ≠ .success then some ctx
      else do
        let lists ← ctx.lists.updateLists config input c.desc
        pure { ctx with lists := lists }

/-- A call into the reorder module. -/
inductive ReoCall where
  | algoEntry (input : AlgoInput)
  /-- the handler of the ageout timer -/
  | ageout (now : BitVec 64) (defer : ReoListEntry → Bool)
  | releaseFrames (defer : ReoListEntry → Bool)

def ReoState.ageoutTimerHandler (config : ReoConfig) (now : BitVec 64)
    (defer : ReoListEntry → Bool) (s : ReoState) : Option ReoState :=
  let aged := { s with ingress := ageoutEntries config now s.ingress }
  if s.ingress.any (·.timedOut config now) then aged.moveAndRelease config defer else some aged

def ReoContext.call (config : ReoConfig) (ctx : ReoContext) : ReoCall → Option ReoContext
  | .algoEntry input => ctx.algoEntry config input
  | .ageout now defer =>
    (ctx.lists.ageoutTimerHandler config now defer).map fun lists => { ctx with lists := lists }
  | .releaseFrames defer =>
    (ctx.lists.releaseEntries defer ctx.lists.egress.length).map fun lists =>
      { ctx with lists := lists }

end QcomModules.RxReo
