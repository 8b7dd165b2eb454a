import QcomModules.RxReo.Snapshot

/-! Management rx reorder: the ingress and the egress list, one definition for each part that runs
with the lock of a list held. A failing `qdf_assert_always` has no result. -/

namespace QcomModules.RxReo

/-! ## List entries -/

/-- The status bits of an entry. -/
structure EntryStatus where
  waitForFrameOnOtherLinks : Bool
  agedOut : Bool
  olderThanLatestAgedOutFrame : Bool
  ingressListOverflow : Bool
  olderThanReadyToDeliverFrames : Bool
  egressListOverflow : Bool
  deriving Repr, DecidableEq

structure ReoListEntry where
  /-- which allocation the entry is -/
  id : ℕ
  reoParams : MgmtRxReoParams
  waitCount : WaitCount
  status : EntryStatus
  isParallelRx : Bool
  ingressListInsertionTs : BitVec 64

/-- The sizes the lists may have, how long an entry may stay, and the threshold of a link. -/
structure ReoConfig where
  ingressMaxListSize : ℕ
  egressMaxListSize : ℕ
  listEntryTimeoutUs : BitVec 32
  pktCtrDeltaThresh : BitVec 16

def ReoListEntry.globalTs (entry : ReoListEntry) : BitVec 32 :=
  entry.reoParams.globalTimestamp

def FrameDescriptor.globalTs (desc : FrameDescriptor) : BitVec 32 :=
  desc.reoParams.globalTimestamp

def ReoListEntry.isReadyToSendUp (entry : ReoListEntry) : Bool :=
  entry.status.ingressListOverflow || entry.status.egressListOverflow ||
    !entry.status.waitForFrameOnOtherLinks || entry.status.agedOut ||
    entry.status.olderThanLatestAgedOutFrame || entry.status.olderThanReadyToDeliverFrames

/-- The entry that is prepared for a frame, in the allocation `id`. -/
def prepareListEntry (id : ℕ) (desc : FrameDescriptor) : ReoListEntry where
  id := id
  reoParams := desc.reoParams
  waitCount := desc.waitCount
  status :=
    { waitForFrameOnOtherLinks := desc.waitCount.totalCount != 0
      agedOut := false
      olderThanLatestAgedOutFrame := false
      ingressListOverflow := false
      olderThanReadyToDeliverFrames := false
      egressListOverflow := false }
  isParallelRx := false
  ingressListInsertionTs := 0

/-! ## Wait counts -/

def WaitCount.lower (w : WaitCount) (link : Fin MAX_MLO_LINKS) (count : ℕ) : WaitCount where
  perLinkCount := Function.update w.perLinkCount link count
  totalCount := w.totalCount - (w.perLinkCount link - count)

def updateWaitCountLink (new old : WaitCount) (link : Fin MAX_MLO_LINKS) : WaitCount :=
  if old.perLinkCount link ≠ 0 then
    old.lower link (min (old.perLinkCount link) (new.perLinkCount link))
  else old

/-- No frame waits for more than one that was received after it. -/
def updateWaitCount (old new : WaitCount) : WaitCount :=
  (List.finRange MAX_MLO_LINKS).foldl (updateWaitCountLink new) old

def ReoListEntry.clearWait (entry : ReoListEntry) : ReoListEntry :=
  if entry.waitCount.totalCount = 0 then
    { entry with status := { entry.status with waitForFrameOnOtherLinks := false } }
  else entry

def ReoListEntry.boundBy (new : WaitCount) (entry : ReoListEntry) : ReoListEntry :=
  { entry with waitCount := updateWaitCount entry.waitCount new }.clearWait

def ReoListEntry.countDown (link : Fin MAX_MLO_LINKS) (pktCtrDelta : ℕ) (entry : ReoListEntry) :
    ReoListEntry :=
  if entry.waitCount.perLinkCount link ≠ 0 then
    { entry with
      waitCount := entry.waitCount.lower link
        (entry.waitCount.perLinkCount link - pktCtrDelta) }.clearWait
  else entry

/-! ## A frame and the lists -/

/-- The entries with a timestamp up to that of the frame, and the rest of the list from the first
one with a greater timestamp on. -/
def olderEntries (tsNew : BitVec 32) (list : List ReoListEntry) : List ReoListEntry :=
  list.takeWhile fun cur => compareGlobalTimestampsGte tsNew cur.globalTs

def newerEntries (tsNew : BitVec 32) (list : List ReoListEntry) : List ReoListEntry :=
  list.dropWhile fun cur => compareGlobalTimestampsGte tsNew cur.globalTs

/-- What an update of a list by a frame leaves. -/
structure ListUpdate where
  status : QdfStatus
  list : List ReoListEntry
  desc : FrameDescriptor

/-- The frame is one that an entry is prepared for. -/
def FrameDescriptor.needsEntry (desc : FrameDescriptor) : Bool :=
  desc.type = .hostConsumedFrame && desc.reoRequired

/-- A frame older than the last one released is stale, unless the two were received in parallel. -/
def isStaleFrame (lastReleasedFrame : Option MgmtRxReoParams) (desc : FrameDescriptor) :
    FrameDescriptor :=
  let desc := { desc with isStale := false, isParallelRx := false }
  if !desc.reoRequired then desc
  else
    match lastReleasedFrame with
    | none => desc
    | some last =>
      if compareGlobalTimestampsGte last.startTimestamp desc.reoParams.startTimestamp &&
          compareGlobalTimestampsGte desc.reoParams.endTimestamp last.endTimestamp then
        { desc with isParallelRx := true }
      else
        { desc with
          isStale := !compareGlobalTimestampsGte desc.reoParams.startTimestamp
            last.startTimestamp }

def ReoListEntry.overflowsEgress (entry : ReoListEntry) : ReoListEntry :=
  { entry with status := { entry.status with egressListOverflow := true } }

def ReoListEntry.overflowsIngress (entry : ReoListEntry) : ReoListEntry :=
  { entry with status := { entry.status with ingressListOverflow := true } }

/-- The first entries of a list that has too many are to leave it. -/
def markEgressOverflow (count : ℕ) (list : List ReoListEntry) : List ReoListEntry :=
  (list.take count).map ReoListEntry.overflowsEgress ++ list.drop count

def handleEgressOverflow (config : ReoConfig) (egress : List ReoListEntry) : List ReoListEntry :=
  if config.egressMaxListSize < egress.length then
    markEgressOverflow (egress.length - config.egressMaxListSize) egress
  else egress

/-- The frame enters the egress list where a frame after it is about to be released. -/
def insertEgress (config : ReoConfig) (egress : List ReoListEntry) (desc : FrameDescriptor)
    (new : ReoListEntry) : ListUpdate :=
  match newerEntries desc.globalTs egress with
  | [] => { status := .failure, list := egress, desc := desc }
  | leastGreater :: newer =>
    let new := new.boundBy leastGreater.waitCount
    let desc := { desc with waitCount := new.waitCount }
    let new :=
      { new with
        isParallelRx := desc.isParallelRx
        status := { new.status with olderThanReadyToDeliverFrames := true } }
    { status := .success
      list := handleEgressOverflow config
        (olderEntries desc.globalTs egress ++ new :: leastGreater :: newer)
      desc := { desc with queuedList := .egress } }

def updateEgressList (config : ReoConfig) (lastReleasedFrame : Option MgmtRxReoParams)
    (egress : List ReoListEntry) (desc : FrameDescriptor) (new : Option ReoListEntry) :
    Option ListUpdate :=
  if desc.needsEntry != new.isSome then
    some { status := .invalid, list := egress, desc := desc }
  else
    let desc := isStaleFrame lastReleasedFrame desc
    let unchanged := { status := .success, list := egress, desc := desc }
    if desc.isStale then
      if (olderEntries desc.globalTs egress).all (·.isParallelRx) then some unchanged else none
    else
      match new, egress.getLast? with
      | some new, some last =>
        if compareGlobalTimestampsGte desc.globalTs last.globalTs then some unchanged
        else some (insertEgress config egress desc new)
      | _, _ => some unchanged

def FrameDescriptor.entersIngress (desc : FrameDescriptor) : Bool :=
  desc.type = .hostConsumedFrame && !desc.isStale && desc.reoRequired &&
    desc.queuedList != .egress

/-- The new entry, bounded by the entry that will follow it. -/
def boundNew (new : ReoListEntry) (newer : List ReoListEntry) : ReoListEntry :=
  match newer with
  | [] => new
  | leastGreater :: _ => new.boundBy leastGreater.waitCount

def updateIngressList (now : BitVec 64) (ingress : List ReoListEntry) (desc : FrameDescriptor)
    (new : Option ReoListEntry) : Option ListUpdate :=
  if desc.needsEntry != new.isSome then
    some { status := .invalid, list := ingress, desc := desc }
  else
    let older := olderEntries desc.globalTs ingress
    let newer := newerEntries desc.globalTs ingress
    if desc.isStale && !older.all (·.isParallelRx) then none
    else
      let older := older.map (·.boundBy desc.waitCount)
      let pktCtrDelta := (BitVec.ofInt 16 desc.pktCtrDelta).toNat
      let counted := newer.map (·.countDown desc.reoParams.linkId pktCtrDelta)
      match new with
      | some new =>
        if desc.entersIngress then
          let new :=
            { boundNew new newer with
              isParallelRx := desc.isParallelRx
              ingressListInsertionTs := now }
          some
            { status := .success
              list := older ++ new :: counted
              desc := { desc with waitCount := new.waitCount, queuedList := .ingress } }
        else some { status := .success, list := older ++ counted, desc := desc }
      | none => some { status := .success, list := older ++ counted, desc := desc }

def checkSanityList : List ReoListEntry → Bool
  | [] => true
  | [_] => true
  | prev :: cur :: list =>
    compareGlobalTimestampsGte cur.globalTs prev.globalTs && checkSanityList (cur :: list)

def checkSanityLists (egress ingress : List ReoListEntry) : Bool :=
  checkSanityList egress && checkSanityList ingress &&
    match egress.getLast?, ingress with
    | some last, first :: _ => compareGlobalTimestampsGte first.globalTs last.globalTs
    | _, _ => true

/-! ## From the ingress list to the upper layer -/

/-- The first entries of the ingress list that are ready, as far as `numOverflowFrames` of them are
made so since the list has too many. -/
def splitReady : ℕ → List ReoListEntry → List ReoListEntry × List ReoListEntry
  | _, [] => ([], [])
  | numOverflowFrames, entry :: list =>
    let entry := if 0 < numOverflowFrames then entry.overflowsIngress else entry
    if entry.isReadyToSendUp then
      let (ready, rest) := splitReady (numOverflowFrames - 1) list
      (entry :: ready, rest)
    else ([], entry :: list)

def splitIngress (config : ReoConfig) (ingress : List ReoListEntry) :
    List ReoListEntry × List ReoListEntry :=
  splitReady (ingress.length - config.ingressMaxListSize) ingress

def joinEgress (config : ReoConfig) (egress ready : List ReoListEntry) : List ReoListEntry :=
  handleEgressOverflow config (egress ++ ready)

def ReoListEntry.timedOut (config : ReoConfig) (now : BitVec 64) (entry : ReoListEntry) : Bool :=
  config.listEntryTimeoutUs.toNat ≤ (now - entry.ingressListInsertionTs).toNat

/-- Entries that have been in the list for too long age out, and with the last one of these all
entries before it. -/
def ageoutEntries (config : ReoConfig) (now : BitVec 64) : List ReoListEntry → List ReoListEntry
  | [] => []
  | entry :: list =>
    { entry with
      status :=
        { entry.status with
          agedOut := entry.status.agedOut || entry.timedOut config now
          olderThanLatestAgedOutFrame := entry.status.olderThanLatestAgedOutFrame ||
            list.any (·.timedOut config now) } } :: ageoutEntries config now list

/-- The lists and the last frame given to the upper layer, or why no entry is given to it. -/
inductive Release where
  | stopped
  | released (entry : ReoListEntry) (egress : List ReoListEntry)
      (lastReleasedFrame : Option MgmtRxReoParams)

/-- One turn of the loop that releases entries; `defer` tells whether the delivery of an entry is
left to another context. -/
def releaseFirstEntry (defer : ReoListEntry → Bool) (lastReleasedFrame : Option MgmtRxReoParams) :
    List ReoListEntry → Option Release
  | [] => some .stopped
  | entry :: egress =>
    if !entry.isReadyToSendUp then some .stopped
    else if defer entry && !entry.status.egressListOverflow then some .stopped
    else
      let newest :=
        match lastReleasedFrame with
        | none => true
        | some last => compareGlobalTimestampsGte entry.globalTs last.globalTimestamp
      if newest then some (.released entry egress (some entry.reoParams))
      else if entry.isParallelRx then some (.released entry egress lastReleasedFrame)
      else none

end QcomModules.RxReo
