import QcomModules.RxReo.Waiting

/-! The wait counts of the ingress list follow the host snapshots: they do so in a call exactly
where the call that advances a snapshot gets as far as the lists, or no entry waits for that
link. -/

namespace QcomModules.RxReo

open Library

variable {config : ReoConfig} {ctx ctx' : ReoContext} {input : AlgoInput}

/-! ## What a call is to do -/

/-- How far the call has advanced the valid host snapshot of a link. -/
def hostAdvance (ctx ctx' : ReoContext) (link : Fin MAX_MLO_LINKS) : ℕ :=
  if (ctx.hostSnapshot link).valid then
    (subtractPktCtrs (ctx'.hostSnapshot link).mgmtPktCtr
      (ctx.hostSnapshot link).mgmtPktCtr).toNat
  else 0

/-- Each entry that stays in the ingress list waits for as many frames less, as far as it waits for
any. -/
def CountsFollow (ctx ctx' : ReoContext) : Prop :=
  ∀ link, ∀ entry ∈ ctx.lists.ingress, ∀ entry' ∈ ctx'.lists.ingress, entry'.id = entry.id →
    entry'.waitCount.perLinkCount link +
        min (hostAdvance ctx ctx' link) (entry.waitCount.perLinkCount link) ≤
      entry.waitCount.perLinkCount link

/-! ## When it does -/

/-- How far the frame is ahead of the host snapshot of its link. -/
def AlgoInput.pktCtrDelta (ctx : ReoContext) (input : AlgoInput) : ℤ :=
  subtractPktCtrs input.frame.reoParams.mgmtPktCtr
    (ctx.hostSnapshot input.linkId).mgmtPktCtr

/-- The frame is accepted as the next one of a link with a valid host snapshot, and ahead of it. -/
def AlgoInput.Advances (config : ReoConfig) (ctx : ReoContext) (input : AlgoInput) : Prop :=
  input.frame.frameType = IEEE80211_FC0_TYPE_MGT ∧ input.frame.reoParams.valid = true ∧
    (input.views input.linkId).privObject = true ∧
      (ctx.hostSnapshot input.linkId).valid = true ∧ 0 < input.pktCtrDelta ctx ∧
        ¬ (input.pktCtrDelta ctx ≠ 1 ∧
          exceedsDeltaThresh config.pktCtrDeltaThresh (input.pktCtrDelta ctx) = true)

def AlgoInput.hostSnapshots (ctx : ReoContext) (input : AlgoInput) : HostSnapshots :=
  Function.update ctx.hostSnapshot input.linkId input.frame.reoParams.snapshot

/-- Nothing keeps the call from the lists: the frame is not dropped, each link can be read and its
snapshots do not contradict each other, and there is an entry for the frame. -/
structure AlgoInput.ReachesLists (ctx : ReoContext) (input : AlgoInput) : Prop where
  kept : comparePktCtrsGte (ctx.hostSnapshot input.linkId).mgmtPktCtr
    input.frame.reoParams.mgmtPktCtr = false
  isValidLink : (input.views input.linkId).isValidLink = true
  passes : ∀ link, (input.views link).Passes (input.hostSnapshots ctx link)
  prepares : input.frame.desc.needsEntry = true → input.prepares = true

/-- A call that advances the snapshot of a link which an entry waits for reaches the lists. -/
def AlgoInput.Meets (config : ReoConfig) (ctx : ReoContext) (input : AlgoInput) : Prop :=
  input.Advances config ctx → input.ReachesLists ctx ∨
    ∀ entry ∈ ctx.lists.ingress, entry.waitCount.perLinkCount input.linkId = 0

/-! ## The host snapshot of a call -/

variable {thresh : BitVec 16} {hostSs : MgmtRxReoSnapshotParams} {desc : FrameDescriptor}

theorem subtractPktCtrs_self (ctr : BitVec 16) : subtractPktCtrs ctr ctr = 0 := by
  rw [subtractPktCtrs, serialSub, BitVec.sub_self]
  rfl

theorem subtractPktCtrs_of_kept {ctr1 ctr2 : BitVec 16}
    (h : comparePktCtrsGte ctr2 ctr1 = false) :
    0 < subtractPktCtrs ctr1 ctr2 ∧ subtractPktCtrs ctr1 ctr2 < 2 ^ 15 := by
  rw [comparePktCtrsGte, serialGte, decide_eq_false_iff_not] at h
  rw [subtractPktCtrs, serialSub]
  have hneg : (ctr1 - ctr2).toNat < 2 ^ 15 ∧ 0 < (ctr1 - ctr2).toNat := by bv_omega
  rw [if_neg (by omega)]
  omega

def FrameDescriptor.Updated (desc desc' : FrameDescriptor) (delta : ℤ) : Prop :=
  desc'.reoParams = desc.reoParams ∧ desc'.needsEntry = desc.needsEntry ∧
    desc'.queuedList = desc.queuedList ∧ desc'.waitCount = desc.waitCount ∧
      desc'.pktCtrDelta = delta

theorem updateHostSnapshot_cases (hvalid : desc.reoParams.valid = true)
    (hdrop : desc.drop = false) :
    (hostSs.valid = false ∧
      ∃ desc', updateHostSnapshot thresh hostSs desc =
          (.success, desc.reoParams.snapshot, desc') ∧
        desc'.drop = false ∧ desc.Updated desc' 1) ∨
    hostSs.valid = true ∧
      ((subtractPktCtrs desc.reoParams.mgmtPktCtr hostSs.mgmtPktCtr ≠ 1 ∧
          exceedsDeltaThresh thresh
            (subtractPktCtrs desc.reoParams.mgmtPktCtr hostSs.mgmtPktCtr) = true) ∧
        (∃ desc', updateHostSnapshot thresh hostSs desc = (.failure, hostSs, desc')) ∨
      ¬ (subtractPktCtrs desc.reoParams.mgmtPktCtr hostSs.mgmtPktCtr ≠ 1 ∧
          exceedsDeltaThresh thresh
            (subtractPktCtrs desc.reoParams.mgmtPktCtr hostSs.mgmtPktCtr) = true) ∧
        ∃ desc', updateHostSnapshot thresh hostSs desc =
            (.success, desc.reoParams.snapshot, desc') ∧
          desc'.drop = comparePktCtrsGte hostSs.mgmtPktCtr desc.reoParams.mgmtPktCtr ∧
          desc.Updated desc'
            (subtractPktCtrs desc.reoParams.mgmtPktCtr hostSs.mgmtPktCtr)) := by
  unfold updateHostSnapshot
  rw [if_neg (by simp [hvalid])]
  cases hhost : hostSs.valid with
  | false => exact .inl ⟨rfl, _, rfl, hdrop, rfl, rfl, rfl, rfl, rfl⟩
  | true =>
    right
    refine ⟨rfl, ?_⟩
    rw [if_neg (by simp)]
    dsimp only
    by_cases hgte : comparePktCtrsGte hostSs.mgmtPktCtr desc.reoParams.mgmtPktCtr = true
    · rw [if_pos hgte]
      by_cases hrefuse : subtractPktCtrs desc.reoParams.mgmtPktCtr hostSs.mgmtPktCtr ≠ 1 ∧
          exceedsDeltaThresh thresh
            (subtractPktCtrs desc.reoParams.mgmtPktCtr hostSs.mgmtPktCtr) = true
      · exact .inl ⟨hrefuse, _, if_pos hrefuse⟩
      · exact .inr ⟨hrefuse, _, if_neg hrefuse, hgte.symm, rfl, rfl, rfl, rfl, rfl⟩
    · rw [if_neg hgte]
      by_cases hrefuse : subtractPktCtrs desc.reoParams.mgmtPktCtr hostSs.mgmtPktCtr ≠ 1 ∧
          exceedsDeltaThresh thresh
            (subtractPktCtrs desc.reoParams.mgmtPktCtr hostSs.mgmtPktCtr) = true
      · exact .inl ⟨hrefuse, _, if_pos hrefuse⟩
      · refine .inr ⟨hrefuse, _, if_neg hrefuse, ?_, rfl, rfl, rfl, rfl, rfl⟩
        rw [hdrop]
        exact (Bool.eq_false_iff.2 hgte).symm

/-! ## A call -/

/-- What holds of the state between calls. -/
structure ReoContext.Waiting (ctx : ReoContext) : Prop where
  lists : ctx.lists.Waiting
  idle : ctx.lists.phase = .idle

/-- The host snapshots have the counters of others. -/
def SameCounters (first second : HostSnapshots) : Prop :=
  ∀ l, (first l).mgmtPktCtr = (second l).mgmtPktCtr

/-- A call leaves everything as it is; or it stores the frame's snapshot and stops before the lists;
or it reaches these. -/
inductive CallOutcome (config : ReoConfig) (ctx : ReoContext) (input : AlgoInput)
    (ctx' : ReoContext) : Prop where
  | refused (same : ctx' = ctx) (stays : ¬ input.Advances config ctx)
  | stopped (lists : ctx'.lists = ctx.lists)
      (counters : SameCounters ctx'.hostSnapshot (input.hostSnapshots ctx))
      (unreached : ¬ ((ctx.hostSnapshot input.linkId).valid = true ∧ input.ReachesLists ctx))
      (advances : (ctx.hostSnapshot input.linkId).valid = true → 0 < input.pktCtrDelta ctx →
        input.Advances config ctx)
  | reached (desc : FrameDescriptor)
      (counters : SameCounters ctx'.hostSnapshot (input.hostSnapshots ctx))
      (updated : ctx.lists.updateLists config input desc = some ctx'.lists)
      (exact : desc.waitCount.Exact) (own : desc.waitCount.perLinkCount input.linkId = 0)
      (link : desc.reoParams.linkId = input.linkId) (queuedList : desc.queuedList = .invalid)
      (prepares : desc.needsEntry = true → input.prepares = true)
      (reaches : (ctx.hostSnapshot input.linkId).valid = true → input.ReachesLists ctx ∧
        desc.pktCtrDelta = input.pktCtrDelta ctx)

/-- Past the update of the host snapshot, the call stops or reaches the lists. -/
theorem algoEntry_after_snapshot {desc : FrameDescriptor} {delta : ℤ}
    (hupd : input.frame.desc.Updated desc delta)
    (hkept : (ctx.hostSnapshot input.linkId).valid = true →
      comparePktCtrsGte (ctx.hostSnapshot input.linkId).mgmtPktCtr
        input.frame.reoParams.mgmtPktCtr = false ∧ delta = input.pktCtrDelta ctx)
    (hpriv : (input.views input.linkId).privObject = true)
    (hadv : (ctx.hostSnapshot input.linkId).valid = true → 0 < input.pktCtrDelta ctx →
      input.Advances config ctx)
    (h : (do
      let c ← calculateWaitCount input.views (input.hostSnapshots ctx) desc
      let ctx1 : ReoContext := { ctx with hostSnapshot := c.hostSs }
      if c.status ≠ .success then some ctx1
      else do
        let lists ← ctx1.lists.updateLists config input c.desc
        pure { ctx1 with lists := lists }) = some ctx') : CallOutcome config ctx input ctx' := by
  obtain ⟨hparams, hneeds, hqueued, hwait, hdelta⟩ := hupd
  have hlink : desc.reoParams.linkId = input.linkId := by rw [hparams]; rfl
  obtain ⟨c, hcalc, h⟩ := Option.bind_eq_some_iff.1 h
  rw [calculateWaitCount, hlink] at hcalc
  by_cases hvalid : (input.views input.linkId).isValidLink = true
  swap
  · rw [if_pos (by simpa using hvalid)] at hcalc
    obtain rfl := Option.some.inj hcalc
    obtain rfl := Option.some.inj h
    exact .stopped rfl (fun _ => rfl) (fun hreach => hvalid hreach.2.isValidLink) hadv
  rw [if_neg (by simpa using hvalid), if_neg (by simp [hpriv])] at hcalc
  have hsound : Calculation.Sound
      { status := .success, hostSs := input.hostSnapshots ctx, desc := desc }
      (List.finRange MAX_MLO_LINKS) := by
    refine ⟨?_, ?_, ?_⟩
    · exact hwait ▸ WaitCount.zero_exact
    · intro l _
      exact congrArg (fun w : WaitCount => w.perLinkCount l) hwait
    · exact congrArg (fun w : WaitCount => w.perLinkCount desc.reoParams.linkId) hwait
  obtain ⟨hkeeps, hiff, hend⟩ :=
    foldlM_calculateLink_spec rfl hsound (List.nodup_finRange _) hcalc
  have hpasses : c.status = .success ↔
      ∀ l, (input.views l).Passes (input.hostSnapshots ctx l) := by
    rw [hiff]
    exact ⟨fun hall l => hall l (List.mem_finRange l), fun hall l _ => hall l⟩
  dsimp only at h
  by_cases hstatus : c.status = .success
  swap
  · rw [if_pos hstatus] at h
    obtain rfl := Option.some.inj h
    exact .stopped rfl hkeeps.counters (fun hreach => hstatus (hpasses.2 hreach.2.passes)) hadv
  rw [if_neg (by simpa using hstatus)] at h
  obtain ⟨lists, hlists, hctx⟩ := Option.bind_eq_some_iff.1 h
  obtain rfl := Option.some.inj hctx
  have hneeds' : c.desc.needsEntry = input.frame.desc.needsEntry :=
    hkeeps.needsEntry.trans hneeds
  by_cases hprep : input.frame.desc.needsEntry = true → input.prepares = true
  · obtain ⟨hexact, -, hown⟩ := hend hstatus
    rw [hkeeps.reoParams] at hown
    refine .reached c.desc hkeeps.counters hlists hexact (hlink ▸ hown)
      (by rw [hkeeps.reoParams, hlink]) (hkeeps.queuedList.trans hqueued)
      (by rwa [hneeds']) fun hhost => ?_
    obtain ⟨hgte, rfl⟩ := hkept hhost
    exact ⟨⟨hgte, hvalid, hpasses.1 hstatus, hprep⟩, hkeeps.pktCtrDelta.trans hdelta⟩
  · have hskip : (c.desc.needsEntry && !input.prepares) = true := by
      rw [hneeds']
      grind
    rw [ReoState.updateLists, if_pos hskip] at hlists
    obtain rfl := Option.some.inj hlists
    exact .stopped rfl hkeeps.counters (fun hreach => hprep hreach.2.prepares) hadv

theorem algoEntry_outcome (h : ctx.algoEntry config input = some ctx') :
    CallOutcome config ctx input ctx' := by
  have hsame : Function.update ctx.hostSnapshot input.linkId (ctx.hostSnapshot input.linkId) =
      ctx.hostSnapshot := Function.update_eq_self _ _
  unfold ReoContext.algoEntry at h
  dsimp only at h
  by_cases htype : input.frame.desc.frameType = IEEE80211_FC0_TYPE_MGT
  swap
  · rw [if_pos htype] at h
    exact .refused (Option.some.inj h).symm fun hadv => htype hadv.1
  rw [if_neg (by simpa using htype)] at h
  by_cases hvalid : input.frame.desc.reoParams.valid = true
  swap
  · rw [if_pos (by simpa using hvalid)] at h
    exact .refused (Option.some.inj h).symm fun hadv => hvalid hadv.2.1
  rw [if_neg (by simpa using hvalid)] at h
  by_cases hpriv : (input.views input.linkId).privObject = true
  swap
  · rw [if_pos (by simpa using hpriv)] at h
    exact .refused (Option.some.inj h).symm fun hadv => hpriv hadv.2.2.1
  rw [if_neg (by simpa using hpriv)] at h
  obtain ⟨hhost, desc, hupdate, hdrop, hupd⟩ | ⟨hhost, ⟨hrefuse, desc, hupdate⟩ |
      ⟨haccept, desc, hupdate, hdrop, hupd⟩⟩ :=
    @updateHostSnapshot_cases config.pktCtrDeltaThresh (ctx.hostSnapshot input.linkId)
      input.frame.desc hvalid rfl
  · rw [hupdate] at h
    dsimp only at h
    rw [if_neg (by simp), if_neg (by simp [hdrop])] at h
    refine algoEntry_after_snapshot hupd (fun hbad => ?_) hpriv (fun hbad => ?_) h
    · rw [hhost] at hbad
      cases hbad
    · rw [hhost] at hbad
      cases hbad
  · rw [hupdate] at h
    dsimp only at h
    rw [if_pos (by simp), hsame] at h
    exact .refused (Option.some.inj h).symm fun hadv => hadv.2.2.2.2.2 hrefuse
  · have hadv (hpos : 0 < input.pktCtrDelta ctx) : input.Advances config ctx :=
      ⟨htype, hvalid, hpriv, hhost, hpos, haccept⟩
    rw [hupdate] at h
    dsimp only at h
    rw [if_neg (by simp)] at h
    by_cases hgte : comparePktCtrsGte (ctx.hostSnapshot input.linkId).mgmtPktCtr
        input.frame.reoParams.mgmtPktCtr = true
    · rw [if_pos (hdrop.trans hgte)] at h
      obtain rfl := Option.some.inj h
      refine .stopped rfl (fun _ => rfl) (fun hreach => ?_) fun _ => hadv
      have hkept := hreach.2.kept
      rw [hgte] at hkept
      cases hkept
    · rw [if_neg (by rw [hdrop]; exact hgte)] at h
      exact algoEntry_after_snapshot hupd
        (fun _ => ⟨Bool.eq_false_iff.2 hgte, rfl⟩) hpriv (fun _ => hadv) h

/-! ## The counts after a call -/

theorem hostAdvance_of_sameCounters
    (h : SameCounters ctx'.hostSnapshot (input.hostSnapshots ctx)) (link : Fin MAX_MLO_LINKS) :
    hostAdvance ctx ctx' link =
      if link = input.linkId ∧ (ctx.hostSnapshot input.linkId).valid = true then
        (input.pktCtrDelta ctx).toNat
      else 0 := by
  rw [hostAdvance, h link, AlgoInput.hostSnapshots]
  by_cases hlink : link = input.linkId
  · rw [hlink, Function.update_self]
    simp only [true_and]
    rfl
  · have hnot : ¬ (link = input.linkId ∧ (ctx.hostSnapshot input.linkId).valid = true) :=
      fun hbad => hlink hbad.1
    rw [Function.update_of_ne hlink, subtractPktCtrs_self, if_neg hnot]
    exact ite_self 0

theorem countsFollow_of_same (h : ctx.Waiting) (hlists : ctx'.lists = ctx.lists) :
    CountsFollow ctx ctx' ↔ ∀ link, ∀ entry ∈ ctx.lists.ingress,
      hostAdvance ctx ctx' link = 0 ∨ entry.waitCount.perLinkCount link = 0 := by
  constructor
  · intro hfollow link entry hmem
    have hle := hfollow link entry hmem entry (by rwa [hlists]) rfl
    omega
  · intro hzero link entry hmem entry' hmem' hid
    rw [hlists] at hmem'
    rw [h.lists.eq_of_id hmem' hmem hid]
    obtain hadv | hcount := hzero link entry hmem
    · rw [hadv, Nat.zero_min, Nat.add_zero]
    · rw [hcount, Nat.min_zero]

theorem CallOutcome.waiting (h : ctx.Waiting) (hcall : CallOutcome config ctx input ctx') :
    ctx'.Waiting := by
  cases hcall with
  | refused same stays => rwa [same]
  | stopped lists counters unreached advances => exact ⟨by rw [lists]; exact h.lists,
      by rw [lists]; exact h.idle⟩
  | reached desc counters updated exact own link queuedList prepares reaches =>
    obtain ⟨hwait, hidle, -⟩ := h.lists.updateLists h.idle exact (by rw [link]; exact own)
      queuedList prepares updated
    exact ⟨hwait, hidle⟩

theorem CallOutcome.follow_iff (h : ctx.Waiting) (hcall : CallOutcome config ctx input ctx') :
    CountsFollow ctx ctx' ↔ input.Meets config ctx := by
  cases hcall with
  | refused same stays =>
    refine ⟨fun _ hadv => absurd hadv stays, fun _ => ?_⟩
    rw [same, countsFollow_of_same h rfl]
    intro link entry _
    left
    rw [hostAdvance, subtractPktCtrs_self]
    exact ite_self 0
  | stopped lists counters unreached advances =>
    rw [countsFollow_of_same h lists]
    constructor
    · intro hzero hadv
      right
      intro entry hmem
      obtain hstays | hcount := hzero input.linkId entry hmem
      · have hhost := hadv.2.2.2.1
        have hpos := hadv.2.2.2.2.1
        rw [hostAdvance_of_sameCounters counters, if_pos ⟨rfl, hhost⟩] at hstays
        omega
      · exact hcount
    · intro hmeets link entry hmem
      rw [hostAdvance_of_sameCounters counters]
      by_cases hown : link = input.linkId ∧ (ctx.hostSnapshot input.linkId).valid = true
      · rw [if_pos hown]
        by_cases hpos : 0 < input.pktCtrDelta ctx
        · obtain hreach | hnone := hmeets (advances hown.2 hpos)
          · exact absurd ⟨hown.2, hreach⟩ unreached
          · rw [hown.1]
            exact .inr (hnone entry hmem)
        · left
          omega
      · rw [if_neg hown]
        exact .inl rfl
  | reached desc counters updated exact own link queuedList prepares reaches =>
    obtain ⟨-, -, hfrom⟩ := h.lists.updateLists h.idle exact (by rw [link]; exact own)
      queuedList prepares updated
    refine ⟨fun _ hadv => .inl (reaches hadv.2.2.2.1).1, fun _ => ?_⟩
    intro l entry hmem entry' hmem' hid
    obtain hnew | ⟨old, hold, hsame, hlow⟩ := hfrom entry' hmem'
    · -- the entry is an older allocation than that of the frame
      have hlt := h.lists.id_lt hmem
      rw [← hid, hnew] at hlt
      exact absurd hlt (Nat.lt_irrefl _)
    · obtain rfl := h.lists.eq_of_id hold hmem (hsame.symm.trans hid)
      rw [hostAdvance_of_sameCounters counters]
      by_cases hown : l = input.linkId ∧ (ctx.hostSnapshot input.linkId).valid = true
      · obtain ⟨hreach, hdelta⟩ := reaches hown.2
        obtain ⟨hpos, hlt⟩ := subtractPktCtrs_of_kept hreach.kept
        have hcount := hlow.counted
        rw [if_pos hown, hown.1]
        rw [link, hdelta, BitVec.toNat_ofInt] at hcount
        change 0 < input.pktCtrDelta ctx at hpos
        change input.pktCtrDelta ctx < 2 ^ 15 at hlt
        have hmod : (input.pktCtrDelta ctx % ((2 ^ 16 : ℕ) : ℤ)).toNat =
            (input.pktCtrDelta ctx).toNat := by
          rw [Int.emod_eq_of_lt (by omega) (by omega)]
        rwa [hmod] at hcount
      · rw [if_neg hown, Nat.zero_min, Nat.add_zero]
        exact hlow.le l

/-! ## Runs of calls -/

theorem ReoContext.init_waiting : ReoContext.init.Waiting :=
  ⟨ReoState.init_waiting, rfl⟩

theorem ReoContext.Waiting.call {reoCall : ReoCall} (h : ctx.Waiting)
    (hcall : ctx.call config reoCall = some ctx') : ctx'.Waiting := by
  cases reoCall with
  | algoEntry input => exact (algoEntry_outcome hcall).waiting h
  | ageout now defer =>
    obtain ⟨lists, hlists, rfl⟩ := Option.map_eq_some_iff.1 hcall
    obtain ⟨hwait, hidle⟩ := h.lists.ageoutTimerHandler h.idle hlists
    exact ⟨hwait, hidle⟩
  | releaseFrames defer =>
    obtain ⟨lists, hlists, rfl⟩ := Option.map_eq_some_iff.1 hcall
    obtain ⟨hwait, hidle, -⟩ := h.lists.releaseEntries h.idle hlists
    exact ⟨hwait, hidle⟩

/-- After any calls, the entries of the ingress list wait for what their counts say; and the counts
follow the host snapshots in the next call exactly where that reaches the lists, if it advances the
snapshot of a link that an entry waits for. -/
theorem wait_counts_follow {calls : List ReoCall}
    (h : calls.foldlM (ReoContext.call config) .init = some ctx) :
    (∀ entry ∈ ctx.lists.ingress, entry.WaitsRight) ∧
      ∀ input ctx', ctx.algoEntry config input = some ctx' →
        (CountsFollow ctx ctx' ↔ input.Meets config ctx) := by
  have hwait : ctx.Waiting :=
    invariant_of_run (fun _ _ _ hinv hcall => hinv.call hcall) ReoContext.init_waiting h
  exact ⟨hwait.lists.waits, fun input ctx' hcall => (algoEntry_outcome hcall).follow_iff hwait⟩

/-! A frame of link 1 waits for two frames of link 0. The first of these comes when the hardware
snapshot of link 1 reads as invalid: it is dropped, with the host snapshot of link 0 advanced. -/

def snapshotAt (mgmtPktCtr : BitVec 16) (globalTimestamp : BitVec 32) :
    MgmtRxReoSnapshotParams where
  valid := true
  mgmtPktCtr := mgmtPktCtr
  globalTimestamp := globalTimestamp

def noSnapshot : MgmtRxReoSnapshotParams where
  valid := false
  mgmtPktCtr := 0
  globalTimestamp := 0

/-- A link that has received and forwarded frames up to the snapshot. -/
def forwardedView (snapshot : MgmtRxReoSnapshotParams) : LinkView where
  isValidLink := true
  pdev := true
  privObject := true
  initComplete := true
  read := fun
    | .fwConsumed => some noSnapshot
    | .fwForwarded | .macHw => some snapshot

/-- Frames of links 0 and 1, where the other links are not there. -/
def twoLinkInput (frame : IncomingFrame) (first second : MgmtRxReoSnapshotParams) : AlgoInput where
  frame := frame
  views := fun link =>
    if link = 0 then forwardedView first
    else if link = 1 then forwardedView second
    else { forwardedView noSnapshot with isValidLink := false }
  prepares := true
  now := 0
  defer := fun _ => false

def waitingCalls : List ReoCall :=
  [.algoEntry (twoLinkInput (frameAt 0 1 10) (snapshotAt 3 30) noSnapshot),
    .algoEntry (twoLinkInput (frameAt 1 1 100) (snapshotAt 3 30) (snapshotAt 1 100))]

instance (ctx ctx' : ReoContext) : Decidable (CountsFollow ctx ctx') :=
  inferInstanceAs (Decidable (∀ _, _))

theorem wait_counts_follow_waitingCalls :
    ∃ ctx, waitingCalls.foldlM (ReoContext.call ⟨16, 16, 5000, 0⟩) .init = some ctx ∧
      (∀ entry ∈ ctx.lists.ingress, entry.WaitsRight) ∧
        ∀ input ctx', ctx.algoEntry ⟨16, 16, 5000, 0⟩ input = some ctx' →
          (CountsFollow ctx ctx' ↔ input.Meets ⟨16, 16, 5000, 0⟩ ctx) := by
  have hrun : (waitingCalls.foldlM (ReoContext.call ⟨16, 16, 5000, 0⟩) .init).isSome = true := by
    decide +kernel
  obtain ⟨ctx, hctx⟩ := Option.isSome_iff_exists.1 hrun
  exact ⟨ctx, hctx, wait_counts_follow hctx⟩

theorem not_wait_counts_follow :
    ¬ ∀ (calls : List ReoCall) (ctx : ReoContext),
      calls.foldlM (ReoContext.call ⟨16, 16, 5000, 0⟩) .init = some ctx →
        ∀ input ctx', ctx.algoEntry ⟨16, 16, 5000, 0⟩ input = some ctx' →
          CountsFollow ctx ctx' := by
  intro hall
  have hrun : ((waitingCalls.foldlM (ReoContext.call ⟨16, 16, 5000, 0⟩) .init).bind fun ctx =>
      (ctx.algoEntry ⟨16, 16, 5000, 0⟩
        (twoLinkInput (frameAt 0 2 20) (snapshotAt 3 30) noSnapshot)).map fun ctx' =>
          decide (CountsFollow ctx ctx')) = some false := by
    decide +kernel
  obtain ⟨ctx, hctx, hentry⟩ := Option.bind_eq_some_iff.1 hrun
  obtain ⟨ctx', hctx', hfalse⟩ := Option.map_eq_some_iff.1 hentry
  exact of_decide_eq_false hfalse (hall _ ctx hctx _ ctx' hctx')

end QcomModules.RxReo
