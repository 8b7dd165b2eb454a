import QcomModules.RxReo.ListSteps
import QcomModules.RxReo.WaitCounts

/-! The two lists are one queue in the order of the timestamps, whatever these are: the egress list
is its front, and a frame that is put into the ingress list is not before the end of the egress
list. -/

namespace QcomModules.RxReo

open Library List ReoListEntry ReoState

def ReoState.keys (s : ReoState) : List EntryKey :=
  s.entries.map ReoListEntry.key

/-- Each entry may follow the one before it, and the frame that is entering the end of the egress
list. -/
structure ReoState.InOrder (s : ReoState) : Prop where
  chain : s.keys.IsChain Follows
  needsEntry : ∀ {desc new}, s.phase = .entering desc new → desc.needsEntry = new.isSome
  reoParams : ∀ {desc entry}, s.phase = .entering desc (some entry) →
    entry.reoParams = desc.reoParams
  behind : ∀ {desc new}, s.phase = .entering desc new → desc.entersIngress = true →
    ∀ last ∈ s.egress.getLast?, compareGlobalTimestampsGte desc.globalTs last.globalTs = true

variable {config : ReoConfig} {s s' : ReoState} {desc : FrameDescriptor}
  {new : Option ReoListEntry} {now : BitVec 64} {ready : List ReoListEntry}

theorem ReoState.init_inOrder : ReoState.init.InOrder where
  chain := .nil
  needsEntry := fun h => by cases h
  reoParams := fun h => by cases h
  behind := fun h => by cases h

theorem ReoState.InOrder.of_keys (h : s.InOrder) (hkeys : s'.keys = s.keys)
    (hphase : ∀ desc new, s'.phase ≠ .entering desc new) : s'.InOrder where
  chain := by rw [hkeys]; exact h.chain
  needsEntry := fun hent => absurd hent (hphase _ _)
  reoParams := fun hent => absurd hent (hphase _ _)
  behind := fun hent => absurd hent (hphase _ _)

/-! ## Moves and ageouts -/

theorem keys_idle (hidle : s.phase = .idle) :
    s.keys = s.egress.map ReoListEntry.key ++ s.ingress.map ReoListEntry.key := by
  rw [ReoState.keys, ReoState.entries, hidle, Phase.ready_idle, append_nil,
    map_append]

theorem keys_entering (hent : s.phase = .entering desc new) :
    s.keys = s.egress.map ReoListEntry.key ++ s.ingress.map ReoListEntry.key := by
  rw [ReoState.keys, ReoState.entries, hent, Phase.ready_entering, append_nil,
    map_append]

theorem keys_moveIngress (hidle : s.phase = .idle) : (s.moveIngress config).keys = s.keys := by
  rw [keys_idle hidle, ← map_key_splitReady
    (s.ingress.length - config.ingressMaxListSize) s.ingress, ReoState.keys, ReoState.entries]
  change map ReoListEntry.key (s.egress ++ (if (splitIngress config s.ingress).1.isEmpty then
    Phase.idle else .moving (splitIngress config s.ingress).1).ready ++
      (splitIngress config s.ingress).2) = _
  rw [map_append, map_append, append_assoc]
  congr 2
  split
  · next hempty =>
      rw [List.isEmpty_iff] at hempty
      rw [splitIngress] at hempty
      rw [hempty]
      rfl
  · rfl

theorem phase_moveIngress (desc : FrameDescriptor) (new : Option ReoListEntry) :
    (s.moveIngress config).phase ≠ .entering desc new := by
  change (if (splitIngress config s.ingress).1.isEmpty then
    Phase.idle else .moving (splitIngress config s.ingress).1) ≠ _
  split <;> simp

theorem keys_moveEgress (hmoving : s.phase = .moving ready) :
    (s.moveEgress config ready).keys = s.keys := by
  rw [ReoState.keys, ReoState.keys, ReoState.entries, ReoState.entries, hmoving]
  change map ReoListEntry.key (joinEgress config s.egress ready ++ [] ++ s.ingress) = _
  rw [joinEgress, append_nil, map_append, map_key_handleEgressOverflow,
    ← map_append]
  rfl

theorem keys_ageout (hidle : s.phase = .idle) :
    ReoState.keys { s with ingress := ageoutEntries config now s.ingress, phase := .idle } =
      s.keys := by
  rw [keys_idle hidle, keys_idle rfl, map_key_ageoutEntries]

/-! ## A frame enters -/

theorem needsEntry_prepared (s : ReoState) (desc : FrameDescriptor) :
    desc.needsEntry = (s.prepared desc).isSome := by
  rw [prepared]
  cases desc.needsEntry <;> rfl

theorem prepared_eq_some {entry : ReoListEntry} (h : s.prepared desc = some entry) :
    entry = prepareListEntry s.allocated desc := by
  rw [prepared] at h
  split at h
  · exact (Option.some.inj h).symm
  · cases h

theorem checkSanityList_of_isChain {list : List ReoListEntry}
    (h : (list.map ReoListEntry.key).IsChain Follows) : checkSanityList list = true := by
  induction list with
  | nil => rfl
  | cons prev list ih =>
    cases list with
    | nil => rfl
    | cons cur list =>
      rw [map_cons, map_cons, isChain_cons_cons] at h
      rw [checkSanityList, Bool.and_eq_true]
      exact ⟨h.1, ih h.2⟩

theorem ReoState.InOrder.egress_chain (h : s.InOrder) :
    (s.egress.map ReoListEntry.key).IsChain Follows := by
  have hchain := h.chain
  rw [ReoState.keys, ReoState.entries, append_assoc, map_append] at hchain
  exact hchain.left_of_append

theorem perLinkCount_egressEntry_le (marked desc : FrameDescriptor) (id : ℕ)
    (leastGreater : ReoListEntry) (l : Fin MAX_MLO_LINKS) :
    (egressEntry marked (prepareListEntry id desc) leastGreater).waitCount.perLinkCount l ≤
      desc.waitCount.perLinkCount l := by
  have hbound : (egressEntry marked (prepareListEntry id desc) leastGreater).waitCount =
      ((prepareListEntry id desc).boundBy leastGreater.waitCount).waitCount := by
    unfold egressEntry
    rfl
  rw [hbound, perLinkCount_boundBy]
  exact Nat.min_le_left _ _

def FrameDescriptor.key (desc : FrameDescriptor) (id : ℕ) : EntryKey where
  id := id
  reoParams := desc.reoParams
  isParallelRx := desc.isParallelRx

theorem ReoState.InOrder.enterEgress_cases (h : s.InOrder)
    (hs : s.enterEgress config desc = some s') :
    (s' =
        { s with
          allocated := s.allocated + 1
          queued := s.queued ++
            queuedIds .egress (isStaleFrame s.lastReleasedFrame desc) (s.prepared desc)
          phase := .entering (isStaleFrame s.lastReleasedFrame desc) (s.prepared desc) } ∧
      ((isStaleFrame s.lastReleasedFrame desc).isStale = false →
        (s.prepared desc).isSome = true → ∀ last ∈ s.egress.getLast?,
          compareGlobalTimestampsGte desc.globalTs last.globalTs = true)) ∨
    ∃ egress waitCount, (s.prepared desc).isSome = true ∧
      (isStaleFrame s.lastReleasedFrame desc).isStale = false ∧
      newerEntries desc.globalTs s.egress ≠ [] ∧
      egress.map ReoListEntry.key =
        (olderEntries desc.globalTs s.egress).map ReoListEntry.key ++
          (isStaleFrame s.lastReleasedFrame desc).key s.allocated ::
            (newerEntries desc.globalTs s.egress).map ReoListEntry.key ∧
      (∀ l, waitCount.perLinkCount l ≤ desc.waitCount.perLinkCount l) ∧
      s' =
        { s with
          egress := egress
          allocated := s.allocated + 1
          queued := s.queued ++ [s.allocated]
          phase := .entering
            { isStaleFrame s.lastReleasedFrame desc with
              waitCount := waitCount
              queuedList := .egress } (s.prepared desc) } := by
  obtain ⟨r, hr, rfl⟩ := Option.map_eq_some_iff.1 hs
  obtain ⟨rfl, hlast⟩ | ⟨entry, first, newer, hnew, hfresh, hnewer, rfl⟩ :=
    updateEgressList_cases (needsEntry_prepared s desc) hr
  · left
    refine ⟨?_, hlast⟩
    rw [if_pos ⟨rfl, checkSanityList_of_isChain h.egress_chain⟩]
  · right
    have hentry : entry = prepareListEntry s.allocated desc := prepared_eq_some hnew
    have hkey : (egressEntry (isStaleFrame s.lastReleasedFrame desc) entry first).key =
        (isStaleFrame s.lastReleasedFrame desc).key s.allocated := by
      obtain ⟨stale, parallel, hd⟩ := isStaleFrame_eq s.lastReleasedFrame desc
      rw [hd, hentry]
      have hbound := key_boundBy first.waitCount (prepareListEntry s.allocated desc)
      exact congrArg (fun key : EntryKey => { key with isParallelRx := parallel }) hbound
    have hkeys : (handleEgressOverflow config (olderEntries desc.globalTs s.egress ++
          egressEntry (isStaleFrame s.lastReleasedFrame desc) entry first ::
            newerEntries desc.globalTs s.egress)).map ReoListEntry.key =
        (olderEntries desc.globalTs s.egress).map ReoListEntry.key ++
          (isStaleFrame s.lastReleasedFrame desc).key s.allocated ::
            (newerEntries desc.globalTs s.egress).map ReoListEntry.key := by
      rw [map_key_handleEgressOverflow, map_append, map_cons, hkey]
    refine ⟨_, (egressEntry (isStaleFrame s.lastReleasedFrame desc) entry first).waitCount,
      by rw [hnew]; rfl, hfresh, by rw [hnewer]; simp, hkeys, ?_, ?_⟩
    · rw [hentry]
      exact perLinkCount_egressEntry_le _ _ _ _
    have hchain : (((olderEntries desc.globalTs s.egress).map ReoListEntry.key ++
        (isStaleFrame s.lastReleasedFrame desc).key s.allocated ::
          (newerEntries desc.globalTs s.egress).map ReoListEntry.key)).IsChain Follows := by
      have hts : ((isStaleFrame s.lastReleasedFrame desc).key s.allocated).globalTs =
          desc.globalTs := globalTs_isStaleFrame
      have hinsert := @isChain_insertKey [] s.egress []
        ((isStaleFrame s.lastReleasedFrame desc).key s.allocated)
        (by simpa using h.egress_chain) (by simp) (.inl rfl)
      rwa [hts, nil_append, append_nil] at hinsert
    rw [if_pos ⟨rfl, checkSanityList_of_isChain (by rw [hkeys]; exact hchain)⟩, hnew]
    rw [hentry]
    rfl

theorem map_key_older_newer (tsNew : BitVec 32) (list : List ReoListEntry) :
    (olderEntries tsNew list).map ReoListEntry.key ++
        (newerEntries tsNew list).map ReoListEntry.key = list.map ReoListEntry.key := by
  rw [← map_append, older_append_newer]

theorem ReoState.enterIngress_cases (hneed : desc.needsEntry = new.isSome)
    (hs : s.enterIngress now desc new = some s') :
    (desc.entersIngress = false ∧ ∃ ingress,
      ingress.map ReoListEntry.key = s.ingress.map ReoListEntry.key ∧
      s' =
        { s with
          ingress := ingress
          queued := s.queued ++ queuedIds .ingress desc new
          phase := .idle }) ∨
    ∃ entry ingress, new = some entry ∧ desc.entersIngress = true ∧
      ingress.map ReoListEntry.key =
        (olderEntries desc.globalTs s.ingress).map ReoListEntry.key ++
          { entry.key with isParallelRx := desc.isParallelRx } ::
            (newerEntries desc.globalTs s.ingress).map ReoListEntry.key ∧
      s' =
        { s with
          ingress := ingress
          queued := s.queued ++ [entry.id]
          phase := .idle } := by
  obtain ⟨r, hr, rfl⟩ := Option.map_eq_some_iff.1 hs
  obtain ⟨hent, rfl⟩ | ⟨entry, rfl, hent, rfl⟩ := updateIngressList_cases hneed hr
  · refine .inl ⟨hent, _, ?_, rfl⟩
    rw [map_append, map_key_map (key_boundBy _),
      map_key_map (key_countDown _ _), map_key_older_newer]
  · refine .inr ⟨entry, _, rfl, hent, ?_, rfl⟩
    have hkey : (ingressEntry now desc entry (newerEntries desc.globalTs s.ingress)).key =
        { entry.key with isParallelRx := desc.isParallelRx } :=
      congrArg (fun key : EntryKey => { key with isParallelRx := desc.isParallelRx })
        (key_boundNew entry (newerEntries desc.globalTs s.ingress))
    rw [map_append, map_cons, hkey, map_key_map (key_boundBy _),
      map_key_map (key_countDown _ _)]

/-! ## An entry is released -/

variable {defer : ReoListEntry → Bool}

theorem ReoState.release_cases (hs : s.release defer = some s') :
    s' = s ∨ ∃ entry egress lastReleasedFrame, s.egress = entry :: egress ∧
      s' =
        { s with
          egress := egress
          lastReleasedFrame := lastReleasedFrame
          released := s.released ++ [entry] } ∧
      (lastReleasedFrame = some entry.reoParams ∧ (∀ last ∈ s.lastReleasedFrame,
          compareGlobalTimestampsGte entry.globalTs last.globalTimestamp = true) ∨
        lastReleasedFrame = s.lastReleasedFrame ∧ entry.isParallelRx = true ∧
          ∃ last ∈ s.lastReleasedFrame,
            compareGlobalTimestampsGte entry.globalTs last.globalTimestamp = false) := by
  obtain ⟨r, hr, rfl⟩ := Option.map_eq_some_iff.1 hs
  cases hegress : s.egress with
  | nil =>
    rw [hegress] at hr
    obtain rfl : Release.stopped = r := Option.some.inj hr
    exact .inl rfl
  | cons entry egress =>
    rw [hegress] at hr
    unfold releaseFirstEntry at hr
    dsimp only at hr
    split at hr
    · obtain rfl : Release.stopped = r := Option.some.inj hr
      exact .inl rfl
    · split at hr
      · obtain rfl : Release.stopped = r := Option.some.inj hr
        exact .inl rfl
      · right
        cases hlast : s.lastReleasedFrame with
        | none =>
          rw [hlast] at hr
          obtain rfl := Option.some.inj hr
          exact ⟨entry, egress, _, rfl, rfl, .inl ⟨rfl, fun last hmem => by cases hmem⟩⟩
        | some last =>
          rw [hlast] at hr
          dsimp only at hr
          split at hr
          · next hgte =>
              obtain rfl := Option.some.inj hr
              refine ⟨entry, egress, _, rfl, rfl, .inl ⟨rfl, fun l hmem => ?_⟩⟩
              obtain rfl := Option.some.inj hmem
              exact hgte
          · next hgte =>
              split at hr
              · next hpar =>
                  obtain rfl := Option.some.inj hr
                  exact ⟨entry, egress, _, rfl, rfl,
                    .inr ⟨rfl, hpar, last, rfl, by simpa using hgte⟩⟩
              · cases hr

theorem ReoState.release_eq_none (hs : s.release defer = none) :
    ∃ entry ∈ s.egress, entry.isParallelRx = false ∧ ∃ last ∈ s.lastReleasedFrame,
      compareGlobalTimestampsGte entry.globalTs last.globalTimestamp = false := by
  rw [ReoState.release, Option.map_eq_none_iff] at hs
  cases hegress : s.egress with
  | nil =>
    rw [hegress] at hs
    cases hs
  | cons entry egress =>
    rw [hegress] at hs
    unfold releaseFirstEntry at hs
    dsimp only at hs
    split at hs
    · cases hs
    · split at hs
      · cases hs
      · refine ⟨entry, mem_cons_self, ?_⟩
        cases hlast : s.lastReleasedFrame with
        | none =>
          rw [hlast] at hs
          cases hs
        | some last =>
          rw [hlast] at hs
          dsimp only at hs
          split at hs
          · cases hs
          · next hgte =>
              split at hs
              · cases hs
              · next hpar => exact ⟨by simpa using hpar, last, rfl, by simpa using hgte⟩

/-! ## The order through all parts -/

theorem ReoState.InOrder.enterEgress (h : s.InOrder) (hidle : s.phase = .idle)
    (hs : s.enterEgress config desc = some s') : s'.InOrder := by
  obtain ⟨rfl, hlast⟩ | ⟨egress, waitCount, hsome, hfresh, hne, hkeys, -, rfl⟩ :=
    h.enterEgress_cases hs
  · refine ⟨?_, ?_, ?_, ?_⟩
    · rw [keys_entering rfl]
      rw [← keys_idle hidle]
      exact h.chain
    · intro d new hphase
      obtain ⟨rfl, rfl⟩ := Phase.entering.inj hphase
      rw [needsEntry_isStaleFrame, ← needsEntry_prepared]
    · intro d entry hphase
      obtain ⟨rfl, hnew⟩ := Phase.entering.inj hphase
      rw [prepared_eq_some hnew, reoParams_isStaleFrame]
      rfl
    · intro d new hphase henters last hmem
      obtain ⟨rfl, rfl⟩ := Phase.entering.inj hphase
      rw [globalTs_isStaleFrame]
      refine hlast ?_ ?_ last hmem
      · rw [FrameDescriptor.entersIngress] at henters
        grind
      · rw [← needsEntry_prepared, ← @needsEntry_isStaleFrame s.lastReleasedFrame desc,
          FrameDescriptor.needsEntry]
        rw [FrameDescriptor.entersIngress] at henters
        grind
  · have hts : ((isStaleFrame s.lastReleasedFrame desc).key s.allocated).globalTs =
        desc.globalTs := globalTs_isStaleFrame
    refine ⟨?_, ?_, ?_, ?_⟩
    · rw [keys_entering rfl, hkeys]
      have hinsert := @isChain_insertKey [] s.egress s.ingress
        ((isStaleFrame s.lastReleasedFrame desc).key s.allocated)
        (by
          have hchain := h.chain
          rw [keys_idle hidle, ← map_append] at hchain
          simpa using hchain) (by simp) (.inr (by rwa [hts]))
      rw [hts] at hinsert
      rw [append_assoc, cons_append, ← map_append]
      exact hinsert
    · intro d new hphase
      obtain ⟨rfl, rfl⟩ := Phase.entering.inj hphase
      exact needsEntry_isStaleFrame.trans (needsEntry_prepared s desc)
    · intro d entry hphase
      obtain ⟨rfl, hnew⟩ := Phase.entering.inj hphase
      rw [prepared_eq_some hnew]
      exact reoParams_isStaleFrame.symm
    · intro d new hphase henters
      obtain ⟨rfl, rfl⟩ := Phase.entering.inj hphase
      rw [FrameDescriptor.entersIngress] at henters
      simp at henters

theorem ReoState.InOrder.enterIngress (h : s.InOrder) (hent : s.phase = .entering desc new)
    (hs : s.enterIngress now desc new = some s') : s'.InOrder := by
  obtain ⟨-, ingress, hkeys, rfl⟩ | ⟨entry, ingress, rfl, henters, hkeys, rfl⟩ :=
    s.enterIngress_cases (h.needsEntry hent) hs
  · refine h.of_keys ?_ (by simp)
    rw [keys_idle rfl, keys_entering hent, hkeys]
  · have hts : EntryKey.globalTs { entry.key with isParallelRx := desc.isParallelRx } =
        desc.globalTs := congrArg MgmtRxReoParams.globalTimestamp (h.reoParams hent)
    refine ⟨?_, by simp, by simp, by simp⟩
    rw [keys_idle rfl, hkeys]
    have hinsert := @isChain_insertKey s.egress s.ingress []
      { entry.key with isParallelRx := desc.isParallelRx }
      (by
        have hchain := h.chain
        rw [keys_entering hent, ← map_append] at hchain
        simpa using hchain) (by rw [hts]; exact h.behind hent henters) (.inl rfl)
    rwa [hts, append_nil, map_append, append_assoc] at hinsert

theorem ReoState.InOrder.release (h : s.InOrder) (hs : s.release defer = some s') : s'.InOrder := by
  obtain rfl | ⟨entry, egress, lastReleasedFrame, hegress, rfl, -⟩ := s.release_cases hs
  · exact h
  · refine ⟨?_, h.needsEntry, h.reoParams, ?_⟩
    · have hchain := h.chain
      rw [ReoState.keys, ReoState.entries, hegress] at hchain
      exact hchain.tail
    · intro d new hphase henters last hmem
      refine h.behind hphase henters last ?_
      rw [hegress, getLast?_cons, Option.mem_def]
      rw [Option.mem_def] at hmem
      rw [hmem]
      rfl

end QcomModules.RxReo
