import QcomModules.Library.Runs
import QcomModules.RxReo.ListOrder

/-! Frames of one window of timestamps: the lists are sorted, frames are released in the order of
their timestamps but for those received in parallel, and no assertion fails. -/

namespace QcomModules.RxReo

open Library List

/-! ## Windows of timestamps -/

def sinceBase (base ts : BitVec 32) : ℕ :=
  (ts - base).toNat

/-- The timestamp lies in the window that starts at `base`. -/
def InWindow (base ts : BitVec 32) : Prop :=
  sinceBase base ts < 2 ^ 31

instance (base ts : BitVec 32) : Decidable (InWindow base ts) :=
  inferInstanceAs (Decidable (_ < _))

variable {ts1 ts2 ts : BitVec 32} {action : ReoAction}

theorem gte_iff_sinceBase {base : BitVec 32} (h1 : InWindow base ts1) (h2 : InWindow base ts2) :
    compareGlobalTimestampsGte ts1 ts2 = true ↔ sinceBase base ts2 ≤ sinceBase base ts1 := by
  unfold InWindow sinceBase at h1 h2
  unfold compareGlobalTimestampsGte serialGte sinceBase
  rw [decide_eq_true_eq]
  bv_omega

theorem not_gte_iff_sinceBase {base : BitVec 32} (h1 : InWindow base ts1) (h2 : InWindow base ts2) :
    compareGlobalTimestampsGte ts1 ts2 = false ↔ sinceBase base ts1 < sinceBase base ts2 := by
  rw [← Bool.not_eq_true, gte_iff_sinceBase h1 h2, Nat.not_le]

def WellTimed (base : BitVec 32) (reoParams : MgmtRxReoParams) : Prop :=
  InWindow base reoParams.globalTimestamp ∧ reoParams.startTimestamp = reoParams.globalTimestamp

instance (base : BitVec 32) (reoParams : MgmtRxReoParams) : Decidable (WellTimed base reoParams) :=
  inferInstanceAs (Decidable (_ ∧ _))

variable {config : ReoConfig} {base : BitVec 32} {s s' : ReoState} {desc : FrameDescriptor}
  {new : Option ReoListEntry} {now : BitVec 64} {lastReleasedFrame : Option MgmtRxReoParams}

/-! ## Stale frames -/

theorem isStaleFrame_stale (h : WellTimed base desc.reoParams)
    (hlast : ∀ last ∈ lastReleasedFrame, WellTimed base last)
    (hstale : (isStaleFrame lastReleasedFrame desc).isStale = true) :
    ∃ last ∈ lastReleasedFrame,
      sinceBase base desc.globalTs < sinceBase base last.globalTimestamp := by
  unfold isStaleFrame at hstale
  dsimp only at hstale
  split at hstale
  · cases hstale
  · cases lastReleasedFrame with
    | none => cases hstale
    | some last =>
      dsimp only at hstale
      split at hstale
      · cases hstale
      · have hgte := (Bool.not_eq_true' _).mp hstale
        rw [h.2, (hlast last rfl).2, not_gte_iff_sinceBase h.1 (hlast last rfl).1] at hgte
        exact ⟨last, rfl, hgte⟩

theorem isStaleFrame_fresh (h : WellTimed base desc.reoParams)
    (hlast : ∀ last ∈ lastReleasedFrame, WellTimed base last) (hreq : desc.reoRequired = true)
    (hfresh : (isStaleFrame lastReleasedFrame desc).isStale = false) :
    (isStaleFrame lastReleasedFrame desc).isParallelRx = true ∨ ∀ last ∈ lastReleasedFrame,
      sinceBase base last.globalTimestamp ≤ sinceBase base desc.globalTs := by
  cases lastReleasedFrame with
  | none => exact .inr fun last hmem => by cases hmem
  | some last =>
    unfold isStaleFrame at hfresh ⊢
    simp only [hreq, Bool.not_true, Bool.false_eq_true, if_false] at hfresh ⊢
    split at hfresh
    · next hpar =>
        left
        rw [if_pos hpar]
    · right
      have hgte := (Bool.not_eq_false' _).mp hfresh
      rw [h.2, (hlast last rfl).2, gte_iff_sinceBase h.1 (hlast last rfl).1] at hgte
      intro l hl
      obtain rfl := Option.some.inj hl
      exact hgte

/-! ## What holds in every state -/

/-- The frames in the lists and the last released one are in the window; only frames received in
parallel with it are older than the last released one, which no released frame is after. -/
structure ReoState.Timely (base : BitVec 32) (s : ReoState) : Prop where
  inOrder : s.InOrder
  timed : ∀ key ∈ s.keys, WellTimed base key.reoParams
  lastTimed : ∀ last ∈ s.lastReleasedFrame, WellTimed base last
  enteringTimed : ∀ {desc new}, s.phase = .entering desc new → WellTimed base desc.reoParams
  parallel : ∀ key ∈ s.keys, ∀ last ∈ s.lastReleasedFrame,
    sinceBase base key.globalTs < sinceBase base last.globalTimestamp → key.isParallelRx = true
  stale : ∀ {desc new}, s.phase = .entering desc new → desc.isStale = true →
    ∃ last ∈ s.lastReleasedFrame,
      sinceBase base desc.globalTs < sinceBase base last.globalTimestamp
  fresh : ∀ {desc new}, s.phase = .entering desc new → desc.entersIngress = true →
    desc.isParallelRx = true ∨ ∀ last ∈ s.lastReleasedFrame,
      sinceBase base last.globalTimestamp ≤ sinceBase base desc.globalTs
  newest : ∀ entry ∈ s.released, ∃ last ∈ s.lastReleasedFrame,
    sinceBase base entry.globalTs ≤ sinceBase base last.globalTimestamp
  released : s.released.Pairwise fun earlier later => later.isParallelRx = false →
    sinceBase base earlier.globalTs ≤ sinceBase base later.globalTs

theorem ReoState.init_timely (base : BitVec 32) : (ReoState.init).Timely base where
  inOrder := ReoState.init_inOrder
  timed := fun key hmem => by cases hmem
  lastTimed := fun last hmem => by cases hmem
  enteringTimed := fun hent => by cases hent
  parallel := fun key hmem => by cases hmem
  stale := fun hent => by cases hent
  fresh := fun hent => by cases hent
  newest := fun entry hmem => by cases hmem
  released := .nil

def NotAfter (base : BitVec 32) (first second : EntryKey) : Prop :=
  sinceBase base first.globalTs ≤ sinceBase base second.globalTs

instance (base : BitVec 32) : Trans (NotAfter base) (NotAfter base) (NotAfter base) :=
  ⟨fun h h' => Nat.le_trans h h'⟩

theorem ReoState.Timely.sorted (h : s.Timely base) : s.keys.Pairwise (NotAfter base) := by
  refine isChain_iff_pairwise.1 (h.inOrder.chain.imp_of_mem_imp ?_)
  intro first second hfirst hsecond hfollows
  exact (gte_iff_sinceBase (h.timed second hsecond).1 (h.timed first hfirst).1).1 hfollows

/-- Where the frames, the last released one and the released ones stay and no frame is entering,
nothing changes. -/
theorem ReoState.Timely.of_keys (h : s.Timely base) (hkeys : s'.keys = s.keys)
    (hlast : s'.lastReleasedFrame = s.lastReleasedFrame) (hrel : s'.released = s.released)
    (hphase : ∀ desc new, s'.phase ≠ .entering desc new) : s'.Timely base where
  inOrder := h.inOrder.of_keys hkeys hphase
  timed := by rw [hkeys]; exact h.timed
  lastTimed := by rw [hlast]; exact h.lastTimed
  enteringTimed := fun hent => absurd hent (hphase _ _)
  parallel := by rw [hkeys, hlast]; exact h.parallel
  stale := fun hent => absurd hent (hphase _ _)
  fresh := fun hent => absurd hent (hphase _ _)
  newest := by rw [hrel, hlast]; exact h.newest
  released := by rw [hrel]; exact h.released

theorem mem_insertKey {list post : List ReoListEntry} {key key' : EntryKey}
    (hmem : key' ∈ (olderEntries ts list).map ReoListEntry.key ++
      key :: ((newerEntries ts list).map ReoListEntry.key ++ post.map ReoListEntry.key)) :
    key' = key ∨ key' ∈ list.map ReoListEntry.key ++ post.map ReoListEntry.key := by
  rw [← map_key_older_newer ts list]
  simp only [mem_append, mem_cons] at hmem ⊢
  tauto

theorem reoRequired_of_entersIngress (h : desc.entersIngress = true) :
    desc.isStale = false ∧ desc.reoRequired = true := by
  rw [FrameDescriptor.entersIngress] at h
  grind

theorem reoRequired_of_needsEntry (h : desc.needsEntry = true) : desc.reoRequired = true := by
  rw [FrameDescriptor.needsEntry] at h
  grind

theorem ReoState.Timely.enterEgress (h : s.Timely base) (hidle : s.phase = .idle)
    (htimed : WellTimed base desc.reoParams) (hs : s.enterEgress config desc = some s') :
    s'.Timely base := by
  have hinOrder := h.inOrder.enterEgress hidle hs
  obtain ⟨heq, -⟩ | ⟨egress, waitCount, hsome, hfresh, -, hkeys, -, heq⟩ :=
    h.inOrder.enterEgress_cases hs
  · have hphase : s'.phase =
        .entering (isStaleFrame s.lastReleasedFrame desc) (s.prepared desc) := by rw [heq]
    have hsame : s'.keys = s.keys := by
      rw [keys_entering hphase, keys_idle hidle, heq]
    have hlast : s'.lastReleasedFrame = s.lastReleasedFrame := by rw [heq]
    have hrel : s'.released = s.released := by rw [heq]
    refine
      { inOrder := hinOrder
        timed := by rw [hsame]; exact h.timed
        lastTimed := by rw [hlast]; exact h.lastTimed
        enteringTimed := ?_
        parallel := by rw [hsame, hlast]; exact h.parallel
        stale := ?_
        fresh := ?_
        newest := by rw [hrel, hlast]; exact h.newest
        released := by rw [hrel]; exact h.released }
    · intro d new hent
      obtain ⟨rfl, -⟩ := Phase.entering.inj (hphase.symm.trans hent)
      rwa [reoParams_isStaleFrame]
    · intro d new hent hstale
      obtain ⟨rfl, -⟩ := Phase.entering.inj (hphase.symm.trans hent)
      rw [globalTs_isStaleFrame, hlast]
      exact isStaleFrame_stale htimed h.lastTimed hstale
    · intro d new hent henters
      obtain ⟨rfl, -⟩ := Phase.entering.inj (hphase.symm.trans hent)
      obtain ⟨hfresh, hreq⟩ := reoRequired_of_entersIngress henters
      rw [reoRequired_isStaleFrame] at hreq
      rw [globalTs_isStaleFrame, hlast]
      exact isStaleFrame_fresh htimed h.lastTimed hreq hfresh
  · have hphase : s'.phase = .entering
        { isStaleFrame s.lastReleasedFrame desc with
          waitCount := waitCount
          queuedList := .egress } (s.prepared desc) := by rw [heq]
    have hlast : s'.lastReleasedFrame = s.lastReleasedFrame := by rw [heq]
    have hrel : s'.released = s.released := by rw [heq]
    have hreq : desc.reoRequired = true :=
      reoRequired_of_needsEntry (by rwa [needsEntry_prepared s])
    have hkey (key) (hmem : key ∈ s'.keys) :
        key = (isStaleFrame s.lastReleasedFrame desc).key s.allocated ∨ key ∈ s.keys := by
      rw [keys_entering hphase, heq, hkeys, append_assoc, cons_append] at hmem
      rw [keys_idle hidle]
      exact mem_insertKey hmem
    refine
      { inOrder := hinOrder
        timed := ?_
        lastTimed := by rw [hlast]; exact h.lastTimed
        enteringTimed := ?_
        parallel := ?_
        stale := ?_
        fresh := ?_
        newest := by rw [hrel, hlast]; exact h.newest
        released := by rw [hrel]; exact h.released }
    · intro key hmem
      obtain rfl | hold := hkey key hmem
      · rwa [FrameDescriptor.key, reoParams_isStaleFrame]
      · exact h.timed key hold
    · intro d new hent
      obtain ⟨rfl, -⟩ := Phase.entering.inj (hphase.symm.trans hent)
      change WellTimed base (isStaleFrame s.lastReleasedFrame desc).reoParams
      rwa [reoParams_isStaleFrame]
    · intro key hmem last hl hlt
      rw [hlast] at hl
      obtain rfl | hold := hkey key hmem
      · obtain hpar | hle := isStaleFrame_fresh htimed h.lastTimed hreq hfresh
        · exact hpar
        · have hts : ((isStaleFrame s.lastReleasedFrame desc).key s.allocated).globalTs =
              desc.globalTs := globalTs_isStaleFrame
          rw [hts] at hlt
          exact absurd hlt (Nat.not_lt.2 (hle last hl))
      · exact h.parallel key hold last hl hlt
    · intro d new hent hstale
      obtain ⟨rfl, -⟩ := Phase.entering.inj (hphase.symm.trans hent)
      exact absurd hstale (by rw [hfresh]; simp)
    · intro d new hent henters
      obtain ⟨rfl, -⟩ := Phase.entering.inj (hphase.symm.trans hent)
      rw [FrameDescriptor.entersIngress] at henters
      simp at henters

theorem ReoState.Timely.enterIngress (h : s.Timely base) (hent : s.phase = .entering desc new)
    (hs : s.enterIngress now desc new = some s') : s'.Timely base := by
  have hinOrder := h.inOrder.enterIngress hent hs
  obtain ⟨-, ingress, hkeys, heq⟩ | ⟨entry, ingress, hnew, henters, hkeys, heq⟩ :=
    s.enterIngress_cases (h.inOrder.needsEntry hent) hs
  · have hphase : s'.phase = .idle := by rw [heq]
    refine h.of_keys ?_ (by rw [heq]) (by rw [heq]) (by simp [hphase])
    rw [keys_idle hphase, keys_entering hent, heq, hkeys]
  · have hphase : s'.phase = .idle := by rw [heq]
    have hlast : s'.lastReleasedFrame = s.lastReleasedFrame := by rw [heq]
    have hrel : s'.released = s.released := by rw [heq]
    have hparams : entry.reoParams = desc.reoParams := h.inOrder.reoParams (hnew ▸ hent)
    have hkey (key) (hmem : key ∈ s'.keys) :
        key = { entry.key with isParallelRx := desc.isParallelRx } ∨ key ∈ s.keys := by
      rw [keys_idle hphase, heq, hkeys] at hmem
      rw [keys_entering hent, ← map_key_older_newer desc.globalTs s.ingress]
      simp only [mem_append, mem_cons] at hmem ⊢
      tauto
    refine
      { inOrder := hinOrder
        timed := ?_
        lastTimed := by rw [hlast]; exact h.lastTimed
        enteringTimed := fun hidle => by rw [hphase] at hidle; cases hidle
        parallel := ?_
        stale := fun hidle => by rw [hphase] at hidle; cases hidle
        fresh := fun hidle => by rw [hphase] at hidle; cases hidle
        newest := by rw [hrel, hlast]; exact h.newest
        released := by rw [hrel]; exact h.released }
    · intro key hmem
      obtain rfl | hold := hkey key hmem
      · have hdesc := h.enteringTimed hent
        rw [← hparams] at hdesc
        exact hdesc
      · exact h.timed key hold
    · intro key hmem last hl hlt
      rw [hlast] at hl
      obtain rfl | hold := hkey key hmem
      · obtain hpar | hle := h.fresh hent henters
        · exact hpar
        · have hts : EntryKey.globalTs { entry.key with isParallelRx := desc.isParallelRx } =
              desc.globalTs := congrArg MgmtRxReoParams.globalTimestamp hparams
          rw [hts] at hlt
          exact absurd hlt (Nat.not_lt.2 (hle last hl))
      · exact h.parallel key hold last hl hlt

/-! ## Releases -/

theorem mem_keys_of_egress {entry : ReoListEntry} (h : entry ∈ s.egress) : entry.key ∈ s.keys := by
  rw [ReoState.keys, ReoState.entries, append_assoc]
  exact mem_map_of_mem (mem_append_left _ h)

theorem mem_keys_of_ingress {entry : ReoListEntry} (h : entry ∈ s.ingress) :
    entry.key ∈ s.keys := by
  rw [ReoState.keys, ReoState.entries]
  exact mem_map_of_mem (mem_append_right _ h)

theorem ReoState.Timely.head_le (h : s.Timely base) {entry : ReoListEntry}
    {egress : List ReoListEntry} (hegress : s.egress = entry :: egress) :
    ∀ key ∈ s.keys, NotAfter base entry.key key := by
  have hsorted := h.sorted
  have hkeys : s.keys = entry.key ::
      (egress ++ s.phase.ready ++ s.ingress).map ReoListEntry.key := by
    rw [ReoState.keys, ReoState.entries, hegress]
    rfl
  rw [hkeys, pairwise_cons] at hsorted
  rw [hkeys]
  intro key hmem
  obtain rfl | hmem := mem_cons.1 hmem
  · exact Nat.le_refl _
  · exact hsorted.1 key hmem

theorem ReoState.Timely.release {defer : ReoListEntry → Bool} (h : s.Timely base)
    (hs : s.release defer = some s') : s'.Timely base := by
  have hinOrder := h.inOrder.release hs
  obtain rfl | ⟨entry, egress, lastReleasedFrame, hegress, heq, hcases⟩ := s.release_cases hs
  · exact h
  have hphase : s'.phase = s.phase := by rw [heq]
  have hlast : s'.lastReleasedFrame = lastReleasedFrame := by rw [heq]
  have hrel : s'.released = s.released ++ [entry] := by rw [heq]
  have hmemEgress : entry ∈ s.egress := hegress ▸ mem_cons_self
  have hmemKeys : entry.key ∈ s.keys := mem_keys_of_egress hmemEgress
  have hentry : WellTimed base entry.reoParams := h.timed _ hmemKeys
  have hkey (key) (hmem : key ∈ s'.keys) : key ∈ s.keys := by
    rw [ReoState.keys, ReoState.entries, heq] at hmem
    rw [ReoState.keys, ReoState.entries, hegress]
    exact mem_cons_of_mem _ hmem
  have hhead := h.head_le hegress
  obtain ⟨rfl, hgte⟩ | ⟨rfl, hpar, last, hl, hgte⟩ := hcases
  · have hle (last) (hl : last ∈ s.lastReleasedFrame) :
        sinceBase base last.globalTimestamp ≤ sinceBase base entry.globalTs :=
      (gte_iff_sinceBase hentry.1 (h.lastTimed last hl).1).1 (hgte last hl)
    have hnewest (r) (hr : r ∈ s.released) :
        sinceBase base r.globalTs ≤ sinceBase base entry.globalTs := by
      obtain ⟨last, hl, hrle⟩ := h.newest r hr
      exact Nat.le_trans hrle (hle last hl)
    refine
      { inOrder := hinOrder
        timed := fun key hmem => h.timed key (hkey key hmem)
        lastTimed := ?_
        enteringTimed := by rw [hphase]; exact h.enteringTimed
        parallel := ?_
        stale := ?_
        fresh := ?_
        newest := ?_
        released := ?_ }
    · rw [hlast]
      intro last hl
      obtain rfl := Option.some.inj hl
      exact hentry
    · rw [hlast]
      intro key hmem last hl hlt
      obtain rfl := Option.some.inj hl
      exact absurd hlt (Nat.not_lt.2 (hhead key (hkey key hmem)))
    · rw [hphase, hlast]
      intro d new hent hstale
      obtain ⟨last, hl, hlt⟩ := h.stale hent hstale
      exact ⟨_, rfl, Nat.lt_of_lt_of_le hlt (hle last hl)⟩
    · rw [hphase, hlast]
      intro d new hent henters
      right
      intro last hl
      obtain rfl := Option.some.inj hl
      -- the frame is not before the end of the egress list, so not before its first entry
      obtain ⟨end', hend⟩ : ∃ end', s.egress.getLast? = some end' := by
        rw [hegress]
        exact ⟨_, getLast?_cons⟩
      have hmem : end'.key ∈ s.keys := mem_keys_of_egress (mem_of_getLast? hend)
      have hbehind := (gte_iff_sinceBase (h.enteringTimed hent).1 (h.timed _ hmem).1).1
        (h.inOrder.behind hent henters end' hend)
      exact Nat.le_trans (hhead _ hmem) hbehind
    · rw [hrel, hlast]
      intro r hr
      obtain hr | hr := mem_append.1 hr
      · exact ⟨_, rfl, hnewest r hr⟩
      · exact ⟨_, rfl, by rw [mem_singleton.1 hr]; exact Nat.le_refl _⟩
    · rw [hrel, pairwise_append]
      refine ⟨h.released, pairwise_singleton .., fun r hr e he _ => ?_⟩
      rw [mem_singleton.1 he]
      exact hnewest r hr
  · have hlt := (not_gte_iff_sinceBase hentry.1 (h.lastTimed last hl).1).1 hgte
    refine
      { inOrder := hinOrder
        timed := fun key hmem => h.timed key (hkey key hmem)
        lastTimed := by rw [hlast]; exact h.lastTimed
        enteringTimed := by rw [hphase]; exact h.enteringTimed
        parallel := by rw [hlast]; exact fun key hmem => h.parallel key (hkey key hmem)
        stale := by rw [hphase, hlast]; exact h.stale
        fresh := by rw [hphase, hlast]; exact h.fresh
        newest := ?_
        released := ?_ }
    · rw [hrel, hlast]
      intro r hr
      obtain hr | hr := mem_append.1 hr
      · exact h.newest r hr
      · exact ⟨last, hl, by rw [mem_singleton.1 hr]; exact Nat.le_of_lt hlt⟩
    · rw [hrel, pairwise_append]
      refine ⟨h.released, pairwise_singleton .., fun r hr e he hnot => ?_⟩
      rw [mem_singleton.1 he, hpar] at hnot
      cases hnot

/-! ## Runs -/

def ReoAction.WellTimed (base : BitVec 32) : ReoAction → Prop
  | .enterEgress frame _ _ => RxReo.WellTimed base frame.reoParams
  | _ => True

instance (base : BitVec 32) (action : ReoAction) : Decidable (action.WellTimed base) :=
  match action with
  | .enterEgress frame _ _ => inferInstanceAs (Decidable (RxReo.WellTimed base frame.reoParams))
  | .enterIngress _ | .moveIngress | .moveEgress | .ageout _ | .release _ => .isTrue trivial

theorem ReoState.Timely.parallel_of_older (h : s.Timely base) {entry : ReoListEntry}
    (hmem : entry.key ∈ s.keys) (hts : InWindow base ts)
    (hgte : compareGlobalTimestampsGte ts entry.globalTs = true)
    (hstale : ∃ last ∈ s.lastReleasedFrame,
      sinceBase base ts < sinceBase base last.globalTimestamp) : entry.isParallelRx = true := by
  obtain ⟨last, hl, hlt⟩ := hstale
  have hle := (gte_iff_sinceBase hts (h.timed _ hmem).1).1 hgte
  exact h.parallel _ hmem last hl (Nat.lt_of_le_of_lt hle hlt)

theorem mem_of_mem_older {list : List ReoListEntry} {entry : ReoListEntry}
    (h : entry ∈ olderEntries ts list) : entry ∈ list := by
  rw [← older_append_newer ts list]
  exact mem_append_left _ h

theorem ReoState.Timely.enterEgress_isSome (h : s.Timely base)
    (htimed : WellTimed base desc.reoParams) : (s.enterEgress config desc).isSome = true := by
  by_contra hnone
  rw [Option.not_isSome_iff_eq_none, ReoState.enterEgress, Option.map_eq_none_iff] at hnone
  obtain ⟨hstale, entry, hmem, hpar⟩ := updateEgressList_eq_none hnone
  have hentry := h.parallel_of_older (mem_keys_of_egress (mem_of_mem_older hmem)) htimed.1
    (older_upto hmem) (isStaleFrame_stale htimed h.lastTimed hstale)
  rw [hpar] at hentry
  cases hentry

theorem ReoState.Timely.enterIngress_isSome (h : s.Timely base)
    (hent : s.phase = .entering desc new) : (s.enterIngress now desc new).isSome = true := by
  by_contra hnone
  rw [Option.not_isSome_iff_eq_none, ReoState.enterIngress, Option.map_eq_none_iff] at hnone
  obtain ⟨hstale, entry, hmem, hpar⟩ := updateIngressList_eq_none hnone
  have hentry := h.parallel_of_older (mem_keys_of_ingress (mem_of_mem_older hmem))
    (h.enteringTimed hent).1 (older_upto hmem) (h.stale hent hstale)
  rw [hpar] at hentry
  cases hentry

theorem ReoState.Timely.release_isSome (h : s.Timely base) (defer : ReoListEntry → Bool) :
    (s.release defer).isSome = true := by
  by_contra hnone
  rw [Option.not_isSome_iff_eq_none] at hnone
  obtain ⟨entry, hmem, hpar, last, hl, hgte⟩ := s.release_eq_none hnone
  have hkey := mem_keys_of_egress hmem
  have hlt := (not_gte_iff_sinceBase (h.timed _ hkey).1 (h.lastTimed last hl).1).1 hgte
  have hentry : entry.isParallelRx = true := h.parallel _ hkey last hl hlt
  rw [hpar] at hentry
  cases hentry

theorem ReoState.Timely.step_isSome (h : s.Timely base) (hok : action.WellTimed base) :
    (s.step config action).isSome = true := by
  cases action with
  | enterEgress frame waitCount pktCtrDelta =>
    cases hphase : s.phase with
    | idle =>
      rw [ReoState.step, hphase]
      exact h.enterEgress_isSome hok
    | entering | moving =>
      rw [ReoState.step, hphase]
      rfl
  | enterIngress now =>
    cases hphase : s.phase with
    | entering desc new =>
      rw [ReoState.step, hphase]
      exact h.enterIngress_isSome hphase
    | idle | moving =>
      rw [ReoState.step, hphase]
      rfl
  | moveIngress | moveEgress | ageout =>
    rw [ReoState.step]
    split <;> rfl
  | release defer => exact h.release_isSome defer

theorem ReoState.Timely.step (h : s.Timely base) (hok : action.WellTimed base)
    (hs : s.step config action = some s') : s'.Timely base := by
  cases action with
  | enterEgress frame waitCount pktCtrDelta =>
    cases hphase : s.phase with
    | idle =>
      rw [ReoState.step, hphase] at hs
      exact h.enterEgress hphase (by exact hok) hs
    | entering | moving =>
      rw [ReoState.step, hphase] at hs
      exact Option.some.inj hs ▸ h
  | enterIngress now =>
    cases hphase : s.phase with
    | entering desc new =>
      rw [ReoState.step, hphase] at hs
      exact h.enterIngress hphase hs
    | idle | moving =>
      rw [ReoState.step, hphase] at hs
      exact Option.some.inj hs ▸ h
  | moveIngress =>
    cases hphase : s.phase with
    | idle =>
      rw [ReoState.step, hphase] at hs
      exact Option.some.inj hs ▸
        h.of_keys (keys_moveIngress hphase) rfl rfl phase_moveIngress
    | entering | moving =>
      rw [ReoState.step, hphase] at hs
      exact Option.some.inj hs ▸ h
  | moveEgress =>
    cases hphase : s.phase with
    | moving ready =>
      rw [ReoState.step, hphase] at hs
      refine Option.some.inj hs ▸
        h.of_keys (keys_moveEgress hphase) rfl rfl fun desc new hent => ?_
      cases hent
    | idle | entering =>
      rw [ReoState.step, hphase] at hs
      exact Option.some.inj hs ▸ h
  | ageout now =>
    cases hphase : s.phase with
    | idle =>
      rw [ReoState.step, hphase] at hs
      refine Option.some.inj hs ▸
        h.of_keys (keys_ageout hphase) rfl rfl fun desc new hent => ?_
      cases hent
    | entering | moving =>
      rw [ReoState.step, hphase] at hs
      exact Option.some.inj hs ▸ h
  | release defer => exact h.release hs

end QcomModules.RxReo
