import QcomModules.RxReo.Entry
import QcomModules.RxReo.Reordering

/-! The ingress list through the calls of the reorder module: which entries stay in it, and what
they wait for. -/

namespace QcomModules.RxReo

open Library List

/-! ## Between calls -/

/-- Between two calls no lock is held, and the entries of the ingress list wait for what their
counts say. -/
structure ReoState.Waiting (s : ReoState) : Prop where
  inOrder : s.InOrder
  conserved : s.Conserved
  waits : ∀ entry ∈ s.ingress, entry.WaitsRight

variable {config : ReoConfig} {s s' : ReoState} {desc : FrameDescriptor}
  {new : Option ReoListEntry} {now : BitVec 64} {defer : ReoListEntry → Bool}

theorem ReoState.init_waiting : ReoState.init.Waiting where
  inOrder := ReoState.init_inOrder
  conserved := ReoState.init_conserved
  waits := fun entry hmem => by cases hmem

theorem ReoState.Waiting.eq_of_id (h : s.Waiting) {first second : ReoListEntry}
    (hfirst : first ∈ s.ingress) (hsecond : second ∈ s.ingress) (hid : first.id = second.id) :
    first = second := by
  have hnodup := h.conserved.placed.nodup_iff.1 h.conserved.distinct
  have hkeys := (nodup_append.1 hnodup).2.1
  rw [ReoState.keys, map_map, ReoState.entries, map_append] at hkeys
  exact inj_on_of_nodup_map (nodup_append.1 hkeys).2.1 hfirst hsecond hid

theorem ReoState.Waiting.id_lt (h : s.Waiting) {entry : ReoListEntry} (hmem : entry ∈ s.ingress) :
    entry.id < s.allocated := by
  refine h.conserved.allocated _ (h.conserved.placed.mem_iff.2 ?_)
  exact mem_append_right _ (mem_map_of_mem (f := EntryKey.id) (mem_keys_of_ingress hmem))

/-! ## Moves and releases -/

theorem ReoState.Waiting.release (h : s.Waiting) (hs : s.release defer = some s') :
    s'.Waiting ∧ s'.ingress = s.ingress ∧ s'.phase = s.phase := by
  have hstep := h.inOrder.release hs
  have hcons := h.conserved.release hs
  obtain rfl | ⟨entry, egress, lastReleasedFrame, -, rfl, -⟩ := s.release_cases hs
  · exact ⟨h, rfl, rfl⟩
  · exact ⟨⟨hstep, hcons, h.waits⟩, rfl, rfl⟩

theorem ReoState.Waiting.releaseEntries (h : s.Waiting) (hidle : s.phase = .idle) {fuel : ℕ}
    (hs : s.releaseEntries defer fuel = some s') :
    s'.Waiting ∧ s'.phase = .idle ∧ s'.ingress = s.ingress := by
  induction fuel generalizing s with
  | zero =>
    obtain rfl := Option.some.inj hs
    exact ⟨h, hidle, rfl⟩
  | succ fuel ih =>
    rw [ReoState.releaseEntries] at hs
    cases hrel : s.release defer with
    | none =>
      rw [hrel] at hs
      cases hs
    | some s1 =>
      rw [hrel] at hs
      obtain ⟨hwait, hsame, hphase⟩ := h.release hrel
      dsimp only at hs
      split at hs
      · obtain ⟨hwait', hidle', hsame'⟩ := ih hwait (hphase.trans hidle) hs
        exact ⟨hwait', hidle', hsame'.trans hsame⟩
      · obtain rfl := Option.some.inj hs
        exact ⟨hwait, hphase.trans hidle, hsame⟩

theorem splitReady_suffix (numOverflowFrames : ℕ) (list : List ReoListEntry) :
    (splitReady numOverflowFrames list).2 <:+ list := by
  induction list generalizing numOverflowFrames with
  | nil => exact suffix_refl []
  | cons entry list ih =>
    rw [splitReady]
    by_cases hover : 0 < numOverflowFrames
    · -- an entry that is marked is ready
      have hready : entry.overflowsIngress.isReadyToSendUp = true := rfl
      simp only [hover, if_true, hready]
      exact (ih _).trans (suffix_cons entry list)
    · simp only [hover, if_false]
      split
      · exact (ih _).trans (suffix_cons entry list)
      · exact suffix_refl _

theorem ReoState.Waiting.moveIngress (h : s.Waiting) (hidle : s.phase = .idle) :
    (s.moveIngress config).Waiting ∧ ∀ e ∈ (s.moveIngress config).ingress, e ∈ s.ingress := by
  have hsub (e) (he : e ∈ (s.moveIngress config).ingress) : e ∈ s.ingress :=
    (splitReady_suffix _ _).subset he
  exact ⟨⟨h.inOrder.of_keys (keys_moveIngress hidle) phase_moveIngress,
    h.conserved.of_keys (keys_moveIngress hidle) rfl rfl rfl phase_moveIngress,
    fun e he => h.waits e (hsub e he)⟩, hsub⟩

theorem ReoState.Waiting.moveEgress (h : s.Waiting) {ready : List ReoListEntry}
    (hmoving : s.phase = .moving ready) : (s.moveEgress config ready).Waiting :=
  ⟨h.inOrder.of_keys (keys_moveEgress hmoving) (fun _ _ hent => by cases hent),
    h.conserved.of_keys (keys_moveEgress hmoving) rfl rfl rfl (fun _ _ hent => by cases hent),
    h.waits⟩

theorem ReoState.Waiting.moveAndRelease (h : s.Waiting) (hidle : s.phase = .idle)
    (hs : s.moveAndRelease config defer = some s') :
    s'.Waiting ∧ s'.phase = .idle ∧ ∀ e ∈ s'.ingress, e ∈ s.ingress := by
  have hmove : (s.moveIngress config).Waiting ∧
      ∀ e ∈ (s.moveIngress config).ingress, e ∈ s.ingress := h.moveIngress hidle
  obtain ⟨hmoved, hsub⟩ := hmove
  rw [ReoState.moveAndRelease] at hs
  dsimp only at hs
  cases hphase : (s.moveIngress config).phase with
  | idle =>
    rw [hphase] at hs
    obtain ⟨hwait, hidle', hsame⟩ := hmoved.releaseEntries hphase hs
    exact ⟨hwait, hidle', fun e he => hsub e (hsame ▸ he)⟩
  | entering desc new => exact absurd hphase (phase_moveIngress desc new)
  | moving ready =>
    rw [hphase] at hs
    have hjoined : ((s.moveIngress config).moveEgress config ready).Waiting :=
      hmoved.moveEgress hphase
    dsimp only at hs
    split at hs
    · obtain ⟨hwait, hidle', hsame⟩ := hjoined.releaseEntries rfl hs
      exact ⟨hwait, hidle', fun e he => hsub e (hsame ▸ he)⟩
    · obtain rfl := Option.some.inj hs
      exact ⟨hjoined, rfl, hsub⟩

/-! ## A frame enters -/

/-- The counts of an entry after those of an entry before a call: none is greater, and that of the
link is less by as many frames as have been received on it, as far as it goes. -/
structure Lowers (link : Fin MAX_MLO_LINKS) (pktCtrDelta : ℕ) (before after : ReoListEntry) :
    Prop where
  le : ∀ l, after.waitCount.perLinkCount l ≤ before.waitCount.perLinkCount l
  counted : after.waitCount.perLinkCount link +
    min pktCtrDelta (before.waitCount.perLinkCount link) ≤ before.waitCount.perLinkCount link

theorem lowers_boundBy {entry : ReoListEntry} {new : WaitCount} {link : Fin MAX_MLO_LINKS}
    (hown : new.perLinkCount link = 0) (pktCtrDelta : ℕ) :
    Lowers link pktCtrDelta entry (entry.boundBy new) where
  le := fun l => by
    rw [ReoListEntry.perLinkCount_boundBy]
    exact Nat.min_le_left _ _
  counted := by
    rw [ReoListEntry.perLinkCount_boundBy, hown, Nat.min_zero, Nat.zero_add]
    exact Nat.min_le_right _ _

theorem lowers_countDown (entry : ReoListEntry) (link : Fin MAX_MLO_LINKS) (pktCtrDelta : ℕ) :
    Lowers link pktCtrDelta entry (entry.countDown link pktCtrDelta) where
  le := fun l => by
    rw [ReoListEntry.perLinkCount_countDown]
    by_cases hl : l = link
    · rw [hl, Function.update_self]
      exact Nat.sub_le _ _
    · rw [Function.update_of_ne hl]
  counted := by
    rw [ReoListEntry.perLinkCount_countDown, Function.update_self]
    omega

theorem ReoState.Waiting.enterIngress (h : s.Waiting) (hent : s.phase = .entering desc new)
    (hown : desc.waitCount.perLinkCount desc.reoParams.linkId = 0)
    (hnew : ∀ entry ∈ new, entry.WaitsRight) (hs : s.enterIngress now desc new = some s') :
    s'.Waiting ∧ s'.phase = .idle ∧ ∀ e ∈ s'.ingress,
      (∃ entry ∈ new, e.id = entry.id) ∨ ∃ entry ∈ s.ingress, e.id = entry.id ∧
        Lowers desc.reoParams.linkId (BitVec.ofInt 16 desc.pktCtrDelta).toNat entry e := by
  have hinOrder := h.inOrder.enterIngress hent hs
  have hcons := h.conserved.enterIngress h.inOrder hent hs
  obtain ⟨r, hr, rfl⟩ := Option.map_eq_some_iff.1 hs
  have hbound (entry) (hmem : entry ∈ olderEntries desc.globalTs s.ingress) :
      (entry.boundBy desc.waitCount).WaitsRight ∧
        ∃ e ∈ s.ingress, (entry.boundBy desc.waitCount).id = e.id ∧
          Lowers desc.reoParams.linkId (BitVec.ofInt 16 desc.pktCtrDelta).toNat e
            (entry.boundBy desc.waitCount) :=
    ⟨(h.waits entry (mem_of_mem_older hmem)).boundBy _, entry, mem_of_mem_older hmem,
      congrArg EntryKey.id (ReoListEntry.key_boundBy _ entry), lowers_boundBy hown _⟩
  have hcount (entry) (hmem : entry ∈ newerEntries desc.globalTs s.ingress) :
      (entry.countDown desc.reoParams.linkId
          (BitVec.ofInt 16 desc.pktCtrDelta).toNat).WaitsRight ∧
        ∃ e ∈ s.ingress, (entry.countDown desc.reoParams.linkId
            (BitVec.ofInt 16 desc.pktCtrDelta).toNat).id = e.id ∧
          Lowers desc.reoParams.linkId (BitVec.ofInt 16 desc.pktCtrDelta).toNat e
            (entry.countDown desc.reoParams.linkId
              (BitVec.ofInt 16 desc.pktCtrDelta).toNat) := by
    have hold : entry ∈ s.ingress := by
      rw [← older_append_newer desc.globalTs s.ingress]
      exact mem_append_right _ hmem
    exact ⟨(h.waits entry hold).countDown _ _, entry, hold,
      congrArg EntryKey.id (ReoListEntry.key_countDown _ _ entry), lowers_countDown _ _ _⟩
  obtain ⟨-, rfl⟩ | ⟨entry, rfl, -, rfl⟩ :=
    updateIngressList_cases (h.inOrder.needsEntry hent) hr
  · refine ⟨⟨hinOrder, hcons, ?_⟩, rfl, ?_⟩
    · intro e he
      obtain he | he := mem_append.1 he
      · obtain ⟨entry, hmem, rfl⟩ := mem_map.1 he
        exact (hbound entry hmem).1
      · obtain ⟨entry, hmem, rfl⟩ := mem_map.1 he
        exact (hcount entry hmem).1
    · intro e he
      obtain he | he := mem_append.1 he
      · obtain ⟨entry, hmem, rfl⟩ := mem_map.1 he
        exact .inr (hbound entry hmem).2
      · obtain ⟨entry, hmem, rfl⟩ := mem_map.1 he
        exact .inr (hcount entry hmem).2
  · have hentry := (hnew entry rfl).boundNew (newerEntries desc.globalTs s.ingress)
    refine ⟨⟨hinOrder, hcons, ?_⟩, rfl, ?_⟩
    · intro e he
      obtain he | he := mem_append.1 he
      · obtain ⟨old, hmem, rfl⟩ := mem_map.1 he
        exact (hbound old hmem).1
      · obtain rfl | he := mem_cons.1 he
        · exact ⟨hentry.exact, hentry.waits⟩
        · obtain ⟨old, hmem, rfl⟩ := mem_map.1 he
          exact (hcount old hmem).1
    · intro e he
      obtain he | he := mem_append.1 he
      · obtain ⟨old, hmem, rfl⟩ := mem_map.1 he
        exact .inr (hbound old hmem).2
      · obtain rfl | he := mem_cons.1 he
        · exact .inl ⟨entry, rfl, congrArg EntryKey.id (key_boundNew entry _)⟩
        · obtain ⟨old, hmem, rfl⟩ := mem_map.1 he
          exact .inr (hcount old hmem).2

theorem ReoState.Waiting.updateLists {input : AlgoInput} (h : s.Waiting) (hidle : s.phase = .idle)
    (hexact : desc.waitCount.Exact)
    (hown : desc.waitCount.perLinkCount desc.reoParams.linkId = 0)
    (hqueued : desc.queuedList = .invalid)
    (hprep : desc.needsEntry = true → input.prepares = true)
    (hs : s.updateLists config input desc = some s') :
    s'.Waiting ∧ s'.phase = .idle ∧ ∀ e ∈ s'.ingress,
      e.id = s.allocated ∨ ∃ entry ∈ s.ingress, e.id = entry.id ∧
        Lowers desc.reoParams.linkId (BitVec.ofInt 16 desc.pktCtrDelta).toNat entry e := by
  rw [ReoState.updateLists, if_neg (by
    rw [Bool.and_eq_true, Bool.not_eq_true']
    intro hbad
    rw [hprep hbad.1] at hbad
    cases hbad.2)] at hs
  obtain ⟨s1, hegress, hs⟩ := Option.bind_eq_some_iff.1 hs
  have hinOrder := h.inOrder.enterEgress hidle hegress
  have hcons := h.conserved.enterEgress h.inOrder hidle hqueued hegress
  have hprepared (entry) (hmem : entry ∈ s.prepared desc) : entry.WaitsRight := by
    rw [prepared_eq_some hmem]
    exact prepareListEntry_waitsRight _ hexact
  -- either way the frame is entering, with no frames of its own link to wait for
  have hentering : s1.ingress = s.ingress ∧ ∃ d, s1.phase = .entering d (s.prepared desc) ∧
      d.waitCount.perLinkCount d.reoParams.linkId = 0 ∧ d.reoParams = desc.reoParams ∧
        d.pktCtrDelta = desc.pktCtrDelta := by
    obtain ⟨rfl, -⟩ | ⟨egress, waitCount, -, -, -, -, hle, rfl⟩ :=
      h.inOrder.enterEgress_cases hegress
    · refine ⟨rfl, _, rfl, ?_, reoParams_isStaleFrame, pktCtrDelta_isStaleFrame⟩
      rw [waitCount_isStaleFrame, reoParams_isStaleFrame, hown]
    · refine ⟨rfl, _, rfl, ?_, reoParams_isStaleFrame, pktCtrDelta_isStaleFrame⟩
      rw [show (FrameDescriptor.reoParams _) = desc.reoParams from reoParams_isStaleFrame]
      exact Nat.le_zero.1 (hown ▸ hle _)
  obtain ⟨hsame, d, hphase, hzero, hparams, hdelta⟩ := hentering
  have hwait1 : s1.Waiting := ⟨hinOrder, hcons, hsame ▸ h.waits⟩
  rw [hphase] at hs
  obtain ⟨s2, hingress, hs⟩ := Option.bind_eq_some_iff.1 hs
  obtain ⟨hwait2, hidle2, htrack⟩ := hwait1.enterIngress hphase hzero hprepared hingress
  have hfrom (e) (he : e ∈ s2.ingress) : e.id = s.allocated ∨ ∃ entry ∈ s.ingress,
      e.id = entry.id ∧
        Lowers desc.reoParams.linkId (BitVec.ofInt 16 desc.pktCtrDelta).toNat entry e := by
    obtain ⟨entry, hmem, hid⟩ | ⟨entry, hmem, hid, hlow⟩ := htrack e he
    · rw [prepared_eq_some hmem] at hid
      exact .inl hid
    · rw [hparams, hdelta] at hlow
      exact .inr ⟨entry, hsame ▸ hmem, hid, hlow⟩
  split at hs
  · obtain ⟨hwait, hidle', hsub⟩ := hwait2.moveAndRelease hidle2 hs
    exact ⟨hwait, hidle', fun e he => hfrom e (hsub e he)⟩
  · obtain rfl := Option.some.inj hs
    exact ⟨hwait2, hidle2, hfrom⟩

theorem ageoutEntries_spec {ingress : List ReoListEntry} {e : ReoListEntry}
    (h : e ∈ ageoutEntries config now ingress) : ∃ entry ∈ ingress, e.id = entry.id ∧
      e.waitCount = entry.waitCount ∧
        e.status.waitForFrameOnOtherLinks = entry.status.waitForFrameOnOtherLinks := by
  induction ingress with
  | nil => cases h
  | cons entry ingress ih =>
    rw [ageoutEntries] at h
    obtain rfl | h := mem_cons.1 h
    · exact ⟨entry, mem_cons_self, rfl, rfl, rfl⟩
    · obtain ⟨entry', hmem, hsame⟩ := ih h
      exact ⟨entry', mem_cons_of_mem _ hmem, hsame⟩

theorem ReoState.Waiting.ageoutTimerHandler (h : s.Waiting) (hidle : s.phase = .idle)
    (hs : s.ageoutTimerHandler config now defer = some s') : s'.Waiting ∧ s'.phase = .idle := by
  have hkeys : ReoState.keys { s with ingress := ageoutEntries config now s.ingress } = s.keys := by
    rw [← @keys_ageout config s now hidle]
    exact congrArg (fun phase => ReoState.keys
      { s with ingress := ageoutEntries config now s.ingress, phase := phase }) hidle
  have hphase (desc new) : s.phase ≠ .entering desc new := by
    rw [hidle]
    exact fun hent => by cases hent
  have haged : ReoState.Waiting { s with ingress := ageoutEntries config now s.ingress } := by
    refine ⟨h.inOrder.of_keys hkeys hphase, h.conserved.of_keys hkeys rfl rfl rfl hphase, ?_⟩
    intro e he
    obtain ⟨entry, hmem, -, hwait, hbit⟩ := ageoutEntries_spec he
    have hentry := h.waits entry hmem
    exact ⟨hwait ▸ hentry.exact, by rw [hbit, hwait]; exact hentry.waits⟩
  rw [ReoState.ageoutTimerHandler] at hs
  split at hs
  · obtain ⟨hwait, hidle', -⟩ := haged.moveAndRelease hidle hs
    exact ⟨hwait, hidle'⟩
  · obtain rfl := Option.some.inj hs
    exact ⟨haged, hidle⟩

end QcomModules.RxReo
