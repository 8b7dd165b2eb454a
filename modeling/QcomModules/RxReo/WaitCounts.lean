import QcomModules.RxReo.WaitCount

/-! Wait counts: the total is the sum over the links, and an entry waits as long as it is not
zero. -/

namespace QcomModules.RxReo

open List Function

/-! ## Totals -/

def WaitCount.Exact (w : WaitCount) : Prop :=
  w.totalCount = ∑ link, w.perLinkCount link

variable {w old new : WaitCount} {link : Fin MAX_MLO_LINKS} {count : ℕ}

theorem WaitCount.zero_exact : WaitCount.zero.Exact := by
  simp [WaitCount.Exact, WaitCount.zero]

theorem sum_update (counts : Fin MAX_MLO_LINKS → ℕ) (link : Fin MAX_MLO_LINKS) (count : ℕ) :
    (∑ l, Function.update counts link count l) + counts link = (∑ l, counts l) + count := by
  rw [Finset.sum_update_of_mem (Finset.mem_univ link),
    ← Finset.sum_sdiff (Finset.subset_univ {link})]
  rw [Finset.sum_singleton]
  omega

theorem WaitCount.Exact.lower (h : w.Exact) (hle : count ≤ w.perLinkCount link) :
    (w.lower link count).Exact := by
  have hsum := sum_update w.perLinkCount link count
  have hlink : w.perLinkCount link ≤ ∑ l, w.perLinkCount l :=
    Finset.single_le_sum (fun _ _ => Nat.zero_le _) (Finset.mem_univ link)
  rw [WaitCount.Exact] at h
  rw [WaitCount.Exact, WaitCount.lower, h]
  dsimp only
  omega

theorem WaitCount.Exact.set (h : w.Exact) (hzero : w.perLinkCount link = 0) :
    (w.set link count).Exact := by
  have hsum := sum_update w.perLinkCount link count
  rw [WaitCount.Exact] at h
  rw [WaitCount.Exact, WaitCount.set]
  dsimp only
  omega

/-! ## Bounds by a later frame -/

theorem updateWaitCountLink_exact (h : old.Exact) (link : Fin MAX_MLO_LINKS) :
    (updateWaitCountLink new old link).Exact := by
  unfold updateWaitCountLink
  split
  · exact h.lower (Nat.min_le_left _ _)
  · exact h

theorem perLinkCount_updateWaitCountLink (link : Fin MAX_MLO_LINKS) :
    (updateWaitCountLink new old link).perLinkCount =
      Function.update old.perLinkCount link
        (min (old.perLinkCount link) (new.perLinkCount link)) := by
  unfold updateWaitCountLink
  split
  · rfl
  · next hzero =>
      rw [not_not] at hzero
      rw [hzero, Nat.zero_min, ← hzero, update_eq_self]

theorem foldl_updateWaitCountLink_exact (h : old.Exact) (links : List (Fin MAX_MLO_LINKS)) :
    (links.foldl (updateWaitCountLink new) old).Exact := by
  induction links generalizing old with
  | nil => exact h
  | cons link links ih => exact ih (updateWaitCountLink_exact h link)

theorem perLinkCount_foldl (links : List (Fin MAX_MLO_LINKS)) (l : Fin MAX_MLO_LINKS) :
    (links.foldl (updateWaitCountLink new) old).perLinkCount l =
      if l ∈ links then min (old.perLinkCount l) (new.perLinkCount l)
      else old.perLinkCount l := by
  induction links generalizing old with
  | nil => rfl
  | cons link links ih =>
    rw [foldl_cons, ih, perLinkCount_updateWaitCountLink]
    by_cases hl : l = link
    · rw [hl, update_self, if_pos mem_cons_self]
      split <;> omega
    · simp only [update_of_ne hl, mem_cons, hl, false_or]

theorem updateWaitCount_exact (h : old.Exact) : (updateWaitCount old new).Exact :=
  foldl_updateWaitCountLink_exact h _

@[simp] theorem perLinkCount_updateWaitCount (l : Fin MAX_MLO_LINKS) :
    (updateWaitCount old new).perLinkCount l =
      min (old.perLinkCount l) (new.perLinkCount l) := by
  rw [updateWaitCount, perLinkCount_foldl, if_pos (mem_finRange l)]

theorem WaitCount.Exact.total_le (h : w.Exact) (hnew : new.Exact)
    (hle : ∀ l, new.perLinkCount l ≤ w.perLinkCount l) : new.totalCount ≤ w.totalCount := by
  rw [h, hnew]
  exact Finset.sum_le_sum fun l _ => hle l

/-! ## Entries -/

/-- The entry waits as long as there is a frame to wait for. -/
structure ReoListEntry.WaitsRight (entry : ReoListEntry) : Prop where
  exact : entry.waitCount.Exact
  waits : entry.status.waitForFrameOnOtherLinks = true ↔ 0 < entry.waitCount.totalCount

variable {entry : ReoListEntry}

@[simp] theorem ReoListEntry.waitCount_clearWait (entry : ReoListEntry) :
    entry.clearWait.waitCount = entry.waitCount := by
  unfold ReoListEntry.clearWait
  split <;> rfl

theorem ReoListEntry.clearWait_waitsRight (hexact : entry.waitCount.Exact)
    (hset : 0 < entry.waitCount.totalCount → entry.status.waitForFrameOnOtherLinks = true) :
    entry.clearWait.WaitsRight := by
  refine ⟨by rwa [ReoListEntry.waitCount_clearWait], ?_⟩
  unfold ReoListEntry.clearWait
  split
  · next hzero => simp [hzero]
  · next hne => exact ⟨fun _ => Nat.pos_of_ne_zero hne, hset⟩

theorem ReoListEntry.WaitsRight.lowered (h : entry.WaitsRight) (hexact : w.Exact)
    (hle : ∀ l, w.perLinkCount l ≤ entry.waitCount.perLinkCount l) :
    ({ entry with waitCount := w }.clearWait).WaitsRight :=
  ReoListEntry.clearWait_waitsRight hexact fun hpos =>
    h.waits.2 (Nat.lt_of_lt_of_le hpos (h.exact.total_le hexact hle))

theorem ReoListEntry.WaitsRight.boundBy (h : entry.WaitsRight) (new : WaitCount) :
    (entry.boundBy new).WaitsRight :=
  h.lowered (updateWaitCount_exact h.exact) fun l => by
    rw [perLinkCount_updateWaitCount]
    exact Nat.min_le_left _ _

@[simp] theorem ReoListEntry.perLinkCount_boundBy (new : WaitCount) (l : Fin MAX_MLO_LINKS) :
    (entry.boundBy new).waitCount.perLinkCount l =
      min (entry.waitCount.perLinkCount l) (new.perLinkCount l) := by
  rw [ReoListEntry.boundBy, ReoListEntry.waitCount_clearWait]
  exact perLinkCount_updateWaitCount l

theorem ReoListEntry.perLinkCount_countDown (link : Fin MAX_MLO_LINKS) (pktCtrDelta : ℕ) :
    (entry.countDown link pktCtrDelta).waitCount.perLinkCount =
      Function.update entry.waitCount.perLinkCount link
        (entry.waitCount.perLinkCount link - pktCtrDelta) := by
  unfold ReoListEntry.countDown
  split
  · rw [ReoListEntry.waitCount_clearWait]
    rfl
  · next hzero =>
      rw [not_not] at hzero
      rw [hzero, Nat.zero_sub, ← hzero, update_eq_self]

theorem ReoListEntry.WaitsRight.countDown (h : entry.WaitsRight) (link : Fin MAX_MLO_LINKS)
    (pktCtrDelta : ℕ) : (entry.countDown link pktCtrDelta).WaitsRight := by
  unfold ReoListEntry.countDown
  split
  · refine h.lowered (h.exact.lower (Nat.sub_le _ _)) fun l => ?_
    change update entry.waitCount.perLinkCount link _ l ≤ entry.waitCount.perLinkCount l
    by_cases hl : l = link
    · rw [hl, update_self]
      exact Nat.sub_le _ _
    · rw [update_of_ne hl]
  · exact h

theorem ReoListEntry.WaitsRight.boundNew (h : entry.WaitsRight) (newer : List ReoListEntry) :
    (RxReo.boundNew entry newer).WaitsRight := by
  cases newer with
  | nil => exact h
  | cons leastGreater newer => exact h.boundBy _

theorem prepareListEntry_waitsRight {desc : FrameDescriptor} (id : ℕ)
    (h : desc.waitCount.Exact) : (prepareListEntry id desc).WaitsRight where
  exact := h
  waits := by
    change (desc.waitCount.totalCount != 0) = true ↔ _
    rw [bne_iff_ne, ne_eq, Nat.pos_iff_ne_zero]
    rfl

/-! ## The calculation over the links -/

def LinkView.Passes (view : LinkView) (hostSs : MgmtRxReoSnapshotParams) : Prop :=
  view.isValidLink = true → view.pdev = true → view.privObject = true ∧
    (view.initComplete = true → ∃ ss, view.snapshots hostSs = some ss ∧
      snapshotsCheckSanity (invalidateStaleSnapshots ss) = true)

/-- A calculation that has not come to some links yet counts no frames of them. -/
structure Calculation.Sound (c : Calculation) (links : List (Fin MAX_MLO_LINKS)) : Prop where
  exact : c.desc.waitCount.Exact
  todo : ∀ link ∈ links, c.desc.waitCount.perLinkCount link = 0
  own : c.desc.waitCount.perLinkCount c.desc.reoParams.linkId = 0

variable {views : Fin MAX_MLO_LINKS → LinkView} {c c' : Calculation}
  {links : List (Fin MAX_MLO_LINKS)}

theorem Calculation.Sound.counted (h : c.Sound (link :: links)) (hnodup : link ∉ links)
    (hown : link = c.desc.reoParams.linkId → count = 0) : (c.count link count).Sound links where
  exact := h.exact.set (h.todo link mem_cons_self)
  todo := fun l hl => by
    change update c.desc.waitCount.perLinkCount link count l = 0
    have hne : l ≠ link := fun heq => hnodup (heq ▸ hl)
    rw [update_of_ne hne]
    exact h.todo l (mem_cons_of_mem _ hl)
  own := by
    change update c.desc.waitCount.perLinkCount link count c.desc.reoParams.linkId = 0
    by_cases hl : link = c.desc.reoParams.linkId
    · rw [← hl, update_self, hown hl]
    · rw [update_of_ne (Ne.symm hl)]
      exact h.own

theorem Calculation.Sound.skip (h : c.Sound (link :: links)) : c.Sound links :=
  { h with
    todo := fun l hl => h.todo l (mem_cons_of_mem _ hl) }

structure Calculation.Keeps (c c' : Calculation) : Prop where
  reoParams : c'.desc.reoParams = c.desc.reoParams
  needsEntry : c'.desc.needsEntry = c.desc.needsEntry
  queuedList : c'.desc.queuedList = c.desc.queuedList
  pktCtrDelta : c'.desc.pktCtrDelta = c.desc.pktCtrDelta
  counters : ∀ l, (c'.hostSs l).mgmtPktCtr = (c.hostSs l).mgmtPktCtr

theorem Calculation.Keeps.refl (c : Calculation) : c.Keeps c :=
  ⟨rfl, rfl, rfl, rfl, fun _ => rfl⟩

theorem Calculation.Keeps.trans {c'' : Calculation} (h : c.Keeps c') (h' : c'.Keeps c'') :
    c.Keeps c'' where
  reoParams := h'.reoParams.trans h.reoParams
  needsEntry := h'.needsEntry.trans h.needsEntry
  queuedList := h'.queuedList.trans h.queuedList
  pktCtrDelta := h'.pktCtrDelta.trans h.pktCtrDelta
  counters := fun l => (h'.counters l).trans (h.counters l)

theorem mgmtPktCtr_invalidateStale (ss : LinkSnapshots) :
    (invalidateStaleSnapshots ss).hostSs.mgmtPktCtr = ss.hostSs.mgmtPktCtr := by
  unfold invalidateStaleSnapshots
  split
  · rfl
  · dsimp only
    split <;> rfl

theorem hostSs_snapshots {view : LinkView} {hostSs : MgmtRxReoSnapshotParams}
    {ss : LinkSnapshots} (h : view.snapshots hostSs = some ss) : ss.hostSs = hostSs := by
  obtain ⟨cons, -, h⟩ := Option.bind_eq_some_iff.1 h
  obtain ⟨fwd, -, h⟩ := Option.bind_eq_some_iff.1 h
  obtain ⟨mac, -, h⟩ := Option.bind_eq_some_iff.1 h
  rw [← Option.some.inj h]

/-- One link: the calculation goes on where the link lets it, and only the link's snapshot may be
invalidated. -/
theorem calculateLink_spec (hok : c.status = .success) (h : c.Sound (link :: links))
    (hnodup : link ∉ links) (hcalc : calculateLink views c link = some c') :
    c'.Sound links ∧ c.Keeps c' ∧ (∀ l, l ≠ link → c'.hostSs l = c.hostSs l) ∧
      (c'.status = .success ↔ (views link).Passes (c.hostSs link)) := by
  have hcounted : (c.count link 0).Sound links ∧ c.Keeps (c.count link 0) ∧
      (∀ l, l ≠ link → (c.count link 0).hostSs l = c.hostSs l) ∧
      ((c.count link 0).status = .success) :=
    ⟨h.counted hnodup fun _ => rfl, ⟨rfl, rfl, rfl, rfl, fun _ => rfl⟩, fun _ _ => rfl, hok⟩
  obtain ⟨hsound, hkeeps, hhost, hstatus⟩ := hcounted
  rw [calculateLink, if_neg (by simp [hok])] at hcalc
  by_cases hvalid : (views link).isValidLink = true
  swap
  · rw [if_pos (by simpa using hvalid)] at hcalc
    obtain rfl := Option.some.inj hcalc
    exact ⟨hsound, hkeeps, hhost, by simp [hstatus, LinkView.Passes, hvalid]⟩
  rw [if_neg (by simpa using hvalid)] at hcalc
  by_cases hpdev : (views link).pdev = true
  swap
  · rw [if_pos (by simpa using hpdev)] at hcalc
    obtain rfl := Option.some.inj hcalc
    exact ⟨hsound, hkeeps, hhost, by simp [hstatus, LinkView.Passes, hpdev]⟩
  rw [if_neg (by simpa using hpdev)] at hcalc
  by_cases hpriv : (views link).privObject = true
  swap
  · rw [if_pos (by simpa using hpriv)] at hcalc
    obtain rfl := Option.some.inj hcalc
    exact ⟨⟨h.skip.exact, h.skip.todo, h.skip.own⟩, ⟨rfl, rfl, rfl, rfl, fun _ => rfl⟩,
      fun _ _ => rfl,
      by simp [LinkView.Passes, hvalid, hpdev, hpriv]⟩
  rw [if_neg (by simpa using hpriv)] at hcalc
  by_cases hinit : (views link).initComplete = true
  swap
  · rw [if_pos (by simpa using hinit)] at hcalc
    obtain rfl := Option.some.inj hcalc
    exact ⟨hsound, hkeeps, hhost,
      by simp [hstatus, LinkView.Passes, hpriv, hinit]⟩
  rw [if_neg (by simpa using hinit)] at hcalc
  cases hread : (views link).snapshots (c.hostSs link) with
  | none =>
    rw [hread] at hcalc
    obtain rfl := Option.some.inj hcalc
    exact ⟨⟨h.skip.exact, h.skip.todo, h.skip.own⟩, ⟨rfl, rfl, rfl, rfl, fun _ => rfl⟩,
      fun _ _ => rfl,
      by simp [LinkView.Passes, hvalid, hpdev, hpriv, hinit, hread]⟩
  | some ss =>
    rw [hread] at hcalc
    dsimp only at hcalc
    have hother (l) (hl : l ≠ link) :
        update c.hostSs link (invalidateStaleSnapshots ss).hostSs l = c.hostSs l :=
      update_of_ne hl _ _
    have hctr (l) : (update c.hostSs link
        (invalidateStaleSnapshots ss).hostSs l).mgmtPktCtr = (c.hostSs l).mgmtPktCtr := by
      by_cases hl : l = link
      · rw [hl, update_self, mgmtPktCtr_invalidateStale, hostSs_snapshots hread]
      · rw [hother l hl]
    by_cases hsane : snapshotsCheckSanity (invalidateStaleSnapshots ss) = true
    swap
    · rw [if_pos (by simpa using hsane)] at hcalc
      obtain rfl := Option.some.inj hcalc
      exact ⟨⟨h.skip.exact, h.skip.todo, h.skip.own⟩, ⟨rfl, rfl, rfl, rfl, hctr⟩, hother,
        by simp [LinkView.Passes, hvalid, hpdev, hpriv, hinit, hread, hsane]⟩
    rw [if_neg (by simpa using hsane)] at hcalc
    have hpasses : (views link).Passes (c.hostSs link) :=
      fun _ _ => ⟨hpriv, fun _ => ⟨ss, hread, hsane⟩⟩
    have hnext (hostSs) (n) (hown : link = c.desc.reoParams.linkId → n = 0) :
        (Calculation.count { c with hostSs := hostSs } link n).Sound links :=
      @Calculation.Sound.counted link n { c with hostSs := hostSs } links
        ⟨h.exact, h.todo, h.own⟩ hnodup hown
    by_cases hown : link = c.desc.reoParams.linkId
    · rw [if_pos hown] at hcalc
      obtain rfl := Option.some.inj hcalc
      exact ⟨hnext _ 0 fun _ => rfl, ⟨rfl, rfl, rfl, rfl, hctr⟩, hother,
        ⟨fun _ => hpasses, fun _ => hok⟩⟩
    · rw [if_neg hown] at hcalc
      obtain ⟨n, -, rfl⟩ := Option.map_eq_some_iff.1 hcalc
      exact ⟨hnext _ n fun heq => absurd heq hown, ⟨rfl, rfl, rfl, rfl, hctr⟩, hother,
        ⟨fun _ => hpasses, fun _ => hok⟩⟩

theorem calculateLink_stopped (hbad : c.status ≠ .success) (link : Fin MAX_MLO_LINKS) :
    calculateLink views c link = some c := by
  rw [calculateLink, if_pos hbad]

theorem foldlM_calculateLink_stopped (hbad : c.status ≠ .success)
    (links : List (Fin MAX_MLO_LINKS)) : links.foldlM (calculateLink views) c = some c := by
  induction links with
  | nil => rfl
  | cons link links ih =>
    rw [foldlM_cons, calculateLink_stopped hbad]
    exact ih

theorem foldlM_calculateLink_spec (hok : c.status = .success) (h : c.Sound links)
    (hnodup : links.Nodup) (hcalc : links.foldlM (calculateLink views) c = some c') :
    c.Keeps c' ∧ (c'.status = .success ↔ ∀ link ∈ links, (views link).Passes (c.hostSs link)) ∧
      (c'.status = .success → c'.Sound []) := by
  induction links generalizing c with
  | nil =>
    obtain rfl := Option.some.inj hcalc
    exact ⟨.refl _, by simp [hok], fun _ => h⟩
  | cons link links ih =>
    rw [foldlM_cons] at hcalc
    obtain ⟨c1, hlink, hrest⟩ := Option.bind_eq_some_iff.1 hcalc
    obtain ⟨hlinkNew, hnodup⟩ := nodup_cons.1 hnodup
    obtain ⟨hsound, hkeeps, hother, hiff⟩ := calculateLink_spec hok h hlinkNew hlink
    by_cases hok1 : c1.status = .success
    · obtain ⟨hkeeps', hiff', hend⟩ := ih hok1 hsound hnodup hrest
      refine ⟨hkeeps.trans hkeeps', ?_, hend⟩
      rw [hiff', forall_mem_cons]
      have hsame : (∀ l ∈ links, (views l).Passes (c1.hostSs l)) ↔
          ∀ l ∈ links, (views l).Passes (c.hostSs l) := by
        refine forall₂_congr fun l hl => ?_
        rw [hother l fun heq => hlinkNew (heq ▸ hl)]
      rw [hsame]
      exact ⟨fun hall => ⟨hiff.1 hok1, hall⟩, fun hall => hall.2⟩
    · rw [foldlM_calculateLink_stopped hok1] at hrest
      obtain rfl := Option.some.inj hrest
      refine ⟨hkeeps, ?_, fun hgood => absurd hgood hok1⟩
      rw [forall_mem_cons]
      exact ⟨fun hgood => absurd hgood hok1, fun hall => absurd (hiff.2 hall.1) hok1⟩

end QcomModules.RxReo
