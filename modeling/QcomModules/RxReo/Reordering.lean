import QcomModules.RxReo.ReleaseOrder

/-! The reorder lists over whole runs: every frame that is queued is in one list until it is
released, once, and the lists and the released frames keep the order of the timestamps. -/

namespace QcomModules.RxReo

open Library List

/-! ## Every frame in one place -/

/-- Each frame that was queued has been released or is in one list, and never both or twice. -/
structure ReoState.Conserved (s : ReoState) : Prop where
  placed : s.queued.Perm (s.released.map ReoListEntry.id ++ s.keys.map EntryKey.id)
  distinct : s.queued.Nodup
  allocated : ∀ id ∈ s.queued, id < s.allocated
  entering : ∀ {desc entry}, s.phase = .entering desc (some entry) → entry.id < s.allocated ∧
    (desc.queuedList ≠ .egress → entry.id ∉ s.queued)
  unqueued : ∀ {desc new}, s.phase = .entering desc new → desc.queuedList ≠ .ingress

variable {config : ReoConfig} {base : BitVec 32} {s s' : ReoState} {desc : FrameDescriptor}
  {new : Option ReoListEntry} {now : BitVec 64}

theorem ReoState.init_conserved : ReoState.init.Conserved where
  placed := .nil
  distinct := .nil
  allocated := fun id hmem => by cases hmem
  entering := fun hent => by cases hent
  unqueued := fun hent => by cases hent

theorem ReoState.Conserved.of_keys (h : s.Conserved) (hkeys : s'.keys = s.keys)
    (hrel : s'.released = s.released) (hqueued : s'.queued = s.queued)
    (halloc : s'.allocated = s.allocated) (hphase : ∀ desc new, s'.phase ≠ .entering desc new) :
    s'.Conserved where
  placed := by rw [hkeys, hrel, hqueued]; exact h.placed
  distinct := by rw [hqueued]; exact h.distinct
  allocated := by rw [hqueued, halloc]; exact h.allocated
  entering := fun hent => absurd hent (hphase _ _)
  unqueued := fun hent => absurd hent (hphase _ _)

theorem ReoState.Conserved.fresh (h : s.Conserved) : s.allocated ∉ s.queued :=
  fun hmem => absurd (h.allocated _ hmem) (Nat.lt_irrefl _)

theorem queuedIds_of_ne {type : ReoListType} (h : desc.queuedList ≠ type) :
    queuedIds type desc new = [] :=
  if_neg h

theorem perm_insertKey {queued released : List ℕ} {pre post : List EntryKey} {key : EntryKey}
    (h : queued.Perm (released ++ (pre ++ post).map EntryKey.id)) :
    (queued ++ [key.id]).Perm (released ++ (pre ++ key :: post).map EntryKey.id) := by
  rw [map_append] at h
  rw [map_append, map_cons, ← append_assoc]
  rw [← append_assoc] at h
  exact (perm_append_singleton _ _).trans
    ((h.cons key.id).trans perm_middle.symm)

theorem nodup_append_fresh {queued : List ℕ} {id : ℕ} (h : queued.Nodup) (hid : id ∉ queued) :
    (queued ++ [id]).Nodup :=
  Nodup.append h (nodup_singleton id) (by simpa using hid)

theorem ReoState.Conserved.enterEgress (h : s.Conserved) (hin : s.InOrder)
    (hidle : s.phase = .idle) (hqueued : desc.queuedList = .invalid)
    (hs : s.enterEgress config desc = some s') : s'.Conserved := by
  obtain ⟨heq, -⟩ | ⟨egress, waitCount, hsome, -, -, hkeys, -, heq⟩ := hin.enterEgress_cases hs
  · have hnone : queuedIds .egress (isStaleFrame s.lastReleasedFrame desc) (s.prepared desc) =
        [] := queuedIds_of_ne (by rw [queuedList_isStaleFrame, hqueued]; simp)
    rw [hnone, append_nil] at heq
    have hphase : s'.phase =
        .entering (isStaleFrame s.lastReleasedFrame desc) (s.prepared desc) := by rw [heq]
    have hids : s'.queued = s.queued := by rw [heq]
    have halloc : s'.allocated = s.allocated + 1 := by rw [heq]
    refine ⟨?_, by rw [hids]; exact h.distinct, ?_, ?_, ?_⟩
    · rw [hids, keys_entering hphase, heq, ← keys_idle hidle]
      exact h.placed
    · rw [hids, halloc]
      exact fun id hmem => Nat.lt_succ_of_lt (h.allocated id hmem)
    · intro d entry hent
      obtain ⟨-, hnew⟩ := Phase.entering.inj (hphase.symm.trans hent)
      rw [prepared_eq_some hnew, hids, halloc]
      exact ⟨Nat.lt_succ_self _, fun _ => h.fresh⟩
    · intro d new hent
      obtain ⟨rfl, -⟩ := Phase.entering.inj (hphase.symm.trans hent)
      rw [queuedList_isStaleFrame, hqueued]
      simp
  · have hphase : s'.phase = .entering
        { isStaleFrame s.lastReleasedFrame desc with
          waitCount := waitCount
          queuedList := .egress } (s.prepared desc) := by rw [heq]
    have hids : s'.queued = s.queued ++ [s.allocated] := by rw [heq]
    have halloc : s'.allocated = s.allocated + 1 := by rw [heq]
    have hplaced := h.placed
    rw [keys_idle hidle, ← map_key_older_newer desc.globalTs, append_assoc] at hplaced
    refine ⟨?_, ?_, ?_, ?_, ?_⟩
    · rw [hids, keys_entering hphase, heq, hkeys, append_assoc, cons_append]
      exact @perm_insertKey _ _ _ _ ((isStaleFrame s.lastReleasedFrame desc).key s.allocated)
        hplaced
    · rw [hids]
      exact nodup_append_fresh h.distinct h.fresh
    · rw [hids, halloc]
      intro id hmem
      obtain hmem | hmem := mem_append.1 hmem
      · exact Nat.lt_succ_of_lt (h.allocated id hmem)
      · rw [mem_singleton.1 hmem]
        exact Nat.lt_succ_self _
    · intro d entry hent
      obtain ⟨rfl, hnew⟩ := Phase.entering.inj (hphase.symm.trans hent)
      rw [prepared_eq_some hnew, halloc]
      exact ⟨Nat.lt_succ_self _, fun hne => absurd rfl hne⟩
    · intro d new hent
      obtain ⟨rfl, -⟩ := Phase.entering.inj (hphase.symm.trans hent)
      simp

theorem ReoState.Conserved.enterIngress (h : s.Conserved) (hin : s.InOrder)
    (hent : s.phase = .entering desc new) (hs : s.enterIngress now desc new = some s') :
    s'.Conserved := by
  obtain ⟨-, ingress, hkeys, heq⟩ | ⟨entry, ingress, hnew, henters, hkeys, heq⟩ :=
    s.enterIngress_cases (hin.needsEntry hent) hs
  · rw [queuedIds_of_ne (h.unqueued hent), append_nil] at heq
    have hphase : s'.phase = .idle := by rw [heq]
    refine h.of_keys ?_ (by rw [heq]) (by rw [heq]) (by rw [heq]) (by simp [hphase])
    rw [keys_idle hphase, keys_entering hent, heq, hkeys]
  · have hphase : s'.phase = .idle := by rw [heq]
    have hids : s'.queued = s.queued ++ [entry.id] := by rw [heq]
    have hlist : desc.queuedList ≠ .egress := by
      rw [FrameDescriptor.entersIngress] at henters
      grind
    obtain ⟨hlt, hfresh⟩ := h.entering (hnew ▸ hent)
    have hplaced := h.placed
    rw [keys_entering hent, ← map_key_older_newer desc.globalTs s.ingress, ← append_assoc]
      at hplaced
    refine ⟨?_, ?_, ?_, by simp [hphase], by simp [hphase]⟩
    · rw [hids, keys_idle hphase, heq, hkeys, ← append_assoc]
      exact @perm_insertKey _ _ _ _ { entry.key with isParallelRx := desc.isParallelRx } hplaced
    · rw [hids]
      exact nodup_append_fresh h.distinct (hfresh hlist)
    · rw [hids, heq]
      intro id hmem
      obtain hmem | hmem := mem_append.1 hmem
      · exact h.allocated id hmem
      · rw [mem_singleton.1 hmem]
        exact hlt

theorem ReoState.Conserved.release {defer : ReoListEntry → Bool} (h : s.Conserved)
    (hs : s.release defer = some s') : s'.Conserved := by
  obtain rfl | ⟨entry, egress, lastReleasedFrame, hegress, rfl, -⟩ := s.release_cases hs
  · exact h
  · refine ⟨?_, h.distinct, h.allocated, h.entering, h.unqueued⟩
    have hplaced := h.placed
    rw [ReoState.keys, ReoState.entries, hegress] at hplaced
    change s.queued.Perm ((s.released ++ [entry]).map ReoListEntry.id ++ _)
    rw [map_append, append_assoc]
    exact hplaced

theorem ReoState.Conserved.step {action : ReoAction} (h : s.Conserved) (hin : s.InOrder)
    (hs : s.step config action = some s') : s'.Conserved := by
  cases action with
  | enterEgress frame waitCount pktCtrDelta =>
    cases hphase : s.phase with
    | idle =>
      rw [ReoState.step, hphase] at hs
      exact h.enterEgress hin hphase (by rfl) hs
    | entering | moving =>
      rw [ReoState.step, hphase] at hs
      exact Option.some.inj hs ▸ h
  | enterIngress now =>
    cases hphase : s.phase with
    | entering desc new =>
      rw [ReoState.step, hphase] at hs
      exact h.enterIngress hin hphase hs
    | idle | moving =>
      rw [ReoState.step, hphase] at hs
      exact Option.some.inj hs ▸ h
  | moveIngress =>
    cases hphase : s.phase with
    | idle =>
      rw [ReoState.step, hphase] at hs
      exact Option.some.inj hs ▸
        h.of_keys (keys_moveIngress hphase) rfl rfl rfl phase_moveIngress
    | entering | moving =>
      rw [ReoState.step, hphase] at hs
      exact Option.some.inj hs ▸ h
  | moveEgress =>
    cases hphase : s.phase with
    | moving ready =>
      rw [ReoState.step, hphase] at hs
      refine Option.some.inj hs ▸
        h.of_keys (keys_moveEgress hphase) rfl rfl rfl fun desc new hent => ?_
      cases hent
    | idle | entering =>
      rw [ReoState.step, hphase] at hs
      exact Option.some.inj hs ▸ h
  | ageout now =>
    cases hphase : s.phase with
    | idle =>
      rw [ReoState.step, hphase] at hs
      refine Option.some.inj hs ▸
        h.of_keys (keys_ageout hphase) rfl rfl rfl fun desc new hent => ?_
      cases hent
    | entering | moving =>
      rw [ReoState.step, hphase] at hs
      exact Option.some.inj hs ▸ h
  | release defer => exact h.release hs

/-! ## Whole runs -/

/-- The lists are sorted, the egress list up to the ingress list; every queued frame is in one list
or has been released, once; and a frame is not released after a later one, unless it was received in
parallel. -/
structure ReoState.Reordered (base : BitVec 32) (s : ReoState) : Prop where
  ingress : s.ingress.Pairwise fun first second =>
    sinceBase base first.globalTs ≤ sinceBase base second.globalTs
  egress : s.egress.Pairwise fun first second =>
    sinceBase base first.globalTs ≤ sinceBase base second.globalTs
  egress_le : ∀ first ∈ s.egress, ∀ second ∈ s.ingress,
    sinceBase base first.globalTs ≤ sinceBase base second.globalTs
  distinct : s.queued.Nodup
  placed : s.queued.Perm ((s.released ++ s.egress ++ s.phase.ready ++ s.ingress).map
    ReoListEntry.id)
  released : s.released.Pairwise fun earlier later => later.isParallelRx = false →
    sinceBase base earlier.globalTs ≤ sinceBase base later.globalTs

theorem ReoState.Timely.reordered (h : s.Timely base) (hcons : s.Conserved) :
    s.Reordered base := by
  have hsorted := h.sorted
  rw [ReoState.keys, ReoState.entries, pairwise_map, append_assoc,
    pairwise_append, pairwise_append] at hsorted
  obtain ⟨hegress, ⟨-, hingress, -⟩, hacross⟩ := hsorted
  have hplaced := hcons.placed
  have hid : EntryKey.id ∘ ReoListEntry.key = ReoListEntry.id := rfl
  rw [ReoState.keys, map_map, hid, ← map_append, ReoState.entries,
    ← append_assoc, ← append_assoc] at hplaced
  exact
    { ingress := hingress
      egress := hegress
      egress_le := fun first hfirst second hsecond =>
        hacross first hfirst second (mem_append_right _ hsecond)
      distinct := hcons.distinct
      placed := hplaced
      released := h.released }

/-- Whatever the order of the parts, no assertion fails, and the lists and the released frames are
in the order of the timestamps. -/
theorem lists_reorder (config : ReoConfig) (base : BitVec 32) (actions : List ReoAction)
    (h : ∀ action ∈ actions, action.WellTimed base) :
    ∃ s, actions.foldlM (ReoState.step config) .init = some s ∧ s.Reordered base := by
  suffices hrun : ∀ s : ReoState, s.Timely base → s.Conserved →
      ∃ s', actions.foldlM (ReoState.step config) s = some s' ∧ s'.Reordered base from
    hrun _ (ReoState.init_timely base) ReoState.init_conserved
  induction actions with
  | nil => exact fun s htimely hcons => ⟨s, rfl, htimely.reordered hcons⟩
  | cons action actions ih =>
    intro s htimely hcons
    have hok := h action mem_cons_self
    have hsome : (s.step config action).isSome = true := htimely.step_isSome hok
    obtain ⟨s', hs⟩ := Option.isSome_iff_exists.1 hsome
    obtain ⟨s'', hrun, hfinal⟩ := ih (fun a ha => h a (mem_cons_of_mem _ ha)) s'
      (htimely.step hok hs) (hcons.step htimely.inOrder hs)
    refine ⟨s'', ?_, hfinal⟩
    rw [foldlM_cons, hs]
    exact hrun

def frameAt (linkId : Fin MAX_MLO_LINKS) (mgmtPktCtr : BitVec 16) (globalTimestamp : BitVec 32) :
    IncomingFrame where
  type := .hostConsumedFrame
  frameType := 0
  reoParams :=
    { valid := true
      linkId := linkId
      mgmtPktCtr := mgmtPktCtr
      globalTimestamp := globalTimestamp
      startTimestamp := globalTimestamp
      endTimestamp := globalTimestamp + 10 }
  reoRequired := true

/-- A frame waits, a later one that need not wait enters after it, and both are released after the
first one has aged out. -/
theorem lists_reorder_two_frames :
    ∃ s, [.enterEgress (frameAt 0 1 100) ⟨fun link => if link = 1 then 1 else 0, 1⟩ 1,
        .enterIngress 0, .moveIngress, .enterEgress (frameAt 1 7 120) .zero 1, .enterIngress 5,
        .ageout 50, .moveIngress, .moveEgress, .release fun _ => false,
        .release fun _ => false].foldlM (ReoState.step ⟨16, 16, 50, 0⟩) .init = some s ∧
      s.Reordered 0 :=
  lists_reorder _ 0 _ (by decide)

end QcomModules.RxReo
