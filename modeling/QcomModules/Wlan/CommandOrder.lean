import QcomModules.Wlan.OperationSteps

/-! The order in which commands become active, when operations are executed one after another and
no request has high priority.

A move finds the commands of a vdev in the order of the pending list, and stops at a blocking
command. A request is let through by the counter of the blocking commands, of which only eight bits
are tested. -/

namespace QcomModules.Wlan

open Library List

variable {V : Type} [DecidableEq V]

/-! ## Histories -/

def SerView.entries (w : SerView V) : List (ℕ × SerCommand V) := w.active ++ w.pending

/-- The queued commands in the order of their requests: some leave, and a new one is the last. -/
def nextQueued (queued now : List (ℕ × SerCommand V)) : List (ℕ × SerCommand V) :=
  queued.filter (· ∈ now) ++ now.filter (· ∉ queued)

/-- The queues, and the commands in them in the order in which they were accepted. -/
structure SerHistory (V : Type) where
  task : SerTask V
  queued : List (ℕ × SerCommand V)

/-- No command becomes active while a blocking command or a command of its vdev that was accepted
before it is queued. -/
def SerHistory.Ordered (h h' : SerHistory V) : Prop :=
  ∀ x ∈ h'.task.pdev.view.active, x ∉ h.task.pdev.view.active →
    ∀ y, [y, x].Sublist h'.queued → y.2.isBlocking = false ∧ y.2.vdev ≠ x.2.vdev

/-- What holds of the queues and the order of their commands. -/
structure InOrder (w : SerView V) (queued : List (ℕ × SerCommand V)) : Prop where
  nodup : queued.Nodup
  mem : ∀ x, x ∈ queued ↔ x ∈ w.entries
  pending : w.pending.Sublist queued

theorem mem_nextQueued {queued now : List (ℕ × SerCommand V)} {x : ℕ × SerCommand V} :
    x ∈ nextQueued queued now ↔ x ∈ now := by
  simp only [nextQueued, mem_append, mem_filter, decide_eq_true_eq]
  tauto

theorem nextQueued_same {queued now : List (ℕ × SerCommand V)} (h : ∀ x, x ∈ queued ↔ x ∈ now) :
    nextQueued queued now = queued := by
  rw [nextQueued, filter_eq_self.mpr fun x hx => decide_eq_true ((h x).mp hx),
    filter_eq_nil_iff.mpr fun x hx => by simpa using (h x).mpr hx, append_nil]

omit [DecidableEq V] in
theorem sublist_filter_of_subset {l m : List (ℕ × SerCommand V)} {p : ℕ × SerCommand V → Bool}
    (h : l.Sublist m) (hp : ∀ x ∈ l, p x = true) : l.Sublist (m.filter p) := by
  have hfilter := h.filter p
  rwa [filter_eq_self.mpr hp] at hfilter

theorem InOrder.next {w w' : SerView V} {queued : List (ℕ × SerCommand V)} (h : InOrder w queued)
    (hnodup : w'.entries.Nodup) (hpending : w'.pending.Sublist w.pending ∨
      ∃ x, x ∉ w.entries ∧ w'.pending = w.pending ++ [x]) :
    InOrder w' (nextQueued queued w'.entries) := by
  refine ⟨?_, fun x => mem_nextQueued, ?_⟩
  · refine Nodup.append (h.nodup.filter _) (hnodup.filter _) fun x hx hx' => ?_
    have hnot := (mem_filter.mp hx').2
    rw [decide_eq_true_eq] at hnot
    exact hnot (mem_filter.mp hx).1
  · have hnow : ∀ x ∈ w'.pending, decide (x ∈ w'.entries) = true :=
      fun x hx => decide_eq_true (mem_append_right w'.active hx)
    rcases hpending with hsub | ⟨x, hx, heq⟩
    · exact (sublist_filter_of_subset (hsub.trans h.pending) hnow).trans
        (sublist_append_left _ _)
    · rw [heq] at hnow ⊢
      refine (sublist_filter_of_subset h.pending fun y hy => ?_).append ?_
      · exact hnow y (mem_append_left _ hy)
      · rw [singleton_sublist, mem_filter, decide_eq_true_eq]
        refine ⟨mem_append_right w'.active ?_, fun hmem => hx ((h.mem x).mp hmem)⟩
        rw [heq]
        exact mem_append_right _ mem_cons_self

omit [DecidableEq V] in
theorem not_sublist_swap {queued : List (ℕ × SerCommand V)} (hnodup : queued.Nodup)
    {x y : ℕ × SerCommand V} (hxy : [x, y].Sublist queued) : ¬ [y, x].Sublist queued := by
  induction queued with
  | nil => exact absurd (eq_nil_of_sublist_nil hxy) (cons_ne_nil _ _)
  | cons a queued ih =>
    obtain ⟨hnot, hrest⟩ := nodup_cons.mp hnodup
    intro hyx
    cases hxy with
    | cons _ hxy =>
      cases hyx with
      | cons _ hyx => exact ih hrest hxy hyx
      | cons_cons _ hyx => exact hnot (hxy.subset (by simp))
    | cons_cons _ hxy =>
      cases hyx with
      | cons _ hyx => exact hnot (hyx.subset (by simp))
      | cons_cons _ hyx => exact hnot (hxy.subset (by simp))

/-! ## Steps -/

variable [Fintype V]

/-- A request has no high priority, and a non-blocking one that is let through at once does not find
a blocking one waiting. -/
def SerFrame.OrderOk (cfg : SerConfig V) (s : SerPdev V) : SerFrame V → Prop
  | .enqueue cmd => cmd.isHighPriority = false ∧ (SerFrame.enqueue cmd).AdmitOk cfg s ∧
      (cmd.isBlocking = false → s.Allows cmd → s.blockingCmdWaiting = 0)
  | _ => True

variable {cfg : SerConfig V} {s : SerPdev V} {f : SerFrame V} {w : SerView V}
  {fs gs : List (SerFrame V)} {x y : ℕ × SerCommand V}

theorem SerFrame.OrderOk.admitOk (h : f.OrderOk cfg s) : f.AdmitOk cfg s := by
  cases f with
  | enqueue cmd => exact h.2.1
  | dequeue | cancel | cancelResume | activate | move | moveResume => exact trivial

omit [Fintype V] in
theorem Tracked.entries_nodup (h : Tracked w fs) : w.entries.Nodup := by
  have hnodes := h.nodes.of_append_left
  rw [← map_append] at hnodes
  exact hnodes.of_map _

omit [Fintype V] in
theorem Tracked.not_mem_entries (h : Tracked w fs) {node : ℕ} (hnode : node ∈ w.pool)
    (cmd : SerCommand V) : (node, cmd) ∉ w.entries := by
  intro hmem
  have hdisjoint := disjoint_of_nodup_append h.nodes
  rw [← map_append] at hdisjoint
  exact hdisjoint (mem_map_of_mem hmem) hnode

theorem SerEffect.pending_next (heffect : SerEffect cfg s f w gs) (h : Tracked s.view (f :: fs))
    (hok : f.OrderOk cfg s) :
    w.pending.Sublist s.view.pending ∨
      ∃ x, x ∉ s.view.entries ∧ w.pending = s.view.pending ++ [x] := by
  have htaken : ∀ {x : ℕ × SerCommand V} {l₁ l₂ : List (ℕ × SerCommand V)},
      s.view.pending = l₁ ++ x :: l₂ → (l₁ ++ l₂).Sublist s.view.pending := by
    intro x l₁ l₂ hpending
    rw [hpending]
    exact (sublist_cons_self x l₂).append_left l₁
  cases heffect with
  | @enqueue cmd w node heffect =>
    cases heffect with
    | refused | refusedCounted | admitted => exact Or.inl (Sublist.refl _)
    | queued node pool disabled hpool henabled hnot hroom =>
      have hnode : node ∈ s.view.pool := by
        change node ∈ s.cmdPoolList
        rw [hpool]
        exact mem_cons_self
      refine Or.inr ⟨(node, cmd), h.not_mem_entries hnode cmd, ?_⟩
      rw [putEntry, if_neg (by simp [hok.1])]
  | dequeueNone | activate | moveEnd | activateDequeue | activateCancel | dequeue | moveNone =>
    exact Or.inl (Sublist.refl _)
  | cancelEnd hcancel =>
    have hpending : w.pending = s.view.pending := cancelling_list hcancel false
    exact Or.inl (hpending ▸ Sublist.refl _)
  | @cancel f req isActive w e l₁ l₂ cursor hcancel hlist hselects =>
    have hpending : w.pending = s.view.pending := cancelling_list hcancel false
    cases isActive with
    | true => exact Or.inl (hpending ▸ Sublist.refl _)
    | false => exact Or.inl (htaken (hpending.symm.trans hlist))
  | moved disabled hlookup hsearch hpending hpicks => exact Or.inl (htaken hpending)

/-- A command that is let through finds none before it that it would have to wait for. -/
theorem Sequential.admitted_ordered {cmd : SerCommand V} (h : Sequential cfg s (.enqueue cmd :: fs))
    (hok : (SerFrame.enqueue cmd).OrderOk cfg s) (hallows : s.Allows cmd)
    (hy : y ∈ s.view.entries) : y.2.isBlocking = false ∧ y.2.vdev ≠ cmd.vdev := by
  have hfree : ∀ x ∈ s.view.pending, x.2.vdev ≠ cmd.vdev := by
    intro x hx hvdev
    obtain ⟨e, he, rfl⟩ := mem_map.mp hx
    have hmem : e ∈ s.vdevList false cmd.vdev :=
      mem_filter.mpr ⟨he, decide_eq_true (show e.cmd.vdev = cmd.vdev from hvdev)⟩
    rw [hallows.2] at hmem
    exact not_mem_nil hmem
  have hidle : ∀ x ∈ s.view.active, x.2.vdev ≠ cmd.vdev :=
    fun x hx hvdev => hallows.idle ((h.mem_bitmap_iff rfl).mpr ⟨x, hx, hvdev⟩)
  have hfirst := hallows.1
  rcases mem_append.mp hy with hy | hy
  · refine ⟨?_, hidle y hy⟩
    split at hfirst
    · -- a blocking command is let through on an idle pdev only
      rw [(h.bitmap_empty_iff rfl).mp hfirst] at hy
      exact absurd hy not_mem_nil
    · refine not_blockingActive (fun hactive => ?_) y hy
      rw [h.blockingActive hactive] at hfirst
      exact Bool.false_ne_true hfirst.1.symm
  · refine ⟨Bool.eq_false_iff.mpr fun hyblocking => ?_, hfree y hy⟩
    cases hblocking : cmd.isBlocking with
    | true =>
      rw [if_pos hblocking] at hfirst
      have hmover := h.orderly.moved_by rfl ⟨y, hy, hyblocking⟩
      have hlast : fs = [] := h.orderly.single cmd rfl
      rcases hmover with hbusy | ⟨g, hg, -⟩
      · exact hbusy ((h.bitmap_empty_iff rfl).mp hfirst)
      · rw [hlast] at hg
        exact not_mem_nil hg
    | false =>
      have hnone := h.covered.none_waiting (hok.2.2 hblocking hallows)
      rw [hnone y hy] at hyblocking
      exact Bool.false_ne_true hyblocking

theorem Sequential.moved_ordered (h : Sequential cfg s (f :: fs)) {lookup : Option V}
    {e : CommandList V} {l₁ l₂ : List (ℕ × SerCommand V)} (hlookup : f.lookup s = some lookup)
    (hsearch : (searchPending lookup s).2 = some e)
    (hpending : s.view.pending = l₁ ++ e.entry :: l₂)
    (hpicks : Picks lookup s.vdevActiveCmdBitmap l₁ e.cmd) {queued : List (ℕ × SerCommand V)}
    (hin : InOrder s.view queued) (hbefore : [y, e.entry].Sublist queued) :
    y.2.isBlocking = false ∧ y.2.vdev ≠ e.cmd.vdev := by
  have hmem : y ∈ s.view.entries := (hin.mem y).mp (hbefore.subset mem_cons_self)
  rcases mem_append.mp hmem with hy | hy
  · refine ⟨?_, fun hvdev => ?_⟩
    · have hsafe := h.movesSafely hlookup hsearch hpending hpicks
      split at hsafe
      · rw [(h.bitmap_empty_iff (lookup_clearing hlookup)).mp hsafe] at hy
        exact absurd hy not_mem_nil
      · exact hsafe y hy
    · exact hpicks.1 ((h.mem_bitmap_iff (lookup_clearing hlookup)).mpr ⟨y, hy, hvdev⟩)
  · rw [hpending] at hy
    rcases mem_append.mp hy with hy | hy
    · obtain ⟨hidle, hrest⟩ := hpicks
      cases lookup with
      | none =>
        obtain ⟨hbusy, hblocking⟩ := hrest.1 y hy
        exact ⟨hblocking, fun hvdev => hidle (hvdev ▸ hbusy)⟩
      | some vdev =>
        refine ⟨?_, fun hvdev => hrest.2 y hy (hvdev.trans hrest.1)⟩
        have hwaiting := lookup_some_waiting hlookup
        exact h.covered.none_waiting hwaiting y (hpending ▸ mem_append_left _ hy)
    · -- what follows in the pending list was accepted later
      have hafter : [e.entry, y].Sublist queued := by
        refine Sublist.trans ?_ hin.pending
        rw [hpending]
        rcases mem_cons.mp hy with rfl | hy
        · exact absurd hbefore fun hself => by
            have hnodup := hself.nodup hin.nodup
            simp at hnodup
        · exact ((singleton_sublist.mpr hy).cons_cons e.entry).trans
            (sublist_append_right l₁ _)
      exact absurd hbefore (not_sublist_swap hin.nodup hafter)

theorem SerEffect.ordered (heffect : SerEffect cfg s f w gs) (h : Sequential cfg s (f :: fs))
    (hok : f.OrderOk cfg s) {queued : List (ℕ × SerCommand V)} (hin : InOrder s.view queued)
    (hnext : InOrder w (nextQueued queued w.entries)) (hx : x ∈ w.active) (hnew : x ∉ s.view.active)
    (hbefore : [y, x].Sublist (nextQueued queued w.entries)) :
    y.2.isBlocking = false ∧ y.2.vdev ≠ x.2.vdev := by
  have hne : y ≠ x := by
    rintro rfl
    have hnodup := hbefore.nodup hnext.nodup
    simp at hnodup
  have hy : y ∈ w.entries := mem_nextQueued.mp (hbefore.subset mem_cons_self)
  cases heffect with
  | @enqueue cmd w node heffect =>
    cases heffect with
    | refused | refusedCounted | queued => exact absurd hx hnew
    | admitted node pool disabled hpool henabled hallows =>
      obtain rfl := (mem_putEntry.mp hx).resolve_right hnew
      refine h.admitted_ordered hok hallows ?_
      rcases mem_append.mp hy with hy | hy
      · exact mem_append_left _ ((mem_putEntry.mp hy).resolve_left hne)
      · exact mem_append_right _ hy
  | dequeueNone | activate | moveEnd | activateDequeue | activateCancel | moveNone =>
    exact absurd hx hnew
  | dequeue hactive hsame =>
    refine absurd ?_ hnew
    rw [hactive, perm_middle.mem_iff]
    exact mem_cons_of_mem _ hx
  | cancelEnd hcancel =>
    have hactive : w.active = s.view.active := cancelling_list hcancel true
    exact absurd (hactive ▸ hx) hnew
  | @cancel f req isActive w e l₁ l₂ cursor hcancel hlist hselects =>
    have hactive : w.active = s.view.active := cancelling_list hcancel true
    cases isActive with
    | true =>
      refine absurd ?_ hnew
      rw [← hactive, show w.active = l₁ ++ e.entry :: l₂ from hlist, perm_middle.mem_iff]
      exact mem_cons_of_mem _ hx
    | false => exact absurd (hactive ▸ hx) hnew
  | @moved f lookup e l₁ l₂ disabled hlookup hsearch hpending hpicks =>
    obtain rfl := (mem_putEntry.mp hx).resolve_right hnew
    -- the entries are the same, so their order has not changed
    have hentries : ∀ z, z ∈ queued ↔ z ∈ (s.view.moved e.entry (l₁ ++ l₂) disabled).entries := by
      intro z
      rw [hin.mem z, SerView.entries, SerView.entries, mem_append, mem_append, hpending,
        perm_middle.mem_iff, mem_cons, SerView.moved, mem_putEntry]
      tauto
    rw [nextQueued_same hentries] at hbefore
    exact h.moved_ordered hlookup hsearch hpending hpicks hin hbefore

/-! ## Runs -/

def SerHistory.create (cfg : SerConfig V) : SerHistory V := ⟨SerTask.create cfg, []⟩

def SerHistory.step (cfg : SerConfig V) (h : SerHistory V) (c : SerTaskStep V) : SerHistory V :=
  let task := h.task.step cfg c
  ⟨task, nextQueued h.queued task.pdev.view.entries⟩

def SerHistory.StepOk (cfg : SerConfig V) (h : SerHistory V) (c : SerTaskStep V) : Prop :=
  h.task.StepOk (fun _ s f => f.OrderOk cfg s) c

structure SerHistory.Valid (cfg : SerConfig V) (h : SerHistory V) : Prop where
  sequential : Sequential cfg h.task.pdev h.task.todo
  inOrder : InOrder h.task.pdev.view h.queued

theorem SerHistory.Valid.create (cfg : SerConfig V) : (SerHistory.create cfg).Valid cfg :=
  ⟨Sequential.create cfg, nodup_nil, fun _ => Iff.rfl, Sublist.refl _⟩

theorem SerHistory.Valid.step {h : SerHistory V} (hvalid : h.Valid cfg) {c : SerTaskStep V}
    (hok : h.StepOk cfg c) : (h.step cfg c).Valid cfg ∧ h.Ordered (h.step cfg c) := by
  obtain ⟨⟨pdev, todo⟩, queued⟩ := h
  obtain ⟨hsequential, hin⟩ := hvalid
  -- a step that leaves the queues alone
  have hsame : InOrder pdev.view (nextQueued queued pdev.view.entries) :=
    hin.next hsequential.tracked.entries_nodup (Or.inl (Sublist.refl _))
  cases c with
  | start op =>
    rw [SerHistory.step, SerTask.step]
    split
    · rename_i hidle
      cases hidle
      exact ⟨⟨hsequential.started op, hsame⟩, fun x hx hnew => absurd hx hnew⟩
    · exact ⟨⟨hsequential, hsame⟩, fun x hx hnew => absurd hx hnew⟩
  | run activated =>
    cases todo with
    | nil => exact ⟨⟨hsequential, hsame⟩, fun x hx hnew => absurd hx hnew⟩
    | cons f rest =>
      have hf : f.OrderOk cfg pdev := hok f rfl
      have heffect := runFrame_effect cfg activated hsequential.tracked
      have hstep := hsequential.step activated hf.admitOk
      have hnext := hin.next hstep.tracked.entries_nodup
        (heffect.pending_next hsequential.tracked hf)
      exact ⟨⟨hstep, hnext⟩, fun x hx hnew y hbefore =>
        heffect.ordered hsequential hf hin hnext hx hnew hbefore⟩

/-- Commands become active in the order of their requests, and none passes a blocking one. -/
theorem activations_in_order (cfg : SerConfig V) {h : SerHistory V} {c : SerTaskStep V}
    (hrun : Relation.ReflTransGen (GuardedStep (SerHistory.StepOk cfg) (SerHistory.step cfg))
      (SerHistory.create cfg) h) (hok : h.StepOk cfg c) : h.Ordered (h.step cfg c) := by
  have hstep : ∀ (h : SerHistory V) c, h.Valid cfg → h.StepOk cfg c → (h.step cfg c).Valid cfg :=
    fun h c hvalid hok => (hvalid.step hok).1
  exact ((invariant_of_guarded hstep (SerHistory.Valid.create cfg) hrun).step hok).2

instance (s : SerPdev V) (cmd : SerCommand V) : Decidable (s.Allows cmd) :=
  inferInstanceAs (Decidable ((if cmd.isBlocking then s.vdevActiveCmdBitmap = ∅
    else s.blockingCmdActive = false ∧ s.blockingCmdWaiting % 2 ^ 8 = 0 ∧
      cmd.vdev ∉ s.vdevActiveCmdBitmap) ∧ s.vdevList false cmd.vdev = []))

instance (cfg : SerConfig V) (s : SerPdev V) : (f : SerFrame V) → Decidable (f.AdmitOk cfg s)
  | .enqueue cmd => inferInstanceAs (Decidable (cmd.isBlocking = true →
      cmd.vdev ∉ s.queueDisable → if s.vdevActiveCmdBitmap = ∅ then
        s.vdevList false cmd.vdev = [] ∨ ¬ s.HasRoom cfg cmd
      else s.blockingCmdWaiting + 1 < 2 ^ 16))
  | .dequeue _ | .cancel _ _ | .cancelResume _ _ _ _ | .activate _ | .move _ _ | .moveResume _ =>
    .isTrue trivial

instance (cfg : SerConfig V) (s : SerPdev V) : (f : SerFrame V) → Decidable (f.OrderOk cfg s)
  | .enqueue cmd => inferInstanceAs (Decidable (cmd.isHighPriority = false ∧
      (SerFrame.enqueue cmd).AdmitOk cfg s ∧
        (cmd.isBlocking = false → s.Allows cmd → s.blockingCmdWaiting = 0)))
  | .dequeue _ | .cancel _ _ | .cancelResume _ _ _ _ | .activate _ | .move _ _ | .moveResume _ =>
    .isTrue trivial

instance (cfg : SerConfig V) (h : SerHistory V) (c : SerTaskStep V) : Decidable (h.StepOk cfg c) :=
  inferInstanceAs (Decidable (h.task.StepOk (fun _ s f => f.OrderOk cfg s) c))

/-- A blocking command waits behind an active one, and another command behind the two. -/
def restartWaits : SerHistory (Fin 3) :=
  [.start (.request (.roam 1 0)), .run true, .run true, .start (.request (.restart 2 1)),
    .run true, .start (.request (.roam 3 2)), .run true, .start (.remove (.roam 1 0)),
    .run true].foldl (SerHistory.step .threeVdevs) (.create .threeVdevs)

theorem activations_in_order_restartWaits :
    restartWaits.Ordered (restartWaits.step .threeVdevs (.run true)) :=
  activations_in_order .threeVdevs (guarded_foldl (by decide +kernel)) (by decide +kernel)

/-- A blocking command waits uncounted behind a command that was left pending. -/
def restartUncounted : SerHistory (Fin 3) :=
  [.start (.request (.roam 1 0)), .run true, .run true, .start (.request (.restart 2 1)),
    .run true, .start (.request (.roam 3 1)), .run true,
    .start (.cancel .nonScanCmd (.restart 2 1) false true), .run true, .run true,
    .start (.remove (.roam 1 0)), .run true, .run true, .start (.request (.restart 4 1)),
    .run true, .start (.request (.roam 5 0))].foldl (SerHistory.step .threeVdevs)
      (.create .threeVdevs)

theorem restartUncounted_not_ordered :
    ¬ restartUncounted.Ordered (restartUncounted.step .threeVdevs (.run true)) := by
  intro h
  have hpassed := h (4, .roam 5 0) (by decide +kernel) (by decide +kernel) (3, .restart 4 1)
    (by decide +kernel)
  exact absurd hpassed.1 (by decide)

end QcomModules.Wlan
