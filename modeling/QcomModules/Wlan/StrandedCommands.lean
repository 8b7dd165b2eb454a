import QcomModules.Wlan.OperationSteps

/-! Whether pending commands are left behind, when operations are executed one after another and
every activation succeeds.

The move after a removal looks at the vdev of the removed command only, unless a blocking command
is involved, and a cancellation moves pending commands only if no active command is left. -/

namespace QcomModules.Wlan

open Library List

variable {V : Type}

/-! ## Stranded commands -/

/-- A command of the vdev or a blocking command is active, or a blocking command is pending. -/
def SerView.Served (w : SerView V) (v : V) : Prop :=
  (∃ x ∈ w.active, x.2.vdev = v) ∨ w.BlockingActive ∨ ∃ x ∈ w.pending, x.2.isBlocking = true

def SerView.AllServed (w : SerView V) : Prop := ∀ x ∈ w.pending, w.Served x.2.vdev

structure SerView.NoneStranded (w : SerView V) : Prop where
  served : w.AllServed
  idle : w.active = [] → w.pending = []

theorem SerView.Served.mono {w w' : SerView V} {v : V} (h : w.Served v)
    (hactive : w.active ⊆ w'.active)
    (hpending : ∀ x ∈ w.pending, x.2.isBlocking = true → x ∈ w'.active ∨ x ∈ w'.pending) :
    w'.Served v := by
  rcases h with ⟨x, hx, hvdev⟩ | ⟨x, hx, hblocking⟩ | ⟨x, hx, hblocking⟩
  · exact Or.inl ⟨x, hactive hx, hvdev⟩
  · exact Or.inr (Or.inl ⟨x, hactive hx, hblocking⟩)
  · rcases hpending x hx hblocking with hx | hx
    · exact Or.inr (Or.inl ⟨x, hx, hblocking⟩)
    · exact Or.inr (Or.inr ⟨x, hx, hblocking⟩)

theorem SerView.NoneStranded.congr {w w' : SerView V} (h : w.NoneStranded)
    (hactive : w'.active = w.active) (hpending : w'.pending = w.pending) : w'.NoneStranded := by
  refine ⟨fun x hx => ?_, fun hnil => hpending.trans (h.idle (hactive ▸ hnil))⟩
  rw [hpending] at hx
  exact (h.served x hx).mono (hactive ▸ List.Subset.refl _)
    fun y hy _ => Or.inr (hpending ▸ hy)

theorem SerView.NoneStranded.activated {w w' : SerView V} (h : w.NoneStranded)
    (hactive : w.active ⊆ w'.active) (hpending : w'.pending = w.pending) : w'.NoneStranded := by
  refine ⟨fun x hx => ?_, fun hnil => ?_⟩
  · rw [hpending] at hx
    exact (h.served x hx).mono hactive fun y hy _ => Or.inr (hpending ▸ hy)
  · rw [hnil] at hactive
    exact hpending.trans (h.idle (eq_nil_of_subset_nil hactive))

theorem SerView.BlockingActive.noneStranded {w : SerView V} (h : w.BlockingActive) :
    w.NoneStranded := by
  refine ⟨fun x _ => Or.inr (Or.inl h), fun hnil => ?_⟩
  obtain ⟨x, hx, -⟩ := h
  rw [hnil] at hx
  exact absurd hx not_mem_nil

/-! ## Conditions on steps -/

section Conditions

variable [DecidableEq V]

/-- The queues once a request has taken its commands out of a list. -/
def SerView.without (w : SerView V) (req : CancelReq V) (isActive : Bool) : SerView V :=
  w.setList isActive ((w.list isActive).filter fun x => !req.selects ⟨x.1, x.2, {}⟩)

/-- A command is removed, and this is the first one that its vdev has pending. -/
def SerPdev.FindsNext (s : SerPdev V) : Option (CommandList V) → Prop
  | none => s.activeList.length = 1 → s.pendingList = []
  | some e => e.cmdInUse.markedForMovement = true → s.activeList.length ≠ 1 ∧
      (s.view.BlockingActive ∨ ∃ x ∈ s.view.pending, x.2.isBlocking = true)

/-- After the removal of a non-blocking command, while no blocking one is counted, only the first
pending command of its vdev is looked at, and not taken if it is marked for movement. -/
def SerPdev.RemovalServes (s : SerPdev V) (cmd : SerCommand V) : Prop :=
  cmd.isBlocking = false → s.blockingCmdWaiting = 0 →
    s.FindsNext (s.vdevList false cmd.vdev).head?

/-- The queues once the cancellation that waits below has taken its commands out too. -/
def SerView.afterLast (w : SerView V) : List (SerFrame V) → SerView V
  | .cancel req isActive :: _ => w.without req isActive
  | _ => w

/-- No command left pending was served by what is cancelled, unless a blocking command is left: a
vdev whose active command is cancelled has nothing pending left, and if a blocking command is
cancelled, then every vdev that has something pending left has an active command left. -/
def SerView.Spares (w w' : SerView V) : Prop :=
  (∃ x ∈ w'.active ++ w'.pending, x.2.isBlocking = true) ∨
  (∀ x ∈ w.active, x ∉ w'.active → ∀ y ∈ w'.pending, y.2.vdev ≠ x.2.vdev) ∧
  ((∃ x ∈ w.active ++ w.pending, x ∉ w'.active ++ w'.pending ∧ x.2.isBlocking = true) →
    ∀ y ∈ w'.pending, ∃ x ∈ w'.active, x.2.vdev = y.2.vdev)

/-- What a step needs to leave no command behind, given the steps that wait below it. -/
def SerFrame.ServesOk [Fintype V] (cfg : SerConfig V) (s : SerPdev V)
    (rest : List (SerFrame V)) : SerFrame V → Prop
  | .enqueue cmd => cmd.isBlocking = false → cmd.vdev ∉ s.queueDisable → s.HasRoom cfg cmd →
      s.blockingCmdActive = false → cmd.vdev ∉ s.vdevActiveCmdBitmap →
        s.blockingCmdWaiting % 2 ^ 8 ≠ 0 →
          ∃ x ∈ s.view.active ++ s.view.pending, x.2.isBlocking = true
  | .dequeue cmd => ∀ e ∈ s.activeList, matchCmd cmd e = true → s.RemovalServes e.cmd
  -- a cancellation in both queues is judged by what both parts take out
  | .cancel req true => (s.view.without req true).active ≠ [] →
      s.view.Spares ((s.view.without req true).afterLast rest)
  | .cancel req false => s.view.Spares (s.view.without req false)
  | _ => True

def SerTask.ServesOk [Fintype V] (cfg : SerConfig V) (s : SerTask V) : SerTaskStep V → Prop
  | .start _ => True
  | .run activated => activated = true ∧
      ∀ f ∈ s.todo.head?, f.ServesOk cfg s.pdev s.todo.tail

end Conditions

theorem SerView.AllServed.congr {w w' : SerView V} (h : w.AllServed)
    (hactive : w'.active = w.active) (hpending : w'.pending = w.pending) : w'.AllServed := by
  intro x hx
  rw [hpending] at hx
  exact (h x hx).mono (hactive ▸ List.Subset.refl _) fun y hy _ => Or.inr (hpending ▸ hy)

theorem SerView.AllServed.of_spares {w w' : SerView V} (h : w.AllServed)
    (hpending : w'.pending ⊆ w.pending) (hspares : w.Spares w') : w'.AllServed := by
  intro y hy
  by_cases hleft : ∃ x ∈ w'.active ++ w'.pending, x.2.isBlocking = true
  · obtain ⟨x, hx, hblocking⟩ := hleft
    exact Or.inr ((mem_append.mp hx).imp (fun hx => ⟨x, hx, hblocking⟩)
      fun hx => ⟨x, hx, hblocking⟩)
  obtain ⟨hvdevs, hblocked⟩ := hspares.resolve_left hleft
  have hactive : ∀ x ∈ w.active ++ w.pending, x.2.isBlocking = true →
      ∃ z ∈ w'.active, z.2.vdev = y.2.vdev := fun x hx hblocking =>
    hblocked ⟨x, hx, fun hmem => hleft ⟨x, hmem, hblocking⟩, hblocking⟩ y hy
  rcases h y (hpending hy) with ⟨x, hx, hvdev⟩ | ⟨x, hx, hblocking⟩ | ⟨x, hx, hblocking⟩
  · by_cases hmem : x ∈ w'.active
    · exact Or.inl ⟨x, hmem, hvdev⟩
    · exact absurd hvdev.symm (hvdevs x hx hmem y hy)
  · exact Or.inl (hactive x (mem_append_left _ hx) hblocking)
  · exact Or.inl (hactive x (mem_append_right _ hx) hblocking)

/-- The condition on a cancellation leaves out only those that strand a command. -/
theorem SerView.AllServed.spares {w w' : SerView V} (h : w'.AllServed)
    (hvdevs : (w.active.map (·.2.vdev)).Nodup) (hactive : w'.active ⊆ w.active) : w.Spares w' := by
  by_cases hleft : ∃ x ∈ w'.active ++ w'.pending, x.2.isBlocking = true
  · exact Or.inl hleft
  have hserved : ∀ y ∈ w'.pending, ∃ x ∈ w'.active, x.2.vdev = y.2.vdev := by
    intro y hy
    rcases h y hy with hown | ⟨x, hx, hblocking⟩ | ⟨x, hx, hblocking⟩
    · exact hown
    · exact absurd ⟨x, mem_append_left _ hx, hblocking⟩ hleft
    · exact absurd ⟨x, mem_append_right _ hx, hblocking⟩ hleft
  refine Or.inr ⟨fun x hx hnot y hy hvdev => ?_, fun _ => hserved⟩
  obtain ⟨z, hz, hzvdev⟩ := hserved y hy
  exact hnot (inj_on_of_nodup_map hvdevs (hactive hz) hx (hzvdev.trans hvdev) ▸ hz)

/-! ## Cancelling all that a request selects -/

theorem getCmdFromQueue_getLast {l₁ l₂ : List (CommandList V)}
    (hnodup : ((l₁ ++ l₂).map (·.node)).Nodup) :
    getCmdFromQueue (l₁ ++ l₂) (l₁.getLast?.map (·.node)) = l₂.head? := by
  rcases eq_nil_or_concat l₁ with rfl | ⟨l, a, rfl⟩
  · rfl
  · rw [concat_eq_append, append_assoc, map_append] at hnodup
    have hbefore : ∀ e ∈ l, decide (e.node ≠ a.node) = true := by
      intro e he
      refine decide_eq_true fun heq => ?_
      exact disjoint_of_nodup_append hnodup (mem_map_of_mem he) (heq ▸ by simp)
    rw [concat_eq_append, getLast?_append, getLast?_singleton, append_assoc]
    simp only [Option.some_or, Option.map_some, getCmdFromQueue]
    rw [dropWhile_append_of_pos hbefore]
    simp

/-- Where a cancellation is once it has passed the first entries of a list. -/
def cursorBehind (l₁ l₂ : List (CommandList V)) : CancelCursor :=
  ⟨l₁.getLast?.map (·.node), l₂.length⟩

theorem eraseP_at {l₁ l₂ : List (CommandList V)} {e : CommandList V}
    (hnodup : ((l₁ ++ e :: l₂).map (·.node)).Nodup) :
    ((l₁ ++ e :: l₂).eraseP fun x => x.node = e.node) = l₁ ++ l₂ := by
  have hbefore : ∀ x ∈ l₁, ¬ decide (x.node = e.node) = true := by
    intro x hx heq
    rw [map_append] at hnodup
    refine disjoint_of_nodup_append hnodup (mem_map_of_mem hx) ?_
    rw [of_decide_eq_true heq]
    exact mem_map_of_mem mem_cons_self
  rw [eraseP_append_right _ hbefore, eraseP_cons_of_pos (by simp)]

variable [DecidableEq V]

theorem cancelLoop_behind (req : CancelReq V) (isActive : Bool) {s : SerPdev V}
    (hmarks : Marks s none) {l₁ l₂ : List (CommandList V)} (hl : s.list isActive = l₁ ++ l₂)
    (hnodup : ((s.list isActive).map (·.node)).Nodup) :
    ((∀ e ∈ l₂, req.selects e = false) ∧
      cancelLoop req isActive l₂.length (cursorBehind l₁ l₂).pnode (cursorBehind l₁ l₂).pnode s =
        (none, s)) ∨
    ∃ m₁ e m₂, l₂ = m₁ ++ e :: m₂ ∧ (∀ x ∈ m₁, req.selects x = false) ∧ req.selects e = true ∧
      cancelLoop req isActive l₂.length (cursorBehind l₁ l₂).pnode (cursorBehind l₁ l₂).pnode s =
        (some (cursorBehind (l₁ ++ m₁) m₂, e.cmd),
          (s.setList isActive (l₁ ++ m₁ ++ m₂)).release e.node) := by
  induction l₂ generalizing l₁ with
  | nil => exact Or.inl ⟨fun e he => absurd he not_mem_nil, rfl⟩
  | cons e l₂ ih =>
    have hget : getCmdFromQueue (s.list isActive) (cursorBehind l₁ (e :: l₂)).pnode =
        some e := by
      rw [hl] at hnodup ⊢
      exact getCmdFromQueue_getLast hnodup
    have hunmarked : e.cmdInUse.markedForActivation = false :=
      (hmarks.list isActive e (getCmdFromQueue_mem hget)).unmarked
    rw [length_cons, cancelLoop, hget]
    cases hselects : req.selects e with
    | false =>
      have hcursor : (cursorBehind (l₁ ++ [e]) l₂).pnode = some e.node := by
        simp [cursorBehind]
      have hbehind : s.list isActive = (l₁ ++ [e]) ++ l₂ := by
        rw [hl, append_assoc]
        rfl
      have hrest := ih hbehind
      rw [hcursor] at hrest
      simp only [hselects, Bool.not_false, if_true]
      rcases hrest with ⟨hnone, hend⟩ | ⟨m₁, x, m₂, rfl, hpassed, hx, hfound⟩
      · exact Or.inl ⟨forall_mem_cons.mpr ⟨hselects, hnone⟩, hend⟩
      · refine Or.inr ⟨e :: m₁, x, m₂, rfl, ?_, hx, ?_⟩
        · exact forall_mem_cons.mpr ⟨hselects, hpassed⟩
        · rw [hfound, append_assoc l₁ [e] m₁]
          rfl
    | true =>
      refine Or.inr ⟨[], e, l₂, rfl, fun x hx => absurd hx not_mem_nil, hselects, ?_⟩
      rw [hl] at hnodup
      simp only [hselects, hunmarked, Bool.not_true, Bool.false_eq_true, if_false,
        Bool.and_false, hl, eraseP_at hnodup, append_nil]
      rfl

/-- A request that ends with the first command it takes out names one command. -/
def CancelReq.NamesOne (req : CancelReq V) : Prop :=
  (req.vdev.isNone && !req.pdev) = true → req.cmd.isSome = true

omit [DecidableEq V] in
theorem namesOne_find (cmd : SerCommand V) (reqType : SerCancelType) :
    (wlanSerializationFindAndCancelCmd cmd reqType).NamesOne := by
  cases reqType <;>
    simp [wlanSerializationFindAndCancelCmd, CancelReq.ofCmd, CancelReq.NamesOne]

theorem selects_sameCmd {req : CancelReq V} {cmd : SerCommand V} (hcmd : req.cmd = some cmd)
    {e : CommandList V} (h : req.selects e = true) : sameCmd cmd e.cmd := by
  simp only [CancelReq.selects, hcmd, Option.all_some, Bool.and_eq_true] at h
  exact (matchCmd_iff cmd e).mp h.1.1.1

variable {isActive : Bool}

theorem Tracked.selects_one {s : SerPdev V} {fs : List (SerFrame V)} (h : Tracked s.view fs)
    {req : CancelReq V} (hreq : req.cmd.isSome = true) {l₁ l₂ : List (CommandList V)}
    {e : CommandList V} (hl : s.list isActive = l₁ ++ e :: l₂) (he : req.selects e = true)
    {x : CommandList V} (hx : x ∈ l₂) : req.selects x = false := by
  obtain ⟨cmd, hcmd⟩ := Option.isSome_iff_exists.mp hreq
  refine Bool.eq_false_iff.mpr fun hselects => ?_
  have hsame := selects_sameCmd hcmd he
  have hsame' := selects_sameCmd hcmd hselects
  cases isActive with
  | true =>
    have hvdevs : (s.activeList.map (·.cmd.vdev)).Nodup := by
      have := h.vdevs.of_append_left
      rwa [SerPdev.view, map_map] at this
    rw [show s.activeList = l₁ ++ e :: l₂ from hl, map_append, map_cons] at hvdevs
    have hnot := (nodup_cons.mp hvdevs.of_append_right).1
    refine hnot ?_
    rw [hsame.2.2, ← hsame'.2.2]
    exact mem_map_of_mem hx
  | false =>
    have hkeys := h.keys
    rw [SerPdev.view, show s.pendingList = l₁ ++ e :: l₂ from hl, map_append,
      map_cons] at hkeys
    refine rel_of_pairwise_cons (pairwise_append.mp hkeys).2.1
      (mem_map_of_mem hx) ?_
    exact ⟨hsame'.1.trans hsame.1.symm, hsame'.2.1.trans hsame.2.1.symm,
      hsame'.2.2.trans hsame.2.2.symm⟩

/-! ## What the steps to come owe -/

/-- The steps that follow a part of an operation: none, or the cancellation of pending commands. -/
inductive Last : List (SerFrame V) → Prop where
  | nil : Last []
  | cancel {req : CancelReq V} (hreq : req.NamesOne) : Last [.cancel req false]

/-- Pending commands of other vdevs are served, and a move that looks at the one vdev finds what it
has to find. -/
structure SerPdev.Awaits (s : SerPdev V) (v : V) : Prop where
  others : ∀ x ∈ s.view.pending, x.2.vdev ≠ v → s.view.Served x.2.vdev
  vdevIdle : v ∉ s.vdevActiveCmdBitmap
  next : match (s.vdevList false v).head? with
    | none => s.view.active = [] → s.view.pending = []
    | some e => e.cmdInUse.markedForMovement = true →
        s.view.active ≠ [] ∧
          (s.view.BlockingActive ∨ ∃ x ∈ s.view.pending, x.2.isBlocking = true)

def CancelOwed (req : CancelReq V) (rest : List (SerFrame V)) (w : SerView V) : Bool → Prop
  | true => (w.without req true).active ≠ [] → ((w.without req true).afterLast rest).AllServed
  | false => (w.without req false).AllServed ∧ (w.active = [] → w.pending = [])

inductive Owes (s : SerPdev V) : List (SerFrame V) → Prop where
  | idle (h : s.view.NoneStranded) : Owes s []
  | enqueue (cmd : SerCommand V) (h : s.view.NoneStranded) : Owes s [.enqueue cmd]
  | dequeue (cmd : SerCommand V) (h : s.view.NoneStranded) : Owes s [.dequeue cmd]
  | activate (node : ℕ) (h : s.view.NoneStranded) : Owes s [.activate node]
  | activateLast (node : ℕ) (h : s.view.NoneStranded) :
      Owes s [.activate node, .moveResume true]
  | moveEnd (h : s.view.NoneStranded) : Owes s [.moveResume true]
  | moveVdev (v : V) (b : Bool) (h : b = false → s.blockingCmdWaiting = 0 → s.Awaits v) :
      Owes s [.move (some v) b]
  | movePdev (b : Bool) {rest : List (SerFrame V)} (hrest : Last rest) :
      Owes s (.move none b :: rest)
  | activateNext (node : ℕ) {rest : List (SerFrame V)} (hrest : Last rest) :
      Owes s (.activate node :: .moveResume false :: rest)
  | moveNext {rest : List (SerFrame V)} (hrest : Last rest) :
      Owes s (.moveResume false :: rest)
  | cancelActive {req : CancelReq V} {rest : List (SerFrame V)} (hreq : req.NamesOne)
      (hrest : Last rest) (h : s.view.NoneStranded) : Owes s (.cancel req true :: rest)
  | cancelPending {req : CancelReq V} (hreq : req.NamesOne)
      (hserved : s.view.AllServed ∨ (s.view.without req false).AllServed)
      (h : s.view.active = [] → s.view.pending = []) : Owes s [.cancel req false]
  | cancelling {req : CancelReq V} {isActive : Bool} {rest : List (SerFrame V)}
      {l₁ l₂ : List (CommandList V)} (removed : SerCommand V) (hreq : req.NamesOne)
      (hrest : Last rest) (hside : isActive = false → rest = [])
      (hl : s.list isActive = l₁ ++ l₂) (hpassed : ∀ e ∈ l₁, req.selects e = false)
      (hone : (req.vdev.isNone && !req.pdev) = true → ∀ e ∈ l₂, req.selects e = false)
      (howed : CancelOwed req rest s.view isActive) :
      Owes s (.cancelResume req isActive (cursorBehind l₁ l₂) removed :: rest)

theorem Last.owes {s : SerPdev V} {rest : List (SerFrame V)} (h : Last rest)
    (hnone : s.view.NoneStranded) : Owes s rest := by
  cases h with
  | nil => exact .idle hnone
  | cancel hreq => exact .cancelPending hreq (Or.inl hnone.served) hnone.idle

theorem without_pending_subset (w : SerView V) (req : CancelReq V) :
    (w.without req false).pending ⊆ w.pending :=
  filter_subset_self _

theorem Last.pending_subset {rest : List (SerFrame V)} (h : Last rest) (w : SerView V)
    (req : CancelReq V) : ((w.without req true).afterLast rest).pending ⊆ w.pending := by
  cases h with
  | nil => exact List.Subset.refl _
  | cancel hreq => exact without_pending_subset _ _

omit [DecidableEq V] in
theorem Last.clearing {rest : List (SerFrame V)} (h : Last rest) :
    rest.filterMap SerFrame.clearing = [] := by
  cases h <;> rfl

/-! ## Requests and removals -/

theorem Tracked.mem_bitmap_iff {w : SerView V} {fs : List (SerFrame V)} (h : Tracked w fs)
    (hfs : fs.filterMap SerFrame.clearing = []) {v : V} :
    v ∈ w.bitmap ↔ ∃ x ∈ w.active, x.2.vdev = v := by
  rw [h.bitmap, SerView.heldVdevs, hfs, append_nil, mem_toFinset, mem_map]

theorem Tracked.bitmap_eq_empty {w : SerView V} {fs : List (SerFrame V)} (h : Tracked w fs)
    (hfs : fs.filterMap SerFrame.clearing = []) (hnil : w.active = []) : w.bitmap = ∅ := by
  rw [h.bitmap, SerView.heldVdevs, hfs, hnil]
  rfl

/-- A request that has to wait waits for something. -/
theorem EnqueueEffect.noneStranded [Fintype V] {cfg : SerConfig V} {s : SerPdev V}
    {cmd : SerCommand V} {w : SerView V} {node : Option ℕ}
    (heffect : EnqueueEffect cfg s cmd w node) (h : s.view.NoneStranded)
    (htracked : Tracked s.view [.enqueue cmd])
    (hflag : s.blockingCmdActive = true → s.view.BlockingActive)
    (hok : (SerFrame.enqueue cmd).ServesOk cfg s []) : w.NoneStranded := by
  cases heffect with
  | refused | refusedCounted => exact h.congr rfl rfl
  | admitted node pool disabled hpool henabled hallows =>
    exact h.activated (fun x hx => mem_putEntry.mpr (Or.inr hx)) rfl
  | queued node pool disabled hpool henabled hnot hroom =>
    have hserved : cmd.isBlocking = true ∨ s.view.Served cmd.vdev := by
      cases hblocking : cmd.isBlocking with
      | true => exact Or.inl rfl
      | false =>
        refine Or.inr ?_
        by_contra hunserved
        have hunset : s.blockingCmdActive = false :=
          Bool.eq_false_iff.mpr fun hset => hunserved (Or.inr (Or.inl (hflag hset)))
        have hidle : cmd.vdev ∉ s.vdevActiveCmdBitmap := fun hbusy =>
          hunserved (Or.inl ((htracked.mem_bitmap_iff rfl).mp hbusy))
        refine hnot ⟨?_, ?_⟩
        · rw [if_neg (by simp [hblocking])]
          refine ⟨hunset, ?_, fun hbusy => ?_⟩
          · by_contra hwaiting
            obtain ⟨x, hx, hblocks⟩ := hok hblocking henabled hroom hunset hidle hwaiting
            exact hunserved (Or.inr ((mem_append.mp hx).imp (fun hx => ⟨x, hx, hblocks⟩)
              fun hx => ⟨x, hx, hblocks⟩))
          · exact hidle hbusy
        · refine eq_nil_iff_forall_not_mem.mpr fun e he => hunserved ?_
          obtain ⟨hmem, hvdev⟩ := mem_filter.mp he
          have hpending := h.served e.entry (mem_map_of_mem hmem)
          rwa [CommandList.entry, of_decide_eq_true hvdev] at hpending
    have hbusy : s.view.active ≠ [] := by
      intro hnil
      have hpending := h.idle hnil
      rcases hserved with hblocking | ⟨x, hx, -⟩ | ⟨x, hx, -⟩ | ⟨x, hx, -⟩
      · refine hnot ⟨?_, ?_⟩
        · rw [if_pos hblocking]
          exact htracked.bitmap_eq_empty rfl hnil
        · rw [SerPdev.vdevList, show s.list false = [] from map_eq_nil_iff.mp hpending]
          rfl
      · exact absurd (hnil ▸ hx) not_mem_nil
      · exact absurd (hnil ▸ hx) not_mem_nil
      · exact absurd (hpending ▸ hx) not_mem_nil
    have hkept : ∀ y ∈ s.view.pending, y.2.isBlocking = true → y ∈ s.view.active ∨
        y ∈ putEntry cmd (node, cmd) s.view.pending :=
      fun y hy _ => Or.inr (mem_putEntry.mpr (Or.inr hy))
    refine ⟨fun x hx => ?_, fun hnil => absurd hnil hbusy⟩
    rcases mem_putEntry.mp hx with rfl | hx
    · rcases hserved with hblocking | hserved
      · exact Or.inr (Or.inr ⟨_, mem_putEntry.mpr (Or.inl rfl), hblocking⟩)
      · exact hserved.mono (List.Subset.refl _) hkept
    · exact (h.served x hx).mono (List.Subset.refl _) hkept

theorem removed_awaits {s t : SerPdev V} {e : CommandList V} {l₁ l₂ : List (CommandList V)}
    (h : s.view.NoneStranded) (hl : s.activeList = l₁ ++ e :: l₂)
    (hactive : t.activeList = l₁ ++ l₂)
    (hpending : t.pendingList = s.pendingList)
    (hbitmap : t.vdevActiveCmdBitmap = s.vdevActiveCmdBitmap.erase e.cmd.vdev)
    (hblocking : e.cmd.isBlocking = false) (hwaiting : s.blockingCmdWaiting = 0)
    (hok : s.RemovalServes e.cmd) : t.Awaits e.cmd.vdev := by
  have hkept : ∀ x ∈ s.view.active, x ≠ e.entry → x ∈ t.view.active := by
    intro x hx hne
    rw [SerPdev.view, hl, map_append, map_cons, perm_middle.mem_iff] at hx
    rw [SerPdev.view, hactive, map_append]
    exact (mem_cons.mp hx).resolve_left hne
  have hsame : t.view.pending = s.view.pending := by rw [SerPdev.view, hpending]; rfl
  have hblock : s.view.BlockingActive → t.view.BlockingActive := by
    rintro ⟨x, hx, hxblocking⟩
    refine ⟨x, hkept x hx ?_, hxblocking⟩
    rintro rfl
    rw [CommandList.entry, hblocking] at hxblocking
    exact Bool.false_ne_true hxblocking
  have hlength : t.view.active = [] ↔ s.activeList.length = 1 := by
    rw [SerPdev.view, map_eq_nil_iff, hactive, hl, ← length_eq_zero_iff]
    simp only [length_append, length_cons]
    omega
  refine ⟨fun x hx hvdev => ?_, by rw [hbitmap]; exact Finset.notMem_erase _ _, ?_⟩
  · rw [hsame] at hx
    rcases h.served x hx with ⟨y, hy, hyvdev⟩ | hserved | hserved
    · refine Or.inl ⟨y, hkept y hy ?_, hyvdev⟩
      rintro rfl
      exact hvdev hyvdev.symm
    · exact Or.inr (Or.inl (hblock hserved))
    · exact Or.inr (Or.inr (hsame ▸ hserved))
  · have hvdevList : t.vdevList false e.cmd.vdev = s.vdevList false e.cmd.vdev := by
      rw [SerPdev.vdevList, SerPdev.vdevList, show t.list false = s.list false from hpending]
    have hnext := hok hblocking hwaiting
    rw [hvdevList, hsame]
    cases hhead : (s.vdevList false e.cmd.vdev).head? with
    | none =>
      rw [hhead] at hnext
      exact fun hnil => congrArg (map CommandList.entry) (hnext (hlength.mp hnil))
    | some x =>
      rw [hhead] at hnext
      intro hmarked
      obtain ⟨hother, hwait⟩ := hnext hmarked
      exact ⟨fun hnil => hother (hlength.mp hnil), hwait.imp_left hblock⟩

/-! ## Moves and cancellations -/

theorem Tracked.noneStranded {s : SerPdev V} {fs : List (SerFrame V)} (h : Tracked s.view fs)
    (hfs : fs.filterMap SerFrame.clearing = []) (hsearch : (searchPending none s).2 = none) :
    s.view.NoneStranded := by
  rcases walkPending_none hsearch with hall | ⟨hbusy, e, he, hblocking⟩
  · have hactive : ∀ x ∈ s.view.pending, ∃ y ∈ s.view.active, y.2.vdev = x.2.vdev := by
      intro x hx
      obtain ⟨e, he, rfl⟩ := mem_map.mp hx
      exact (h.mem_bitmap_iff hfs).mp (hall e he)
    refine ⟨fun x hx => Or.inl (hactive x hx), fun hnil => ?_⟩
    refine eq_nil_iff_forall_not_mem.mpr fun x hx => ?_
    obtain ⟨y, hy, -⟩ := hactive x hx
    exact absurd (hnil ▸ hy) not_mem_nil
  · have hwait : ∃ x ∈ s.view.pending, x.2.isBlocking = true :=
      ⟨e.entry, mem_map_of_mem he, hblocking⟩
    refine ⟨fun x _ => Or.inr (Or.inr hwait), fun hnil => ?_⟩
    exact absurd (h.bitmap_eq_empty hfs hnil) hbusy

theorem without_taken {w w' : SerView V} {req : CancelReq V} {l m : List (ℕ × SerCommand V)}
    {e : CommandList V} (hl : w.list isActive = l ++ e.entry :: m) (he : req.selects e = true)
    (hactive : w'.active = (w.setList isActive (l ++ m)).active)
    (hpending : w'.pending = (w.setList isActive (l ++ m)).pending) :
    (w'.without req isActive).active = (w.without req isActive).active ∧
      (w'.without req isActive).pending = (w.without req isActive).pending := by
  have hfilter : (w'.list isActive).filter (fun x => !req.selects ⟨x.1, x.2, {}⟩) =
      (w.list isActive).filter (fun x => !req.selects ⟨x.1, x.2, {}⟩) := by
    have hentry : req.selects ⟨e.entry.1, e.entry.2, {}⟩ = true := he
    have hlist : w'.list isActive = l ++ m := by
      cases isActive with
      | true => exact hactive
      | false => exact hpending
    rw [hlist, hl, filter_append, filter_append,
      filter_cons_of_neg (by simp [hentry])]
  rw [SerView.without, SerView.without, hfilter]
  cases isActive with
  | true => exact ⟨rfl, hpending⟩
  | false => exact ⟨hactive, rfl⟩

theorem afterLast_congr {w w' : SerView V} (rest : List (SerFrame V))
    (hactive : w'.active = w.active) (hpending : w'.pending = w.pending) :
    (w'.afterLast rest).active = (w.afterLast rest).active ∧
      (w'.afterLast rest).pending = (w.afterLast rest).pending := by
  cases rest with
  | nil => exact ⟨hactive, hpending⟩
  | cons f rest =>
    cases f with
    | cancel req isActive =>
      have hfilter : ∀ {l l' : List (ℕ × SerCommand V)}, l' = l →
          l'.filter (fun x => !req.selects ⟨x.1, x.2, {}⟩) =
            l.filter fun x => !req.selects ⟨x.1, x.2, {}⟩ := congrArg _
      cases isActive with
      | true => exact ⟨hfilter hactive, hpending⟩
      | false => exact ⟨hactive, hfilter hpending⟩
    | _ => exact ⟨hactive, hpending⟩

theorem CancelOwed.congr {req : CancelReq V} {rest : List (SerFrame V)} {w w' : SerView V}
    (h : CancelOwed req rest w isActive)
    (hactive : (w'.without req isActive).active = (w.without req isActive).active)
    (hpending : (w'.without req isActive).pending = (w.without req isActive).pending)
    (hidle : isActive = false → w'.active = [] →
      w.active = [] ∧ (w.pending = [] → w'.pending = [])) : CancelOwed req rest w' isActive := by
  cases isActive with
  | true =>
    obtain ⟨hafter, hafter'⟩ := afterLast_congr rest hactive hpending
    exact fun hne => (h (hactive ▸ hne)).congr hafter hafter'
  | false =>
    refine ⟨h.1.congr hactive hpending, fun hnil => ?_⟩
    obtain ⟨hnil', hnone⟩ := hidle rfl hnil
    exact hnone (h.2 hnil')

theorem CancelOwed.cleared {req : CancelReq V} {rest : List (SerFrame V)} {w : SerView V}
    (h : CancelOwed req rest w isActive) (cmd : SerCommand V) :
    CancelOwed req rest (w.clear isActive cmd) isActive := by
  have hactive : (w.clear isActive cmd).active = w.active := w.clear_list isActive true cmd
  have hpending : (w.clear isActive cmd).pending = w.pending := w.clear_list isActive false cmd
  have hlist := w.clear_list isActive isActive cmd
  refine h.congr ?_ ?_ fun _ hnil => ⟨hactive ▸ hnil, fun hnone => hpending.trans hnone⟩
  · rw [SerView.without, SerView.without, hlist]
    cases isActive with
    | true => rfl
    | false => exact hactive
  · rw [SerView.without, SerView.without, hlist]
    cases isActive with
    | true => exact hpending
    | false => rfl

theorem without_self {s : SerPdev V} {req : CancelReq V}
    (h : ∀ e ∈ s.list isActive, req.selects e = false) : s.view.without req isActive = s.view := by
  have hfilter : (s.view.list isActive).filter (fun x => !req.selects ⟨x.1, x.2, {}⟩) =
      s.view.list isActive := by
    refine filter_eq_self.mpr fun x hx => ?_
    rw [view_list] at hx
    obtain ⟨e, he, rfl⟩ := mem_map.mp hx
    rw [Bool.not_eq_true']
    exact h e he
  rw [SerView.without, hfilter]
  cases isActive <;> rfl

/-- Nothing that the request selects is left in the list. -/
theorem cancelEnd_owes {s : SerPdev V} {req : CancelReq V} {rest : List (SerFrame V)}
    (h : Tracked s.view rest) (hrest : Last rest) (hside : isActive = false → rest = [])
    (hall : ∀ e ∈ s.list isActive, req.selects e = false)
    (howed : CancelOwed req rest s.view isActive) :
    Owes (cancelFrames req isActive (none, s)).1
      ((cancelFrames req isActive (none, s)).2 ++ rest) := by
  have hself := without_self hall
  rw [cancelFrames]
  cases isActive with
  | false =>
    rw [hside rfl]
    rw [CancelOwed, hself] at howed
    exact .idle ⟨howed.1, howed.2⟩
  | true =>
    rw [CancelOwed, hself] at howed
    by_cases hnil : s.view.active = []
    · have hbitmap : s.vdevActiveCmdBitmap = ∅ := h.bitmap_eq_empty hrest.clearing hnil
      have hlist : s.list true = [] := map_eq_nil_iff.mp hnil
      rw [if_pos (by simp [hlist, wlanSerializationAnyVdevCmdActive, hbitmap])]
      exact .movePdev false hrest
    · have hlist : s.list true ≠ [] := fun heq => hnil (map_eq_nil_iff.mpr heq)
      rw [if_neg (by simp [hlist])]
      cases hrest with
      | nil => exact .idle ⟨howed hnil, fun heq => absurd heq hnil⟩
      | cancel hreq =>
        exact .cancelPending hreq (Or.inr (howed hnil)) fun heq => absurd heq hnil

theorem cancelFound_owes {s : SerPdev V} {fs : List (SerFrame V)} {req : CancelReq V}
    {rest : List (SerFrame V)} (h : Tracked s.view fs) (hreq : req.NamesOne) (hrest : Last rest)
    (hside : isActive = false → rest = []) {l₁ l₂ : List (CommandList V)} {e : CommandList V}
    (hl : s.list isActive = l₁ ++ e :: l₂) (hpassed : ∀ x ∈ l₁, req.selects x = false)
    (he : req.selects e = true) (howed : CancelOwed req rest s.view isActive) :
    Owes ((s.setList isActive (l₁ ++ l₂)).release e.node)
      (.cancelResume req isActive (cursorBehind l₁ l₂) e.cmd :: rest) := by
  have hlist : s.view.list isActive =
      l₁.map CommandList.entry ++ e.entry :: l₂.map CommandList.entry := by
    rw [view_list, hl, map_append, map_cons]
  have hview : (s.setList isActive (l₁ ++ l₂)).view =
      s.view.setList isActive (l₁.map CommandList.entry ++ l₂.map CommandList.entry) := by
    rw [view_setList, map_append]
  have hactive : ((s.setList isActive (l₁ ++ l₂)).release e.node).view.active =
      (s.view.setList isActive (l₁.map CommandList.entry ++ l₂.map CommandList.entry)).active := by
    rw [view_release, ← hview]
    rfl
  have hpending : ((s.setList isActive (l₁ ++ l₂)).release e.node).view.pending =
      (s.view.setList isActive (l₁.map CommandList.entry ++ l₂.map CommandList.entry)).pending := by
    rw [view_release, ← hview]
    rfl
  have hwithout := without_taken hlist he hactive hpending
  refine .cancelling e.cmd hreq hrest hside ?_ hpassed
    (fun hone x hx => h.selects_one (hreq hone) hl he hx) ?_
  · cases isActive <;> rfl
  · refine howed.congr (hwithout.1) (hwithout.2) fun hpend hnil => ?_
    subst hpend
    refine ⟨hnil, fun hnone => ?_⟩
    rw [show s.view.pending = _ from hlist] at hnone
    exact absurd hnone (by simp)

theorem cancelLoop_owes {s : SerPdev V} {req : CancelReq V} {rest : List (SerFrame V)}
    (h : Tracked s.view rest) (hmarks : Marks s none) (hreq : req.NamesOne) (hrest : Last rest)
    (hside : isActive = false → rest = []) {l₁ l₂ : List (CommandList V)}
    (hl : s.list isActive = l₁ ++ l₂) (hpassed : ∀ x ∈ l₁, req.selects x = false)
    (howed : CancelOwed req rest s.view isActive) :
    let r := cancelFrames req isActive (cancelLoop req isActive l₂.length
      (cursorBehind l₁ l₂).pnode (cursorBehind l₁ l₂).pnode s)
    Owes r.1 (r.2 ++ rest) := by
  have hnodup : ((s.list isActive).map (·.node)).Nodup := by
    have := h.list_nodup isActive
    rwa [view_list, map_node_entry] at this
  rcases cancelLoop_behind req isActive hmarks hl hnodup with
    ⟨hnone, hend⟩ | ⟨m₁, e, m₂, rfl, hm₁, he, hfound⟩
  · rw [hend]
    refine cancelEnd_owes h hrest hside (fun e he => ?_) howed
    rw [hl] at he
    exact (mem_append.mp he).elim (hpassed e) (hnone e)
  · rw [hfound]
    refine cancelFound_owes h hreq hrest hside (by rw [hl, append_assoc]) (fun x hx => ?_) he
      howed
    exact (mem_append.mp hx).elim (hpassed x) (hm₁ x)

variable [Fintype V]

variable {fs : List (SerFrame V)} {s : SerPdev V} {w w' : SerView V} {f : SerFrame V}
  {cfg : SerConfig V}

theorem movePdev_owes (cfg : SerConfig V) {rest : List (SerFrame V)} (h : Tracked s.view fs)
    (hfs : fs.filterMap SerFrame.clearing = []) (hmarks : Marks s none) (hrest : Last rest) :
    Owes (moveSection cfg none s).2 (moveFrames false (moveSection cfg none s).1 ++ rest) := by
  rcases moveSection_cases cfg h none with
    ⟨hend, hview, -⟩ | ⟨e, l₁, l₂, disabled, -, -, -, hsome, -⟩
  · have hnone := h.noneStranded hfs (moveSection_found cfg h hmarks hend)
    rw [hend]
    exact hrest.owes (hview ▸ hnone)
  · rw [hsome]
    exact .activateNext e.node hrest

theorem moveVdev_owes (cfg : SerConfig V) {v : V} (h : Tracked s.view fs) (hmarks : Marks s none)
    (hawaits : s.Awaits v) :
    Owes (moveSection cfg (some v) s).2 (moveFrames true (moveSection cfg (some v) s).1) := by
  rcases moveSection_cases cfg h (some v) with
    ⟨hend, hview, -⟩ | ⟨e, l₁, l₂, disabled, -, hpending, hpicks, hsome, hview⟩
  · have hsearch := moveSection_found cfg h hmarks hend
    simp only [searchPending, if_neg hawaits.vdevIdle] at hsearch
    have hnext := hawaits.next
    rw [hend]
    refine .idle (hview ▸ ?_)
    cases hhead : (s.vdevList false v).head? with
    | none =>
      rw [hhead] at hnext
      refine ⟨fun x hx => hawaits.others x hx fun hvdev => ?_, hnext⟩
      obtain ⟨e, he, rfl⟩ := mem_map.mp hx
      have hmem : e ∈ s.vdevList false v := mem_filter.mpr ⟨he, decide_eq_true hvdev⟩
      rw [head?_eq_none_iff.mp hhead] at hmem
      exact not_mem_nil hmem
    | some e =>
      rw [hhead] at hsearch hnext
      obtain ⟨hbusy, hwait⟩ := hnext (by simpa using hsearch)
      exact ⟨fun x _ => Or.inr hwait, fun hnil => absurd hnil hbusy⟩
  · have hnew : e.entry ∈ putEntry e.entry.2 e.entry s.view.active :=
      mem_putEntry.mpr (Or.inl rfl)
    rw [hsome]
    refine .activateLast e.node (hview ▸ ⟨fun x hx => ?_, fun hnil => ?_⟩)
    · by_cases hvdev : x.2.vdev = v
      · exact Or.inl ⟨e.entry, hnew, hpicks.2.1.trans hvdev.symm⟩
      · have hmem : x ∈ s.view.pending := by
          rw [hpending, perm_middle.mem_iff]
          exact mem_cons_of_mem _ hx
        refine (hawaits.others x hmem hvdev).mono (fun y hy => mem_putEntry.mpr (Or.inr hy))
          fun y hy _ => ?_
        rw [hpending, perm_middle.mem_iff] at hy
        rcases mem_cons.mp hy with rfl | hy
        · exact Or.inl hnew
        · exact Or.inr hy
    · exact absurd hnil (ne_nil_of_mem hnew)

/-! ## Steps -/

/-- The flag tells of an active blocking command, or of one whose cancellation still has to clear
it. -/
def FlagKept (w : SerView V) (fs : List (SerFrame V)) : Prop :=
  w.blockingActive = true → w.BlockingActive ∨ ∃ req cursor removed,
    fs.head? = some (.cancelResume req true cursor removed) ∧ removed.isBlocking = true

omit [DecidableEq V] [Fintype V] in
theorem FlagKept.blockingActive (h : FlagKept w (f :: fs)) (hf : f.clearing = none)
    (hset : w.blockingActive = true) : w.BlockingActive := by
  refine (h hset).resolve_right ?_
  rintro ⟨req, cursor, removed, hhead, -⟩
  cases hhead
  exact Option.some_ne_none _ hf

omit [Fintype V] in
theorem FlagKept.cleared (h : FlagKept s.view (f :: fs)) {req : CancelReq V}
    (hcancel : f.cancelling s = some (req, isActive, w)) (hset : w.blockingActive = true) :
    w.BlockingActive := by
  have hactive : w.active = s.view.active := cancelling_list hcancel true
  rw [SerView.BlockingActive, hactive]
  cases f with
  | cancel req' isActive' =>
    obtain ⟨-, -, rfl⟩ : req' = req ∧ isActive' = isActive ∧ s.view = w := by
      simpa [SerFrame.cancelling] using hcancel
    exact h.blockingActive rfl hset
  | cancelResume req' isActive' cursor removed =>
    obtain ⟨-, rfl, rfl⟩ : req' = req ∧ isActive' = isActive ∧
        s.view.clear isActive' removed = w := by
      simpa [SerFrame.cancelling] using hcancel
    cases isActive' with
    | true =>
      rw [SerView.clear, if_pos rfl, Bool.and_eq_true] at hset
      refine (h hset.1).resolve_right ?_
      rintro ⟨req, cursor', removed', hhead, hblocking⟩
      cases hhead
      rw [hblocking] at hset
      exact absurd hset.2 Bool.false_ne_true
    | false =>
      refine h.blockingActive rfl ?_
      rw [SerView.clear, if_neg Bool.false_ne_true] at hset
      split at hset <;> exact hset
  | enqueue | dequeue | activate | move | moveResume => simp [SerFrame.cancelling] at hcancel

theorem SerEffect.flagKept {gs : List (SerFrame V)} (heffect : SerEffect cfg s f w gs)
    (h : FlagKept s.view (f :: fs)) : FlagKept w (gs ++ fs) := by
  -- a command is added to the active ones
  have hput : ∀ {x : ℕ × SerCommand V}, f.clearing = none →
      (s.blockingCmdActive || x.2.isBlocking) = true →
      ∃ y ∈ putEntry x.2 x s.view.active, y.2.isBlocking = true := by
    intro x hf hset
    rcases Bool.or_eq_true_iff.mp hset with hold | hblocking
    · obtain ⟨y, hy, hblocking⟩ := h.blockingActive hf hold
      exact ⟨y, mem_putEntry.mpr (Or.inr hy), hblocking⟩
    · exact ⟨x, mem_putEntry.mpr (Or.inl rfl), hblocking⟩
  intro hset
  cases heffect with
  | @enqueue cmd w node heffect =>
    cases heffect with
    | refused | refusedCounted | queued => exact Or.inl (h.blockingActive rfl hset)
    | admitted node => exact Or.inl (@hput (node, cmd) rfl hset)
  | dequeueNone | activate | activateDequeue | activateCancel | moveEnd =>
    exact Or.inl (h.blockingActive rfl hset)
  | moveNone hlookup => exact Or.inl (h.blockingActive (lookup_clearing hlookup) hset)
  | @dequeue cmd x l₁ l₂ hactive hsame =>
    rw [SerView.dropActive, Bool.and_eq_true] at hset
    obtain ⟨y, hy, hblocking⟩ := h.blockingActive rfl hset.1
    rw [hactive, perm_middle.mem_iff] at hy
    refine Or.inl ⟨y, (mem_cons.mp hy).resolve_left ?_, hblocking⟩
    rintro rfl
    rw [hblocking] at hset
    exact absurd hset.2 Bool.false_ne_true
  | cancelEnd hcancel => exact Or.inl (h.cleared hcancel hset)
  | @cancel f req isActive w e l₁ l₂ cursor hcancel hlist hselects =>
    cases isActive with
    | false =>
      have hkept : w.BlockingActive := h.cleared hcancel hset
      exact Or.inl hkept
    | true =>
      obtain ⟨y, hy, hblocking⟩ := h.cleared hcancel hset
      rw [show w.active = l₁ ++ e.entry :: l₂ from hlist, perm_middle.mem_iff] at hy
      rcases mem_cons.mp hy with rfl | hy
      · exact Or.inr ⟨req, cursor, _, rfl, hblocking⟩
      · exact Or.inl ⟨y, hy, hblocking⟩
  | moved disabled hlookup => exact Or.inl (hput (lookup_clearing hlookup) hset)

omit [DecidableEq V] [Fintype V] in
theorem activated_frames {node : ℕ} (h : Marks s (some node)) :
    (wlanSerializationActivateCmd true node s).2 = [] := by
  have hcleared := h.cleared
  simp only [wlanSerializationActivateCmd]
  split
  · rfl
  · rename_i e hfind
    have he := hcleared.active e (mem_of_find?_eq_some hfind)
    simp [he.removal, he.cancel]

omit [DecidableEq V] [Fintype V] in
theorem activated_view (s : SerPdev V) (node : ℕ) :
    (wlanSerializationActivateCmd true node s).1.view = s.view :=
  view_setInUse s true node _

omit [Fintype V] in
theorem cancelClear_list (isActive : Bool) (cmd : SerCommand V) (s : SerPdev V) :
    (cancelClear isActive cmd s).list isActive = s.list isActive := by
  cases isActive with
  | true => rfl
  | false =>
    rw [cancelClear, if_neg Bool.false_ne_true]
    split <;> simp only [SerPdev.list]

omit [Fintype V] in
theorem Marks.clear (h : Marks s none) (isActive : Bool) (cmd : SerCommand V) :
    Marks (cancelClear isActive cmd s) none := by
  cases isActive with
  | true => exact ⟨h.active, h.pending⟩
  | false =>
    rw [cancelClear, if_neg Bool.false_ne_true]
    split
    · exact ⟨h.active, h.pending⟩
    · exact h

/-- What holds between the steps of operations that leave no command behind. -/
structure Serving (s : SerPdev V) (fs : List (SerFrame V)) : Prop where
  tracked : Tracked s.view fs
  marks : Marks s (fs.head?.bind SerFrame.activates)
  flag : FlagKept s.view fs
  owes : Owes s fs

theorem Serving.owes_step (h : Serving s (f :: fs)) (hok : f.ServesOk cfg s fs) :
    Owes (runFrame cfg true s f).1 ((runFrame cfg true s f).2 ++ fs) := by
  have htracked := h.tracked
  have hmarks := h.marks
  cases h.owes with
  | enqueue cmd hnone =>
    have heffect := enqueue_effect cfg s cmd
    have hnext := heffect.noneStranded hnone htracked (h.flag.blockingActive rfl) hok
    rw [runFrame]
    simp only
    generalize wlanSerializationEnqueueCmd cfg cmd s = r at hnext
    obtain ⟨status, node, t⟩ := r
    cases node with
    | none => exact .idle hnext
    | some node => exact .activate node hnext
  | dequeue cmd hnone =>
    rw [runFrame]
    rcases wlanSerRemoveNonScanCmd_cases cmd true s with
      ⟨hview, hnot⟩ | ⟨e, l₁, l₂, hl, hsame, heq⟩
    · cases hremove : wlanSerRemoveNonScanCmd cmd true s with
      | mk status t =>
        rw [hremove] at hview hnot
        cases status with
        | success e => exact absurd rfl (hnot e)
        | eFailure | ePending => exact .idle (hview ▸ hnone)
    · have he : e ∈ s.activeList := by
        rw [show s.activeList = l₁ ++ e :: l₂ from hl]
        exact mem_append_right _ mem_cons_self
      rw [heq, if_pos rfl]
      refine .moveVdev e.cmd.vdev e.cmd.isBlocking fun hblocking hwaiting => ?_
      refine removed_awaits hnone hl rfl rfl ?_ hblocking hwaiting
        (hok e he ((matchCmd_iff cmd e).mpr hsame))
      rw [hsame.2.2]
      rfl
  | activate node hnone =>
    rw [runFrame, activated_frames hmarks]
    exact .idle (activated_view s node ▸ hnone)
  | activateLast node hnone =>
    rw [runFrame, activated_frames hmarks]
    exact .moveEnd (activated_view s node ▸ hnone)
  | activateNext node hrest =>
    rw [runFrame, activated_frames hmarks]
    exact .moveNext hrest
  | moveEnd hnone =>
    rw [runFrame, Bool.true_or, if_pos rfl]
    exact .idle hnone
  | moveNext hrest =>
    rw [runFrame, Bool.false_or]
    split
    · rename_i hset
      exact hrest.owes (h.flag.blockingActive rfl hset).noneStranded
    · exact movePdev_owes cfg htracked hrest.clearing hmarks hrest
  | movePdev b hrest =>
    rw [runFrame, ite_self]
    exact movePdev_owes cfg htracked hrest.clearing hmarks hrest
  | moveVdev v b hawaits =>
    rw [runFrame, append_nil]
    by_cases hlookup : (!b && decide (s.blockingCmdWaiting = 0)) = true
    · rw [if_pos hlookup]
      rw [Bool.and_eq_true, Bool.not_eq_true', decide_eq_true_eq] at hlookup
      exact moveVdev_owes cfg htracked hmarks (hawaits hlookup.1 hlookup.2)
    · rw [if_neg hlookup]
      have hnext := movePdev_owes cfg htracked rfl hmarks .nil
      rwa [append_nil] at hnext
  | cancelActive hreq hrest hnone =>
    have howed : CancelOwed _ fs s.view true := fun hne =>
      hnone.served.of_spares (hrest.pending_subset s.view _) (hok hne)
    exact cancelLoop_owes (htracked.of_cons rfl) hmarks hreq hrest (fun hne => by cases hne)
      (nil_append _).symm (fun x hx => absurd hx not_mem_nil) howed
  | cancelPending hreq hserved hidle =>
    have hafter := hserved.elim
      (fun h => h.of_spares (without_pending_subset s.view _) hok) id
    exact cancelLoop_owes (htracked.of_cons rfl) hmarks hreq .nil (fun _ => rfl)
      (nil_append _).symm (fun x hx => absurd hx not_mem_nil) ⟨hafter, hidle⟩
  | @cancelling req isActive rest l₁ l₂ removed hreq hrest hside hl hpassed hone howed =>
    have hview := view_cancelClear s isActive removed
    have htracked' : Tracked (cancelClear isActive removed s).view fs :=
      htracked.cleared (by rw [hview]; rfl)
    have howed' : CancelOwed req fs (cancelClear isActive removed s).view isActive :=
      hview ▸ howed.cleared removed
    have hl' : (cancelClear isActive removed s).list isActive = l₁ ++ l₂ :=
      (cancelClear_list isActive removed s).trans hl
    rw [runFrame]
    split
    · rename_i hend
      refine cancelEnd_owes htracked' hrest hside (fun e he => ?_) howed'
      rw [hl'] at he
      exact (mem_append.mp he).elim (hpassed e) (hone hend e)
    · exact cancelLoop_owes htracked' (hmarks.clear isActive removed) hreq hrest hside hl' hpassed
        howed'

theorem Serving.step (h : Serving s (f :: fs)) (hok : f.ServesOk cfg s fs) :
    Serving (runFrame cfg true s f).1 ((runFrame cfg true s f).2 ++ fs) := by
  have heffect := runFrame_effect cfg true h.tracked
  exact ⟨heffect.tracked h.tracked, marks_runFrame cfg true h.marks fs, heffect.flagKept h.flag,
    h.owes_step hok⟩

theorem Serving.create (cfg : SerConfig V) : Serving (SerPdev.create cfg) [] := by
  refine ⟨Tracked.create cfg, Marks.create cfg, fun hset => absurd hset Bool.false_ne_true, ?_⟩
  exact .idle ⟨fun x hx => absurd hx not_mem_nil, fun _ => rfl⟩

omit [Fintype V] in
theorem Owes.noneStranded (h : Owes s []) : s.view.NoneStranded := by
  generalize hfs : ([] : List (SerFrame V)) = fs at h
  cases h with
  | idle h => exact h
  | _ => exact absurd hfs.symm (cons_ne_nil _ _)

omit [Fintype V] in
theorem Owes.started (h : Owes s []) (op : SerOp V) : Owes s op.frames := by
  have hnone := h.noneStranded
  cases op with
  | request cmd => exact .enqueue cmd hnone
  | remove cmd => exact .dequeue cmd hnone
  | cancel reqType cmd activeQueue pendingQueue =>
    have hreq := namesOne_find cmd reqType
    cases activeQueue <;> cases pendingQueue
    · exact .idle hnone
    · exact .cancelPending hreq (Or.inl hnone.served) hnone.idle
    · exact .cancelActive hreq .nil hnone
    · exact .cancelActive hreq (.cancel hreq) hnone

omit [Fintype V] in
theorem Serving.started (h : Serving s []) (op : SerOp V) : Serving s op.frames := by
  refine ⟨append_nil op.frames ▸ h.tracked.started op, h.marks.started op, fun hset => ?_,
    h.owes.started op⟩
  refine Or.inl ((h.flag hset).resolve_right ?_)
  rintro ⟨_, _, _, hnone, -⟩
  exact Option.some_ne_none _ hnone.symm

theorem Serving.of_run (cfg : SerConfig V) {s : SerTask V} (hrun : Relation.ReflTransGen
      (GuardedStep (SerTask.ServesOk cfg) (SerTask.step cfg)) (SerTask.create cfg) s) :
    Serving s.pdev s.todo := by
  have hstep : ∀ (s : SerTask V) c, Serving s.pdev s.todo → s.ServesOk cfg c →
      Serving (s.step cfg c).pdev (s.step cfg c).todo := by
    intro s c h hok
    obtain ⟨pdev, todo⟩ := s
    cases c with
    | start op =>
      rw [SerTask.step]
      split
      · rename_i hidle
        obtain rfl : todo = [] := hidle
        exact h.started op
      · exact h
    | run activated =>
      obtain ⟨rfl, hok⟩ := hok
      cases todo with
      | nil => exact h
      | cons f rest => exact h.step (hok f rfl)
  exact invariant_of_guarded hstep (Serving.create cfg) hrun

/-- A command that is pending after an operation waits for an active command of its vdev or for a
blocking command, and none is pending on an idle pdev. -/
theorem noneStranded_of_run (cfg : SerConfig V) {s : SerTask V} (hrun : Relation.ReflTransGen
      (GuardedStep (SerTask.ServesOk cfg) (SerTask.step cfg)) (SerTask.create cfg) s)
    (hdone : s.todo = []) :
    (∀ e ∈ s.pdev.pendingList, (∃ x ∈ s.pdev.activeList, x.cmd.vdev = e.cmd.vdev) ∨
      (∃ x ∈ s.pdev.activeList, x.cmd.isBlocking = true) ∨
      ∃ x ∈ s.pdev.pendingList, x.cmd.isBlocking = true) ∧
    (s.pdev.activeList = [] → s.pdev.pendingList = []) := by
  have howes := (Serving.of_run cfg hrun).owes
  rw [hdone] at howes
  have hnone := howes.noneStranded
  have hentries : ∀ (p : SerCommand V → Prop) {l : List (CommandList V)},
      (∃ x ∈ l.map CommandList.entry, p x.2) → ∃ x ∈ l, p x.cmd := by
    rintro p l ⟨x, hx, hp⟩
    obtain ⟨e, he, rfl⟩ := mem_map.mp hx
    exact ⟨e, he, hp⟩
  refine ⟨fun e he => ?_, fun hnil => ?_⟩
  · exact (hnone.served e.entry (mem_map_of_mem he)).imp
      (hentries fun cmd => cmd.vdev = e.cmd.vdev)
      (Or.imp (hentries fun cmd => cmd.isBlocking = true)
        (hentries fun cmd => cmd.isBlocking = true))
  · exact map_eq_nil_iff.mp (hnone.idle (congrArg (map CommandList.entry) hnil))

omit [Fintype V] [DecidableEq V] in
instance (w : SerView V) : Decidable w.BlockingActive :=
  inferInstanceAs (Decidable (∃ x ∈ w.active, x.2.isBlocking = true))

omit [Fintype V] [DecidableEq V] in
instance (s : SerPdev V) : (e : Option (CommandList V)) → Decidable (s.FindsNext e)
  | none => inferInstanceAs (Decidable (s.activeList.length = 1 → s.pendingList = []))
  | some e => inferInstanceAs (Decidable (e.cmdInUse.markedForMovement = true →
      s.activeList.length ≠ 1 ∧
        (s.view.BlockingActive ∨ ∃ x ∈ s.view.pending, x.2.isBlocking = true)))

omit [Fintype V] in
instance (s : SerPdev V) (cmd : SerCommand V) : Decidable (s.RemovalServes cmd) :=
  inferInstanceAs (Decidable (cmd.isBlocking = false → s.blockingCmdWaiting = 0 →
    s.FindsNext (s.vdevList false cmd.vdev).head?))

omit [Fintype V] in
instance (w w' : SerView V) : Decidable (w.Spares w') :=
  inferInstanceAs (Decidable ((∃ x ∈ w'.active ++ w'.pending, x.2.isBlocking = true) ∨
    (∀ x ∈ w.active, x ∉ w'.active → ∀ y ∈ w'.pending, y.2.vdev ≠ x.2.vdev) ∧
    ((∃ x ∈ w.active ++ w.pending, x ∉ w'.active ++ w'.pending ∧ x.2.isBlocking = true) →
      ∀ y ∈ w'.pending, ∃ x ∈ w'.active, x.2.vdev = y.2.vdev)))

instance (cfg : SerConfig V) (s : SerPdev V) (rest : List (SerFrame V)) :
    (f : SerFrame V) → Decidable (f.ServesOk cfg s rest)
  | .enqueue cmd => inferInstanceAs (Decidable (cmd.isBlocking = false →
      cmd.vdev ∉ s.queueDisable → s.HasRoom cfg cmd → s.blockingCmdActive = false →
        cmd.vdev ∉ s.vdevActiveCmdBitmap → s.blockingCmdWaiting % 2 ^ 8 ≠ 0 →
          ∃ x ∈ s.view.active ++ s.view.pending, x.2.isBlocking = true))
  | .dequeue cmd => inferInstanceAs (Decidable (∀ e ∈ s.activeList, matchCmd cmd e = true →
      s.RemovalServes e.cmd))
  | .cancel req true => inferInstanceAs (Decidable ((s.view.without req true).active ≠ [] →
      s.view.Spares ((s.view.without req true).afterLast rest)))
  | .cancel req false => inferInstanceAs (Decidable (s.view.Spares (s.view.without req false)))
  | .cancelResume _ _ _ _ | .activate _ | .move _ _ | .moveResume _ => .isTrue trivial

instance (cfg : SerConfig V) (s : SerTask V) : (c : SerTaskStep V) → Decidable (s.ServesOk cfg c)
  | .start _ => .isTrue trivial
  | .run activated => inferInstanceAs (Decidable (activated = true ∧
      ∀ f ∈ s.todo.head?, f.ServesOk cfg s.pdev s.todo.tail))

/-- A command that waits behind a blocking one is cancelled and another one requested, and the
active command is removed. -/
def restartServed : List (SerTaskStep (Fin 3)) :=
  [.start (.request (.roam 1 0)), .run true, .run true, .start (.request (.restart 2 1)),
    .run true, .start (.request (.roam 3 2)), .run true,
    .start (.cancel .nonScanCmd (.roam 3 2) true true), .run true, .run true, .run true,
    .start (.request (.roam 4 2)), .run true, .start (.remove (.roam 1 0)),
    .run true, .run true, .run true, .run true]

theorem noneStranded_of_run_restartServed :
    let s := restartServed.foldl (SerTask.step .threeVdevs) (.create .threeVdevs)
    (∀ e ∈ s.pdev.pendingList, (∃ x ∈ s.pdev.activeList, x.cmd.vdev = e.cmd.vdev) ∨
      (∃ x ∈ s.pdev.activeList, x.cmd.isBlocking = true) ∨
      ∃ x ∈ s.pdev.pendingList, x.cmd.isBlocking = true) ∧
    (s.pdev.activeList = [] → s.pdev.pendingList = []) :=
  noneStranded_of_run .threeVdevs (guarded_foldl (by decide +kernel)) (by decide +kernel)

def restartCancelled : List (SerTaskStep (Fin 3)) :=
  [.start (.request (.roam 1 0)), .run true, .run true, .start (.request (.restart 2 1)),
    .run true, .start (.request (.roam 3 2)), .run true,
    .start (.cancel .nonScanCmd (.restart 2 1) false true), .run true, .run true]

/-- Nothing is left that the command of the third vdev could wait for. -/
theorem restartCancelled_strands :
    let s := restartCancelled.foldl (SerTask.step .threeVdevs) (.create .threeVdevs)
    s.todo = [] ∧ ∃ e ∈ s.pdev.pendingList, (∀ x ∈ s.pdev.activeList, x.cmd.vdev ≠ e.cmd.vdev) ∧
      (∀ x ∈ s.pdev.activeList, x.cmd.isBlocking = false) ∧
      ∀ x ∈ s.pdev.pendingList, x.cmd.isBlocking = false := by
  decide +kernel

end QcomModules.Wlan
