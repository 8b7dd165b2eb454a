import QcomModules.Wlan.SerializationRuns

/-! Which commands are active together, under any interleaving of the locked sections.

The section that removes an active command and the one that moves pending commands are separate,
and the move does not test for a blocking command that became active in between. A move that
searches the queue of one vdev does not test whether the command that it finds is blocking. -/

namespace QcomModules.Wlan

open Library List

variable {V : Type} [DecidableEq V]

/-- At most one command of a vdev is active, its bit is set, and a blocking command is alone. -/
structure Exclusive (s : SerPdev V) : Prop where
  vdevs : (s.activeList.map (·.cmd.vdev)).Nodup
  bits : ∀ e ∈ s.activeList, e.cmd.vdev ∈ s.vdevActiveCmdBitmap
  alone : ∀ e ∈ s.activeList, e.cmd.isBlocking = true → s.activeList = [e]

/-! ## The steps that go wrong -/

def SerPdev.BlockingActive (s : SerPdev V) : Prop := ∃ e ∈ s.activeList, e.cmd.isBlocking = true

/-- The command that a move would activate does not meet a blocking one, or any one if it is
blocking itself. -/
def SerPdev.MoveOk (s : SerPdev V) : Option V → Prop
  | some vdev => vdev ∉ s.vdevActiveCmdBitmap → ∀ e ∈ (s.vdevList false vdev).head?,
      e.cmdInUse.markedForMovement = false →
        if e.cmd.isBlocking then s.vdevActiveCmdBitmap = ∅ else ¬ s.BlockingActive
  | none => s.BlockingActive →
      ∀ e ∈ s.pendingList.takeWhile fun e => !e.cmd.isBlocking,
        e.cmd.vdev ∈ s.vdevActiveCmdBitmap

/-- The first step of a move. -/
def SerFrame.MoveOk (s : SerPdev V) : SerFrame V → Prop
  | .move vdev blockingCmdRemoved =>
    s.MoveOk (if !blockingCmdRemoved && s.blockingCmdWaiting = 0 then vdev else none)
  | _ => True

def SerFrame.Ok (s : SerPdev V) (f : SerFrame V) : Prop := f.CursorOk s ∧ f.MoveOk s

instance (s : SerPdev V) : Decidable s.BlockingActive :=
  inferInstanceAs (Decidable (∃ e ∈ s.activeList, e.cmd.isBlocking = true))

instance (s : SerPdev V) : (lookup : Option V) → Decidable (s.MoveOk lookup)
  | some vdev => inferInstanceAs (Decidable (vdev ∉ s.vdevActiveCmdBitmap →
      ∀ e ∈ (s.vdevList false vdev).head?, e.cmdInUse.markedForMovement = false →
        if e.cmd.isBlocking then s.vdevActiveCmdBitmap = ∅ else ¬ s.BlockingActive))
  | none => inferInstanceAs (Decidable (s.BlockingActive →
      ∀ e ∈ s.pendingList.takeWhile fun e => !e.cmd.isBlocking,
        e.cmd.vdev ∈ s.vdevActiveCmdBitmap))

instance (s : SerPdev V) : (f : SerFrame V) → Decidable (f.MoveOk s)
  | .move _ _ => inferInstanceAs (Decidable (s.MoveOk _))
  | .enqueue _ | .dequeue _ | .cancel _ _ | .cancelResume _ _ _ _ | .activate _ | .moveResume _ =>
    .isTrue trivial

instance (s : SerPdev V) (f : SerFrame V) : Decidable (f.Ok s) :=
  inferInstanceAs (Decidable (f.CursorOk s ∧ f.MoveOk s))

/-! ## The invariant -/

/-- A blocking command is the only one that holds a vdev, and its flag is set. -/
structure Exclusion (w : SerView V) (fs : List (SerFrame V)) : Prop extends Tracked w fs where
  alone : ∀ x ∈ w.active, x.2.isBlocking = true →
    w.active = [x] ∧ fs.filterMap SerFrame.clearing = [] ∧ w.blockingActive = true

variable {s : SerPdev V} {fs gs : List (SerFrame V)} {w w' : SerView V} {x : ℕ × SerCommand V}
  {l₁ l₂ : List (ℕ × SerCommand V)} {f : SerFrame V}

theorem Exclusion.exclusive (h : Exclusion s.view fs) : Exclusive s := by
  refine ⟨?_, fun e he => h.mem_bitmap (mem_map_of_mem he), fun e he hblocking => ?_⟩
  · have hvdevs := h.vdevs.of_append_left
    rwa [SerPdev.view, map_map] at hvdevs
  · obtain ⟨halone, -⟩ := h.alone e.entry (mem_map_of_mem he) hblocking
    obtain ⟨e', hlist, -⟩ := map_eq_singleton_iff.mp halone
    rw [hlist] at he ⊢
    rw [mem_singleton.mp he]

theorem heldVdevs_nil (h : Tracked w fs) (hidle : w.bitmap = ∅) :
    w.active = [] ∧ fs.filterMap SerFrame.clearing = [] := by
  rw [h.bitmap, toFinset_eq_empty_iff, SerView.heldVdevs, append_eq_nil_iff,
    map_eq_nil_iff] at hidle
  exact hidle

theorem Exclusion.activated (h : Exclusion w fs) (hactive : w'.active = putEntry x.2 x w.active)
    (hblocking : w'.blockingActive = (w.blockingActive || x.2.isBlocking))
    (hsafe : if x.2.isBlocking then w.bitmap = ∅ else ∀ y ∈ w.active, y.2.isBlocking = false)
    (htracked : Tracked w' fs) : Exclusion w' fs := by
  refine ⟨htracked, fun y hy hyblocking => ?_⟩
  cases hx : x.2.isBlocking with
  | true =>
    rw [if_pos hx] at hsafe
    obtain ⟨hnil, hclearing⟩ := heldVdevs_nil h.toTracked hsafe
    have hsingle : w'.active = [x] := by
      rw [hactive, hnil, putEntry]
      split <;> rfl
    rw [hsingle, mem_singleton] at hy
    exact ⟨hy ▸ hsingle, hclearing, by rw [hblocking, hx, Bool.or_true]⟩
  | false =>
    rw [if_neg (by simp [hx])] at hsafe
    rw [hactive, (putEntry_perm x.2 x w.active).mem_iff, mem_cons] at hy
    rcases hy with rfl | hy
    · simp [hx] at hyblocking
    · simp [hsafe y hy] at hyblocking

theorem Exclusion.same (h : Exclusion w fs) (hactive : w'.active = w.active)
    (hkept : fs.filterMap SerFrame.clearing = [] → gs.filterMap SerFrame.clearing = [] ∧
      (w.blockingActive = true → w'.blockingActive = true)) (htracked : Tracked w' gs) :
    Exclusion w' gs := by
  refine ⟨htracked, fun x hx hxblocking => ?_⟩
  rw [hactive] at hx ⊢
  obtain ⟨halone, hclearing, hblocking⟩ := h.alone x hx hxblocking
  exact ⟨halone, (hkept hclearing).1, (hkept hclearing).2 hblocking⟩

theorem Exclusion.not_beside (h : Exclusion w fs) {y : ℕ × SerCommand V}
    (hlist : w.active = l₁ ++ x :: l₂) (hy : y ∈ l₁ ++ l₂) : y.2.isBlocking = false := by
  refine Bool.eq_false_iff.mpr fun hblocking => ?_
  have hmem : y ∈ w.active := by
    rw [hlist, perm_middle.mem_iff]
    exact mem_cons_of_mem x hy
  have hlength := congrArg length (hlist.symm.trans (h.alone y hmem hblocking).1)
  have hpos := length_pos_of_mem hy
  simp only [length_append, length_cons, length_nil] at hlength hpos
  omega

theorem Exclusion.dropped (h : Exclusion w fs) (hlist : w.active = l₁ ++ x :: l₂)
    (hactive : w'.active = l₁ ++ l₂) (htracked : Tracked w' gs) : Exclusion w' gs := by
  refine ⟨htracked, fun y hy hyblocking => ?_⟩
  rw [h.not_beside hlist (hactive ▸ hy)] at hyblocking
  exact absurd hyblocking Bool.false_ne_true

omit [DecidableEq V] in
theorem filterMap_cons_eq_nil (h : (f :: fs).filterMap SerFrame.clearing = []) :
    f.clearing = none ∧ fs.filterMap SerFrame.clearing = [] := by
  rw [filterMap_eq_nil_iff] at h ⊢
  exact ⟨h f mem_cons_self, fun g hg => h g (mem_cons_of_mem f hg)⟩

theorem Exclusion.of_cons (h : Exclusion w (f :: fs)) (hf : f.clearing = none) : Exclusion w fs :=
  h.same rfl (fun hnil => ⟨(filterMap_cons_eq_nil hnil).2, id⟩) (h.toTracked.of_cons hf)

theorem Exclusion.cons (h : Exclusion w fs) (hf : f.clearing = none) : Exclusion w (f :: fs) :=
  h.same rfl (fun hnil => ⟨by rw [filterMap_cons_none hf, hnil], id⟩) (h.toTracked.cons hf)

theorem Exclusion.cleared (h : Exclusion s.view (f :: fs)) {req : CancelReq V} {isActive : Bool}
    (hcancel : f.cancelling s = some (req, isActive, w)) : Exclusion w fs := by
  have htracked := h.toTracked.cleared hcancel
  cases f with
  | cancel req' isActive' =>
    obtain ⟨-, -, rfl⟩ : req' = req ∧ isActive' = isActive ∧ s.view = w := by
      simpa [SerFrame.cancelling] using hcancel
    exact h.of_cons rfl
  | cancelResume req' isActive' cursor removed =>
    obtain ⟨-, -, rfl⟩ : req' = req ∧ isActive' = isActive ∧
        s.view.clear isActive' removed = w := by
      simpa [SerFrame.cancelling] using hcancel
    refine h.same (s.view.clear_list isActive' true removed) (fun hnil => ?_) htracked
    obtain ⟨hclearing, hrest⟩ := filterMap_cons_eq_nil hnil
    refine ⟨hrest, fun hblocking => ?_⟩
    cases isActive' with
    | true => exact absurd hclearing (by simp [SerFrame.clearing])
    | false =>
      rw [SerView.clear, if_neg Bool.false_ne_true]
      split <;> exact hblocking
  | enqueue | dequeue | activate | move | moveResume => simp [SerFrame.cancelling] at hcancel

theorem Exclusion.enqueued [Fintype V] {cfg : SerConfig V} {s : SerPdev V}
    {fs : List (SerFrame V)} {cmd : SerCommand V} {w : SerView V} {node : Option ℕ}
    (h : Exclusion s.view fs) (heffect : EnqueueEffect cfg s cmd w node) : Exclusion w fs := by
  have htracked := h.toTracked.enqueued heffect
  cases heffect with
  | refused | refusedCounted | queued => exact h.same rfl (fun hnil => ⟨hnil, id⟩) htracked
  | admitted node pool disabled hpool henabled hallows =>
    refine h.activated (x := (node, cmd)) rfl rfl ?_ htracked
    have hfirst := hallows.1
    cases hblocking : cmd.isBlocking with
    | true =>
      rw [if_pos hblocking] at hfirst
      rwa [if_pos rfl]
    | false =>
      rw [if_neg (by simp [hblocking])] at hfirst
      rw [if_neg Bool.false_ne_true]
      intro y hy
      by_contra hyblocking
      have hflag : s.blockingCmdActive = true :=
        (h.alone y hy (by simpa using hyblocking)).2.2
      rw [hfirst.1] at hflag
      exact Bool.false_ne_true hflag

omit [DecidableEq V] in
theorem mem_takeWhile {e : CommandList V} (hpending : s.view.pending = l₁ ++ e.entry :: l₂)
    (hbefore : ∀ p ∈ l₁, p.2.isBlocking = false) (he : e.cmd.isBlocking = false) :
    ∃ x ∈ s.pendingList.takeWhile fun e => !e.cmd.isBlocking, x.entry = e.entry := by
  have hview : (s.view.pending.takeWhile fun p => !p.2.isBlocking) =
      (s.pendingList.takeWhile fun e => !e.cmd.isBlocking).map CommandList.entry := by
    rw [SerPdev.view, takeWhile_map]
    rfl
  refine mem_map.mp (hview ▸ ?_)
  rw [hpending, takeWhile_append_of_pos (by simpa using hbefore),
    takeWhile_cons_of_pos (by simpa [CommandList.entry] using he)]
  exact mem_append_right l₁ mem_cons_self

/-- What a step would activate does not meet a blocking command, or any one if it is blocking. -/
def SerFrame.MovesSafely (s : SerPdev V) (f : SerFrame V) : Prop :=
  ∀ {lookup : Option V} {e : CommandList V} {l₁ l₂ : List (ℕ × SerCommand V)},
    f.lookup s = some lookup → (searchPending lookup s).2 = some e →
    s.view.pending = l₁ ++ e.entry :: l₂ → Picks lookup s.vdevActiveCmdBitmap l₁ e.cmd →
      if e.cmd.isBlocking then s.vdevActiveCmdBitmap = ∅
      else ∀ y ∈ s.view.active, y.2.isBlocking = false

theorem Exclusion.move_safe (h : Exclusion s.view fs) (hok : f.Ok s) : f.MovesSafely s := by
  intro lookup e l₁ l₂ hlookup hsearch hpending hpicks
  have hnone : ¬ s.BlockingActive → ∀ y ∈ s.view.active, y.2.isBlocking = false := by
    intro hnot y hy
    obtain ⟨x, hx, rfl⟩ := mem_map.mp hy
    exact Bool.eq_false_iff.mpr fun hblocking => hnot ⟨x, hx, hblocking⟩
  cases lookup with
  | some vdev =>
    obtain ⟨v, b, rfl⟩ : ∃ v b, f = .move v b := by
      cases f with
      | move v b => exact ⟨v, b, rfl⟩
      | moveResume q => simp [SerFrame.lookup] at hlookup
      | enqueue | dequeue | cancel | cancelResume | activate => simp [SerFrame.lookup] at hlookup
    have hmove : s.MoveOk (some vdev) := Option.some.inj hlookup ▸ hok.2
    simp only [searchPending] at hsearch
    split at hsearch
    · simp at hsearch
    rename_i hidle
    obtain ⟨hhead, hunmarked⟩ := Option.filter_eq_some_iff.mp hsearch
    have hsafe := hmove hidle e hhead (by simpa using hunmarked)
    split at hsafe <;> rename_i hblocking
    · rwa [if_pos hblocking]
    · rw [if_neg hblocking]
      exact hnone hsafe
  | none =>
    obtain ⟨hidle, hbefore, hblocking⟩ := hpicks
    cases heblocking : e.cmd.isBlocking with
    | true =>
      rw [if_pos rfl]
      exact hblocking heblocking
    | false =>
      rw [if_neg Bool.false_ne_true]
      cases f with
      | move v b =>
        have hmove : s.MoveOk none := Option.some.inj hlookup ▸ hok.2
        refine hnone fun hactive => hidle ?_
        obtain ⟨x, hx, hentry⟩ :=
          mem_takeWhile hpending (fun p hp => (hbefore p hp).2) heblocking
        rw [← show x.cmd = e.cmd from congrArg Prod.snd hentry]
        exact hmove hactive x hx
      | moveResume q =>
        simp only [SerFrame.lookup] at hlookup
        split at hlookup
        · simp at hlookup
        rename_i hstop
        intro y hy
        refine Bool.eq_false_iff.mpr fun hyblocking => hstop ?_
        rw [show s.blockingCmdActive = true from (h.alone y hy hyblocking).2.2, Bool.or_true]
      | enqueue | dequeue | cancel | cancelResume | activate =>
        simp [SerFrame.lookup] at hlookup

theorem SerEffect.exclusion [Fintype V] {cfg : SerConfig V} {s : SerPdev V} {f : SerFrame V}
    {fs gs : List (SerFrame V)} {w : SerView V} (heffect : SerEffect cfg s f w gs)
    (h : Exclusion s.view (f :: fs)) (hsafe : f.MovesSafely s) : Exclusion w (gs ++ fs) := by
  have htracked := heffect.tracked h.toTracked
  cases heffect with
  | enqueue heffect =>
    have hrest := (h.of_cons rfl).enqueued heffect
    cases heffect with
    | refused | refusedCounted | queued => exact hrest
    | admitted => exact hrest.cons rfl
  | dequeueNone | activate | moveEnd => exact h.of_cons rfl
  | moveNone hlookup => exact h.of_cons (lookup_clearing hlookup)
  | dequeue hactive hsame => exact h.dropped hactive rfl htracked
  | cancelEnd hcancel =>
    have hrest := h.cleared hcancel
    split
    · exact hrest.cons rfl
    · exact hrest
  | @cancel f req isActive w e l₁ l₂ cursor hcancel hlist hselects =>
    have hrest := h.cleared hcancel
    cases isActive with
    | true => exact hrest.dropped hlist rfl htracked
    | false => exact hrest.same rfl (fun hnil => ⟨hnil, id⟩) htracked
  | activateDequeue | activateCancel => exact (h.of_cons rfl).cons rfl
  | moved disabled hlookup hsearch hpending hpicks =>
    have hrest := h.of_cons (lookup_clearing hlookup)
    exact ((hrest.activated rfl rfl (hsafe hlookup hsearch hpending hpicks)
        (hrest.toTracked.moved hpending hpicks.1 disabled)).cons
      rfl).cons rfl

/-! ## Runs -/

theorem Exclusion.create [Fintype V] (cfg : SerConfig V) :
    Exclusion (SerPdev.create cfg).view [] :=
  ⟨Tracked.create cfg, fun _ hx => absurd hx not_mem_nil⟩

omit [DecidableEq V] in
theorem SerOp.frames_clearing (op : SerOp V) : op.frames.filterMap SerFrame.clearing = [] := by
  cases op with
  | request cmd => rfl
  | remove cmd => rfl
  | cancel reqType cmd activeQueue pendingQueue => cases activeQueue <;> cases pendingQueue <;> rfl

theorem Exclusion.started (h : Exclusion w fs) (op : SerOp V) : Exclusion w (op.frames ++ fs) :=
  h.same rfl (fun hnil => ⟨by rw [filterMap_append, op.frames_clearing, hnil]; rfl, id⟩)
    (h.toTracked.started op)

theorem Exclusion.perm (h : Exclusion w fs) (hperm : fs.Perm gs) : Exclusion w gs :=
  h.same rfl (fun hnil => ⟨(hnil ▸ hperm.filterMap SerFrame.clearing).nil_eq.symm, id⟩)
    (h.toTracked.perm hperm)

theorem Exclusion.step [Fintype V] (cfg : SerConfig V) (s : SerSystem V) (c : SerStep V)
    (h : Exclusion s.pdev.view s.threads.flatten) (hok : s.StepOk SerFrame.Ok c) :
    Exclusion (s.step cfg c).pdev.view (s.step cfg c).threads.flatten := by
  cases c with
  | start op =>
    have hflatten : (s.threads ++ [op.frames]).flatten = s.threads.flatten ++ op.frames := by
      rw [flatten_append, flatten_singleton]
    exact ((h.started op).perm perm_append_comm).perm (hflatten ▸ Perm.refl _)
  | run thread activated =>
    rw [SerSystem.step]
    split
    · rename_i f rest hthread
      obtain ⟨others, hperm, hset⟩ := threads_perm hthread
      have hf : f.Ok s.pdev := hok f (by rw [hthread]; rfl)
      have hothers := h.perm hperm
      have heffect := runFrame_effect cfg activated hothers.toTracked
      exact (heffect.exclusion hothers (hothers.move_safe hf)).perm (hset _).symm
    · exact h

/-- Active commands exclude each other in every run with good moves. -/
theorem active_commands_exclusive [Fintype V] (cfg : SerConfig V) {s : SerSystem V}
    (hrun : Relation.ReflTransGen (GuardedStep (SerSystem.StepOk SerFrame.Ok) (SerSystem.step cfg))
      (SerSystem.create cfg) s) : Exclusive s.pdev := by
  have hstep : ∀ (s : SerSystem V) c,
      Exclusion s.pdev.view s.threads.flatten → s.StepOk SerFrame.Ok c →
      Exclusion (s.step cfg c).pdev.view (s.step cfg c).threads.flatten :=
    fun s c => Exclusion.step cfg s c
  exact (invariant_of_guarded hstep (Exclusion.create cfg) hrun).exclusive

/-- A command is removed, and the next command of its vdev and a blocking one follow in turn. -/
def removeAndMove : List (SerStep (Fin 3)) :=
  [.start (.request (.roam 1 0)), .run 0 true, .run 0 true, .start (.request (.roam 2 0)),
    .run 1 true, .start (.request (.restart 3 1)), .run 2 true, .start (.remove (.roam 1 0)),
    .run 3 true, .run 3 true, .run 3 true, .start (.remove (.roam 2 0)), .run 4 true, .run 4 true,
    .run 4 true, .run 4 true]

theorem active_commands_exclusive_removeAndMove :
    Exclusive (removeAndMove.foldl (SerSystem.step .threeVdevs) (.create .threeVdevs)).pdev :=
  active_commands_exclusive .threeVdevs (guarded_foldl (by decide +kernel))

/-- A blocking command becomes active between a removal and the move that follows it. -/
def restartBetween : List (SerStep (Fin 3)) :=
  [.start (.request (.roam 1 0)), .run 0 true, .run 0 true, .start (.request (.roam 2 0)),
    .run 1 true, .start (.remove (.roam 1 0)), .run 2 true, .start (.request (.restart 3 1)),
    .run 3 true, .run 2 true]

theorem restartBetween_not_exclusive :
    ¬ Exclusive (restartBetween.foldl (SerSystem.step .threeVdevs) (.create .threeVdevs)).pdev := by
  have hboth : (restartBetween.foldl (SerSystem.step .threeVdevs)
      (.create .threeVdevs)).pdev.activeList.map (·.cmd) = [.restart 3 1, .roam 2 0] := by
    decide +kernel
  intro h
  obtain ⟨e, he, hcmd⟩ := mem_map.mp (hboth ▸ mem_cons_self :
    SerCommand.restart 3 1 ∈ _)
  rw [h.alone e he (by rw [hcmd]; rfl)] at hboth
  simp at hboth

end QcomModules.Wlan
