import QcomModules.Wlan.SerializationRuns

/-! The counter of the blocking commands that wait, when operations are executed one after another.

A request raises the counter before the request is known to be accepted, and it raises the counter
only if another command is active. -/

namespace QcomModules.Wlan

open Library List

variable {V : Type}

/-! ## Counted queues -/

/-- A cancellation that still has to lower the counter. -/
def SerFrame.lowers : SerFrame V → Bool
  | .cancelResume _ false _ removed => removed.isBlocking
  | _ => false

/-- The blocking commands that wait, and those whose cancellation is not complete. -/
def SerView.blockingCount (w : SerView V) (fs : List (SerFrame V)) : ℕ :=
  w.pending.countP (·.2.isBlocking) + fs.countP SerFrame.lowers

variable [DecidableEq V] [Fintype V]

structure Counted (cfg : SerConfig V) (w : SerView V) (fs : List (SerFrame V)) : Prop where
  waiting : w.waiting = w.blockingCount fs % 2 ^ 16
  length : w.pending.length ≤ cfg.maxPendingCmds

/-- A blocking request is counted if it is accepted as pending, and only then. -/
def SerPdev.RequestOk (s : SerPdev V) (cfg : SerConfig V) (cmd : SerCommand V) : Prop :=
  cmd.isBlocking = true → cmd.vdev ∉ s.queueDisable →
    if s.vdevActiveCmdBitmap = ∅ then s.vdevList false cmd.vdev = [] ∨ ¬ s.HasRoom cfg cmd
    else s.HasRoom cfg cmd

def SerFrame.CountOk (cfg : SerConfig V) (s : SerPdev V) : SerFrame V → Prop
  | .enqueue cmd => s.RequestOk cfg cmd
  | _ => True

/-! ## The effect of a step on the counter -/

omit [DecidableEq V] [Fintype V] in
theorem blockingCount_cons (w : SerView V) (f : SerFrame V) (fs : List (SerFrame V)) :
    w.blockingCount (f :: fs) = w.blockingCount fs + f.lowers.toNat := by
  rw [SerView.blockingCount, SerView.blockingCount, countP_cons, Nat.add_assoc]
  cases f.lowers <;> rfl

variable {w w' : SerView V} {cmd : SerCommand V} {x : ℕ × SerCommand V}
  {l₁ l₂ : List (ℕ × SerCommand V)} {cfg : SerConfig V} {s : SerPdev V} {f : SerFrame V}
  {isActive : Bool} {gs : List (SerFrame V)}

omit [DecidableEq V] [Fintype V] in
theorem blockingCount_congr (h : w'.pending = w.pending) (fs : List (SerFrame V)) :
    w'.blockingCount fs = w.blockingCount fs := by
  rw [SerView.blockingCount, SerView.blockingCount, h]

inductive CountEffect (cfg : SerConfig V) (s : SerPdev V) (f : SerFrame V) (count : ℕ) :
    ℕ → ℕ → Prop where
  | same : CountEffect cfg s f count count s.blockingCmdWaiting
  | raised {cmd : SerCommand V} (hf : f = .enqueue cmd) (hblocking : cmd.isBlocking = true)
      (henabled : cmd.vdev ∉ s.queueDisable) (hany : s.vdevActiveCmdBitmap ≠ ∅) :
      CountEffect cfg s f count (count + 1) ((s.blockingCmdWaiting + 1) % 2 ^ 16)
  | refused {cmd : SerCommand V} (hf : f = .enqueue cmd) (hblocking : cmd.isBlocking = true)
      (henabled : cmd.vdev ∉ s.queueDisable) (hany : s.vdevActiveCmdBitmap ≠ ∅)
      (hroom : ¬ s.HasRoom cfg cmd) :
      CountEffect cfg s f count count ((s.blockingCmdWaiting + 1) % 2 ^ 16)
  | missed {cmd : SerCommand V} (hf : f = .enqueue cmd) (hblocking : cmd.isBlocking = true)
      (henabled : cmd.vdev ∉ s.queueDisable) (hidle : s.vdevActiveCmdBitmap = ∅)
      (hpending : s.vdevList false cmd.vdev ≠ []) (hroom : s.HasRoom cfg cmd) :
      CountEffect cfg s f count (count + 1) s.blockingCmdWaiting
  | lowered {count' : ℕ} (hcount : count = count' + 1) :
      CountEffect cfg s f count count' ((s.blockingCmdWaiting + (2 ^ 16 - 1)) % 2 ^ 16)

omit [DecidableEq V] [Fintype V] in
theorem blockingCount_put (hpending : w'.pending = putEntry cmd x w.pending)
    (fs : List (SerFrame V)) : w'.blockingCount fs = w.blockingCount fs + x.2.isBlocking.toNat := by
  rw [SerView.blockingCount, SerView.blockingCount, hpending, (putEntry_perm _ _ _).countP_eq,
    countP_cons, Nat.add_right_comm]
  cases x.2.isBlocking <;> rfl

omit [DecidableEq V] [Fintype V] in
theorem blockingCount_taken (hpending : w.pending = l₁ ++ x :: l₂)
    (hpending' : w'.pending = l₁ ++ l₂) (fs : List (SerFrame V)) :
    w.blockingCount fs = w'.blockingCount fs + x.2.isBlocking.toNat := by
  rw [SerView.blockingCount, SerView.blockingCount, hpending, hpending',
    perm_middle.countP_eq, countP_cons, Nat.add_right_comm]
  cases x.2.isBlocking <;> rfl

theorem EnqueueEffect.counts {node : Option ℕ} (heffect : EnqueueEffect cfg s cmd w node)
    (fs : List (SerFrame V)) :
    CountEffect cfg s (.enqueue cmd) (s.view.blockingCount fs) (w.blockingCount fs) w.waiting := by
  cases heffect with
  | refused | admitted => exact .same
  | refusedCounted pool disabled hpool henabled hblocking hany hroom =>
    exact .refused rfl hblocking henabled hany hroom
  | queued node pool disabled hpool henabled hnot hroom =>
    have hpending : ({ s.view with
        pending := putEntry cmd (node, cmd) s.view.pending
        pool := pool
        waiting := (s.counted cmd).blockingCmdWaiting
        disabled := disabled } : SerView V).pending =
          putEntry cmd (node, cmd) s.view.pending := rfl
    have hcount := blockingCount_put hpending fs
    rw [hcount]
    dsimp only
    rw [SerPdev.counted]
    cases hblocking : cmd.isBlocking with
    | false =>
      rw [if_neg fun hboth => Bool.false_ne_true hboth.1]
      exact .same
    | true =>
      by_cases hidle : s.vdevActiveCmdBitmap = ∅
      · rw [if_neg fun hboth => hboth.2 hidle]
        refine .missed rfl hblocking henabled hidle (fun hnil => hnot ⟨?_, hnil⟩) hroom
        rwa [if_pos hblocking]
      · rw [if_pos ⟨rfl, hidle⟩]
        exact .raised rfl hblocking henabled hidle

theorem cleared_counts (cfg : SerConfig V) (fs : List (SerFrame V)) {req : CancelReq V}
    (hcancel : f.cancelling s = some (req, isActive, w)) :
    CountEffect cfg s f (s.view.blockingCount (f :: fs)) (w.blockingCount fs) w.waiting := by
  rw [blockingCount_cons]
  cases f with
  | cancel req' isActive' =>
    obtain ⟨-, -, rfl⟩ : req' = req ∧ isActive' = isActive ∧ s.view = w := by
      simpa [SerFrame.cancelling] using hcancel
    exact .same
  | cancelResume req' isActive' cursor removed =>
    obtain ⟨-, -, rfl⟩ : req' = req ∧ isActive' = isActive ∧
        s.view.clear isActive' removed = w := by
      simpa [SerFrame.cancelling] using hcancel
    have hpending : (s.view.clear isActive' removed).pending = s.view.pending :=
      s.view.clear_list isActive' false removed
    rw [blockingCount_congr hpending]
    cases isActive' with
    | true => exact .same
    | false =>
      have hwaiting : s.view.waiting = s.blockingCmdWaiting := rfl
      rw [SerView.clear, if_neg Bool.false_ne_true, SerFrame.lowers, hwaiting]
      cases removed.isBlocking with
      | false => exact .same
      | true => exact .lowered rfl
  | enqueue | dequeue | activate | move | moveResume => simp [SerFrame.cancelling] at hcancel

omit [DecidableEq V] [Fintype V] in
theorem blockingCount_cancelled (hlist : w.list isActive = l₁ ++ x :: l₂) (req : CancelReq V)
    (cursor : CancelCursor) (fs : List (SerFrame V)) :
    ((w.setList isActive (l₁ ++ l₂)).release x.1).blockingCount
      (.cancelResume req isActive cursor x.2 :: fs) = w.blockingCount fs := by
  rw [blockingCount_cons]
  cases isActive with
  | true => rfl
  | false =>
    have hpending : ((w.setList false (l₁ ++ l₂)).release x.1).pending = l₁ ++ l₂ := rfl
    rw [blockingCount_taken hlist hpending]
    rfl

omit [DecidableEq V] [Fintype V] in
theorem lookup_lowers {lookup : Option V} (h : f.lookup s = some lookup) : f.lowers = false := by
  cases f with
  | move | moveResume => rfl
  | enqueue | dequeue | cancel | cancelResume | activate => simp [SerFrame.lookup] at h

theorem SerEffect.counts (heffect : SerEffect cfg s f w gs) (fs : List (SerFrame V)) :
    CountEffect cfg s f (s.view.blockingCount (f :: fs)) (w.blockingCount (gs ++ fs))
      w.waiting := by
  cases heffect with
  | enqueue heffect =>
    have hcounts := heffect.counts fs
    rw [blockingCount_cons]
    cases heffect with
    | refused | refusedCounted | queued => exact hcounts
    | admitted =>
      rw [Option.map_some, Option.toList_some, singleton_append, blockingCount_cons]
      exact hcounts
  | dequeueNone | activate | moveEnd =>
    rw [blockingCount_cons]
    exact .same
  | activateDequeue | activateCancel =>
    rw [blockingCount_cons, singleton_append, blockingCount_cons]
    exact .same
  | @dequeue cmd x l₁ l₂ hactive hsame =>
    have hpending : (s.view.dropActive x (l₁ ++ l₂)).pending = s.view.pending := rfl
    rw [blockingCount_cons, singleton_append, blockingCount_cons,
      blockingCount_congr hpending]
    exact .same
  | moveNone hlookup =>
    rw [blockingCount_cons, lookup_lowers hlookup]
    exact .same
  | cancelEnd hcancel =>
    have hcounts := cleared_counts cfg fs hcancel
    split
    · rw [singleton_append, blockingCount_cons w]
      exact hcounts
    · exact hcounts
  | @cancel f req isActive w e l₁ l₂ cursor hcancel hlist hselects =>
    have hcounts := cleared_counts cfg fs hcancel
    rw [← blockingCount_cancelled hlist req cursor fs] at hcounts
    have hwaiting : ((w.setList isActive (l₁ ++ l₂)).release e.node).waiting = w.waiting := by
      cases isActive <;> rfl
    rw [hwaiting]
    exact hcounts
  | @moved f lookup e l₁ l₂ disabled hlookup hsearch hpending hpicks =>
    have hpending' : (s.view.moved e.entry (l₁ ++ l₂) disabled).pending = l₁ ++ l₂ := rfl
    have hcount := blockingCount_taken hpending hpending' fs
    rw [blockingCount_cons, lookup_lowers hlookup, hcount]
    have hactivate : (SerFrame.activate e.node : SerFrame V).lowers = false := rfl
    have hresume : (SerFrame.moveResume lookup.isSome : SerFrame V).lowers = false := rfl
    rw [cons_append, singleton_append, blockingCount_cons, blockingCount_cons,
      hactivate, hresume, Bool.toNat_false, Nat.add_zero, Nat.add_zero]
    generalize (s.view.moved e.entry (l₁ ++ l₂) disabled).blockingCount fs = n
    have hwaiting : s.view.waiting = s.blockingCmdWaiting := rfl
    rw [SerView.moved]
    dsimp only
    rw [hwaiting]
    cases e.entry.2.isBlocking with
    | false =>
      rw [if_neg Bool.false_ne_true]
      exact .same
    | true =>
      rw [if_pos rfl]
      exact .lowered rfl

theorem CountEffect.waiting_eq {count count' waiting : ℕ}
    (h : CountEffect cfg s f count count' waiting) (hok : f.CountOk cfg s)
    (hwaiting : s.blockingCmdWaiting = count % 2 ^ 16) : waiting = count' % 2 ^ 16 := by
  cases h with
  | same => exact hwaiting
  | raised => omega
  | refused hf hblocking henabled hany hroom =>
    subst hf
    have hneeds := hok hblocking henabled
    rw [if_neg hany] at hneeds
    exact absurd hneeds hroom
  | missed hf hblocking henabled hidle hpending hroom =>
    subst hf
    have hneeds := hok hblocking henabled
    rw [if_pos hidle] at hneeds
    exact absurd hneeds (not_or.mpr ⟨hpending, not_not_intro hroom⟩)
  | lowered hcount => omega

theorem SerEffect.pending_length (heffect : SerEffect cfg s f w gs)
    (h : s.view.pending.length ≤ cfg.maxPendingCmds) : w.pending.length ≤ cfg.maxPendingCmds := by
  have htaken : ∀ {x : ℕ × SerCommand V} {l₁ l₂ : List (ℕ × SerCommand V)},
      s.view.pending = l₁ ++ x :: l₂ → (l₁ ++ l₂).length ≤ cfg.maxPendingCmds := by
    intro x l₁ l₂ hpending
    rw [hpending, perm_middle.length_eq, length_cons] at h
    exact Nat.le_of_succ_le h
  cases heffect with
  | enqueue heffect =>
    cases heffect with
    | refused | refusedCounted | admitted => exact h
    | queued node pool disabled hpool henabled hnot hroom =>
      have hfull : s.view.pending.length ≠ cfg.maxPendingCmds := by
        intro hlength
        refine hroom.room (Or.inr ?_)
        rw [SerPdev.view, length_map] at hlength
        exact hlength
      rw [(putEntry_perm _ _ _).length_eq, length_cons]
      omega
  | dequeueNone | activate | moveEnd | activateDequeue | activateCancel | dequeue | moveNone =>
    exact h
  | cancelEnd hcancel =>
    have hpending : w.pending = s.view.pending := cancelling_list hcancel false
    exact hpending ▸ h
  | @cancel f req isActive w e l₁ l₂ cursor hcancel hlist hselects =>
    have hpending : w.pending = s.view.pending := cancelling_list hcancel false
    cases isActive with
    | true =>
      change w.pending.length ≤ cfg.maxPendingCmds
      exact hpending ▸ h
    | false => exact htaken (hpending.symm.trans hlist)
  | moved disabled hlookup hsearch hpending hpicks => exact htaken hpending

theorem SerEffect.counted {cfg : SerConfig V} {s : SerPdev V} {f : SerFrame V}
    {fs gs : List (SerFrame V)} {w : SerView V} (heffect : SerEffect cfg s f w gs)
    (h : Counted cfg s.view (f :: fs)) (hok : f.CountOk cfg s) : Counted cfg w (gs ++ fs) :=
  ⟨(heffect.counts fs).waiting_eq hok h.waiting, heffect.pending_length h.length⟩

/-! ## Runs -/

omit [DecidableEq V] in
theorem Counted.create (cfg : SerConfig V) : Counted cfg (SerPdev.create cfg).view [] :=
  ⟨rfl, Nat.zero_le _⟩

omit [DecidableEq V] [Fintype V] in
theorem SerOp.frames_lowers (op : SerOp V) : op.frames.countP SerFrame.lowers = 0 := by
  cases op with
  | request cmd => rfl
  | remove cmd => rfl
  | cancel reqType cmd activeQueue pendingQueue => cases activeQueue <;> cases pendingQueue <;> rfl

omit [DecidableEq V] in
theorem Counted.started (h : Counted cfg w []) (op : SerOp V) : Counted cfg w op.frames := by
  refine ⟨h.waiting.trans ?_, h.length⟩
  rw [SerView.blockingCount, SerView.blockingCount, op.frames_lowers]
  rfl

theorem Counted.of_run (cfg : SerConfig V) {s : SerTask V} (hrun : Relation.ReflTransGen
      (GuardedStep (SerTask.StepOk fun _ s f => f.CountOk cfg s) (SerTask.step cfg))
      (SerTask.create cfg) s) : Counted cfg s.pdev.view s.todo := by
  refine (@serTask_invariant V _ _ _
    (fun s fs => Tracked s.view fs ∧ Counted cfg s.view fs) cfg
    ⟨Tracked.create cfg, Counted.create cfg⟩ (fun s op h => ⟨?_, h.2.started op⟩)
    (fun activated s f fs h hok => ?_) s hrun).2
  · exact append_nil op.frames ▸ h.1.started op
  · have heffect := runFrame_effect cfg activated h.1
    exact ⟨heffect.tracked h.1, heffect.counted h.2 hok⟩

/-- The counter is right after each operation, if the requests are counted as they should be. -/
theorem blockingCmdWaiting_eq (cfg : SerConfig V) {s : SerTask V}
    (hrun : Relation.ReflTransGen
      (GuardedStep (SerTask.StepOk fun _ s f => f.CountOk cfg s) (SerTask.step cfg))
      (SerTask.create cfg) s) (hdone : s.todo = []) :
    s.pdev.blockingCmdWaiting = s.pdev.pendingList.countP (·.cmd.isBlocking) := by
  have hcounted := Counted.of_run cfg hrun
  have hcount : s.pdev.view.blockingCount [] = s.pdev.pendingList.countP (·.cmd.isBlocking) := by
    rw [SerView.blockingCount, SerPdev.view, countP_map]
    rfl
  have hwaiting := hcounted.waiting
  rw [hdone, hcount] at hwaiting
  -- the list is too short for the counter to wrap
  have hlength := hcounted.length
  rw [SerPdev.view, length_map] at hlength
  have hle := countP_le_length (p := fun e : CommandList V => e.cmd.isBlocking)
    (l := s.pdev.pendingList)
  have hlt := cfg.maxPendingCmds_lt
  rwa [Nat.mod_eq_of_lt (by omega)] at hwaiting

instance (s : SerPdev V) (cfg : SerConfig V) (isActive : Bool) (vdev : V) :
    Decidable (s.Full cfg isActive vdev) :=
  inferInstanceAs (Decidable (_ ∨ _))

instance (s : SerPdev V) (cfg : SerConfig V) (cmd : SerCommand V) :
    Decidable (s.HasRoom cfg cmd) :=
  decidable_of_iff ((∀ e ∈ s.pendingList, ¬ sameCmd cmd e.cmd) ∧ s.cmdPoolList ≠ [] ∧
      ¬ s.Full cfg false cmd.vdev)
    ⟨fun h => ⟨h.1, h.2.1, h.2.2⟩, fun h => ⟨h.fresh, h.pool, h.room⟩⟩

instance (s : SerPdev V) (cfg : SerConfig V) (cmd : SerCommand V) :
    Decidable (s.RequestOk cfg cmd) :=
  inferInstanceAs (Decidable (cmd.isBlocking = true → cmd.vdev ∉ s.queueDisable →
    if s.vdevActiveCmdBitmap = ∅ then s.vdevList false cmd.vdev = [] ∨ ¬ s.HasRoom cfg cmd
    else s.HasRoom cfg cmd))

instance (cfg : SerConfig V) (s : SerPdev V) : (f : SerFrame V) → Decidable (f.CountOk cfg s)
  | .enqueue cmd => inferInstanceAs (Decidable (s.RequestOk cfg cmd))
  | .dequeue _ | .cancel _ _ | .cancelResume _ _ _ _ | .activate _ | .move _ _ | .moveResume _ =>
    .isTrue trivial

/-- Two blocking commands wait for the active command, and one of them is cancelled. -/
def twoRestarts : List (SerTaskStep (Fin 3)) :=
  [.start (.request (.roam 1 0)), .run true, .run true, .start (.request (.restart 2 1)),
    .run true, .start (.request (.restart 3 2)), .run true,
    .start (.cancel .nonScanCmd (.restart 2 1) false true), .run true, .run true]

theorem blockingCmdWaiting_eq_twoRestarts :
    let s := twoRestarts.foldl (SerTask.step .threeVdevs) (.create .threeVdevs)
    s.pdev.blockingCmdWaiting = s.pdev.pendingList.countP (·.cmd.isBlocking) :=
  blockingCmdWaiting_eq .threeVdevs (guarded_foldl (by decide +kernel)) (by decide +kernel)

/-- A blocking command is requested twice while it has to wait. -/
def restartTwice : List (SerTaskStep (Fin 3)) :=
  [.start (.request (.roam 1 0)), .run true, .run true, .start (.request (.restart 2 1)),
    .run true, .start (.request (.restart 2 1)), .run true]

theorem restartTwice_miscounts :
    let s := restartTwice.foldl (SerTask.step .threeVdevs) (.create .threeVdevs)
    s.todo = [] ∧ s.pdev.blockingCmdWaiting ≠ s.pdev.pendingList.countP (·.cmd.isBlocking) := by
  decide +kernel

end QcomModules.Wlan
