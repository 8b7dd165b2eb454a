import QcomModules.Wlan.CommandConservation

/-! What runs of the serialization conserve, as long as no cancellation goes on from an entry that
has left its list. -/

namespace QcomModules.Wlan

open Library Relation List

variable {V : Type} [DecidableEq V]

/-! ## Conservation -/

/-- How often an entry is in the pool and in the lists of the pdev. -/
def SerPdev.places (s : SerPdev V) (node : ℕ) : ℕ :=
  s.cmdPoolList.count node + (s.activeList.map (·.node)).count node +
    (s.pendingList.map (·.node)).count node

/-- How many entries have the command of a request. -/
def SerJournal.queued (j : SerJournal V) (request : ℕ) : ℕ :=
  (j.queues.pdev.activeList ++ j.queues.pdev.pendingList).countP fun e =>
    j.owner e.node = request

def SerJournal.releases (j : SerJournal V) (request : ℕ) : ℕ :=
  j.calls.count (request, .releaseMemCmd)

variable [Fintype V]

/-- Every entry is in one place, a list of the pdev and those of the vdevs have the same entries,
and the command of an accepted request is queued, or about to be released by the thread that took
it out, or was released once. Refused requests have no entry and no callback. -/
structure SerJournal.Conserves (cfg : SerConfig V) (j : SerJournal V)
    (threads : List (List (SerJob V))) : Prop where
  places : ∀ node, j.queues.pdev.places node =
    if node < cfg.maxVdevs + cfg.maxPendingCmds then 1 else 0
  vdevLists : ∀ isActive vdev node, node ∈ j.queues.vdevNodes isActive vdev ↔
    ∃ e ∈ j.queues.pdev.list isActive, e.node = node ∧ e.cmd.vdev = vdev
  accepted : ∀ request status, j.statuses[request]? = some status → status.accepted = true →
    j.queued request + (threads.flatten.count (.call request .releaseMemCmd) +
      j.releases request) = 1
  rejected : ∀ request status, j.statuses[request]? = some status → status.accepted = false →
    j.queued request = 0 ∧ (∀ reason, .call request reason ∉ threads.flatten) ∧
      ∀ reason, (request, reason) ∉ j.calls

/-- What a thread does next does not go on from an entry that has left its list. -/
def CursorKept (j : SerJournal V) (jobs : List (SerJob V)) : Prop :=
  ∀ f ∈ jobs.head?.bind SerJob.frame, f.CursorOk j.queues.pdev

instance (j : SerJournal V) (jobs : List (SerJob V)) : Decidable (CursorKept j jobs) :=
  inferInstanceAs (Decidable (∀ f ∈ jobs.head?.bind SerJob.frame, f.CursorOk j.queues.pdev))

/-! ## Accounts of all threads -/

section Balanced

variable {cfg : SerConfig V} {j : SerJournal V} {threads : List (List (SerJob V))}

structure Balanced (cfg : SerConfig V) (j : SerJournal V) (threads : List (List (SerJob V))) :
    Prop where
  sound : j.queues.Sound (threads.flatten.filterMap SerJob.frame)
  accounted : Accounted cfg j threads.flatten

omit [Fintype V] in
theorem SerQueues.Sound.perm {s : SerQueues V} {fs gs : List (SerFrame V)} (h : s.Sound fs)
    (hperm : fs.Perm gs) : s.Sound gs :=
  ⟨h.coherent, h.tracked.perm hperm⟩

omit [DecidableEq V] in
theorem Accounted.perm {jobs jobs' : List (SerJob V)} (h : Accounted cfg j jobs)
    (hperm : jobs.Perm jobs') : Accounted cfg j jobs' := by
  refine ⟨h.nodes, ?_, ?_, h.called⟩
  · apply Perm.trans _ h.requests
    exact ((hperm.filterMap _).symm.append_right _).append_left _
  · exact fun job hjob => h.named job (hperm.mem_iff.mpr hjob)

theorem Balanced.perm {threads' : List (List (SerJob V))} (h : Balanced cfg j threads)
    (hperm : threads.Perm threads') : Balanced cfg j threads' :=
  ⟨h.sound.perm (hperm.flatten.filterMap _), h.accounted.perm hperm.flatten⟩

theorem Balanced.create : Balanced cfg (SerJournal.create cfg).shared [] := by
  refine ⟨⟨?_, Tracked.create cfg⟩, ?_, Perm.refl _, ?_, ?_⟩
  · intro isActive vdev
    cases isActive <;> rfl
  · exact Perm.refl _
  · exact fun job hjob => absurd hjob not_mem_nil
  · exact fun call hcall => absurd hcall not_mem_nil

omit [DecidableEq V] [Fintype V] in
theorem SerOp.frames_names (op : SerOp V) (owner : ℕ → ℕ) :
    ∀ f ∈ op.frames, (SerJob.step f).names owner = none := by
  intro f hf
  cases op with
  | request cmd =>
    cases mem_singleton.mp hf
    rfl
  | remove cmd =>
    cases mem_singleton.mp hf
    rfl
  | cancel reqType cmd activeQueue pendingQueue =>
    rcases mem_append.mp hf with hf | hf
    all_goals
      split at hf
      · cases mem_singleton.mp hf
        rfl
      · cases hf

theorem Balanced.started (h : Balanced cfg j threads) (op : SerOp V) :
    Balanced cfg j (op.frames.map .step :: threads) := by
  refine ⟨?_, h.accounted.nodes, ?_, ?_, h.accounted.called⟩
  · rw [flatten_cons, filterMap_append, filterMap_frame_step]
    exact ⟨h.sound.coherent, h.sound.tracked.started op⟩
  · rw [flatten_cons, filterMap_append, frames_release, nil_append]
    exact h.accounted.requests
  · intro job hjob request hrequest
    rcases mem_append.mp hjob with hjob | hjob
    · obtain ⟨f, hf, rfl⟩ := mem_map.mp hjob
      rw [op.frames_names j.owner f hf] at hrequest
      cases hrequest
    · exact h.accounted.named job hjob request hrequest

theorem Balanced.act {choice : ActivationChoice} {jobs : List (SerJob V)}
    (h : Balanced cfg j (jobs :: threads)) (hcursor : CursorKept j jobs) :
    Balanced cfg (SerJournal.act cfg choice j jobs).1
      ((SerJournal.act cfg choice j jobs).2 :: threads) := by
  obtain ⟨hsound, haccounted⟩ := h
  rw [flatten_cons] at hsound haccounted
  cases jobs with
  | nil => exact ⟨hsound, haccounted⟩
  | cons job rest =>
    cases job with
    | call request reason => exact ⟨hsound, haccounted.call⟩
    | step f =>
      have hok : f.CursorOk j.queues.pdev := hcursor f rfl
      rw [cons_append] at hsound haccounted
      obtain ⟨⟨hpdev, hcoherent⟩, hframes⟩ :=
        @SerJournal.runFrame_follows V _ _ cfg _ _ choice f hsound hok
      have heffect := runFrame_effect cfg (choice.timerStarted && choice.activated)
        hsound.tracked
      have htracked := heffect.tracked hsound.tracked
      rw [SerJournal.act]
      refine ⟨⟨hcoherent, ?_⟩, ?_⟩
      · rw [hpdev, flatten_cons, append_assoc, filterMap_append, hframes]
        exact htracked
      · rw [flatten_cons, append_assoc]
        exact haccounted.runFrame hsound hok

theorem Balanced.of_run {s : Threads (SerJournal V) (List (SerJob V))}
    (hrun : ReflTransGen (GuardedStep
      (ThreadSystem.StepOk (fun _ => True) fun j _ jobs => CursorKept j jobs)
      (serJournal cfg).step) (SerJournal.create cfg) s) : Balanced cfg s.shared s.pcs := by
  have hact : ∀ choice (j : SerJournal V) jobs threads, Balanced cfg j (jobs :: threads) →
      (serJournal cfg).enabled j jobs = true → CursorKept j jobs →
      Balanced cfg ((serJournal cfg).act choice j jobs).1
        (((serJournal cfg).act choice j jobs).2 :: threads) :=
    fun choice _ _ _ h _ hok => h.act hok
  apply (serJournal cfg).invariant _ _ _ hact Balanced.create hrun
  · exact fun _ _ _ hperm h => h.perm hperm
  · exact fun _ _ _ _ _ hok => hok
  · exact fun _ _ op h _ => h.started op

end Balanced

/-! ## Conserved commands -/

section Conserved

variable {cfg : SerConfig V} {j : SerJournal V} {threads : List (List (SerJob V))}

theorem mem_acceptedIn {statuses : List SerStatus} {request : ℕ} {status : SerStatus}
    (h : statuses[request]? = some status) :
    request ∈ acceptedIn statuses ↔ status.accepted = true := by
  rw [acceptedIn, mem_filter, h, Option.any_some, mem_range]
  exact and_iff_right (List.getElem?_eq_some_iff.mp h).1

omit [Fintype V] in
theorem count_releases (jobs : List (SerJob V)) (request : ℕ) :
    (jobs.filterMap SerJob.releases).count request =
      jobs.count (.call request .releaseMemCmd) := by
  induction jobs with
  | nil => rfl
  | cons job jobs ih =>
    rw [filterMap_cons, count_cons]
    cases job with
    | step f => simpa [SerJob.releases] using ih
    | call other reason => cases reason <;> simp [SerJob.releases, count_cons, ih]

theorem count_released (calls : List (ℕ × SerCbReason)) (request : ℕ) :
    (calls.filterMap released).count request = calls.count (request, .releaseMemCmd) := by
  induction calls with
  | nil => rfl
  | cons call calls ih =>
    obtain ⟨other, reason⟩ := call
    rw [filterMap_cons, count_cons]
    cases reason <;> simp [released, count_cons, ih]

omit [DecidableEq V] [Fintype V] in
theorem count_requests (j : SerJournal V) (request : ℕ) :
    (j.queues.pdev.view.requests j.owner).count request = j.queued request := by
  have hentries : j.queues.pdev.view.active ++ j.queues.pdev.view.pending =
      (j.queues.pdev.activeList ++ j.queues.pdev.pendingList).map CommandList.entry :=
    map_append.symm
  rw [SerView.requests, hentries, List.map_map, SerJournal.queued, count, countP_map]
  exact countP_congr fun e _ => by simp [CommandList.entry]

theorem Accounted.counts {jobs : List (SerJob V)} (h : Accounted cfg j jobs) (request : ℕ) :
    j.queued request + (jobs.count (.call request .releaseMemCmd) + j.releases request) =
      (acceptedIn j.statuses).count request := by
  rw [← h.requests.count_eq, count_append, count_append, count_requests,
    count_releases, count_released, SerJournal.releases]

theorem nodup_acceptedIn (statuses : List SerStatus) : (acceptedIn statuses).Nodup :=
  nodup_range.filter _

theorem Balanced.conserves (h : Balanced cfg j threads) : j.Conserves cfg threads := by
  refine ⟨?_, ?_, ?_, ?_⟩
  · intro node
    have hcount := h.accounted.nodes.count_eq node
    rw [count_range, SerView.nodes, count_append, map_append,
      count_append] at hcount
    rw [← hcount, SerPdev.places, ← map_node_entry, ← map_node_entry]
    exact (Nat.add_assoc ..).trans (Nat.add_comm ..)
  · intro isActive vdev node
    rw [h.sound.coherent, nodesOf_vdevList, mem_map]
    constructor
    · intro hmem
      obtain ⟨e, he, hnode⟩ := hmem
      obtain ⟨hlist, hvdev⟩ := mem_filter.mp he
      exact ⟨e, hlist, hnode, of_decide_eq_true hvdev⟩
    · intro hmem
      obtain ⟨e, hlist, hnode, hvdev⟩ := hmem
      exact ⟨e, mem_filter.mpr ⟨hlist, decide_eq_true hvdev⟩, hnode⟩
  · intro request status hstatus haccepted
    rw [h.accounted.counts]
    exact count_eq_one_of_mem (nodup_acceptedIn _) ((mem_acceptedIn hstatus).mpr haccepted)
  · intro request status hstatus hrejected
    have hnot : request ∉ acceptedIn j.statuses := by
      rw [mem_acceptedIn hstatus, hrejected]
      exact Bool.false_ne_true
    have hcounts := h.accounted.counts request
    rw [count_eq_zero.mpr hnot] at hcounts
    refine ⟨Nat.eq_zero_of_add_eq_zero_right hcounts, ?_, ?_⟩
    · exact fun reason hjob => hnot (h.accounted.named _ hjob request rfl)
    · exact fun reason hcall => hnot (h.accounted.called _ hcall)

/-- In every run in which no cancellation goes on from an entry that has left its list, commands
are conserved. -/
theorem commands_conserved (cfg : SerConfig V) {s : Threads (SerJournal V) (List (SerJob V))}
    (hrun : ReflTransGen (GuardedStep
      (ThreadSystem.StepOk (fun _ => True) fun j _ jobs => CursorKept j jobs)
      (serJournal cfg).step) (SerJournal.create cfg) s) : s.shared.Conserves cfg s.pcs :=
  (Balanced.of_run hrun).conserves

end Conserved

def jobSteps (thread n : ℕ) : List (ThreadInput (SerOp (Fin 3)) ActivationChoice) :=
  List.replicate n (.run thread ⟨true, true⟩)

/-- A command is removed while it is being activated, the next one fails to start its timer, and
one of the two that wait for it is refused and the other cancelled. -/
def removedWhileActivated : List (ThreadInput (SerOp (Fin 3)) ActivationChoice) :=
  .start (.request (.roam 1 0)) :: jobSteps 0 1 ++ .start (.request (.roam 2 0)) :: jobSteps 1 1 ++
  .start (.request (.roam 2 0)) :: jobSteps 2 1 ++ .start (.request (.roam 3 0)) :: jobSteps 3 1 ++
  .start (.remove (.roam 1 0)) :: jobSteps 4 1 ++ jobSteps 0 3 ++ [.run 0 ⟨false, true⟩] ++
  .start (.cancel .vdevNonScanCmd (.roam 0 0) false true) :: jobSteps 5 4 ++ jobSteps 0 5

theorem commands_conserved_removedWhileActivated :
    let s := removedWhileActivated.foldl (serJournal .threeVdevs).step
      (SerJournal.create .threeVdevs)
    s.shared.Conserves .threeVdevs s.pcs :=
  commands_conserved .threeVdevs (guarded_foldl (by decide +kernel))

/-- While a cancellation of pending commands calls back, the entry it goes on from becomes active,
and behind it one of the commands that are to be cancelled. -/
def cancelFromActive : List (ThreadInput (SerOp (Fin 3)) ActivationChoice) :=
  .start (.request (.roam 1 0)) :: jobSteps 0 2 ++ .start (.request (.roam 2 1)) :: jobSteps 1 2 ++
  .start (.request (.roam 3 0)) :: jobSteps 2 1 ++ .start (.request (.roam 4 1)) :: jobSteps 3 1 ++
  .start (.request (.roam 5 1)) :: jobSteps 4 1 ++ .start (.request (.roam 6 0)) :: jobSteps 5 1 ++
  .start (.cancel .vdevNonScanCmd (.roam 0 1) false true) :: jobSteps 6 1 ++
  .start (.remove (.roam 1 0)) :: jobSteps 7 5 ++ .start (.remove (.roam 2 1)) :: jobSteps 8 5 ++
  jobSteps 6 3

theorem cancelFromActive_not_conserved :
    ¬ ∀ s : Threads (SerJournal (Fin 3)) (List (SerJob (Fin 3))), ReflTransGen (GuardedStep
      (ThreadSystem.StepOk (fun _ => True) fun _ _ _ => True) (serJournal .threeVdevs).step)
      (SerJournal.create .threeVdevs) s → s.shared.Conserves .threeVdevs s.pcs := by
  intro h
  have hrun : ReflTransGen (GuardedStep (ThreadSystem.StepOk (fun _ => True) fun _ _ _ => True)
      (serJournal .threeVdevs).step) (SerJournal.create .threeVdevs)
      (cancelFromActive.foldl (serJournal .threeVdevs).step
      (SerJournal.create .threeVdevs)) :=
    guarded_foldl (by decide +kernel)
  have hlost := (h _ hrun).accepted 4 .pending (by decide +kernel) rfl
  revert hlost
  decide +kernel

end QcomModules.Wlan
