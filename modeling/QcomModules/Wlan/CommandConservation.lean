import QcomModules.Wlan.CommandJournal

/-! Every entry is in the pool or in one list, and every accepted request is queued, about to be
released, or released, in each case once. -/

namespace QcomModules.Wlan

open Library List Function

variable {V : Type} [DecidableEq V]

/-! ## Answers -/

def SerStatus.accepted : SerStatus → Bool
  | .active | .pending => true
  | .deniedListFull | .queueDisabled | .deniedUnspecified => false

/-- A request is refused and leaves the lists alone, or its command goes into one of them. -/
inductive EnqueueAnswer (w : SerView V) (cmd : SerCommand V) :
    SerStatus → Option ℕ → SerView V → Prop where
  | refused {status : SerStatus} {w' : SerView V} (hstatus : status.accepted = false)
      (hlists : ∀ isActive, w'.list isActive = w.list isActive) (hpool : w'.pool.Perm w.pool) :
      EnqueueAnswer w cmd status none w'
  | taken {node : ℕ} {w' : SerView V} (isActive : Bool) (hpool : w.pool = node :: w'.pool)
      (hlist : w'.list isActive = putEntry cmd (node, cmd) (w.list isActive))
      (hother : ∀ other, other ≠ isActive → w'.list other = w.list other) :
      EnqueueAnswer w cmd (if isActive then .active else .pending) (some node) w'

omit [DecidableEq V] in
theorem EnqueueAnswer.congr {w w' t : SerView V} {cmd : SerCommand V} {status : SerStatus}
    {node : Option ℕ} (h : EnqueueAnswer w cmd status node t)
    (hlists : ∀ isActive, w.list isActive = w'.list isActive) (hpool : w.pool = w'.pool) :
    EnqueueAnswer w' cmd status node t := by
  cases h with
  | refused hstatus hsame hperm =>
    exact .refused hstatus (fun other => (hsame other).trans (hlists other)) (hpool ▸ hperm)
  | taken isActive htaken hlist hother =>
    refine .taken isActive (hpool.symm.trans htaken) ?_ ?_
    · rw [hlist, hlists]
    · exact fun other hne => (hother other hne).trans (hlists other)

section Answers

variable {s : SerQueues V} {fs : List (SerFrame V)} [Fintype V] {cfg : SerConfig V}

theorem SerQueues.Sound.enqueueInto_answer (h : s.Sound fs) (cmd : SerCommand V)
    (activeQueue : Bool) :
    EnqueueAnswer s.pdev.view cmd (SerQueues.enqueueInto cfg s cmd activeQueue).1
      (SerQueues.enqueueInto cfg s cmd activeQueue).2.1
      (SerQueues.enqueueInto cfg s cmd activeQueue).2.2.pdev.view := by
  rw [SerQueues.enqueueInto, h.isCmdPresent]
  split
  · exact .refused rfl (fun _ => rfl) (Perm.refl _)
  rename_i hpresent
  cases hpool : s.pdev.cmdPoolList with
  | nil => exact .refused rfl (fun _ => rfl) (Perm.refl _)
  | cons node pool =>
    have hadd :=
      @SerQueues.Sound.addTaken V _ s fs _ cfg h cmd activeQueue node pool hpool hpresent
    simp only
    cases hconcrete : SerQueues.addNonScanCmd cfg
        { s with pdev := { s.pdev with cmdPoolList := pool } } ⟨node, cmd, {}⟩ activeQueue with
    | mk status t =>
      rw [hconcrete] at hadd
      by_cases hfull : ({ s.pdev with cmdPoolList := pool } : SerPdev V).Full cfg activeQueue
          cmd.vdev
      · obtain ⟨disabled, habstract⟩ := wlanSerAddNonScanCmd_full (e := ⟨node, cmd, {}⟩) hfull
        rw [habstract] at hadd
        obtain ⟨hstatus, hpdev, -⟩ := hadd
        simp only at hstatus hpdev
        subst hstatus
        simp only [hpdev]
        apply EnqueueAnswer.refused rfl
        · intro isActive
          cases isActive <;> rfl
        · show (pool ++ [node]).Perm s.pdev.cmdPoolList
          rw [hpool]
          exact perm_append_singleton node pool
      · obtain ⟨disabled, habstract⟩ := wlanSerAddNonScanCmd_room (e := ⟨node, cmd, {}⟩) hfull
        rw [habstract] at hadd
        obtain ⟨hstatus, hpdev, -⟩ := hadd
        cases activeQueue with
        | true =>
          simp only [if_true] at hstatus hpdev
          subst hstatus
          simp only [hpdev, view_setInUse]
          refine EnqueueAnswer.taken true hpool (map_putEntry _ cmd _ _) ?_
          intro other hother
          rw [Bool.eq_false_of_not_eq_true hother]
          rfl
        | false =>
          simp only [Bool.false_eq_true, if_false] at hstatus hpdev
          subst hstatus
          simp only [hpdev]
          refine EnqueueAnswer.taken false hpool (map_putEntry _ cmd _ _) ?_
          intro other hother
          rw [Bool.eq_true_of_not_eq_false hother]
          rfl

theorem SerQueues.Sound.enqueueCmd_answer (h : s.Sound fs) (cmd : SerCommand V) :
    EnqueueAnswer s.pdev.view cmd (SerQueues.enqueueCmd cfg s cmd).1
      (SerQueues.enqueueCmd cfg s cmd).2.1 (SerQueues.enqueueCmd cfg s cmd).2.2.pdev.view := by
  rw [SerQueues.enqueueCmd]
  split
  · exact .refused rfl (fun _ => rfl) (Perm.refl _)
  · obtain ⟨-, hpdev, hsound⟩ := h.isActiveCmdAllowed cmd
    have hanswer := @SerQueues.Sound.enqueueInto_answer V _ _ fs _ cfg hsound cmd
      (s.isActiveCmdAllowed cmd).1
    have hview : (s.isActiveCmdAllowed cmd).2.pdev.view = { s.pdev.view with
        waiting := (s.pdev.counted cmd).blockingCmdWaiting } := by
      rw [hpdev, wlanSerializationIsActiveCmdAllowed_snd, SerPdev.counted_eq]
      rfl
    apply hanswer.congr
    · intro isActive
      rw [hview]
      cases isActive <;> rfl
    · rw [hview]

end Answers

/-! ## Accounts -/

omit [DecidableEq V]

def acceptedIn (statuses : List SerStatus) : List ℕ :=
  (List.range statuses.length).filter fun request => statuses[request]?.any SerStatus.accepted

def SerView.nodes (w : SerView V) : List ℕ := (w.active ++ w.pending).map Prod.fst ++ w.pool

def SerView.requests (w : SerView V) (owner : ℕ → ℕ) : List ℕ :=
  (w.active ++ w.pending).map fun x => owner x.1

def SerJob.releases : SerJob V → Option ℕ
  | .call request .releaseMemCmd => some request
  | _ => none

def released : ℕ × SerCbReason → Option ℕ
  | (request, .releaseMemCmd) => some request
  | _ => none

/-- The request whose callback a job calls. -/
def SerJob.names (owner : ℕ → ℕ) : SerJob V → Option ℕ
  | .call request _ => some request
  | .step (.activate node) => some (owner node)
  | .step _ => none

/-- All entries are in the pool or in the lists. All accepted requests are queued, have their
release before them, or are released. Callbacks are called for accepted requests only. -/
structure Accounted [Fintype V] (cfg : SerConfig V) (j : SerJournal V)
    (jobs : List (SerJob V)) : Prop where
  nodes : j.queues.pdev.view.nodes.Perm (List.range (cfg.maxVdevs + cfg.maxPendingCmds))
  requests : (j.queues.pdev.view.requests j.owner ++
    (jobs.filterMap SerJob.releases ++ j.calls.filterMap released)).Perm (acceptedIn j.statuses)
  named : ∀ job ∈ jobs, ∀ request ∈ job.names j.owner, request ∈ acceptedIn j.statuses
  called : ∀ call ∈ j.calls, call.1 ∈ acceptedIn j.statuses

theorem acceptedIn_append (statuses : List SerStatus) (status : SerStatus) :
    acceptedIn (statuses ++ [status]) =
      acceptedIn statuses ++ if status.accepted then [statuses.length] else [] := by
  rw [acceptedIn, length_append, length_singleton, range_succ, filter_append]
  have hold : ∀ request ∈ range statuses.length,
      ((statuses ++ [status])[request]?.any SerStatus.accepted) =
        statuses[request]?.any SerStatus.accepted := by
    intro request hrequest
    rw [getElem?_append_left (mem_range.mp hrequest)]
  rw [filter_congr hold, acceptedIn, filter_singleton, getElem?_concat_length,
    Option.any_some]
  cases status.accepted <;> rfl

section Changes

variable {w w' : SerView V} {x : ℕ × SerCommand V}

theorem entries_same (hlists : ∀ isActive, w'.list isActive = w.list isActive) :
    w'.active ++ w'.pending = w.active ++ w.pending :=
  congrArg₂ (· ++ ·) (hlists true) (hlists false)

theorem entries_more {isActive : Bool} (hperm : (w'.list isActive).Perm (x :: w.list isActive))
    (hother : ∀ other, other ≠ isActive → w'.list other = w.list other) :
    (w'.active ++ w'.pending).Perm (x :: (w.active ++ w.pending)) := by
  cases isActive with
  | true =>
    have hpending : w'.pending = w.pending := hother false Bool.false_ne_true
    rw [hpending]
    exact hperm.append_right w.pending
  | false =>
    have hactive : w'.active = w.active := hother true (by decide)
    rw [hactive]
    exact (hperm.append_left w.active).trans perm_middle

theorem requests_perm {l l' : List (ℕ × SerCommand V)} (owner : ℕ → ℕ) (h : l.Perm l') :
    (l.map fun x => owner x.1).Perm (l'.map fun x => owner x.1) :=
  h.map _

variable [Fintype V] {cfg : SerConfig V} {j j' : SerJournal V} {f : SerFrame V}
  {jobs new : List (SerJob V)}

theorem Accounted.queued (h : Accounted cfg j jobs)
    (hx : x ∈ j.queues.pdev.view.active ++ j.queues.pdev.view.pending) :
    j.owner x.1 ∈ acceptedIn j.statuses :=
  h.requests.mem_iff.mp (mem_append_left _ (mem_map.mpr ⟨x, hx, rfl⟩))

variable {called : List (ℕ × SerCbReason)}

theorem Accounted.next (h : Accounted cfg j (.step f :: jobs)) (howner : j'.owner = j.owner)
    (hstatuses : j'.statuses = j.statuses)
    (hnodes : j'.queues.pdev.view.nodes.Perm j.queues.pdev.view.nodes)
    (hrequests : (j'.queues.pdev.view.requests j.owner ++ new.filterMap SerJob.releases).Perm
      (j.queues.pdev.view.requests j.owner)) (hcalls : j'.calls = j.calls ++ called)
    (hreleased : called.filterMap released = [])
    (hcalled : ∀ call ∈ called, call.1 ∈ acceptedIn j.statuses)
    (hnamed : ∀ job ∈ new, ∀ request ∈ job.names j.owner, request ∈ acceptedIn j.statuses) :
    Accounted cfg j' (new ++ jobs) := by
  refine ⟨hnodes.trans h.nodes, ?_, ?_, ?_⟩
  · have hold := h.requests
    rw [howner, hstatuses, hcalls, filterMap_append, filterMap_append, hreleased,
      append_nil, append_assoc, ← append_assoc]
    exact (hrequests.append_right _).trans hold
  · rw [howner, hstatuses]
    intro job hjob
    rcases mem_append.mp hjob with hjob | hjob
    · exact hnamed job hjob
    · exact h.named job (mem_cons_of_mem _ hjob)
  · rw [hstatuses, hcalls]
    intro call hcall
    rcases mem_append.mp hcall with hcall | hcall
    · exact h.called call hcall
    · exact hcalled call hcall

omit [Fintype V] in
theorem frames_release (fs : List (SerFrame V)) :
    (fs.map SerJob.step).filterMap SerJob.releases = [] := by
  rw [filterMap_map]
  exact filterMap_eq_nil_iff.mpr fun _ _ => rfl

theorem Accounted.same {fs : List (SerFrame V)} (h : Accounted cfg j (.step f :: jobs))
    (howner : j'.owner = j.owner) (hstatuses : j'.statuses = j.statuses)
    (hentries : (j'.queues.pdev.view.active ++ j'.queues.pdev.view.pending).Perm
      (j.queues.pdev.view.active ++ j.queues.pdev.view.pending))
    (hpool : j'.queues.pdev.view.pool = j.queues.pdev.view.pool)
    (hcalls : j'.calls = j.calls ++ called) (hreleased : called.filterMap released = [])
    (hcalled : ∀ call ∈ called, call.1 ∈ acceptedIn j.statuses)
    (hnamed : ∀ f ∈ fs, ∀ request ∈ (SerJob.step f).names j.owner,
      request ∈ acceptedIn j.statuses) : Accounted cfg j' (fs.map .step ++ jobs) := by
  apply h.next howner hstatuses _ _ hcalls hreleased hcalled
  · intro job hjob
    obtain ⟨f, hf, rfl⟩ := mem_map.mp hjob
    exact hnamed f hf
  · rw [SerView.nodes, SerView.nodes, hpool]
    exact (hentries.map Prod.fst).append_right _
  · rw [frames_release, append_nil]
    exact hentries.map _

theorem Accounted.left (h : Accounted cfg j (.step f :: jobs)) (howner : j'.owner = j.owner)
    (hstatuses : j'.statuses = j.statuses) (hcalls : j'.calls = j.calls)
    (hentries : (j.queues.pdev.view.active ++ j.queues.pdev.view.pending).Perm
      (x :: (j'.queues.pdev.view.active ++ j'.queues.pdev.view.pending)))
    (hpool : j'.queues.pdev.view.pool = j.queues.pdev.view.pool ++ [x.1])
    (hreleases : new.filterMap SerJob.releases = [j.owner x.1])
    (hnames : ∀ job ∈ new, ∀ request ∈ job.names j.owner, request = j.owner x.1) :
    Accounted cfg j' (new ++ jobs) := by
  have hx : x ∈ j.queues.pdev.view.active ++ j.queues.pdev.view.pending :=
    hentries.mem_iff.mpr mem_cons_self
  refine h.next howner hstatuses ?_ ?_ (hcalls.trans (append_nil _).symm) rfl ?_ ?_
  · rw [SerView.nodes, SerView.nodes, hpool, ← append_assoc]
    apply perm_append_comm.trans
    exact ((hentries.map Prod.fst).append_right _).symm
  · rw [hreleases]
    exact perm_append_comm.trans (requests_perm j.owner hentries).symm
  · exact fun call hcall => absurd hcall not_mem_nil
  · intro job hjob request hrequest
    rw [hnames job hjob request hrequest]
    exact h.queued hx

end Changes

/-! ## Steps -/

section Steps

variable [DecidableEq V] [Fintype V] {cfg : SerConfig V} {j : SerJournal V} {f : SerFrame V}
  {fs : List (SerFrame V)} {jobs : List (SerJob V)} {choice : ActivationChoice}

variable {status : SerStatus} {owner : ℕ → ℕ} {node : ℕ} {isActive : Bool} {req : CancelReq V}
  {cursor : CancelCursor}

omit [DecidableEq V] in
theorem Accounted.refused {j' : SerJournal V} (h : Accounted cfg j (.step f :: jobs))
    (hstatus : status.accepted = false) (howner : j'.owner = j.owner)
    (hstatuses : j'.statuses = j.statuses ++ [status]) (hcalls : j'.calls = j.calls)
    (hlists : ∀ isActive,
      j'.queues.pdev.view.list isActive = j.queues.pdev.view.list isActive)
    (hpool : j'.queues.pdev.view.pool.Perm j.queues.pdev.view.pool) : Accounted cfg j' jobs := by
  have hentries := entries_same hlists
  have haccepted : acceptedIn j'.statuses = acceptedIn j.statuses := by
    rw [hstatuses, acceptedIn_append, hstatus, if_neg Bool.false_ne_true, append_nil]
  refine ⟨?_, ?_, ?_, ?_⟩
  · rw [SerView.nodes, hentries]
    exact (hpool.append_left _).trans h.nodes
  · rw [SerView.requests, hentries, howner, hcalls, haccepted]
    exact h.requests
  · rw [howner, haccepted]
    exact fun job hjob => h.named job (mem_cons_of_mem _ hjob)
  · rw [hcalls, haccepted]
    exact h.called

omit [DecidableEq V] [Fintype V] in
theorem requests_update {w : SerView V} {request : ℕ}
    (hnode : node ∉ (w.active ++ w.pending).map Prod.fst) :
    w.requests (Function.update owner node request) = w.requests owner := by
  apply map_congr_left
  intro x hx
  apply update_of_ne
  intro heq
  exact hnode (heq ▸ mem_map_of_mem hx)

omit [DecidableEq V] in
theorem Accounted.taken {j' : SerJournal V} {cmd : SerCommand V} {new : List (SerJob V)}
    (h : Accounted cfg j (.step f :: jobs)) (hstatus : status.accepted = true)
    (howner : j'.owner = Function.update j.owner node j.statuses.length)
    (hstatuses : j'.statuses = j.statuses ++ [status]) (hcalls : j'.calls = j.calls)
    (hpool : j.queues.pdev.view.pool = node :: j'.queues.pdev.view.pool)
    (hlist : (j'.queues.pdev.view.list isActive).Perm
      ((node, cmd) :: j.queues.pdev.view.list isActive)) (hother : ∀ other, other ≠ isActive →
      j'.queues.pdev.view.list other = j.queues.pdev.view.list other)
    (hreleases : new.filterMap SerJob.releases = [])
    (hnames : ∀ job ∈ new, ∀ request ∈ job.names j'.owner, request = j.statuses.length) :
    Accounted cfg j' (new ++ jobs) := by
  have hentries := entries_more hlist hother
  have haccepted : acceptedIn j'.statuses = acceptedIn j.statuses ++ [j.statuses.length] := by
    rw [hstatuses, acceptedIn_append, hstatus, if_pos rfl]
  have hnot : node ∉ (j.queues.pdev.view.active ++ j.queues.pdev.view.pending).map Prod.fst := by
    have hnodup := h.nodes.nodup_iff.mpr nodup_range
    rw [SerView.nodes, hpool] at hnodup
    intro hmem
    exact (nodup_append.mp hnodup).2.2 node hmem node mem_cons_self rfl
  have hself : j'.owner node = j.statuses.length := by
    rw [howner, update_self]
  refine ⟨?_, ?_, ?_, ?_⟩
  · apply Perm.trans _ h.nodes
    rw [SerView.nodes, SerView.nodes, hpool]
    exact ((hentries.map Prod.fst).append_right _).trans perm_middle.symm
  · have hrequests : (j'.queues.pdev.view.requests j'.owner).Perm
        (j.statuses.length :: j.queues.pdev.view.requests j.owner) := by
      rw [← requests_update hnot, ← howner, ← hself]
      exact requests_perm j'.owner hentries
    rw [haccepted, hcalls, filterMap_append, hreleases, nil_append]
    apply (hrequests.append_right _).trans
    exact (h.requests.cons _).trans (perm_append_singleton _ _).symm
  · rw [haccepted]
    intro job hjob request hrequest
    rcases mem_append.mp hjob with hjob | hjob
    · rw [hnames job hjob request hrequest]
      exact mem_append_right _ mem_cons_self
    · have hold := h.named job (mem_cons_of_mem _ hjob)
      cases job with
      | call other reason => exact mem_append_left _ (hold request hrequest)
      | step g =>
        cases g with
        | activate other =>
          cases hrequest
          by_cases heq : other = node
          · rw [heq, hself]
            exact mem_append_right _ mem_cons_self
          · rw [howner, update_of_ne heq]
            exact mem_append_left _ (hold _ rfl)
        | enqueue | dequeue | cancel | cancelResume | move | moveResume => cases hrequest
  · rw [haccepted, hcalls]
    exact fun call hcall => mem_append_left _ (h.called call hcall)

theorem Accounted.enqueue {cmd : SerCommand V} (hsound : j.queues.Sound (.enqueue cmd :: fs))
    (h : Accounted cfg j (.step (.enqueue cmd) :: jobs)) :
    Accounted cfg (j.runFrame cfg choice (.enqueue cmd)).1
      ((j.runFrame cfg choice (.enqueue cmd)).2 ++ jobs) := by
  have hanswer := @SerQueues.Sound.enqueueCmd_answer V _ _ _ _ cfg hsound cmd
  rw [SerJournal.runFrame]
  cases hconcrete : SerQueues.enqueueCmd cfg j.queues cmd with
  | mk status rest =>
    obtain ⟨node, s⟩ := rest
    rw [hconcrete] at hanswer
    simp only at hanswer ⊢
    generalize hw : s.pdev.view = w at hanswer
    cases hanswer with
    | refused hstatus hlists hpool =>
      have hnone : toActivate status none = none := by cases status <;> rfl
      subst hw
      rw [hnone]
      exact h.refused hstatus rfl rfl rfl hlists hpool
    | taken isActive hpool hlist hother =>
      subst hw
      rename_i node
      have hperm : (s.pdev.view.list isActive).Perm
          ((node, cmd) :: j.queues.pdev.view.list isActive) := by
        rw [hlist]
        exact putEntry_perm cmd _ _
      cases isActive with
      | true =>
        have hnames : ∀ job ∈ [(.step (.activate node) : SerJob V)], ∀ request ∈
            job.names (update j.owner node j.statuses.length),
            request = j.statuses.length := by
          intro job hjob request hrequest
          cases mem_singleton.mp hjob
          cases hrequest
          exact update_self ..
        exact h.taken rfl rfl rfl rfl hpool hperm hother rfl hnames
      | false =>
        exact h.taken rfl rfl rfl rfl hpool hperm hother rfl
          fun job hjob => absurd hjob not_mem_nil

theorem Accounted.dequeue {cmd : SerCommand V} (hsound : j.queues.Sound (.dequeue cmd :: fs))
    (h : Accounted cfg j (.step (.dequeue cmd) :: jobs)) :
    Accounted cfg (j.runFrame cfg choice (.dequeue cmd)).1
      ((j.runFrame cfg choice (.dequeue cmd)).2 ++ jobs) := by
  obtain ⟨hstatus, hpdev, -⟩ := hsound.coherent.removeNonScanCmd hsound.distinct cmd true
  rw [SerJournal.runFrame]
  cases hconcrete : j.queues.removeNonScanCmd cmd true with
  | mk status s =>
    rw [hconcrete] at hstatus hpdev
    simp only at hstatus hpdev ⊢
    rcases wlanSerRemoveNonScanCmd_cases cmd true j.queues.pdev with
      ⟨hview, hnot⟩ | ⟨e, l₁, l₂, hl, -, heq⟩
    · have hsame : Accounted cfg { j with queues := s }
          (([] : List (SerFrame V)).map .step ++ jobs) := by
        have hentries : s.pdev.view = j.queues.pdev.view := by rw [hpdev, hview]
        refine h.same rfl rfl ?_ ?_ (append_nil _).symm rfl ?_ ?_
        · show (s.pdev.view.active ++ s.pdev.view.pending).Perm _
          rw [hentries]
        · exact congrArg SerView.pool hentries
        · exact fun call hcall => absurd hcall not_mem_nil
        · exact fun f hf => absurd hf not_mem_nil
      cases status with
      | eFailure => exact hsame
      | ePending => exact hsame
      | success e => exact absurd hstatus.symm (hnot e)
    · rw [heq, if_pos rfl] at hpdev
      rw [heq] at hstatus
      subst hstatus
      have hactive : (j.queues.pdev.view.list true).Perm (e.entry ::
          ({ s.pdev with cmdPoolList := s.pdev.cmdPoolList ++ [e.node] } : SerPdev V).view.list
            true) := by
        have hnew : s.pdev.activeList = l₁ ++ l₂ := by rw [hpdev]
        rw [view_list, hl, view_list, map_append, map_cons]
        show (_ ++ _ :: _).Perm (e.entry :: s.pdev.activeList.map CommandList.entry)
        rw [hnew, map_append]
        exact perm_middle
      have hpending : ∀ other, other ≠ true → j.queues.pdev.view.list other =
          ({ s.pdev with cmdPoolList := s.pdev.cmdPoolList ++ [e.node] } : SerPdev V).view.list
            other := by
        intro other hother
        rw [Bool.eq_false_of_not_eq_true hother, hpdev]
        rfl
      refine h.left rfl rfl rfl (entries_more hactive hpending) ?_ ?_ ?_
      · show s.pdev.cmdPoolList ++ [e.node] = j.queues.pdev.cmdPoolList ++ [e.node]
        rw [hpdev]
      · rfl
      · intro job hjob request hrequest
        rcases mem_cons.mp hjob with rfl | hjob
        · cases hrequest
        · cases mem_singleton.mp hjob
          cases hrequest
          rfl

omit [Fintype V] in
theorem cancelLoop_released {s : SerQueues V} {qsize : ℕ} {nnode pnode : Option ℕ}
    {e : CommandList V}
    (hfound : (SerQueues.cancelLoop req isActive qsize nnode pnode s).1 = some (cursor, e)) :
    (SerQueues.cancelLoop req isActive qsize nnode pnode s).2.pdev.cmdPoolList =
      s.pdev.cmdPoolList ++ [e.node] := by
  induction qsize generalizing nnode pnode s with
  | zero => cases hfound
  | succ qsize ih =>
    rw [SerQueues.cancelLoop] at hfound ⊢
    split at hfound
    · cases hfound
    rename_i hsome
    rw [if_neg hsome]
    cases hget : s.getCmdFromQueue isActive nnode with
    | head =>
      rw [hget] at hfound
      cases hfound
    | free node =>
      rw [hget] at hfound
      exact ih hfound
    | entry kind x =>
      rw [hget] at hfound
      simp only at hfound ⊢
      split at hfound
      · rename_i hskip
        rw [if_pos hskip]
        exact ih hfound
      rename_i hskip
      rw [if_neg hskip]
      split at hfound
      · rename_i hmarked
        rw [if_pos hmarked]
        exact ih hfound
      rename_i hmarked
      rw [if_neg hmarked]
      split at hfound
      · cases hfound
      rename_i htimer
      rw [if_neg htimer]
      split at hfound
      · cases hfound
      rename_i hvdev
      rw [if_neg hvdev]
      cases hfound
      rw [setVdevNodes_pdev]
      show (s.pdev.setList kind _).cmdPoolList ++ [e.node] = _
      cases kind <;> rfl

omit [Fintype V] in
theorem cancelFrames_names {s : SerPdev V} :
    ∀ f ∈ (cancelFrames req isActive (none, s)).2, ∀ request ∈
      (SerJob.step f).names owner, request ∈ acceptedIn j.statuses := by
  intro f hf request hrequest
  rw [cancelFrames] at hf
  split at hf
  · cases mem_singleton.mp hf
    cases hrequest
  · cases hf

theorem Accounted.cancelled {r : Option (CancelCursor × CommandList V) × SerQueues V}
    {r' : Option (CancelCursor × SerCommand V) × SerPdev V} {t : SerPdev V}
    (h : Accounted cfg j (.step f :: jobs))
    (hlists : ∀ isActive, t.view.list isActive = j.queues.pdev.view.list isActive)
    (hpool : t.cmdPoolList = j.queues.pdev.cmdPoolList)
    (hfound : r'.1 = r.1.map fun found => (found.1, found.2.cmd)) (hpdev : r.2.pdev = r'.2)
    (hcases : (r'.1 = none ∧ r'.2.view = t.view) ∨
      ∃ cursor e l₁ l₂, t.view.list isActive = l₁ ++ e.entry :: l₂ ∧ req.selects e = true ∧
        r'.1 = some (cursor, e.cmd) ∧
        r'.2.view = (t.view.setList isActive (l₁ ++ l₂)).release e.node)
    (hreleased : ∀ cursor e, r.1 = some (cursor, e) →
      r.2.pdev.cmdPoolList = t.cmdPoolList ++ [e.node]) :
    Accounted cfg (j.cancelled req isActive r).1 ((j.cancelled req isActive r).2 ++ jobs) := by
  obtain ⟨found, s⟩ := r
  obtain ⟨found', pdev⟩ := r'
  simp only at hfound hpdev hcases hreleased
  subst hpdev
  cases found with
  | none =>
    rw [hfound] at hcases
    have hview : s.pdev.view = t.view := by
      rcases hcases with ⟨-, hview⟩ | ⟨cursor, e, -, -, -, -, hsome, -⟩
      · exact hview
      · cases hsome
    have hentries := entries_same hlists
    refine h.same rfl rfl ?_ ?_ (append_nil _).symm rfl ?_ ?_
    · show (s.pdev.view.active ++ s.pdev.view.pending).Perm _
      rw [hview, hentries]
    · show s.pdev.view.pool = _
      rw [hview]
      exact hpool
    · exact fun call hcall => absurd hcall not_mem_nil
    · exact cancelFrames_names
  | some found =>
    obtain ⟨cursor, e⟩ := found
    rcases hcases with ⟨hnone, -⟩ | ⟨cursor', e', l₁, l₂, hl, -, hsome, hview⟩
    · rw [hfound] at hnone
      cases hnone
    · rw [hfound] at hsome
      have hnode : e.node = e'.node := by
        have hreturned := hreleased cursor e rfl
        have hback : s.pdev.cmdPoolList = t.cmdPoolList ++ [e'.node] := by
          have hviewPool := congrArg SerView.pool hview
          cases isActive <;> exact hviewPool
        rw [hback] at hreturned
        exact (singleton_inj.mp (append_cancel_left hreturned)).symm
      have hlist : (j.queues.pdev.view.list isActive).Perm
          (e'.entry :: s.pdev.view.list isActive) := by
        have hnew : s.pdev.view.list isActive = l₁ ++ l₂ := by
          rw [hview]
          cases isActive <;> rfl
        rw [← hlists, hl, hnew]
        exact perm_middle
      have hother : ∀ other, other ≠ isActive →
          j.queues.pdev.view.list other = s.pdev.view.list other := by
        intro other hne
        rw [← hlists, hview]
        cases isActive <;> cases other <;> first | exact absurd rfl hne | rfl
      refine h.left rfl rfl rfl (entries_more hlist hother) ?_ ?_ ?_
      · show s.pdev.cmdPoolList = j.queues.pdev.cmdPoolList ++ [e'.node]
        rw [hreleased cursor e rfl, hpool, hnode]
      · show [j.owner e.node] = [j.owner e'.node]
        rw [hnode]
      · intro job hjob request hrequest
        show request = j.owner e'.node
        rw [← hnode]
        rcases mem_cons.mp hjob with rfl | hjob
        · cases hrequest
          rfl
        rcases mem_cons.mp hjob with rfl | hjob
        · cases hrequest
          rfl
        · cases mem_singleton.mp hjob
          cases hrequest

theorem Accounted.cancel {req : CancelReq V} {isActive : Bool}
    (hsound : j.queues.Sound (.cancel req isActive :: fs))
    (h : Accounted cfg j (.step (.cancel req isActive) :: jobs)) :
    Accounted cfg (j.runFrame cfg choice (.cancel req isActive)).1
      ((j.runFrame cfg choice (.cancel req isActive)).2 ++ jobs) := by
  obtain ⟨hfound, hfollows⟩ := hsound.cancelLoop req isActive
    (j.queues.pdev.list isActive).length none none fun _ _ _ hnone => nomatch hnone
  have hcases := QcomModules.Wlan.cancelLoop_cases req isActive
    (j.queues.pdev.list isActive).length none none j.queues.pdev
    (hsound.distinct.list isActive)
  exact h.cancelled (fun _ => rfl) rfl hfound hfollows.pdev hcases
    fun cursor e hsome => cancelLoop_released hsome

theorem Accounted.cancelResume {removed : SerCommand V}
    (hsound : j.queues.Sound (.cancelResume req isActive cursor removed :: fs))
    (hcursor : (SerFrame.cancelResume req isActive cursor removed).CursorOk j.queues.pdev)
    (h : Accounted cfg j (.step (.cancelResume req isActive cursor removed) :: jobs)) :
    Accounted cfg (j.runFrame cfg choice (.cancelResume req isActive cursor removed)).1
      ((j.runFrame cfg choice (.cancelResume req isActive cursor removed)).2 ++ jobs) := by
  have hcleared := hsound.cleared
  have hview := view_cancelClear j.queues.pdev isActive removed
  have hlists : ∀ other, (cancelClear isActive removed j.queues.pdev).view.list other =
      j.queues.pdev.view.list other := by
    intro other
    rw [hview, SerView.clear_list]
  have hpool : (cancelClear isActive removed j.queues.pdev).cmdPoolList =
      j.queues.pdev.cmdPoolList := by
    rw [QcomModules.Wlan.cancelClear]
    split
    · rfl
    split <;> rfl
  rw [SerJournal.runFrame]
  split
  · have hend : (none, cancelClear isActive removed j.queues.pdev).1 =
        (none : Option (CancelCursor × SerCommand V)) := rfl
    exact h.cancelled hlists hpool hend rfl (Or.inl ⟨rfl, rfl⟩)
      fun cursor e hsome => by cases hsome
  · rename_i hmore
    obtain ⟨hfound, hfollows⟩ := hcleared.cancelLoop req isActive cursor.qsize cursor.pnode
      cursor.pnode (hcursor.resumes hmore)
    have hcases := QcomModules.Wlan.cancelLoop_cases req isActive cursor.qsize cursor.pnode
      cursor.pnode _ (hcleared.distinct.list isActive)
    exact h.cancelled hlists hpool hfound hfollows.pdev hcases
      fun cursor e hsome => cancelLoop_released hsome

omit [DecidableEq V] [Fintype V] in
theorem activateCmd_names [DecidableEq V] {activated : Bool} {s : SerPdev V} :
    ∀ f ∈ (wlanSerializationActivateCmd activated node s).2,
      (SerJob.step f).names owner = none := by
  rw [wlanSerializationActivateCmd]
  intro f hf
  simp only at hf
  split at hf
  · cases hf
  split at hf
  · cases mem_singleton.mp hf
    rfl
  split at hf
  · cases mem_singleton.mp hf
    rfl
  · cases hf

theorem Accounted.activate (h : Accounted cfg j (.step (.activate node) :: jobs)) :
    Accounted cfg (j.runFrame cfg choice (.activate node)).1
      ((j.runFrame cfg choice (.activate node)).2 ++ jobs) := by
  have hview := view_setInUse j.queues.pdev true node
    fun u => { u with markedForActivation := false, isActive := true }
  have howner : j.owner node ∈ acceptedIn j.statuses :=
    h.named _ mem_cons_self _ rfl
  have hnamed : ∀ f ∈ (wlanSerializationActivateCmd (choice.timerStarted && choice.activated) node
      j.queues.pdev).2, ∀ request ∈ (SerJob.step f).names j.owner,
      request ∈ acceptedIn j.statuses := by
    intro f hf request hrequest
    rw [activateCmd_names f hf] at hrequest
    cases hrequest
  have hentries : (wlanSerializationActivateCmd (choice.timerStarted && choice.activated) node
      j.queues.pdev).1.view = j.queues.pdev.view := hview
  rw [SerJournal.runFrame]
  cases hstarted : choice.timerStarted with
  | true =>
    rw [hstarted] at hnamed hentries
    refine h.same rfl rfl ?_ ?_ rfl rfl ?_ hnamed
    · simp only [hentries, Perm.refl]
    · exact congrArg SerView.pool hentries
    · intro call hcall
      cases mem_singleton.mp hcall
      exact howner
  | false =>
    rw [hstarted] at hnamed hentries
    refine h.same rfl rfl ?_ ?_ (append_nil _).symm rfl ?_ hnamed
    · simp only [hentries, Perm.refl]
    · exact congrArg SerView.pool hentries
    · exact fun call hcall => absurd hcall not_mem_nil

theorem Accounted.moveSection {lookup : Option V} {vdevQueueLookup : Bool}
    (hsound : j.queues.Sound fs) (h : Accounted cfg j (.step f :: jobs)) :
    Accounted cfg { j with queues := (SerQueues.moveSection cfg lookup j.queues).2 }
      ((moveFrames vdevQueueLookup (SerQueues.moveSection cfg lookup j.queues).1).map .step ++
        jobs) := by
  obtain ⟨hfound, hpdev, -⟩ := @SerQueues.Sound.moveSection V _ _ _ _ cfg hsound lookup
  rw [hfound]
  rcases moveSection_cases cfg hsound.tracked lookup with
    ⟨hnone, hview, -⟩ | ⟨e, l₁, l₂, disabled, -, hpending, -, hsome, hview⟩
  · rw [hnone]
    have hentries : (SerQueues.moveSection cfg lookup j.queues).2.pdev.view =
        j.queues.pdev.view := by rw [hpdev, hview]
    refine h.same rfl rfl ?_ ?_ (append_nil _).symm rfl ?_ ?_
    · simp only [hentries, Perm.refl]
    · exact congrArg SerView.pool hentries
    · exact fun call hcall => absurd hcall not_mem_nil
    · exact fun f hf => absurd hf not_mem_nil
  · rw [hsome]
    have hmoved : (SerQueues.moveSection cfg lookup j.queues).2.pdev.view =
        j.queues.pdev.view.moved e.entry (l₁ ++ l₂) disabled := by rw [hpdev, hview]
    have hqueued : e.entry ∈ j.queues.pdev.view.active ++ j.queues.pdev.view.pending := by
      rw [hpending]
      exact mem_append_right _ (mem_append_right _ mem_cons_self)
    refine h.same rfl rfl ?_ ?_ (append_nil _).symm rfl ?_ ?_
    · simp only [hmoved]
      show (putEntry e.cmd e.entry j.queues.pdev.view.active ++ (l₁ ++ l₂)).Perm _
      rw [hpending]
      apply ((putEntry_perm e.cmd e.entry _).append_right _).trans
      apply perm_middle.symm.trans
      exact perm_middle.symm.append_left _
    · exact (congrArg SerView.pool hmoved).trans rfl
    · exact fun call hcall => absurd hcall not_mem_nil
    · intro f hf request hrequest
      rcases mem_cons.mp hf with rfl | hf
      · cases hrequest
        exact h.queued hqueued
      · cases mem_singleton.mp hf
        cases hrequest

theorem Accounted.runFrame (hsound : j.queues.Sound (f :: fs)) (hcursor : f.CursorOk j.queues.pdev)
    (h : Accounted cfg j (.step f :: jobs)) :
    Accounted cfg (j.runFrame cfg choice f).1 ((j.runFrame cfg choice f).2 ++ jobs) := by
  cases f with
  | enqueue cmd => exact h.enqueue hsound
  | dequeue cmd => exact h.dequeue hsound
  | cancel req isActive => exact h.cancel hsound
  | cancelResume req isActive cursor removed => exact h.cancelResume hsound hcursor
  | activate node => exact h.activate
  | move vdev blockingCmdRemoved => exact h.moveSection hsound
  | moveResume vdevQueueLookup =>
    rw [SerJournal.runFrame]
    split
    · show Accounted cfg j (([] : List (SerFrame V)).map .step ++ jobs)
      refine h.same rfl rfl (Perm.refl _) rfl (append_nil _).symm rfl ?_ ?_
      · exact fun call hcall => absurd hcall not_mem_nil
      · exact fun f hf => absurd hf not_mem_nil
    · exact h.moveSection hsound

omit [DecidableEq V] in
theorem Accounted.call {request : ℕ} {reason : SerCbReason}
    (h : Accounted cfg j (.call request reason :: jobs)) :
    Accounted cfg { j with calls := j.calls ++ [(request, reason)] } jobs := by
  refine ⟨h.nodes, ?_, fun job hjob => h.named job (mem_cons_of_mem _ hjob), ?_⟩
  · apply Perm.trans _ h.requests
    apply Perm.append_left
    rw [filterMap_append]
    cases reason with
    | releaseMemCmd =>
      show (_ ++ (_ ++ [request])).Perm (request :: _ ++ _)
      rw [← append_assoc]
      exact perm_append_singleton request _
    | activateCmd | cancelCmd =>
      show (_ ++ (_ ++ [])).Perm _
      rw [append_nil]
      exact Perm.refl _
  · intro call hcall
    rcases mem_append.mp hcall with hcall | hcall
    · exact h.called call hcall
    · cases mem_singleton.mp hcall
      exact h.named _ mem_cons_self request rfl

end Steps

end QcomModules.Wlan
