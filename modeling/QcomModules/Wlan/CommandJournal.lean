import QcomModules.Wlan.VdevSteps

/-! What becomes of each request: threads work on the queues of the pdev and of its vdevs, and a
journal keeps the answer to every request and every call of a callback. -/

namespace QcomModules.Wlan

open Library

variable {V : Type} [DecidableEq V]

/-! ## Journals -/

/-- `wlan_serialization_cb_reason`, without the timeout. -/
inductive SerCbReason where
  | activateCmd
  | cancelCmd
  | releaseMemCmd
deriving DecidableEq, Repr

/-- The queues, the request whose command each entry had last, the answer to each request in the
order of the requests, and the callbacks that were called, with the number of their request. All
but the queues is history. -/
structure SerJournal (V : Type) where
  queues : SerQueues V
  owner : ℕ → ℕ
  statuses : List SerStatus
  calls : List (ℕ × SerCbReason)

/-- What a thread still has to do: a step of an operation, or the call of a callback. -/
inductive SerJob (V : Type) where
  | step (f : SerFrame V)
  | call (request : ℕ) (reason : SerCbReason)
deriving DecidableEq, Repr

/-- Whether the timer of a command can be started, and what its callback returns. -/
structure ActivationChoice where
  timerStarted : Bool
  activated : Bool
deriving DecidableEq, Repr

/-- The end of a section of a cancellation. The callbacks of a removed command come before the
lock is taken again. -/
def SerJournal.cancelled (j : SerJournal V) (req : CancelReq V) (isActive : Bool) :
    Option (CancelCursor × CommandList V) × SerQueues V → SerJournal V × List (SerJob V)
  | (some (cursor, e), s) =>
    ({ j with queues := s },
      [.call (j.owner e.node) .cancelCmd, .call (j.owner e.node) .releaseMemCmd,
        .step (.cancelResume req isActive cursor e.cmd)])
  | (none, s) =>
    ({ j with queues := s }, (cancelFrames req isActive (none, s.pdev)).2.map .step)

variable [Fintype V]

def SerJournal.runFrame (cfg : SerConfig V) (choice : ActivationChoice) (j : SerJournal V) :
    SerFrame V → SerJournal V × List (SerJob V)
  | .enqueue cmd =>
    let r := SerQueues.enqueueCmd cfg j.queues cmd
    ({ j with
        queues := r.2.2
        owner := r.2.1.elim j.owner fun node => Function.update j.owner node j.statuses.length
        statuses := j.statuses ++ [r.1] },
      ((toActivate r.1 r.2.1).map fun node => .step (.activate node)).toList)
  | .dequeue cmd =>
    match j.queues.removeNonScanCmd cmd true with
    | (.success e, s) =>
      ({ j with queues := { s with pdev := s.pdev.release e.node } },
        [.step (.move (some e.cmd.vdev) e.cmd.isBlocking),
          .call (j.owner e.node) .releaseMemCmd])
    | (_, s) => ({ j with queues := s }, [])
  | .cancel req isActive =>
    j.cancelled req isActive (SerQueues.cancelLoop req isActive
      (j.queues.pdev.list isActive).length none none j.queues)
  | .cancelResume req isActive cursor removed =>
    let s := { j.queues with pdev := cancelClear isActive removed j.queues.pdev }
    j.cancelled req isActive (if req.vdev.isNone && !req.pdev then (none, s)
      else SerQueues.cancelLoop req isActive cursor.qsize cursor.pnode cursor.pnode s)
  | .activate node =>
    let activated := choice.timerStarted && choice.activated
    let r := wlanSerializationActivateCmd activated node j.queues.pdev
    ({ j with
        queues := { j.queues with pdev := r.1 }
        calls := if choice.timerStarted then j.calls ++ [(j.owner node, .activateCmd)]
          else j.calls },
      r.2.map .step)
  | .move vdev blockingCmdRemoved =>
    let waiting := j.queues.pdev.blockingCmdWaiting
    let lookup := if !blockingCmdRemoved && waiting = 0 then vdev else none
    let r := SerQueues.moveSection cfg lookup j.queues
    ({ j with queues := r.2 }, (moveFrames lookup.isSome r.1).map .step)
  | .moveResume vdevQueueLookup =>
    if vdevQueueLookup || j.queues.pdev.blockingCmdActive then (j, [])
    else
      let r := SerQueues.moveSection cfg none j.queues
      ({ j with queues := r.2 }, (moveFrames false r.1).map .step)

def SerJournal.act (cfg : SerConfig V) (choice : ActivationChoice) (j : SerJournal V) :
    List (SerJob V) → SerJournal V × List (SerJob V)
  | .step f :: rest => ((j.runFrame cfg choice f).1, (j.runFrame cfg choice f).2 ++ rest)
  | .call request reason :: rest => ({ j with calls := j.calls ++ [(request, reason)] }, rest)
  | [] => (j, [])

/-- The queues of a pdev and the threads that execute operations on them, in any order of their
steps. -/
def serJournal (cfg : SerConfig V) :
    ThreadSystem (SerJournal V) (List (SerJob V)) (SerOp V) ActivationChoice where
  enter op := op.frames.map .step
  enabled _ _ := true
  act := SerJournal.act cfg

def SerJournal.create (cfg : SerConfig V) : Threads (SerJournal V) (List (SerJob V)) :=
  ⟨⟨SerQueues.create cfg, fun _ => 0, [], []⟩, []⟩

/-! ## The pdev alone -/

omit [DecidableEq V] [Fintype V] in
def SerJob.frame : SerJob V → Option (SerFrame V)
  | .step f => some f
  | .call _ _ => none

section Refinement

variable {cfg : SerConfig V} {j : SerJournal V} {fs : List (SerFrame V)}

omit [DecidableEq V] [Fintype V] in
theorem filterMap_frame_step (fs : List (SerFrame V)) :
    (fs.map SerJob.step).filterMap SerJob.frame = fs := by
  rw [List.filterMap_map]
  exact List.filterMap_some

variable {req : CancelReq V} {isActive : Bool} {cursor : CancelCursor}

omit [Fintype V] in
theorem SerJournal.cancelled_follows {r : Option (CancelCursor × CommandList V) × SerQueues V}
    {r' : Option (CancelCursor × SerCommand V) × SerPdev V}
    (hfound : r'.1 = r.1.map fun found => (found.1, found.2.cmd)) (hfollows : r.2.Follows r'.2) :
    (j.cancelled req isActive r).1.queues.Follows (cancelFrames req isActive r').1 ∧
      (j.cancelled req isActive r).2.filterMap SerJob.frame =
        (cancelFrames req isActive r').2 := by
  obtain ⟨found, s⟩ := r
  obtain ⟨found', pdev⟩ := r'
  obtain ⟨hpdev, hcoherent⟩ := hfollows
  simp only at hfound hpdev hcoherent
  subst hfound hpdev
  cases found with
  | none => exact ⟨⟨rfl, hcoherent⟩, filterMap_frame_step _⟩
  | some found => exact ⟨⟨rfl, hcoherent⟩, rfl⟩

omit [Fintype V] in
theorem SerQueues.Sound.cleared {s : SerQueues V} {removed : SerCommand V}
    (h : s.Sound (.cancelResume req isActive cursor removed :: fs)) :
    ({ s with pdev := cancelClear isActive removed s.pdev } : SerQueues V).Sound fs := by
  have hview := view_cancelClear s.pdev isActive removed
  refine ⟨h.coherent.withPdev _ ?_, ?_⟩
  · intro other
    rw [hview, SerView.clear_list]
  · have hcleared := h.tracked.cleared rfl
    rw [← hview] at hcleared
    exact hcleared

omit [Fintype V] in
theorem SerFrame.CursorOk.resumes {s : SerPdev V} {removed : SerCommand V}
    (h : (SerFrame.cancelResume req isActive cursor removed).CursorOk s)
    (hmore : ¬(req.vdev.isNone && !req.pdev) = true) (hqsize : 0 < cursor.qsize)
    (hsome : (cancelClear isActive removed s).list isActive ≠ []) :
    ∀ node ∈ cursor.pnode,
      node ∈ ((cancelClear isActive removed s).list isActive).map (·.node) := by
  have hlist : (cancelClear isActive removed s).list isActive = s.list isActive := by
    rw [cancelClear]
    split
    · rfl
    split
    · rw [SerPdev.list, SerPdev.list]
    · rfl
  rw [hlist] at hsome ⊢
  intro node hnode
  have hmore' : (req.vdev.isSome || req.pdev) = true := by
    cases hvdev : req.vdev <;> cases hpdev : req.pdev <;> simp_all
  obtain ⟨e, he, rfl⟩ := h hmore' hqsize hsome node hnode
  exact List.mem_map_of_mem he

/-- Each step does to the pdev what the step on the pdev alone does, and calls for the same steps;
the lists of the vdevs agree with the pdev after it. -/
theorem SerJournal.runFrame_follows (choice : ActivationChoice) {f : SerFrame V}
    (h : j.queues.Sound (f :: fs)) (hcursor : f.CursorOk j.queues.pdev) :
    (j.runFrame cfg choice f).1.queues.Follows
        (QcomModules.Wlan.runFrame cfg (choice.timerStarted && choice.activated)
          j.queues.pdev f).1 ∧
      (j.runFrame cfg choice f).2.filterMap SerJob.frame =
        (QcomModules.Wlan.runFrame cfg (choice.timerStarted && choice.activated)
          j.queues.pdev f).2 := by
  cases f with
  | enqueue cmd =>
    obtain ⟨-, hfollows, hnode⟩ := @SerQueues.Sound.enqueueCmd V _ _ _ _ cfg h cmd
    refine ⟨hfollows, ?_⟩
    rw [SerJournal.runFrame, QcomModules.Wlan.runFrame]
    simp only
    rw [hnode]
    cases toActivate (SerQueues.enqueueCmd cfg j.queues cmd).1
      (SerQueues.enqueueCmd cfg j.queues cmd).2.1 <;> rfl
  | dequeue cmd =>
    have hremove := h.coherent.removeNonScanCmd h.distinct cmd true
    rw [SerJournal.runFrame, QcomModules.Wlan.runFrame]
    cases hconcrete : j.queues.removeNonScanCmd cmd true with
    | mk status s =>
      cases habstract : wlanSerRemoveNonScanCmd cmd true j.queues.pdev with
      | mk status' pdev =>
        rw [hconcrete, habstract] at hremove
        obtain ⟨hstatus, rfl, hcoherent⟩ := hremove
        cases hstatus
        cases status with
        | eFailure => exact ⟨⟨rfl, hcoherent⟩, rfl⟩
        | ePending => exact ⟨⟨rfl, hcoherent⟩, rfl⟩
        | success e => exact ⟨⟨rfl, hcoherent.withPdev _ fun _ => rfl⟩, rfl⟩
  | cancel req isActive =>
    obtain ⟨hfound, hfollows⟩ := h.cancelLoop req isActive
      (j.queues.pdev.list isActive).length none none fun _ _ _ hnone => by cases hnone
    exact SerJournal.cancelled_follows hfound hfollows
  | cancelResume req isActive cursor removed =>
    have hcleared := h.cleared
    rw [SerJournal.runFrame, QcomModules.Wlan.runFrame]
    split
    · exact SerJournal.cancelled_follows rfl ⟨rfl, hcleared.coherent⟩
    · rename_i hmore
      obtain ⟨hfound, hfollows⟩ := hcleared.cancelLoop req isActive cursor.qsize cursor.pnode
        cursor.pnode (hcursor.resumes hmore)
      exact SerJournal.cancelled_follows hfound hfollows
  | activate node => exact ⟨⟨rfl, h.coherent.marked true node _⟩, filterMap_frame_step _⟩
  | move vdev blockingCmdRemoved =>
    obtain ⟨hfound, hfollows⟩ := @SerQueues.Sound.moveSection V _ _ _ _ cfg h
      (if !blockingCmdRemoved && j.queues.pdev.blockingCmdWaiting = 0 then vdev else none)
    refine ⟨hfollows, ?_⟩
    rw [SerJournal.runFrame, QcomModules.Wlan.runFrame]
    simp only
    rw [filterMap_frame_step, hfound]
  | moveResume vdevQueueLookup =>
    rw [SerJournal.runFrame, QcomModules.Wlan.runFrame]
    split
    · exact ⟨⟨rfl, h.coherent⟩, rfl⟩
    · obtain ⟨hfound, hfollows⟩ := @SerQueues.Sound.moveSection V _ _ _ _ cfg h none
      refine ⟨hfollows, ?_⟩
      simp only
      rw [filterMap_frame_step, hfound]

end Refinement

end QcomModules.Wlan
