import QcomModules.Library.Threads
import QcomModules.Wlan.SerializationEffects

/-! Runs of the serialization: many threads whose steps interleave, and one thread that executes
operations one after another. -/

namespace QcomModules.Wlan

open Library List

variable {V : Type} [DecidableEq V]

/-! ## Threads -/

theorem Tracked.create [Fintype V] (cfg : SerConfig V) : Tracked (SerPdev.create cfg).view [] :=
  ⟨by simpa [SerPdev.create, SerPdev.view] using nodup_range, nodup_nil, rfl,
    List.Pairwise.nil⟩

theorem Tracked.started {w : SerView V} {fs : List (SerFrame V)} (h : Tracked w fs)
    (op : SerOp V) : Tracked w (op.frames ++ fs) := by
  cases op with
  | request cmd => exact h.cons rfl
  | remove cmd => exact h.cons rfl
  | cancel reqType cmd activeQueue pendingQueue =>
    cases activeQueue <;> cases pendingQueue
    · exact h
    · exact h.cons rfl
    · exact h.cons rfl
    · exact (h.cons rfl).cons rfl

omit [DecidableEq V] in
theorem threads_perm {threads : List (List (SerFrame V))} {i : ℕ} {f : SerFrame V}
    {rest : List (SerFrame V)} (h : threads[i]? = some (f :: rest)) :
    ∃ others, threads.flatten.Perm (f :: others) ∧
      ∀ gs, (threads.set i (gs ++ rest)).flatten.Perm (gs ++ others) := by
  obtain ⟨l₁, l₂, hl, hset⟩ := set_split h
  refine ⟨rest ++ (l₁.flatten ++ l₂.flatten), ?_, fun gs => ?_⟩
  · rw [hl, flatten_append, flatten_cons, ← cons_append]
    exact perm_append_comm_assoc _ _ _
  · rw [hset, flatten_append, flatten_cons, ← append_assoc gs]
    exact perm_append_comm_assoc _ _ _

/-- A condition on the steps that are taken, in the state before each. -/
def SerSystem.StepOk (ok : SerPdev V → SerFrame V → Prop) (s : SerSystem V) : SerStep V → Prop
  | .start _ => True
  | .run thread _ => ∀ f ∈ s.threads[thread]?.bind List.head?, ok s.pdev f

instance (ok : SerPdev V → SerFrame V → Prop) [∀ s f, Decidable (ok s f)] (s : SerSystem V) :
    (c : SerStep V) → Decidable (s.StepOk ok c)
  | .start _ => .isTrue trivial
  | .run thread _ =>
    inferInstanceAs (Decidable (∀ f ∈ s.threads[thread]?.bind List.head?, ok s.pdev f))

/-- A cancellation that goes on does so from an entry that is still in the list. The code would
follow the link of an entry that other threads have put into another list. -/
def SerFrame.CursorOk (s : SerPdev V) : SerFrame V → Prop
  | .cancelResume req isActive cursor _ =>
    (req.vdev.isSome || req.pdev) = true → 0 < cursor.qsize → s.list isActive ≠ [] →
      ∀ node ∈ cursor.pnode, ∃ e ∈ s.list isActive, e.node = node
  | _ => True

instance (s : SerPdev V) : (f : SerFrame V) → Decidable (f.CursorOk s)
  | .cancelResume req isActive cursor _ => inferInstanceAs (Decidable
      ((req.vdev.isSome || req.pdev) = true → 0 < cursor.qsize → s.list isActive ≠ [] →
        ∀ node ∈ cursor.pnode, ∃ e ∈ s.list isActive, e.node = node))
  | .enqueue _ | .dequeue _ | .cancel _ _ | .activate _ | .move _ _ | .moveResume _ =>
    .isTrue trivial

theorem Tracked.step [Fintype V] (cfg : SerConfig V) (s : SerSystem V) (c : SerStep V)
    (h : Tracked s.pdev.view s.threads.flatten) :
    Tracked (s.step cfg c).pdev.view (s.step cfg c).threads.flatten := by
  cases c with
  | start op =>
    have hflatten : (s.threads ++ [op.frames]).flatten = s.threads.flatten ++ op.frames := by
      rw [flatten_append, flatten_singleton]
    exact (h.started op).perm (hflatten ▸ perm_append_comm)
  | run thread activated =>
    rw [SerSystem.step]
    split
    · rename_i f rest hthread
      obtain ⟨others, hperm, hset⟩ := threads_perm hthread
      have hothers := h.perm hperm
      exact ((runFrame_effect cfg activated hothers).tracked hothers).perm (hset _).symm
    · exact h

/-! ## One thread -/

/-- A condition on the steps that are taken, in the state before each. -/
def SerTask.StepOk (ok : Bool → SerPdev V → SerFrame V → Prop) (s : SerTask V) :
    SerTaskStep V → Prop
  | .start _ => True
  | .run activated => ∀ f ∈ s.todo.head?, ok activated s.pdev f

instance (ok : Bool → SerPdev V → SerFrame V → Prop) [∀ b s f, Decidable (ok b s f)]
    (s : SerTask V) : (c : SerTaskStep V) → Decidable (s.StepOk ok c)
  | .start _ => .isTrue trivial
  | .run activated => inferInstanceAs (Decidable (∀ f ∈ s.todo.head?, ok activated s.pdev f))

section Invariant

variable [Fintype V] {ok : Bool → SerPdev V → SerFrame V → Prop}
  {Inv : SerPdev V → List (SerFrame V) → Prop}

theorem SerTask.step_keeps (cfg : SerConfig V)
    (hstart : ∀ s (op : SerOp V), Inv s [] → Inv s op.frames)
    (hrun : ∀ activated s f fs, Inv s (f :: fs) → ok activated s f →
      Inv (runFrame cfg activated s f).1 ((runFrame cfg activated s f).2 ++ fs))
    (s : SerTask V) (c : SerTaskStep V) (h : Inv s.pdev s.todo) (hok : s.StepOk ok c) :
    Inv (s.step cfg c).pdev (s.step cfg c).todo := by
  obtain ⟨pdev, todo⟩ := s
  cases c with
  | start op =>
    rw [SerTask.step]
    split
    · rename_i hidle
      cases hidle
      exact hstart pdev op h
    · exact h
  | run activated =>
    cases todo with
    | nil => exact h
    | cons f rest => exact hrun activated pdev f rest h (hok f rfl)

theorem serTask_invariant (cfg : SerConfig V) (hcreate : Inv (SerPdev.create cfg) [])
    (hstart : ∀ s (op : SerOp V), Inv s [] → Inv s op.frames)
    (hrun : ∀ activated s f fs, Inv s (f :: fs) → ok activated s f →
      Inv (runFrame cfg activated s f).1 ((runFrame cfg activated s f).2 ++ fs))
    {s : SerTask V} (h : Relation.ReflTransGen
      (GuardedStep (SerTask.StepOk ok) (SerTask.step cfg)) (SerTask.create cfg) s) :
    Inv s.pdev s.todo := by
  have hstep : ∀ (s : SerTask V) c, Inv s.pdev s.todo → s.StepOk ok c →
      Inv (s.step cfg c).pdev (s.step cfg c).todo :=
    SerTask.step_keeps cfg hstart hrun
  exact invariant_of_guarded hstep hcreate h

end Invariant

theorem Tracked.of_run [Fintype V] (cfg : SerConfig V)
    {ok : Bool → SerPdev V → SerFrame V → Prop} {s : SerTask V} (h : Relation.ReflTransGen
      (GuardedStep (SerTask.StepOk ok) (SerTask.step cfg)) (SerTask.create cfg) s) :
    Tracked s.pdev.view s.todo := by
  refine @serTask_invariant V _ _ ok (fun s fs => Tracked s.view fs) cfg (Tracked.create cfg)
    (fun s op h => ?_) (fun activated s f fs h _ => ?_) s h
  · exact append_nil op.frames ▸ h.started op
  · exact (runFrame_effect cfg activated h).tracked h

/-! ## A pdev with three vdevs -/

scoped instance neZero_vdevs : NeZero 3 := ⟨by decide⟩

def SerConfig.threeVdevs : SerConfig (Fin 3) := ⟨3, 12, fun _ => 4, by simp, by decide⟩

def SerCommand.roam (cmdId : UInt32) (vdev : Fin 3) : SerCommand (Fin 3) :=
  ⟨.vdevRoam, cmdId, false, false, false, vdev⟩

def SerCommand.restart (cmdId : UInt32) (vdev : Fin 3) : SerCommand (Fin 3) :=
  ⟨.pdevRestart, cmdId, false, true, false, vdev⟩

end QcomModules.Wlan
