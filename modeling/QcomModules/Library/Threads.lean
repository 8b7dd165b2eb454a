import QcomModules.Library.Runs
import Mathlib.Data.List.Perm.Basic

/-! Threads that take their steps on a shared state in any order, and the rule for invariants
that do not depend on the order of the threads. -/

namespace QcomModules.Library

open List

universe u v w x

variable {σ : Type u} {κ : Type v} {ι : Type w} {χ : Type x}

/-! ## Systems -/

/-- A shared state and the place each thread has come to. -/
structure Threads (σ : Type u) (κ : Type v) where
  shared : σ
  pcs : List κ

/-- A new thread, or the next step of one of the threads with what it cannot foresee. -/
inductive ThreadInput (ι : Type w) (χ : Type x) where
  | start (op : ι)
  | run (thread : ℕ) (choice : χ)

/-- Where a thread begins, when it can go on, and what its next step does. -/
structure ThreadSystem (σ : Type u) (κ : Type v) (ι : Type w) (χ : Type x) where
  enter : ι → κ
  enabled : σ → κ → Bool
  act : χ → σ → κ → σ × κ

def ThreadSystem.step (m : ThreadSystem σ κ ι χ) (s : Threads σ κ) :
    ThreadInput ι χ → Threads σ κ
  | .start op => ⟨s.shared, s.pcs ++ [m.enter op]⟩
  | .run thread choice =>
    match s.pcs[thread]? with
    | some pc =>
      if m.enabled s.shared pc then
        ⟨(m.act choice s.shared pc).1, s.pcs.set thread (m.act choice s.shared pc).2⟩
      else s
    | none => s

/-- A condition on the operations that start and on the steps the threads take. -/
def ThreadSystem.StepOk (okStart : ι → Prop) (ok : σ → List κ → κ → Prop) (s : Threads σ κ) :
    ThreadInput ι χ → Prop
  | .start op => okStart op
  | .run thread _ => ∀ pc ∈ s.pcs[thread]?, ok s.shared s.pcs pc

instance (okStart : ι → Prop) (ok : σ → List κ → κ → Prop) [DecidablePred okStart]
    [∀ s pcs pc, Decidable (ok s pcs pc)] (s : Threads σ κ) :
    (i : ThreadInput ι χ) → Decidable (ThreadSystem.StepOk okStart ok s i)
  | .start op => inferInstanceAs (Decidable (okStart op))
  | .run thread _ => inferInstanceAs (Decidable (∀ pc ∈ s.pcs[thread]?, ok s.shared s.pcs pc))

/-! ## Invariants -/

theorem set_split {α : Type*} {l : List α} {i : ℕ} {x : α} (h : l[i]? = some x) :
    ∃ l₁ l₂, l = l₁ ++ x :: l₂ ∧ ∀ y, l.set i y = l₁ ++ y :: l₂ := by
  obtain ⟨hi, rfl⟩ := List.getElem?_eq_some_iff.mp h
  refine ⟨l.take i, l.drop (i + 1), ?_, fun y =>
    set_eq_take_append_cons_drop.trans (if_pos hi)⟩
  rw [getElem_cons_drop, take_append_drop]

theorem exists_others {pcs : List κ} {i : ℕ} {pc : κ} (h : pcs[i]? = some pc) :
    ∃ others, pcs.Perm (pc :: others) ∧ ∀ next, (pcs.set i next).Perm (next :: others) := by
  obtain ⟨front, back, hsplit, hset⟩ := set_split h
  refine ⟨front ++ back, (Perm.of_eq hsplit).trans perm_middle, fun next => ?_⟩
  exact (Perm.of_eq (hset next)).trans perm_middle

section Invariant

variable {m : ThreadSystem σ κ ι χ} {okStart : ι → Prop} {ok : σ → List κ → κ → Prop}
  {Inv : σ → List κ → Prop}

/-- What the start of a thread and every good step of the thread in front keep is kept by each
step of the system. -/
theorem ThreadSystem.step_keeps
    (hperm : ∀ s pcs pcs', pcs.Perm pcs' → Inv s pcs → Inv s pcs')
    (hok : ∀ s pcs pcs' pc, pcs.Perm pcs' → ok s pcs pc → ok s pcs' pc)
    (hstart : ∀ s pcs op, Inv s pcs → okStart op → Inv s (m.enter op :: pcs))
    (hact : ∀ choice s pc pcs, Inv s (pc :: pcs) → m.enabled s pc = true → ok s (pc :: pcs) pc →
      Inv (m.act choice s pc).1 ((m.act choice s pc).2 :: pcs))
    (s : Threads σ κ) (i : ThreadInput ι χ) (h : Inv s.shared s.pcs)
    (hguard : StepOk okStart ok s i) : Inv (m.step s i).shared (m.step s i).pcs := by
  cases i with
  | start op =>
    apply hperm _ _ _ perm_append_comm
    exact hstart s.shared s.pcs op h hguard
  | run thread choice =>
    rw [ThreadSystem.step]
    split
    · rename_i pc hpc
      obtain ⟨others, hfront, hset⟩ := exists_others hpc
      split
      · rename_i henabled
        apply hperm _ _ _ (hset _).symm
        apply hact choice s.shared pc others (hperm _ _ _ hfront h) henabled
        exact hok _ _ _ _ hfront (hguard pc hpc)
      · exact h
    · exact h

/-- The rule for runs: an invariant of the initial state that good steps keep holds in every state
that a run of good steps reaches. -/
theorem ThreadSystem.invariant
    (hperm : ∀ s pcs pcs', pcs.Perm pcs' → Inv s pcs → Inv s pcs')
    (hok : ∀ s pcs pcs' pc, pcs.Perm pcs' → ok s pcs pc → ok s pcs' pc)
    (hstart : ∀ s pcs op, Inv s pcs → okStart op → Inv s (m.enter op :: pcs))
    (hact : ∀ choice s pc pcs, Inv s (pc :: pcs) → m.enabled s pc = true → ok s (pc :: pcs) pc →
      Inv (m.act choice s pc).1 ((m.act choice s pc).2 :: pcs))
    {s s' : Threads σ κ} (h : Inv s.shared s.pcs)
    (hrun : Relation.ReflTransGen (GuardedStep (StepOk okStart ok) m.step) s s') :
    Inv s'.shared s'.pcs := by
  have hstep := m.step_keeps hperm hok hstart hact
  induction hrun with
  | refl => exact h
  | tail _ hlast ih =>
    obtain ⟨i, hguard, rfl⟩ := hlast
    exact hstep _ i ih hguard

end Invariant

end QcomModules.Library
