import Mathlib.Logic.Relation
import Mathlib.Data.List.Basic

/-! Runs of deterministic machines: outputs, simulation by a simpler machine, invariants of runs
whose every step meets a stated condition, and machines that may stop. -/

namespace QcomModules.Library

open List

universe u v w x

section Outputs

variable {σ : Type u} {τ : Type v} {ι : Type w} {ο : Type x}

def runOutputs (step : σ → ι → σ × ο) : σ → List ι → σ × List ο
  | s, [] => (s, [])
  | s, i :: is =>
    let (s', o) := step s i
    let (s'', os) := runOutputs step s' is
    (s'', o :: os)

@[simp] theorem runOutputs_nil (step : σ → ι → σ × ο) (s : σ) :
    runOutputs step s [] = (s, []) := rfl

@[simp] theorem runOutputs_cons (step : σ → ι → σ × ο) (s : σ) (i : ι) (is : List ι) :
    runOutputs step s (i :: is) =
      ((runOutputs step (step s i).1 is).1,
        (step s i).2 :: (runOutputs step (step s i).1 is).2) := rfl

/-- A relation kept by every pair of steps, with equal outputs, is kept by every run. -/
theorem runOutputs_simulates {step : σ → ι → σ × ο} {spec : τ → ι → τ × ο}
    {R : σ → τ → Prop}
    (hstep : ∀ s t i, R s t → R (step s i).1 (spec t i).1 ∧ (step s i).2 = (spec t i).2)
    {s : σ} {t : τ} (h : R s t) (is : List ι) :
    R (runOutputs step s is).1 (runOutputs spec t is).1 ∧
      (runOutputs step s is).2 = (runOutputs spec t is).2 := by
  induction is generalizing s t with
  | nil => exact ⟨h, rfl⟩
  | cons i is ih =>
    obtain ⟨hnext, hout⟩ := hstep s t i h
    obtain ⟨hrest, houts⟩ := ih hnext
    refine ⟨hrest, ?_⟩
    simp only [runOutputs_cons, hout, houts]

end Outputs

section Guarded

variable {σ : Type u} {ι : Type v}

def GuardedStep (ok : σ → ι → Prop) (step : σ → ι → σ) (s s' : σ) : Prop :=
  ∃ i, ok s i ∧ s' = step s i

/-- A step that has a condition keeps what it keeps where that holds. -/
theorem ite_keeps {Inv : σ → Prop} {c : Prop} [Decidable c] {s s' : σ} (h : Inv s)
    (hstep : c → Inv s') : Inv (if c then s' else s) := by
  split
  · exact hstep ‹_›
  · exact h

theorem invariant_of_guarded {ok : σ → ι → Prop} {step : σ → ι → σ} {Inv : σ → Prop}
    (hstep : ∀ s i, Inv s → ok s i → Inv (step s i)) {s s' : σ} (h : Inv s)
    (hrun : Relation.ReflTransGen (GuardedStep ok step) s s') : Inv s' := by
  induction hrun with
  | refl => exact h
  | tail _ hlast ih =>
    obtain ⟨i, hok, rfl⟩ := hlast
    exact hstep _ i ih hok

def allGuarded (ok : σ → ι → Prop) [∀ s i, Decidable (ok s i)] (step : σ → ι → σ) :
    σ → List ι → Bool
  | _, [] => true
  | s, i :: is => decide (ok s i) && allGuarded ok step (step s i) is

variable {ok P : σ → ι → Prop} {s : σ} {is : List ι}

theorem guarded_foldl [∀ s i, Decidable (ok s i)] {step : σ → ι → σ}
    (h : allGuarded ok step s is = true) :
    Relation.ReflTransGen (GuardedStep ok step) s (is.foldl step s) := by
  induction is generalizing s with
  | nil => exact .refl
  | cons i is ih =>
    rw [allGuarded, Bool.and_eq_true, decide_eq_true_eq] at h
    exact .head ⟨i, h.1, rfl⟩ (ih h.2)

theorem guarded_imp {ok' : σ → ι → Prop} {step : σ → ι → σ} (himp : ∀ s i, ok s i → ok' s i)
    {s' : σ} (h : Relation.ReflTransGen (GuardedStep ok step) s s') :
    Relation.ReflTransGen (GuardedStep ok' step) s s' :=
  Relation.ReflTransGen.mono (fun _ _ ⟨i, hok, hnext⟩ => ⟨i, himp _ i hok, hnext⟩) _ _ h

def EachStep (P : σ → ι → Prop) (step : σ → ι → σ) : σ → List ι → Prop
  | _, [] => True
  | s, i :: is => P s i ∧ EachStep P step (step s i) is

instance {P : σ → ι → Prop} [∀ s i, Decidable (P s i)] (step : σ → ι → σ) :
    ∀ s is, Decidable (EachStep P step s is)
  | _, [] => inferInstanceAs (Decidable True)
  | s, i :: is =>
    let _ : Decidable (EachStep P step (step s i) is) := instDecidableEachStep step (step s i) is
    inferInstanceAs (Decidable (P s i ∧ EachStep P step (step s i) is))

theorem eachStep_forall_iff {Q : ι → Prop} {step : σ → ι → σ} :
    EachStep (fun _ i => Q i) step s is ↔ ∀ i ∈ is, Q i := by
  induction is generalizing s with
  | nil => exact iff_of_true trivial fun _ hi => absurd hi not_mem_nil
  | cons i is ih =>
    rw [EachStep, forall_mem_cons]
    exact and_congr_right fun _ => ih

/-- Two properties that agree where an invariant holds, of inputs of a kind, agree on the runs of
such inputs that start there. -/
theorem eachStep_iff {Q : σ → ι → Prop} {step : σ → ι → σ} {Inv : σ → Prop} {kind : ι → Prop}
    (hiff : ∀ s i, Inv s → kind i → (P s i ↔ Q s i))
    (hkeep : ∀ s i, Inv s → kind i → P s i → Inv (step s i)) (h : Inv s)
    (hkind : ∀ i ∈ is, kind i) : EachStep P step s is ↔ EachStep Q step s is := by
  induction is generalizing s with
  | nil => exact Iff.rfl
  | cons i is ih =>
    have hi := hkind i mem_cons_self
    have hrest : ∀ j ∈ is, kind j := fun j hj => hkind j (mem_cons_of_mem i hj)
    rw [EachStep, EachStep, ← hiff s i h hi]
    exact and_congr_right fun hstep => ih (hkeep s i h hi hstep) hrest

theorem eachStep_append {step : σ → ι → σ} {js : List ι} :
    EachStep P step s (is ++ js) ↔
      EachStep P step s is ∧ EachStep P step (is.foldl step s) js := by
  induction is generalizing s with
  | nil => exact (Iff.of_eq (true_and _)).symm
  | cons i is ih =>
    rw [cons_append, EachStep, EachStep, ih, and_assoc]
    rfl

end Guarded

section Compared

variable {σ : Type u} {τ : Type v} {ι : Type w} {ο : Type x}

/-- Where two machines are related, an input is answered alike exactly when a condition holds, and
they stay related then: runs of them are answered alike exactly when every step meets it. -/
theorem runOutputs_eq_iff {step : σ → ι → σ × ο} {spec : τ → ι → τ × ο} {R : σ → τ → Prop}
    {ok P : τ → ι → Prop}
    (hout : ∀ s t i, R s t → ok t i → ((step s i).2 = (spec t i).2 ↔ P t i))
    (hnext : ∀ s t i, R s t → ok t i → P t i → R (step s i).1 (spec t i).1) {s : σ} {t : τ}
    (h : R s t) {is : List ι} (hok : EachStep ok (fun t i => (spec t i).1) t is) :
    (runOutputs step s is).2 = (runOutputs spec t is).2 ↔
      EachStep P (fun t i => (spec t i).1) t is := by
  induction is generalizing s t with
  | nil => exact iff_of_true rfl trivial
  | cons i is ih =>
    rw [runOutputs_cons, runOutputs_cons, cons.injEq, EachStep, hout s t i h hok.1]
    exact and_congr_right fun hP => ih (hnext s t i h hok.1 hP) hok.2

end Compared

section Partial

variable {σ : Type u} {ι : Type v} {β : Type w}

/-- Every input of a list meets the condition in the state it is given in, as far as the steps of a
machine that may stop go. -/
def AllMeet (ok : σ → ι → Prop) (step : σ → ι → Option σ) : σ → List ι → Prop
  | _, [] => True
  | s, i :: is => ok s i ∧ ∀ s', step s i = some s' → AllMeet ok step s' is

variable {ok : σ → ι → Prop} {s s' : σ} {is : List ι}

theorem run_isSome_iff {step : σ → ι → Option σ}
    (hstep : ∀ s i, (∃ s', step s i = some s') ↔ ok s i) (s : σ) (is : List ι) :
    (∃ s', is.foldlM step s = some s') ↔ AllMeet ok step s is := by
  induction is generalizing s with
  | nil => exact ⟨fun _ => trivial, fun _ => ⟨s, rfl⟩⟩
  | cons i is ih =>
    rw [AllMeet, foldlM_cons]
    constructor
    · intro hall
      obtain ⟨s'', hrun⟩ := hall
      obtain ⟨s', hnext, hrest⟩ := Option.bind_eq_some_iff.1 hrun
      refine ⟨(hstep s i).1 ⟨s', hnext⟩, fun t ht => ?_⟩
      obtain rfl : s' = t := Option.some.inj (hnext.symm.trans ht)
      exact (ih s').1 ⟨s'', hrest⟩
    · intro h
      obtain ⟨s', hnext⟩ := (hstep s i).2 h.1
      obtain ⟨s'', hrest⟩ := (ih s').2 (h.2 s' hnext)
      exact ⟨s'', Option.bind_eq_some_iff.2 ⟨s', hnext, hrest⟩⟩

/-- What every step appends to a log, a run appends in order. -/
theorem log_of_run {step : σ → ι → Option σ} {log : σ → List β} {entries : ι → List β}
    (hstep : ∀ s i s', ok s i → step s i = some s' → log s' = log s ++ entries i)
    (h : AllMeet ok step s is) (hrun : is.foldlM step s = some s') :
    log s' = log s ++ is.flatMap entries := by
  induction is generalizing s with
  | nil =>
    cases hrun
    rw [flatMap_nil, append_nil]
  | cons i is ih =>
    obtain ⟨t, hnext, hrest⟩ := Option.bind_eq_some_iff.1 hrun
    rw [ih (h.2 t hnext) hrest, hstep s i t h.1 hnext, flatMap_cons, append_assoc]

theorem invariant_of_run_of_forall {good : ι → Prop} {step : σ → ι → Option σ} {Inv : σ → Prop}
    (hstep : ∀ s i s', good i → Inv s → step s i = some s' → Inv s') (his : ∀ i ∈ is, good i)
    (h : Inv s) (hrun : is.foldlM step s = some s') : Inv s' := by
  induction is generalizing s with
  | nil =>
    cases hrun
    exact h
  | cons i is ih =>
    obtain ⟨t, hnext, hrest⟩ := Option.bind_eq_some_iff.1 hrun
    exact ih (fun j hj => his j (mem_cons_of_mem i hj))
      (hstep s i t (his i mem_cons_self) h hnext) hrest

theorem invariant_of_run {step : σ → ι → Option σ} {Inv : σ → Prop}
    (hstep : ∀ s i s', Inv s → step s i = some s' → Inv s') (h : Inv s)
    (hrun : is.foldlM step s = some s') : Inv s' :=
  invariant_of_run_of_forall (fun s i s' _ => hstep s i s') (fun _ _ => trivial) h hrun

theorem AllMeet.imp {ok' : σ → ι → Prop} {step : σ → ι → Option σ} (himp : ∀ s i, ok s i → ok' s i)
    (h : AllMeet ok step s is) : AllMeet ok' step s is := by
  induction is generalizing s with
  | nil => trivial
  | cons i is ih => exact ⟨himp s i h.1, fun s' hnext => ih (h.2 s' hnext)⟩

theorem allMeet_of_forall (hok : ∀ s i, ok s i) (step : σ → ι → Option σ) (s : σ) (is : List ι) :
    AllMeet ok step s is := by
  induction is generalizing s with
  | nil => trivial
  | cons i is ih => exact ⟨hok s i, fun s' _ => ih s'⟩

end Partial

end QcomModules.Library
