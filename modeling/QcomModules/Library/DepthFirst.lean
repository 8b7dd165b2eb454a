import Mathlib.Data.List.Basic

/-! Depth-first visits: a node is updated, and then the nodes that the update names are visited
one after the other. Between two updates the nodes still to be visited form a list, and an
invariant of a state and such a list carries over to the whole visit. -/

namespace QcomModules.Library

variable {σ ι : Type*}

def visit (step : σ → ι → σ × List ι) : ℕ → σ → ι → σ
  | 0, s, _ => s
  | depth + 1, s, i => (step s i).2.foldl (visit step depth) (step s i).1

theorem visit_keeps {step : σ → ι → σ × List ι} {P : σ → Prop} (hstep : ∀ s i, P s → P (step s i).1)
    (depth : ℕ) (s : σ) (i : ι) (h : P s) : P (visit step depth s i) := by
  induction depth generalizing s i with
  | zero => exact h
  | succ depth ih => exact List.foldlRecOn _ _ (hstep s i h) (fun s hs j _ => ih s j hs)

/-- The list holds what is still to be visited, and visits lead to higher ranks only. -/
structure VisitRule (step : σ → ι → σ × List ι) (rank : ι → ℕ) (bound : ℕ)
    (Inv : σ → List ι → Prop) : Prop where
  keeps : ∀ {s i todo}, Inv s (i :: todo) → Inv (step s i).1 ((step s i).2 ++ todo)
  rank_lt : ∀ {s i todo}, Inv s (i :: todo) → ∀ j ∈ (step s i).2, rank i < rank j
  bounded : ∀ {s i todo}, Inv s (i :: todo) → rank i < bound

variable {step : σ → ι → σ × List ι} {rank : ι → ℕ} {bound : ℕ} {Inv : σ → List ι → Prop}

variable {depth : ℕ} {todo : List ι}

theorem visit_foldl (hvisit : ∀ s i todo, bound ≤ depth + rank i → Inv s (i :: todo) →
      Inv (visit step depth s i) todo) (nodes : List ι) (s : σ)
    (hdepth : ∀ i ∈ nodes, bound ≤ depth + rank i) (hinv : Inv s (nodes ++ todo)) :
    Inv (nodes.foldl (visit step depth) s) todo := by
  induction nodes generalizing s with
  | nil => exact hinv
  | cons i nodes ih =>
    refine ih (visit step depth s i) (fun j hj => hdepth j (List.mem_cons_of_mem i hj)) ?_
    exact hvisit s i (nodes ++ todo) (hdepth i List.mem_cons_self) hinv

theorem VisitRule.visit (h : VisitRule step rank bound Inv) (depth : ℕ) (s : σ) (i : ι)
    (todo : List ι) (hdepth : bound ≤ depth + rank i) (hinv : Inv s (i :: todo)) :
    Inv (Library.visit step depth s i) todo := by
  induction depth generalizing s i todo with
  | zero =>
    have hbounded := h.bounded hinv
    omega
  | succ depth ih =>
    refine visit_foldl ih (step s i).2 (step s i).1 ?_ (h.keeps hinv)
    intro j hj
    have hrank := h.rank_lt hinv j hj
    omega

/-- So do the visits of several nodes, one after the other. -/
theorem VisitRule.foldl (h : VisitRule step rank bound Inv) (depth : ℕ) (s : σ)
    (nodes todo : List ι) (hdepth : ∀ i ∈ nodes, bound ≤ depth + rank i)
    (hinv : Inv s (nodes ++ todo)) : Inv (nodes.foldl (Library.visit step depth) s) todo :=
  visit_foldl (fun s i todo => h.visit depth s i todo) nodes s hdepth hinv

/-! Where no rank is known, every visit may spend a part of a budget instead. -/

/-- The list holds what is still to be visited, and every visit spends something. -/
structure BudgetRule (step : σ → ι → σ × List ι) (budget : σ → ℕ)
    (Inv : σ → List ι → Prop) : Prop where
  keeps : ∀ {s i todo}, Inv s (i :: todo) → Inv (step s i).1 ((step s i).2 ++ todo)
  spends : ∀ {s i todo}, Inv s (i :: todo) → budget (step s i).1 < budget s

variable {budget : σ → ℕ}

theorem budget_foldl (hvisit : ∀ s i todo, budget s < depth → Inv s (i :: todo) →
      Inv (visit step depth s i) todo ∧ budget (visit step depth s i) ≤ budget s) (nodes : List ι)
    (s : σ) (hdepth : budget s < depth) (hinv : Inv s (nodes ++ todo)) :
    Inv (nodes.foldl (visit step depth) s) todo ∧
      budget (nodes.foldl (visit step depth) s) ≤ budget s := by
  induction nodes generalizing s with
  | nil => exact ⟨hinv, Nat.le_refl _⟩
  | cons i nodes ih =>
    obtain ⟨hnext, hle⟩ := hvisit s i (nodes ++ todo) hdepth hinv
    obtain ⟨hlast, hle'⟩ := ih (visit step depth s i) (Nat.lt_of_le_of_lt hle hdepth) hnext
    exact ⟨hlast, Nat.le_trans hle' hle⟩

/-- A visit deeper than its budget takes its node off the list. -/
theorem BudgetRule.visit (h : BudgetRule step budget Inv) (depth : ℕ) (s : σ) (i : ι)
    (todo : List ι) (hdepth : budget s < depth) (hinv : Inv s (i :: todo)) :
    Inv (Library.visit step depth s i) todo ∧
      budget (Library.visit step depth s i) ≤ budget s := by
  induction depth generalizing s i todo with
  | zero => exact absurd hdepth (Nat.not_lt_zero _)
  | succ depth ih =>
    have hspends := h.spends hinv
    obtain ⟨hlast, hle⟩ := budget_foldl ih (step s i).2 (step s i).1 (by omega) (h.keeps hinv)
    exact ⟨hlast, Nat.le_trans hle (Nat.le_of_lt hspends)⟩

theorem BudgetRule.foldl (h : BudgetRule step budget Inv) (depth : ℕ) (s : σ)
    (nodes todo : List ι) (hdepth : budget s < depth) (hinv : Inv s (nodes ++ todo)) :
    Inv (nodes.foldl (Library.visit step depth) s) todo :=
  (budget_foldl (fun s i todo => h.visit depth s i todo) nodes s hdepth hinv).1

end QcomModules.Library
