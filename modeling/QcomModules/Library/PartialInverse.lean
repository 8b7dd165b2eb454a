import Mathlib.Logic.Function.Basic

/-! Two partial functions that undo each other, kept so by updating both at once. -/

namespace QcomModules.Library

universe u v

variable {α : Type u} {β : Type v} {f : α → Option β} {g : β → Option α}

def MutuallyInverse (f : α → Option β) (g : β → Option α) : Prop :=
  ∀ a b, f a = some b ↔ g b = some a

namespace MutuallyInverse

theorem empty : MutuallyInverse (fun _ : α => (none : Option β)) (fun _ => none) := by
  intro a b
  simp

theorem insert [DecidableEq α] [DecidableEq β] (h : MutuallyInverse f g) {a : α} {b : β}
    (ha : f a = none) (hb : g b = none) :
    MutuallyInverse (Function.update f a (some b)) (Function.update g b (some a)) := by
  intro a' b'
  by_cases haa : a' = a
  · subst haa
    by_cases hbb : b' = b
    · simp [hbb]
    · have hnot : g b' ≠ some a' := by
        intro hg
        rw [(h a' b').mpr hg] at ha
        cases ha
      simp [hbb, hnot, Ne.symm hbb]
  · by_cases hbb : b' = b
    · subst hbb
      have hnot : f a' ≠ some b' := by
        intro hf
        rw [(h a' b').mp hf] at hb
        cases hb
      simp [haa, hnot, Ne.symm haa]
    · simp [haa, hbb, h a' b']

theorem erase [DecidableEq α] [DecidableEq β] (h : MutuallyInverse f g) {a : α} {b : β}
    (hab : f a = some b) :
    MutuallyInverse (Function.update f a none) (Function.update g b none) := by
  have hba := (h a b).mp hab
  intro a' b'
  by_cases haa : a' = a
  · subst haa
    by_cases hbb : b' = b
    · simp [hbb]
    · have hnot : g b' ≠ some a' := by
        intro hg
        rw [(h a' b').mpr hg] at hab
        exact hbb (Option.some.inj hab)
      simp [hbb, hnot]
  · by_cases hbb : b' = b
    · subst hbb
      have hnot : f a' ≠ some b' := by
        intro hf
        rw [(h a' b').mp hf] at hba
        exact haa (Option.some.inj hba)
      simp [haa, hnot]
    · simp [haa, hbb, h a' b']

end MutuallyInverse

end QcomModules.Library
