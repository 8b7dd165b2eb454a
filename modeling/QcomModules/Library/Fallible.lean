import Mathlib.Init

/-! Computations over a state that may fail. A discipline is an invariant to keep, a relation
the state may move along, and the failures to avoid; the rules below show that a computation
follows it from its parts. -/

namespace QcomModules.Library

open List

universe u

section Run

variable {σ ε α β : Type u} {m : StateT σ (Except ε) α} {s : σ}

theorem run_bind {t : σ} {a : α} (h : m s = .ok (a, t)) (k : α → StateT σ (Except ε) β) :
    (m >>= k) s = k a t := by
  change Except.bind (m s) (fun out => k out.1 out.2) = _
  rw [h]
  rfl

theorem run_bind_error {e : ε} (h : m s = .error e) (k : α → StateT σ (Except ε) β) :
    (m >>= k) s = .error e := by
  change Except.bind (m s) (fun out => k out.1 out.2) = _
  rw [h]
  rfl

end Run

/-- What a computation over states `σ` that fails with `ε` has to respect. -/
structure Discipline (σ ε : Type u) where
  inv : σ → Prop
  rel : σ → σ → Prop
  bad : ε → Prop
  refl : ∀ s, rel s s
  trans : ∀ {s t w}, rel s t → rel t w → rel s w

namespace Discipline

variable {σ ε α β : Type u} (D : Discipline σ ε)

/-- The outcome of a computation started in `s` respects the discipline, and a result it
returns and the state it ends in meet `Q`. -/
def Allows (s : σ) (Q : α → σ → Prop) : Except ε (α × σ) → Prop
  | .ok (a, s') => D.inv s' ∧ D.rel s s' ∧ Q a s'
  | .error e => ¬ D.bad e

/-- What a computation without a state has to respect: it fails well, or its result meets `Q`. -/
def Yields (Q : α → Prop) : Except ε α → Prop
  | .ok a => Q a
  | .error e => ¬ D.bad e

/-- From every state of the invariant the computation respects the discipline. -/
def Keeps (m : StateT σ (Except ε) α) (Q : α → Prop) : Prop :=
  ∀ s, D.inv s → D.Allows s (fun a _ => Q a) (m s)

/-- The computation respects the discipline, whatever it returns. -/
abbrev Follows (m : StateT σ (Except ε) α) : Prop := D.Keeps m fun _ => True

variable {D}

variable {r : Except ε α} {P Q : α → Prop} {ι : Type u} {k : α → StateT σ (Except ε) β}
  {D' : Discipline σ ε} {a : α} {c : Prop}

theorem Yields.bind {k : α → Except ε β} {Q : β → Prop} (h : D.Yields P r)
    (hk : ∀ a, P a → D.Yields Q (k a)) : D.Yields Q (r >>= k) := by
  cases r with
  | error e => exact h
  | ok a => exact hk a h

theorem Yields.mono (h : D.Yields P r) (hPQ : ∀ a, P a → Q a) : D.Yields Q r := by
  cases r with
  | error e => exact h
  | ok a => exact hPQ a h

theorem Yields.mapM {f : ι → Except ε α} {l : List ι} (h : ∀ a ∈ l, D.Yields Q (f a)) :
    D.Yields (fun out => ∀ b ∈ out, Q b) (l.mapM f) := by
  induction l with
  | nil => exact fun _ hb => absurd hb not_mem_nil
  | cons a l ih =>
    rw [mapM_cons]
    refine (h a mem_cons_self).bind fun b hb => ?_
    refine (ih fun c hc => h c (mem_cons_of_mem a hc)).bind fun out hout => ?_
    exact forall_mem_cons.2 ⟨hb, hout⟩

theorem Allows.mono {s : σ} {P Q : α → σ → Prop} {r : Except ε (α × σ)} (h : D.Allows s P r)
    (hPQ : ∀ a s', P a s' → Q a s') : D.Allows s Q r := by
  cases r with
  | error e => exact h
  | ok out => exact ⟨h.1, h.2.1, hPQ _ _ h.2.2⟩

/-- A first part may be judged by a stricter discipline. -/
theorem Allows.after {s : σ} {m : StateT σ (Except ε) α} {P : α → σ → Prop} {Q : β → σ → Prop}
    (hrel : ∀ s t, D.rel s t → D'.rel s t) (hbad : ∀ e, D'.bad e → D.bad e)
    (hm : D.Allows s P (m s))
    (hk : ∀ a s', D.inv s' → D.rel s s' → P a s' → D'.Allows s' Q (k a s')) :
    D'.Allows s Q ((m >>= k) s) := by
  change D'.Allows s Q (Except.bind (m s) fun out => k out.1 out.2)
  cases hr : m s with
  | error e =>
    rw [hr] at hm
    exact fun hb => hm (hbad e hb)
  | ok out =>
    obtain ⟨a, s'⟩ := out
    rw [hr] at hm
    obtain ⟨hinv, hrel', hP⟩ := hm
    have hnext := hk a s' hinv hrel' hP
    change D'.Allows s Q (k a s')
    cases hk' : k a s' with
    | error e =>
      rw [hk'] at hnext
      exact hnext
    | ok out =>
      rw [hk'] at hnext
      exact ⟨hnext.1, D'.trans (hrel s s' hrel') hnext.2.1, hnext.2.2⟩

theorem Allows.bind {s : σ} {m : StateT σ (Except ε) α} {P : α → σ → Prop} {Q : β → σ → Prop}
    (hm : D.Allows s P (m s))
    (hk : ∀ a s', D.inv s' → D.rel s s' → P a s' → D.Allows s' Q (k a s')) :
    D.Allows s Q ((m >>= k) s) :=
  hm.after (fun _ _ h => h) (fun _ h => h) hk

theorem Allows.pure {s : σ} {Q : α → σ → Prop} (hs : D.inv s) (h : Q a s) :
    D.Allows s Q ((Pure.pure a : StateT σ (Except ε) α) s) :=
  ⟨hs, D.refl s, h⟩

theorem Allows.step {s t : σ} {m : StateT σ (Except ε) α} {Q : β → σ → Prop}
    (hrun : m s = .ok (a, t)) (hrel : D.rel s t) (hk : D.Allows t Q (k a t)) :
    D.Allows s Q ((m >>= k) s) := by
  change D.Allows s Q (Except.bind (m s) fun out => k out.1 out.2)
  rw [hrun]
  change D.Allows s Q (k a t)
  cases hout : k a t with
  | error e =>
    rw [hout] at hk
    exact hk
  | ok out =>
    rw [hout] at hk
    exact ⟨hk.1, D.trans hrel hk.2.1, hk.2.2⟩

theorem Allows.ite {s : σ} [Decidable c] {m k : StateT σ (Except ε) α} {Q : α → σ → Prop}
    (hm : c → D.Allows s Q (m s)) (hk : ¬ c → D.Allows s Q (k s)) :
    D.Allows s Q ((if c then m else k) s) := by
  by_cases hc : c
  · simpa only [if_pos hc] using hm hc
  · simpa only [if_neg hc] using hk hc

theorem Keeps.allows {m : StateT σ (Except ε) α} {s : σ} {Q : α → σ → Prop} (h : D.Keeps m P)
    (hs : D.inv s) (hPQ : ∀ a s', P a → Q a s') : D.Allows s Q (m s) :=
  (h s hs).mono hPQ

/-- A computation that respects a stricter discipline, whose relation the rest may rely on. -/
theorem Keeps.related {E : Discipline σ ε} {m : StateT σ (Except ε) α} {s : σ} (h : D.Keeps m P)
    (hs : D.inv s) (hinv : ∀ s, D.inv s → E.inv s) (hrel : ∀ s t, D.rel s t → E.rel s t)
    (hbad : ∀ e, E.bad e → D.bad e) : E.Allows s (fun a s' => P a ∧ D.rel s s') (m s) := by
  have hout := h s hs
  cases hr : m s with
  | error e =>
    rw [hr] at hout
    exact fun hb => hout (hbad e hb)
  | ok out =>
    rw [hr] at hout
    exact ⟨hinv _ hout.1, hrel _ _ hout.2.1, hout.2.2, hout.2.1⟩

theorem Keeps.mono {m : StateT σ (Except ε) α} (h : D.Keeps m P) (hPQ : ∀ a, P a → Q a) :
    D.Keeps m Q :=
  fun s hs => (h s hs).mono fun a _ => hPQ a

theorem Keeps.pure (h : Q a) : D.Keeps (Pure.pure a : StateT σ (Except ε) α) Q :=
  fun s hs => ⟨hs, D.refl s, h⟩

theorem Keeps.throw {e : ε} (h : ¬ D.bad e) :
    D.Keeps (MonadExcept.throw e : StateT σ (Except ε) α) Q :=
  fun _ _ => h

theorem Keeps.bind {m : StateT σ (Except ε) α} {Q : β → Prop} (hm : D.Keeps m P)
    (hk : ∀ a, P a → D.Keeps (k a) Q) : D.Keeps (m >>= k) Q :=
  fun s hs => (hm s hs).bind fun a s' hs' _ ha => hk a ha s' hs'

theorem Keeps.seq {m : StateT σ (Except ε) α} {Q : β → Prop} (hm : D.Keeps m P)
    (hk : ∀ a, D.Keeps (k a) Q) : D.Keeps (m >>= k) Q :=
  hm.bind fun a _ => hk a

theorem Keeps.get {Q : σ → Prop} (h : ∀ s, D.inv s → Q s) :
    D.Keeps (MonadState.get : StateT σ (Except ε) σ) Q :=
  fun s hs => ⟨hs, D.refl s, h s hs⟩

theorem Keeps.modify {f : σ → σ} (h : ∀ s, D.inv s → D.inv (f s) ∧ D.rel s (f s)) :
    D.Follows (modify f : StateT σ (Except ε) PUnit) :=
  fun s hs => ⟨(h s hs).1, (h s hs).2, trivial⟩

theorem Keeps.lift (h : D.Yields Q r) : D.Keeps (StateT.lift r : StateT σ (Except ε) α) Q := by
  intro s hs
  cases r with
  | error e => exact h
  | ok a => exact ⟨hs, D.refl s, h⟩

theorem Keeps.ite [Decidable c] {m k : StateT σ (Except ε) α} (hm : c → D.Keeps m Q)
    (hk : ¬ c → D.Keeps k Q) : D.Keeps (if c then m else k) Q := by
  by_cases hc : c
  · simpa only [if_pos hc] using hm hc
  · simpa only [if_neg hc] using hk hc

theorem Keeps.forM {f : ι → StateT σ (Except ε) PUnit} {l : List ι} (h : ∀ a ∈ l, D.Follows (f a)) :
    D.Follows (l.forM f) := by
  induction l with
  | nil => exact .pure trivial
  | cons a l ih =>
    exact (h a mem_cons_self).seq fun _ => ih fun b hb => h b (mem_cons_of_mem a hb)

theorem Keeps.foldlM {f : β → ι → StateT σ (Except ε) β} {l : List ι} {b : β} {Q : β → Prop}
    (hb : Q b) (h : ∀ b, Q b → ∀ a ∈ l, D.Keeps (f b a) Q) : D.Keeps (l.foldlM f b) Q := by
  induction l generalizing b with
  | nil => exact .pure hb
  | cons a l ih =>
    exact (h b hb a mem_cons_self).bind fun b' hb' =>
      ih hb' fun c hc d hd => h c hc d (mem_cons_of_mem a hd)

theorem Keeps.mapM {f : ι → StateT σ (Except ε) α} {l : List ι} (h : ∀ a ∈ l, D.Follows (f a)) :
    D.Follows (l.mapM f) := by
  induction l with
  | nil => exact .pure trivial
  | cons a l ih =>
    rw [mapM_cons]
    refine (h a mem_cons_self).seq fun b => ?_
    exact (ih fun c hc => h c (mem_cons_of_mem a hc)).seq fun _ => .pure trivial

theorem Keeps.loosen {m : StateT σ (Except ε) α} (h : D.Keeps m Q) (hinv : ∀ s, D'.inv s ↔ D.inv s)
    (hrel : ∀ s t, D.rel s t → D'.rel s t) (hbad : ∀ e, D'.bad e → D.bad e) : D'.Keeps m Q := by
  intro s hs
  have hout := h s ((hinv s).1 hs)
  cases hr : m s with
  | error e =>
    rw [hr] at hout
    exact fun hb => hout (hbad e hb)
  | ok out =>
    rw [hr] at hout
    exact ⟨(hinv _).2 hout.1, hrel _ _ hout.2.1, hout.2.2⟩

end Discipline

end QcomModules.Library
