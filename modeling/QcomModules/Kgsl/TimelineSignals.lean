import QcomModules.Kgsl.Timeline
import QcomModules.Library.Runs

/-! Every fence of a timeline is signaled once, when its seqno is reached. -/

namespace QcomModules.Kgsl

open Library List

namespace KgslTimeline

/-! ## Frame -/

section Frame

variable (s : KgslTimeline) (id : ℕ) (f : TimelineFence)

@[simp] theorem setFence_fence_self : (s.setFence id f).fence id = f := Function.update_self ..

@[simp] theorem setFence_setFence (g : TimelineFence) :
    (s.setFence id f).setFence id g = s.setFence id g := by
  rw [setFence, setFence, Function.update_idem]
  rfl

theorem setFence_fence_of_ne {other : ℕ} (h : other ≠ id) :
    (s.setFence id f).fence other = s.fence other := Function.update_of_ne h ..

variable {s id f} in
theorem setFence_forall {P : ℕ → TimelineFence → Prop} (hself : P id f)
    (hothers : ∀ other, other ≠ id → P other (s.fence other)) (other : ℕ) :
    P other ((s.setFence id f).fence other) := by
  by_cases hother : other = id
  · rw [hother, setFence_fence_self]
    exact hself
  · rw [setFence_fence_of_ne _ _ _ hother]
    exact hothers other hother

/-- A fence on which references may have been taken. -/
structure Referenced (f g : TimelineFence) : Prop where
  stage : g.stage = f.stage
  seqno : g.seqno = f.seqno
  signals : g.signals = f.signals
  error : g.error = f.error
  le : f.refcount ≤ g.refcount

theorem getAll_frame (ids : List ℕ) :
    ∃ fence, s.getAll ids = { s with fence := fence } ∧
      (∀ other, Referenced (s.fence other) (fence other)) ∧
      ∀ other, other ∉ ids → fence other = s.fence other := by
  induction ids generalizing s with
  | nil => exact ⟨s.fence, rfl, fun _ => ⟨rfl, rfl, rfl, rfl, Nat.le_refl _⟩, fun _ _ => rfl⟩
  | cons a ids ih =>
    obtain ⟨fence, heq, href, hsame⟩ := ih (s.fenceGet a)
    refine ⟨fence, ?_, ?_, ?_⟩
    · rw [getAll, foldl_cons]
      exact heq
    · intro other
      have hother := href other
      by_cases hne : other = a
      · subst hne
        rw [fenceGet, setFence_fence_self] at hother
        exact
          { hother with
            le := Nat.le_trans (Nat.le_succ _) hother.le }
      · rwa [fenceGet, setFence_fence_of_ne _ _ _ hne] at hother
    · intro other hother
      rw [mem_cons, not_or] at hother
      rw [hsame other hother.2, fenceGet, setFence_fence_of_ne _ _ _ hother.1]

end Frame

/-! ## The invariant -/

/-- A listed or taken fence is handed out and not signaled; one that is neither and still has
references has been signaled; a listed fence that still has references waits for its seqno, unless
the call that reached it is about to move it. -/
structure FenceOk (value : ℕ) (moving : Prop) (f : TimelineFence) (listed taken : Prop) :
    Prop where
  signals_le : f.signals ≤ 1
  tracked : listed ∨ taken → f.stage = .handedOut ∧ f.signals = 0
  settled : f.stage = .handedOut → 0 < f.refcount → ¬ listed → ¬ taken → f.signals = 1
  taken_ref : taken → 0 < f.refcount
  allocating : f.stage = .allocating → 0 < f.refcount ∧ f.signals = 0
  reached : listed → 0 < f.refcount → f.seqno ≤ value → moving
  signaled : 0 < f.signals → f.seqno ≤ value ∨ f.error = timelineENoEnt

structure Inv (s : KgslTimeline) : Prop where
  fences : ∀ id, FenceOk s.value (s.lock = some .moving) (s.fence id) (id ∈ s.fences)
    (id ∈ s.taken)
  nodup : (s.fences ++ s.taken).Nodup
  sorted : s.fences.Pairwise fun a b => (s.fence a).seqno ≤ (s.fence b).seqno
  eventsSorted : s.events.Pairwise (· ≤ ·)
  events_gt : ∀ e ∈ s.events, s.value < e
  fresh : ∀ id, s.next ≤ id → (s.fence id).stage = .free
  adding : ∀ id, s.lock = some (.adding id) →
    (s.fence id).stage = .allocating ∧ s.value < (s.fence id).seqno
  signaling : ∀ temp, s.lock = some (.signaling temp) → ∀ id ∈ temp, (s.fence id).seqno ≤ s.value
  noError : s.destroy = .notCalled → ∀ id, (s.fence id).error = 0
  destroying : ∀ temp, s.lock = some (.destroying temp) → s.destroy = .signaling
  present : s.inIdr = true → s.destroy = .notCalled

theorem Inv.alloc (initial : ℕ) : Inv (alloc initial) where
  fences := by
    intro id
    constructor <;> simp [KgslTimeline.alloc, taken, lockTemp, flushTemp]
  nodup := nodup_nil
  sorted := List.Pairwise.nil
  eventsSorted := List.Pairwise.nil
  events_gt := by
    intro e he
    cases he
  fresh := fun _ _ => rfl
  adding := by
    intro id hid
    cases hid
  signaling := by
    intro temp htemp
    cases htemp
  noError := fun _ _ => rfl
  destroying := by
    intro temp htemp
    cases htemp
  present := fun _ => rfl

theorem Inv.untracked {s : KgslTimeline} (h : Inv s) {id : ℕ}
    (hstage : (s.fence id).stage ≠ .handedOut) : ¬ (id ∈ s.fences ∨ id ∈ s.taken) :=
  fun hin => hstage ((h.fences id).tracked hin).1

/-! ## Steps that change one fence -/

/-- What a change of one fence keeps, apart from what it means for the fence itself. -/
theorem Inv.setFence {s : KgslTimeline} (h : Inv s) {id : ℕ} {f : TimelineFence}
    (hok : FenceOk s.value (s.lock = some .moving) f (id ∈ s.fences) (id ∈ s.taken))
    (hseqno : f.seqno = (s.fence id).seqno) (herror : f.error = (s.fence id).error)
    (hfresh : s.next ≤ id → f.stage = .free)
    (hadding : s.lock = some (.adding id) → f.stage = .allocating) : Inv (s.setFence id f) := by
  have hfield : ∀ other, ((s.setFence id f).fence other).seqno = (s.fence other).seqno :=
    setFence_forall (P := fun other g => g.seqno = (s.fence other).seqno) hseqno fun _ _ => rfl
  exact
    { h with
      fences := setFence_forall (P := fun other g => FenceOk s.value (s.lock = some .moving) g
        (other ∈ s.fences) (other ∈ s.taken)) hok fun other _ => h.fences other
      sorted := by
        refine h.sorted.imp ?_
        intro a b hab
        rw [hfield a, hfield b]
        exact hab
      fresh := setFence_forall (P := fun other g => s.next ≤ other → g.stage = .free) hfresh
        fun other _ => h.fresh other
      adding := by
        refine setFence_forall (P := fun other g => s.lock = some (.adding other) →
          g.stage = .allocating ∧ s.value < g.seqno) ?_ fun other _ => h.adding other
        intro hlock
        rw [hseqno]
        exact ⟨hadding hlock, (h.adding id hlock).2⟩
      signaling := by
        intro temp hlock other hother
        rw [hfield other]
        exact h.signaling temp hlock other hother
      noError := fun hdestroy => setFence_forall (P := fun _ g => g.error = 0)
        (herror.trans (h.noError hdestroy id)) fun other _ => h.noError hdestroy other }

theorem Inv.fenceGet {s : KgslTimeline} (h : Inv s) {id : ℕ} (hheld : s.Held id) :
    Inv (s.fenceGet id) := by
  have hf := h.fences id
  refine h.setFence ?_ rfl rfl (h.fresh id) (fun hlock => (h.adding id hlock).1)
  exact
    { hf with
      settled := fun hstage _ => hf.settled hstage (Nat.zero_lt_of_lt hheld.2)
      taken_ref := fun _ => Nat.succ_pos _
      allocating := fun hstage => ⟨Nat.succ_pos _, (hf.allocating hstage).2⟩
      reached := fun hlisted _ => hf.reached hlisted (Nat.zero_lt_of_lt hheld.2) }

theorem Inv.fencePut {s : KgslTimeline} (h : Inv s) {id : ℕ} (hheld : s.Held id) :
    Inv (s.fencePut id) := by
  have hf := h.fences id
  refine h.setFence ?_ rfl rfl (h.fresh id) (fun hlock => (h.adding id hlock).1)
  exact
    { hf with
      settled := fun hstage hpos => hf.settled hstage (Nat.lt_of_lt_of_le hpos (Nat.sub_le _ _))
      taken_ref := by
        intro htaken
        have hcount := hheld.2
        rw [if_pos htaken] at hcount
        exact Nat.sub_pos_of_lt hcount
      allocating := by
        intro hstage
        have hhanded := hheld.1.symm.trans hstage
        cases hhanded
      reached := fun hlisted hpos => hf.reached hlisted (Nat.lt_of_lt_of_le hpos (Nat.sub_le _ _)) }

/-! ## Steps that change no fence -/

theorem Inv.frame {s : KgslTimeline} (h : Inv s) (callers : ℕ) (pending : List ℕ) :
    Inv { s with callers := callers, pending := pending } where
  fences := h.fences
  nodup := h.nodup
  sorted := h.sorted
  eventsSorted := h.eventsSorted
  events_gt := h.events_gt
  fresh := h.fresh
  adding := h.adding
  signaling := h.signaling
  noError := h.noError
  destroying := h.destroying
  present := h.present

theorem Inv.destroyRemove {s : KgslTimeline} (h : Inv s) (hidr : s.inIdr = true) :
    Inv { s with inIdr := false, destroy := .removed } := by
  have htaken :
      ({ s with inIdr := false, destroy := .removed } : KgslTimeline).taken = s.taken := by
    rw [taken, taken, h.present hidr]
    rfl
  exact
    { h with
      fences := by
        intro id
        rw [htaken]
        exact h.fences id
      nodup := by
        rw [htaken]
        exact h.nodup
      noError := by
        intro hdestroy
        cases hdestroy
      destroying := by
        intro temp htemp
        have hcalled := h.destroying temp htemp
        rw [h.present hidr] at hcalled
        cases hcalled
      present := by
        intro hpresent
        cases hpresent }

theorem Inv.addSignal {s : KgslTimeline} (h : Inv s) (seqno : ℕ) : Inv (s.addSignal seqno) := by
  rw [KgslTimeline.addSignal]
  split
  case isTrue => exact h
  case isFalse hgt =>
    exact
      { h with
        eventsSorted := by
          rw [pairwise_reverse]
          have hreverse : s.events.reverse.Pairwise (· ≥ ·) :=
            pairwise_reverse.mpr h.eventsSorted
          refine pairwise_insertBefore hreverse ?_ ?_
          · intro event _ hevent
            exact of_decide_eq_true hevent
          · intro event _ hevent
            exact Nat.le_of_not_le (of_decide_eq_false hevent)
        events_gt := by
          intro event hevent
          rcases mem_insertBefore.mp (mem_reverse.mp hevent) with heq | hold
          · rw [heq]
            exact Nat.lt_of_not_le hgt
          · exact h.events_gt event (mem_reverse.mp hold) }

theorem FenceOk.moved {value : ℕ} {moving moving' : Prop} {f : TimelineFence}
    {listed taken : Prop} (h : FenceOk value moving f listed taken) (hmoving : moving → moving') :
    FenceOk value moving' f listed taken :=
  { h with reached := fun hlisted hpos hle => hmoving (h.reached hlisted hpos hle) }

/-! ## Signaling -/

/-- The fence at the head of a private list is signaled and its reference dropped. -/
def signalTaken (s : KgslTimeline) (id : ℕ) (error : ℤ) : KgslTimeline :=
  s.setFence id
    { s.fence id with
      signals := (s.fence id).signals + 1
      refcount := (s.fence id).refcount - 1
      error := error }

theorem fencePut_signalLocked (s : KgslTimeline) (id : ℕ) :
    (s.signalLocked id).fencePut id = s.signalTaken id (s.fence id).error := by
  rw [signalLocked, KgslTimeline.fencePut, setFence_fence_self, setFence_setFence]
  rfl

theorem destroyFence_eq (s : KgslTimeline) (id : ℕ) :
    s.destroyFence id = s.signalTaken id timelineENoEnt := by
  rw [destroyFence, fencePut_signalLocked, signalTaken, setFence_fence_self, setFence_setFence]
  rfl

theorem Inv.signalTaken {s : KgslTimeline} (h : Inv s) {id : ℕ} {temp : List ℕ}
    {l l' : LockHolder} {error : ℤ} (hlock : s.lock = some l)
    (hl : lockTemp (some l) = id :: temp) (hl' : lockTemp (some l') = temp)
    (herror : (s.fence id).seqno ≤ s.value ∨ error = timelineENoEnt)
    (hsignaling : ∀ t, l' = .signaling t → ∀ other ∈ t, (s.fence other).seqno ≤ s.value)
    (hadding : ∀ other, l' ≠ .adding other) (hmoving : l ≠ .moving)
    (hdestroy : s.destroy = .notCalled → error = 0)
    (hdestroying : ∀ t, l' = .destroying t → s.destroy = .signaling) :
    Inv { s.signalTaken id error with lock := some l' } := by
  have htaken : s.taken = id :: (temp ++ flushTemp s.destroy) := by
    rw [taken, hlock, hl]
    rfl
  have htaken' : ({ s.signalTaken id error with lock := some l' } : KgslTimeline).taken =
      temp ++ flushTemp s.destroy := by
    rw [taken]
    show lockTemp (some l') ++ flushTemp s.destroy = _
    rw [hl']
  have hnodup := h.nodup
  rw [htaken] at hnodup
  have hhead : id ∉ s.fences ++ (temp ++ flushTemp s.destroy) :=
    (nodup_cons.mp (perm_middle.nodup_iff.mp hnodup)).1
  have hid := h.fences id
  have hmem : id ∈ s.taken := by
    rw [htaken]
    exact mem_cons_self
  obtain ⟨hstage, hsignals⟩ := hid.tracked (Or.inr hmem)
  have hseqno : ∀ other, ((s.signalTaken id error).fence other).seqno = (s.fence other).seqno :=
    setFence_forall (P := fun other g => g.seqno = (s.fence other).seqno) rfl fun _ _ => rfl
  exact
    { h with
      fences := by
        rw [htaken']
        refine setFence_forall (P := fun other g => FenceOk s.value (some l' = some .moving) g
          (other ∈ s.fences) (other ∈ temp ++ flushTemp s.destroy)) ?_ ?_
        · have hlisted : id ∉ s.fences := fun hin => hhead (mem_append_left _ hin)
          have hgone : id ∉ temp ++ flushTemp s.destroy :=
            fun hin => hhead (mem_append_right _ hin)
          exact
            { signals_le := by
                show (s.fence id).signals + 1 ≤ 1
                omega
              tracked := fun hin => (hin.elim hlisted hgone).elim
              settled := fun _ _ _ _ => by
                show (s.fence id).signals + 1 = 1
                omega
              taken_ref := fun hin => absurd hin hgone
              allocating := fun halloc => by
                have hsame := hstage.symm.trans halloc
                cases hsame
              reached := fun hin => absurd hin hlisted
              signaled := fun _ => herror }
        · intro other hother
          have hmem : other ∈ s.taken ↔ other ∈ temp ++ flushTemp s.destroy := by
            rw [htaken, mem_cons]
            exact or_iff_right hother
          rw [← hmem]
          refine (h.fences other).moved ?_
          intro hmov
          rw [hlock] at hmov
          exact absurd (Option.some.inj hmov) hmoving
      nodup := by
        rw [htaken']
        exact (nodup_cons.mp (perm_middle.nodup_iff.mp hnodup)).2
      sorted := by
        refine h.sorted.imp ?_
        intro a b hab
        show ((s.signalTaken id error).fence a).seqno ≤ ((s.signalTaken id error).fence b).seqno
        rw [hseqno a, hseqno b]
        exact hab
      fresh := by
        refine setFence_forall (P := fun other g => s.next ≤ other → g.stage = .free) ?_
          fun other _ => h.fresh other
        intro hnext
        have hsame := hstage.symm.trans (h.fresh id hnext)
        cases hsame
      adding := fun other hadd => absurd (Option.some.inj hadd) (hadding other)
      signaling := by
        intro t ht other hother
        show ((s.signalTaken id error).fence other).seqno ≤ s.value
        rw [hseqno other]
        exact hsignaling t (Option.some.inj ht) other hother
      noError := fun hnot => setFence_forall (P := fun _ g => g.error = 0) (hdestroy hnot)
        fun other _ => h.noError hnot other
      destroying := fun t ht => hdestroying t (Option.some.inj ht) }

/-! ## Steps that change the lock -/

theorem Inv.relock {s : KgslTimeline} (h : Inv s) {l : Option LockHolder} {d : DestroyPhase}
    (htaken : lockTemp l ++ flushTemp d = s.taken) (hmoving : s.lock ≠ some .moving)
    (hadding : ∀ id, l = some (.adding id) →
      (s.fence id).stage = .allocating ∧ s.value < (s.fence id).seqno)
    (hsignaling : ∀ temp, l ≠ some (.signaling temp))
    (hdestroy : d = .notCalled → s.destroy = .notCalled)
    (hdestroying : ∀ temp, l = some (.destroying temp) → d = .signaling)
    (hpresent : s.inIdr = true → d = .notCalled) :
    Inv { s with lock := l, destroy := d } where
  fences := by
    intro id
    have hmem : id ∈ ({ s with lock := l, destroy := d } : KgslTimeline).taken ↔ id ∈ s.taken := by
      rw [← htaken]
      rfl
    rw [hmem]
    exact (h.fences id).moved fun hmov => absurd hmov hmoving
  nodup := by
    show (s.fences ++ (lockTemp l ++ flushTemp d)).Nodup
    rw [htaken]
    exact h.nodup
  sorted := h.sorted
  eventsSorted := h.eventsSorted
  events_gt := h.events_gt
  fresh := h.fresh
  adding := hadding
  signaling := fun temp hlock => absurd hlock (hsignaling temp)
  noError := fun hd => h.noError (hdestroy hd)
  destroying := hdestroying
  present := hpresent

theorem Inv.signalNext {s : KgslTimeline} (h : Inv s) : Inv (s.step .signalNext) := by
  rw [step]
  split
  case h_1 hlock =>
    refine h.relock (l := none) (d := s.destroy) ?_ (by simp [hlock]) (by simp) (by simp)
      (fun hd => hd) (by simp) h.present
    rw [taken, hlock]
    rfl
  case h_2 id temp hlock =>
    rw [fencePut_signalLocked]
    refine h.signalTaken hlock rfl rfl ?_ ?_ (by simp) (by simp) (fun hd => h.noError hd id)
      (by simp)
    · exact Or.inl (h.signaling _ hlock id mem_cons_self)
    · intro t ht other hother
      cases ht
      exact h.signaling _ hlock other (mem_cons_of_mem _ hother)
  case h_3 hlock =>
    have hphase := h.destroying _ hlock
    refine h.relock ?_ (by simp [hlock]) (by simp) (by simp) (by simp) (by simp) ?_
    · rw [taken, hlock, hphase]
      rfl
    · intro hidr
      rw [h.present hidr] at hphase
      cases hphase
  case h_4 id temp hlock =>
    have hphase := h.destroying _ hlock
    rw [destroyFence_eq]
    refine h.signalTaken hlock rfl rfl (Or.inr rfl) (by simp) (by simp) (by simp) ?_
      (fun _ _ => hphase)
    intro hd
    rw [hd] at hphase
    cases hphase
  case h_5 => exact h

theorem Inv.destroyLock {s : KgslTimeline} (h : Inv s) : Inv (s.step .destroyLock) := by
  rw [step]
  split
  case h_1 temp hlock hphase =>
    refine h.relock ?_ (by simp [hlock]) (by simp) (by simp) (by simp) (fun _ _ => rfl) ?_
    · rw [taken, hlock, hphase]
      exact append_nil _
    · intro hidr
      rw [h.present hidr] at hphase
      cases hphase
  case h_2 => exact h

/-! ## Allocation -/

theorem Inv.fenceAlloc {s : KgslTimeline} (h : Inv s) (seqno : ℕ) : Inv (s.fenceAlloc seqno) := by
  have hfree : (s.fence s.next).stage = .free := h.fresh s.next (Nat.le_refl _)
  have huntracked := @Inv.untracked s h s.next (by simp [hfree])
  have hothers : ∀ other, other ≠ s.next → (s.fenceAlloc seqno).fence other = s.fence other :=
    fun other hne => setFence_fence_of_ne _ _ _ hne
  have hlisted : ∀ other ∈ s.fences, other ≠ s.next := by
    intro other hother heq
    exact huntracked (Or.inl (heq ▸ hother))
  exact
    { h with
      fences := by
        refine setFence_forall (P := fun other g => FenceOk s.value (s.lock = some .moving) g
          (other ∈ s.fences) (other ∈ s.taken)) ?_ fun other _ => h.fences other
        exact
          { signals_le := Nat.zero_le _
            tracked := fun hin => absurd hin huntracked
            settled := fun hstage => by cases hstage
            taken_ref := fun hin => absurd (Or.inr hin) huntracked
            allocating := fun _ => ⟨Nat.one_pos, rfl⟩
            reached := fun hin => absurd (Or.inl hin) huntracked
            signaled := fun hpos => by cases hpos }
      sorted := by
        refine h.sorted.imp_of_mem ?_
        intro a b ha hb hab
        rw [hothers a (hlisted a ha), hothers b (hlisted b hb)]
        exact hab
      fresh := by
        intro other hother
        have hlt : s.next + 1 ≤ other := hother
        rw [hothers other (by omega)]
        exact h.fresh other (by omega)
      adding := by
        refine setFence_forall (P := fun other g => s.lock = some (.adding other) →
          g.stage = .allocating ∧ s.value < g.seqno) ?_ fun other _ => h.adding other
        intro hlock
        have hstage := hfree.symm.trans (h.adding _ hlock).1
        cases hstage
      signaling := by
        intro temp hlock other hother
        have htaken : other ∈ s.taken := by
          have hlock' : s.lock = some (.signaling temp) := hlock
          rw [taken, hlock']
          exact mem_append_left _ hother
        have hne : other ≠ s.next := fun heq => huntracked (Or.inr (heq ▸ htaken))
        rw [hothers other hne]
        exact h.signaling temp hlock other hother
      noError := fun hd => setFence_forall (P := fun _ g => g.error = 0) rfl
        fun other _ => h.noError hd other }

theorem Inv.fenceAllocLocked {s : KgslTimeline} (h : Inv s) {id : ℕ} (hlock : s.lock = none)
    (hstage : (s.fence id).stage = .allocating) : Inv (s.fenceAllocLocked id) := by
  have hid := h.fences id
  have huntracked := @Inv.untracked s h id (by simp [hstage])
  rw [KgslTimeline.fenceAllocLocked]
  split
  case isTrue hreached =>
    have hsignals := (hid.allocating hstage).2
    simp only [signalLocked, setFence_fence_self, setFence_setFence]
    refine h.setFence ?_ rfl rfl ?_ ?_
    · exact
        { signals_le := by
            show (s.fence id).signals + 1 ≤ 1
            omega
          tracked := fun hin => absurd hin huntracked
          settled := fun _ _ _ _ => by
            show (s.fence id).signals + 1 = 1
            omega
          taken_ref := fun hin => absurd (Or.inr hin) huntracked
          allocating := fun hst => by cases hst
          reached := fun hin => absurd (Or.inl hin) huntracked
          signaled := fun _ => Or.inl (of_decide_eq_true hreached) }
    · intro hnext
      have hfree := h.fresh id hnext
      rw [hstage] at hfree
      cases hfree
    · intro hadd
      rw [hlock] at hadd
      cases hadd
  case isFalse hlater =>
    refine h.relock (l := some (.adding id)) (d := s.destroy) ?_ (by simp [hlock]) ?_ (by simp)
      (fun hd => hd) (by simp) h.present
    · rw [taken, hlock]
      rfl
    · intro other hadd
      cases hadd
      exact ⟨hstage, Nat.lt_of_not_le fun hle => hlater (decide_eq_true hle)⟩

theorem Inv.addFence {s : KgslTimeline} (h : Inv s) {id : ℕ}
    (hlock : s.lock = some (.adding id)) : Inv (s.addFence id) := by
  obtain ⟨hstage, hgt⟩ := h.adding id hlock
  have hid := h.fences id
  have huntracked := @Inv.untracked s h id (by simp [hstage])
  have hnotListed : id ∉ s.fences := fun hin => huntracked (Or.inl hin)
  have htaken : (s.addFence id).taken = s.taken := by
    rw [taken, taken, hlock]
    rfl
  have hmem : ∀ other, other ∈ (s.addFence id).fences ↔ other = id ∨ other ∈ s.fences :=
    fun other => mem_insertBefore
  have hseqno : ∀ other, ((s.addFence id).fence other).seqno = (s.fence other).seqno :=
    setFence_forall (P := fun other g => g.seqno = (s.fence other).seqno) rfl fun _ _ => rfl
  exact
    { h with
      fences := by
        intro other
        rw [htaken, hmem]
        revert other
        refine setFence_forall (P := fun other g => FenceOk s.value
          (none = some LockHolder.moving) g (other = id ∨ other ∈ s.fences) (other ∈ s.taken))
          ?_ ?_
        · exact
            { hid with
              tracked := fun _ => ⟨rfl, (hid.allocating hstage).2⟩
              settled := fun _ _ hnot => absurd (Or.inl rfl) hnot
              taken_ref := fun hin => absurd (Or.inr hin) huntracked
              allocating := fun hst => by cases hst
              reached := fun _ _ hle => absurd (Nat.lt_of_lt_of_le hgt hle) (Nat.lt_irrefl _) }
        · intro other heq
          rw [or_iff_right heq]
          refine (h.fences other).moved ?_
          intro hmov
          rw [hlock] at hmov
          cases hmov
      nodup := by
        rw [htaken]
        have hperm := (insertBefore_perm
          (fun entry => decide ((s.fence id).seqno < (s.fence entry).seqno)) id s.fences)
        refine (hperm.append_right s.taken).nodup_iff.mpr ?_
        exact nodup_cons.mpr ⟨fun hin => huntracked (mem_append.mp hin), h.nodup⟩
      sorted := by
        have hle : IsTrans ℕ fun a b => (s.fence a).seqno ≤ (s.fence b).seqno :=
          ⟨fun _ _ _ hab hbc => Nat.le_trans hab hbc⟩
        have hsorted : (s.addFence id).fences.Pairwise
            fun a b => (s.fence a).seqno ≤ (s.fence b).seqno := by
          refine pairwise_insertBefore h.sorted ?_ ?_
          · intro entry _ hlt
            exact Nat.le_of_lt (of_decide_eq_true hlt)
          · intro entry _ hlt
            exact Nat.le_of_not_lt (of_decide_eq_false hlt)
        refine hsorted.imp ?_
        intro a b hab
        rw [hseqno a, hseqno b]
        exact hab
      fresh := by
        refine setFence_forall (P := fun other g => s.next ≤ other → g.stage = .free) ?_
          fun other _ => h.fresh other
        intro hnext
        have hfree := hstage.symm.trans (h.fresh id hnext)
        cases hfree
      adding := by
        intro other hadd
        cases hadd
      signaling := by
        intro temp hsig
        cases hsig
      noError := fun hd => setFence_forall (P := fun _ g => g.error = 0) (h.noError hd id)
        fun other _ => h.noError hd other
      destroying := by
        intro temp hdes
        cases hdes }

/-! ## Signals -/

theorem lt_of_mem_dropWhile {events : List ℕ} {seqno event : ℕ}
    (hsorted : events.Pairwise (· ≤ ·))
    (h : event ∈ events.dropWhile fun e => decide (e ≤ seqno)) : seqno < event := by
  induction events with
  | nil => cases h
  | cons e es ih =>
    obtain ⟨hfirst, hrest⟩ := pairwise_cons.mp hsorted
    by_cases he : e ≤ seqno
    · rw [dropWhile_cons_of_pos (by simpa using he)] at h
      exact ih hrest h
    · rw [dropWhile_cons_of_neg (by simpa using he)] at h
      rcases mem_cons.mp h with heq | htail
      · omega
      · have hle := hfirst event htail
        omega

theorem Inv.signal {s : KgslTimeline} (h : Inv s) (hlock : s.lock = none) (seqno : ℕ) :
    Inv (s.signal seqno) := by
  rw [KgslTimeline.signal]
  split
  case isTrue => exact h
  case isFalse hge =>
    have hle : s.value ≤ seqno := Nat.le_of_not_lt hge
    have htaken : ∀ events, ({ s with
        value := seqno, events := events, lock := some .moving } : KgslTimeline).taken =
          s.taken := by
      intro events
      rw [taken, taken, hlock]
      rfl
    exact
      { h with
        fences := by
          intro id
          rw [htaken]
          have hid := h.fences id
          exact
            { hid with
              reached := fun _ _ _ => rfl
              signaled := fun hpos => (hid.signaled hpos).imp_left fun hseq =>
                Nat.le_trans hseq hle }
        nodup := by
          rw [htaken]
          exact h.nodup
        eventsSorted := h.eventsSorted.sublist (dropWhile_sublist _)
        events_gt := fun event hevent => lt_of_mem_dropWhile h.eventsSorted hevent
        adding := by
          intro id hadd
          cases hadd
        signaling := by
          intro temp hsig
          cases hsig
        destroying := by
          intro temp hdes
          cases hdes }

theorem filter_not_append_perm (p : ℕ → Bool) (xs : List ℕ) :
    (xs.filter (fun id => !p id) ++ xs.filter p).Perm xs :=
  perm_append_comm.trans (filter_append_perm p xs)

theorem Inv.moveFences {s : KgslTimeline} (h : Inv s) (hlock : s.lock = some .moving) :
    Inv s.moveFences := by
  obtain ⟨fence, heq, href, hsame⟩ := s.getAll_frame (s.fences.filter s.Moves)
  have htaken : s.taken = flushTemp s.destroy := by
    rw [taken, hlock]
    rfl
  have hmoves : ∀ id, s.Moves id = true ↔
      (s.fence id).seqno ≤ s.value ∧ 0 < (s.fence id).refcount := by
    intro id
    rw [Moves, fenceSignaled, Bool.and_eq_true, decide_eq_true_iff, decide_eq_true_iff]
  have hnodup := h.nodup
  rw [htaken] at hnodup
  rw [KgslTimeline.moveFences, heq]
  refine
    { h with
      fences := ?_
      nodup := ?_
      sorted := ?_
      fresh := fun id hid => (href id).stage.trans (h.fresh id hid)
      adding := fun id hadd => by cases hadd
      signaling := ?_
      noError := fun hd id => (href id).error.trans (h.noError hd id)
      destroying := fun temp hdes => by cases hdes }
  · intro id
    have hid := h.fences id
    simp only [taken, lockTemp, mem_append, mem_reverse, mem_filter,
      Bool.not_eq_true']
    rw [htaken] at hid
    by_cases hmoved : id ∈ s.fences ∧ s.Moves id = true
    · obtain ⟨hstage, hsignals⟩ := hid.tracked (Or.inl hmoved.1)
      have hnot : ¬ (id ∈ s.fences ∧ s.Moves id = false) := by
        intro hkept
        rw [hmoved.2] at hkept
        cases hkept.2
      exact
        { signals_le := by
            rw [(href id).signals]
            exact hid.signals_le
          tracked := fun _ =>
            ⟨(href id).stage.trans hstage, (href id).signals.trans hsignals⟩
          settled := fun _ _ _ hgone => absurd (Or.inl hmoved) hgone
          taken_ref := fun _ => Nat.lt_of_lt_of_le ((hmoves id).mp hmoved.2).2 (href id).le
          allocating := fun hst => by
            have hother := ((href id).stage.trans hstage).symm.trans hst
            cases hother
          reached := fun hkept => absurd hkept hnot
          signaled := fun _ => Or.inl (by
            rw [(href id).seqno]
            exact ((hmoves id).mp hmoved.2).1) }
    · have hkept : id ∈ s.fences ∧ s.Moves id = false ↔ id ∈ s.fences := by
        refine ⟨fun hin => hin.1, fun hin => ⟨hin, ?_⟩⟩
        exact Bool.eq_false_iff.mpr fun hmov => hmoved ⟨hin, hmov⟩
      rw [hkept, or_iff_right hmoved, hsame id fun hin => hmoved (mem_filter.mp hin)]
      exact
        { hid with
          reached := fun hin hpos hle => absurd ⟨hin, (hmoves id).mpr ⟨hle, hpos⟩⟩ hmoved }
  · have hperm : (s.fences.filter (fun id => !s.Moves id) ++
        ((s.fences.filter s.Moves).reverse ++ flushTemp s.destroy)).Perm
          (s.fences ++ flushTemp s.destroy) := by
      rw [← append_assoc]
      refine Perm.append_right _ ?_
      exact ((reverse_perm _).append_left _).trans (filter_not_append_perm s.Moves s.fences)
    exact hperm.nodup_iff.mpr hnodup
  · refine (h.sorted.sublist filter_sublist).imp ?_
    intro a b hab
    show (fence a).seqno ≤ (fence b).seqno
    rw [(href a).seqno, (href b).seqno]
    exact hab
  · intro temp htemp id hid
    cases htemp
    rw [mem_reverse, mem_filter] at hid
    show (fence id).seqno ≤ s.value
    rw [(href id).seqno]
    exact ((hmoves id).mp hid.2).1

/-! ## Release and destruction -/

theorem Inv.release {s : KgslTimeline} (h : Inv s) {id : ℕ}
    (hstage : (s.fence id).stage = .handedOut) (hzero : (s.fence id).refcount = 0) :
    Inv (s.release id) := by
  have hid := h.fences id
  have hnotTaken : id ∉ s.taken := by
    intro hin
    have hpos := hid.taken_ref hin
    omega
  have hnodup := (nodup_append.mp h.nodup).1
  have hgone : id ∉ (s.release id).fences := hnodup.not_mem_erase
  have hseqno : ∀ other, ((s.release id).fence other).seqno = (s.fence other).seqno :=
    setFence_forall (P := fun other g => g.seqno = (s.fence other).seqno) rfl fun _ _ => rfl
  exact
    { h with
      fences := by
        refine setFence_forall (P := fun other g => FenceOk s.value (s.lock = some .moving) g
          (other ∈ (s.release id).fences) (other ∈ s.taken)) ?_ ?_
        · exact
            { hid with
              tracked := fun hin => (hin.elim hgone hnotTaken).elim
              settled := fun hst => by cases hst
              taken_ref := fun hin => absurd hin hnotTaken
              allocating := fun hst => by cases hst
              reached := fun hin => absurd hin hgone }
        · intro other heq
          have hmem : other ∈ (s.release id).fences ↔ other ∈ s.fences :=
            mem_erase_of_ne heq
          rw [hmem]
          exact h.fences other
      nodup := h.nodup.sublist (Sublist.append_right erase_sublist _)
      sorted := by
        refine (h.sorted.sublist erase_sublist).imp ?_
        intro a b hab
        rw [hseqno a, hseqno b]
        exact hab
      fresh := by
        refine setFence_forall (P := fun other g => s.next ≤ other → g.stage = .free) ?_
          fun other _ => h.fresh other
        intro hnext
        have hfree := hstage.symm.trans (h.fresh id hnext)
        cases hfree
      adding := by
        refine setFence_forall (P := fun other g => s.lock = some (.adding other) →
          g.stage = .allocating ∧ s.value < g.seqno) ?_ fun other _ => h.adding other
        intro hadd
        have halloc := hstage.symm.trans (h.adding id hadd).1
        cases halloc
      signaling := by
        intro temp hsig other hother
        rw [hseqno other]
        exact h.signaling temp hsig other hother
      noError := fun hd => setFence_forall (P := fun _ g => g.error = 0) (h.noError hd id)
        fun other _ => h.noError hd other }

theorem Inv.destroyFlush {s : KgslTimeline} (h : Inv s) (hphase : s.destroy = .removed) :
    Inv s.destroyFlush := by
  obtain ⟨fence, heq, href, hsame⟩ :=
    s.getAll_frame (s.fences.filter fun id => decide (0 < (s.fence id).refcount))
  have htaken : s.taken = lockTemp s.lock := by
    rw [taken, hphase]
    exact append_nil _
  have hnodup := h.nodup
  rw [htaken] at hnodup
  rw [KgslTimeline.destroyFlush, heq]
  refine
    { h with
      fences := ?_
      nodup := ?_
      sorted := List.Pairwise.nil
      fresh := fun id hid => (href id).stage.trans (h.fresh id hid)
      adding := ?_
      signaling := ?_
      noError := fun hd => by cases hd
      destroying := ?_
      present := ?_ }
  · intro id
    have hid := h.fences id
    simp only [taken, flushTemp, mem_append, mem_filter, decide_eq_true_iff]
    rw [htaken] at hid
    by_cases hmoved : id ∈ s.fences ∧ 0 < (s.fence id).refcount
    · obtain ⟨hstage, hsignals⟩ := hid.tracked (Or.inl hmoved.1)
      exact
        { signals_le := by
            rw [(href id).signals]
            exact hid.signals_le
          tracked := fun _ => ⟨(href id).stage.trans hstage, (href id).signals.trans hsignals⟩
          settled := fun _ _ _ hgone => absurd (Or.inr hmoved) hgone
          taken_ref := fun _ => Nat.lt_of_lt_of_le hmoved.2 (href id).le
          allocating := fun hst => by
            have hother := ((href id).stage.trans hstage).symm.trans hst
            cases hother
          reached := fun hin => by cases hin
          signaled := fun hpos => by
            rw [(href id).signals, hsignals] at hpos
            cases hpos }
    · rw [or_iff_left hmoved, hsame id fun hin => by
        rw [mem_filter, decide_eq_true_iff] at hin
        exact hmoved hin]
      exact
        { hid with
          tracked := fun hin => hid.tracked (hin.imp_left fun hnil => by cases hnil)
          settled := fun hstage hpos _ hgone =>
            hid.settled hstage hpos (fun hin => hmoved ⟨hin, hpos⟩) hgone
          reached := fun hin => by cases hin }
  · show ([] ++ (lockTemp s.lock ++ _)).Nodup
    rw [nil_append]
    have hall : (lockTemp s.lock ++ s.fences).Nodup := perm_append_comm.nodup_iff.mp hnodup
    exact hall.sublist (Sublist.append_left filter_sublist _)
  · intro id hadd
    obtain ⟨hstage, hgt⟩ := h.adding id hadd
    exact ⟨(href id).stage.trans hstage, by rwa [(href id).seqno]⟩
  · intro temp hsig id hid
    show (fence id).seqno ≤ s.value
    rw [(href id).seqno]
    exact h.signaling temp hsig id hid
  · intro temp hdes
    have hsignaling := h.destroying temp hdes
    rw [hphase] at hsignaling
    cases hsignaling
  · intro hidr
    have hnotCalled := h.present hidr
    rw [hphase] at hnotCalled
    cases hnotCalled

/-! ## Runs -/

theorem Inv.step {s : KgslTimeline} (h : Inv s) (op : TimelineOp) : Inv (s.step op) := by
  cases op with
  | byId => exact ite_keeps h fun _ => h.frame _ _
  | put => exact h.frame _ _
  | fenceAlloc seqno => exact ite_keeps h fun _ => h.fenceAlloc seqno
  | fenceAllocLocked id => exact ite_keeps h fun hready => h.fenceAllocLocked hready.1 hready.2
  | addFence =>
    rw [KgslTimeline.step]
    split
    case h_1 id hlock => exact h.addFence hlock
    case h_2 => exact h
  | addTimeline seqno => exact ite_keeps h fun _ => h.frame _ _
  | addSignal seqno => exact ite_keeps h fun _ => h.addSignal seqno
  | signal seqno => exact ite_keeps h fun hready => h.signal hready.1 seqno
  | retire seqno =>
    rw [KgslTimeline.step]
    split
    case isTrue hready =>
      exact Inv.signal (h.frame s.callers (s.pending.erase seqno)) hready.1 seqno
    case isFalse => exact h
  | moveFences => exact ite_keeps h fun hlock => h.moveFences hlock
  | signalNext => exact h.signalNext
  | fenceGet id => exact ite_keeps h fun hheld => h.fenceGet hheld
  | fencePut id => exact ite_keeps h fun hheld => h.fencePut hheld
  | release id => exact ite_keeps h fun hready => h.release hready.1 hready.2
  | destroyRemove => exact ite_keeps h fun hidr => h.destroyRemove hidr
  | destroyFlush => exact ite_keeps h fun hphase => h.destroyFlush hphase
  | destroyLock => exact h.destroyLock

theorem Inv.run {s : KgslTimeline} (h : Inv s) (ops : List TimelineOp) :
    Inv (ops.foldl KgslTimeline.step s) := by
  induction ops generalizing s with
  | nil => exact h
  | cons op ops ih => exact ih (h.step op)

theorem value_le_signal (s : KgslTimeline) (seqno : ℕ) : s.value ≤ (s.signal seqno).value := by
  rw [signal]
  split
  case isTrue => exact Nat.le_refl _
  case isFalse hge => exact Nat.le_of_not_lt hge

theorem value_getAll (s : KgslTimeline) (ids : List ℕ) : (s.getAll ids).value = s.value := by
  obtain ⟨fence, heq, -⟩ := s.getAll_frame ids
  rw [heq]

theorem value_le_step (s : KgslTimeline) (op : TimelineOp) : s.value ≤ (s.step op).value := by
  cases op with
  | signal seqno =>
    rw [step]
    split
    · exact value_le_signal s seqno
    · exact Nat.le_refl _
  | retire seqno =>
    rw [step]
    split
    · exact value_le_signal { s with pending := s.pending.erase seqno } seqno
    · exact Nat.le_refl _
  | moveFences =>
    rw [step]
    split
    · exact Nat.le_of_eq (value_getAll s _).symm
    · exact Nat.le_refl _
  | destroyFlush =>
    rw [step]
    split
    · exact Nat.le_of_eq (value_getAll s _).symm
    · exact Nat.le_refl _
  | addSignal seqno =>
    rw [step, addSignal]
    split
    · split <;> exact Nat.le_refl _
    · exact Nat.le_refl _
  | fenceAllocLocked id =>
    rw [step, fenceAllocLocked]
    split
    · split <;> exact Nat.le_refl _
    · exact Nat.le_refl _
  | put => exact Nat.le_refl _
  | _ =>
    rw [step]
    split <;> exact Nat.le_refl _

/-- On a timeline that is not destroyed the value never goes down, both lists stay sorted, and
no fence is signaled twice. Whenever `timeline->lock` is free, no event is listed whose seqno
is reached, nor a fence other than one without references whose release is under way, and
the fences with references are signaled exactly when their seqno is reached. -/
theorem fences_signaled_once (initial : ℕ) (ops : List TimelineOp) :
    let s := ops.foldl step (alloc initial)
    s.destroy = .notCalled →
      (∀ op, s.value ≤ (s.step op).value) ∧
      s.fences.Pairwise (fun a b => (s.fence a).seqno ≤ (s.fence b).seqno) ∧
      s.events.Pairwise (· ≤ ·) ∧
      (∀ id, (s.fence id).signals ≤ 1) ∧
      (s.lock = none →
        (∀ event ∈ s.events, s.value < event) ∧
        (∀ id ∈ s.fences, s.value < (s.fence id).seqno ∨ (s.fence id).refcount = 0) ∧
        ∀ id, (s.fence id).stage = .handedOut → 0 < (s.fence id).refcount →
          ((s.fence id).signals = 1 ↔ (s.fence id).seqno ≤ s.value)) := by
  intro s hlive
  have h : Inv s := (Inv.alloc initial).run ops
  refine ⟨s.value_le_step, h.sorted, h.eventsSorted, fun id => (h.fences id).signals_le, ?_⟩
  intro hlock
  have hwaiting : ∀ id ∈ s.fences, 0 < (s.fence id).refcount → s.value < (s.fence id).seqno := by
    intro id hin hpos
    by_contra hle
    have hmoving := (h.fences id).reached hin hpos (Nat.le_of_not_lt hle)
    rw [hlock] at hmoving
    cases hmoving
  have htaken : s.taken = [] := by
    rw [taken, hlock, hlive]
    rfl
  refine ⟨h.events_gt, ?_, ?_⟩
  · intro id hin
    rcases Nat.eq_zero_or_pos (s.fence id).refcount with hzero | hpos
    · exact Or.inr hzero
    · exact Or.inl (hwaiting id hin hpos)
  · intro id hstage hpos
    have hid := h.fences id
    rw [htaken] at hid
    by_cases hin : id ∈ s.fences
    · have hgt := hwaiting id hin hpos
      rw [(hid.tracked (Or.inl hin)).2]
      exact iff_of_false (by decide) (by omega)
    · have hsignals := hid.settled hstage hpos hin (by simp)
      refine iff_of_true hsignals ?_
      rcases hid.signaled (by omega) with hreached | herror
      · exact hreached
      · rw [h.noError hlive id] at herror
        cases herror

def sampleTimelineRun : List TimelineOp :=
  [.byId, .fenceAlloc 5, .fenceAllocLocked 0, .addFence, .fenceAlloc 3, .fenceAllocLocked 1,
    .addFence, .addSignal 7, .fencePut 1, .signal 5, .release 1, .moveFences, .signalNext,
    .signalNext]

theorem fences_signaled_once_sample :
    let s := sampleTimelineRun.foldl step (alloc 0)
    ∀ id, (s.fence id).stage = .handedOut → 0 < (s.fence id).refcount →
      ((s.fence id).signals = 1 ↔ (s.fence id).seqno ≤ s.value) :=
  ((fences_signaled_once 0 sampleTimelineRun (by decide +kernel)).2.2.2.2 (by decide +kernel)).2.2

end KgslTimeline

end QcomModules.Kgsl
