import QcomModules.Kgsl.TimelineSignals

/-! Destruction of a timeline and the fences handed out for it. -/

namespace QcomModules.Kgsl

open Library List

namespace KgslTimeline

/-- The fences were taken off the list by `kgsl_ioctl_timeline_destroy`. -/
def flushed : DestroyPhase → Bool
  | .notCalled => false
  | .removed => false
  | _ => true

/-- The fence a call on `timeline->lock` is about to add. -/
def lockAdding : Option LockHolder → List ℕ
  | some (.adding id) => [id]
  | _ => []

/-- No fence is added behind the flush, other than one that a pending timeline object
will signal. -/
def AddsBeforeFlush (s : KgslTimeline) : TimelineOp → Prop
  | .addFence => ∀ id ∈ lockAdding s.lock, flushed s.destroy = true →
      ∃ seqno ∈ s.pending, (s.fence id).seqno ≤ seqno
  | _ => True

instance (s : KgslTimeline) (op : TimelineOp) : Decidable (s.AddsBeforeFlush op) :=
  if h : op = .addFence then
    decidable_of_iff (∀ id ∈ lockAdding s.lock, flushed s.destroy = true →
      ∃ seqno ∈ s.pending, (s.fence id).seqno ≤ seqno) (by rw [h]; rfl)
  else isTrue (by cases op <;> trivial)

/-- Behind the flush every listed fence that has references is about to be moved, or has a
timeline object to signal it. -/
def Covered (s : KgslTimeline) : Prop :=
  flushed s.destroy = true → ∀ id ∈ s.fences, 0 < (s.fence id).refcount →
    (s.lock = some .moving ∧ (s.fence id).seqno ≤ s.value) ∨
      ∃ seqno ∈ s.pending, (s.fence id).seqno ≤ seqno

theorem Covered.alloc (initial : ℕ) : Covered (alloc initial) := by
  intro hflushed
  cases hflushed

variable {s : KgslTimeline}

/-- What a step keeps that adds no fence, drops no timeline object and does not move fences. -/
theorem Covered.kept {s' : KgslTimeline} (h : Covered s)
    (hflushed : flushed s'.destroy = true → flushed s.destroy = true)
    (hfences : ∀ id ∈ s'.fences, id ∈ s.fences ∧ (s'.fence id).seqno = (s.fence id).seqno ∧
      (0 < (s'.fence id).refcount → 0 < (s.fence id).refcount))
    (hpending : ∀ seqno ∈ s.pending, seqno ∈ s'.pending)
    (hlock : s.lock = some .moving → s'.lock = some .moving ∧ s.value ≤ s'.value) : Covered s' := by
  intro hflush id hid hpos
  obtain ⟨hin, hseqno, href⟩ := hfences id hid
  rw [hseqno]
  rcases h (hflushed hflush) id hin (href hpos) with ⟨hmoving, hle⟩ | ⟨seqno, hmem, hle⟩
  · obtain ⟨hmoving', hvalue⟩ := hlock hmoving
    exact Or.inl ⟨hmoving', Nat.le_trans hle hvalue⟩
  · exact Or.inr ⟨seqno, hpending seqno hmem, hle⟩

theorem Covered.setFence (h : Covered s) {id : ℕ} {f : TimelineFence}
    (hseqno : f.seqno = (s.fence id).seqno) (href : 0 < f.refcount → 0 < (s.fence id).refcount) :
    Covered (s.setFence id f) := by
  refine h.kept (fun hflush => hflush) ?_ (fun _ hmem => hmem) (fun hlock => ⟨hlock, Nat.le_refl _⟩)
  intro other hother
  refine ⟨hother, ?_⟩
  by_cases heq : other = id
  · subst heq
    rw [setFence_fence_self]
    exact ⟨hseqno, href⟩
  · rw [setFence_fence_of_ne _ _ _ heq]
    exact ⟨rfl, fun hpos => hpos⟩

theorem Covered.signal (h : Covered s) (hlock : s.lock = none) (seqno : ℕ) :
    Covered (s.signal seqno) := by
  rw [KgslTimeline.signal]
  split
  case isTrue => exact h
  case isFalse =>
    refine h.kept (fun hflush => hflush) (fun id hid => ⟨hid, rfl, fun hpos => hpos⟩)
      (fun _ hmem => hmem) ?_
    intro hmoving
    rw [hlock] at hmoving
    cases hmoving

theorem Covered.retire (h : Covered s) (hinv : Inv s) (hlock : s.lock = none) (seqno : ℕ) :
    Covered ({ s with pending := s.pending.erase seqno }.signal seqno) := by
  have hwaiting : ∀ id ∈ s.fences, 0 < (s.fence id).refcount → s.value < (s.fence id).seqno := by
    intro id hin hpos
    by_contra hle
    have hmoving := (hinv.fences id).reached hin hpos (Nat.le_of_not_lt hle)
    rw [hlock] at hmoving
    cases hmoving
  have hcovered : flushed s.destroy = true → ∀ id ∈ s.fences, 0 < (s.fence id).refcount →
      (s.fence id).seqno ≤ seqno ∨
        ∃ other ∈ s.pending.erase seqno, (s.fence id).seqno ≤ other := by
    intro hflush id hin hpos
    rcases h hflush id hin hpos with ⟨hmoving, -⟩ | ⟨other, hmem, hle⟩
    · rw [hlock] at hmoving
      cases hmoving
    · by_cases heq : other = seqno
      · exact Or.inl (heq ▸ hle)
      · exact Or.inr ⟨other, (mem_erase_of_ne heq).mpr hmem, hle⟩
  rw [KgslTimeline.signal]
  split
  case isTrue hlt =>
    intro hflush id hin hpos
    have hgt := hwaiting id hin hpos
    refine Or.inr ((hcovered hflush id hin hpos).resolve_left ?_)
    intro hle
    have hlt' : seqno < s.value := hlt
    omega
  case isFalse =>
    intro hflush id hin hpos
    rcases hcovered hflush id hin hpos with hle | hother
    · exact Or.inl ⟨rfl, hle⟩
    · exact Or.inr hother

theorem Covered.moveFences (h : Covered s) : Covered s.moveFences := by
  obtain ⟨fence, heq, href, hsame⟩ := s.getAll_frame (s.fences.filter s.Moves)
  rw [KgslTimeline.moveFences, heq]
  intro hflush id hid hpos
  obtain ⟨hin, hkept⟩ := mem_filter.mp hid
  rw [Bool.not_eq_true'] at hkept
  have hnot : id ∉ s.fences.filter s.Moves := by
    intro hmoved
    rw [(mem_filter.mp hmoved).2] at hkept
    cases hkept
  change 0 < (fence id).refcount at hpos
  rw [hsame id hnot] at hpos
  show _ ∨ ∃ seqno ∈ s.pending, (fence id).seqno ≤ seqno
  rw [hsame id hnot]
  rcases h hflush id hin hpos with ⟨-, hle⟩ | hother
  · have hmoves : s.Moves id = true := by
      rw [Moves, fenceSignaled, Bool.and_eq_true, decide_eq_true_iff, decide_eq_true_iff]
      exact ⟨hle, hpos⟩
    rw [hmoves] at hkept
    cases hkept
  · exact Or.inr hother

theorem Covered.fenceAlloc (h : Covered s) (hinv : Inv s) (seqno : ℕ) :
    Covered (s.fenceAlloc seqno) := by
  refine h.kept (fun hflush => hflush) ?_ (fun _ hmem => hmem)
    (fun hlock => ⟨hlock, Nat.le_refl _⟩)
  intro id hid
  have hin : id ∈ s.fences := hid
  have hne : id ≠ s.next := by
    intro heq
    have hstage := ((hinv.fences id).tracked (Or.inl hin)).1
    rw [hinv.fresh id (Nat.le_of_eq heq.symm)] at hstage
    cases hstage
  have hsame : (s.fenceAlloc seqno).fence id = s.fence id := setFence_fence_of_ne _ _ _ hne
  rw [hsame]
  exact ⟨hin, rfl, fun hpos => hpos⟩

theorem Covered.unlocked (h : Covered s) (hlock : s.lock ≠ some .moving) (l : Option LockHolder) :
    Covered { s with lock := l } :=
  h.kept (fun hflush => hflush) (fun _ hin => ⟨hin, rfl, fun hpos => hpos⟩)
    (fun _ hmem => hmem) (fun hmoving => absurd hmoving hlock)

theorem Covered.fenceAllocLocked (h : Covered s) {id : ℕ} (hlock : s.lock = none) :
    Covered (s.fenceAllocLocked id) := by
  rw [KgslTimeline.fenceAllocLocked]
  split
  · simp only [signalLocked, setFence_fence_self, setFence_setFence]
    exact h.setFence rfl fun hpos => hpos
  · exact h.unlocked (by simp [hlock]) _

theorem Covered.addFence (h : Covered s) {id : ℕ} (hlock : s.lock = some (.adding id))
    (hok : s.AddsBeforeFlush .addFence) : Covered (s.addFence id) := by
  intro hflush other hother hpos
  refine Or.inr ?_
  show ∃ seqno ∈ s.pending, ((s.addFence id).fence other).seqno ≤ seqno
  by_cases heq : other = id
  · have hself : (s.addFence id).fence id = { s.fence id with stage := .handedOut } :=
      setFence_fence_self _ _ _
    rw [heq, hself]
    exact hok id (by rw [hlock]; exact mem_singleton_self id) hflush
  · have hsame : (s.addFence id).fence other = s.fence other := setFence_fence_of_ne _ _ _ heq
    have hin : other ∈ s.fences := (mem_insertBefore.mp hother).resolve_left heq
    rw [hsame] at hpos ⊢
    rcases h hflush other hin hpos with ⟨hmoving, -⟩ | hcovered
    · rw [hlock] at hmoving
      cases hmoving
    · exact hcovered

theorem Covered.signalTaken (h : Covered s) {id : ℕ} {error : ℤ} {l l' : LockHolder}
    (hlock : s.lock = some l) (hmoving : l ≠ .moving) :
    Covered { s.signalTaken id error with lock := some l' } := by
  have hset : Covered (s.signalTaken id error) :=
    h.setFence rfl fun hpos => Nat.lt_of_lt_of_le hpos (Nat.sub_le _ _)
  refine hset.unlocked ?_ _
  intro hmov
  have hmov' : s.lock = some .moving := hmov
  rw [hlock] at hmov'
  exact hmoving (Option.some.inj hmov')

theorem Covered.signalNext (h : Covered s) (hinv : Inv s) : Covered (s.step .signalNext) := by
  rw [KgslTimeline.step]
  split
  case h_1 hlock => exact h.unlocked (by simp [hlock]) _
  case h_2 id temp hlock =>
    rw [fencePut_signalLocked]
    exact h.signalTaken hlock (by simp)
  case h_3 hlock =>
    have hphase := hinv.destroying _ hlock
    refine h.kept ?_ (fun _ hin => ⟨hin, rfl, fun hpos => hpos⟩) (fun _ hmem => hmem) ?_
    · intro _
      rw [hphase]
      rfl
    · intro hmoving
      rw [hlock] at hmoving
      cases hmoving
  case h_4 id temp hlock =>
    rw [destroyFence_eq]
    exact h.signalTaken hlock (by simp)
  case h_5 => exact h

theorem Covered.step (h : Covered s) (hinv : Inv s) (op : TimelineOp) (hok : s.AddsBeforeFlush op) :
    Covered (s.step op) := by
  cases op with
  | byId =>
    rw [KgslTimeline.step]
    split <;> exact h
  | put => exact h
  | fenceAlloc seqno => exact ite_keeps h fun _ => h.fenceAlloc hinv seqno
  | fenceAllocLocked id => exact ite_keeps h fun hready => h.fenceAllocLocked hready.1
  | addFence =>
    rw [KgslTimeline.step]
    split
    case h_1 id hlock => exact h.addFence hlock hok
    case h_2 => exact h
  | addTimeline seqno =>
    rw [KgslTimeline.step]
    split
    · exact h.kept (fun hflush => hflush) (fun _ hin => ⟨hin, rfl, fun hpos => hpos⟩)
        (fun _ hmem => mem_cons_of_mem _ hmem) (fun hlock => ⟨hlock, Nat.le_refl _⟩)
    · exact h
  | addSignal seqno =>
    rw [KgslTimeline.step, KgslTimeline.addSignal]
    split
    · split <;> exact h
    · exact h
  | signal seqno => exact ite_keeps h fun hready => h.signal hready.1 seqno
  | retire seqno => exact ite_keeps h fun hready => h.retire hinv hready.1 seqno
  | moveFences => exact ite_keeps h fun _ => h.moveFences
  | signalNext => exact h.signalNext hinv
  | fenceGet id => exact ite_keeps h fun hheld => h.setFence rfl fun _ => Nat.zero_lt_of_lt hheld.2
  | fencePut id =>
    exact ite_keeps h fun _ => h.setFence rfl fun hpos => Nat.lt_of_lt_of_le hpos (Nat.sub_le _ _)
  | release id =>
    rw [KgslTimeline.step]
    split
    · have hset : Covered (s.setFence id { s.fence id with stage := .released }) :=
        h.setFence rfl fun hpos => hpos
      exact hset.kept (fun hflush => hflush)
        (fun _ hin => ⟨erase_subset hin, rfl, fun hpos => hpos⟩)
        (fun _ hmem => hmem) (fun hlock => ⟨hlock, Nat.le_refl _⟩)
    · exact h
  | destroyRemove =>
    rw [KgslTimeline.step]
    split
    · intro hflush
      cases hflush
    · exact h
  | destroyFlush =>
    rw [KgslTimeline.step]
    split
    · intro _ id hid
      cases hid
    · exact h
  | destroyLock =>
    rw [KgslTimeline.step]
    split
    case h_1 temp hlock hphase =>
      refine h.kept ?_ (fun _ hin => ⟨hin, rfl, fun hpos => hpos⟩) (fun _ hmem => hmem) ?_
      · intro _
        rw [hphase]
        rfl
      · intro hmoving
        rw [hlock] at hmoving
        cases hmoving
    case h_2 => exact h

/-- What a handed out fence with references is once the timeline is destroyed and
`timeline->lock` is free: signaled, with its seqno reached or with `-ENOENT`, or left to a
pending timeline object. -/
def Served (s : KgslTimeline) (id : ℕ) : Prop :=
  ((s.fence id).signals = 1 ∧
    ((s.fence id).seqno ≤ s.value ∨ (s.fence id).error = timelineENoEnt)) ∨
  ∃ seqno ∈ s.pending, (s.fence id).seqno ≤ seqno

/-- Where no fence is added behind the flush, destruction strands no waiter. -/
theorem destroy_serves_fences {initial : ℕ} {s : KgslTimeline}
    (hrun : Relation.ReflTransGen (GuardedStep AddsBeforeFlush KgslTimeline.step) (alloc initial) s)
    (hdone : s.destroy = .done) (hlock : s.lock = none) :
    ∀ id, (s.fence id).stage = .handedOut → 0 < (s.fence id).refcount → s.Served id := by
  have hstep : ∀ s op, Inv s ∧ Covered s → AddsBeforeFlush s op →
      Inv (s.step op) ∧ Covered (s.step op) :=
    fun _ op hs hok => ⟨hs.1.step op, hs.2.step hs.1 op hok⟩
  obtain ⟨hinv, hcovered⟩ :=
    invariant_of_guarded hstep ⟨Inv.alloc initial, Covered.alloc initial⟩ hrun
  intro id hstage hpos
  have hid := hinv.fences id
  have htaken : s.taken = [] := by
    rw [taken, hlock, hdone]
    rfl
  rw [htaken] at hid
  by_cases hin : id ∈ s.fences
  · rcases hcovered (by rw [hdone]; rfl) id hin hpos with ⟨hmoving, -⟩ | hpending
    · rw [hlock] at hmoving
      cases hmoving
    · exact Or.inr hpending
  · have hsignals := hid.settled hstage hpos hin (by simp)
    exact Or.inl ⟨hsignals, hid.signaled (by omega)⟩

/-- A fence is flushed, and another one is added later for which a timeline object is
pending. -/
def sampleDestroyRun : List TimelineOp :=
  [.byId, .byId, .fenceAlloc 4, .fenceAllocLocked 0, .addFence, .addTimeline 9, .fenceAlloc 6,
    .destroyRemove, .destroyFlush, .fenceAllocLocked 1, .addFence, .destroyLock, .signalNext,
    .signalNext, .put, .put]

theorem destroy_serves_fences_sample :
    let s := sampleDestroyRun.foldl step (alloc 0)
    s.Served 0 ∧ s.Served 1 := by
  have hserved := destroy_serves_fences (s := sampleDestroyRun.foldl step (alloc 0))
    (guarded_foldl (by decide +kernel)) (by decide +kernel) (by decide +kernel)
  exact ⟨hserved 0 (by decide +kernel) (by decide +kernel),
    hserved 1 (by decide +kernel) (by decide +kernel)⟩

/-- A call that found the timeline before its id was removed adds a fence behind the flush. -/
def strandedRun : List TimelineOp :=
  [.byId, .destroyRemove, .destroyFlush, .destroyLock, .signalNext, .fenceAlloc 1,
    .fenceAllocLocked 0, .addFence, .put]

/-- Its fence is never signaled, although all calls have returned. -/
theorem destroy_strands_fence :
    ¬ ∀ (initial : ℕ) (ops : List TimelineOp),
      let s := ops.foldl step (alloc initial)
      s.destroy = .done → s.lock = none → s.callers = 0 →
        ∀ id, (s.fence id).stage = .handedOut → 0 < (s.fence id).refcount → s.Served id := by
  intro hserves
  have hserved := hserves 0 strandedRun (by decide +kernel) (by decide +kernel) (by decide +kernel)
    0 (by decide +kernel) (by decide +kernel)
  have hnot : ¬ (strandedRun.foldl step (alloc 0)).Served 0 := by
    rw [Served]
    decide +kernel
  exact hnot hserved

end KgslTimeline

end QcomModules.Kgsl
