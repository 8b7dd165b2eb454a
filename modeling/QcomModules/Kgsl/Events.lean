import Mathlib
import QcomModules.Library.Runs

/-! The events of a GPU event group: 32-bit timestamps of a counter that grows without
bound, and the steps that signal them. -/

namespace QcomModules.Kgsl

open Library List

/-! ## Timestamps -/

def kgslTimestampWindow : ℕ := 0x80000000

def timestampCmp (a b : ℕ) : ℤ :=
  if a = b then 0
  else if b < a ∧ a - b < kgslTimestampWindow then 1
  else
    let a' := (a + kgslTimestampWindow) % 2 ^ 32
    let b' := (b + kgslTimestampWindow) % 2 ^ 32
    if b' < a' ∧ a' - b' ≤ kgslTimestampWindow then 1 else -1

def lowWord (t : ℤ) : ℕ := (t % 2 ^ 32).toNat

variable {t u : ℤ}

theorem lowWord_inj (h : lowWord t = lowWord u) (htu : t - u < 2 ^ 31) (hut : u - t < 2 ^ 31) :
    t = u := by
  rw [lowWord, lowWord] at h
  omega

theorem timestampCmp_pos_iff (htu : t - u < 2 ^ 31) (hut : u - t < 2 ^ 31) :
    0 < timestampCmp (lowWord t) (lowWord u) ↔ u < t := by
  rw [timestampCmp, kgslTimestampWindow, lowWord, lowWord]
  simp only
  split
  · omega
  · split
    · omega
    · split
      · omega
      · omega

theorem timestampCmp_eq_zero_iff {a b : ℕ} : timestampCmp a b = 0 ↔ a = b := by
  rw [timestampCmp]
  split
  case isTrue h => exact iff_of_true rfl h
  case isFalse h =>
    refine iff_of_false ?_ h
    simp only
    split
    · decide
    · split <;> decide

theorem timestampCmp_nonneg_iff (htu : t - u < 2 ^ 31) (hut : u - t < 2 ^ 31) :
    0 ≤ timestampCmp (lowWord t) (lowWord u) ↔ u ≤ t := by
  have hpos := timestampCmp_pos_iff htu hut
  have hzero := timestampCmp_eq_zero_iff (a := lowWord t) (b := lowWord u)
  by_cases heq : lowWord t = lowWord u
  · rw [lowWord_inj heq htu hut] at hzero ⊢
    exact iff_of_true (Int.le_of_eq (hzero.mpr rfl).symm) (Int.le_refl _)
  · have hne := mt hzero.mp heq
    have hcounter : t ≠ u := fun h => heq (h ▸ rfl)
    omega

/-! ## The group -/

inductive KgslEventResult where
  | retired
  | cancelled
deriving Repr, DecidableEq

/-- `struct kgsl_event`. The counter value `due` is known to the hardware by its timestamp
only; `id` tells apart events of equal contents. -/
structure KgslEvent where
  id : ℕ
  due : ℤ
  func : ℕ
  priv : ℕ
deriving Repr, DecidableEq

def KgslEvent.timestamp (e : KgslEvent) : ℕ := lowWord e.due

structure KgslEventGroup where
  events : List KgslEvent
  processed : ℕ
deriving Repr, DecidableEq

structure Signaled where
  event : KgslEvent
  result : KgslEventResult
deriving Repr, DecidableEq

/-- A walk over the listed events with `signal_event` on those that get a result. -/
def signalEvents (result : KgslEvent → Option KgslEventResult) :
    List KgslEvent → List KgslEvent × List Signaled
  | [] => ([], [])
  | e :: es =>
    match result e with
    | some r => ((signalEvents result es).1, ⟨e, r⟩ :: (signalEvents result es).2)
    | none => (e :: (signalEvents result es).1, (signalEvents result es).2)

def doProcessGroup (processed cur : ℕ) : Bool :=
  if processed = cur then false
  else if cur < processed ∧ processed - cur < kgslTimestampWindow then false
  else true

/-- What the walk of `_process_event_group` does with an event. -/
def processResult (timestamp : ℕ) (flush : Bool) (e : KgslEvent) : Option KgslEventResult :=
  if timestampCmp e.timestamp timestamp ≤ 0 then some .retired
  else if flush then some .cancelled
  else none

/-- The locked section of `_process_event_group`, which reads the retired `timestamp`. -/
def processEventGroup (group : KgslEventGroup) (timestamp : ℕ) (flush : Bool) :
    KgslEventGroup × List Signaled :=
  if !flush && !doProcessGroup group.processed timestamp then (group, [])
  else
    let walk := signalEvents (processResult timestamp flush) group.events
    ({ events := walk.1, processed := timestamp }, walk.2)

def kgslProcessEventGroup (group : KgslEventGroup) (timestamp : ℕ) :
    KgslEventGroup × List Signaled :=
  processEventGroup group timestamp false

def kgslFlushEventGroup (group : KgslEventGroup) (timestamp : ℕ) :
    KgslEventGroup × List Signaled :=
  processEventGroup group timestamp true

def kgslCancelEventsTimestamp (group : KgslEventGroup) (timestamp : ℕ) :
    KgslEventGroup × List Signaled :=
  let walk := signalEvents
    (fun e => if timestampCmp timestamp e.timestamp = 0 then some .cancelled else none)
    group.events
  ({ group with events := walk.1 }, walk.2)

def kgslCancelEvents (group : KgslEventGroup) : KgslEventGroup × List Signaled :=
  let walk := signalEvents (fun _ => some .cancelled) group.events
  ({ group with events := walk.1 }, walk.2)

/-- The walk of `kgsl_cancel_event`, which ends at the first event it signals. -/
def cancelFirst (timestamp func priv : ℕ) : List KgslEvent → List KgslEvent × List Signaled
  | [] => ([], [])
  | e :: es =>
    if timestamp = e.timestamp ∧ func = e.func ∧ e.priv = priv then (es, [⟨e, .cancelled⟩])
    else
      (e :: (cancelFirst timestamp func priv es).1, (cancelFirst timestamp func priv es).2)

def kgslCancelEvent (group : KgslEventGroup) (timestamp func priv : ℕ) :
    KgslEventGroup × List Signaled :=
  let walk := cancelFirst timestamp func priv group.events
  ({ group with events := walk.1 }, walk.2)

def eInval : ℤ := -22

def eNoMem : ℤ := -12

def eNoEnt : ℤ := -2

/-- What `kgsl_add_event` finds before it takes the group lock: whether the timestamps of
the context are checked against a queued one, whether there is memory for the event, and
whether the context can be referenced. -/
structure AddChecks where
  queued : Option ℕ
  alloc : Bool
  contextGet : Bool
deriving Repr, DecidableEq

/-- `kgsl_add_event`; a `func` of zero is no callback. -/
def kgslAddEvent (group : KgslEventGroup) (checks : AddChecks) (e : KgslEvent) (retired : ℕ) :
    KgslEventGroup × List Signaled × ℤ :=
  if e.func = 0 then (group, [], eInval)
  else if checks.queued.any fun queued => 0 < timestampCmp e.timestamp queued then
    (group, [], eInval)
  else if !checks.alloc then (group, [], eNoMem)
  else if !checks.contextGet then (group, [], eNoEnt)
  else if 0 ≤ timestampCmp retired e.timestamp then (group, [⟨e, .retired⟩], 0)
  else ({ group with events := group.events ++ [e] }, [], 0)

/-! ## Walks -/

theorem signalEvents_perm (result : KgslEvent → Option KgslEventResult) (es : List KgslEvent) :
    es.Perm ((signalEvents result es).1 ++ (signalEvents result es).2.map Signaled.event) := by
  induction es with
  | nil => exact Perm.refl _
  | cons e es ih =>
    rw [signalEvents]
    split
    · exact (ih.cons e).trans perm_middle.symm
    · exact ih.cons e

variable {result : KgslEvent → Option KgslEventResult} {es : List KgslEvent} {f : Signaled}

theorem mem_signalEvents_fst {e : KgslEvent} (h : e ∈ (signalEvents result es).1) :
    result e = none := by
  induction es with
  | nil => cases h
  | cons e' es ih =>
    rw [signalEvents] at h
    split at h
    · exact ih h
    · rename_i hnone
      rcases mem_cons.mp h with heq | hrest
      · rwa [heq]
      · exact ih hrest

theorem mem_signalEvents_snd (h : f ∈ (signalEvents result es).2) :
    result f.event = some f.result := by
  induction es with
  | nil => cases h
  | cons e es ih =>
    rw [signalEvents] at h
    split at h
    · rename_i r hsome
      rcases mem_cons.mp h with heq | hrest
      · rw [heq]
        exact hsome
      · exact ih hrest
    · exact ih h

theorem cancelFirst_perm (timestamp func priv : ℕ) (es : List KgslEvent) :
    es.Perm ((cancelFirst timestamp func priv es).1 ++
      (cancelFirst timestamp func priv es).2.map Signaled.event) := by
  induction es with
  | nil => exact Perm.refl _
  | cons e es ih =>
    rw [cancelFirst]
    split
    · exact (perm_append_singleton e es).symm
    · exact ih.cons e

theorem cancelFirst_cancelled {timestamp func priv : ℕ}
    (h : f ∈ (cancelFirst timestamp func priv es).2) : f.result = .cancelled := by
  induction es with
  | nil => cases h
  | cons e es ih =>
    rw [cancelFirst] at h
    split at h
    · rw [mem_singleton.mp h]
    · exact ih h

theorem doProcessGroup_iff {processed retired : ℤ} (hle : processed ≤ retired)
    (hlt : retired - processed < 2 ^ 31) :
    doProcessGroup (lowWord processed) (lowWord retired) = true ↔ processed ≠ retired := by
  rw [doProcessGroup, kgslTimestampWindow]
  split
  case isTrue h => exact iff_of_false (by decide) (fun hne => hne (lowWord_inj h (by omega) hlt))
  case isFalse h =>
    have hne : processed ≠ retired := fun heq => h (heq ▸ rfl)
    rw [lowWord, lowWord]
    split
    · omega
    · exact iff_of_true rfl hne

/-! ## The system -/

/-- A signaled event with the retired counter read in that step. -/
structure Fired where
  event : KgslEvent
  result : KgslEventResult
  retired : ℤ
deriving Repr, DecidableEq

/-- The group, the retired counter of the GPU and its value in the last processing step,
with journals of the events accepted and of those handed to the worker. -/
structure EventSystem where
  group : KgslEventGroup
  retired : ℤ
  lastProcessed : ℤ
  accepted : List KgslEvent
  queued : List Fired
deriving Repr, DecidableEq

inductive EventOp where
  | add (checks : AddChecks) (due : ℤ) (func priv : ℕ)
  | process
  | flush
  | cancelTimestamp (timestamp : ℕ)
  | cancelAll
  | cancelOne (timestamp func priv : ℕ)
  | advance (n : ℕ)
deriving Repr, DecidableEq

namespace EventSystem

def start (retired : ℤ) : EventSystem where
  group := { events := [], processed := lowWord retired }
  retired := retired
  lastProcessed := retired
  accepted := []
  queued := []

def record (s : EventSystem) (r : KgslEventGroup × List Signaled) : EventSystem :=
  { s with
    group := r.1
    queued := s.queued ++ r.2.map fun f => ⟨f.event, f.result, s.retired⟩ }

def newEvent (s : EventSystem) (due : ℤ) (func priv : ℕ) : KgslEvent :=
  ⟨s.accepted.length, due, func, priv⟩

def addEvent (s : EventSystem) (checks : AddChecks) (e : KgslEvent) :
    KgslEventGroup × List Signaled × ℤ :=
  kgslAddEvent s.group checks e (lowWord s.retired)

def step (s : EventSystem) : EventOp → EventSystem
  | .add checks due func priv =>
    let e := s.newEvent due func priv
    let r := s.addEvent checks e
    let s' := s.record (r.1, r.2.1)
    if r.2.2 = 0 then { s' with accepted := s.accepted ++ [e] } else s'
  | .process =>
    { s.record (kgslProcessEventGroup s.group (lowWord s.retired)) with
      lastProcessed := s.retired }
  | .flush =>
    { s.record (kgslFlushEventGroup s.group (lowWord s.retired)) with
      lastProcessed := s.retired }
  | .cancelTimestamp timestamp => s.record (kgslCancelEventsTimestamp s.group timestamp)
  | .cancelAll => s.record (kgslCancelEvents s.group)
  | .cancelOne timestamp func priv => s.record (kgslCancelEvent s.group timestamp func priv)
  | .advance n => { s with retired := s.retired + n }

/-- Accepted timestamps are within half the 32-bit range of the retired one, which advances
by less than that between two processing steps. -/
def Ok (s : EventSystem) : EventOp → Prop
  | .add checks due func priv =>
    (s.addEvent checks (s.newEvent due func priv)).2.2 = 0 →
      due - s.retired < 2 ^ 31 ∧ s.retired - due < 2 ^ 31
  | .advance n => s.retired + n - s.lastProcessed < 2 ^ 31
  | _ => True

/-- Every accepted event is listed or handed over, once; listed events are due after the
last processing step and less than half the 32-bit range ahead. -/
structure Inv (s : EventSystem) : Prop where
  processed : s.group.processed = lowWord s.lastProcessed
  le : s.lastProcessed ≤ s.retired
  advance_lt : s.retired - s.lastProcessed < 2 ^ 31
  listed : ∀ e ∈ s.group.events, s.lastProcessed < e.due ∧ e.due - s.retired < 2 ^ 31
  balance : s.accepted.Perm (s.group.events ++ s.queued.map Fired.event)
  ids : ∀ e ∈ s.accepted, e.id < s.accepted.length
  nodup : s.accepted.Nodup
  fired : ∀ f ∈ s.queued, f.result = .retired → f.event.due ≤ f.retired

theorem Inv.start (retired : ℤ) : Inv (start retired) where
  processed := rfl
  le := Int.le_refl _
  advance_lt := by
    have hdiff : retired - retired < 2 ^ 31 := by omega
    exact hdiff
  listed := by
    intro e he
    cases he
  balance := Perm.refl _
  ids := by
    intro e he
    cases he
  nodup := nodup_nil
  fired := by
    intro f hf
    cases hf

/-- What a walk that signals listed events leaves. -/
structure Signals (s : EventSystem) (r : KgslEventGroup × List Signaled) : Prop where
  perm : s.group.events.Perm (r.1.events ++ r.2.map Signaled.event)
  due_le : ∀ f ∈ r.2, f.result = .retired → f.event.due ≤ s.retired

variable {s : EventSystem} {r : KgslEventGroup × List Signaled} {e : KgslEvent}

theorem Signals.balance (h : s.Signals r)
    (hs : s.accepted.Perm (s.group.events ++ s.queued.map Fired.event)) :
    s.accepted.Perm ((s.record r).group.events ++ (s.record r).queued.map Fired.event) := by
  have hevents : (r.2.map fun f => (⟨f.event, f.result, s.retired⟩ : Fired)).map Fired.event =
      r.2.map Signaled.event := by
    rw [map_map]
    rfl
  refine hs.trans ?_
  rw [record, map_append, hevents]
  refine (h.perm.append_right _).trans ?_
  rw [append_assoc]
  exact (perm_append_comm).append_left _

theorem Signals.fired (h : s.Signals r)
    (hs : ∀ f ∈ s.queued, f.result = .retired → f.event.due ≤ f.retired) :
    ∀ f ∈ (s.record r).queued, f.result = .retired → f.event.due ≤ f.retired := by
  intro f hf hresult
  rcases mem_append.mp hf with hold | hnew
  · exact hs f hold hresult
  · obtain ⟨g, hg, heq⟩ := mem_map.mp hnew
    subst heq
    exact h.due_le g hg hresult

theorem Inv.cancel {s : EventSystem} {r : KgslEventGroup × List Signaled} (h : Inv s)
    (hr : s.Signals r) (hprocessed : r.1.processed = s.group.processed) : Inv (s.record r) where
  processed := hprocessed.trans h.processed
  le := h.le
  advance_lt := h.advance_lt
  listed := by
    intro e he
    exact h.listed e (hr.perm.mem_iff.mpr (mem_append_left _ he))
  balance := hr.balance h.balance
  ids := h.ids
  nodup := h.nodup
  fired := hr.fired h.fired

theorem signals_cancelTimestamp (s : EventSystem) (timestamp : ℕ) :
    s.Signals (kgslCancelEventsTimestamp s.group timestamp) where
  perm := signalEvents_perm _ _
  due_le := by
    intro f hf hresult
    have hsome := mem_signalEvents_snd hf
    rw [hresult] at hsome
    split at hsome <;> cases hsome

theorem signals_cancelAll (s : EventSystem) : s.Signals (kgslCancelEvents s.group) where
  perm := signalEvents_perm _ _
  due_le := by
    intro f hf hresult
    have hsome := mem_signalEvents_snd hf
    rw [hresult] at hsome
    cases hsome

theorem signals_cancelOne (s : EventSystem) (timestamp func priv : ℕ) :
    s.Signals (kgslCancelEvent s.group timestamp func priv) where
  perm := cancelFirst_perm _ _ _ _
  due_le := by
    intro f hf hresult
    rw [cancelFirst_cancelled hf] at hresult
    cases hresult

theorem Inv.processResult_iff (h : Inv s) (he : e ∈ s.group.events) :
    timestampCmp e.timestamp (lowWord s.retired) ≤ 0 ↔ e.due ≤ s.retired := by
  obtain ⟨hlow, hhigh⟩ := h.listed e he
  have hlt := h.advance_lt
  have hcmp := timestampCmp_pos_iff (t := e.due) (u := s.retired) hhigh (by omega)
  rw [KgslEvent.timestamp]
  omega

theorem Inv.processEventGroup (h : Inv s) (flush : Bool) :
    let r := processEventGroup s.group (lowWord s.retired) flush
    s.Signals r ∧ r.1.processed = lowWord s.retired ∧
      (∀ e ∈ r.1.events, s.retired < e.due) ∧ (flush = true → r.1.events = []) := by
  intro r
  by_cases hskip : (!flush && !doProcessGroup s.group.processed (lowWord s.retired)) = true
  · have hr : r = (s.group, []) := if_pos hskip
    rw [Bool.and_eq_true, Bool.not_eq_true', Bool.not_eq_true', h.processed] at hskip
    have hsame : s.lastProcessed = s.retired := by
      by_contra hne
      have hdo := (doProcessGroup_iff h.le h.advance_lt).mpr hne
      rw [hskip.2] at hdo
      cases hdo
    rw [hr]
    refine ⟨⟨by simp, fun f hf => by cases hf⟩, ?_, ?_, ?_⟩
    · rw [h.processed, hsame]
    · intro e he
      rw [← hsame]
      exact (h.listed e he).1
    · intro hflush
      rw [hskip.1] at hflush
      cases hflush
  · have hr : r = _ := if_neg hskip
    rw [hr]
    refine ⟨⟨signalEvents_perm _ _, ?_⟩, rfl, ?_, ?_⟩
    · intro f hf hresult
      have hsome := mem_signalEvents_snd hf
      have hlisted : f.event ∈ s.group.events :=
        (signalEvents_perm _ _).mem_iff.mpr
          (mem_append_right _ (mem_map_of_mem hf))
      rw [processResult, hresult] at hsome
      split at hsome
      case isTrue hcmp => exact (h.processResult_iff hlisted).mp hcmp
      case isFalse =>
        split at hsome <;> cases hsome
    · intro e he
      have hnone := mem_signalEvents_fst he
      have hlisted : e ∈ s.group.events :=
        (signalEvents_perm _ _).mem_iff.mpr (mem_append_left _ he)
      rw [processResult] at hnone
      split at hnone
      case isTrue => cases hnone
      case isFalse hcmp =>
        by_contra hle
        exact hcmp ((h.processResult_iff hlisted).mpr (by omega))
    · intro hflush
      rw [eq_nil_iff_forall_not_mem]
      intro e he
      have hnone := mem_signalEvents_fst he
      rw [processResult, hflush] at hnone
      split at hnone <;> cases hnone

theorem Inv.process (h : Inv s) (flush : Bool) :
    Inv { s.record (Kgsl.processEventGroup s.group (lowWord s.retired) flush) with
      lastProcessed := s.retired } := by
  obtain ⟨hr, hprocessed, hdue, -⟩ := h.processEventGroup flush
  exact
    { h with
      processed := hprocessed
      le := Int.le_refl _
      advance_lt := by
        have hdiff : s.retired - s.retired < 2 ^ 31 := by omega
        exact hdiff
      listed := by
        intro e he
        have hlisted := hr.perm.mem_iff.mpr (mem_append_left _ he)
        exact ⟨hdue e he, (h.listed e hlisted).2⟩
      balance := hr.balance h.balance
      fired := hr.fired h.fired }

theorem kgslAddEvent_cases {group : KgslEventGroup} {checks : AddChecks} {retired : ℕ}
    {r : KgslEventGroup × List Signaled × ℤ} (hadd : kgslAddEvent group checks e retired = r) :
    (r.2.2 ≠ 0 ∧ r.1 = group ∧ r.2.1 = []) ∨
    (r = (group, [⟨e, .retired⟩], 0) ∧ 0 ≤ timestampCmp retired e.timestamp) ∨
    (r = ({ group with events := group.events ++ [e] }, [], 0) ∧
      timestampCmp retired e.timestamp < 0) := by
  rw [kgslAddEvent] at hadd
  split at hadd
  · subst hadd
    exact Or.inl ⟨show eInval ≠ 0 by decide, rfl, rfl⟩
  · split at hadd
    · subst hadd
      exact Or.inl ⟨show eInval ≠ 0 by decide, rfl, rfl⟩
    · split at hadd
      · subst hadd
        exact Or.inl ⟨show eNoMem ≠ 0 by decide, rfl, rfl⟩
      · split at hadd
        · subst hadd
          exact Or.inl ⟨show eNoEnt ≠ 0 by decide, rfl, rfl⟩
        · split at hadd
          case isTrue hcmp => exact Or.inr (Or.inl ⟨hadd.symm, hcmp⟩)
          case isFalse hcmp => exact Or.inr (Or.inr ⟨hadd.symm, by omega⟩)

theorem Inv.accept (h : Inv s) (due : ℤ) (func priv : ℕ) :
    (s.accepted ++ [s.newEvent due func priv]).Nodup ∧
      ∀ e ∈ s.accepted ++ [s.newEvent due func priv],
        e.id < (s.accepted ++ [s.newEvent due func priv]).length := by
  rw [length_append, length_singleton]
  constructor
  · rw [nodup_append]
    refine ⟨h.nodup, pairwise_singleton _ _, ?_⟩
    intro e he e' he' heq
    have hid := h.ids e he
    rw [heq, mem_singleton.mp he', newEvent] at hid
    exact absurd hid (Nat.lt_irrefl _)
  · intro e he
    rcases mem_append.mp he with hold | hnew
    · exact Nat.lt_succ_of_lt (h.ids e hold)
    · rw [mem_singleton.mp hnew]
      exact Nat.lt_succ_self _

theorem Inv.add (h : Inv s) (checks : AddChecks) (due : ℤ) (func priv : ℕ)
    (hok : s.Ok (.add checks due func priv)) : Inv (s.step (.add checks due func priv)) := by
  obtain ⟨hnodup, hids⟩ := h.accept due func priv
  rw [step]
  rcases kgslAddEvent_cases (show s.addEvent checks (s.newEvent due func priv) = _ from rfl) with
    ⟨hrc, hgroup, hnone⟩ | ⟨heq, hcmp⟩ | ⟨heq, hcmp⟩
  · rw [if_neg hrc, hgroup, hnone]
    refine h.cancel (r := (s.group, [])) ⟨by simp, ?_⟩ rfl
    intro f hf
    cases hf
  · obtain ⟨hdue, hback⟩ := hok (by rw [heq])
    rw [heq, if_pos rfl]
    have hreached : due ≤ s.retired := (timestampCmp_nonneg_iff hback hdue).mp hcmp
    exact
      { h with
        balance := by
          simp only [record, map_append, map_cons, map_nil]
          rw [← append_assoc]
          exact h.balance.append_right _
        ids := hids
        nodup := hnodup
        fired := by
          intro f hf hresult
          rcases mem_append.mp hf with hold | hnew
          · exact h.fired f hold hresult
          · rw [map_cons, map_nil, mem_singleton] at hnew
            rw [hnew]
            exact hreached }
  · obtain ⟨hdue, hback⟩ := hok (by rw [heq])
    rw [heq, if_pos rfl]
    have hahead : s.retired < due := by
      by_contra hle
      have hge := (timestampCmp_nonneg_iff hback hdue).mpr (by omega)
      exact absurd hcmp (Int.not_lt.mpr hge)
    exact
      { h with
        listed := by
          intro e he
          rcases mem_append.mp he with hold | hnew
          · exact h.listed e hold
          · rw [mem_singleton.mp hnew]
            exact ⟨Int.lt_of_le_of_lt h.le hahead, hdue⟩
        balance := by
          simp only [record, map_nil, append_nil]
          refine (h.balance.append_right _).trans ?_
          rw [append_assoc, append_assoc]
          exact (perm_append_comm).append_left _
        ids := hids
        nodup := hnodup
        fired := by
          simp only [record, map_nil, append_nil]
          exact h.fired }

theorem Inv.advance (h : Inv s) (n : ℕ) (hok : s.Ok (.advance n)) :
    Inv (s.step (.advance n)) where
  processed := h.processed
  le := by
    have hle := h.le
    show s.lastProcessed ≤ s.retired + n
    omega
  advance_lt := hok
  listed := by
    intro e he
    obtain ⟨hlow, hhigh⟩ := h.listed e he
    refine ⟨hlow, ?_⟩
    show e.due - (s.retired + n) < 2 ^ 31
    omega
  balance := h.balance
  ids := h.ids
  nodup := h.nodup
  fired := h.fired

theorem Inv.step (h : Inv s) (op : EventOp) (hok : s.Ok op) : Inv (s.step op) := by
  cases op with
  | add checks due func priv => exact h.add checks due func priv hok
  | process => exact h.process false
  | flush => exact h.process true
  | cancelTimestamp timestamp => exact h.cancel (s.signals_cancelTimestamp timestamp) rfl
  | cancelAll => exact h.cancel s.signals_cancelAll rfl
  | cancelOne timestamp func priv => exact h.cancel (s.signals_cancelOne timestamp func priv) rfl
  | advance n => exact h.advance n hok

instance (s : EventSystem) (op : EventOp) : Decidable (s.Ok op) :=
  match op with
  | .add .. => inferInstanceAs (Decidable (_ → _))
  | .advance _ => inferInstanceAs (Decidable (_ < _))
  | .process => inferInstanceAs (Decidable True)
  | .flush => inferInstanceAs (Decidable True)
  | .cancelTimestamp _ => inferInstanceAs (Decidable True)
  | .cancelAll => inferInstanceAs (Decidable True)
  | .cancelOne .. => inferInstanceAs (Decidable True)

/-- In every run every accepted event is either listed or handed to the worker exactly once,
handed over as retired only when its counter was reached; a processing step leaves listed
only events due later than the retired counter, and hands over every accepted event that
is not; a flush leaves none listed. -/
theorem events_fire_once {retired : ℤ} {s : EventSystem}
    (hrun : Relation.ReflTransGen (GuardedStep Ok EventSystem.step) (start retired) s) :
    s.accepted.Nodup ∧
    s.accepted.Perm (s.group.events ++ s.queued.map Fired.event) ∧
    (∀ f ∈ s.queued, f.result = .retired → f.event.due ≤ f.retired) ∧
    (∀ e ∈ (s.step .process).group.events, s.retired < e.due) ∧
    (∀ e ∈ s.accepted, e.due ≤ s.retired →
      e ∈ (s.step .process).queued.map Fired.event) ∧
    (s.step .flush).group.events = [] ∧ (s.step .cancelAll).group.events = [] := by
  have h : Inv s :=
    invariant_of_guarded (fun _ op hs hok => hs.step op hok) (Inv.start retired) hrun
  have hdue := (h.processEventGroup false).2.2.1
  refine ⟨h.nodup, h.balance, h.fired, hdue, ?_, (h.processEventGroup true).2.2.2 rfl, ?_⟩
  · intro e he hreached
    have hnext := (h.process false).balance.mem_iff.mp he
    rcases mem_append.mp hnext with hlisted | hqueued
    · exact absurd (hdue e hlisted) (by omega)
    · exact hqueued
  · rw [eq_nil_iff_forall_not_mem]
    intro e he
    cases mem_signalEvents_fst he

def sampleRun : List EventOp :=
  [.add ⟨none, true, true⟩ (2 ^ 32 - 1) 1 0, .add ⟨none, true, true⟩ (2 ^ 32 + 3) 1 0,
    .advance 4, .process, .advance 1, .process]

theorem events_fire_once_sample :
    (sampleRun.foldl EventSystem.step (start (2 ^ 32 - 2))).accepted.Perm
      ((sampleRun.foldl EventSystem.step (start (2 ^ 32 - 2))).group.events ++
        (sampleRun.foldl EventSystem.step (start (2 ^ 32 - 2))).queued.map Fired.event) :=
  (events_fire_once (guarded_foldl (by decide +kernel))).2.1

end EventSystem

end QcomModules.Kgsl
