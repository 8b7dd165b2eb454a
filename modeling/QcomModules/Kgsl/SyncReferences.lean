import Mathlib.Algebra.BigOperators.Group.Finset.Basic
import Mathlib.Data.Fintype.Sum
import QcomModules.Kgsl.SyncObject

/-! The references of a sync object's sync points: at each moment every reference that is still
to be dropped has one owner. -/

namespace QcomModules.Kgsl

open Library List

/-! ## Places -/

instance : Fintype SyncpointType where
  elems := {.timestamp, .fence, .timeline}
  complete type := by cases type <;> decide

instance : Fintype SyncCallback where
  elems := {.idle, .listed, .queued, .expire, .check, .sched, .won, .lost, .work, .putObj,
    .removed, .done}
  complete cb := by cases cb <;> decide

instance : Fintype SyncAdder where
  elems := {.idle, .setBit, .register, .added, .clearBit, .putFence, .putCreated, .putObj,
    .putContext}
  complete adder := by cases adder <;> decide

instance : Fintype SyncCancel where
  elems := {.cancelEvent, .putContext, .cancelFence, .removeCallback, .putFence, .putObj}
  complete cancel := by cases cancel <;> decide

/-- What the bit, the callback, and the function that adds sync points or the destroy have come
to at one sync point. Nobody is there where the visitor is an idle adder. -/
structure SyncPlace where
  type : SyncpointType
  pending : Bool
  cb : SyncCallback
  visitor : SyncAdder ⊕ SyncCancel
deriving Repr, DecidableEq

def SyncEvent.place (e : SyncEvent) (visitor : SyncAdder ⊕ SyncCancel) : SyncPlace :=
  ⟨e.type, e.pending, e.cb, visitor⟩

def SyncCallback.isIdle : SyncCallback → Bool
  | .idle => true
  | _ => false

/-- The callback cleared the bit and has not dropped a reference since. -/
def SyncCallback.expiring : SyncCallback → Bool
  | .check | .sched | .won => true
  | _ => false

/-- The places a type of sync point has. -/
def SyncCallback.fits : SyncCallback → SyncpointType → Bool
  | .queued, .fence | .queued, .timeline => false
  | .work, .timestamp | .work, .fence => false
  | .removed, .timestamp => false
  | _, _ => true

/-- A callback that comes to the bit, or has come too late, before it can be cancelled. -/
def SyncCallback.waits : SyncCallback → SyncpointType → Bool
  | .listed, _ => true
  | .expire, .fence | .expire, .timeline | .lost, .fence | .lost, .timeline => true
  | _, _ => false

namespace SyncPlace

/-- The callback has a place of its type, and the bit is not left to nobody. -/
def isOpen (q : SyncPlace) : Bool := q.cb.fits q.type && !(q.pending && q.cb.isIdle)

/-- How the places at a sync point fit together. -/
def shaped (q : SyncPlace) : Bool :=
  match q.visitor, q.type with
  | .inl .setBit, _ | .inl .putObj, _ => !q.pending && q.cb.isIdle
  | .inl .register, _ | .inl .clearBit, _ => q.pending && q.cb.isIdle
  | .inl .putFence, .timeline | .inl .putCreated, .timeline => !q.pending && q.cb.isIdle
  | .inl .putContext, .timestamp => !q.pending && q.cb.isIdle
  | .inl .idle, _ | .inl .added, .timeline => q.isOpen && (q.pending || !q.cb.waits q.type)
  | .inr .cancelEvent, .timestamp | .inr .cancelFence, .fence
  | .inr .removeCallback, .timeline => q.isOpen && !q.pending
  | .inr .putContext, .timestamp | .inr .putFence, .timeline | .inr .putObj, .fence
  | .inr .putObj, .timeline => q.isOpen && !q.pending && !q.cb.waits q.type
  | _, _ => false

/-! ## Owners -/

/-- How many references to a timestamp's context have an owner: the bit, for whoever clears it,
the callback that cleared it, or the visitor. -/
def contextOwed (q : SyncPlace) : ℕ :=
  match q.type with
  | .timestamp =>
    q.pending.toNat + q.cb.expiring.toNat +
      match q.visitor with
      | .inl .setBit | .inl .putObj | .inl .putContext => 1
      | .inr .cancelEvent | .inr .putContext => 1
      | _ => 0
  | .fence | .timeline => 0

/-- The same for the reference to a timeline's fence that is handed over to the callback. -/
def fenceOwed (q : SyncPlace) : ℕ :=
  match q.type with
  | .timeline =>
    (q.pending && !q.cb.isIdle).toNat + (q.cb.expiring || q.cb matches .work).toNat +
      match q.visitor with
      | .inl .clearBit | .inl .putFence => 1
      | .inr .removeCallback | .inr .putFence => 1
      | _ => 0
  | .timestamp | .fence => 0

/-- The same for the reference from the creation of the fence. -/
def createdOwed (q : SyncPlace) : ℕ :=
  match q.type, q.visitor with
  | .timeline, .inl .idle | .timeline, .inl .putObj | .timeline, .inl .putContext => 0
  | .timeline, .inl _ => 1
  | _, _ => 0

/-- The same for the object. The callback of a timestamp drops it whoever clears the bit. -/
def objOwed (q : SyncPlace) : ℕ :=
  (match q.type, q.cb with
  | .timestamp, .idle => q.pending.toNat
  | .timestamp, .work | .timestamp, .removed | .timestamp, .done => 0
  | .timestamp, _ => 1
  | _, .check | _, .sched | _, .won | _, .work | _, .putObj => q.pending.toNat + 1
  | _, _ => q.pending.toNat) +
    match q.visitor with
    | .inl .setBit | .inl .putFence | .inl .putCreated | .inl .putObj => 1
    | .inr .cancelFence | .inr .removeCallback | .inr .putFence | .inr .putObj => 1
    | _ => 0

def fenceTaken (q : SyncPlace) : ℕ :=
  match q.type, q.visitor with
  | .timeline, .inl .setBit | .timeline, .inl .register => 0
  | .timeline, _ => 1
  | _, _ => 0

end SyncPlace

/-- The references of a sync point. -/
inductive RefKind where
  | context
  | fence
  | created
  | obj
deriving Repr, DecidableEq

def SyncEvent.log (e : SyncEvent) : RefKind → RefLog
  | .context => e.context
  | .fence => e.fence
  | .created => e.created
  | .obj => e.obj

def SyncPlace.owed (q : SyncPlace) : RefKind → ℕ
  | .context => q.contextOwed
  | .fence => q.fenceOwed
  | .created => q.createdOwed
  | .obj => q.objOwed

def SyncPlace.taken (q : SyncPlace) : RefKind → ℕ
  | .context => if q.type = .timestamp then 1 else 0
  | .fence => q.fenceTaken
  | .created => if q.type = .timeline then 1 else 0
  | .obj => 1

def RefKind.count (k : RefKind) (step : Option RefKind) : ℕ := if step = some k then 1 else 0

instance (P : RefKind → Prop) [DecidablePred P] : Decidable (∀ k, P k) :=
  decidable_of_iff (P .context ∧ P .fence ∧ P .created ∧ P .obj)
    ⟨fun ⟨hcontext, hfence, hcreated, hobj⟩ k => by cases k <;> assumption,
      fun h => ⟨h .context, h .fence, h .created, h .obj⟩⟩

/-- A step at a sync point, with the reference it takes and the one it drops. -/
structure SyncMove where
  next : SyncPlace
  take : Option RefKind
  drop : Option RefKind

/-- The step leaves the places in shape, and what it takes and drops changes owners. -/
def SyncMove.Sound (m : SyncMove) (q : SyncPlace) : Prop :=
  m.next.shaped = true ∧ ∀ k : RefKind,
    m.next.owed k + k.count m.drop = q.owed k + k.count m.take ∧
      m.next.taken k = q.taken k + k.count m.take

instance (m : SyncMove) (q : SyncPlace) : Decidable (m.Sound q) := by
  unfold SyncMove.Sound
  infer_instance

namespace SyncPlace

/-! ## Steps -/

/-- `KgslSyncobj.signal` at its sync point. -/
def signalMove (q : SyncPlace) : SyncMove :=
  match q.cb, q.type with
  | .listed, .timestamp => ⟨{ q with cb := .queued }, none, none⟩
  | .listed, _ => ⟨{ q with cb := .expire }, none, none⟩
  | _, _ => ⟨q, none, none⟩

/-- `KgslSyncobj.callbackStep` at its sync point. -/
def callbackMove (q : SyncPlace) (eventsPending : Bool) : SyncMove :=
  match q.cb, q.type with
  | .queued, _ => ⟨{ q with cb := .expire }, none, none⟩
  | .expire, _ =>
    match q.pending with
    | true => ⟨{ q with pending := false, cb := .check }, none, none⟩
    | false => ⟨{ q with cb := .lost }, none, none⟩
  | .check, _ => ⟨{ q with cb := if eventsPending then .won else .sched }, none, none⟩
  | .sched, _ => ⟨{ q with cb := .won }, none, none⟩
  | .won, .timestamp => ⟨{ q with cb := .putObj }, none, some .context⟩
  | .won, .fence => ⟨{ q with cb := .done }, none, some .obj⟩
  | .won, .timeline => ⟨{ q with cb := .work }, none, none⟩
  | .lost, .timestamp => ⟨{ q with cb := .putObj }, none, none⟩
  | .lost, _ => ⟨{ q with cb := .done }, none, none⟩
  | .work, _ => ⟨{ q with cb := .putObj }, none, some .fence⟩
  | .putObj, _ => ⟨{ q with cb := .done }, none, some .obj⟩
  | _, _ => ⟨q, none, none⟩

/-- `KgslSyncobj.addStep` at its sync point. -/
def addMove (q : SyncPlace) (result : KgslSyncobj.Registration) : SyncMove :=
  match q.visitor, q.type, result with
  | .inl .setBit, _, _ => ⟨{ q with pending := true, visitor := .inl .register }, none, none⟩
  | .inl .register, .timeline, .listed =>
    ⟨{ q with cb := .listed, visitor := .inl .added }, some .fence, none⟩
  | .inl .register, .timeline, _ => ⟨{ q with visitor := .inl .clearBit }, some .fence, none⟩
  | .inl .register, _, .listed => ⟨{ q with cb := .listed, visitor := .inl .idle }, none, none⟩
  | .inl .register, .timestamp, .signaled =>
    ⟨{ q with cb := .queued, visitor := .inl .idle }, none, none⟩
  | .inl .register, _, _ => ⟨{ q with visitor := .inl .clearBit }, none, none⟩
  | .inl .added, _, _ => ⟨{ q with visitor := .inl .idle }, none, some .created⟩
  | .inl .clearBit, .timeline, _ =>
    ⟨{ q with pending := false, visitor := .inl .putFence }, none, none⟩
  | .inl .clearBit, _, _ => ⟨{ q with pending := false, visitor := .inl .putObj }, none, none⟩
  | .inl .putFence, _, _ => ⟨{ q with visitor := .inl .putCreated }, none, some .fence⟩
  | .inl .putCreated, _, _ => ⟨{ q with visitor := .inl .putObj }, none, some .created⟩
  | .inl .putObj, .timestamp, _ => ⟨{ q with visitor := .inl .putContext }, none, some .obj⟩
  | .inl .putObj, _, _ => ⟨{ q with visitor := .inl .idle }, none, some .obj⟩
  | .inl .putContext, _, _ => ⟨{ q with visitor := .inl .idle }, none, some .context⟩
  | _, _, _ => ⟨q, none, none⟩

/-- A callback that is still listed is taken off its list. -/
def takenOff (cb next : SyncCallback) : SyncCallback := if cb = .listed then next else cb

/-- The steps of `KgslSyncobj.destroyStep` at a sync point whose bit is set or was cleared by
them, if no lock is waited for. -/
def cancelMove (q : SyncPlace) : SyncMove :=
  match q.visitor with
  | .inl _ =>
    ⟨{ q with pending := false, visitor := .inr (KgslSyncobj.cancelOf q.type) }, none, none⟩
  | .inr .cancelEvent =>
    ⟨{ q with cb := takenOff q.cb .queued, visitor := .inr .putContext }, none, none⟩
  | .inr .putContext => ⟨{ q with visitor := .inl .idle }, none, some .context⟩
  | .inr .cancelFence =>
    ⟨{ q with cb := takenOff q.cb .removed, visitor := .inr .putObj }, none, none⟩
  | .inr .removeCallback =>
    ⟨{ q with cb := takenOff q.cb .removed, visitor := .inr .putFence }, none, none⟩
  | .inr .putFence => ⟨{ q with visitor := .inr .putObj }, none, some .fence⟩
  | .inr .putObj => ⟨{ q with visitor := .inl .idle }, none, some .obj⟩

/-- The destroy has a step at the sync point that does not wait for a lock. -/
def cancels (q : SyncPlace) : Bool :=
  match q.visitor with
  | .inl .idle => q.pending
  | .inl _ => false
  | .inr .cancelFence | .inr .removeCallback => !q.cb.locked
  | .inr _ => true

section Sound

-- a sync point has finitely many places, so each step is evaluated at all of them

variable {q : SyncPlace}

theorem signalMove_sound (h : q.shaped = true) : q.signalMove.Sound q := by
  obtain ⟨type, pending, cb, visitor⟩ := q
  revert type pending cb visitor
  decide +kernel

theorem callbackMove_sound (h : q.shaped = true) (eventsPending : Bool) :
    (q.callbackMove eventsPending).Sound q := by
  obtain ⟨type, pending, cb, visitor⟩ := q
  revert type pending cb visitor eventsPending
  decide +kernel

theorem addMove_sound (h : q.shaped = true) (result : KgslSyncobj.Registration) :
    (q.addMove result).Sound q := by
  obtain ⟨type, pending, cb, visitor⟩ := q
  cases result
  all_goals
    revert type pending cb visitor
    decide +kernel

theorem cancelMove_sound (h : q.shaped = true) (hcancels : q.cancels = true) :
    q.cancelMove.Sound q := by
  obtain ⟨type, pending, cb, visitor⟩ := q
  revert type pending cb visitor
  decide +kernel

end Sound

end SyncPlace

/-- Every reference taken for a sync point was dropped or has an owner. -/
structure SyncEvent.Good (e : SyncEvent) (v : SyncAdder ⊕ SyncCancel) : Prop where
  shaped : (e.place v).shaped = true
  owed : ∀ k, (e.log k).puts + (e.place v).owed k = (e.log k).gets
  taken : ∀ k, (e.log k).gets = (e.place v).taken k

/-- The logs before and after a step that takes and drops at most one reference. -/
def Logged (take drop : Option RefKind) (e e' : SyncEvent) : Prop :=
  ∀ k : RefKind, (e'.log k).gets = (e.log k).gets + k.count take ∧
    (e'.log k).puts = (e.log k).puts + k.count drop

theorem SyncEvent.Good.move {e e' : SyncEvent} {v v' : SyncAdder ⊕ SyncCancel} {m : SyncMove}
    (h : e.Good v) (hm : m.Sound (e.place v)) (hnext : m.next = e'.place v')
    (hlog : Logged m.take m.drop e e') : e'.Good v' := by
  obtain ⟨hshaped, howed⟩ := hm
  rw [hnext] at hshaped howed
  refine ⟨hshaped, ?_, ?_⟩
  · intro k
    obtain ⟨hgets, hputs⟩ := hlog k
    have hbefore := h.owed k
    have hsteps := (howed k).1
    omega
  · intro k
    rw [(hlog k).1, (howed k).2, h.taken k]

namespace KgslSyncobj

/-! ## The count -/

/-- Who is at the sync point `i` of `n` beside its callback. -/
def visitorAt (destroyer : SyncDestroyer) (adder : SyncAdder) (n i : ℕ) :
    SyncAdder ⊕ SyncCancel :=
  match destroyer with
  | .within j p => if j = i then .inr p else .inl .idle
  | .notStarted => if i + 1 = n then .inl adder else .inl .idle
  | _ => .inl .idle

def visitor (s : KgslSyncobj) (i : ℕ) : SyncAdder ⊕ SyncCancel :=
  visitorAt s.destroyer s.adder s.synclist.length i

/-- The owners of the object at a sync point. -/
def objOwners (s : KgslSyncobj) (i : ℕ) : ℕ :=
  match s.synclist[i]? with
  | some e => (e.place (s.visitor i)).objOwed
  | none => 0

/-- The reference of the creation, which `kgsl_drawobj_destroy` drops. -/
def initialOwed (s : KgslSyncobj) : ℕ := if s.destroyer = .done then 0 else 1

structure Balanced (s : KgslSyncobj) : Prop where
  good : ∀ i (e : SyncEvent), s.synclist[i]? = some e → e.Good (s.visitor i)
  refcount : s.refcount = s.initialOwed + s.timerHolds.toNat +
    ∑ i ∈ Finset.range s.synclist.length, s.objOwners i
  freed : s.freed = if s.refcount = 0 then 1 else 0
  adder : s.destroyer ≠ .notStarted → s.adder = .idle
  nonempty : s.adder ≠ .idle → s.synclist ≠ []

theorem Balanced.create : Balanced create where
  good := fun i e h => by cases h
  refcount := rfl
  freed := rfl
  adder := fun h => absurd rfl h
  nonempty := fun h => absurd rfl h

variable {s s' : KgslSyncobj}

variable {i : ℕ} {e e' : SyncEvent} {m : SyncMove} {p : SyncCancel}

theorem sum_objOwners (hi : i < s.synclist.length)
    (hlength : s'.synclist.length = s.synclist.length)
    (hothers : ∀ j, j ≠ i → s'.objOwners j = s.objOwners j) :
    ∑ j ∈ Finset.range s'.synclist.length, s'.objOwners j + s.objOwners i =
      ∑ j ∈ Finset.range s.synclist.length, s.objOwners j + s'.objOwners i := by
  have hmem : i ∈ Finset.range s.synclist.length := Finset.mem_range.mpr hi
  have hrest : ∑ j ∈ (Finset.range s.synclist.length).erase i, s'.objOwners j =
      ∑ j ∈ (Finset.range s.synclist.length).erase i, s.objOwners j :=
    Finset.sum_congr rfl fun j hj => hothers j (Finset.ne_of_mem_erase hj)
  rw [hlength, ← Finset.add_sum_erase _ _ hmem, ← Finset.add_sum_erase _ s.objOwners hmem, hrest]
  omega

/-- The object after a step at one sync point: a step that drops the object calls
`kgsl_drawobj_put`, and no other one changes the count. -/
structure MovesAt (s : KgslSyncobj) (i : ℕ) (e' : SyncEvent) (drop : Option RefKind)
    (s' : KgslSyncobj) : Prop where
  synclist : s'.synclist = s.synclist.set i e'
  refcount : s'.refcount = if drop = some .obj then s.put.refcount else s.refcount
  freed : s'.freed = if drop = some .obj then s.put.freed else s.freed
  timerHolds : s'.timerHolds = s.timerHolds
  initialOwed : s'.initialOwed = s.initialOwed
  visitor : ∀ j, j ≠ i → s'.visitor j = s.visitor j
  adder : s'.destroyer ≠ .notStarted → s'.adder = .idle

theorem put_freed (h : s.freed = if s.refcount = 0 then 1 else 0) (hpos : 0 < s.refcount) :
    s.put.freed = if s.put.refcount = 0 then 1 else 0 := by
  rw [if_neg (by omega)] at h
  show (if s.refcount = 1 then s.freed + 1 else s.freed) = if s.refcount - 1 = 0 then 1 else 0
  split
  · rw [if_pos (by omega), h]
  · rw [if_neg (by omega), h]

theorem Balanced.move (h : Balanced s) (he : s.synclist[i]? = some e)
    (hm : m.Sound (e.place (s.visitor i))) (hmoves : MovesAt s i e' m.drop s')
    (htake : m.take ≠ some .obj) (hnext : m.next = e'.place (s'.visitor i))
    (hlog : Logged m.take m.drop e e') : Balanced s' := by
  obtain ⟨hi, hget⟩ := List.getElem?_eq_some_iff.mp he
  have hlength : s'.synclist.length = s.synclist.length := by
    rw [hmoves.synclist, length_set]
  have hnew : s'.synclist[i]? = some e' := by
    rw [hmoves.synclist, getElem?_set_self hi]
  have hsame : ∀ j, j ≠ i → s'.synclist[j]? = s.synclist[j]? := by
    intro j hj
    rw [hmoves.synclist, getElem?_set_ne hj.symm]
  have hothers : ∀ j, j ≠ i → s'.objOwners j = s.objOwners j := by
    intro j hj
    rw [objOwners, objOwners, hsame j hj, hmoves.visitor j hj]
  have hsum := sum_objOwners hi hlength hothers
  have hold : s.objOwners i = (e.place (s.visitor i)).objOwed := by rw [objOwners, he]
  have howners : s'.objOwners i + RefKind.obj.count m.drop = s.objOwners i := by
    have howed := (hm.2 .obj).1
    rw [hnext, RefKind.count, RefKind.count, if_neg htake] at howed
    rw [objOwners, hnew, hold, RefKind.count]
    exact howed
  have hle : s.objOwners i ≤ ∑ j ∈ Finset.range s.synclist.length, s.objOwners j :=
    Nat.le.intro (Finset.add_sum_erase _ _ (Finset.mem_range.mpr hi))
  have hcount := h.refcount
  exact
    { good := by
        intro j f hf
        by_cases hj : j = i
        · rw [hj, hnew] at hf
          rw [hj, ← Option.some.inj hf]
          exact (h.good i e he).move hm hnext hlog
        · rw [hsame j hj] at hf
          rw [hmoves.visitor j hj]
          exact h.good j f hf
      refcount := by
        rw [hmoves.refcount, hmoves.initialOwed, hmoves.timerHolds]
        rw [RefKind.count] at howners
        split
        case isTrue hdrop =>
          rw [if_pos hdrop] at howners
          show s.refcount - 1 = _
          omega
        case isFalse hdrop =>
          rw [if_neg hdrop] at howners
          omega
      freed := by
        rw [hmoves.freed, hmoves.refcount]
        rw [RefKind.count] at howners
        split
        case isTrue hdrop =>
          rw [if_pos hdrop] at howners
          exact put_freed h.freed (by omega)
        case isFalse => exact h.freed
      adder := hmoves.adder
      nonempty := by
        intro _ hnil
        rw [hnil] at hnew
        cases hnew }

/-! ## Steps of the object -/

theorem onEvent_keeps {P : KgslSyncobj → Prop} {act : SyncEvent → KgslSyncobj} (h : P s)
    (hact : ∀ e, s.synclist[i]? = some e → P (act e)) : P (s.onEvent i act) := by
  rw [onEvent]
  split
  next e he => exact hact e he
  next => exact h

theorem last_of_getElem? (he : s.synclist[s.synclist.length - 1]? = some e) :
    s.synclist.length - 1 + 1 = s.synclist.length := by
  have hlt := (List.getElem?_eq_some_iff.mp he).1
  omega

theorem Balanced.moveCallback (h : Balanced s) (he : s.synclist[i]? = some e)
    (hm : m.Sound (e.place (s.visitor i))) (hsynclist : s'.synclist = s.synclist.set i e')
    (hadder : s'.adder = s.adder) (hdestroyer : s'.destroyer = s.destroyer)
    (htimer : s'.timerHolds = s.timerHolds)
    (hrefcount : s'.refcount = if m.drop = some .obj then s.put.refcount else s.refcount)
    (hfreed : s'.freed = if m.drop = some .obj then s.put.freed else s.freed)
    (htake : m.take = none) (hnext : m.next = e'.place (s.visitor i))
    (hlog : Logged m.take m.drop e e') : Balanced s' := by
  have hvisitor : ∀ j, s'.visitor j = s.visitor j := by
    intro j
    rw [visitor, visitor, hdestroyer, hadder, hsynclist, length_set]
  refine h.move he hm ?_ ?_ ?_ hlog
  · exact
      { synclist := hsynclist
        refcount := hrefcount
        freed := hfreed
        timerHolds := htimer
        initialOwed := by rw [initialOwed, initialOwed, hdestroyer]
        visitor := fun j _ => hvisitor j
        adder := by
          rw [hdestroyer, hadder]
          exact h.adder }
  · rw [htake]
    decide
  · rw [hvisitor]
    exact hnext

theorem Balanced.signal (h : Balanced s) (he : s.synclist[i]? = some e) :
    Balanced (s.signal i e) := by
  have hsound := SyncPlace.signalMove_sound (h.good i e he).shaped
  obtain ⟨type, pending, cb, context, created, fence, obj⟩ := e
  cases cb with
  | listed =>
    cases type
    all_goals
      exact h.moveCallback he hsound rfl rfl rfl rfl rfl rfl rfl rfl
        fun k => by cases k <;> exact ⟨rfl, rfl⟩
  | _ => exact h

theorem Balanced.callbackStep (h : Balanced s) (he : s.synclist[i]? = some e) :
    Balanced (s.callbackStep i e) := by
  have hsound := SyncPlace.callbackMove_sound (h.good i e he).shaped s.eventsPending
  obtain ⟨type, pending, cb, context, created, fence, obj⟩ := e
  cases cb with
  | idle | listed | removed | done => exact h
  | expire | won | lost | queued | check | sched | work | putObj =>
    cases type <;> cases pending
    all_goals
      exact h.moveCallback he hsound rfl rfl rfl rfl rfl rfl rfl rfl
        fun k => by cases k <;> exact ⟨rfl, rfl⟩

theorem Balanced.moveAdder (h : Balanced s) (he : s.synclist[i]? = some e)
    (hlast : i + 1 = s.synclist.length) (hadding : s.adder ≠ .idle)
    (hm : m.Sound (e.place (.inl s.adder))) (hsynclist : s'.synclist = s.synclist.set i e')
    (hdestroyer : s'.destroyer = s.destroyer) (htimer : s'.timerHolds = s.timerHolds)
    (hrefcount : s'.refcount = if m.drop = some .obj then s.put.refcount else s.refcount)
    (hfreed : s'.freed = if m.drop = some .obj then s.put.freed else s.freed)
    (htake : m.take ≠ some .obj) (hnext : m.next = e'.place (.inl s'.adder))
    (hlog : Logged m.take m.drop e e') : Balanced s' := by
  have hnot : s.destroyer = .notStarted := by
    by_contra hstarted
    exact hadding (h.adder hstarted)
  have hvisitor : s.visitor i = .inl s.adder := by
    rw [visitor, hnot]
    exact if_pos hlast
  have hvisitor' : s'.visitor i = .inl s'.adder := by
    rw [visitor, hdestroyer, hnot, hsynclist, length_set]
    exact if_pos hlast
  refine h.move he (hvisitor.symm ▸ hm) ?_ htake (hvisitor'.symm ▸ hnext) hlog
  exact
    { synclist := hsynclist
      refcount := hrefcount
      freed := hfreed
      timerHolds := htimer
      initialOwed := by rw [initialOwed, initialOwed, hdestroyer]
      visitor := by
        intro j hj
        have hjlast : ¬ j + 1 = s.synclist.length := by omega
        rw [visitor, visitor, hdestroyer, hnot, hsynclist, length_set]
        exact (if_neg hjlast).trans (if_neg hjlast).symm
      adder := by
        rw [hdestroyer]
        intro hstarted
        exact absurd hnot hstarted }

theorem Balanced.addStep (h : Balanced s) (he : s.synclist[i]? = some e)
    (hlast : i + 1 = s.synclist.length) (result : Registration) :
    Balanced (s.addStep i e result) := by
  by_cases hadding : s.adder = .idle
  · rw [KgslSyncobj.addStep, hadding]
    exact h
  · have hnot : s.destroyer = .notStarted := by
      by_contra hstarted
      exact hadding (h.adder hstarted)
    have hvisitor : s.visitor i = .inl s.adder := by
      rw [visitor, hnot]
      exact if_pos hlast
    have hgood := h.good i e he
    rw [hvisitor] at hgood
    have hsound := SyncPlace.addMove_sound hgood.shaped result
    have hkeep : s.synclist.set i e = s.synclist := by
      obtain ⟨hi, hget⟩ := List.getElem?_eq_some_iff.mp he
      rw [← hget, set_getElem_self]
    obtain ⟨synclist, refcount, timerArmed, timerHolds, adder, destroyer, freed, trace⟩ := s
    obtain ⟨type, pending, cb, context, created, fence, obj⟩ := e
    cases adder with
    | idle => exact absurd rfl hadding
    | register =>
      cases type <;> cases result
      case timestamp.failed | fence.signaled | fence.failed =>
        -- nothing is registered, so the list is as it was
        exact h.moveAdder he hlast hadding hsound hkeep.symm rfl rfl rfl rfl
          (fun htake => by cases htake) rfl fun k => by cases k <;> exact ⟨rfl, rfl⟩
      all_goals
        exact h.moveAdder he hlast hadding hsound rfl rfl rfl rfl rfl (fun htake => by cases htake)
          rfl
          fun k => by cases k <;> exact ⟨rfl, rfl⟩
    | clearBit | putObj | setBit | added | putFence | putCreated | putContext =>
      cases type
      all_goals
        exact h.moveAdder he hlast hadding hsound rfl rfl rfl rfl rfl (fun htake => by cases htake)
          rfl
          fun k => by cases k <;> exact ⟨rfl, rfl⟩

theorem visitor_within (h : s.destroyer = .within i p) (j : ℕ) :
    s.visitor j = if j = i then .inr p else .inl .idle := by
  rw [visitor, h, visitorAt]
  by_cases hj : j = i
  · rw [if_pos hj, if_pos hj.symm]
  · rw [if_neg hj, if_neg (Ne.symm hj)]

theorem visitor_clear {k : ℕ} (h : s.destroyer = .clear k) (i j : ℕ) :
    s.visitor j = if j = i then .inl .idle else .inl .idle := by
  rw [visitor, h, ite_self]
  rfl

theorem Balanced.moveDestroyer (h : Balanced s) {v v' : SyncAdder ⊕ SyncCancel}
    (he : s.synclist[i]? = some e) (hv : ∀ j, s.visitor j = if j = i then v else .inl .idle)
    (hv' : ∀ j, s'.visitor j = if j = i then v' else .inl .idle) (hm : m.Sound (e.place v))
    (hstarted : s.destroyer ≠ .notStarted) (hinitial : s'.initialOwed = s.initialOwed)
    (hsynclist : s'.synclist = s.synclist.set i e') (hadder : s'.adder = s.adder)
    (htimer : s'.timerHolds = s.timerHolds)
    (hrefcount : s'.refcount = if m.drop = some .obj then s.put.refcount else s.refcount)
    (hfreed : s'.freed = if m.drop = some .obj then s.put.freed else s.freed)
    (htake : m.take = none) (hnext : m.next = e'.place v') (hlog : Logged m.take m.drop e e') :
    Balanced s' := by
  have hvi : s.visitor i = v := (hv i).trans (if_pos rfl)
  have hvi' : s'.visitor i = v' := (hv' i).trans (if_pos rfl)
  refine h.move he (hvi.symm ▸ hm) ?_ ?_ (hvi'.symm ▸ hnext) hlog
  · exact
      { synclist := hsynclist
        refcount := hrefcount
        freed := hfreed
        timerHolds := htimer
        initialOwed := hinitial
        visitor := by
          intro j hj
          rw [hv, hv', if_neg hj, if_neg hj]
        adder := by
          rw [hadder]
          exact fun _ => h.adder hstarted }
  · rw [htake]
    decide

theorem Balanced.cancelStep (h : Balanced s) (he : s.synclist[i]? = some e)
    (hdestroyer : s.destroyer = .within i p) : Balanced (s.cancelStep i e p) := by
  have hv := visitor_within hdestroyer
  have hgood := h.good i e he
  rw [hv, if_pos rfl] at hgood
  have hmove := SyncPlace.cancelMove_sound hgood.shaped
  obtain ⟨synclist, refcount, timerArmed, timerHolds, adder, destroyer, freed, trace⟩ := s
  cases hdestroyer
  obtain ⟨type, pending, cb, context, created, fence, obj⟩ := e
  have hstarted : SyncDestroyer.within i p ≠ .notStarted := fun h => by cases h
  cases p with
  | cancelEvent | putFence =>
    exact h.moveDestroyer he hv (visitor_within rfl) (hmove rfl) hstarted rfl rfl rfl rfl rfl rfl
      rfl rfl fun k => by cases k <;> exact ⟨rfl, rfl⟩
  | cancelFence | removeCallback =>
    rw [KgslSyncobj.cancelStep]
    split
    case isTrue => exact h
    case isFalse hlocked =>
      have hfree : (!cb.locked) = true := by simpa using hlocked
      exact h.moveDestroyer he hv (visitor_within rfl) (hmove hfree) hstarted rfl rfl rfl rfl rfl
        rfl rfl rfl fun k => by cases k <;> exact ⟨rfl, rfl⟩
  | putContext | putObj =>
    exact h.moveDestroyer he hv (visitor_clear rfl i) (hmove rfl) hstarted rfl rfl rfl rfl rfl rfl
      rfl rfl fun k => by cases k <;> exact ⟨rfl, rfl⟩

theorem Balanced.aside (h : Balanced s) (hsynclist : s'.synclist = s.synclist)
    (hvisitor : ∀ i, s'.visitor i = s.visitor i) (hadder : s'.adder = s.adder)
    (hstarted : s'.destroyer ≠ .notStarted → s.adder = .idle)
    (hcount : s'.refcount + s.initialOwed + s.timerHolds.toNat =
      s.refcount + s'.initialOwed + s'.timerHolds.toNat)
    (hfreed : s'.freed = if s'.refcount = 0 then 1 else 0) : Balanced s' where
  good := by
    intro i e he
    rw [hsynclist] at he
    rw [hvisitor]
    exact h.good i e he
  refcount := by
    have howners : s'.objOwners = s.objOwners := by
      funext i
      rw [objOwners, objOwners, hsynclist, hvisitor]
    have hbefore := h.refcount
    rw [hsynclist, howners]
    omega
  freed := hfreed
  adder := by
    rw [hadder]
    exact hstarted
  nonempty := by
    rw [hadder, hsynclist]
    exact h.nonempty

theorem Balanced.destroyStep (h : Balanced s) : Balanced s.destroyStep := by
  rw [KgslSyncobj.destroyStep]
  split
  case h_1 hdestroyer =>
    split
    case isTrue hidle =>
      refine h.aside rfl ?_ rfl (fun _ => hidle.1) ?_ h.freed
      · intro i
        rw [visitor_clear rfl i, if_pos rfl, visitor, hdestroyer, visitorAt, hidle.1, ite_self]
      · simp [initialOwed, hdestroyer]
    case isFalse => exact h
  case h_2 k hdestroyer =>
    have hadder : s.adder = .idle := h.adder (by rw [hdestroyer]; exact fun h => by cases h)
    have hinitial : s.initialOwed = 1 := by simp [initialOwed, hdestroyer]
    split
    case h_1 e he =>
      split
      case isTrue hpending =>
        have hv := visitor_clear hdestroyer k
        have hgood := h.good k e he
        rw [hv, if_pos rfl] at hgood
        have hsound := SyncPlace.cancelMove_sound hgood.shaped hpending
        refine h.moveDestroyer he hv (visitor_within rfl) hsound ?_ hinitial.symm rfl rfl rfl rfl
          rfl rfl rfl fun k => by cases k <;> exact ⟨rfl, rfl⟩
        rw [hdestroyer]
        exact fun h => by cases h
      case isFalse =>
        refine h.aside rfl ?_ rfl (fun _ => hadder) ?_ h.freed
        · intro i
          rw [visitor_clear rfl i, visitor_clear hdestroyer i]
        · rw [hinitial]
          rfl
    case h_2 =>
      refine h.aside rfl ?_ rfl (fun _ => hadder) ?_ h.freed
      · intro i
        rw [visitor_clear hdestroyer i, if_pos rfl]
        rfl
      · rw [hinitial]
        rfl
  case h_3 i p hdestroyer =>
    split
    case h_1 e he => exact h.cancelStep he hdestroyer
    case h_2 => exact h
  case h_4 hdestroyer =>
    have hadder : s.adder = .idle := h.adder (by rw [hdestroyer]; exact fun h => by cases h)
    refine h.aside rfl ?_ rfl (fun _ => hadder) ?_ h.freed
    · intro i
      rw [visitor, visitor, hdestroyer]
      simp only
      split <;> rfl
    · rw [initialOwed, initialOwed, hdestroyer]
      cases s.eventsPending <;> rfl
  case h_5 hdestroyer =>
    have hadder : s.adder = .idle := h.adder (by rw [hdestroyer]; exact fun h => by cases h)
    refine h.aside rfl ?_ rfl (fun _ => hadder) ?_ h.freed
    · intro i
      rw [visitor, visitor, hdestroyer]
      rfl
    · rw [initialOwed, initialOwed, hdestroyer]
      rfl
  case h_6 hdestroyer =>
    have hadder : s.adder = .idle := h.adder (by rw [hdestroyer]; exact fun h => by cases h)
    have hinitial : s.initialOwed = 1 := by simp [initialOwed, hdestroyer]
    have hpos : 0 < s.refcount := by
      have hcount := h.refcount
      omega
    refine h.aside rfl ?_ rfl (fun _ => hadder) ?_ (put_freed h.freed hpos)
    · intro i
      rw [visitor, visitor, hdestroyer]
      rfl
    · rw [hinitial]
      show s.refcount - 1 + 1 + s.timerHolds.toNat = s.refcount + 0 + s.timerHolds.toNat
      omega
  case h_7 => exact h

theorem Balanced.timerFire (h : Balanced s) : Balanced s.timerFire := by
  rw [KgslSyncobj.timerFire]
  split
  case isTrue harmed =>
    split
    case isTrue => exact h.aside rfl (fun _ => rfl) rfl h.adder rfl h.freed
    case isFalse hcount =>
      refine h.aside rfl (fun _ => rfl) rfl h.adder ?_ ?_
      · have hidle : s.timerHolds = false := by simpa using harmed.2
        rw [hidle]
        show s.refcount + 1 + s.initialOwed + 0 = s.refcount + s.initialOwed + 1
        omega
      · have hfreed := h.freed
        rw [if_neg hcount] at hfreed
        exact hfreed.trans (if_neg (Nat.succ_ne_zero _)).symm
  case isFalse => exact h

theorem Balanced.timerPut (h : Balanced s) : Balanced s.timerPut := by
  rw [KgslSyncobj.timerPut]
  split
  case isTrue hholds =>
    have hpos : 0 < s.refcount := by
      have hcount := h.refcount
      rw [hholds] at hcount
      rw [hcount]
      show 0 < s.initialOwed + 1 + _
      omega
    refine h.aside rfl (fun _ => rfl) rfl h.adder ?_ (put_freed h.freed hpos)
    rw [hholds]
    show s.refcount - 1 + s.initialOwed + 1 = s.refcount + s.initialOwed + 0
    omega
  case isFalse => exact h

theorem newEvent_good (type : SyncpointType) : (newEvent type).Good (.inl .setBit) where
  shaped := rfl
  owed k := by cases type <;> cases k <;> rfl
  taken k := by cases type <;> cases k <;> rfl

theorem Balanced.addSync (h : Balanced s) (type : SyncpointType) : Balanced (s.addSync type) := by
  rw [KgslSyncobj.addSync]
  split
  case isTrue hidle =>
    obtain ⟨hadder, hdestroyer⟩ := hidle
    have hinitial : s.initialOwed = 1 := by simp [initialOwed, hdestroyer]
    have hcount := h.refcount
    have hnobody : ∀ i, s.visitor i = .inl .idle := by
      intro i
      rw [visitor, hdestroyer, visitorAt, hadder, ite_self]
    generalize hs' : ({ s with
      synclist := s.synclist ++ [newEvent type]
      refcount := s.refcount + 1
      adder := .setBit } : KgslSyncobj) = s'
    have hsynclist : s'.synclist = s.synclist ++ [newEvent type] := by rw [← hs']
    have hvisitor : ∀ i, s'.visitor i =
        if i = s.synclist.length then .inl .setBit else .inl .idle := by
      intro i
      rw [← hs', visitor, hdestroyer, visitorAt, length_append, length_singleton]
      simp only [Nat.add_right_cancel_iff]
    have hold : ∀ i, i < s.synclist.length → s'.synclist[i]? = s.synclist[i]? ∧
        s'.visitor i = s.visitor i := by
      intro i hi
      rw [hsynclist, getElem?_append_left hi, hvisitor, if_neg (Nat.ne_of_lt hi), hnobody]
      exact ⟨rfl, rfl⟩
    have hnew : s'.synclist[s.synclist.length]? = some (newEvent type) := by
      rw [hsynclist, getElem?_concat_length]
    have howners : s'.objOwners s.synclist.length = 1 := by
      rw [objOwners, hnew, hvisitor, if_pos rfl]
      cases type <;> rfl
    exact
      { good := by
          intro i e he
          rcases Nat.lt_trichotomy i s.synclist.length with hlt | heq | hgt
          · rw [(hold i hlt).1] at he
            rw [(hold i hlt).2]
            exact h.good i e he
          · rw [heq, hnew] at he
            rw [heq, hvisitor, if_pos rfl, ← Option.some.inj he]
            exact newEvent_good type
          · rw [hsynclist, getElem?_eq_none (by simp; omega)] at he
            cases he
        refcount := by
          have hsum : ∑ i ∈ Finset.range s.synclist.length, s'.objOwners i =
              ∑ i ∈ Finset.range s.synclist.length, s.objOwners i := by
            refine Finset.sum_congr rfl ?_
            intro i hi
            obtain ⟨hget, hvis⟩ := hold i (Finset.mem_range.mp hi)
            rw [objOwners, objOwners, hget, hvis]
          have hlength : s'.synclist.length = s.synclist.length + 1 := by
            rw [hsynclist, length_append, length_singleton]
          have hinitial' : s'.initialOwed = s.initialOwed := by rw [← hs']; rfl
          have htimer : s'.timerHolds = s.timerHolds := by rw [← hs']
          have hrefcount : s'.refcount = s.refcount + 1 := by rw [← hs']
          rw [hlength, Finset.sum_range_succ, hsum, howners, hinitial', htimer, hrefcount]
          omega
        freed := by
          have hfreed := h.freed
          rw [if_neg (by omega)] at hfreed
          have hfreed' : s'.freed = s.freed := by rw [← hs']
          have hrefcount : s'.refcount = s.refcount + 1 := by rw [← hs']
          rw [hfreed', hfreed, hrefcount, if_neg (Nat.succ_ne_zero _)]
        adder := by
          intro hstarted
          refine absurd ?_ hstarted
          rw [← hs']
          exact hdestroyer
        nonempty := by
          intro _ hnil
          rw [hnil] at hnew
          cases hnew }
  case isFalse => exact h

theorem Balanced.step (h : Balanced s) (op : Op) : Balanced (s.step op) := by
  cases op with
  | addSync type => exact h.addSync type
  | addStep result =>
    exact onEvent_keeps h fun e he => h.addStep he (last_of_getElem? he) result
  | signal i => exact onEvent_keeps h fun e he => h.signal he
  | callback i => exact onEvent_keeps h fun e he => h.callbackStep he
  | timerArm => exact ite_keeps h fun _ => h.aside rfl (fun _ => rfl) rfl h.adder rfl h.freed
  | timerFire => exact h.timerFire
  | timerPut => exact h.timerPut
  | destroy => exact h.destroyStep

end KgslSyncobj

end QcomModules.Kgsl
