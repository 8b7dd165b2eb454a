import QcomModules.Kgsl.SyncReferences

/-! Sync objects give their references back, and their last sync point to expire calls the
dispatcher. -/

namespace QcomModules.Kgsl

open Library List

namespace SyncPlace

variable {q : SyncPlace}

theorem owed_eq_zero (h : q.shaped = true) (hpending : q.pending = false)
    (hcb : q.cb.finished = true) (hvisitor : q.visitor = .inl .idle) : ∀ k, q.owed k = 0 := by
  obtain ⟨type, pending, cb, visitor⟩ := q
  subst hpending hvisitor
  revert type cb
  decide +kernel

theorem finished_of_objOwed (h : q.shaped = true) (hobj : q.objOwed = 0) :
    q.cb.finished = true := by
  obtain ⟨type, pending, cb, visitor⟩ := q
  revert type pending cb visitor
  decide +kernel

theorem taken_le_one (q : SyncPlace) (k : RefKind) : q.taken k ≤ 1 := by
  cases k with
  | context =>
    rw [taken]
    split <;> decide
  | fence =>
    rw [taken, fenceTaken]
    split <;> decide
  | created =>
    rw [taken]
    split <;> decide
  | obj => exact Nat.le_refl 1

end SyncPlace

namespace KgslSyncobj

variable {s s' : KgslSyncobj}

/-! ## Bits -/

def passed : SyncDestroyer → ℕ → Bool
  | .notStarted, _ => false
  | .clear i, j => j < i
  | .within i _, j => j ≤ i
  | _, _ => true

variable {i k : ℕ} {e e' : SyncEvent}

theorem eventsPending_of_set (he : s.synclist[i]? = some e)
    (hsynclist : s'.synclist = s.synclist.set i e') (hpending : e'.pending = e.pending) :
    s'.eventsPending = s.eventsPending := by
  obtain ⟨hi, hget⟩ := List.getElem?_eq_some_iff.mp he
  have hmap : s'.synclist.map SyncEvent.pending = s.synclist.map SyncEvent.pending := by
    rw [hsynclist, map_set, hpending, ← hget, ← map_set, set_getElem_self]
  have hany : ∀ l : List SyncEvent, l.any SyncEvent.pending = (l.map SyncEvent.pending).any id := by
    intro l
    rw [any_map]
    rfl
  rw [eventsPending, eventsPending, hany, hany, hmap]

theorem eventsPending_of_pending (he : s.synclist[i]? = some e) (hpending : e.pending = true) :
    s.eventsPending = true :=
  any_eq_true.mpr ⟨e, mem_of_getElem? he, hpending⟩

/-! ## The dispatcher -/

/-- The callback cleared its bit and has yet to see to the dispatcher. -/
def kicking : SyncCallback → Bool
  | .check | .sched => true
  | _ => false

/-- The destroy leaves no bit behind it, and before it starts a callback that cleared the last
bit still is on its way to the dispatcher, unless the dispatcher was called or the function that
adds a sync point cleared a bit since. -/
structure Dispatch (s : KgslSyncobj) : Prop where
  cleared : ∀ (i : ℕ) (e : SyncEvent), s.synclist[i]? = some e →
    passed s.destroyer i = true → e.pending = false
  expired : s.destroyer = .notStarted → s.eventsPending = false →
    ∀ k, s.trace.head? = some (.expired k) → ∃ e ∈ s.synclist, kicking e.cb = true

theorem Dispatch.create : Dispatch create where
  cleared i e h := by cases h
  expired _ _ k h := by cases h

/-- The ways a step at one sync point leaves the last cleared bit to somebody. -/
def Kicks (s s' : KgslSyncobj) (e e' : SyncEvent) : Prop :=
  (∀ k, s'.trace.head? ≠ some (.expired k)) ∨ kicking e'.cb = true ∨ e'.pending = true ∨
    s'.trace = s.trace ∧ e'.pending = e.pending ∧
      (s.eventsPending = true ∨ (kicking e.cb = true → kicking e'.cb = true))

theorem Dispatch.move (h : Dispatch s) (he : s.synclist[i]? = some e)
    (hsynclist : s'.synclist = s.synclist.set i e') (hdestroyer : s'.destroyer = s.destroyer)
    (hpending : e'.pending = true → e.pending = true ∨ s.destroyer = .notStarted)
    (hkicks : Kicks s s' e e') : Dispatch s' where
  cleared := by
    obtain ⟨hi, -⟩ := List.getElem?_eq_some_iff.mp he
    intro j f hf hpassed
    rw [hdestroyer] at hpassed
    rw [hsynclist] at hf
    by_cases hj : i = j
    · rw [← hj, getElem?_set_self hi] at hf
      rw [← hj] at hpassed
      rw [← Option.some.inj hf]
      by_contra hset
      rcases hpending (by simpa using hset) with hbit | hnot
      · rw [h.cleared i e he hpassed] at hbit
        cases hbit
      · rw [hnot] at hpassed
        cases hpassed
    · rw [getElem?_set_ne hj] at hf
      exact h.cleared j f hf hpassed
  expired := by
    obtain ⟨hi, -⟩ := List.getElem?_eq_some_iff.mp he
    have hnew : s'.synclist[i]? = some e' := by rw [hsynclist, getElem?_set_self hi]
    intro hnot hclear k hhead
    rw [hdestroyer] at hnot
    rcases hkicks with hno | hway | hbit | ⟨htrace, hsame, hway⟩
    · exact absurd hhead (hno k)
    · exact ⟨e', mem_of_getElem? hnew, hway⟩
    · rw [eventsPending_of_pending hnew hbit] at hclear
      cases hclear
    · rw [eventsPending_of_set he hsynclist hsame] at hclear
      rw [htrace] at hhead
      obtain ⟨f, hf, hcb⟩ := h.expired hnot hclear k hhead
      obtain ⟨j, hj⟩ := mem_iff_getElem?.mp hf
      by_cases hij : i = j
      · rw [← hij, he] at hj
        rw [← Option.some.inj hj] at hcb
        rcases hway with hpend | hkeeps
        · rw [hclear] at hpend
          cases hpend
        · exact ⟨e', mem_of_getElem? hnew, hkeeps hcb⟩
      · refine ⟨f, mem_of_getElem? (i := j) ?_, hcb⟩
        rw [hsynclist, getElem?_set_ne hij]
        exact hj

theorem Dispatch.quiet (h : Dispatch s) (he : s.synclist[i]? = some e)
    (hsynclist : s'.synclist = s.synclist.set i e') (hdestroyer : s'.destroyer = s.destroyer)
    (htrace : s'.trace = s.trace) (hpending : e'.pending = e.pending)
    (hcb : kicking e.cb = true → kicking e'.cb = true) : Dispatch s' :=
  h.move he hsynclist hdestroyer (fun hbit => Or.inl (hpending ▸ hbit))
    (Or.inr (Or.inr (Or.inr ⟨htrace, hpending, Or.inr hcb⟩)))

theorem Dispatch.signal (h : Dispatch s) (he : s.synclist[i]? = some e) :
    Dispatch (s.signal i e) := by
  rw [KgslSyncobj.signal]
  split
  case isTrue hcb =>
    refine h.quiet he rfl rfl rfl rfl ?_
    rw [hcb]
    exact fun h => by cases h
  case isFalse => exact h

theorem Dispatch.callbackStep (h : Dispatch s) (he : s.synclist[i]? = some e) :
    Dispatch (s.callbackStep i e) := by
  obtain ⟨type, pending, cb, context, created, fence, obj⟩ := e
  cases cb with
  | idle | listed | removed | done => exact h
  | expire =>
    cases pending with
    | true => exact h.move he rfl rfl (fun hbit => by cases hbit) (Or.inr (Or.inl rfl))
    | false => exact h.quiet he rfl rfl rfl rfl fun hbusy => by cases hbusy
  | check =>
    rw [KgslSyncobj.callbackStep]
    cases hpend : s.eventsPending with
    | true =>
      exact h.move he rfl rfl (fun hbit => Or.inl hbit)
        (Or.inr (Or.inr (Or.inr ⟨rfl, rfl, Or.inl hpend⟩)))
    | false => exact h.move he rfl rfl (fun hbit => Or.inl hbit) (Or.inr (Or.inl rfl))
  | sched =>
    exact h.move he rfl rfl (fun hbit => Or.inl hbit) (Or.inl fun k hk => by cases hk)
  | won =>
    cases type
    all_goals exact h.quiet he rfl rfl rfl rfl fun hbusy => by cases hbusy
  | queued | lost | work | putObj =>
    exact h.quiet he rfl rfl rfl rfl fun hbusy => by cases hbusy

theorem Dispatch.addStep (h : Dispatch s) (hs : Balanced s) (he : s.synclist[i]? = some e)
    (hlast : i + 1 = s.synclist.length) (result : Registration) :
    Dispatch (s.addStep i e result) := by
  by_cases hadding : s.adder = .idle
  · rw [KgslSyncobj.addStep, hadding]
    exact h
  · have hnot : s.destroyer = .notStarted := by
      by_contra hstarted
      exact hadding (hs.adder hstarted)
    have hidle : s.adder = .register → kicking e.cb = false := by
      intro hadder
      have hgood := hs.good i e he
      rw [visitor, hnot, visitorAt, if_pos hlast, hadder] at hgood
      have hplace : (e.pending && e.cb.isIdle) = true := hgood.shaped
      cases hcb : e.cb with
      | idle => rfl
      | _ =>
        rw [hcb, SyncCallback.isIdle, Bool.and_false] at hplace
        cases hplace
        all_goals exact fun h => by cases h
    have hkeep : s.synclist.set i e = s.synclist := by
      obtain ⟨hi, hget⟩ := List.getElem?_eq_some_iff.mp he
      rw [← hget, set_getElem_self]
    obtain ⟨synclist, refcount, timerArmed, timerHolds, adder, destroyer, freed, trace⟩ := s
    obtain ⟨type, pending, cb, context, created, fence, obj⟩ := e
    cases adder with
    | idle => exact absurd rfl hadding
    | setBit =>
      exact h.move he rfl rfl (fun _ => Or.inr hnot) (Or.inr (Or.inr (Or.inl rfl)))
    | clearBit =>
      exact h.move he rfl rfl (fun hbit => by cases hbit) (Or.inl fun k hk => by cases hk)
    | register =>
      have hbusy : ∀ {P : Prop}, kicking cb = true → P := by
        intro P hcb
        rw [hidle rfl] at hcb
        cases hcb
      cases type <;> cases result
      case timestamp.failed | fence.signaled | fence.failed =>
        exact h.quiet he hkeep.symm rfl rfl rfl hbusy
      all_goals exact h.quiet he rfl rfl rfl rfl hbusy
    | added | putFence | putCreated | putContext | putObj =>
      exact h.quiet he rfl rfl rfl rfl id

theorem cleared_set {synclist : List SyncEvent}
    (hbelow : ∀ (i : ℕ) (e : SyncEvent), synclist[i]? = some e → i < k → e.pending = false)
    (hpending : e'.pending = false) (i : ℕ) (f : SyncEvent) (hf : (synclist.set k e')[i]? = some f)
    (hi : i ≤ k) : f.pending = false := by
  rcases Nat.lt_or_eq_of_le hi with hlt | heq
  · rw [getElem?_set_ne (by omega)] at hf
    exact hbelow i f hf hlt
  · obtain ⟨hlen, -⟩ := List.getElem?_eq_some_iff.mp hf
    rw [length_set] at hlen
    rw [heq, getElem?_set_self (by omega)] at hf
    rw [← Option.some.inj hf]
    exact hpending

theorem Dispatch.cancelStep (h : Dispatch s) {p : SyncCancel} (he : s.synclist[k]? = some e)
    (hdestroyer : s.destroyer = .within k p) : Dispatch (s.cancelStep k e p) := by
  have hcleared : ∀ (i : ℕ) (f : SyncEvent), s.synclist[i]? = some f → i ≤ k →
      f.pending = false := by
    intro i f hf hi
    refine h.cleared i f hf ?_
    rw [hdestroyer]
    exact decide_eq_true hi
  have hclear : e.pending = false := hcleared k e he (Nat.le_refl k)
  have hset : ∀ {e' : SyncEvent} (i : ℕ) (f : SyncEvent),
      (s.synclist.set k e')[i]? = some f → i ≤ k → e'.pending = e.pending → f.pending = false :=
    fun i f hf hi hsame => cleared_set (fun i f hf hi => hcleared i f hf (Nat.le_of_lt hi))
      (hsame.trans hclear) i f hf hi
  have hnot : s.destroyer ≠ .notStarted := by
    rw [hdestroyer]
    exact fun heq => by cases heq
  cases p with
  | cancelEvent | putFence =>
    exact
      { cleared := fun i f hf hpassed => hset i f hf (of_decide_eq_true hpassed) rfl
        expired := fun heq => by cases heq }
  | putContext | putObj =>
    exact
      { cleared := fun i f hf hpassed =>
          hset i f hf (Nat.le_of_lt_succ (of_decide_eq_true hpassed)) rfl
        expired := fun heq => by cases heq }
  | cancelFence | removeCallback =>
    rw [KgslSyncobj.cancelStep]
    split
    · exact h
    · exact
        { cleared := fun i f hf hpassed => hset i f hf (of_decide_eq_true hpassed) rfl
          expired := fun heq => by cases heq }

theorem Dispatch.destroyStep (h : Dispatch s) : Dispatch s.destroyStep := by
  rw [KgslSyncobj.destroyStep]
  split
  case h_1 hdestroyer =>
    split
    · exact
        { cleared := fun i e he hpassed => by cases hpassed
          expired := fun heq => by cases heq }
    · exact h
  case h_2 k hdestroyer =>
    have hbelow : ∀ (i : ℕ) (e : SyncEvent), s.synclist[i]? = some e → i < k →
        e.pending = false := by
      intro i e he hi
      refine h.cleared i e he ?_
      rw [hdestroyer]
      exact decide_eq_true hi
    split
    case h_1 e he =>
      split
      case isTrue =>
        exact
          { cleared := fun i f hf hpassed =>
              cleared_set hbelow rfl i f hf (of_decide_eq_true hpassed)
            expired := fun heq => by cases heq }
      case isFalse hclear =>
        refine ⟨?_, fun heq => by cases heq⟩
        intro i f hf hpassed
        rcases Nat.lt_succ_iff_lt_or_eq.mp (of_decide_eq_true hpassed) with hi | hi
        · exact hbelow i f hf hi
        · rw [hi] at hf
          rw [← Option.some.inj (he.symm.trans hf)]
          simpa using hclear
    case h_2 hnone =>
      refine ⟨?_, fun heq => by cases heq⟩
      intro i f hf _
      have hend := List.getElem?_eq_none_iff.mp hnone
      obtain ⟨hi, -⟩ := List.getElem?_eq_some_iff.mp hf
      exact hbelow i f hf (Nat.lt_of_lt_of_le hi hend)
  case h_3 k p hdestroyer =>
    split
    case h_1 e he => exact h.cancelStep he hdestroyer
    case h_2 => exact h
  case h_4 hdestroyer | h_5 hdestroyer | h_6 hdestroyer =>
    have hall : ∀ (i : ℕ) (f : SyncEvent), s.synclist[i]? = some f → f.pending = false := by
      intro i f hf
      refine h.cleared i f hf ?_
      rw [hdestroyer]
      rfl
    refine ⟨fun i f hf _ => hall i f hf, ?_⟩
    cases hpend : s.eventsPending <;> exact fun heq => by cases heq
  case h_7 => exact h

theorem Dispatch.addSync (h : Dispatch s) (type : SyncpointType) : Dispatch (s.addSync type) := by
  rw [KgslSyncobj.addSync]
  split
  case isTrue hidle =>
    refine ⟨?_, ?_⟩
    · intro i e _ hpassed
      rw [hidle.2] at hpassed
      cases hpassed
    · intro hnot hclear k hhead
      have hbefore : s.eventsPending = false := by
        rw [eventsPending, any_append, Bool.or_eq_false_iff] at hclear
        exact hclear.1
      obtain ⟨e, he, hcb⟩ := h.expired hnot hbefore k hhead
      exact ⟨e, mem_append_left _ he, hcb⟩
  case isFalse => exact h

theorem Dispatch.aside (h : Dispatch s) (hsynclist : s'.synclist = s.synclist)
    (hdestroyer : s'.destroyer = s.destroyer) (htrace : s'.trace = s.trace) : Dispatch s' where
  cleared := by
    rw [hsynclist, hdestroyer]
    exact h.cleared
  expired := by
    rw [eventsPending, hsynclist, hdestroyer, htrace]
    exact h.expired

theorem Dispatch.step (h : Dispatch s) (hs : Balanced s) (op : Op) : Dispatch (s.step op) := by
  cases op with
  | addSync type => exact h.addSync type
  | addStep result =>
    exact onEvent_keeps h fun e he => h.addStep hs he (last_of_getElem? he) result
  | signal i => exact onEvent_keeps h fun e he => h.signal he
  | callback i => exact onEvent_keeps h fun e he => h.callbackStep he
  | timerArm => exact ite_keeps h fun _ => h.aside rfl rfl rfl
  | timerFire =>
    refine ite_keeps h fun _ => ?_
    split <;> exact h.aside rfl rfl rfl
  | timerPut => exact ite_keeps h fun _ => h.aside rfl rfl rfl
  | destroy => exact h.destroyStep

/-! ## The last bit -/

/-- A bit is set, or the newest mark is of a callback or of the dispatcher. -/
def Kicked (s : KgslSyncobj) : Prop :=
  s.destroyer = .notStarted → s.eventsPending = true ∨
    (∃ k, s.trace.head? = some (.expired k)) ∨ s.trace.head? = some .sched

theorem Kicked.quiet (h : Kicked s) (hdestroyer : s'.destroyer = s.destroyer)
    (htrace : s'.trace = s.trace) (hpending : s'.eventsPending = s.eventsPending) :
    Kicked s' := by
  rw [Kicked, hdestroyer, htrace, hpending]
  exact h

theorem Kicked.quiet_set (h : Kicked s) (he : s.synclist[i]? = some e)
    (hdestroyer : s'.destroyer = s.destroyer) (htrace : s'.trace = s.trace)
    (hsynclist : s'.synclist = s.synclist.set i e') (hpending : e'.pending = e.pending) :
    Kicked s' :=
  h.quiet hdestroyer htrace (eventsPending_of_set he hsynclist hpending)

theorem Kicked.callbackStep (h : Kicked s) (he : s.synclist[i]? = some e) :
    Kicked (s.callbackStep i e) := by
  obtain ⟨type, pending, cb, context, created, fence, obj⟩ := e
  cases cb with
  | idle | listed | removed | done => exact h
  | expire =>
    cases pending with
    | true => exact fun _ => Or.inr (Or.inl ⟨i, rfl⟩)
    | false => exact h.quiet_set he rfl rfl rfl rfl
  | sched => exact fun _ => Or.inr (Or.inr rfl)
  | won =>
    cases type
    all_goals exact h.quiet_set he rfl rfl rfl rfl
  | queued | check | lost | work | putObj => exact h.quiet_set he rfl rfl rfl rfl

theorem Kicked.destroyStep (h : Kicked s) : Kicked s.destroyStep := by
  have hstarted : ∀ {s' : KgslSyncobj}, s'.destroyer ≠ .notStarted → Kicked s' :=
    fun hne heq => absurd heq hne
  rw [KgslSyncobj.destroyStep]
  split
  case h_1 =>
    split
    · exact hstarted fun heq => by cases heq
    · exact h
  case h_2 =>
    split
    · split
      · exact hstarted fun heq => by cases heq
      · exact hstarted fun heq => by cases heq
    · exact hstarted fun heq => by cases heq
  case h_3 k p hdestroyer =>
    split
    case h_1 e he =>
      have hsame : Kicked s := h
      cases p with
      | cancelFence | removeCallback =>
        rw [KgslSyncobj.cancelStep]
        split
        · exact hsame
        · exact hstarted fun heq => by cases heq
      | cancelEvent | putContext | putFence | putObj => exact hstarted fun heq => by cases heq
    case h_2 => exact h
  case h_4 => cases hpend : s.eventsPending <;> exact hstarted fun heq => by cases heq
  case h_5 | h_6 => exact hstarted fun heq => by cases heq
  case h_7 => exact h

theorem Kicked.step (h : Kicked s) {op : Op} (hop : op.adds = false) : Kicked (s.step op) := by
  cases op with
  | addSync type => cases hop
  | addStep result => cases hop
  | signal i =>
    exact onEvent_keeps h fun e he => ite_keeps h fun _ => h.quiet_set he rfl rfl rfl rfl
  | callback i => exact onEvent_keeps h fun e he => h.callbackStep he
  | timerArm => exact ite_keeps h fun _ => h.quiet rfl rfl rfl
  | timerFire =>
    refine ite_keeps h fun _ => ?_
    split <;> exact h.quiet rfl rfl rfl
  | timerPut => exact ite_keeps h fun _ => h.quiet rfl rfl rfl
  | destroy => exact h.destroyStep

/-! ## Runs -/

def Runs : KgslSyncobj → KgslSyncobj → Prop :=
  Relation.ReflTransGen (GuardedStep (fun _ _ => True) step)

/-- Steps of callbacks, of the timer and of the destroy only. -/
def Unwinds : KgslSyncobj → KgslSyncobj → Prop :=
  Relation.ReflTransGen (GuardedStep (fun _ op => op.adds = false) step)

theorem invariants_of_runs (h : Runs create s) : Balanced s ∧ Dispatch s := by
  have hstep : ∀ (s : KgslSyncobj) (op : Op), Balanced s ∧ Dispatch s → True →
      Balanced (s.step op) ∧ Dispatch (s.step op) :=
    fun _ op hinv _ => ⟨hinv.1.step op, hinv.2.step hinv.1 op⟩
  exact invariant_of_guarded hstep ⟨Balanced.create, Dispatch.create⟩ h

theorem Unwinds.runs (h : Unwinds s s') : Runs s s' := by
  induction h with
  | refl => exact .refl
  | tail _ hlast ih =>
    obtain ⟨op, -, heq⟩ := hlast
    exact ih.tail ⟨op, trivial, heq⟩

/-- Nobody is at the sync point any more, and its bit is clear. -/
def Settled (s : KgslSyncobj) (i : ℕ) (e : SyncEvent) : Prop :=
  e.pending = false ∧ e.cb.finished = true ∧ s.visitor i = .inl .idle

def references : SyncpointType → RefKind → ℕ
  | .timestamp, .context => 1
  | .timeline, .fence => 1
  | .timeline, .created => 1
  | _, .obj => 1
  | _, _ => 0

theorem taken_of_idle {v : SyncAdder ⊕ SyncCancel} (hv : v = .inl .idle) (k : RefKind) :
    (e.place v).taken k = references e.type k := by
  obtain ⟨type, pending, cb, context, created, fence, obj⟩ := e
  rw [hv]
  cases type <;> cases k <;> rfl

theorem Balanced.settled (h : Balanced s) (he : s.synclist[i]? = some e) (hsettled : Settled s i e)
    (k : RefKind) : (e.log k).puts = references e.type k := by
  obtain ⟨hpending, hcb, hvisitor⟩ := hsettled
  have hgood := h.good i e he
  have hzero := SyncPlace.owed_eq_zero hgood.shaped hpending hcb hvisitor k
  have howed := hgood.owed k
  rw [hzero, hgood.taken k, taken_of_idle hvisitor] at howed
  exact howed

theorem Balanced.puts_le_one (h : Balanced s) (he : s.synclist[i]? = some e) (k : RefKind) :
    (e.log k).puts ≤ 1 := by
  have hgood := h.good i e he
  have howed := hgood.owed k
  have htaken := SyncPlace.taken_le_one (e.place (s.visitor i)) k
  rw [hgood.taken k] at howed
  omega

theorem Balanced.of_freed (h : Balanced s) (hfreed : s.refcount = 0) :
    s.destroyer = .done ∧ s.timerHolds = false ∧ ∀ e ∈ s.synclist, e.cb.finished = true := by
  have hcount := h.refcount
  rw [hfreed] at hcount
  have hinitial : s.initialOwed = 0 := by omega
  have htimer : s.timerHolds.toNat = 0 := by omega
  refine ⟨?_, ?_, ?_⟩
  · rw [initialOwed] at hinitial
    by_contra hnot
    rw [if_neg hnot] at hinitial
    cases hinitial
  · cases hholds : s.timerHolds with
    | false => rfl
    | true =>
      rw [hholds] at htimer
      cases htimer
  · intro e he
    obtain ⟨i, hi⟩ := mem_iff_getElem?.mp he
    have hsum : ∑ j ∈ Finset.range s.synclist.length, s.objOwners j = 0 := by omega
    have hmem : i ∈ Finset.range s.synclist.length :=
      Finset.mem_range.mpr (List.getElem?_eq_some_iff.mp hi).1
    have hzero := Finset.sum_eq_zero_iff.mp hsum i hmem
    rw [objOwners, hi] at hzero
    exact SyncPlace.finished_of_objOwed (h.good i e hi).shaped hzero

theorem visitor_done (h : s.destroyer = .done) (i : ℕ) : s.visitor i = .inl .idle := by
  rw [visitor, h]
  rfl

theorem Dispatch.settled (h : Dispatch s) (hdone : s.destroyer = .done)
    (he : s.synclist[i]? = some e) (hcb : e.cb.finished = true) : Settled s i e := by
  refine ⟨h.cleared i e he ?_, hcb, visitor_done hdone i⟩
  rw [hdone]
  rfl

theorem Balanced.refcount_eq_zero (h : Balanced s) (hs : Dispatch s) (hdone : s.destroyer = .done)
    (htimer : s.timerHolds = false) (hcb : ∀ e ∈ s.synclist, e.cb.finished = true) :
    s.refcount = 0 := by
  have hsum : ∑ i ∈ Finset.range s.synclist.length, s.objOwners i = 0 := by
    refine Finset.sum_eq_zero ?_
    intro i _
    rw [objOwners]
    split
    case h_1 e he =>
      obtain ⟨hpending, hfinished, hvisitor⟩ :=
        hs.settled hdone he (hcb e (mem_of_getElem? he))
      exact SyncPlace.owed_eq_zero (h.good i e he).shaped hpending hfinished hvisitor .obj
    case h_2 => rfl
  rw [h.refcount, hsum, initialOwed, if_pos hdone, htimer]
  rfl

/-- What holds of a sync object `t` that was `s` when it was built, or while it was. -/
structure ReferencesBalanced (s t : KgslSyncobj) : Prop where
  /-- No reference is dropped twice. -/
  at_most_once : ∀ (i : ℕ) (e : SyncEvent), t.synclist[i]? = some e → ∀ k, (e.log k).puts ≤ 1
  /-- A sync point that nobody is at has dropped each of its references. -/
  exactly_once : ∀ (i : ℕ) (e : SyncEvent), t.synclist[i]? = some e → Settled t i e →
    ∀ k, (e.log k).puts = references e.type k
  /-- The object is freed once, when its count is zero. -/
  freed : t.freed = if t.refcount = 0 then 1 else 0
  /-- That is when the destroy and all callbacks are through, and then all is dropped. -/
  freed_iff : t.freed = 1 ↔ t.destroyer = .done ∧ t.timerHolds = false ∧
    ∀ e ∈ t.synclist, e.cb.finished = true
  freed_settled : t.freed = 1 → ∀ (i : ℕ) (e : SyncEvent), t.synclist[i]? = some e →
    Settled t i e
  /-- Without a destroy the dispatcher is called after the last bit is cleared, as soon as the
  callbacks that cleared a bit have seen to it. -/
  scheduled : t.destroyer = .notStarted → t.eventsPending = false →
    (∀ e ∈ t.synclist, kicking e.cb = false) →
      (∀ k, t.trace.head? ≠ some (.expired k)) ∧
        (s.eventsPending = true → t.trace.head? = some .sched)

/-- For every sync object, built with any sync points while their callbacks run already, and every
interleaving of the callbacks, of cancellations and of the destroy. -/
theorem references_balanced {s t : KgslSyncobj} (hbuilt : Runs create s) (hrun : Unwinds s t) :
    ReferencesBalanced s t := by
  obtain ⟨hbalanced, hdispatch⟩ := invariants_of_runs (hbuilt.trans hrun.runs)
  have hzero : t.freed = 1 ↔ t.refcount = 0 := by
    rw [hbalanced.freed]
    split
    case isTrue h => exact iff_of_true rfl h
    case isFalse h => exact iff_of_false (by decide) h
  have hfreed : t.freed = 1 ↔ t.destroyer = .done ∧ t.timerHolds = false ∧
      ∀ e ∈ t.synclist, e.cb.finished = true :=
    hzero.trans ⟨hbalanced.of_freed, fun ⟨hdone, htimer, hcb⟩ =>
      hbalanced.refcount_eq_zero hdispatch hdone htimer hcb⟩
  exact
    { at_most_once := fun i e he => hbalanced.puts_le_one he
      exactly_once := fun i e he => hbalanced.settled he
      freed := hbalanced.freed
      freed_iff := hfreed
      freed_settled := by
        intro h i e he
        obtain ⟨hdone, -, hcb⟩ := hfreed.mp h
        exact hdispatch.settled hdone he (hcb e (mem_of_getElem? he))
      scheduled := by
        intro hnot hclear hquiet
        have hexpired : ∀ k, t.trace.head? ≠ some (.expired k) := by
          intro k hhead
          obtain ⟨e, he, hcb⟩ := hdispatch.expired hnot hclear k hhead
          rw [hquiet e he] at hcb
          cases hcb
        refine ⟨hexpired, ?_⟩
        intro hpending
        have hkicked : Kicked t := by
          have hstart : Kicked s := fun _ => Or.inl hpending
          exact invariant_of_guarded (fun _ _ hinv hop => hinv.step hop) hstart hrun
        rcases hkicked hnot with hset | ⟨k, hhead⟩ | hhead
        · rw [hclear] at hset
          cases hset
        · exact absurd hhead (hexpired k)
        · exact hhead }

def sampleBuild : List Op :=
  [.addSync .timestamp, .addStep .listed, .addStep .listed, .addSync .fence, .addStep .listed,
    .addStep .listed, .signal 1, .callback 1, .addSync .timeline, .addStep .listed,
    .addStep .listed, .callback 1, .callback 1, .addStep .listed]

def sampleUnwind : List Op :=
  [.timerArm, .timerFire, .signal 0, .timerPut, .callback 0, .destroy, .destroy, .callback 0,
    .callback 0, .destroy, .destroy, .destroy, .destroy, .destroy, .destroy, .destroy, .destroy,
    .destroy, .destroy, .callback 0]

theorem references_balanced_sample :
    let s := sampleBuild.foldl step create
    let t := sampleUnwind.foldl step s
    t.freed = 1 ∧ t.synclist.length = 3 ∧ ReferencesBalanced s t :=
  ⟨by decide +kernel, by decide +kernel,
    references_balanced (guarded_foldl (by decide +kernel)) (guarded_foldl (by decide +kernel))⟩

end KgslSyncobj

end QcomModules.Kgsl
