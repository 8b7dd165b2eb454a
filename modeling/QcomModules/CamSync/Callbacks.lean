import QcomModules.CamSync.Registrations

/-! Merged objects in runs that destroy no object: when the count reaches zero, which state the
object has then, and what its callbacks are told. -/

namespace QcomModules.CamSync

open Library Relation List SyncDevice

/-! ## The final state stays -/

/-- All that makes a state final is the same for the object. -/
structure SameFate (d d' : SyncDevice) (obj : ℕ) : Prop where
  state : (d'.table obj).state = (d.table obj).state
  remaining : (d'.table obj).remaining = (d.table obj).remaining
  rowLocked : d'.rowLocked obj = d.rowLocked obj

section Fate

variable {d d' d'' : SyncDevice} {pc : SyncPc} {pcs : List SyncPc} {choice : SyncChoice}
  {obj idx : ℕ} {row : SyncRow}

theorem SameFate.refl (d : SyncDevice) (obj : ℕ) : SameFate d d obj := ⟨rfl, rfl, rfl⟩

theorem SameFate.trans (h : SameFate d d' obj) (h' : SameFate d' d'' obj) : SameFate d d'' obj :=
  ⟨h'.state.trans h.state, h'.remaining.trans h.remaining, h'.rowLocked.trans h.rowLocked⟩

theorem SameFate.of_sameStates (h : d.SameStates d') : SameFate d d' obj :=
  ⟨(h.rows obj).state, (h.rows obj).remaining, congrFun h.rowLocked obj⟩

theorem SameFate.setRow_of_ne (hne : obj ≠ idx) : SameFate d (d.setRow idx row) obj := by
  have hrow := @setRow_table_of_ne d idx obj row hne
  exact ⟨congrArg SyncRow.state hrow, congrArg SyncRow.remaining hrow, rfl⟩

theorem SameFate.setRow (hstate : row.state = (d.table idx).state)
    (hremaining : row.remaining = (d.table idx).remaining) :
    SameFate d (d.setRow idx row) obj := by
  by_cases hobj : obj = idx
  · subst hobj
    have hrow := @setRow_table_self d obj row
    exact ⟨(congrArg SyncRow.state hrow).trans hstate,
      (congrArg SyncRow.remaining hrow).trans hremaining, rfl⟩
  · exact .setRow_of_ne hobj

theorem SameFate.final (h : SameFate d d' obj) (hfinal : d.Final obj) : d'.Final obj := by
  rw [SyncDevice.Final, h.state, h.remaining, h.rowLocked]
  exact hfinal

theorem SyncDevice.Final.ne_of_active (h : d.Final obj) (hactive : (d.table idx).state = .active) :
    obj ≠ idx := by
  intro heq
  have hsignaled := h.1
  rw [heq, hactive] at hsignaled
  cases hsignaled

theorem SyncDevice.Final.ne_of_locked (h : d.Final obj) (hlocked : d.rowLocked idx = true) :
    obj ≠ idx := by
  intro heq
  have hunlocked := h.2.2
  rw [heq, hlocked] at hunlocked
  cases hunlocked

theorem SyncDevice.Final.ne_of_invalid (h : d.Final obj)
    (hinvalid : (d.table idx).state = .invalid) : obj ≠ idx := by
  intro heq
  have hsignaled := h.1
  rw [heq, hinvalid] at hsignaled
  cases hsignaled

variable {status : SyncState} {cause child : ℕ}

theorem SameFate.finishSignal : SameFate d (d.finishSignal idx status cause).1 obj := by
  have hdispatch : SameFate d (d.dispatchSignaledCb idx status cause) obj :=
    .of_sameStates (dispatchSignaledCb_sameObjects d idx status cause).sameStates
  exact hdispatch.trans (.setRow rfl rfl)

theorem SyncDevice.Final.effect {out : SyncDevice × SyncPc} (h : d.Final obj)
    (heffect : SectionEffect d pc out) : SameFate d out.1 obj := by
  induction heffect with
  | goesOn => exact .refl d obj
  | notes idx refCnt synxObj => exact .setRow rfl rfl
  | registers _ hsame => exact .of_sameStates hsame.sameStates
  | signals idx refCnt status cause _ hactive _ => exact .setRow_of_ne (h.ne_of_active hactive)
  | finishes _ _ _ ih => exact ih.trans .finishSignal

theorem SyncDevice.Final.linkChild (h : d.Final obj) {linked todo : List ℕ} (hne : obj ≠ idx) :
    SameFate d (d.linkChild idx linked child todo choice).1 obj := by
  have hnext : SameFate d (d.setMembers idx (linked ++ [child])) obj := ⟨rfl, rfl, rfl⟩
  rw [SyncDevice.linkChild]
  split
  · exact .setRow_of_ne hne
  split
  · exact hnext.trans (.setRow_of_ne hne)
  split
  · exact hnext
  split
  · exact (SameFate.setRow_of_ne hne).trans (.setRow_of_ne hne)
  split
  · exact (SameFate.setRow_of_ne hne).trans (.setRow_of_ne hne)
  · rename_i hactive _ _
    have hchild : obj ≠ child := h.ne_of_active (not_not.mp hactive)
    exact (hnext.trans (.setRow_of_ne hne)).trans (.setRow_of_ne hchild)

theorem SyncDevice.Final.signalParent {parent : ℕ} {parents : List ℕ} (h : d.Final obj)
    (hsettled : Settled d (.signalParents child status cause (parent :: parents) :: pcs))
    (hlinked : Linked d (.signalParents child status cause (parent :: parents) :: pcs))
    (hlocked : d.rowLocked parent = false) :
    SameFate d (d.signalParent parent status cause) obj := by
  have hne : obj ≠ parent := by
    intro heq
    exact remaining_ne_zero hsettled hlinked hlocked (heq ▸ h.2.1)
  rw [SyncDevice.signalParent]
  split
  · exact .setRow_of_ne hne
  split
  · exact (SameFate.setRow_of_ne hne).trans
      (.of_sameStates (dispatchSignaledCb_sameObjects _ parent _ cause).sameStates)
  · exact .setRow_of_ne hne

theorem SyncDevice.Final.act (h : d.Final obj) (hsettled : Settled d (pc :: pcs))
    (hlinked : Linked d (pc :: pcs)) (henabled : syncSystem.enabled d pc = true) :
    SameFate d (d.act choice pc).1 obj := by
  have hkeeps := hsettled.noDestroy pc mem_cons_self
  have hgood := hlinked.wellFormed pc mem_cons_self
  cases pc with
  | enter op =>
    cases op with
    | destroy obj => cases hkeeps
    | _ => exact h.effect (enter_effect choice henabled rfl)
  | finding new => exact h.effect (finding_effect hgood)
  | mergeCheck checked todo => exact h.effect (mergeCheck_effect hgood)
  | found idx new =>
    rw [SyncDevice.act]
    split
    · exact .refl d obj
    · exact ⟨rfl, rfl, rfl⟩
  | owning idx new =>
    have hne := h.ne_of_invalid (hlinked.sole_owner (beq_self_eq_true idx)).1
    cases new with
    | indv synx dma =>
      rw [SyncDevice.act, SyncDevice.createRow]
      split
      · exact ⟨rfl, rfl, rfl⟩
      · exact .setRow_of_ne hne
    | group objs =>
      have hlock := @setLock_rowLocked_of_ne d idx obj true hne
      exact ⟨congrArg SyncRow.state (setRow_table_of_ne hne),
        congrArg SyncRow.remaining (setRow_table_of_ne hne), hlock⟩
  | signalSynx idx status cause => exact .finishSignal
  | signalParents child status cause parents =>
    cases parents with
    | nil => exact .refl d obj
    | cons parent parents =>
      exact h.signalParent hsettled hlinked (SyncPc.unlocked_of_enabled henabled rfl)
  | mergeLink idx linked todo =>
    have hne := h.ne_of_locked (hlinked.sole_holder (beq_self_eq_true idx)).1
    cases todo with
    | nil =>
      have hrow := @setRow_table_of_ne d idx obj
        (if (d.table idx).remaining = 0 ∧ (d.table idx).state.failed = false then
          { d.table idx with state := .signaledSuccess } else d.table idx) hne
      have hlock := @setLock_rowLocked_of_ne d idx obj false hne
      exact ⟨congrArg SyncRow.state hrow, congrArg SyncRow.remaining hrow, hlock⟩
    | cons child todo => exact h.linkChild hne
  | mergeClean idx todo =>
    cases todo with
    | nil =>
      have hclean : SameFate d (d.setRow idx { d.table idx with childrenList := [] }) obj :=
        .setRow rfl rfl
      exact ⟨hclean.state, hclean.remaining, hclean.rowLocked⟩
    | cons child todo =>
      apply SameFate.setRow
      · rfl
      · rfl
  | destroyLinks idx children parents => cases hkeeps
  | returned rc => exact .refl d obj
  | created idx => exact .refl d obj
  | mergeLeaked idx => exact .refl d obj
  | merged idx objs => exact .refl d obj

end Fate

variable {s : SyncSystem}

theorem final_stays {ok : SyncDevice → SyncPc → Prop} {s' : SyncSystem} {obj : ℕ}
    (hlinked : Linked s.shared s.pcs) (hsettled : Settled s.shared s.pcs)
    (hfinal : s.shared.Final obj)
    (hrun : ReflTransGen (GuardedStep (ThreadSystem.StepOk (fun op => op.keeps = true)
      fun d _ pc => ok d pc) syncSystem.step) s s') :
    s'.shared.Final obj ∧ (s'.shared.table obj).state = (s.shared.table obj).state := by
  have hinit : s.shared.Final obj ∧ (s.shared.table obj).state = (s.shared.table obj).state :=
    ⟨hfinal, rfl⟩
  refine (@keep_of_run (fun d _ => d.Final obj ∧ (d.table obj).state = (s.shared.table obj).state)
    _ (fun _ _ _ _ h => h) (fun _ _ _ h => h) ?_ _ _ ⟨hlinked, hsettled, hinit⟩ hrun).2.2
  intro choice d pc pcs h hlinked hsettled henabled _
  have hfate : SameFate d (d.act choice pc).1 obj := h.1.act hsettled hlinked henabled
  exact ⟨hfate.final h.1, hfate.state.trans h.2⟩

/-! ## Merged objects -/

theorem callbacks_delivered
    (hrun : ReflTransGen (GuardedStep (ThreadSystem.StepOk (fun op => op.keeps = true)
      fun _ _ _ => True) syncSystem.step) SyncSystem.probe s) :
    Linked s.shared s.pcs ∧ Settled s.shared s.pcs ∧
      Delivered callbackKind s.shared s.pcs := by
  apply keep_of_run (fun _ _ _ hperm h => h.perm hperm) (fun _ _ op h => h.start _) _ _ hrun
  · intro choice d pc pcs h hlinked hsettled henabled _
    by_cases hregisters : pc.registers = true
    · cases pc with
      | enter op =>
        cases op with
        | registerCallback obj cb =>
          exact h.registerCallback (fun _ _ _ => SyncPc.noConfusion) obj cb _
            (SyncPc.unlocked_of_enabled henabled rfl)
        | registerUserPayload obj payload =>
          exact h.callbacks_registerUserPayload (fun _ _ _ => SyncPc.noConfusion) obj payload _
        | _ => cases hregisters
      | _ => cases hregisters
    · exact h.act hsettled hlinked henabled (Bool.not_eq_true _ ▸ hregisters)
  · exact ⟨.probe, .probe, fun obj => .of_empty rfl rfl rfl⟩

/-- A merged object and its callbacks: the object is through when each child is signaled and its
signal has gone up, no callback is dispatched before, each one is dispatched once then, with the
state that the object has from then on. -/
structure SyncSystem.Completes (s : SyncSystem) (idx : ℕ) (objs : List ℕ) : Prop where
  remaining : (s.shared.table idx).remaining = 0 ↔ ∀ child ∈ objs,
    (s.shared.table child).state.signaled = true ∧ ¬NotPropagated s.shared s.pcs child idx
  early : (s.shared.table idx).remaining ≠ 0 → ∀ e ∈ s.shared.dispatched, e.syncObj ≠ idx
  once : (s.shared.table idx).remaining = 0 →
    ((s.shared.registered.filter (·.1 = idx)).map Prod.snd).Perm
      ((s.shared.dispatched.filter (·.syncObj = idx)).map SyncDispatch.callback)
  status : ∀ e ∈ s.shared.dispatched, e.syncObj = idx → e.status = (s.shared.table idx).state
  success : (s.shared.table idx).remaining = 0 →
    ((s.shared.table idx).state = .signaledSuccess ↔
      ∀ child ∈ objs, (s.shared.table child).state = .signaledSuccess)
  final : (s.shared.table idx).remaining = 0 → ∀ s' : SyncSystem,
    ReflTransGen (GuardedStep (ThreadSystem.StepOk (fun op => op.keeps = true)
      fun _ _ _ => True) syncSystem.step) s s' →
    (s'.shared.table idx).remaining = 0 ∧
      (s'.shared.table idx).state = (s.shared.table idx).state

section Completes

variable {d : SyncDevice} {pcs : List SyncPc} {idx : ℕ} {objs : List ℕ}

theorem Linked.remaining_zero (h : Linked d pcs) (hlive : d.Live idx) :
    (d.table idx).remaining = 0 ↔ ∀ child ∈ d.members idx, pending d pcs child idx = 0 := by
  have hcounted := h.counted idx hlive
  constructor
  · intro hzero child hmem
    rw [hzero] at hcounted
    have hnot := countP_eq_zero.mp hcounted.symm child hmem
    rw [decide_eq_true_eq] at hnot
    exact Nat.eq_zero_of_not_pos hnot
  · intro hnone
    apply UInt32.toNat_inj.mp
    rw [hcounted]
    apply countP_eq_zero.mpr
    intro child hmem
    rw [decide_eq_true_eq, hnone child hmem]
    exact Nat.lt_irrefl 0

theorem not_notPropagated_iff {child : ℕ} :
    ¬NotPropagated d pcs child idx ↔ pending d pcs child idx = 0 := by
  rw [notPropagated_iff, Nat.pos_iff_ne_zero, not_not]

theorem Settled.remaining_zero (h : Settled d pcs) (hlinked : Linked d pcs) (hlive : d.Live idx) :
    (d.table idx).remaining = 0 ↔ ∀ child ∈ d.members idx,
      (d.table child).state.signaled = true ∧ ¬NotPropagated d pcs child idx := by
  rw [hlinked.remaining_zero hlive]
  constructor
  · intro hnone child hmem
    exact ⟨(h.member idx child hlive hmem).2.2 (hnone child hmem),
      not_notPropagated_iff.mpr (hnone child hmem)⟩
  · intro hall child hmem
    exact not_notPropagated_iff.mp (hall child hmem).2

variable {state : SyncState}

theorem SyncState.signaled_cases (h : state.signaled = true) :
    state = .signaledSuccess ∨ state.failed = true := by
  cases state <;> first | exact .inl rfl | exact .inr rfl | cases h

theorem SyncState.success_of_not_failed (h : state.signaled = true)
    (hfailed : ¬state.failed = true) : state = .signaledSuccess :=
  (SyncState.signaled_cases h).resolve_right hfailed

theorem Settled.final_of_remaining_zero (h : Settled d pcs) (hlive : d.Live idx)
    (hunlocked : d.rowLocked idx = false) (hzero : (d.table idx).remaining = 0) :
    d.Final idx := by
  refine ⟨?_, hzero, hunlocked⟩
  have hactive := h.settled idx hlive hunlocked hzero
  have hvalid := hlive.2
  cases hstate : (d.table idx).state with
  | invalid => exact absurd hstate hvalid
  | active => exact absurd hstate hactive
  | signaledSuccess => rfl
  | signaledError => rfl
  | signaledCancel => rfl

theorem Settled.success (h : Settled d pcs) (hlinked : Linked d pcs) (hlive : d.Live idx)
    (hunlocked : d.rowLocked idx = false) (hzero : (d.table idx).remaining = 0) :
    (d.table idx).state = .signaledSuccess ↔
      ∀ child ∈ d.members idx, (d.table child).state = .signaledSuccess := by
  have hnone := (hlinked.remaining_zero hlive).mp hzero
  have hfailed := h.failed idx hlive
  constructor
  · intro hsuccess child hmem
    apply SyncState.success_of_not_failed ((h.member idx child hlive hmem).2.2 (hnone child hmem))
    intro hchild
    have hidx := hfailed.mpr ⟨child, hmem, hnone child hmem, hchild⟩
    rw [hsuccess] at hidx
    cases hidx
  · intro hall
    apply SyncState.success_of_not_failed (h.final_of_remaining_zero hlive hunlocked hzero).1
    intro hidx
    obtain ⟨child, hmem, -, hchild⟩ := hfailed.mp hidx
    rw [hall child hmem] at hchild
    cases hchild

end Completes

/-- In every run that destroys no object, each merged object completes. -/
theorem merged_completes {s : SyncSystem}
    (hrun : ReflTransGen (GuardedStep (ThreadSystem.StepOk (fun op => op.keeps = true)
      fun _ _ _ => True) syncSystem.step) SyncSystem.probe s) {idx : ℕ} {objs : List ℕ}
    (hmerged : .merged idx objs ∈ s.pcs) : s.Completes idx objs := by
  obtain ⟨hlinked, hsettled, hdelivered⟩ := callbacks_delivered hrun
  obtain ⟨hlive, hunlocked, rfl⟩ := hsettled.merged idx objs hmerged
  have hok := hdelivered idx
  have hsent : ∀ e ∈ s.shared.dispatched, e.syncObj = idx →
      (e.callback, e.status) ∈ callbackKind.sent s.shared idx := by
    intro e he hobj
    exact mem_map_of_mem (mem_filter.mpr ⟨he, decide_eq_true hobj⟩)
  refine ⟨hsettled.remaining_zero hlinked hlive, ?_, ?_, ?_,
    hsettled.success hlinked hlive hunlocked, ?_⟩
  · intro hremains e he hobj
    exact hremains (hok.early (ne_nil_of_mem (hsent e he hobj))).2.1
  · intro hzero
    have hfinal := hsettled.final_of_remaining_zero hlive hunlocked hzero
    have hgap : ¬Gap s.pcs idx := by
      intro hgap
      obtain ⟨status, cause, hmem⟩ := hgap
      have hindv := (hsettled.signaling _ hmem idx status rfl).1
      rw [hlive.1] at hindv
      cases hindv
    have hbalance := hok.balance
    rw [hok.drained hfinal hgap, nil_append] at hbalance
    apply hbalance.trans
    have hmap : (callbackKind.sent s.shared idx).map Prod.fst =
        (s.shared.dispatched.filter (·.syncObj = idx)).map SyncDispatch.callback :=
      List.map_map
    exact Perm.of_eq hmap
  · intro e he hobj
    exact hok.status _ (hsent e he hobj)
  · intro hzero s' hlater
    have hstays := final_stays hlinked hsettled
      (hsettled.final_of_remaining_zero hlive hunlocked hzero) hlater
    exact ⟨hstays.1.2.1, hstays.2⟩

/-- A merge of two objects with a callback, and a signal of each of the two. -/
def bothSignaled : List SyncInput :=
  mergeOfTwo ++ .start (.getObjRef 2) :: sections 5 1 ++
  .start (.registerCallback 4 ⟨7, 8⟩) :: sections 6 1 ++
  .start (.signal 1 2 0) :: sections 7 3 ++ .start (.signal 2 3 0) :: sections 8 3

theorem merged_completes_bothSignaled :
    SyncSystem.Completes (bothSignaled.foldl syncSystem.step SyncSystem.probe) 4 [1, 2] :=
  merged_completes (guarded_foldl (by decide +kernel)) (by decide +kernel)

end QcomModules.CamSync
