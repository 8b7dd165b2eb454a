import QcomModules.CamSync.Callbacks

/-! User payloads in runs that destroy no object. A payload that is registered for a merged object
whose row looks signaled while children remain gets its event too early. -/

namespace QcomModules.CamSync

open Library Relation List

/-! ## Runs -/

/-- The next section registers a payload for a row that is signaled and has more to come. -/
def SyncPc.registersEarly (d : SyncDevice) : SyncPc → Bool
  | .enter (.registerUserPayload obj _) =>
    (d.table obj).state.signaled && !decide ((d.table obj).remaining = 0)
  | _ => false

theorem payloads_delivered {s : SyncSystem}
    (hrun : ReflTransGen (GuardedStep (ThreadSystem.StepOk (fun op => op.keeps = true)
      fun d _ pc => pc.registersEarly d = false) syncSystem.step) SyncSystem.probe s) :
    Linked s.shared s.pcs ∧ Settled s.shared s.pcs ∧ Delivered payloadKind s.shared s.pcs := by
  apply keep_of_run (fun _ _ _ hperm h => h.perm hperm) (fun _ _ op h => h.start _) _ _ hrun
  · intro choice d pc pcs h hlinked hsettled henabled hok
    by_cases hregisters : pc.registers = true
    · cases pc with
      | enter op =>
        cases op with
        | registerCallback obj cb =>
          exact h.payloads_registerCallback (fun _ _ _ => SyncPc.noConfusion) obj cb _
        | registerUserPayload obj payload =>
          apply h.registerUserPayload (fun _ _ _ => SyncPc.noConfusion) obj payload _
            (SyncPc.unlocked_of_enabled henabled rfl)
          intro hsignaled
          rw [SyncPc.registersEarly, hsignaled, Bool.true_and, Bool.not_eq_false',
            decide_eq_true_eq] at hok
          exact hok
        | _ => cases hregisters
      | _ => cases hregisters
    · exact h.act hsettled hlinked henabled (Bool.not_eq_true _ ▸ hregisters)
  · exact ⟨.probe, .probe, fun obj => .of_empty rfl rfl rfl⟩

/-! ## Events -/

/-- The payloads of an object: no event before the object has its final state, for a merged object
not before all its children are signaled; one event for each payload when it has, but for a signal
between its two sections; and the state in it is the one that the object keeps. -/
structure SyncSystem.Informs (s : SyncSystem) (obj : ℕ) : Prop where
  early : ∀ e ∈ s.shared.events, e.syncObj = obj → s.shared.Final obj
  children : ∀ objs, .merged obj objs ∈ s.pcs → ∀ e ∈ s.shared.events, e.syncObj = obj →
    ∀ child ∈ objs, (s.shared.table child).state.signaled = true
  once : s.shared.Final obj → ¬Gap s.pcs obj →
    ((s.shared.payloads.filter (·.1 = obj)).map Prod.snd).Perm
      ((s.shared.events.filter (·.syncObj = obj)).map SyncEvent.payload)
  status : ∀ e ∈ s.shared.events, e.syncObj = obj → ∀ s' : SyncSystem,
    ReflTransGen (GuardedStep (ThreadSystem.StepOk (fun op => op.keeps = true)
      fun _ _ _ => True) syncSystem.step) s s' → (s'.shared.table obj).state = e.status

/-- In every run that destroys no object and registers no payload for a merged object that looks
signaled while children remain, each payload is told the final state once. -/
theorem payloads_inform {s : SyncSystem}
    (hrun : ReflTransGen (GuardedStep (ThreadSystem.StepOk (fun op => op.keeps = true)
      fun d _ pc => pc.registersEarly d = false) syncSystem.step) SyncSystem.probe s) (obj : ℕ) :
    s.Informs obj := by
  obtain ⟨hlinked, hsettled, hdelivered⟩ := payloads_delivered hrun
  have hok := hdelivered obj
  have hsent : ∀ e ∈ s.shared.events, e.syncObj = obj →
      (e.payload, e.status) ∈ payloadKind.sent s.shared obj := by
    intro e he hobj
    exact mem_map_of_mem (mem_filter.mpr ⟨he, decide_eq_true hobj⟩)
  have hfinal : ∀ e ∈ s.shared.events, e.syncObj = obj → s.shared.Final obj := by
    intro e he hobj
    exact hok.early (ne_nil_of_mem (hsent e he hobj))
  refine ⟨hfinal, ?_, ?_, ?_⟩
  · intro objs hmerged e he hobj child hchild
    obtain ⟨hlive, -, rfl⟩ := hsettled.merged obj objs hmerged
    have hall := (hsettled.remaining_zero hlinked hlive).mp (hfinal e he hobj).2.1
    exact (hall child hchild).1
  · intro hnow hgap
    have hbalance := hok.balance
    rw [hok.drained hnow hgap, nil_append] at hbalance
    apply hbalance.trans
    have hmap : (payloadKind.sent s.shared obj).map Prod.fst =
        (s.shared.events.filter (·.syncObj = obj)).map SyncEvent.payload := List.map_map
    exact Perm.of_eq hmap
  · intro e he hobj s' hlater
    have hstays := final_stays hlinked hsettled (hfinal e he hobj) hlater
    exact hstays.2.trans (hok.status _ (hsent e he hobj)).symm

/-- A payload that is registered before the signals, and another one after them. -/
def payloadsAround : List SyncInput :=
  mergeOfTwo ++ .start (.getObjRef 2) :: sections 5 1 ++
  .start (.registerUserPayload 4 (7, 8)) :: sections 6 1 ++
  .start (.signal 1 2 0) :: sections 7 3 ++ .start (.signal 2 3 0) :: sections 8 3 ++
  .start (.registerUserPayload 4 (9, 10)) :: sections 9 1

theorem payloads_inform_payloadsAround :
    SyncSystem.Informs (payloadsAround.foldl syncSystem.step SyncSystem.probe) 4 :=
  payloads_inform (guarded_foldl (by decide +kernel)) 4

/-- A payload that is registered after the first of two signals. -/
def payloadBetween : List SyncInput :=
  mergeOfTwo ++ .start (.signal 1 2 0) :: sections 5 3 ++
  .start (.registerUserPayload 4 (7, 8)) :: sections 6 1

theorem payloadBetween_informs_early :
    ¬ ∀ s : SyncSystem, ReflTransGen (GuardedStep (ThreadSystem.StepOk (fun op => op.keeps = true)
        fun _ _ _ => True) syncSystem.step) SyncSystem.probe s → ∀ obj, s.Informs obj := by
  intro h
  have hrun : ReflTransGen (GuardedStep (ThreadSystem.StepOk (fun op => op.keeps = true)
      fun _ _ _ => True) syncSystem.step) SyncSystem.probe
      (payloadBetween.foldl syncSystem.step SyncSystem.probe) :=
    guarded_foldl (by decide +kernel)
  have hchild := (h _ hrun 4).children [1, 2] (by decide +kernel)
    ⟨4, .signaledSuccess, (7, 8), regPayloadEvent⟩ (by decide +kernel) rfl 2 (by decide +kernel)
  revert hchild
  decide +kernel

end QcomModules.CamSync
