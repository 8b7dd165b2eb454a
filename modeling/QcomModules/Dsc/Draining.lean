import QcomModules.Dsc.Exclusion

/-! A wait for operations that has returned has drained the tree below its transition, and it stays
drained: all levels refuse operations while the transition is active. -/

namespace QcomModules.Dsc

open Library List

variable {P V C D : Type*}

def DscTree.Below (tree : DscTree P V) (n m : DscNode P V) : Prop := n = m ∨ tree.Above n m

theorem DscTree.Below.near {tree : DscTree P V} {n m : DscNode P V} (h : tree.Below n m) :
    tree.Near m n := by
  rcases h with rfl | h
  · exact tree.near_refl n
  · exact .inr (.inr h)

theorem DscTree.mem_waitOrder {tree : DscTree P V} {n m : DscNode P V} (h : tree.Below n m) :
    m ∈ tree.waitOrder n := by
  rcases h with rfl | h
  · cases n <;> exact mem_cons_self
  · cases n with
    | vdev _ => cases m <;> exact h.elim
    | psoc psoc =>
      cases m with
      | driver | psoc _ => exact h.elim
      | vdev vdev =>
        exact mem_cons_of_mem _ (mem_map_of_mem ((tree.mem_vdevs _ _).mpr h))
    | driver =>
      refine mem_cons_of_mem _ (mem_flatMap.mpr ?_)
      cases m with
      | driver => exact h.elim
      | psoc psoc => exact ⟨psoc, tree.mem_psocs psoc, mem_cons_self⟩
      | vdev vdev =>
        exact ⟨tree.psocOf vdev, tree.mem_psocs _,
          mem_cons_of_mem _ (mem_map_of_mem ((tree.mem_vdevs _ _).mpr rfl))⟩

namespace DscState

variable {tree : DscTree P V}

/-- How far a wait for operations below a node has come: what it has visited is drained, and the
event that it waits for is set only when its node is drained. -/
def DrainOk (tree : DscTree P V) (s : DscState P V C D) (n : DscNode P V) : OpsWait P V → Prop
  | .notCalled => True
  | .sampling todo => ∀ m, tree.Below n m → m ∈ todo ∨ (s.ops m).count = 0
  | .waiting k todo => ∀ m, tree.Below n m → m ∈ todo ∨ (s.ops m).count = 0 ∨
      m = k ∧ ((s.ops k).event = true → (s.ops k).count = 0)
  | .returned => ∀ m, tree.Below n m → (s.ops m).count = 0

theorem DrainOk.mono {s s' : DscState P V C D} {n : DscNode P V} {wait : OpsWait P V}
    (h : s.DrainOk tree n wait)
    (hcount : ∀ m, tree.Below n m → (s.ops m).count = 0 → (s'.ops m).count = 0)
    (hevent : ∀ m, tree.Below n m → (s'.ops m).event = true →
      (s.ops m).event = true ∨ (s'.ops m).count = 0) : s'.DrainOk tree n wait := by
  cases wait with
  | notCalled => exact trivial
  | sampling todo => exact fun m hm => (h m hm).imp_right (hcount m hm)
  | returned => exact fun m hm => hcount m hm (h m hm)
  | waiting k todo =>
    intro m hm
    rcases h m hm with hmem | hzero | ⟨rfl, hset⟩
    · exact .inl hmem
    · exact .inr (.inl (hcount m hm hzero))
    · refine .inr (.inr ⟨rfl, fun hset' => ?_⟩)
      rcases hevent m hm hset' with hold | hzero
      · exact hcount m hm (hset hold)
      · exact hzero

/-- Every wait of a transition's holder is on its way. -/
def Draining (tree : DscTree P V) (s : DscState P V C D) : Prop :=
  ∀ c n d wait, s.calls c = .holding n d wait → s.DrainOk tree n wait

theorem Draining.congr {s s' : DscState P V C D} (h : s.Draining tree) (hops : s'.ops = s.ops)
    (hcalls : ∀ c n d wait, s'.calls c = .holding n d wait → wait ≠ .notCalled →
      s.calls c = .holding n d wait) : s'.Draining tree := by
  intro c n d wait hc
  by_cases hwait : wait = .notCalled
  · subst hwait
    exact trivial
  · have hold := h c n d wait (hcalls c n d wait hc hwait)
    refine hold.mono (fun m _ hzero => ?_) (fun m _ hset => .inl ?_)
    · rwa [hops]
    · rwa [hops] at hset

variable [DecidableEq P] [DecidableEq V] {s : DscState P V C D}

/-! ## Operations -/

theorem Draining.opStart (h : s.Draining tree) (hsound : s.Sound tree) (platform : QdfPlatform)
    (n : DscNode P V) (memory : Bool) : (opStart tree platform s n memory).2.Draining tree := by
  rw [DscState.opStart]
  split
  · rename_i hcan
    split
    · intro c k d wait hc
      have hclear := canTrans_clear hcan
      -- the node is not below the holder: its check has found no transition near it
      have hne : ∀ m, tree.Below k m → m ≠ n := by
        rintro m hm rfl
        have hactive : (s.trans k).active = true := by
          have hcall : s.calls c = .holding k d wait := hc
          rw [DscTrans.active, hsound.held c k d (by rw [hcall]; rfl)]
          rfl
        exact Bool.false_ne_true ((hclear k hm.near).symm.trans hactive)
      refine (h c k d wait hc).mono (fun m hm hzero => ?_) (fun m hm hset => .inl ?_)
      · simpa [setOps, hne m hm] using hzero
      · simpa [setOps, hne m hm] using hset
    · exact h
  · exact h

theorem Draining.opStop (h : s.Draining tree) (n : DscNode P V) :
    (s.opStop n).Draining tree := by
  intro c k d wait hc
  refine (h c k d wait hc).mono (fun m _ hzero => ?_) (fun m _ hset => ?_)
  · by_cases hmn : m = n
    · subst hmn
      simp [DscState.opStop, setOps, dscAssert, hzero]
    · simpa [DscState.opStop, setOps, dscAssert, hmn] using hzero
  · by_cases hmn : m = n
    · subst hmn
      simp only [DscState.opStop, setOps, dscAssert, Function.update_self, Bool.or_eq_true]
        at hset ⊢
      exact hset.imp_right of_decide_eq_true
    · exact .inl (by simpa [DscState.opStop, setOps, dscAssert, hmn] using hset)

theorem event_of_sample (s : DscState P V C D) (wait : OpsWait P V) (m : DscNode P V)
    (h : ((s.sample wait).1.ops m).event = true) : (s.ops m).event = true := by
  cases wait with
  | notCalled | returned => exact h
  | waiting n todo =>
    rw [DscState.sample] at h
    split at h <;> exact h
  | sampling todo =>
    cases todo with
    | nil => exact h
    | cons n todo =>
      rw [DscState.sample] at h
      split at h
      · by_cases hmn : m = n
        · subst hmn
          simp [setOps] at h
        · simpa [setOps, hmn] using h
      · exact h

variable {wait : OpsWait P V} {n m : DscNode P V} {d : D}

theorem DrainOk.sampled_other (h : s.DrainOk tree n wait) (wait' : OpsWait P V) :
    (s.sample wait').1.DrainOk tree n wait :=
  h.mono (fun m _ hzero => ((sample_frame s wait').2.2.2.2 m).trans hzero)
    (fun m _ hset => .inl (event_of_sample s wait' m hset))

theorem DrainOk.sampled (h : s.DrainOk tree n wait) :
    (s.sample wait).1.DrainOk tree n (s.sample wait).2 := by
  cases wait with
  | notCalled => exact trivial
  | returned => exact h
  | waiting k todo =>
    rw [DscState.sample]
    split
    · rename_i hset
      intro m hm
      rcases h m hm with hmem | hzero | ⟨rfl, hdrained⟩
      · exact .inl hmem
      · exact .inr hzero
      · exact .inr (hdrained hset)
    · exact h
  | sampling todo =>
    cases todo with
    | nil => exact fun m hm => (h m hm).resolve_left not_mem_nil
    | cons k todo =>
      rw [DscState.sample]
      split
      · intro m hm
        by_cases hmk : m = k
        · refine .inr (.inr ⟨hmk, fun hset => ?_⟩)
          simp [setOps] at hset
        · rcases h m hm with hmem | hzero
          · exact .inl ((mem_cons.mp hmem).resolve_left hmk)
          · refine .inr (.inl ?_)
            simpa [setOps, hmk] using hzero
      · rename_i hidle
        intro m hm
        rcases h m hm with hmem | hzero
        · rcases mem_cons.mp hmem with rfl | hmem
          · exact .inr (Nat.eq_zero_of_not_pos hidle)
          · exact .inl hmem
        · exact .inr hzero

variable [DecidableEq C]

/-! ## Steps and runs -/

theorem transTrigger_ops (s : DscState P V C D) (n : DscNode P V) :
    (s.transTrigger n).2.ops = s.ops := by
  cases hqueue : (s.trans n).queue with
  | nil => rw [transTrigger_of_nil hqueue]
  | cons tran queue => rw [transTrigger_of_cons hqueue]; rfl

variable {c : C}

theorem calls_of_transTrigger (h : (s.transTrigger n).2.calls c = .holding m d wait) :
    s.calls c = .holding m d wait := by
  cases hqueue : (s.trans n).queue with
  | nil => rwa [transTrigger_of_nil hqueue] at h
  | cons tran queue =>
    have hcalls : (s.transTrigger n).2.calls =
        Function.update s.calls tran.call (.woken n tran.desc tran.abort) := by
      rw [transTrigger_of_cons hqueue]
      rfl
    rw [hcalls] at h
    by_cases hc : c = tran.call
    · subst hc
      rw [Function.update_self] at h
      cases h
    · rwa [Function.update_of_ne hc] at h

theorem triggers_ops (s : DscState P V C D) (nodes : List (DscNode P V)) :
    (s.triggers nodes).ops = s.ops := by
  induction nodes generalizing s with
  | nil => rfl
  | cons n nodes ih => rw [triggers_cons, ih, transTrigger_ops]

theorem calls_of_triggers {nodes : List (DscNode P V)}
    (h : (s.triggers nodes).calls c = .holding m d wait) : s.calls c = .holding m d wait := by
  induction nodes generalizing s with
  | nil => exact h
  | cons n nodes ih => exact calls_of_transTrigger (ih h)

theorem Draining.perform (h : s.Draining tree) (hsound : s.Sound tree)
    (i : QdfPlatform × DscAction P V C D) : (s.perform tree i).Draining tree := by
  -- a caller set to something else than a wait on its way
  have hset : ∀ (s' : DscState P V C D) c call, s'.ops = s.ops →
      (∀ k n d wait, s'.calls k = .holding n d wait → s.calls k = .holding n d wait) →
      (∀ n d wait, call = .holding n d wait → wait = .notCalled) →
      (s'.setCall c call).Draining tree := by
    refine fun s' c call hops hcalls hcall => h.congr hops fun k n d wait hk hwait => ?_
    by_cases hkc : k = c
    · subst hkc
      rw [setCall_calls_self] at hk
      exact absurd (hcall n d wait hk) hwait
    · rw [setCall_calls_of_ne _ _ hkc] at hk
      exact hcalls k n d wait hk
  have hstop : ∀ c n d, (s.calls c).held = some (n, d) →
      ((s.stop tree n).setCall c .idle).Draining tree := by
    intro c n d hheld
    rw [hsound.stop_eq hheld]
    refine h.congr (triggers_ops _ _) fun k m x wait hk _ => ?_
    have hk' : (s.setCall c .idle).calls k = .holding m x wait :=
      calls_of_triggers (s := (s.setCall c .idle).transStop n) hk
    by_cases hkc : k = c
    · subst hkc
      rw [setCall_calls_self] at hk'
      cases hk'
    · rwa [setCall_calls_of_ne _ _ hkc] at hk'
  obtain ⟨platform, action⟩ := i
  cases action with
  | start c n d =>
    by_cases hcan : canTrans tree platform s n = .success
    · rw [DscState.perform, start_of_success hcan]
      exact hset _ c _ rfl (fun _ _ _ _ hk => hk) fun _ _ _ hcall =>
        (DscCall.holding.inj hcall).2.2.symm
    · rw [DscState.perform, start_of_refused hcan]
      exact h
  | startWait c n d =>
    rw [DscState.perform]
    rcases startWait_cases tree platform s c n d with ⟨-, heq⟩ | ⟨-, heq⟩ | ⟨-, -, heq⟩
    · rw [heq]
      exact hset _ c _ rfl (fun _ _ _ _ hk => hk) fun _ _ _ hcall =>
        (DscCall.holding.inj hcall).2.2.symm
    · rwa [heq]
    · rw [heq]
      exact hset _ c _ rfl (fun _ _ _ _ hk => hk) fun _ _ _ hcall => by cases hcall
  | tranWait c =>
    rw [DscState.perform]
    split
    · exact hset s c _ rfl (fun _ _ _ _ hk => hk) fun _ _ _ hcall => by cases hcall
    · exact hset s c _ rfl (fun _ _ _ _ hk => hk) fun _ _ _ hcall =>
        (DscCall.holding.inj hcall).2.2.symm
    · exact h
  | stop c =>
    rw [DscState.perform]
    split
    · rename_i n d hcall
      exact hstop c n d (by rw [hcall]; rfl)
    · rename_i n d hcall
      exact hstop c n d (by rw [hcall]; rfl)
    · exact h
  | opStart n memory => exact h.opStart hsound platform n memory
  | opStop n => exact h.opStop n
  | waitForOps c =>
    rw [DscState.perform]
    split
    · rename_i n d hcall
      intro k m x wait hk
      by_cases hkc : k = c
      · subst hkc
        rw [setCall_calls_self] at hk
        obtain ⟨rfl, rfl, rfl⟩ := DscCall.holding.inj hk
        exact fun m hm => .inl (DscTree.mem_waitOrder hm)
      · rw [setCall_calls_of_ne _ _ hkc] at hk
        exact (h k m x wait hk).mono (fun _ _ hzero => hzero) (fun _ _ hset => .inl hset)
    · exact h
  | poll c order =>
    exact hset s c _ rfl (fun _ _ _ _ hk => hk) fun _ _ _ hcall => by cases hcall
  | sample c =>
    have hother : ∀ wait' call, (∀ m x w, call = .holding m x w →
        (s.sample wait').1.DrainOk tree m w) →
        ((s.sample wait').1.setCall c call).Draining tree := by
      intro wait' call hcall k m x w hk
      by_cases hkc : k = c
      · subst hkc
        rw [setCall_calls_self] at hk
        exact (hcall m x w hk).mono (fun _ _ hzero => hzero) (fun _ _ hset => .inl hset)
      · rw [setCall_calls_of_ne _ _ hkc, (sample_frame s wait').2.1] at hk
        exact ((h k m x w hk).sampled_other wait').mono (fun _ _ hzero => hzero)
          (fun _ _ hset => .inl hset)
    rw [DscState.perform]
    split
    · rename_i n d wait hcall
      have hheld : (s.calls c).held = some (n, d) := by
        rw [hcall]
        rfl
      rw [hsound.waitAssert_eq hheld]
      refine hother wait _ fun m x w hw => ?_
      obtain ⟨rfl, rfl, rfl⟩ := DscCall.holding.inj hw
      exact (h c n d wait hcall).sampled
    · exact hset s c _ rfl (fun _ _ _ _ hk => hk) fun _ _ _ hcall => by cases hcall
    · rename_i wait _ hcall
      exact hother wait _ fun _ _ _ hcall => by cases hcall
    · exact h

theorem Reachable.draining (h : s.Reachable tree) : s.Sound tree ∧ s.Draining tree := by
  have hcreate : (create : DscState P V C D).Sound tree ∧
      (create : DscState P V C D).Draining tree :=
    ⟨Sound.create, fun _ _ _ _ hc => by cases hc⟩
  have hstep : ∀ (s : DscState P V C D) i, s.Sound tree ∧ s.Draining tree → s.Enabled i.2 →
      (s.perform tree i).Sound tree ∧ (s.perform tree i).Draining tree :=
    fun _ i hs hok => ⟨hs.1.perform i hok, hs.2.perform hs.1 i⟩
  exact invariant_of_guarded hstep hcreate h

/-- While a caller holds a transition for which its wait for operations has returned, no operation
is in flight on the node or below it and none can start there; and the counts are those of the
operations in flight, so that no stop of one finds its count at zero. -/
theorem operations_drained (h : s.Reachable tree) :
    (∀ c n d, s.calls c = .holding n d .returned → ∀ m, tree.Below n m →
      (s.ops m).count = 0 ∧ ∀ platform memory, (opStart tree platform s m memory).1 ≠ .success) ∧
    (∀ n, (s.ops n).count = s.inFlight.count n) ∧ s.panicked = false := by
  obtain ⟨hsound, hdraining⟩ := h.draining
  refine ⟨fun c n d hc m hm => ⟨hdraining c n d _ hc m hm, fun platform memory hsuccess => ?_⟩,
    hsound.counted, hsound.noPanic⟩
  have hactive : (s.trans n).active = true := by
    rw [DscTrans.active, hsound.held c n d (by rw [hc]; rfl)]
    rfl
  have hcan : canTrans tree platform s m = .success := by
    rw [DscState.opStart] at hsuccess
    split at hsuccess
    · assumption
    · rename_i hne
      exact absurd hsuccess hne
  exact Bool.false_ne_true ((canTrans_clear hcan n hm.near).symm.trans hactive)

/-- A psoc waits for an operation of one of its vdevs. -/
def psocDrained : List (QdfPlatform × DscAction (Fin 2) (Fin 3) ℕ ℕ) :=
  [.opStart (.vdev 1) true, .start 0 (.psoc 0) 10, .waitForOps 0, .sample 0, .sample 0, .sample 0,
    .opStop (.vdev 1), .sample 0, .sample 0].map fun action => (⟨false, false⟩, action)

theorem operations_drained_psocDrained :
    let s := psocDrained.foldl (DscState.perform .twoPsocs) .create
    (∀ c n d, s.calls c = .holding n d .returned → ∀ m, DscTree.twoPsocs.Below n m →
      (s.ops m).count = 0 ∧
        ∀ platform memory, (opStart .twoPsocs platform s m memory).1 ≠ .success) ∧
    (∀ n, (s.ops n).count = s.inFlight.count n) ∧ s.panicked = false :=
  operations_drained (guarded_foldl (by decide +kernel))

end DscState

end QcomModules.Dsc
