import QcomModules.Dsc.Exclusion

/-! No queue is forgotten: whatever is queued waits for a transition that is active on its branch
of the tree, or behind a queue above it. The waiters of a node start in the order they came. -/

namespace QcomModules.Dsc

open Library List

variable {P V C D : Type*}

namespace DscState

variable {tree : DscTree P V}

/-! ## Waiting for something -/

/-- A stop will come for the queue: of a transition near the node, or for a queue above it. -/
def Covered (tree : DscTree P V) (s : DscState P V C D) (n : DscNode P V) : Prop :=
  (∃ m, tree.Near n m ∧ (s.trans m).active = true) ∨
    ∃ m, tree.Above m n ∧ (s.trans m).queued = true

def NotStranded (tree : DscTree P V) (s : DscState P V C D) : Prop :=
  ∀ n, (s.trans n).queued = true → s.Covered tree n

theorem NotStranded.idle {s : DscState P V C D} (h : s.NotStranded tree)
    (hidle : ∀ n, (s.trans n).active = false) (n : DscNode P V) : (s.trans n).queue = [] := by
  have habove : ∀ n, (s.trans n).queued = true →
      ∃ m, tree.Above m n ∧ (s.trans m).queued = true := by
    intro n hn
    rcases h n hn with ⟨m, -, hactive⟩ | hm
    · exact absurd ((hidle m).symm.trans hactive) Bool.false_ne_true
    · exact hm
  have hdriver : (s.trans .driver).queued ≠ true := by
    intro hqueued
    obtain ⟨m, hm, -⟩ := habove _ hqueued
    cases m <;> exact hm.elim
  have hpsoc : ∀ psoc, (s.trans (.psoc psoc)).queued ≠ true := by
    intro psoc hqueued
    obtain ⟨m, hm, hm'⟩ := habove _ hqueued
    cases m with
    | driver => exact hdriver hm'
    | psoc _ | vdev _ => exact hm.elim
  have hnone : (s.trans n).queued ≠ true := by
    intro hqueued
    obtain ⟨m, hm, hm'⟩ := habove n hqueued
    cases m with
    | driver => exact hdriver hm'
    | psoc psoc => exact hpsoc psoc hm'
    | vdev _ => cases n <;> exact hm.elim
  rwa [ne_eq, DscTrans.queued_iff, not_not] at hnone

theorem toTrigger_covers {s : DscState P V C D} {n m : DscNode P V} (hnear : tree.Near n m)
    (hqueued : (s.trans m).queued = true) :
    (m ∈ s.toTrigger tree n) ∨ s.Covered tree m := by
  have hcovered : ∀ k, ¬ s.Clear tree k → ∃ j, tree.Near k j ∧ (s.trans j).active = true := by
    intro k hk
    simpa [Clear] using hk
  -- the driver's own queue
  have hdriver : (s.trans .driver).queued = true → ∀ rest,
      (m ∈ s.driverFirst tree rest) ∨ s.Covered tree m := by
    intro hdriver rest
    cases m with
    | psoc psoc => exact .inr (.inr ⟨.driver, trivial, hdriver⟩)
    | vdev vdev => exact .inr (.inr ⟨.driver, trivial, hdriver⟩)
    | driver =>
      rw [driverFirst, if_pos hdriver]
      by_cases hcan : s.driverCanTrigger tree = true
      · rw [if_pos hcan]
        exact .inl (mem_singleton_self _)
      · rw [driverCanTrigger_iff] at hcan
        exact .inr (.inl (hcovered _ hcan))
  -- a psoc that passes its turn on to the vdevs
  have hfan : ∀ psoc, m = .psoc psoc ∨ (∃ vdev ∈ tree.vdevs psoc, m = .vdev vdev) →
      (m ∈ s.psocFanOut tree psoc) ∨ s.Covered tree m := by
    rintro psoc hm
    by_cases hpsoc : (s.trans (.psoc psoc)).queued = true
    · rw [psocFanOut, if_pos hpsoc]
      rcases hm with rfl | ⟨vdev, hvdev, rfl⟩
      · exact .inl (mem_singleton_self _)
      · exact .inr (.inr ⟨.psoc psoc, (tree.mem_vdevs _ _).mp hvdev, hpsoc⟩)
    · rw [psocFanOut, if_neg hpsoc]
      rcases hm with rfl | ⟨vdev, hvdev, rfl⟩
      · exact absurd hqueued hpsoc
      · exact .inl (mem_map_of_mem hvdev)
  cases n with
  | driver =>
    rw [toTrigger, driverFanOut]
    by_cases hqueue : (s.trans .driver).queued = true
    · rw [if_pos hqueue]
      cases m with
      | driver => exact .inl (mem_singleton_self _)
      | psoc _ | vdev _ => exact .inr (.inr ⟨.driver, trivial, hqueue⟩)
    · rw [if_neg hqueue]
      cases m with
      | driver => exact absurd hqueued hqueue
      | psoc psoc =>
        exact (hfan psoc (.inl rfl)).imp_left
          (mem_flatMap.mpr ⟨psoc, tree.mem_psocs psoc, ·⟩)
      | vdev vdev =>
        exact (hfan (tree.psocOf vdev)
          (.inr ⟨vdev, (tree.mem_vdevs _ _).mpr rfl, rfl⟩)).imp_left
          (mem_flatMap.mpr ⟨_, tree.mem_psocs _, ·⟩)
  | psoc psoc =>
    rw [toTrigger]
    by_cases hqueue : (s.trans .driver).queued = true
    · exact hdriver hqueue _
    · rw [driverFirst, if_neg hqueue]
      rw [tree.near_psoc_iff] at hnear
      rcases hnear with rfl | hm
      · exact absurd hqueued hqueue
      · exact hfan psoc hm
  | vdev vdev =>
    rw [toTrigger]
    by_cases hqueue : (s.trans .driver).queued = true
    · exact hdriver hqueue _
    · rw [driverFirst, if_neg hqueue, psocFirst]
      rw [tree.near_vdev_iff] at hnear
      by_cases hpsoc : (s.trans (.psoc (tree.psocOf vdev))).queued = true
      · rw [if_pos hpsoc]
        rcases hnear with rfl | rfl | rfl
        · exact absurd hqueued hqueue
        · by_cases hcan : s.psocCanTrigger tree (tree.psocOf vdev) = true
          · rw [if_pos hcan]
            exact .inl (mem_singleton_self _)
          · refine .inr (.inl (hcovered _ fun hclear => hcan ?_))
            rw [psocClear_iff] at hclear
            rw [Bool.not_eq_true] at hqueue
            simp [psocCanTrigger, DscTrans.activeOrQueued, hclear, hqueue]
        · exact .inr (.inr ⟨_, tree.above_psocOf vdev, hpsoc⟩)
      · rw [if_neg hpsoc]
        rcases hnear with rfl | rfl | rfl
        · exact absurd hqueued hqueue
        · exact absurd hqueued hpsoc
        · exact .inl (mem_singleton_self _)

variable [DecidableEq P] [DecidableEq V] [DecidableEq C] {s : DscState P V C D}

variable {n m : DscNode P V} {s' : DscState P V C D}

theorem Covered.triggers {nodes : List (DscNode P V)} (hnodup : nodes.Nodup)
    (h : m ∈ nodes ∧ (s.trans m).queued = true ∨ s.Covered tree m) :
    (s.triggers nodes).Covered tree m := by
  have hactive : ∀ k, (s.trans k).active = true → ((s.triggers nodes).trans k).active = true := by
    intro k hk
    rw [triggers_trans hnodup]
    split
    · rw [DscTrans.triggered]
      split
      · exact hk
      · rfl
    · exact hk
  have hstarted : ∀ k ∈ nodes, (s.trans k).queued = true →
      ((s.triggers nodes).trans k).active = true := by
    intro k hk hqueued
    rw [triggers_trans hnodup, if_pos hk]
    exact DscTrans.triggered_active hqueued
  rcases h with ⟨hm, hqueued⟩ | ⟨k, hnear, hk⟩ | ⟨k, habove, hk⟩
  · exact .inl ⟨m, tree.near_refl m, hstarted m hm hqueued⟩
  · exact .inl ⟨k, hnear, hactive k hk⟩
  · by_cases hmem : k ∈ nodes
    · exact .inl ⟨k, .inr (.inr habove), hstarted k hmem hk⟩
    · refine .inr ⟨k, habove, ?_⟩
      rwa [triggers_trans hnodup, if_neg hmem]

theorem queued_of_triggers {nodes : List (DscNode P V)} (hnodup : nodes.Nodup)
    (h : ((s.triggers nodes).trans m).queued = true) : (s.trans m).queued = true := by
  rw [triggers_trans hnodup] at h
  split at h
  · exact DscTrans.queued_of_triggered h
  · exact h

theorem NotStranded.stop (h : s.NotStranded tree) :
    ((s.transStop n).triggers ((s.transStop n).toTrigger tree n)).NotStranded tree := by
  have hnodup : ((s.transStop n).toTrigger tree n).Nodup := toTrigger_nodup _ n
  intro m hm
  have hqueued := queued_of_triggers hnodup hm
  have hbefore : (s.trans m).queued = true := by
    rw [transStop_trans] at hqueued
    split at hqueued
    · rename_i hmn
      exact hmn ▸ hqueued
    · exact hqueued
  refine Covered.triggers hnodup ?_
  rcases h m hbefore with ⟨k, hnear, hk⟩ | ⟨k, habove, hk⟩
  · by_cases hkn : k = n
    · subst hkn
      exact (toTrigger_covers hnear.symm hqueued).imp_left fun hmem => ⟨hmem, hqueued⟩
    · refine .inr (.inl ⟨k, hnear, ?_⟩)
      rwa [transStop_trans, if_neg hkn]
  · refine .inr (.inr ⟨k, habove, ?_⟩)
    rw [transStop_trans]
    split
    · rename_i hkn
      exact hkn ▸ hk
    · exact hk

omit [DecidableEq P] [DecidableEq V] [DecidableEq C] in
theorem NotStranded.congr (h : s.NotStranded tree) (htrans : s'.trans = s.trans) :
    s'.NotStranded tree := by
  intro n
  rw [Covered, htrans]
  exact h n

omit [DecidableEq C] in
theorem NotStranded.started {d : D} (h : s.NotStranded tree) :
    (s.transStart n d).NotStranded tree := by
  have hqueue : ∀ m, ((s.transStart n d).trans m).queued = (s.trans m).queued := by
    intro m
    rw [transStart_trans]
    split
    · rename_i hm
      rw [hm]
      rfl
    · rfl
  intro m hm
  rw [hqueue] at hm
  rcases h m hm with ⟨k, hnear, hk⟩ | ⟨k, habove, hk⟩
  · refine .inl ⟨k, hnear, ?_⟩
    rw [transStart_trans]
    split
    · rfl
    · exact hk
  · exact .inr ⟨k, habove, (hqueue k).trans hk⟩

omit [DecidableEq P] [DecidableEq V] [DecidableEq C] in
theorem canTrans_covered {platform : QdfPlatform} (h : s.NotStranded tree)
    (hsuccess : canTrans tree platform s n ≠ .success)
    (hinval : canTrans tree platform s n ≠ .inval) : s.Covered tree n := by
  have hself : (s.trans n).activeOrQueued = true → s.Covered tree n := by
    intro hself
    rcases Bool.or_eq_true _ _ ▸ hself with hactive | hqueued
    · exact .inl ⟨n, tree.near_refl n, hactive⟩
    · exact h n hqueued
  cases n with
  | driver =>
    by_cases hown : (s.trans .driver).activeOrQueued = true
    · exact hself hown
    · have hbelow : s.driverTransActiveDownTree tree = true := by
        by_contra hnot
        rw [Bool.not_eq_true] at hnot hown
        simp [canTrans, driverCanTrans, hown, hnot] at hsuccess
      obtain ⟨m, habove, hm⟩ := (driverTransActiveDownTree_iff s).mp hbelow
      exact .inl ⟨m, .inr (.inl habove), hm⟩
  | psoc psoc =>
    rw [canTrans, psocCanTrans] at hsuccess hinval
    split at hinval
    · exact absurd rfl hinval
    · rename_i hdriver
      rw [if_neg hdriver] at hsuccess
      split at hsuccess
      · rename_i hrefused
        rcases Bool.or_eq_true _ _ ▸ hrefused with hown | hbelow
        · exact hself hown
        · obtain ⟨m, habove, hm⟩ := (psocTransActiveDownTree_iff s psoc).mp hbelow
          exact .inl ⟨m, .inr (.inl habove), hm⟩
      · exact absurd rfl hsuccess
  | vdev vdev =>
    rw [canTrans, vdevCanTrans] at hsuccess hinval
    split at hinval
    · exact absurd rfl hinval
    · rename_i hdriver
      rw [if_neg hdriver] at hsuccess
      split at hinval
      · exact absurd rfl hinval
      · rename_i hrecovering
        rw [if_neg hrecovering] at hsuccess
        split at hsuccess
        · rename_i hpsoc
          rcases Bool.or_eq_true _ _ ▸ hpsoc with hactive | hqueued
          · exact .inl ⟨_, .inr (.inr (tree.above_psocOf vdev)), hactive⟩
          · exact .inr ⟨_, tree.above_psocOf vdev, hqueued⟩
        · split at hsuccess
          · rename_i hown
            exact hself hown
          · exact absurd rfl hsuccess

omit [DecidableEq C] in
theorem NotStranded.enqueue {c : C} {n : DscNode P V} {d : D} (h : s.NotStranded tree)
    (hcovered : s.Covered tree n) : (s.transQueue n c d).NotStranded tree := by
  have hkeep : ∀ m, s.Covered tree m → (s.transQueue n c d).Covered tree m := by
    rintro m (⟨k, hnear, hk⟩ | ⟨k, habove, hk⟩)
    · refine .inl ⟨k, hnear, ?_⟩
      rw [transQueue_trans]
      split
      · rename_i hkn
        exact hkn ▸ hk
      · exact hk
    · refine .inr ⟨k, habove, ?_⟩
      rw [transQueue_trans]
      split
      · simp [DscTrans.queued]
      · exact hk
  intro m hm
  by_cases hmn : m = n
  · exact hkeep m (hmn ▸ hcovered)
  · rw [transQueue_trans, if_neg hmn] at hm
    exact hkeep m (h m hm)

/-! ## The order of the waiters -/

def queuedAt (n : DscNode P V) (log : List (DscEvent P V C)) : List C :=
  log.filterMap fun
    | .queued m c => if m = n then some c else none
    | .started _ _ => none

def startedAt (n : DscNode P V) (log : List (DscEvent P V C)) : List C :=
  log.filterMap fun
    | .started m c => if m = n then some c else none
    | .queued _ _ => none

/-- Those that have queued are those that have started and those that still wait, in order. -/
def Ordered (s : DscState P V C D) : Prop :=
  ∀ n, queuedAt n s.log = startedAt n s.log ++ (s.trans n).queue.map (·.call)

omit [DecidableEq C] in
theorem Ordered.congr (h : s.Ordered) (hlog : s'.log = s.log)
    (hqueue : ∀ n, (s'.trans n).queue = (s.trans n).queue) : s'.Ordered := by
  intro n
  rw [hlog, hqueue]
  exact h n

omit [DecidableEq C] in
theorem Ordered.enqueue {c : C} {n : DscNode P V} {d : D} (h : s.Ordered) :
    (s.transQueue n c d).Ordered := by
  intro m
  have hm := h m
  have hlog : (s.transQueue n c d).log = s.log ++ [.queued n c] := rfl
  rw [transQueue_trans, hlog, queuedAt, startedAt, filterMap_append, filterMap_append]
  rw [queuedAt, startedAt] at hm
  by_cases hmn : m = n
  · subst hmn
    simp [hm]
  · simp [hm, hmn, Ne.symm hmn]

theorem Ordered.trigger (h : s.Ordered) : (s.transTrigger n).2.Ordered := by
  cases hqueue : (s.trans n).queue with
  | nil => rwa [transTrigger_of_nil hqueue]
  | cons tran queue =>
    intro m
    have hm := h m
    have hlog : (s.transTrigger n).2.log = s.log ++ [.started n tran.call] := by
      rw [transTrigger_of_cons hqueue]
    rw [transTrigger_trans, hlog, queuedAt, startedAt, filterMap_append,
      filterMap_append]
    rw [queuedAt, startedAt] at hm
    by_cases hmn : m = n
    · subst hmn
      simp [hm, hqueue, DscTrans.triggered]
    · simp [hm, hmn, Ne.symm hmn]

theorem Ordered.triggers {nodes : List (DscNode P V)} (h : s.Ordered) :
    (s.triggers nodes).Ordered := by
  induction nodes generalizing s with
  | nil => exact h
  | cons n nodes ih => exact ih h.trigger

/-! ## Steps and runs -/

/-- What holds of the waiters in every reachable state. -/
structure Served (tree : DscTree P V) (s : DscState P V C D) : Prop extends s.Sound tree where
  notStranded : s.NotStranded tree
  ordered : s.Ordered

theorem Served.perform (h : s.Served tree) (i : QdfPlatform × DscAction P V C D)
    (henabled : s.Enabled i.2) : (s.perform tree i).Served tree := by
  have hsame : ∀ s' : DscState P V C D, s'.trans = s.trans → s'.log = s.log →
      s'.NotStranded tree ∧ s'.Ordered := fun s' htrans hlog =>
    ⟨h.notStranded.congr htrans, h.ordered.congr hlog fun n => by rw [htrans]⟩
  have hstart : ∀ c n d, ((s.transStart n d).setCall c (.holding n d .notCalled)).NotStranded tree ∧
      ((s.transStart n d).setCall c (.holding n d .notCalled)).Ordered := by
    refine fun c n d => ⟨h.notStranded.started.congr rfl, h.ordered.congr rfl fun m => ?_⟩
    rw [setCall_trans, transStart_trans]
    split
    · rename_i hm
      rw [hm]
    · rfl
  have hstop : ∀ c n d, (s.calls c).held = some (n, d) →
      ((s.stop tree n).setCall c .idle).NotStranded tree ∧
        ((s.stop tree n).setCall c .idle).Ordered := by
    intro c n d hheld
    rw [h.toSound.stop_eq hheld]
    refine ⟨(h.notStranded.congr (setCall_trans s c .idle)).stop, Ordered.triggers ?_⟩
    refine h.ordered.congr rfl fun m => ?_
    rw [transStop_trans]
    split
    · rename_i hm
      rw [hm]
      rfl
    · rfl
  have hboth : (s.perform tree i).NotStranded tree ∧ (s.perform tree i).Ordered := by
    obtain ⟨platform, action⟩ := i
    cases action with
    | start c n d =>
      by_cases hcan : canTrans tree platform s n = .success
      · rw [DscState.perform, start_of_success hcan]
        exact hstart c n d
      · rw [DscState.perform, start_of_refused hcan]
        exact ⟨h.notStranded, h.ordered⟩
    | startWait c n d =>
      rw [DscState.perform]
      rcases startWait_cases tree platform s c n d with ⟨-, heq⟩ | ⟨-, heq⟩ | ⟨hne, hne', heq⟩
      · rw [heq]
        exact hstart c n d
      · rw [heq]
        exact ⟨h.notStranded, h.ordered⟩
      · rw [heq]
        have hcovered := canTrans_covered h.notStranded hne hne'
        exact ⟨(h.notStranded.enqueue hcovered).congr rfl,
          h.ordered.enqueue.congr rfl fun _ => rfl⟩
    | tranWait c =>
      rw [DscState.perform]
      split
      · exact hsame _ rfl rfl
      · exact hsame _ rfl rfl
      · exact ⟨h.notStranded, h.ordered⟩
    | stop c =>
      rw [DscState.perform]
      split
      · rename_i n d hcall
        exact hstop c n d (by rw [hcall]; rfl)
      · rename_i n d hcall
        exact hstop c n d (by rw [hcall]; rfl)
      · exact ⟨h.notStranded, h.ordered⟩
    | opStart n memory =>
      rw [DscState.perform, DscState.opStart]
      split
      · split
        · exact hsame _ rfl rfl
        · exact ⟨h.notStranded, h.ordered⟩
      · exact ⟨h.notStranded, h.ordered⟩
    | opStop n => exact hsame _ rfl rfl
    | waitForOps c =>
      rw [DscState.perform]
      split
      · exact hsame _ rfl rfl
      · exact ⟨h.notStranded, h.ordered⟩
    | poll c order => exact hsame _ rfl rfl
    | sample c =>
      rw [DscState.perform]
      split
      · rename_i n d wait hcall
        have hheld : (s.calls c).held = some (n, d) := by
          rw [hcall]
          rfl
        rw [h.toSound.waitAssert_eq hheld]
        exact hsame _ (sample_frame s wait).1 (sample_log s wait)
      · exact hsame _ rfl rfl
      · rename_i wait _ hcall
        exact hsame _ (sample_frame s wait).1 (sample_log s wait)
      · exact ⟨h.notStranded, h.ordered⟩
  exact ⟨h.toSound.perform i henabled, hboth.1, hboth.2⟩

omit [DecidableEq C] in
theorem Served.create : (DscState.create : DscState P V C D).Served tree where
  toSound := Sound.create
  notStranded := fun _ hqueued => absurd hqueued Bool.false_ne_true
  ordered := fun _ => rfl

/-- In every reachable state a node with waiters has a transition active on itself, above or
below it, or a queue above it that is not empty; when no transition is active no one waits; and
the waiters of a node have started in the order in which they queued. -/
theorem waiters_served (h : s.Reachable tree) :
    (∀ n, (s.trans n).queue ≠ [] →
      (∃ m, tree.Near n m ∧ (s.trans m).active = true) ∨
        ∃ m, tree.Above m n ∧ (s.trans m).queue ≠ []) ∧
    ((∀ n, (s.trans n).active = false) → ∀ n, (s.trans n).queue = []) ∧
    ∀ n, queuedAt n s.log = startedAt n s.log ++ (s.trans n).queue.map (·.call) := by
  have hserved : s.Served tree :=
    invariant_of_guarded (fun _ i hs hok => hs.perform i hok) Served.create h
  refine ⟨fun n hn => ?_, hserved.notStranded.idle, hserved.ordered⟩
  rcases hserved.notStranded n ((DscTrans.queued_iff _).mpr hn) with hnear | ⟨m, habove, hm⟩
  · exact .inl hnear
  · exact .inr ⟨m, habove, (DscTrans.queued_iff _).mp hm⟩

theorem waiters_served_psocAfterVdev :
    let s := psocAfterVdev.foldl (DscState.perform .twoPsocs) .create
    (∀ n, (s.trans n).queue ≠ [] →
      (∃ m, DscTree.twoPsocs.Near n m ∧ (s.trans m).active = true) ∨
        ∃ m, DscTree.twoPsocs.Above m n ∧ (s.trans m).queue ≠ []) ∧
    ((∀ n, (s.trans n).active = false) → ∀ n, (s.trans n).queue = []) ∧
    ∀ n, queuedAt n s.log = startedAt n s.log ++ (s.trans n).queue.map (·.call) :=
  waiters_served (guarded_foldl (by decide +kernel))

end DscState

end QcomModules.Dsc
