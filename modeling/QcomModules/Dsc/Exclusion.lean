import QcomModules.Dsc.Triggers

/-! Active transitions exclude each other along the tree, and whoever is woken holds one. -/

namespace QcomModules.Dsc

open Library List

variable {P V C D : Type*}

/-- The transition that a caller holds: it has returned with success, or is woken without abort. -/
def DscCall.held : DscCall P V D → Option (DscNode P V × D)
  | .woken node desc false => some (node, desc)
  | .holding node desc _ => some (node, desc)
  | _ => none

namespace DscState

variable {tree : DscTree P V}

def NotQueued (s : DscState P V C D) (c : C) : Prop :=
  ∀ n, ∀ tran ∈ (s.trans n).queue, tran.call ≠ c

/-- Transitions exclude each other, each is held by one caller at most, the callers in the queues
wait there, and the operations in flight are counted. -/
structure Sound [DecidableEq P] [DecidableEq V] (tree : DscTree P V) (s : DscState P V C D) :
    Prop where
  exclusive : s.Exclusive tree
  held : ∀ c n d, (s.calls c).held = some (n, d) → (s.trans n).activeDesc = some d
  unique : ∀ c c' n d d', (s.calls c).held = some (n, d) → (s.calls c').held = some (n, d') →
    c = c'
  queued : ∀ n, ∀ tran ∈ (s.trans n).queue,
    s.calls tran.call = .waiting n tran.desc ∧ tran.abort = false
  nodup : ∀ n, ((s.trans n).queue.map (·.call)).Nodup
  counted : ∀ n, (s.ops n).count = s.inFlight.count n
  noPanic : s.panicked = false

namespace Sound

variable [DecidableEq P] [DecidableEq V] {s : DscState P V C D}

theorem create : (DscState.create : DscState P V C D).Sound tree where
  exclusive := fun _ _ hactive => absurd hactive Bool.false_ne_true
  held := fun _ _ _ hheld => by cases hheld
  unique := fun _ _ _ _ _ hheld => by cases hheld
  queued := fun _ _ hmem => absurd hmem not_mem_nil
  nodup := fun _ => nodup_nil
  counted := fun _ => rfl
  noPanic := rfl

theorem notQueued (h : s.Sound tree) {c : C} (hc : ∀ n d, s.calls c ≠ .waiting n d) :
    s.NotQueued c := by
  intro n tran hmem hcall
  have hwaiting := (h.queued n tran hmem).1
  rw [hcall] at hwaiting
  exact hc n tran.desc hwaiting

theorem congr {s' : DscState P V C D} (h : s.Sound tree) (htrans : s'.trans = s.trans)
    (hcalls : s'.calls = s.calls) (hcounted : ∀ n, (s'.ops n).count = s'.inFlight.count n)
    (hpanic : s'.panicked = false) : s'.Sound tree where
  exclusive := fun n m hn hm => h.exclusive n m (htrans ▸ hn) (htrans ▸ hm)
  held := fun c n d hc => by
    rw [htrans]
    exact h.held c n d (hcalls ▸ hc)
  unique := fun c c' n d d' hc hc' => h.unique c c' n d d' (hcalls ▸ hc) (hcalls ▸ hc')
  queued := fun n tran hmem => by
    rw [hcalls]
    exact h.queued n tran (htrans ▸ hmem)
  nodup := fun n => by
    rw [htrans]
    exact h.nodup n
  counted := hcounted
  noPanic := hpanic

theorem dequeue (h : s.Sound tree) (n : DscNode P V) : (s.transDequeue n).2.Sound tree := by
  have hactive : ∀ m, ((s.transDequeue n).2.trans m).activeDesc = (s.trans m).activeDesc := by
    intro m
    rw [transDequeue_trans]
    split
    · rename_i hm
      rw [hm]
    · rfl
  have hsub : ∀ m, ((s.transDequeue n).2.trans m).queue.Sublist (s.trans m).queue := by
    intro m
    rw [transDequeue_trans]
    split
    · rename_i hm
      rw [hm]
      exact tail_sublist _
    · exact Sublist.refl _
  refine ⟨?_, ?_, h.unique, ?_, ?_, h.counted, h.noPanic⟩
  · intro m k hm hk hnear
    rw [DscTrans.active, hactive] at hm hk
    exact h.exclusive m k hm hk hnear
  · intro c m d hc
    rw [hactive]
    exact h.held c m d hc
  · intro m t hmem
    exact h.queued m t ((hsub m).subset hmem)
  · intro m
    exact (h.nodup m).sublist ((hsub m).map _)

variable {n : DscNode P V} {d : D}

theorem dequeue_notQueued {tran : DscTran C D} {queue : List (DscTran C D)} (h : s.Sound tree)
    (hqueue : (s.trans n).queue = tran :: queue) : (s.transDequeue n).2.NotQueued tran.call := by
  have hwaiting := (h.queued n tran (hqueue ▸ mem_cons_self)).1
  have hnodup := h.nodup n
  rw [hqueue, map_cons, nodup_cons] at hnodup
  intro m t hmem hcall
  rw [transDequeue_trans] at hmem
  split at hmem
  · rw [hqueue] at hmem
    exact hnodup.1 (hcall ▸ mem_map_of_mem hmem)
  · rename_i hmn
    have hwait := (h.queued m t hmem).1
    rw [hcall, hwaiting] at hwait
    exact hmn (DscCall.waiting.inj hwait).1.symm

variable [DecidableEq C]

variable {c : C}

theorem setCall {call : DscCall P V D} (h : s.Sound tree) (hc : s.NotQueued c)
    (hheld : ∀ x, call.held = some x → (s.calls c).held = some x) :
    (s.setCall c call).Sound tree := by
  have hold : ∀ k x, ((s.setCall c call).calls k).held = some x → (s.calls k).held = some x := by
    intro k x hk
    by_cases hkc : k = c
    · subst hkc
      rw [setCall_calls_self] at hk
      exact hheld x hk
    · rwa [setCall_calls_of_ne _ _ hkc] at hk
  exact {
    exclusive := h.exclusive
    held := fun k n d hk => h.held k n d (hold k _ hk)
    unique := fun k k' n d d' hk hk' => h.unique k k' n d d' (hold k _ hk) (hold k' _ hk')
    queued := fun n tran hmem => by
      have hne : tran.call ≠ c := hc n tran hmem
      rw [setCall_calls_of_ne _ _ hne]
      exact h.queued n tran hmem
    nodup := h.nodup
    counted := h.counted
    noPanic := h.noPanic }

theorem grant {call : DscCall P V D} (h : s.Sound tree) (hclear : s.Clear tree n)
    (hc : s.NotQueued c) (hnone : (s.calls c).held = none) (hcall : call.held = some (n, d)) :
    ((s.transStart n d).setCall c call).Sound tree := by
  have hfree : ∀ k x, (s.calls k).held = some (n, x) → False := by
    intro k x hk
    have hactive : (s.trans n).active = true := by
      rw [DscTrans.active, h.held k n x hk]
      rfl
    exact Bool.false_ne_true ((hclear n (tree.near_refl n)).symm.trans hactive)
  have hself : ((s.transStart n d).setCall c call).calls c = call := setCall_calls_self _ _ _
  have hother : ∀ {k}, k ≠ c → ((s.transStart n d).setCall c call).calls k = s.calls k :=
    fun hk => setCall_calls_of_ne _ _ hk
  have hqueue : ∀ m, (((s.transStart n d).setCall c call).trans m).queue = (s.trans m).queue := by
    intro m
    rw [setCall_trans, transStart_trans]
    split
    · rename_i hm
      rw [hm]
    · rfl
  have hdesc : ∀ m, m ≠ n →
      ((s.transStart n d).setCall c call).trans m = s.trans m := by
    intro m hm
    rw [setCall_trans, transStart_trans, if_neg hm]
  refine ⟨?_, ?_, ?_, ?_, ?_, h.counted, ?_⟩
  · intro m k hm hk hnear
    by_cases hmn : m = n
    · subst hmn
      by_contra hne
      rw [hdesc k (Ne.symm hne)] at hk
      exact Bool.false_ne_true ((hclear k hnear).symm.trans hk)
    · rw [hdesc m hmn] at hm
      by_cases hkn : k = n
      · subst hkn
        exact absurd ((hclear m hnear.symm).symm.trans hm) Bool.false_ne_true
      · rw [hdesc k hkn] at hk
        exact h.exclusive m k hm hk hnear
  · intro k m x hk
    by_cases hkc : k = c
    · subst hkc
      rw [hself, hcall] at hk
      obtain ⟨rfl, rfl⟩ := Prod.mk.inj (Option.some.inj hk)
      rw [setCall_trans, transStart_trans, if_pos rfl]
    · rw [hother hkc] at hk
      have hne : m ≠ n := by
        rintro rfl
        exact hfree k x hk
      rw [hdesc m hne]
      exact h.held k m x hk
  · intro k k' m x x' hk hk'
    by_cases hkc : k = c
    · by_cases hkc' : k' = c
      · exact hkc.trans hkc'.symm
      · rw [hkc, hself, hcall] at hk
        obtain ⟨rfl, rfl⟩ := Prod.mk.inj (Option.some.inj hk)
        rw [hother hkc'] at hk'
        exact (hfree k' x' hk').elim
    · rw [hother hkc] at hk
      by_cases hkc' : k' = c
      · rw [hkc', hself, hcall] at hk'
        obtain ⟨rfl, rfl⟩ := Prod.mk.inj (Option.some.inj hk')
        exact (hfree k x hk).elim
      · rw [hother hkc'] at hk'
        exact h.unique k k' m x x' hk hk'
  · intro m tran hmem
    rw [hqueue] at hmem
    rw [hother (hc m tran hmem)]
    exact h.queued m tran hmem
  · intro m
    rw [hqueue]
    exact h.nodup m
  · have hinactive := hclear n (tree.near_refl n)
    simp only [DscState.setCall, transStart, setTrans, dscAssert, h.noPanic, hinactive,
      Bool.not_false, Bool.not_true, Bool.or_self]

theorem trigger (h : s.Sound tree) (hclear : s.Clear tree n) : (s.transTrigger n).2.Sound tree := by
  cases hqueue : (s.trans n).queue with
  | nil => rwa [transTrigger_of_nil hqueue]
  | cons tran queue =>
    obtain ⟨hwaiting, habort⟩ := h.queued n tran (hqueue ▸ mem_cons_self)
    have hclear' : (s.transDequeue n).2.Clear tree n := by
      intro m hm
      have hm' := hclear m hm
      rw [transDequeue_trans]
      split
      · rename_i hmn
        exact hmn ▸ hm'
      · exact hm'
    have hnone : ((s.transDequeue n).2.calls tran.call).held = none := by
      have hcall : (s.transDequeue n).2.calls tran.call = .waiting n tran.desc := hwaiting
      rw [hcall]
      rfl
    have hwoken : (DscCall.woken n tran.desc tran.abort).held = some (n, tran.desc) := by
      rw [habort]
      rfl
    rw [transTrigger_of_cons hqueue]
    exact ((h.dequeue n).grant hclear' (h.dequeue_notQueued hqueue) hnone hwoken).congr rfl rfl
      h.counted ((h.dequeue n).grant hclear' (h.dequeue_notQueued hqueue) hnone hwoken).noPanic

theorem triggers {nodes : List (DscNode P V)} (h : s.Sound tree)
    (hclear : ∀ n ∈ nodes, s.Clear tree n)
    (hpairwise : nodes.Pairwise fun n m => ¬ tree.Near n m) : (s.triggers nodes).Sound tree := by
  induction nodes generalizing s with
  | nil => exact h
  | cons n nodes ih =>
    rw [pairwise_cons] at hpairwise
    rw [triggers_cons]
    refine ih (h.trigger (hclear n mem_cons_self)) (fun m hm k hk => ?_) hpairwise.2
    have hkn : k ≠ n := by
      rintro rfl
      exact hpairwise.1 m hm hk.symm
    rw [transTrigger_trans_of_ne hkn]
    exact hclear m (mem_cons_of_mem _ hm) k hk

theorem release (h : s.Sound tree) (hheld : (s.calls c).held = some (n, d)) :
    ((s.setCall c .idle).transStop n).Sound tree := by
  have hactive : (s.trans n).active = true := by
    rw [DscTrans.active, h.held c n d hheld]
    rfl
  have hwaiting : ∀ m x, s.calls c ≠ .waiting m x := by
    intro m x hc
    rw [hc] at hheld
    cases hheld
  have hidle : (s.setCall c .idle).Sound tree :=
    h.setCall (h.notQueued hwaiting) (fun _ hx => by cases hx)
  have hothers : ∀ k m x, ((s.setCall c .idle).calls k).held = some (m, x) → m ≠ n := by
    rintro k m x hk rfl
    by_cases hkc : k = c
    · subst hkc
      rw [setCall_calls_self] at hk
      cases hk
    · rw [setCall_calls_of_ne _ _ hkc] at hk
      exact hkc (h.unique k c m x d hk hheld)
  refine ⟨?_, ?_, hidle.unique, ?_, ?_, hidle.counted, ?_⟩
  · intro m k hm hk hnear
    rw [transStop_trans] at hm hk
    split at hm
    · exact absurd hm Bool.false_ne_true
    · split at hk
      · exact absurd hk Bool.false_ne_true
      · exact hidle.exclusive m k hm hk hnear
  · intro k m x hk
    rw [transStop_trans, if_neg (hothers k m x hk)]
    exact hidle.held k m x hk
  · intro m tran hmem
    rw [transStop_trans] at hmem
    split at hmem
    · rename_i hm
      exact hm ▸ hidle.queued n tran hmem
    · exact hidle.queued m tran hmem
  · intro m
    rw [transStop_trans]
    split
    · exact hidle.nodup n
    · exact hidle.nodup m
  · have hpanic := h.noPanic
    have hactive' : ((s.setCall c .idle).trans n).active = true := hactive
    simp only [transStop, setTrans, dscAssert, hactive', Bool.not_true, Bool.or_false]
    exact hpanic

end Sound

/-! ## Stops -/

variable [DecidableEq P] [DecidableEq V] [DecidableEq C] {s : DscState P V C D}

variable {c : C} {n : DscNode P V} {d : D} {platform : QdfPlatform}

theorem NotQueued.trigger (h : s.NotQueued c) : (s.transTrigger n).2.NotQueued c := by
  intro m tran hmem
  rw [transTrigger_trans] at hmem
  split at hmem
  · refine h n tran ?_
    rw [DscTrans.triggered] at hmem
    split at hmem
    · exact hmem
    · rename_i hqueue
      exact hqueue ▸ mem_cons_of_mem _ hmem
  · exact h m tran hmem

theorem transTrigger_setCall {call : DscCall P V D} (h : s.NotQueued c) :
    ((s.setCall c call).transTrigger n).2 = (s.transTrigger n).2.setCall c call := by
  cases hqueue : (s.trans n).queue with
  | nil => rw [transTrigger_of_nil hqueue, transTrigger_of_nil (s := s.setCall c call) hqueue]
  | cons tran queue =>
    have hne : tran.call ≠ c := h n tran (hqueue ▸ mem_cons_self)
    rw [transTrigger_of_cons hqueue, transTrigger_of_cons (s := s.setCall c call) hqueue]
    simp only [DscState.setCall, transStart, transDequeue, setTrans, dscAssert,
      Function.update_comm hne]

theorem triggers_setCall {call : DscCall P V D} {nodes : List (DscNode P V)} (h : s.NotQueued c) :
    (s.setCall c call).triggers nodes = (s.triggers nodes).setCall c call := by
  induction nodes generalizing s with
  | nil => rfl
  | cons n nodes ih => rw [triggers_cons, triggers_cons, transTrigger_setCall h, ih h.trigger]

theorem Sound.stop_eq (h : s.Sound tree) (hheld : (s.calls c).held = some (n, d)) :
    (s.stop tree n).setCall c .idle = ((s.setCall c .idle).transStop n).triggers
      (((s.setCall c .idle).transStop n).toTrigger tree n) := by
  have hactive : (s.trans n).active = true := by
    rw [DscTrans.active, h.held c n d hheld]
    rfl
  have hwaiting : ∀ m x, s.calls c ≠ .waiting m x := by
    intro m x hc
    rw [hc] at hheld
    cases hheld
  have hc : (s.transStop n).NotQueued c := by
    intro m tran hmem
    rw [transStop_trans] at hmem
    split at hmem
    · exact h.notQueued hwaiting n tran hmem
    · exact h.notQueued hwaiting m tran hmem
  rw [DscState.stop_eq tree hactive, ← triggers_setCall hc]
  rfl

theorem Sound.stop (h : s.Sound tree) (hheld : (s.calls c).held = some (n, d)) :
    ((s.stop tree n).setCall c .idle).Sound tree := by
  have hactive : ((s.setCall c .idle).trans n).active = true := by
    rw [setCall_trans, DscTrans.active, h.held c n d hheld]
    rfl
  rw [h.stop_eq hheld]
  exact (h.release hheld).triggers
    (toTrigger_clear (Exclusive.clear_stop (s := s.setCall c .idle) h.exclusive hactive))
    (toTrigger_pairwise _ n)

/-! ## Starts -/

omit [DecidableEq C] in
theorem transStartNolock_of_success (h : canTrans tree platform s n = .success) :
    transStartNolock tree platform s n d = (.success, s.transStart n d) := by
  rw [transStartNolock, h]

omit [DecidableEq C] in
theorem transStartNolock_of_refused (h : canTrans tree platform s n ≠ .success) :
    transStartNolock tree platform s n d = (canTrans tree platform s n, s) := by
  rw [transStartNolock]
  split
  · rename_i hsuccess
    exact absurd hsuccess h
  · rfl

theorem start_of_success (h : canTrans tree platform s n = .success) : start tree platform s c n d =
      (.success, (s.transStart n d).setCall c (.holding n d .notCalled)) := by
  rw [start, transStartNolock_of_success h]

theorem start_of_refused (h : canTrans tree platform s n ≠ .success) :
    (start tree platform s c n d).2 = s := by
  rw [start, transStartNolock_of_refused h]
  split
  · rename_i t hpair
    exact absurd (Prod.mk.inj hpair).1 h
  · rename_i hpair
    exact (Prod.mk.inj hpair).2.symm

theorem startWait_cases (tree : DscTree P V) (platform : QdfPlatform) (s : DscState P V C D)
    (c : C) (n : DscNode P V) (d : D) :
    (canTrans tree platform s n = .success ∧ startWait tree platform s c n d =
      (s.transStart n d).setCall c (.holding n d .notCalled)) ∨
    (canTrans tree platform s n = .inval ∧ startWait tree platform s c n d = s) ∨
    (canTrans tree platform s n ≠ .success ∧ canTrans tree platform s n ≠ .inval ∧
      startWait tree platform s c n d = (s.transQueue n c d).setCall c (.waiting n d)) := by
  by_cases hsuccess : canTrans tree platform s n = .success
  · refine .inl ⟨hsuccess, ?_⟩
    rw [startWait, transStartNolock_of_success hsuccess]
  · refine .inr ?_
    rw [startWait, transStartNolock_of_refused hsuccess]
    cases hstatus : canTrans tree platform s n with
    | success => exact absurd hstatus hsuccess
    | inval => exact .inl ⟨rfl, rfl⟩
    | nomem | again | busy => exact .inr ⟨nofun, nofun, rfl⟩

theorem Sound.started (h : s.Sound tree) (hidle : s.calls c = .idle)
    (hcan : canTrans tree platform s n = .success) :
    ((s.transStart n d).setCall c (.holding n d .notCalled)).Sound tree := by
  refine h.grant (canTrans_clear hcan) (h.notQueued fun m x hc => ?_) (by rw [hidle]; rfl) rfl
  rw [hidle] at hc
  cases hc

omit [DecidableEq C] in
theorem transQueue_trans (s : DscState P V C D) (n m : DscNode P V) (c : C) (d : D) :
    (s.transQueue n c d).trans m = if m = n then
      { s.trans n with queue := (s.trans n).queue ++ [⟨false, d, c⟩] } else s.trans m :=
  setTrans_trans s n m _

theorem Sound.enqueue {c : C} {n : DscNode P V} {d : D} (h : s.Sound tree)
    (hidle : s.calls c = .idle) :
    ((s.transQueue n c d).setCall c (.waiting n d)).Sound tree := by
  have hc : s.NotQueued c := h.notQueued fun m x hc => by
    rw [hidle] at hc
    cases hc
  have hdesc : ∀ m, (((s.transQueue n c d).setCall c (.waiting n d)).trans m).activeDesc =
      (s.trans m).activeDesc := by
    intro m
    rw [setCall_trans, transQueue_trans]
    split
    · rename_i hm
      rw [hm]
    · rfl
  have hheld : ∀ k x, (((s.transQueue n c d).setCall c (.waiting n d)).calls k).held = some x →
      (s.calls k).held = some x := by
    intro k x hk
    by_cases hkc : k = c
    · subst hkc
      rw [setCall_calls_self] at hk
      cases hk
    · rwa [setCall_calls_of_ne _ _ hkc] at hk
  refine ⟨?_, ?_, ?_, ?_, ?_, h.counted, h.noPanic⟩
  · intro m k hm hk hnear
    rw [DscTrans.active, hdesc] at hm hk
    exact h.exclusive m k hm hk hnear
  · intro k m x hk
    rw [hdesc]
    exact h.held k m x (hheld k _ hk)
  · intro k k' m x x' hk hk'
    exact h.unique k k' m x x' (hheld k _ hk) (hheld k' _ hk')
  · intro m tran hmem
    have hold : ∀ m, tran ∈ (s.trans m).queue →
        ((s.transQueue n c d).setCall c (.waiting n d)).calls tran.call =
          .waiting m tran.desc ∧ tran.abort = false := by
      intro m hmem
      rw [setCall_calls_of_ne _ _ (hc m tran hmem)]
      exact h.queued m tran hmem
    rw [setCall_trans, transQueue_trans] at hmem
    split at hmem
    · rename_i hm
      rcases mem_append.mp hmem with hmem | hmem
      · exact hm ▸ hold n hmem
      · rw [mem_singleton.mp hmem, hm]
        exact ⟨setCall_calls_self _ _ _, rfl⟩
    · exact hold m hmem
  · intro m
    rw [setCall_trans, transQueue_trans]
    split
    · rw [map_append, nodup_append]
      refine ⟨h.nodup n, nodup_singleton _, ?_⟩
      rintro x hx y hy rfl
      obtain ⟨tran, hmem, rfl⟩ := mem_map.mp hx
      exact hc n tran hmem (mem_singleton.mp hy)
    · exact h.nodup m

/-! ## Steps and runs -/

omit [DecidableEq C] in
theorem Sound.opStart (h : s.Sound tree) (platform : QdfPlatform) (n : DscNode P V)
    (memory : Bool) : (opStart tree platform s n memory).2.Sound tree := by
  rw [DscState.opStart]
  split
  · split
    · refine h.congr rfl rfl (fun m => ?_) h.noPanic
      have hcount := h.counted m
      by_cases hm : m = n
      · subst hm
        simp [setOps, hcount]
      · simp [setOps, hm, hcount, count_cons_of_ne (Ne.symm hm)]
    · exact h
  · exact h

omit [DecidableEq C] in
theorem Sound.opStop (h : s.Sound tree) (hmem : n ∈ s.inFlight) : (s.opStop n).Sound tree := by
  have hpos : 0 < (s.ops n).count := by
    rw [h.counted n]
    exact count_pos_iff.mpr hmem
  refine h.congr rfl rfl (fun m => ?_) ?_
  · have hcount := h.counted m
    by_cases hm : m = n
    · subst hm
      simp [DscState.opStop, setOps, dscAssert, count_erase_self, hcount]
    · simp [DscState.opStop, setOps, dscAssert, hm, hcount, count_erase_of_ne hm]
  · simp [DscState.opStop, setOps, dscAssert, h.noPanic, hpos]

omit [DecidableEq C] in
theorem sample_frame (s : DscState P V C D) (wait : OpsWait P V) :
    (s.sample wait).1.trans = s.trans ∧ (s.sample wait).1.calls = s.calls ∧
      (s.sample wait).1.panicked = s.panicked ∧ (s.sample wait).1.inFlight = s.inFlight ∧
      ∀ n, ((s.sample wait).1.ops n).count = (s.ops n).count := by
  have hcount : ∀ n m, ((s.setOps n { s.ops n with event := false }).ops m).count =
      (s.ops m).count := by
    intro n m
    by_cases hm : m = n
    · subst hm
      simp [setOps]
    · simp [setOps, hm]
  cases wait with
  | notCalled | returned => exact ⟨rfl, rfl, rfl, rfl, fun _ => rfl⟩
  | waiting n todo =>
    rw [DscState.sample]
    split <;> exact ⟨rfl, rfl, rfl, rfl, fun _ => rfl⟩
  | sampling todo =>
    cases todo with
    | nil => exact ⟨rfl, rfl, rfl, rfl, fun _ => rfl⟩
    | cons n todo =>
      rw [DscState.sample]
      split
      · exact ⟨rfl, rfl, rfl, rfl, hcount n⟩
      · exact ⟨rfl, rfl, rfl, rfl, fun _ => rfl⟩

omit [DecidableEq C] in
theorem sample_log (s : DscState P V C D) (wait : OpsWait P V) :
    (s.sample wait).1.log = s.log := by
  cases wait with
  | notCalled | returned => rfl
  | waiting n todo =>
    rw [DscState.sample]
    split <;> rfl
  | sampling todo =>
    cases todo with
    | nil => rfl
    | cons n todo =>
      rw [DscState.sample]
      split <;> rfl

omit [DecidableEq C] in
theorem Sound.sample (h : s.Sound tree) (wait : OpsWait P V) :
    (s.sample wait).1.Sound tree := by
  obtain ⟨htrans, hcalls, hpanic, hflight, hcount⟩ := sample_frame s wait
  refine h.congr htrans hcalls (fun n => ?_) (hpanic.trans h.noPanic)
  rw [hcount, hflight]
  exact h.counted n

omit [DecidableEq C] in
theorem Sound.waitAssert_eq (h : s.Sound tree) (hheld : (s.calls c).held = some (n, d))
    (wait : OpsWait P V) : s.waitAssert tree n wait = s := by
  rw [waitAssert.eq_def]
  split
  · have hactive : (s.trans .driver).active = true := by
      rw [DscTrans.active, h.held c _ d hheld]
      rfl
    have hcan : s.driverCanTrans tree = false := by
      simp [driverCanTrans, DscTrans.activeOrQueued, hactive]
    simp [dscAssert, hcan]
  · rfl

theorem Sound.perform (h : s.Sound tree) (i : QdfPlatform × DscAction P V C D)
    (henabled : s.Enabled i.2) : (s.perform tree i).Sound tree := by
  obtain ⟨platform, action⟩ := i
  have hreplace : ∀ c call, (∀ n d, s.calls c ≠ .waiting n d) →
      (∀ x, call.held = some x → (s.calls c).held = some x) → (s.setCall c call).Sound tree :=
    fun c call hc hheld => h.setCall (h.notQueued hc) hheld
  cases action with
  | start c n d =>
    by_cases hcan : canTrans tree platform s n = .success
    · rw [DscState.perform, start_of_success hcan]
      exact h.started henabled hcan
    · rw [DscState.perform, start_of_refused hcan]
      exact h
  | startWait c n d =>
    rw [DscState.perform]
    rcases startWait_cases tree platform s c n d with ⟨hcan, heq⟩ | ⟨-, heq⟩ | ⟨-, -, heq⟩
    · rw [heq]
      exact h.started henabled hcan
    · rwa [heq]
    · rw [heq]
      exact h.enqueue henabled
  | tranWait c =>
    rw [DscState.perform]
    split
    · rename_i hcall
      exact hreplace c _ (by rw [hcall]; nofun) (fun _ hx => by cases hx)
    · rename_i hcall
      exact hreplace c _ (by rw [hcall]; nofun) (by rw [hcall]; exact fun _ hx => hx)
    · exact h
  | stop c =>
    rw [DscState.perform]
    split
    · rename_i hcall
      exact h.stop (by rw [hcall]; rfl)
    · rename_i hcall
      exact h.stop (by rw [hcall]; rfl)
    · exact h
  | opStart n memory => exact h.opStart platform n memory
  | opStop n => exact h.opStop henabled
  | waitForOps c =>
    rw [DscState.perform]
    split
    · rename_i hcall
      exact hreplace c _ (by rw [hcall]; nofun) (by rw [hcall]; exact fun _ hx => hx)
    · exact h
  | poll c order =>
    have hidle : s.calls c = .idle := henabled
    exact hreplace c _ (by rw [hidle]; nofun) (fun _ hx => by cases hx)
  | sample c =>
    rw [DscState.perform]
    split
    · rename_i n d wait hcall
      have hheld : (s.calls c).held = some (n, d) := by
        rw [hcall]
        rfl
      rw [h.waitAssert_eq hheld]
      have hcalls := (sample_frame s wait).2.1
      refine (h.sample wait).setCall ((h.sample wait).notQueued ?_) ?_
      · rw [hcalls, hcall]
        nofun
      · rw [hcalls, hheld]
        exact fun _ hx => hx
    · rename_i hcall
      exact hreplace c _ (by rw [hcall]; nofun) (fun _ hx => by cases hx)
    · rename_i wait _ hcall
      have hcalls := (sample_frame s wait).2.1
      refine (h.sample wait).setCall ((h.sample wait).notQueued ?_) (fun _ hx => by cases hx)
      rw [hcalls, hcall]
      nofun
    · exact h

theorem Reachable.sound (h : s.Reachable tree) : s.Sound tree :=
  invariant_of_guarded (fun _ i hs hok => hs.perform i hok) Sound.create h

/-- In every reachable state no two transitions are active on nodes of which one is the other or
down the tree from it, no assertion has failed, and every caller that holds a transition or was
woken for it is the only one and has its description active. -/
theorem transitions_exclusive (h : s.Reachable tree) :
    s.Exclusive tree ∧ s.panicked = false ∧
      ∀ c n d, (s.calls c = .woken n d false ∨ ∃ wait, s.calls c = .holding n d wait) →
        (s.trans n).activeDesc = some d ∧
          ∀ c' d', (s.calls c').held = some (n, d') → c' = c := by
  have hsound := h.sound
  refine ⟨hsound.exclusive, hsound.noPanic, fun c n d hcall => ?_⟩
  have hheld : (s.calls c).held = some (n, d) := by
    rcases hcall with hcall | ⟨wait, hcall⟩ <;> rw [hcall] <;> rfl
  exact ⟨hsound.held c n d hheld, fun c' d' hc' => hsound.unique c' c n d' d hc' hheld⟩

end DscState

scoped instance neZero_psocs : NeZero 2 := ⟨by decide⟩

scoped instance neZero_vdevs : NeZero 3 := ⟨by decide⟩

def DscTree.twoPsocs : DscTree (Fin 2) (Fin 3) where
  psocs := [0, 1]
  vdevs := fun psoc => if psoc = 0 then [0, 1] else [2]
  psocOf := fun vdev => if vdev = 2 then 1 else 0
  psocs_nodup := by decide
  vdevs_nodup := by decide
  mem_psocs := by decide
  mem_vdevs := by decide

/-- A vdev and its psoc ask while another vdev of the psoc is active, and it stops. -/
def psocAfterVdev : List (QdfPlatform × DscAction (Fin 2) (Fin 3) ℕ ℕ) :=
  [.start 0 (.vdev 0) 10, .startWait 1 (.psoc 0) 11, .startWait 2 (.vdev 1) 12,
    .startWait 3 .driver 13, .stop 0].map fun action => (⟨false, false⟩, action)

theorem transitions_exclusive_psocAfterVdev :
    let s := psocAfterVdev.foldl (DscState.perform .twoPsocs) .create
    s.Exclusive .twoPsocs ∧ s.panicked = false ∧
      ∀ c n d, (s.calls c = .woken n d false ∨ ∃ wait, s.calls c = .holding n d wait) →
        (s.trans n).activeDesc = some d ∧
          ∀ c' d', (s.calls c').held = some (n, d') → c' = c :=
  DscState.transitions_exclusive (guarded_foldl (by decide +kernel))

end QcomModules.Dsc
