import QcomModules.Dsc.Transitions

/-! What a stop starts: the trigger functions as one pass over a list of nodes, none of which is
down the tree from another. -/

namespace QcomModules.Dsc

open List

variable {P V C D : Type*}

/-! ## Nodes that exclude each other -/

/-- The same node, or one down the tree from the other. -/
def DscTree.Near (tree : DscTree P V) (n m : DscNode P V) : Prop :=
  n = m ∨ tree.Above n m ∨ tree.Above m n

namespace DscTree

variable (tree : DscTree P V)

theorem near_refl (n : DscNode P V) : tree.Near n n := .inl rfl

variable {tree}

theorem Near.symm {n m : DscNode P V} (h : tree.Near n m) : tree.Near m n := by
  rcases h with rfl | h | h
  · exact .inl rfl
  · exact .inr (.inr h)
  · exact .inr (.inl h)

variable (tree)

theorem above_psocOf (vdev : V) : tree.Above (.psoc (tree.psocOf vdev)) (.vdev vdev) := rfl

theorem near_driver (m : DscNode P V) : tree.Near .driver m := by
  cases m with
  | driver => exact .inl rfl
  | psoc psoc => exact .inr (.inl trivial)
  | vdev vdev => exact .inr (.inl trivial)

theorem near_psoc_iff (psoc : P) (m : DscNode P V) :
    tree.Near (.psoc psoc) m ↔
      m = .driver ∨ m = .psoc psoc ∨ ∃ vdev ∈ tree.vdevs psoc, m = .vdev vdev := by
  cases m <;> simp [Near, Above, tree.mem_vdevs, eq_comm]

theorem near_vdev_iff (vdev : V) (m : DscNode P V) :
    tree.Near (.vdev vdev) m ↔ m = .driver ∨ m = .psoc (tree.psocOf vdev) ∨ m = .vdev vdev := by
  cases m <;> simp [Near, Above, eq_comm]

theorem Near.of_above {n m k : DscNode P V} (habove : tree.Above n m) (h : tree.Near m k) :
    tree.Near n k := by
  cases n with
  | driver => exact tree.near_driver k
  | vdev vdev => cases m <;> exact habove.elim
  | psoc psoc =>
    cases m with
    | driver | psoc _ => exact habove.elim
    | vdev vdev =>
      obtain rfl : tree.psocOf vdev = psoc := habove
      rw [near_vdev_iff] at h
      rw [near_psoc_iff]
      rcases h with rfl | rfl | rfl
      · exact .inl rfl
      · exact .inr (.inl rfl)
      · exact .inr (.inr ⟨vdev, (tree.mem_vdevs _ _).mpr rfl, rfl⟩)

end DscTree

def DscTrans.triggered (trans : DscTrans C D) : DscTrans C D :=
  match trans.queue with
  | [] => trans
  | tran :: queue => ⟨some tran.desc, queue⟩

theorem DscTrans.queued_iff (trans : DscTrans C D) : trans.queued = true ↔ trans.queue ≠ [] := by
  simp [queued]

theorem DscTrans.triggered_active {trans : DscTrans C D} (h : trans.queued = true) :
    trans.triggered.active = true := by
  rw [queued_iff] at h
  rw [triggered]
  cases hqueue : trans.queue with
  | nil => exact absurd hqueue h
  | cons tran queue => rfl

theorem DscTrans.queued_of_triggered {trans : DscTrans C D}
    (h : trans.triggered.queued = true) : trans.queued = true := by
  rw [queued_iff] at h ⊢
  intro hnil
  rw [triggered, hnil] at h
  exact h hnil

namespace DscState

/-! ## What a stop triggers -/

section Nodes

variable (tree : DscTree P V)

/-- The psocs are passed over in order, and a psoc whose queue is empty passes on to its vdevs. -/
def psocFanOut (s : DscState P V C D) (psoc : P) : List (DscNode P V) :=
  if (s.trans (.psoc psoc)).queued then [.psoc psoc] else (tree.vdevs psoc).map .vdev

def driverFanOut (s : DscState P V C D) : List (DscNode P V) :=
  if (s.trans .driver).queued then [.driver] else tree.psocs.flatMap (s.psocFanOut tree)

/-- A queued transition of the driver is the only one that can start, once it can. -/
def driverFirst (s : DscState P V C D) (rest : List (DscNode P V)) : List (DscNode P V) :=
  if (s.trans .driver).queued then (if s.driverCanTrigger tree then [.driver] else []) else rest

def psocFirst (s : DscState P V C D) (psoc : P) (rest : List (DscNode P V)) :
    List (DscNode P V) :=
  if (s.trans (.psoc psoc)).queued then (if s.psocCanTrigger tree psoc then [.psoc psoc] else [])
  else rest

def toTrigger (s : DscState P V C D) : DscNode P V → List (DscNode P V)
  | .driver => s.driverFanOut tree
  | .psoc psoc => s.driverFirst tree (s.psocFanOut tree psoc)
  | .vdev vdev => s.driverFirst tree (s.psocFirst tree (tree.psocOf vdev) [.vdev vdev])

variable {psoc : P}

theorem mem_psocFanOut {s : DscState P V C D} {n : DscNode P V} (h : n ∈ s.psocFanOut tree psoc) :
    n = .psoc psoc ∨ ∃ vdev ∈ tree.vdevs psoc, n = .vdev vdev := by
  rw [psocFanOut] at h
  split at h
  · exact .inl (mem_singleton.mp h)
  · obtain ⟨vdev, hvdev, rfl⟩ := mem_map.mp h
    exact .inr ⟨vdev, hvdev, rfl⟩

theorem psocFanOut_nodup (s : DscState P V C D) (psoc : P) : (s.psocFanOut tree psoc).Nodup := by
  rw [psocFanOut]
  split
  · exact nodup_singleton _
  · exact (tree.vdevs_nodup psoc).map fun _ _ h => DscNode.vdev.inj h

/-- No transition is active on the node, above it or below it. -/
def Clear (s : DscState P V C D) (n : DscNode P V) : Prop :=
  ∀ m, tree.Near n m → (s.trans m).active = false

/-- No two transitions are active on nodes that exclude each other. -/
def Exclusive (s : DscState P V C D) : Prop :=
  ∀ n m, (s.trans n).active = true → (s.trans m).active = true → tree.Near n m → n = m

variable {tree}

theorem Clear.below {s : DscState P V C D} {n m : DscNode P V} (h : s.Clear tree n)
    (habove : tree.Above n m) : s.Clear tree m :=
  fun k hk => h k (hk.of_above tree habove)

theorem driverTransActiveDownTree_iff (s : DscState P V C D) :
    s.driverTransActiveDownTree tree = true ↔
      ∃ m, tree.Above .driver m ∧ (s.trans m).active = true := by
  simp only [driverTransActiveDownTree, psocTransActiveDownTree, any_eq_true,
    Bool.or_eq_true]
  constructor
  · rintro ⟨psoc, -, hpsoc | ⟨vdev, -, hvdev⟩⟩
    · exact ⟨.psoc psoc, trivial, hpsoc⟩
    · exact ⟨.vdev vdev, trivial, hvdev⟩
  · rintro ⟨m, habove, hactive⟩
    cases m with
    | driver => exact habove.elim
    | psoc psoc => exact ⟨psoc, tree.mem_psocs psoc, .inl hactive⟩
    | vdev vdev =>
      exact ⟨tree.psocOf vdev, tree.mem_psocs _,
        .inr ⟨vdev, (tree.mem_vdevs _ _).mpr rfl, hactive⟩⟩

theorem psocTransActiveDownTree_iff (s : DscState P V C D) (psoc : P) :
    s.psocTransActiveDownTree tree psoc = true ↔
      ∃ m, tree.Above (.psoc psoc) m ∧ (s.trans m).active = true := by
  simp only [psocTransActiveDownTree, any_eq_true]
  constructor
  · rintro ⟨vdev, hvdev, hactive⟩
    exact ⟨.vdev vdev, (tree.mem_vdevs _ _).mp hvdev, hactive⟩
  · rintro ⟨m, habove, hactive⟩
    cases m with
    | driver | psoc _ => exact habove.elim
    | vdev vdev => exact ⟨vdev, (tree.mem_vdevs _ _).mpr habove, hactive⟩

theorem driverCanTrigger_iff (s : DscState P V C D) :
    s.driverCanTrigger tree = true ↔ s.Clear tree .driver := by
  rw [driverCanTrigger, Bool.and_eq_true, Bool.not_eq_true', Bool.not_eq_true',
    Bool.eq_false_iff (b := s.driverTransActiveDownTree tree), ne_eq,
    driverTransActiveDownTree_iff]
  constructor
  · rintro ⟨hself, hbelow⟩ m hm
    rw [Bool.eq_false_iff]
    intro hactive
    rcases hm with rfl | habove | habove
    · exact Bool.false_ne_true (hself.symm.trans hactive)
    · exact hbelow ⟨m, habove, hactive⟩
    · cases m <;> exact habove.elim
  · intro h
    refine ⟨h _ (tree.near_refl _), ?_⟩
    rintro ⟨m, habove, hactive⟩
    exact Bool.false_ne_true ((h m (.inr (.inl habove))).symm.trans hactive)

theorem psocClear_iff (s : DscState P V C D) (psoc : P) :
    s.Clear tree (.psoc psoc) ↔ (s.trans .driver).active = false ∧
      (s.trans (.psoc psoc)).active = false ∧ s.psocTransActiveDownTree tree psoc = false := by
  rw [Bool.eq_false_iff (b := s.psocTransActiveDownTree tree psoc), ne_eq,
    psocTransActiveDownTree_iff]
  constructor
  · intro h
    refine ⟨h _ (tree.near_driver _).symm, h _ (tree.near_refl _), ?_⟩
    rintro ⟨m, habove, hactive⟩
    exact Bool.false_ne_true ((h m (.inr (.inl habove))).symm.trans hactive)
  · rintro ⟨hdriver, hself, hbelow⟩ m hm
    rw [Bool.eq_false_iff]
    intro hactive
    rcases hm with rfl | habove | habove
    · exact Bool.false_ne_true (hself.symm.trans hactive)
    · exact hbelow ⟨m, habove, hactive⟩
    · cases m with
      | driver => exact Bool.false_ne_true (hdriver.symm.trans hactive)
      | psoc _ | vdev _ => exact habove.elim

theorem psocCanTrigger_clear {s : DscState P V C D} (h : s.psocCanTrigger tree psoc = true) :
    s.Clear tree (.psoc psoc) := by
  simp only [psocCanTrigger, DscTrans.activeOrQueued, Bool.and_eq_true, Bool.not_eq_true',
    Bool.or_eq_false_iff] at h
  exact (psocClear_iff s psoc).mpr ⟨h.1.1.1, h.1.2, h.2⟩

theorem canTrans_clear {platform : QdfPlatform} {s : DscState P V C D} {n : DscNode P V}
    (h : canTrans tree platform s n = .success) : s.Clear tree n := by
  cases n with
  | driver =>
    have hcan : s.driverCanTrans tree = true := by
      by_contra hnot
      rw [canTrans, if_neg hnot] at h
      cases h
    refine (driverCanTrigger_iff s).mp ?_
    simp only [driverCanTrans, DscTrans.activeOrQueued, Bool.and_eq_true, Bool.not_eq_true',
      Bool.or_eq_false_iff] at hcan
    simp only [driverCanTrigger, hcan.1.1, hcan.2, Bool.not_false, Bool.and_self]
  | psoc psoc =>
    rw [canTrans, psocCanTrans] at h
    split at h
    · cases h
    · split at h
      · cases h
      · rename_i hdriver hpsoc
        simp only [DscTrans.activeOrQueued, Bool.or_eq_true, not_or, Bool.not_eq_true]
          at hdriver hpsoc
        exact (psocClear_iff s psoc).mpr ⟨hdriver.1, hpsoc.1.1, hpsoc.2⟩
  | vdev vdev =>
    rw [canTrans, vdevCanTrans] at h
    split at h
    · cases h
    · split at h
      · cases h
      · split at h
        · split at h <;> cases h
        · split at h
          · cases h
          · rename_i hdriver _ hpsoc hvdev
            simp only [DscTrans.activeOrQueued, Bool.or_eq_true, not_or, Bool.not_eq_true]
              at hdriver hpsoc hvdev
            intro m hm
            rw [tree.near_vdev_iff] at hm
            rcases hm with rfl | rfl | rfl
            · exact hdriver.1
            · exact hpsoc.1
            · exact hvdev.1

theorem toTrigger_clear {s : DscState P V C D} {n : DscNode P V} (h : s.Clear tree n) :
    ∀ m ∈ s.toTrigger tree n, s.Clear tree m := by
  have hfirst : ∀ rest, (∀ m ∈ rest, s.Clear tree m) →
      ∀ m ∈ s.driverFirst tree rest, s.Clear tree m := by
    intro rest hrest m hm
    rw [driverFirst] at hm
    split at hm
    · split at hm
      · rename_i hcan
        rw [mem_singleton.mp hm]
        exact (driverCanTrigger_iff s).mp hcan
      · cases hm
    · exact hrest m hm
  have hfan : ∀ psoc, s.Clear tree (.psoc psoc) → ∀ m ∈ s.psocFanOut tree psoc, s.Clear tree m := by
    intro psoc hpsoc m hm
    rcases mem_psocFanOut tree hm with rfl | ⟨vdev, hvdev, rfl⟩
    · exact hpsoc
    · exact hpsoc.below ((tree.mem_vdevs _ _).mp hvdev)
  cases n with
  | driver =>
    intro m hm
    rw [toTrigger, driverFanOut] at hm
    split at hm
    · rwa [mem_singleton.mp hm]
    · obtain ⟨psoc, -, hm⟩ := mem_flatMap.mp hm
      exact hfan psoc (h.below trivial) m hm
  | psoc psoc => exact hfirst _ (hfan psoc h)
  | vdev vdev =>
    refine hfirst _ fun m hm => ?_
    rw [psocFirst] at hm
    split at hm
    · split at hm
      · rename_i hcan
        rw [mem_singleton.mp hm]
        exact psocCanTrigger_clear hcan
      · cases hm
    · rwa [mem_singleton.mp hm]

theorem toTrigger_pairwise (s : DscState P V C D) (n : DscNode P V) :
    (s.toTrigger tree n).Pairwise fun m k => ¬ tree.Near m k := by
  have hfan : ∀ psoc, (s.psocFanOut tree psoc).Pairwise fun m k => ¬ tree.Near m k := by
    intro psoc
    rw [psocFanOut]
    split
    · exact pairwise_singleton _ _
    · refine pairwise_map.mpr ((tree.vdevs_nodup psoc).imp fun hne hnear => ?_)
      rw [tree.near_vdev_iff] at hnear
      rcases hnear with h | h | h
      · cases h
      · cases h
      · exact hne (DscNode.vdev.inj h).symm
  have hfirst : ∀ rest : List (DscNode P V), rest.Pairwise (fun m k => ¬ tree.Near m k) →
      (s.driverFirst tree rest).Pairwise fun m k => ¬ tree.Near m k := by
    intro rest hrest
    rw [driverFirst]
    split
    · split
      · exact pairwise_singleton _ _
      · exact List.Pairwise.nil
    · exact hrest
  cases n with
  | driver =>
    rw [toTrigger, driverFanOut]
    split
    · exact pairwise_singleton _ _
    · refine pairwise_flatMap.mpr ⟨fun psoc _ => hfan psoc, ?_⟩
      refine tree.psocs_nodup.imp fun {psoc psoc'} hne m hm k hk hnear => hne ?_
      rcases mem_psocFanOut tree hm with rfl | ⟨vdev, hvdev, rfl⟩
      · rcases mem_psocFanOut tree hk with rfl | ⟨vdev', hvdev', rfl⟩
        · simpa [DscTree.Near, DscTree.Above] using hnear
        · have hpsoc : tree.psocOf vdev' = psoc := by
            simpa [DscTree.Near, DscTree.Above] using hnear
          exact hpsoc.symm.trans ((tree.mem_vdevs _ _).mp hvdev')
      · rw [← (tree.mem_vdevs _ _).mp hvdev]
        rcases mem_psocFanOut tree hk with rfl | ⟨vdev', hvdev', rfl⟩
        · simpa [DscTree.Near, DscTree.Above] using hnear
        · have hsame : vdev = vdev' := by simpa [DscTree.Near, DscTree.Above] using hnear
          exact hsame ▸ (tree.mem_vdevs _ _).mp hvdev'
  | psoc psoc => exact hfirst _ (hfan psoc)
  | vdev vdev =>
    refine hfirst _ ?_
    rw [psocFirst]
    split
    · split
      · exact pairwise_singleton _ _
      · exact List.Pairwise.nil
    · exact pairwise_singleton _ _

theorem toTrigger_nodup (s : DscState P V C D) (n : DscNode P V) :
    (s.toTrigger tree n).Nodup := by
  refine (toTrigger_pairwise s n).imp fun h hsame => ?_
  subst hsame
  exact h (tree.near_refl _)

end Nodes

/-! ## One trigger -/

section Fields

variable (s : DscState P V C D) (n m : DscNode P V)

@[simp] theorem dscAssert_trans (cond : Bool) : (s.dscAssert cond).trans = s.trans := rfl

@[simp] theorem setCall_trans [DecidableEq C] (c : C) (call : DscCall P V D) :
    (s.setCall c call).trans = s.trans := rfl

@[simp] theorem setCall_calls_self [DecidableEq C] (c : C) (call : DscCall P V D) :
    (s.setCall c call).calls c = call := Function.update_self _ _ _

theorem setCall_calls_of_ne [DecidableEq C] {c k : C} (call : DscCall P V D) (h : k ≠ c) :
    (s.setCall c call).calls k = s.calls k := Function.update_of_ne h _ _

variable [DecidableEq P] [DecidableEq V]

theorem setTrans_trans (trans : DscTrans C D) :
    (s.setTrans n trans).trans m = if m = n then trans else s.trans m :=
  Function.update_apply s.trans n trans m

theorem transStart_trans (desc : D) : (s.transStart n desc).trans m =
    if m = n then { s.trans n with activeDesc := some desc } else s.trans m := by
  rw [transStart, setTrans_trans, dscAssert_trans]

theorem transStop_trans : (s.transStop n).trans m =
    if m = n then { s.trans n with activeDesc := none } else s.trans m := by
  rw [transStop, setTrans_trans, dscAssert_trans]

variable [DecidableEq C]

theorem transTrigger_of_nil {s : DscState P V C D} {n : DscNode P V}
    (h : (s.trans n).queue = []) : s.transTrigger n = (false, s) := by
  rw [transTrigger, transDequeue, h]
  rfl

theorem transTrigger_of_cons {s : DscState P V C D} {n : DscNode P V} {tran : DscTran C D}
    {queue : List (DscTran C D)} (h : (s.trans n).queue = tran :: queue) :
    s.transTrigger n = (true, { (((s.transDequeue n).2.transStart n tran.desc).setCall tran.call
      (.woken n tran.desc tran.abort)) with log := s.log ++ [.started n tran.call] }) := by
  rw [transTrigger, transDequeue, h]
  rfl

omit [DecidableEq C] in
theorem transDequeue_trans : (s.transDequeue n).2.trans m =
    if m = n then { s.trans n with queue := (s.trans n).queue.tail } else s.trans m :=
  setTrans_trans s n m _

theorem transTrigger_fst : (s.transTrigger n).1 = (s.trans n).queued := by
  cases hqueue : (s.trans n).queue with
  | nil => rw [transTrigger_of_nil hqueue, DscTrans.queued, hqueue]; rfl
  | cons tran queue => rw [transTrigger_of_cons hqueue, DscTrans.queued, hqueue]; rfl

theorem transTrigger_snd_of_not_queued {s : DscState P V C D} {n : DscNode P V}
    (h : (s.trans n).queued = false) : (s.transTrigger n).2 = s := by
  have hnil : (s.trans n).queue = [] := by simpa [DscTrans.queued] using h
  rw [transTrigger_of_nil hnil]

theorem transTrigger_trans : (s.transTrigger n).2.trans m =
    if m = n then (s.trans n).triggered else s.trans m := by
  rw [DscTrans.triggered]
  cases hqueue : (s.trans n).queue with
  | nil =>
    rw [transTrigger_of_nil hqueue]
    split
    · rename_i hm
      rw [hm]
    · rfl
  | cons tran queue =>
    rw [transTrigger_of_cons hqueue]
    have htrans := ((s.transDequeue n).2.transStart_trans n m tran.desc)
    rw [transDequeue_trans, transDequeue_trans, if_pos rfl, hqueue] at htrans
    refine htrans.trans ?_
    split <;> rfl

theorem transTrigger_trans_of_ne {s : DscState P V C D} {n m : DscNode P V} (h : m ≠ n) :
    (s.transTrigger n).2.trans m = s.trans m := by
  rw [transTrigger_trans, if_neg h]

end Fields

/-! ## A pass of triggers -/

variable [DecidableEq P] [DecidableEq V] [DecidableEq C]

def triggers (s : DscState P V C D) (nodes : List (DscNode P V)) : DscState P V C D :=
  nodes.foldl (fun s node => (s.transTrigger node).2) s

@[simp] theorem triggers_nil (s : DscState P V C D) : s.triggers [] = s := rfl

theorem triggers_cons (s : DscState P V C D) (n : DscNode P V) (nodes : List (DscNode P V)) :
    s.triggers (n :: nodes) = (s.transTrigger n).2.triggers nodes := rfl

theorem triggers_append (s : DscState P V C D) (nodes nodes' : List (DscNode P V)) :
    s.triggers (nodes ++ nodes') = (s.triggers nodes).triggers nodes' := foldl_append

theorem triggers_trans {nodes : List (DscNode P V)} (hnodup : nodes.Nodup)
    (s : DscState P V C D) (m : DscNode P V) :
    (s.triggers nodes).trans m = if m ∈ nodes then (s.trans m).triggered else s.trans m := by
  induction nodes generalizing s with
  | nil => simp [triggers]
  | cons n nodes ih =>
    rw [nodup_cons] at hnodup
    rw [triggers_cons, ih hnodup.2, transTrigger_trans]
    by_cases hm : m = n
    · subst hm
      simp [hnodup.1]
    · simp [hm]

variable (tree : DscTree P V)

theorem triggerPsocOrVdevs_eq (s : DscState P V C D) (psoc : P) :
    triggerPsocOrVdevs tree s psoc = s.triggers (s.psocFanOut tree psoc) := by
  have hdef : triggerPsocOrVdevs tree s psoc =
      if (s.transTrigger (.psoc psoc)).1 then (s.transTrigger (.psoc psoc)).2
      else (tree.vdevs psoc).foldl (fun s vdev => (s.transTrigger (.vdev vdev)).2)
        (s.transTrigger (.psoc psoc)).2 := rfl
  rw [hdef, psocFanOut, transTrigger_fst]
  cases hqueued : (s.trans (.psoc psoc)).queued with
  | true => rfl
  | false =>
    rw [if_neg Bool.false_ne_true, if_neg Bool.false_ne_true,
      transTrigger_snd_of_not_queued hqueued, triggers, foldl_map]

theorem psocFanOut_triggers {s : DscState P V C D} {psoc psoc' : P} (hne : psoc' ≠ psoc) :
    (s.triggers (s.psocFanOut tree psoc)).psocFanOut tree psoc' = s.psocFanOut tree psoc' := by
  have hnotMem : DscNode.psoc psoc' ∉ s.psocFanOut tree psoc := by
    intro hmem
    rcases mem_psocFanOut tree hmem with h | ⟨vdev, -, h⟩
    · exact hne (DscNode.psoc.inj h)
    · cases h
  have htrans := triggers_trans (psocFanOut_nodup tree s psoc) s (.psoc psoc')
  rw [if_neg hnotMem] at htrans
  rw [psocFanOut.eq_1 tree _ psoc', htrans]
  rfl

theorem foldl_triggerPsocOrVdevs {psocs : List P} (hnodup : psocs.Nodup) (s : DscState P V C D) :
    psocs.foldl (triggerPsocOrVdevs tree) s = s.triggers (psocs.flatMap (s.psocFanOut tree)) := by
  induction psocs generalizing s with
  | nil => rfl
  | cons psoc psocs ih =>
    rw [nodup_cons] at hnodup
    have hrest : psocs.flatMap ((s.triggers (s.psocFanOut tree psoc)).psocFanOut tree) =
        psocs.flatMap (s.psocFanOut tree) := by
      refine flatMap_congr fun psoc' hmem => psocFanOut_triggers tree ?_
      rintro rfl
      exact hnodup.1 hmem
    rw [foldl_cons, triggerPsocOrVdevs_eq, ih hnodup.2, hrest, flatMap_cons,
      triggers_append]

theorem driverTriggerTrans_eq (s : DscState P V C D) :
    s.driverTriggerTrans tree = s.triggers (s.driverFanOut tree) := by
  have hdef : s.driverTriggerTrans tree =
      if (s.transTrigger .driver).1 then (s.transTrigger .driver).2
      else tree.psocs.foldl (triggerPsocOrVdevs tree) (s.transTrigger .driver).2 := rfl
  rw [hdef, driverFanOut, transTrigger_fst]
  cases hqueued : (s.trans .driver).queued with
  | true => rfl
  | false =>
    rw [if_neg Bool.false_ne_true, if_neg Bool.false_ne_true,
      transTrigger_snd_of_not_queued hqueued]
    exact foldl_triggerPsocOrVdevs tree tree.psocs_nodup s

theorem driverTransTriggerChecked_eq (s : DscState P V C D) : s.driverTransTriggerChecked tree =
    ((s.trans .driver).queued, s.triggers (s.driverFirst tree [])) := by
  rw [driverTransTriggerChecked, driverFirst]
  cases hqueued : (s.trans .driver).queued with
  | false => rfl
  | true =>
    cases s.driverCanTrigger tree with
    | false => rfl
    | true => exact Prod.ext ((s.transTrigger_fst .driver).trans hqueued) rfl

theorem psocTransTriggerChecked_eq (s : DscState P V C D) (psoc : P) :
    s.psocTransTriggerChecked tree psoc =
      ((s.trans (.psoc psoc)).queued, s.triggers (s.psocFirst tree psoc [])) := by
  rw [psocTransTriggerChecked, psocFirst]
  cases hqueued : (s.trans (.psoc psoc)).queued with
  | false => rfl
  | true =>
    cases s.psocCanTrigger tree psoc with
    | false => rfl
    | true => exact Prod.ext ((s.transTrigger_fst (.psoc psoc)).trans hqueued) rfl

theorem psocTriggerTrans_eq (s : DscState P V C D) (psoc : P) :
    s.psocTriggerTrans tree psoc = s.triggers (s.toTrigger tree (.psoc psoc)) := by
  rw [psocTriggerTrans, driverTransTriggerChecked_eq, toTrigger, driverFirst, driverFirst]
  cases (s.trans .driver).queued with
  | true => rfl
  | false => exact triggerPsocOrVdevs_eq tree s psoc

theorem vdevTriggerTrans_eq (s : DscState P V C D) (vdev : V) :
    s.vdevTriggerTrans tree vdev = s.triggers (s.toTrigger tree (.vdev vdev)) := by
  rw [vdevTriggerTrans, driverTransTriggerChecked_eq, toTrigger, driverFirst, driverFirst]
  cases (s.trans .driver).queued with
  | true => rfl
  | false =>
    simp only [Bool.false_eq_true, if_false, triggers_nil, psocTransTriggerChecked_eq]
    rw [psocFirst, psocFirst]
    cases (s.trans (.psoc (tree.psocOf vdev))).queued with
    | true => rfl
    | false => rfl

theorem stop_eq {s : DscState P V C D} {n : DscNode P V} (hactive : (s.trans n).active = true) :
    s.stop tree n = (s.transStop n).triggers ((s.transStop n).toTrigger tree n) := by
  cases n with
  | driver => exact driverTriggerTrans_eq tree _
  | psoc psoc =>
    rw [stop, psocTransStop, if_pos hactive]
    exact psocTriggerTrans_eq tree _ psoc
  | vdev vdev => exact vdevTriggerTrans_eq tree _ vdev

variable {tree}

omit [DecidableEq C] in
theorem Exclusive.clear_stop {s : DscState P V C D} {n : DscNode P V} (h : s.Exclusive tree)
    (hactive : (s.trans n).active = true) : (s.transStop n).Clear tree n := by
  intro m hm
  rw [transStop_trans]
  split
  · rfl
  · rename_i hne
    rw [Bool.eq_false_iff]
    exact fun hother => hne (h n m hactive hother hm).symm

end DscState

end QcomModules.Dsc
