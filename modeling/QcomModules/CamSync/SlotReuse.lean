import QcomModules.CamSync.LinkSteps

/-! What the remaining count of a merged object counts, when rows are used again after merged
objects are destroyed. -/

namespace QcomModules.CamSync

open Library Relation List

/-! ## Runs -/

variable {d : SyncDevice} {pcs : List SyncPc}

theorem Linked.start (h : Linked d pcs) (op : SyncOp) : Linked d (.enter op :: pcs) := by
  refine ⟨h.reserved, h.owned, h.locks, ?_, h.once, h.child, ?_, h.member, h.nodup, h.counted,
    ?_, ?_⟩
  · exact forall_mem_cons.mpr ⟨trivial, h.wellFormed⟩
  · intro child parent hparent
    apply (h.parent child parent hparent).imp_right
    intro hunlinks
    obtain ⟨pc, hpc, hmem⟩ := hunlinks
    exact ⟨pc, mem_cons_of_mem _ hpc, hmem⟩
  · intro idx linked todo hmem
    rcases mem_cons.mp hmem with hmem | hmem
    · cases hmem
    · exact h.merging idx linked todo hmem
  · intro idx hlive hunlocked
    exact mem_cons_of_mem _ (h.finished idx hlive hunlocked)

theorem Linked.of_run {s : SyncSystem}
    (hrun : ReflTransGen (GuardedStep (ThreadSystem.StepOk (fun _ => True) fun d pcs pc =>
      pc.ReuseOk d pcs) syncSystem.step) SyncSystem.probe s) : Linked s.shared s.pcs := by
  refine ThreadSystem.invariant (fun _ _ _ hperm h => h.perm hperm)
    (fun _ _ _ _ hperm hok => hok.perm hperm) (fun _ _ op h _ => h.start op) ?_ Linked.probe hrun
  intro choice d pc pcs h henabled hok
  exact h.act henabled hok

/-! ## The count -/

/-- The child still has a link to the parent, in its row or in the hands of a signal. -/
def NotPropagated (d : SyncDevice) (pcs : List SyncPc) (child parent : ℕ) : Prop :=
  parent ∈ (d.table child).parentsList ∨ (child, parent) ∈ carried pcs

instance (d : SyncDevice) (pcs : List SyncPc) (child parent : ℕ) :
    Decidable (NotPropagated d pcs child parent) :=
  inferInstanceAs (Decidable (_ ∨ _))

theorem notPropagated_iff {child parent : ℕ} :
    NotPropagated d pcs child parent ↔ 0 < pending d pcs child parent := by
  rw [pending, Nat.add_pos_iff_pos_or_pos, count_pos_iff, count_pos_iff, NotPropagated]

/-- A merged object counts its own children that are not propagated, and only they have a link to
it, so that no other signal can change it. -/
structure SyncSystem.CountsOwn (s : SyncSystem) (idx : ℕ) : Prop where
  merged : .merged idx (s.shared.members idx) ∈ s.pcs
  remaining : (s.shared.table idx).remaining.toNat =
    ((s.shared.members idx).filter (NotPropagated s.shared s.pcs · idx)).length
  own : ∀ child, NotPropagated s.shared s.pcs child idx → child ∈ s.shared.members idx

/-- In every run in which merged objects only are destroyed, and a merge takes a row only when no
signal still carries a link to it, a live merged object counts its own children. -/
theorem merged_countsOwn {s : SyncSystem}
    (hrun : ReflTransGen (GuardedStep (ThreadSystem.StepOk (fun _ => True) fun d pcs pc =>
      pc.ReuseOk d pcs) syncSystem.step) SyncSystem.probe s) {idx : ℕ}
    (hlive : s.shared.Live idx) (hunlocked : s.shared.rowLocked idx = false) :
    s.CountsOwn idx := by
  have hlinked := Linked.of_run hrun
  refine ⟨hlinked.finished idx hlive hunlocked, ?_, ?_⟩
  · rw [hlinked.counted idx hlive, countP_eq_length_filter]
    apply congrArg
    apply filter_congr
    intro child _
    exact decide_eq_decide.mpr notPropagated_iff.symm
  · intro child hlink
    exact hlinked.member child idx hlive (notPropagated_iff.mp hlink)

/-! ## A row that is used again -/

def sections (thread n : ℕ) : List SyncInput := List.replicate n (.run thread ⟨true, true⟩)

def mergeOfTwo : List SyncInput :=
  .start (.create none none) :: sections 0 4 ++
  .start (.create none none) :: sections 1 4 ++
  .start (.create none none) :: sections 2 4 ++
  .start (.getObjRef 1) :: sections 3 1 ++
  .start (.merge [1, 2]) :: sections 4 10

/-- A signal of the first object takes its parent off; the merged object is destroyed, a merge of
two other objects gets its row, and the signal goes on. -/
def reuseInGap : List SyncInput :=
  mergeOfTwo ++ .start (.signal 1 2 0) :: sections 5 1 ++
  .start (.destroy 4) :: sections 6 4 ++
  .start (.merge [2, 3]) :: sections 7 10 ++ sections 5 1

/-- The merged object is destroyed and its row used again after the signal is through. -/
def reuseAfterSignal : List SyncInput :=
  mergeOfTwo ++ .start (.signal 1 2 0) :: sections 5 3 ++
  .start (.destroy 4) :: sections 6 4 ++
  .start (.merge [2, 3]) :: sections 7 10

theorem reuse_in_gap_miscounts :
    ¬ ∀ s : SyncSystem, ReflTransGen (GuardedStep (ThreadSystem.StepOk (fun _ => True)
        fun d _ pc => pc.destroysMerged d = true) syncSystem.step) SyncSystem.probe s →
      ∀ idx, s.shared.Live idx → s.shared.rowLocked idx = false → s.CountsOwn idx := by
  intro h
  have hrun : ReflTransGen (GuardedStep (ThreadSystem.StepOk (fun _ => True)
      fun d _ pc => pc.destroysMerged d = true) syncSystem.step) SyncSystem.probe
      (reuseInGap.foldl syncSystem.step SyncSystem.probe) := guarded_foldl (by decide +kernel)
  have hcount := (h _ hrun 4 ⟨by decide +kernel, by decide +kernel⟩ (by decide +kernel)).remaining
  revert hcount
  decide +kernel

theorem merged_countsOwn_reuseAfterSignal :
    SyncSystem.CountsOwn (reuseAfterSignal.foldl syncSystem.step SyncSystem.probe) 4 :=
  merged_countsOwn (guarded_foldl (by decide +kernel)) ⟨by decide +kernel, by decide +kernel⟩
    (by decide +kernel)

end QcomModules.CamSync
