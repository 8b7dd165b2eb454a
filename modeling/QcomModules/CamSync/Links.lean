import QcomModules.CamSync.Objects

/-! The links between children and merged objects, in the rows and in the hands of the threads:
who owns a row, who holds its lock, and what its remaining count counts. -/

namespace QcomModules.CamSync

open Library List SyncDevice

/-! ## What the threads have in hand -/

/-- The links that a signal has taken off its child and not yet brought to the parents. -/
def SyncPc.carries : SyncPc → List (ℕ × ℕ)
  | .signalParents child _ _ parents => parents.map (child, ·)
  | _ => []

/-- The thread has set the bit of the row, or is about to clear it, and the row is invalid. -/
def SyncPc.owns (idx : ℕ) : SyncPc → Bool
  | .owning obj _ | .mergeClean obj _ | .destroyLinks obj _ _ => obj == idx
  | _ => false

def SyncPc.holds (idx : ℕ) : SyncPc → Bool
  | .mergeLink obj _ _ | .mergeClean obj _ | .mergeLeaked obj => obj == idx
  | _ => false

/-- The children whose link to the row the thread is still to remove. -/
def SyncPc.unlinks (idx : ℕ) : SyncPc → List ℕ
  | .mergeClean obj todo => if obj = idx then todo else []
  | .destroyLinks obj children _ => if obj = idx then children else []
  | _ => []

/-- The objects of a merge are distinct, and in range once they are checked. -/
def NewObj.WellFormed : NewObj → Prop
  | .indv _ _ => True
  | .group objs => objs.Nodup ∧ ∀ obj ∈ objs, inRange obj = true

def SyncPc.WellFormed : SyncPc → Prop
  | .finding new => new.WellFormed
  | .found idx new => idx < maxObjs ∧ new.WellFormed
  | .signalSynx _ status _ | .signalParents _ status _ _ => status.signaled = true
  | .owning idx new => inRange idx = true ∧ new.WellFormed
  | .mergeCheck checked todo => (checked ++ todo).Nodup ∧ ∀ obj ∈ checked, inRange obj = true
  | .mergeLink idx linked todo => inRange idx = true ∧ (linked ++ todo).Nodup ∧
      ∀ obj ∈ linked ++ todo, inRange obj = true
  | .mergeClean idx _ => inRange idx = true
  | .destroyLinks obj _ parents => inRange obj = true ∧ parents = []
  | _ => True

def SyncPc.quiet : SyncPc → Bool
  | .enter _ | .returned _ | .finding _ | .found _ _ | .created _ => true
  | .signalSynx _ _ _ | .mergeCheck _ _ => true
  | .owning _ _ | .signalParents _ _ _ _ | .mergeLink _ _ _ | .mergeClean _ _ => false
  | .mergeLeaked _ | .merged _ _ | .destroyLinks _ _ _ => false

section Quiet

variable {pc : SyncPc} (h : pc.quiet = true)
include h

theorem SyncPc.carries_quiet : pc.carries = [] := by
  cases pc <;> first | rfl | cases h

theorem SyncPc.owns_quiet (idx : ℕ) : pc.owns idx = false := by
  cases pc <;> first | rfl | cases h

theorem SyncPc.holds_quiet (idx : ℕ) : pc.holds idx = false := by
  cases pc <;> first | rfl | cases h

theorem SyncPc.unlinks_quiet (idx : ℕ) : pc.unlinks idx = [] := by
  cases pc <;> first | rfl | cases h

theorem SyncPc.ne_merged_of_quiet (idx : ℕ) (objs : List ℕ) : pc ≠ .merged idx objs := by
  intro hpc
  rw [hpc] at h
  cases h

end Quiet

def carried (pcs : List SyncPc) : List (ℕ × ℕ) := pcs.flatMap SyncPc.carries

@[simp] theorem carried_cons (pc : SyncPc) (pcs : List SyncPc) :
    carried (pc :: pcs) = pc.carries ++ carried pcs := rfl

/-- How often a child is still linked to a parent: in its row or in the hands of a signal. -/
def pending (d : SyncDevice) (pcs : List SyncPc) (child parent : ℕ) : ℕ :=
  (d.table child).parentsList.count parent + (carried pcs).count (child, parent)

/-- A merged object that is not destroyed; the merge itself may still be in its loop. -/
def SyncDevice.Live (d : SyncDevice) (idx : ℕ) : Prop :=
  (d.table idx).type = .group ∧ (d.table idx).state ≠ .invalid

def SyncRow.valid (row : SyncRow) : Bool := !decide (row.state = .invalid)

/-! ## The invariant -/

/-- The links between rows and threads, over all sections of all threads. -/
structure Linked (d : SyncDevice) (pcs : List SyncPc) : Prop where
  reserved : d.bitmap 0 = true
  owned : ∀ idx, pcs.countP (·.owns idx) + (d.table idx).valid.toNat ≤ (d.bitmap idx).toNat
  locks : ∀ idx, pcs.countP (·.holds idx) ≤ (d.rowLocked idx).toNat
  wellFormed : ∀ pc ∈ pcs, pc.WellFormed
  once : ∀ child parent, pending d pcs child parent ≤ 1
  child : ∀ child parent, parent ∈ (d.table child).parentsList →
    0 < child ∧ (d.table child).type = .indv ∧ (d.table child).state ≠ .invalid
  parent : ∀ child parent, parent ∈ (d.table child).parentsList →
    (d.Live parent ∧ child ∈ (d.table parent).childrenList) ∨
      ∃ pc ∈ pcs, child ∈ pc.unlinks parent
  member : ∀ child parent, d.Live parent → 0 < pending d pcs child parent →
    child ∈ d.members parent
  nodup : ∀ parent, d.Live parent → (d.members parent).Nodup
  counted : ∀ parent, d.Live parent →
    (d.table parent).remaining.toNat =
      (d.members parent).countP (fun child => 0 < pending d pcs child parent)
  merging : ∀ idx linked todo, .mergeLink idx linked todo ∈ pcs →
    d.Live idx ∧ d.members idx = linked
  finished : ∀ idx, d.Live idx → d.rowLocked idx = false → .merged idx (d.members idx) ∈ pcs

theorem pending_perm {pcs pcs' : List SyncPc} (hperm : pcs.Perm pcs') (d : SyncDevice) :
    pending d pcs = pending d pcs' := by
  funext child parent
  rw [pending, pending, carried, (hperm.flatMap_right _).count_eq, carried]

theorem Linked.perm {d : SyncDevice} {pcs pcs' : List SyncPc} (h : Linked d pcs)
    (hperm : pcs.Perm pcs') : Linked d pcs' where
  reserved := h.reserved
  owned idx := hperm.countP_eq _ ▸ h.owned idx
  locks idx := hperm.countP_eq _ ▸ h.locks idx
  wellFormed pc hpc := h.wellFormed pc (hperm.mem_iff.mpr hpc)
  once := pending_perm hperm d ▸ h.once
  child := h.child
  parent child parent hparent := (h.parent child parent hparent).imp_right fun ⟨pc, hpc, hmem⟩ =>
    ⟨pc, hperm.mem_iff.mp hpc, hmem⟩
  member := pending_perm hperm d ▸ h.member
  nodup := h.nodup
  counted := pending_perm hperm d ▸ h.counted
  merging idx linked todo hpc := h.merging idx linked todo (hperm.mem_iff.mpr hpc)
  finished idx hlive hunlocked := hperm.mem_iff.mp (h.finished idx hlive hunlocked)

theorem Linked.probe : Linked SyncDevice.probe [] where
  reserved := rfl
  owned _ := Nat.zero_le _
  locks _ := Nat.zero_le _
  wellFormed _ hpc := absurd hpc not_mem_nil
  once _ _ := Nat.zero_le _
  child _ _ hparent := absurd hparent not_mem_nil
  parent _ _ hparent := absurd hparent not_mem_nil
  member _ _ hlive := absurd rfl hlive.2
  nodup _ hlive := absurd rfl hlive.2
  counted _ hlive := absurd rfl hlive.2
  merging _ _ _ hpc := absurd hpc not_mem_nil
  finished _ hlive := absurd rfl hlive.2

/-! ## Sections that leave the links alone -/

structure SyncRow.SameLinks (row row' : SyncRow) : Prop where
  type : row'.type = row.type
  invalid : row'.state = .invalid ↔ row.state = .invalid
  remaining : row'.remaining = row.remaining
  parentsList : row'.parentsList = row.parentsList
  childrenList : row'.childrenList = row.childrenList

structure SyncDevice.SameLinks (d d' : SyncDevice) : Prop where
  rows : ∀ idx, (d.table idx).SameLinks (d'.table idx)
  bitmap : d'.bitmap = d.bitmap
  rowLocked : d'.rowLocked = d.rowLocked
  members : d'.members = d.members

theorem SyncRow.SameLinks.refl (row : SyncRow) : row.SameLinks row := ⟨rfl, .rfl, rfl, rfl, rfl⟩

theorem SyncDevice.SameLinks.refl (d : SyncDevice) : d.SameLinks d :=
  ⟨fun _ => .refl _, rfl, rfl, rfl⟩

section SameLinks

variable {d d' : SyncDevice} {pcs : List SyncPc}

theorem SyncDevice.SameLinks.setRow {obj : ℕ} {row : SyncRow}
    (hrow : (d.table obj).SameLinks row) : d.SameLinks (d.setRow obj row) where
  rows idx := by
    by_cases hidx : idx = obj
    · subst hidx
      rw [setRow_table_self]
      exact hrow
    · rw [setRow_table_of_ne hidx]
      exact .refl _
  bitmap := rfl
  rowLocked := rfl
  members := rfl

theorem SyncDevice.SameLinks.live (hsame : d.SameLinks d') (idx : ℕ) :
    d'.Live idx ↔ d.Live idx := by
  rw [SyncDevice.Live, SyncDevice.Live, (hsame.rows idx).type, Ne, (hsame.rows idx).invalid]

theorem SyncDevice.SameLinks.pending_eq (hsame : d.SameLinks d') (pcs : List SyncPc) :
    pending d' pcs = pending d pcs := by
  funext child parent
  rw [pending, pending, (hsame.rows child).parentsList]

theorem Linked.device (h : Linked d pcs) (hsame : d.SameLinks d') : Linked d' pcs where
  reserved := hsame.bitmap ▸ h.reserved
  owned idx := by
    rw [hsame.bitmap, SyncRow.valid, decide_eq_decide.mpr (hsame.rows idx).invalid]
    exact h.owned idx
  locks := hsame.rowLocked ▸ h.locks
  wellFormed := h.wellFormed
  once := hsame.pending_eq pcs ▸ h.once
  child child parent hparent := by
    rw [(hsame.rows child).parentsList] at hparent
    rw [(hsame.rows child).type, Ne, (hsame.rows child).invalid]
    exact h.child child parent hparent
  parent child parent hparent := by
    rw [(hsame.rows child).parentsList] at hparent
    rw [hsame.live, (hsame.rows parent).childrenList]
    exact h.parent child parent hparent
  member child parent hlive hpending := by
    rw [hsame.pending_eq] at hpending
    rw [hsame.members]
    exact h.member child parent ((hsame.live parent).mp hlive) hpending
  nodup parent hlive := hsame.members ▸ h.nodup parent ((hsame.live parent).mp hlive)
  counted parent hlive := by
    rw [(hsame.rows parent).remaining, hsame.members, hsame.pending_eq]
    exact h.counted parent ((hsame.live parent).mp hlive)
  merging idx linked todo hpc := by
    rw [hsame.live, hsame.members]
    exact h.merging idx linked todo hpc
  finished idx hlive hunlocked := by
    rw [hsame.rowLocked] at hunlocked
    rw [hsame.members]
    exact h.finished idx ((hsame.live idx).mp hlive) hunlocked

end SameLinks

/-! ## The thread in front -/

theorem countP_front (p : SyncPc → Bool) (pc : SyncPc) (pcs : List SyncPc) :
    (pc :: pcs).countP p = (p pc).toNat + pcs.countP p := by
  cases hp : p pc with
  | false => rw [countP_cons_of_neg (by simp [hp]), Bool.toNat_false, Nat.zero_add]
  | true => rw [countP_cons_of_pos hp, Bool.toNat_true, Nat.add_comm]

section Front

variable {d : SyncDevice} {pc pc' : SyncPc} {pcs : List SyncPc}

theorem unlinks_front {child parent : ℕ}
    (hpc : child ∈ pc.unlinks parent → child ∈ pc'.unlinks parent)
    (h : ∃ other ∈ pc :: pcs, child ∈ other.unlinks parent) :
    ∃ other ∈ pc' :: pcs, child ∈ other.unlinks parent := by
  obtain ⟨other, hother, hmem⟩ := h
  rcases mem_cons.mp hother with rfl | hother
  · exact ⟨pc', mem_cons_self, hpc hmem⟩
  · exact ⟨other, mem_cons_of_mem _ hother, hmem⟩

theorem Linked.wellFormed_front (h : Linked d (pc :: pcs)) (hwf : pc'.WellFormed) :
    ∀ other ∈ pc' :: pcs, other.WellFormed :=
  forall_mem_cons.mpr ⟨hwf, (forall_mem_cons.mp h.wellFormed).2⟩

theorem merged_front {idx : ℕ} {objs : List ℕ} (hpc : ∀ idx objs, pc ≠ .merged idx objs)
    (h : .merged idx objs ∈ pc :: pcs) : .merged idx objs ∈ pc' :: pcs := by
  rcases mem_cons.mp h with h | h
  · exact absurd h.symm (hpc idx objs)
  · exact mem_cons_of_mem _ h

theorem Linked.replace (h : Linked d (pc :: pcs)) (hwf : pc'.WellFormed)
    (hmerged : ∀ idx objs, pc ≠ .merged idx objs)
    (hcarries : pc'.carries = pc.carries) (howns : ∀ idx, pc'.owns idx = pc.owns idx)
    (hholds : ∀ idx, pc'.holds idx = pc.holds idx)
    (hunlinks : ∀ idx, pc'.unlinks idx = pc.unlinks idx)
    (hmerging : ∀ idx linked todo, pc' = .mergeLink idx linked todo →
      d.Live idx ∧ d.members idx = linked) : Linked d (pc' :: pcs) := by
  have hpending : pending d (pc' :: pcs) = pending d (pc :: pcs) := by
    funext child parent
    simp only [pending, carried_cons, hcarries]
  refine ⟨h.reserved, fun idx => ?_, fun idx => ?_, h.wellFormed_front hwf, hpending ▸ h.once,
    h.child, ?_, hpending ▸ h.member, h.nodup, hpending ▸ h.counted, ?_, ?_⟩
  · rw [countP_front, howns, ← countP_front]
    exact h.owned idx
  · rw [countP_front, hholds, ← countP_front]
    exact h.locks idx
  · intro child parent hparent
    apply (h.parent child parent hparent).imp_right
    exact unlinks_front (fun hmem => (hunlinks parent).symm ▸ hmem)
  · intro idx linked todo hother
    rcases mem_cons.mp hother with hother | hother
    · exact hmerging idx linked todo hother.symm
    · exact h.merging idx linked todo (mem_cons_of_mem _ hother)
  · intro idx hlive hunlocked
    exact merged_front hmerged (h.finished idx hlive hunlocked)

theorem Linked.quiet (h : Linked d (pc :: pcs)) (hpc : pc.quiet = true)
    (hpc' : pc'.quiet = true) (hwf : pc'.WellFormed) : Linked d (pc' :: pcs) := by
  apply h.replace hwf (pc.ne_merged_of_quiet hpc)
  · rw [pc.carries_quiet hpc, pc'.carries_quiet hpc']
  · intro idx
    rw [pc.owns_quiet hpc, pc'.owns_quiet hpc']
  · intro idx
    rw [pc.holds_quiet hpc, pc'.holds_quiet hpc']
  · intro idx
    rw [pc.unlinks_quiet hpc, pc'.unlinks_quiet hpc']
  · intro idx linked todo hmerging
    rw [hmerging] at hpc'
    cases hpc'

theorem Linked.merging_of_mem (h : Linked d (pc :: pcs)) {idx : ℕ} {linked todo : List ℕ}
    (hmem : .mergeLink idx linked todo ∈ pcs) : d.Live idx ∧ d.members idx = linked :=
  h.merging idx linked todo (mem_cons_of_mem _ hmem)

end Front

/-! ## Taking a row -/

section Rows

variable {d : SyncDevice} {pc pc' : SyncPc} {pcs : List SyncPc} {idx : ℕ} {new : NewObj}

theorem Linked.inRange_of_free (h : Linked d pcs) (hfree : d.bitmap idx = false)
    (hidx : idx < maxObjs) : inRange idx = true := by
  have hpos : idx ≠ 0 := by
    intro hzero
    rw [hzero, h.reserved] at hfree
    cases hfree
  simp only [inRange, Bool.and_eq_true, decide_eq_true_eq]
  exact ⟨Nat.pos_of_ne_zero hpos, hidx⟩

theorem Linked.take (h : Linked d (pc :: pcs)) (hpc : pc.quiet = true)
    (hfree : d.bitmap idx = false) (hidx : idx < maxObjs) (hnew : new.WellFormed) :
    Linked (d.setBit idx true) (.owning idx new :: pcs) := by
  have hpending : pending (d.setBit idx true) (.owning idx new :: pcs) =
      pending d (pc :: pcs) := by
    funext child parent
    simp only [pending, carried_cons, pc.carries_quiet hpc]
    rfl
  have hwf : (SyncPc.owning idx new).WellFormed := ⟨h.inRange_of_free hfree hidx, hnew⟩
  refine ⟨?_, fun other => ?_, fun other => ?_, h.wellFormed_front hwf, hpending ▸ h.once,
    h.child, ?_, hpending ▸ h.member, h.nodup, hpending ▸ h.counted, ?_, ?_⟩
  · by_cases hzero : 0 = idx
    · subst hzero
      exact setBit_bitmap_self
    · rw [setBit_bitmap_of_ne hzero]
      exact h.reserved
  · have howned := h.owned other
    rw [countP_front, pc.owns_quiet hpc, Bool.toNat_false, Nat.zero_add] at howned
    rw [countP_front]
    by_cases hother : other = idx
    · subst hother
      have howns : (SyncPc.owning other new).owns other = true := beq_self_eq_true other
      rw [hfree, Bool.toNat_false] at howned
      rw [setBit_bitmap_self, howns, Bool.toNat_true, Nat.add_assoc]
      exact Nat.add_le_add_left howned 1
    · have howns : (SyncPc.owning idx new).owns other = false :=
        beq_false_of_ne (Ne.symm hother)
      rw [setBit_bitmap_of_ne hother, howns, Bool.toNat_false, Nat.zero_add]
      exact howned
  · have hlocks := h.locks other
    rw [countP_front, pc.holds_quiet hpc] at hlocks
    rw [countP_front]
    exact hlocks
  · intro child parent hparent
    apply (h.parent child parent hparent).imp_right
    apply unlinks_front
    rw [pc.unlinks_quiet hpc]
    exact fun hmem => absurd hmem not_mem_nil
  · intro other linked todo hother
    rcases mem_cons.mp hother with hother | hother
    · cases hother
    · exact h.merging_of_mem hother
  · intro other hlive hunlocked
    exact merged_front (pc.ne_merged_of_quiet hpc) (h.finished other hlive hunlocked)

/-! ## Initialising a row -/

theorem SyncPc.owns_of_unlinks {other : SyncPc} {child : ℕ} (h : child ∈ other.unlinks idx) :
    other.owns idx = true := by
  cases other with
  | mergeClean obj todo =>
    rw [SyncPc.unlinks, mem_ite_nil_right] at h
    exact beq_iff_eq.mpr h.1
  | destroyLinks obj children parents =>
    rw [SyncPc.unlinks, mem_ite_nil_right] at h
    exact beq_iff_eq.mpr h.1
  | _ => exact absurd h not_mem_nil

theorem Linked.sole_owner (h : Linked d (pc :: pcs)) (howns : pc.owns idx = true) :
    (d.table idx).state = .invalid ∧ ∀ other ∈ pcs, other.owns idx = false := by
  have howned := h.owned idx
  have hbit := (d.bitmap idx).toNat_le
  rw [countP_front, howns, Bool.toNat_true] at howned
  have hcount : pcs.countP (·.owns idx) = 0 := by omega
  have hvalid : (d.table idx).valid.toNat = 0 := by omega
  constructor
  · rw [Bool.toNat_eq_zero, SyncRow.valid, Bool.not_eq_false', decide_eq_true_eq] at hvalid
    exact hvalid
  · intro other hother
    exact Bool.eq_false_iff.mpr (countP_eq_zero.mp hcount other hother)

theorem Linked.parentsList_of_invalid (h : Linked d pcs)
    (hinvalid : (d.table idx).state = .invalid) : (d.table idx).parentsList = [] := by
  apply eq_nil_iff_forall_not_mem.mpr
  intro parent hparent
  exact (h.child idx parent hparent).2.2 hinvalid

theorem Linked.unlinked (h : Linked d (.owning idx new :: pcs)) (child : ℕ) :
    idx ∉ (d.table child).parentsList := by
  obtain ⟨hinvalid, hothers⟩ := h.sole_owner (beq_self_eq_true idx)
  intro hparent
  rcases h.parent child idx hparent with hlive | hunlinks
  · exact hlive.1.2 hinvalid
  · obtain ⟨other, hother, hmem⟩ := hunlinks
    rcases mem_cons.mp hother with rfl | hother
    · exact not_mem_nil hmem
    · have howns := hothers other hother
      rw [SyncPc.owns_of_unlinks hmem] at howns
      cases howns

section Init

variable {row : SyncRow}

theorem Linked.parentsList_init (h : Linked d pcs) (hinvalid : (d.table idx).state = .invalid)
    (hparents : row.parentsList = []) (child : ℕ) :
    ((d.setRow idx row).table child).parentsList = (d.table child).parentsList := by
  by_cases hchild : child = idx
  · subst hchild
    rw [setRow_table_self, hparents, h.parentsList_of_invalid hinvalid]
  · rw [setRow_table_of_ne hchild]

theorem Linked.owned_init (h : Linked d (.owning idx new :: pcs))
    (howns : ∀ other, pc'.owns other = false) (other : ℕ) :
    (pc' :: pcs).countP (·.owns other) + ((d.setRow idx row).table other).valid.toNat ≤
      (d.bitmap other).toNat := by
  have howned := h.owned other
  rw [countP_front] at howned ⊢
  rw [howns, Bool.toNat_false, Nat.zero_add]
  by_cases hother : other = idx
  · subst hother
    have hone : (SyncPc.owning other new).owns other = true := beq_self_eq_true other
    have hrow := row.valid.toNat_le
    rw [hone, Bool.toNat_true] at howned
    rw [setRow_table_self]
    omega
  · rw [setRow_table_of_ne hother]
    omega

theorem Linked.child_init (h : Linked d pcs) (hinvalid : (d.table idx).state = .invalid)
    (hparents : row.parentsList = []) (child parent : ℕ)
    (hparent : parent ∈ ((d.setRow idx row).table child).parentsList) :
    0 < child ∧ ((d.setRow idx row).table child).type = .indv ∧
      ((d.setRow idx row).table child).state ≠ .invalid := by
  rw [h.parentsList_init hinvalid hparents] at hparent
  have hchild := h.child child parent hparent
  have hne : child ≠ idx := by
    intro heq
    exact hchild.2.2 (heq ▸ hinvalid)
  rw [setRow_table_of_ne hne]
  exact hchild

theorem Linked.parent_init (h : Linked d (.owning idx new :: pcs))
    (hparents : row.parentsList = []) (child parent : ℕ)
    (hparent : parent ∈ ((d.setRow idx row).table child).parentsList) :
    ((d.setRow idx row).Live parent ∧
        child ∈ ((d.setRow idx row).table parent).childrenList) ∨
      ∃ other ∈ pc' :: pcs, child ∈ other.unlinks parent := by
  have hinvalid := (h.sole_owner (beq_self_eq_true idx)).1
  rw [h.parentsList_init hinvalid hparents] at hparent
  have hne : parent ≠ idx := by
    intro heq
    exact h.unlinked child (heq ▸ hparent)
  rw [SyncDevice.Live, setRow_table_of_ne hne]
  apply (h.parent child parent hparent).imp_right
  exact unlinks_front (fun hmem => absurd hmem not_mem_nil)

theorem Linked.create (h : Linked d (.owning idx new :: pcs)) (htype : row.type = .indv)
    (hparents : row.parentsList = []) :
    Linked (d.setRow idx row) (.created idx :: pcs) := by
  have hinvalid := (h.sole_owner (beq_self_eq_true idx)).1
  have hlive : ∀ parent, (d.setRow idx row).Live parent → parent ≠ idx ∧ d.Live parent := by
    intro parent hlive
    have hne : parent ≠ idx := by
      intro heq
      rw [SyncDevice.Live, heq, setRow_table_self, htype] at hlive
      cases hlive.1
    rw [SyncDevice.Live, setRow_table_of_ne hne] at hlive
    exact ⟨hne, hlive⟩
  have hpending : pending (d.setRow idx row) (.created idx :: pcs) =
      pending d (.owning idx new :: pcs) := by
    funext child parent
    rw [pending, h.parentsList_init hinvalid hparents]
    rfl
  refine ⟨h.reserved, h.owned_init (fun _ => rfl), h.locks, h.wellFormed_front trivial,
    hpending ▸ h.once, h.child_init hinvalid hparents, h.parent_init hparents, ?_, ?_, ?_, ?_, ?_⟩
  · rw [hpending]
    intro child parent hparent
    exact h.member child parent (hlive parent hparent).2
  · intro parent hparent
    exact h.nodup parent (hlive parent hparent).2
  · rw [hpending]
    intro parent hparent
    rw [setRow_table_of_ne (hlive parent hparent).1]
    exact h.counted parent (hlive parent hparent).2
  · intro other linked todo hother
    rcases mem_cons.mp hother with hother | hother
    · cases hother
    · have hmerging := h.merging_of_mem hother
      have hne : other ≠ idx := by
        intro heq
        exact hmerging.1.2 (heq ▸ hinvalid)
      rw [SyncDevice.Live, setRow_table_of_ne hne]
      exact hmerging
  · intro other hother hunlocked
    exact merged_front (fun _ _ => SyncPc.noConfusion)
      (h.finished other (hlive other hother).2 hunlocked)

/-- A merge begins in the row. A signal that still carries a link to the row would count for it. -/
theorem Linked.group {objs : List ℕ} (h : Linked d (.owning idx (.group objs) :: pcs))
    (hvalid : row.state ≠ .invalid) (htype : row.type = .group) (hremaining : row.remaining = 0)
    (hparents : row.parentsList = []) (hlocked : d.rowLocked idx = false)
    (hcarried : ∀ child, (child, idx) ∉ carried pcs) :
    Linked (((d.setRow idx row).setLock idx true).setMembers idx [])
      (.mergeLink idx [] objs :: pcs) := by
  have hinvalid := (h.sole_owner (beq_self_eq_true idx)).1
  have hwf := h.wellFormed _ mem_cons_self
  have hlive : ∀ parent, (d.setRow idx row).Live parent → parent ≠ idx → d.Live parent := by
    intro parent hlive hne
    rw [SyncDevice.Live, setRow_table_of_ne hne] at hlive
    exact hlive
  have hidx : (d.setRow idx row).Live idx := by
    rw [SyncDevice.Live, setRow_table_self]
    exact ⟨htype, hvalid⟩
  have hpending : pending (((d.setRow idx row).setLock idx true).setMembers idx [])
      (.mergeLink idx [] objs :: pcs) = pending d (.owning idx (.group objs) :: pcs) := by
    funext child parent
    exact congrArg (·.count parent + (carried pcs).count (child, parent))
      (h.parentsList_init hinvalid hparents child)
  have hnone : ∀ child, pending d (.owning idx (.group objs) :: pcs) child idx = 0 := by
    intro child
    rw [pending, count_eq_zero_of_not_mem (h.unlinked child), Nat.zero_add]
    exact count_eq_zero_of_not_mem (hcarried child)
  refine ⟨h.reserved, h.owned_init (fun _ => rfl), fun other => ?_,
    h.wellFormed_front hwf, hpending ▸ h.once, h.child_init hinvalid hparents,
    h.parent_init hparents, ?_, ?_, ?_, ?_, ?_⟩
  · have hlocks := h.locks other
    rw [countP_front] at hlocks ⊢
    by_cases hother : other = idx
    · subst hother
      have hholds : (SyncPc.mergeLink other [] objs).holds other = true := beq_self_eq_true other
      have hold : (SyncPc.owning other (.group objs)).holds other = false := rfl
      rw [hlocked, hold, Bool.toNat_false, Nat.zero_add] at hlocks
      rw [hholds]
      simp only [SyncDevice.setMembers, setLock_rowLocked_self, Bool.toNat_true]
      omega
    · have hholds : (SyncPc.mergeLink idx [] objs).holds other = false :=
        beq_false_of_ne (Ne.symm hother)
      rw [hholds]
      simp only [SyncDevice.setMembers]
      rw [setLock_rowLocked_of_ne hother]
      exact hlocks
  · rw [hpending]
    intro child parent hparent hpos
    have hne : parent ≠ idx := by
      intro heq
      rw [heq, hnone] at hpos
      exact Nat.lt_irrefl 0 hpos
    rw [setMembers_members_of_ne hne]
    exact h.member child parent (hlive parent hparent hne) hpos
  · intro parent hparent
    by_cases hne : parent = idx
    · subst hne
      rw [setMembers_members_self]
      exact nodup_nil
    · rw [setMembers_members_of_ne hne]
      exact h.nodup parent (hlive parent hparent hne)
  · rw [hpending]
    intro parent hparent
    by_cases hne : parent = idx
    · subst hne
      simp only [setMembers_members_self, countP_nil]
      simp only [SyncDevice.setMembers, SyncDevice.setLock, setRow_table_self,
        hremaining]
      rfl
    · rw [setMembers_members_of_ne hne]
      simp only [SyncDevice.setMembers, SyncDevice.setLock]
      rw [setRow_table_of_ne hne]
      exact h.counted parent (hlive parent hparent hne)
  · intro other linked todo hother
    rcases mem_cons.mp hother with hother | hother
    · cases hother
      exact ⟨hidx, setMembers_members_self⟩
    · have hmerging := h.merging_of_mem hother
      have hne : other ≠ idx := by
        intro heq
        exact hmerging.1.2 (heq ▸ hinvalid)
      rw [setMembers_members_of_ne hne]
      refine ⟨?_, hmerging.2⟩
      rw [SyncDevice.Live]
      simp only [SyncDevice.setMembers, SyncDevice.setLock]
      rw [setRow_table_of_ne hne]
      exact hmerging.1
  · intro other hother hunlocked
    have hne : other ≠ idx := by
      intro heq
      subst heq
      simp only [SyncDevice.setMembers, setLock_rowLocked_self] at hunlocked
      cases hunlocked
    simp only [SyncDevice.setMembers] at hunlocked
    rw [setLock_rowLocked_of_ne hne] at hunlocked
    rw [setMembers_members_of_ne hne]
    exact merged_front (fun _ _ => SyncPc.noConfusion)
      (h.finished other (hlive other hother hne) hunlocked)

end Init

/-! ## Signals -/

section Signals

variable {child parent cause : ℕ} {status : SyncState} {parents : List ℕ}

theorem count_map_pair (child child' parent : ℕ) (parents : List ℕ) :
    (parents.map (child, ·)).count (child', parent) =
      if child' = child then parents.count parent else 0 := by
  split
  · rename_i heq
    subst heq
    exact count_map_of_injective _ _ (fun _ _ heq => congrArg Prod.snd heq) parent
  · rename_i hne
    apply count_eq_zero_of_not_mem
    intro hmem
    obtain ⟨other, -, heq⟩ := mem_map.mp hmem
    exact hne (congrArg Prod.fst heq).symm

def SyncDevice.takeParents (d : SyncDevice) (obj : ℕ) : SyncDevice :=
  d.setRow obj { d.table obj with parentsList := [] }

def SyncDevice.countDown (d : SyncDevice) (parent : ℕ) : SyncDevice :=
  d.setRow parent { d.table parent with remaining := (d.table parent).remaining - 1 }

theorem SyncDevice.takeParents_table (d : SyncDevice) (obj idx : ℕ) :
    (d.takeParents obj).table idx = { d.table idx with
      parentsList := if idx = obj then [] else (d.table idx).parentsList } := by
  rw [SyncDevice.takeParents]
  split
  · rename_i heq
    subst heq
    rw [setRow_table_self]
  · rename_i hne
    rw [setRow_table_of_ne hne]

theorem SyncDevice.countDown_table (d : SyncDevice) (parent idx : ℕ) :
    (d.countDown parent).table idx = { d.table idx with
      remaining := if idx = parent then (d.table parent).remaining - 1
        else (d.table idx).remaining } := by
  rw [SyncDevice.countDown]
  split
  · rename_i heq
    subst heq
    rw [setRow_table_self]
  · rename_i hne
    rw [setRow_table_of_ne hne]

theorem pending_takeParents (hcarries : pc.carries = []) (obj : ℕ) :
    pending (d.takeParents obj) (.signalParents obj status cause (d.table obj).parentsList :: pcs) =
      pending d (pc :: pcs) := by
  funext child parent
  simp only [pending, carried_cons, hcarries, nil_append]
  simp only [SyncPc.carries, count_append, count_map_pair]
  by_cases hchild : child = obj
  · subst hchild
    rw [if_pos rfl, takeParents_table, if_pos rfl, count_nil, Nat.zero_add]
  · rw [if_neg hchild, takeParents_table, if_neg hchild, Nat.zero_add]

theorem pending_countDown (c p : ℕ) :
    pending d (.signalParents child status cause (parent :: parents) :: pcs) c p =
      pending (d.countDown parent) (.signalParents child status cause parents :: pcs) c p +
        if c = child ∧ p = parent then 1 else 0 := by
  simp only [pending, carried_cons, SyncPc.carries, count_append, count_map_pair,
    countDown_table, count_cons, beq_iff_eq]
  by_cases hc : c = child
  · by_cases hp : p = parent
    · subst hc hp
      simp only [if_true, and_self]
      omega
    · subst hc
      rw [if_pos rfl, if_pos rfl, if_neg (Ne.symm hp), if_neg (fun hboth => hp hboth.2)]
      rfl
  · rw [if_neg hc, if_neg hc, if_neg (fun hboth => hc hboth.1)]
    rfl

theorem Linked.splice (h : Linked d (pc :: pcs)) (hpc : pc.quiet = true)
    (hsignaled : status.signaled = true) (obj : ℕ) :
    Linked (d.takeParents obj)
      (.signalParents obj status cause (d.table obj).parentsList :: pcs) := by
  have hpending : pending (d.takeParents obj)
      (.signalParents obj status cause (d.table obj).parentsList :: pcs) =
      pending d (pc :: pcs) := pending_takeParents (pc.carries_quiet hpc) obj
  have hparents : ∀ idx other,
      other ∈ ((d.takeParents obj).table idx).parentsList →
        other ∈ (d.table idx).parentsList := by
    intro idx other hother
    rw [takeParents_table] at hother
    exact (mem_ite_nil_left.mp hother).2
  have hlive : ∀ idx, (d.takeParents obj).Live idx ↔
      d.Live idx := by
    intro idx
    rw [SyncDevice.Live, takeParents_table]
    rfl
  refine ⟨h.reserved, fun idx => ?_, fun idx => ?_, h.wellFormed_front hsignaled,
    hpending ▸ h.once, ?_, ?_, ?_, ?_, ?_, ?_, ?_⟩
  · have howned := h.owned idx
    rw [countP_front, pc.owns_quiet hpc] at howned
    rw [countP_front, takeParents_table]
    exact howned
  · have hlocks := h.locks idx
    rw [countP_front, pc.holds_quiet hpc] at hlocks
    rw [countP_front]
    exact hlocks
  · intro child parent hparent
    rw [takeParents_table]
    exact h.child child parent (hparents child parent hparent)
  · intro child parent hparent
    rw [hlive, takeParents_table d _ parent]
    apply (h.parent child parent (hparents child parent hparent)).imp_right
    apply unlinks_front
    rw [pc.unlinks_quiet hpc]
    exact fun hmem => absurd hmem not_mem_nil
  · rw [hpending]
    intro child parent hparent
    exact h.member child parent ((hlive parent).mp hparent)
  · intro parent hparent
    exact h.nodup parent ((hlive parent).mp hparent)
  · rw [hpending]
    intro parent hparent
    rw [takeParents_table]
    exact h.counted parent ((hlive parent).mp hparent)
  · intro idx linked todo hother
    rcases mem_cons.mp hother with hother | hother
    · cases hother
    · rw [hlive]
      exact h.merging_of_mem hother
  · intro idx hidx hunlocked
    exact merged_front (pc.ne_merged_of_quiet hpc) (h.finished idx ((hlive idx).mp hidx) hunlocked)

theorem countP_drop {l : List ℕ} (hl : l.Nodup) (hmem : child ∈ l) {p q : ℕ → Bool}
    (hp : p child = true) (hq : q child = false) (heq : ∀ x ≠ child, q x = p x) :
    l.countP p = l.countP q + 1 := by
  obtain ⟨l₁, l₂, rfl⟩ := append_of_mem hmem
  have hnot : child ∉ l₁ ++ l₂ := (nodup_middle.mp hl).notMem
  have hcongr : (l₁ ++ l₂).countP p = (l₁ ++ l₂).countP q := by
    apply countP_congr
    intro x hx
    rw [heq x (fun hxc => hnot (hxc ▸ hx))]
  rw [perm_middle.countP_eq, perm_middle.countP_eq, countP_cons_of_pos hp,
    countP_cons_of_neg (by simp [hq]), hcongr]

theorem Linked.propagate
    (h : Linked d (.signalParents child status cause (parent :: parents) :: pcs))
    (hlocked : d.rowLocked parent = false) :
    Linked (d.countDown parent)
      (.signalParents child status cause parents :: pcs) := by
  have hwf : status.signaled = true := h.wellFormed _ mem_cons_self
  have hpending : ∀ c p,
      pending d (.signalParents child status cause (parent :: parents) :: pcs) c p =
      pending (d.countDown parent) (.signalParents child status cause parents :: pcs) c p +
        if c = child ∧ p = parent then 1 else 0 := pending_countDown
  have hother : ∀ c p, p ≠ parent → pending (d.countDown parent)
        (.signalParents child status cause parents :: pcs) c p =
      pending d (.signalParents child status cause (parent :: parents) :: pcs) c p := by
    intro c p hp
    rw [hpending, if_neg (fun hboth => hp hboth.2)]
    rfl
  have hlive : ∀ idx, (d.countDown parent).Live idx ↔
      d.Live idx := by
    intro idx
    rw [SyncDevice.Live, countDown_table]
    rfl
  refine ⟨h.reserved, fun idx => ?_, h.locks, h.wellFormed_front hwf, ?_, ?_, ?_, ?_, ?_,
    ?_, ?_, ?_⟩
  · rw [countDown_table]
    exact h.owned idx
  · intro c p
    have honce := h.once c p
    rw [hpending] at honce
    omega
  · intro c p hparent
    rw [countDown_table] at hparent ⊢
    exact h.child c p hparent
  · intro c p hparent
    rw [countDown_table] at hparent
    rw [hlive, countDown_table d _ p]
    apply (h.parent c p hparent).imp_right
    exact unlinks_front id
  · intro c p hp hpos
    apply h.member c p ((hlive p).mp hp)
    rw [hpending]
    omega
  · intro p hp
    exact h.nodup p ((hlive p).mp hp)
  · intro p hp
    have hcounted := h.counted p ((hlive p).mp hp)
    by_cases heq : p = parent
    · subst heq
      have hold := hpending child p
      have honce := h.once child p
      rw [if_pos ⟨rfl, rfl⟩] at hold
      have hmem : child ∈ d.members p := h.member child p ((hlive p).mp hp) (by omega)
      have hdrop := countP_drop (h.nodup p ((hlive p).mp hp)) hmem
        (p := fun c => 0 < pending d (.signalParents child status cause (p :: parents) :: pcs) c p)
        (q := fun c => 0 < pending (d.countDown p)
          (.signalParents child status cause parents :: pcs) c p)
        (by rw [decide_eq_true_eq]; omega) (by rw [decide_eq_false_iff_not]; omega)
        (fun c hc => by rw [hpending c p, if_neg (fun hboth => hc hboth.1), Nat.add_zero])
      rw [hdrop] at hcounted
      rw [countDown_table, if_pos rfl, UInt32.toNat_sub_of_le]
      · rw [hcounted]
        rfl
      · rw [UInt32.le_iff_toNat_le, hcounted]
        exact Nat.le_add_left _ _
    · rw [countDown_table, if_neg heq, hcounted]
      apply countP_congr
      intro c _
      rw [hother c p heq]
  · intro idx linked todo hmem
    rcases mem_cons.mp hmem with hmem | hmem
    · cases hmem
    · rw [hlive]
      exact h.merging_of_mem hmem
  · intro idx hidx hunlocked
    exact merged_front (fun _ _ => SyncPc.noConfusion)
      (h.finished idx ((hlive idx).mp hidx) hunlocked)

end Signals

/-! ## Giving a row up -/

section Invalid

variable {row : SyncRow}

theorem Linked.parentsList_of_live (h : Linked d pcs) (hlive : d.Live idx) :
    (d.table idx).parentsList = [] := by
  apply eq_nil_iff_forall_not_mem.mpr
  intro parent hparent
  have hindv := (h.child idx parent hparent).2.1
  rw [hlive.1] at hindv
  cases hindv

theorem parentsList_setRow (hparents : row.parentsList = (d.table idx).parentsList)
    (child : ℕ) : ((d.setRow idx row).table child).parentsList = (d.table child).parentsList := by
  by_cases hchild : child = idx
  · subst hchild
    rw [setRow_table_self, hparents]
  · rw [setRow_table_of_ne hchild]

theorem live_setRow_invalid (hinvalid : row.state = .invalid) {other : ℕ}
    (hlive : (d.setRow idx row).Live other) : other ≠ idx ∧ d.Live other := by
  have hne : other ≠ idx := by
    intro heq
    rw [SyncDevice.Live, heq, setRow_table_self] at hlive
    exact hlive.2 hinvalid
  rw [SyncDevice.Live, setRow_table_of_ne hne] at hlive
  exact ⟨hne, hlive⟩

theorem Linked.invalidate (h : Linked d (pc :: pcs)) (pc' : SyncPc) (hlive : d.Live idx)
    (hinvalid : row.state = .invalid) (hparents : row.parentsList = [])
    (hmerged : ∀ other objs, pc ≠ .merged other objs)
    (hwf : pc'.WellFormed) (hcarries : pc'.carries = pc.carries)
    (howns : ∀ other, pc.owns other = false) (howns' : ∀ other, pc'.owns other = (idx == other))
    (hholds : ∀ other, pc'.holds other = pc.holds other)
    (hunlinks : ∀ other, pc.unlinks other = [])
    (hunlinks' : ∀ child, idx ∈ (d.table child).parentsList → child ∈ pc'.unlinks idx)
    (hmerging : ∀ other linked todo, pc' ≠ .mergeLink other linked todo)
    (hothers : ∀ linked todo, .mergeLink idx linked todo ∉ pcs) :
    Linked (d.setRow idx row) (pc' :: pcs) := by
  have hsame : ∀ child, ((d.setRow idx row).table child).parentsList =
      (d.table child).parentsList :=
    parentsList_setRow (hparents.trans (h.parentsList_of_live hlive).symm)
  have hpending : pending (d.setRow idx row) (pc' :: pcs) = pending d (pc :: pcs) := by
    funext child parent
    rw [pending, hsame, pending, carried_cons, hcarries]
    rfl
  refine ⟨h.reserved, fun other => ?_, fun other => ?_, h.wellFormed_front hwf,
    hpending ▸ h.once, ?_, ?_, ?_, ?_, ?_, ?_, ?_⟩
  · have howned := h.owned other
    rw [countP_front, howns, Bool.toNat_false] at howned
    rw [countP_front, howns']
    by_cases hother : other = idx
    · subst hother
      have hvalid : (d.table other).valid = true := by
        rw [SyncRow.valid, decide_eq_false hlive.2, Bool.not_false]
      have hrow : row.valid = false := by
        rw [SyncRow.valid, decide_eq_true hinvalid, Bool.not_true]
      rw [hvalid, Bool.toNat_true] at howned
      rw [setRow_table_self, hrow, beq_self_eq_true, Bool.toNat_true, Bool.toNat_false]
      exact Nat.le_trans (Nat.le_of_eq (by omega)) howned
    · rw [setRow_table_of_ne hother, beq_false_of_ne (Ne.symm hother),
        Bool.toNat_false]
      exact howned
  · rw [countP_front, hholds, ← countP_front]
    exact h.locks other
  · intro child parent hparent
    rw [hsame] at hparent
    have hchild := h.child child parent hparent
    have hne : child ≠ idx := by
      intro heq
      rw [heq, hlive.1] at hchild
      cases hchild.2.1
    rw [setRow_table_of_ne hne]
    exact hchild
  · intro child parent hparent
    rw [hsame] at hparent
    by_cases hidx : parent = idx
    · subst hidx
      exact .inr ⟨pc', mem_cons_self, hunlinks' child hparent⟩
    · rw [SyncDevice.Live, setRow_table_of_ne hidx]
      apply (h.parent child parent hparent).imp_right
      apply unlinks_front
      rw [hunlinks]
      exact fun hmem => absurd hmem not_mem_nil
  · rw [hpending]
    intro child parent hparent
    exact h.member child parent (live_setRow_invalid hinvalid hparent).2
  · intro parent hparent
    exact h.nodup parent (live_setRow_invalid hinvalid hparent).2
  · rw [hpending]
    intro parent hparent
    rw [setRow_table_of_ne (live_setRow_invalid hinvalid hparent).1]
    exact h.counted parent (live_setRow_invalid hinvalid hparent).2
  · intro other linked todo hother
    rcases mem_cons.mp hother with hother | hother
    · exact absurd hother.symm (hmerging other linked todo)
    · have hne : other ≠ idx := by
        intro heq
        exact hothers linked todo (heq ▸ hother)
      rw [SyncDevice.Live, setRow_table_of_ne hne]
      exact h.merging_of_mem hother
  · intro other hother hunlocked
    exact merged_front hmerged
      (h.finished other (live_setRow_invalid hinvalid hother).2 hunlocked)

theorem unlinkParent_table (d : SyncDevice) (child parent c : ℕ) :
    (d.unlinkParent child parent).table c = { d.table c with
      parentsList := if c = child then (d.table c).parentsList.erase parent
        else (d.table c).parentsList } := by
  rw [SyncDevice.unlinkParent]
  split
  · rename_i heq
    subst heq
    rw [setRow_table_self]
  · rename_i hne
    rw [setRow_table_of_ne hne]

theorem pending_unlinkParent {child c p : ℕ} (hcarries : pc'.carries = pc.carries)
    (hp : p ≠ idx) : pending (d.unlinkParent child idx) (pc' :: pcs) c p =
      pending d (pc :: pcs) c p := by
  rw [pending, pending, carried_cons, hcarries, unlinkParent_table]
  simp only
  split
  · rw [count_erase_of_ne hp]
    rfl
  · rfl

theorem pending_unlinkParent_le {child : ℕ} (hcarries : pc'.carries = pc.carries) (c p : ℕ) :
    pending (d.unlinkParent child idx) (pc' :: pcs) c p ≤ pending d (pc :: pcs) c p := by
  rw [pending, pending, carried_cons, hcarries, unlinkParent_table]
  simp only
  split
  · exact Nat.add_le_add_right (erase_sublist.count_le p) _
  · exact Nat.le_refl _

theorem Linked.unlink (h : Linked d (pc :: pcs)) (pc' : SyncPc) {child : ℕ}
    (howner : pc.owns idx = true)
    (hmerged : ∀ other objs, pc ≠ .merged other objs)
    (hwf : pc'.WellFormed) (hcarries : pc'.carries = pc.carries)
    (howns : ∀ other, pc'.owns other = pc.owns other)
    (hholds : ∀ other, pc'.holds other = pc.holds other)
    (hunlinks : ∀ c other, c ∈ pc.unlinks other → c ∈ pc'.unlinks other ∨ c = child ∧ other = idx)
    (hmerging : ∀ other linked todo, pc' ≠ .mergeLink other linked todo) :
    Linked (d.unlinkParent child idx) (pc' :: pcs) := by
  have hinvalid := (h.sole_owner howner).1
  have htable := unlinkParent_table d child idx
  have hparents : ∀ c p, p ∈ ((d.unlinkParent child idx).table c).parentsList →
      p ∈ (d.table c).parentsList ∧ ¬(c = child ∧ p = idx) := by
    intro c p hp
    rw [htable] at hp
    simp only at hp
    split at hp
    · rename_i heq
      refine ⟨mem_of_mem_erase hp, ?_⟩
      intro hboth
      have honce := h.once c p
      have hcount : 0 < ((d.table c).parentsList.erase idx).count p := count_pos_iff.mpr hp
      rw [hboth.2, count_erase_self, ← hboth.2] at hcount
      rw [pending] at honce
      omega
    · rename_i hne
      exact ⟨hp, fun hboth => hne hboth.1⟩
  have hcount : ∀ c p, p ≠ idx →
      pending (d.unlinkParent child idx) (pc' :: pcs) c p = pending d (pc :: pcs) c p :=
    fun c p => pending_unlinkParent hcarries
  have hlive : ∀ p, (d.unlinkParent child idx).Live p → p ≠ idx ∧ d.Live p := by
    intro p hp
    rw [SyncDevice.Live, htable] at hp
    exact ⟨fun heq => hp.2 (heq ▸ hinvalid), hp⟩
  refine ⟨h.reserved, fun other => ?_, fun other => ?_, h.wellFormed_front hwf, ?_, ?_, ?_, ?_,
    ?_, ?_, ?_, ?_⟩
  · rw [countP_front, howns, ← countP_front, htable]
    exact h.owned other
  · rw [countP_front, hholds, ← countP_front]
    exact h.locks other
  · intro c p
    exact Nat.le_trans (pending_unlinkParent_le hcarries c p) (h.once c p)
  · intro c p hp
    rw [htable]
    exact h.child c p (hparents c p hp).1
  · intro c p hp
    obtain ⟨hmem, hnot⟩ := hparents c p hp
    rcases h.parent c p hmem with hlinked | hunlink
    · rw [SyncDevice.Live, htable]
      exact .inl hlinked
    · apply Or.inr
      apply unlinks_front _ hunlink
      intro hfront
      exact (hunlinks c p hfront).resolve_right hnot
  · intro c p hp hpos
    rw [hcount c p (hlive p hp).1] at hpos
    exact h.member c p (hlive p hp).2 hpos
  · intro p hp
    exact h.nodup p (hlive p hp).2
  · intro p hp
    rw [htable]
    simp only
    rw [h.counted p (hlive p hp).2]
    apply countP_congr
    intro c _
    rw [hcount c p (hlive p hp).1]
  · intro other linked todo hother
    rcases mem_cons.mp hother with hother | hother
    · exact absurd hother.symm (hmerging other linked todo)
    · rw [SyncDevice.Live, htable]
      exact h.merging_of_mem hother
  · intro other hother hunlocked
    exact merged_front hmerged (h.finished other (hlive other hother).2 hunlocked)

theorem Linked.release (h : Linked d (pc :: pcs)) (pc' : SyncPc) (hpos : idx ≠ 0)
    (howns : ∀ other, pc.owns other = (idx == other)) (hinvalid : row.state = .invalid)
    (hparents : row.parentsList = []) (hunlinks : ∀ other, pc.unlinks other = [])
    (hmerged : ∀ other objs, pc ≠ .merged other objs)
    (hwf : pc'.WellFormed) (hcarries : pc'.carries = pc.carries)
    (howns' : ∀ other, pc'.owns other = false)
    (hholds : ∀ other, pc'.holds other = pc.holds other)
    (hmerging : ∀ other linked todo, pc' ≠ .mergeLink other linked todo) :
    Linked ((d.setRow idx row).setBit idx false) (pc' :: pcs) := by
  obtain ⟨hold, hothers⟩ := h.sole_owner ((howns idx).trans (beq_self_eq_true idx))
  have hsame : ∀ child, (((d.setRow idx row).setBit idx false).table child).parentsList =
      (d.table child).parentsList :=
    parentsList_setRow (hparents.trans (h.parentsList_of_invalid hold).symm)
  have hpending : pending ((d.setRow idx row).setBit idx false) (pc' :: pcs) =
      pending d (pc :: pcs) := by
    funext child parent
    rw [pending, hsame, pending, carried_cons, hcarries]
    rfl
  have hlive : ∀ other, ((d.setRow idx row).setBit idx false).Live other →
      other ≠ idx ∧ d.Live other := fun other => live_setRow_invalid hinvalid
  have htable : ∀ other, other ≠ idx →
      ((d.setRow idx row).setBit idx false).table other = d.table other :=
    fun other => setRow_table_of_ne
  refine ⟨?_, fun other => ?_, fun other => ?_, h.wellFormed_front hwf, hpending ▸ h.once, ?_, ?_,
    ?_, ?_, ?_, ?_, ?_⟩
  · rw [setBit_bitmap_of_ne (Ne.symm hpos)]
    exact h.reserved
  · have howned := h.owned other
    rw [countP_front, howns] at howned
    rw [countP_front, howns', Bool.toNat_false, Nat.zero_add]
    by_cases hother : other = idx
    · subst hother
      have hrow : row.valid = false := by
        rw [SyncRow.valid, decide_eq_true hinvalid, Bool.not_true]
      have hnone : pcs.countP (·.owns other) = 0 := by
        apply countP_eq_zero.mpr
        intro pc hpc
        rw [hothers pc hpc]
        exact Bool.false_ne_true
      have htable' : ((d.setRow other row).setBit other false).table other = row :=
        setRow_table_self
      rw [hnone, htable', hrow]
      exact Nat.zero_le _
    · rw [htable other hother, setBit_bitmap_of_ne hother]
      exact Nat.le_trans (Nat.add_le_add_right (Nat.le_add_left _ _) _) howned
  · rw [countP_front, hholds, ← countP_front]
    exact h.locks other
  · intro child parent hparent
    rw [hsame] at hparent
    have hchild := h.child child parent hparent
    rw [htable child (fun heq => hchild.2.2 (heq ▸ hold))]
    exact hchild
  · intro child parent hparent
    rw [hsame] at hparent
    have hidx : parent ≠ idx := by
      intro heq
      rcases h.parent child parent hparent with hlinked | hunlink
      · exact hlinked.1.2 (heq ▸ hold)
      · obtain ⟨other, hother, hmem⟩ := hunlink
        rcases mem_cons.mp hother with rfl | hother
        · rw [hunlinks] at hmem
          exact not_mem_nil hmem
        · have howned := hothers other hother
          rw [← heq, SyncPc.owns_of_unlinks hmem] at howned
          cases howned
    rw [SyncDevice.Live, htable parent hidx]
    apply (h.parent child parent hparent).imp_right
    apply unlinks_front
    rw [hunlinks]
    exact fun hmem => absurd hmem not_mem_nil
  · rw [hpending]
    intro child parent hparent
    exact h.member child parent (hlive parent hparent).2
  · intro parent hparent
    exact h.nodup parent (hlive parent hparent).2
  · rw [hpending]
    intro parent hparent
    rw [htable parent (hlive parent hparent).1]
    exact h.counted parent (hlive parent hparent).2
  · intro other linked todo hother
    rcases mem_cons.mp hother with hother | hother
    · exact absurd hother.symm (hmerging other linked todo)
    · have hmerge := h.merging_of_mem hother
      rw [SyncDevice.Live, htable other (fun heq => hmerge.1.2 (heq ▸ hold))]
      exact hmerge
  · intro other hother hunlocked
    exact merged_front hmerged (h.finished other (hlive other hother).2 hunlocked)

end Invalid

/-! ## The loop of a merge -/

section Merge

variable {child : ℕ} {linked todo : List ℕ}

theorem Linked.sole_holder (h : Linked d (pc :: pcs)) (hholds : pc.holds idx = true) :
    d.rowLocked idx = true ∧ ∀ other ∈ pcs, other.holds idx = false := by
  have hlocks := h.locks idx
  have hlocked := (d.rowLocked idx).toNat_le
  rw [countP_front, hholds, Bool.toNat_true] at hlocks
  have hcount : pcs.countP (·.holds idx) = 0 := by omega
  constructor
  · cases hrow : d.rowLocked idx with
    | true => rfl
    | false =>
      rw [hrow, Bool.toNat_false] at hlocks
      omega
  · intro other hother
    exact Bool.eq_false_iff.mpr (countP_eq_zero.mp hcount other hother)

theorem Linked.sole_merge (h : Linked d (.mergeLink idx linked todo :: pcs))
    (linked' todo' : List ℕ) : .mergeLink idx linked' todo' ∉ pcs := by
  intro hmem
  have hholds := (h.sole_holder (beq_self_eq_true idx)).2 _ hmem
  rw [SyncPc.holds, beq_self_eq_true] at hholds
  cases hholds

theorem Linked.todo_not_pending (h : Linked d (.mergeLink idx linked (child :: todo) :: pcs)) :
    pending d (.mergeLink idx linked (child :: todo) :: pcs) child idx = 0 := by
  obtain ⟨hlive, hmembers⟩ := h.merging idx linked (child :: todo) mem_cons_self
  have hnodup := (h.wellFormed _ mem_cons_self).2.1
  apply Nat.eq_zero_of_not_pos
  intro hpos
  have hmem := h.member child idx hlive hpos
  rw [hmembers] at hmem
  exact (disjoint_of_nodup_append hnodup) hmem mem_cons_self

theorem SyncPc.WellFormed.next (h : (SyncPc.mergeLink idx linked (child :: todo)).WellFormed) :
    (SyncPc.mergeLink idx (linked ++ [child]) todo).WellFormed := by
  rw [SyncPc.WellFormed, append_assoc, singleton_append]
  exact h

theorem nodup_concat_linked (h : (SyncPc.mergeLink idx linked (child :: todo)).WellFormed) :
    (linked ++ [child]).Nodup :=
  (nodup_append.mp h.next.2.1).1

theorem length_linked_lt (h : (SyncPc.mergeLink idx linked (child :: todo)).WellFormed) :
    linked.length < maxObjs := by
  have hsub : linked ++ [child] ⊆ range maxObjs := by
    intro obj hobj
    have hrange := h.next.2.2 obj (mem_append_left _ hobj)
    simp only [inRange, Bool.and_eq_true, decide_eq_true_eq] at hrange
    exact mem_range.mpr hrange.2
  have hlength := (subperm_of_subset (nodup_concat_linked h) hsub).length_le
  rw [length_append, length_singleton, length_range] at hlength
  exact hlength

theorem Linked.skip (h : Linked d (.mergeLink idx linked (child :: todo) :: pcs)) :
    Linked (d.setMembers idx (linked ++ [child])) (.mergeLink idx (linked ++ [child]) todo :: pcs)
    := by
  obtain ⟨hlive, hmembers⟩ := h.merging idx linked (child :: todo) mem_cons_self
  have hwf := h.wellFormed _ mem_cons_self
  have hpending : pending (d.setMembers idx (linked ++ [child]))
      (.mergeLink idx (linked ++ [child]) todo :: pcs) =
      pending d (.mergeLink idx linked (child :: todo) :: pcs) := rfl
  refine ⟨h.reserved, h.owned, h.locks, h.wellFormed_front hwf.next, h.once, h.child, ?_, ?_, ?_,
    ?_, ?_, ?_⟩
  · intro c p hp
    apply (h.parent c p hp).imp_right
    exact unlinks_front id
  · rw [hpending]
    intro c p hp hpos
    have hmem := h.member c p hp hpos
    by_cases hne : p = idx
    · subst hne
      rw [hmembers] at hmem
      rw [setMembers_members_self]
      exact mem_append_left _ hmem
    · rw [setMembers_members_of_ne hne]
      exact hmem
  · intro p hp
    by_cases hne : p = idx
    · subst hne
      rw [setMembers_members_self]
      exact nodup_concat_linked hwf
    · rw [setMembers_members_of_ne hne]
      exact h.nodup p hp
  · rw [hpending]
    intro p hp
    have hcounted := h.counted p hp
    by_cases hne : p = idx
    · subst hne
      have hnone : [child].countP (fun c =>
          0 < pending d (.mergeLink p linked (child :: todo) :: pcs) c p) = 0 := by
        rw [countP_cons_of_neg, countP_nil]
        rw [h.todo_not_pending]
        decide
      rw [setMembers_members_self, countP_append, hnone, ← hmembers]
      exact hcounted
    · rw [setMembers_members_of_ne hne]
      exact hcounted
  · intro other linked' todo' hother
    rcases mem_cons.mp hother with hother | hother
    · cases hother
      exact ⟨hlive, setMembers_members_self⟩
    · have hne : other ≠ idx := by
        intro heq
        exact h.sole_merge linked' todo' (heq ▸ hother)
      rw [setMembers_members_of_ne hne]
      exact h.merging_of_mem hother
  · intro other hother hunlocked
    have hne : other ≠ idx := by
      intro heq
      have hlocked := (h.sole_holder (beq_self_eq_true idx)).1
      rw [← heq] at hlocked
      exact Bool.false_ne_true (hunlocked.symm.trans hlocked)
    rw [setMembers_members_of_ne hne]
    exact merged_front (fun _ _ => SyncPc.noConfusion) (h.finished other hother hunlocked)

/-- What the loop writes for a child that is still active: one more remaining, and the link in
both rows. -/
def SyncDevice.addLink (d : SyncDevice) (idx child : ℕ) : SyncDevice :=
  (d.setRow idx { d.table idx with
      remaining := (d.table idx).remaining + 1
      childrenList := (d.table idx).childrenList ++ [child] }).setRow child
    { d.table child with parentsList := (d.table child).parentsList ++ [idx] }

theorem SyncDevice.addLink_table (hne : child ≠ idx) (c : ℕ) :
    (d.addLink idx child).table c = { d.table c with
      remaining := if c = idx then (d.table c).remaining + 1 else (d.table c).remaining
      childrenList := if c = idx then (d.table c).childrenList ++ [child]
        else (d.table c).childrenList
      parentsList := if c = child then (d.table c).parentsList ++ [idx]
        else (d.table c).parentsList } := by
  rw [SyncDevice.addLink]
  by_cases hchild : c = child
  · subst hchild
    rw [setRow_table_self, if_pos rfl, if_neg hne, if_neg hne]
  · rw [setRow_table_of_ne hchild, if_neg hchild]
    by_cases hidx : c = idx
    · subst hidx
      rw [setRow_table_self, if_pos rfl, if_pos rfl]
    · rw [setRow_table_of_ne hidx, if_neg hidx, if_neg hidx]

theorem pending_addLink (hne : child ≠ idx) (c p : ℕ) :
    pending ((d.setMembers idx (linked ++ [child])).addLink idx child)
      (.mergeLink idx (linked ++ [child]) todo :: pcs) c p =
      pending d (.mergeLink idx linked (child :: todo) :: pcs) c p +
        if c = child ∧ p = idx then 1 else 0 := by
  rw [pending, addLink_table hne, pending]
  simp only [SyncDevice.setMembers]
  by_cases hc : c = child
  · rw [if_pos hc, count_append, count_singleton]
    by_cases hp : p = idx
    · subst hp
      rw [beq_self_eq_true, if_pos rfl, if_pos ⟨hc, rfl⟩]
      exact Nat.add_right_comm _ _ _
    · rw [beq_false_of_ne (Ne.symm hp), if_neg Bool.false_ne_true,
        if_neg (fun hboth => hp hboth.2)]
      rfl
  · rw [if_neg hc, if_neg (fun hboth => hc hboth.1)]
    rfl

theorem live_addLink (hne : child ≠ idx) (p : ℕ) : (d.addLink idx child).Live p ↔ d.Live p := by
  rw [SyncDevice.Live, addLink_table hne]
  rfl

theorem mem_parents_addLink (hne : child ≠ idx) {c p : ℕ}
    (hp : p ∈ ((d.addLink idx child).table c).parentsList) :
    p ∈ (d.table c).parentsList ∨ c = child ∧ p = idx := by
  rw [addLink_table hne] at hp
  simp only at hp
  split at hp
  · rename_i hc
    rcases mem_append.mp hp with hp | hp
    · exact .inl hp
    · exact .inr ⟨hc, mem_singleton.mp hp⟩
  · exact .inl hp

theorem mem_children_addLink (hne : child ≠ idx) {c p : ℕ} (hc : c ∈ (d.table p).childrenList) :
    c ∈ ((d.addLink idx child).table p).childrenList := by
  rw [addLink_table hne]
  simp only
  split
  · exact mem_append_left _ hc
  · exact hc

theorem Linked.counted_addLink (h : Linked d (.mergeLink idx linked (child :: todo) :: pcs))
    (hne : child ≠ idx) :
    (((d.setMembers idx (linked ++ [child])).addLink idx child).table idx).remaining.toNat =
      (linked ++ [child]).countP fun c =>
        0 < pending ((d.setMembers idx (linked ++ [child])).addLink idx child)
          (.mergeLink idx (linked ++ [child]) todo :: pcs) c idx := by
  obtain ⟨hlive, hmembers⟩ := h.merging idx linked (child :: todo) mem_cons_self
  have hwf := h.wellFormed _ mem_cons_self
  have hmem : child ∈ linked ++ [child] := mem_append_right _ mem_cons_self
  have hdrop := countP_drop (nodup_concat_linked hwf) hmem
    (p := fun c => 0 < pending ((d.setMembers idx (linked ++ [child])).addLink idx child)
      (.mergeLink idx (linked ++ [child]) todo :: pcs) c idx)
    (q := fun c => 0 < pending d (.mergeLink idx linked (child :: todo) :: pcs) c idx)
    (by rw [decide_eq_true_eq, pending_addLink hne, if_pos ⟨rfl, rfl⟩]; exact Nat.succ_pos _)
    (by rw [decide_eq_false_iff_not, h.todo_not_pending]; exact Nat.lt_irrefl 0)
    (fun c hc => by rw [pending_addLink hne, if_neg (fun hboth => hc hboth.1), Nat.add_zero])
  have hcounted : (d.table idx).remaining.toNat = (linked ++ [child]).countP fun c =>
      0 < pending d (.mergeLink idx linked (child :: todo) :: pcs) c idx := by
    have hskip := h.skip.counted idx hlive
    rwa [setMembers_members_self] at hskip
  have hcount := h.counted idx hlive
  have hle := countP_le_length (l := d.members idx)
    (p := fun c => 0 < pending d (.mergeLink idx linked (child :: todo) :: pcs) c idx)
  have hlength := length_linked_lt hwf
  rw [hmembers] at hcount hle
  simp only [addLink_table hne, if_true]
  rw [UInt32.toNat_add, hdrop, ← hcounted]
  apply Nat.mod_eq_of_lt
  show (d.table idx).remaining.toNat + 1 < 2 ^ 32
  rw [maxObjs] at hlength
  omega

theorem Linked.link (h : Linked d (.mergeLink idx linked (child :: todo) :: pcs))
    (hunlocked : d.rowLocked child = false) (htype : (d.table child).type = .indv)
    (hstate : (d.table child).state ≠ .invalid) :
    Linked ((d.setMembers idx (linked ++ [child])).addLink idx child)
      (.mergeLink idx (linked ++ [child]) todo :: pcs) := by
  obtain ⟨hlive, hmembers⟩ := h.merging idx linked (child :: todo) mem_cons_self
  have hwf := h.wellFormed _ mem_cons_self
  have hne : child ≠ idx := by
    intro heq
    rw [heq, (h.sole_holder (beq_self_eq_true idx)).1] at hunlocked
    cases hunlocked
  have hnone := h.todo_not_pending
  have hskip := h.skip
  have htable := addLink_table (d := d.setMembers idx (linked ++ [child])) hne
  have hpending : ∀ c p, pending ((d.setMembers idx (linked ++ [child])).addLink idx child)
      (.mergeLink idx (linked ++ [child]) todo :: pcs) c p =
      pending d (.mergeLink idx linked (child :: todo) :: pcs) c p +
        if c = child ∧ p = idx then 1 else 0 := pending_addLink hne
  have hlives := live_addLink (d := d.setMembers idx (linked ++ [child])) hne
  have hold : ∀ c p, pending (d.setMembers idx (linked ++ [child]))
      (.mergeLink idx (linked ++ [child]) todo :: pcs) c p =
      pending d (.mergeLink idx linked (child :: todo) :: pcs) c p := fun _ _ => rfl
  refine ⟨hskip.reserved, fun other => ?_, hskip.locks, hskip.wellFormed, ?_, ?_, ?_, ?_, ?_, ?_,
    ?_, ?_⟩
  · rw [htable]
    exact hskip.owned other
  · intro c p
    rw [hpending]
    split
    · rename_i hboth
      rw [hboth.1, hboth.2, hnone]
    · exact h.once c p
  · intro c p hp
    have hrow : (d.table c).type = .indv ∧ (d.table c).state ≠ .invalid ∧ 0 < c := by
      rcases mem_parents_addLink hne hp with hmem | ⟨rfl, -⟩
      · exact ⟨(hskip.child c p hmem).2.1, (hskip.child c p hmem).2.2, (hskip.child c p hmem).1⟩
      · have hrange := hwf.2.2 c (mem_append_right _ mem_cons_self)
        simp only [inRange, Bool.and_eq_true, decide_eq_true_eq] at hrange
        exact ⟨htype, hstate, hrange.1⟩
    rw [htable]
    exact ⟨hrow.2.2, hrow.1, hrow.2.1⟩
  · intro c p hp
    rw [hlives]
    rcases mem_parents_addLink hne hp with hmem | ⟨rfl, rfl⟩
    · apply (hskip.parent c p hmem).imp_left
      exact fun hlinked => ⟨hlinked.1, mem_children_addLink hne hlinked.2⟩
    · simp only [htable, if_true]
      exact .inl ⟨hlive, mem_append_right _ mem_cons_self⟩
  · intro c p hp hpos
    rw [hpending] at hpos
    have hmem := hskip.member c p ((hlives p).mp hp)
    by_cases hboth : c = child ∧ p = idx
    · obtain ⟨rfl, rfl⟩ := hboth
      show c ∈ (d.setMembers p (linked ++ [c])).members p
      rw [setMembers_members_self]
      exact mem_append_right _ mem_cons_self
    · rw [if_neg hboth, Nat.add_zero, ← hold] at hpos
      exact hmem hpos
  · intro p hp
    exact hskip.nodup p ((hlives p).mp hp)
  · intro p hp
    by_cases hidx : p = idx
    · subst hidx
      show _ = countP _ ((d.setMembers p (linked ++ [child])).members p)
      rw [setMembers_members_self]
      exact h.counted_addLink hne
    · rw [htable]
      simp only
      rw [if_neg hidx, hskip.counted p ((hlives p).mp hp)]
      apply countP_congr
      intro c _
      rw [hpending, if_neg (fun hboth => hidx hboth.2), Nat.add_zero, hold]
  · intro other linked' todo' hother
    rw [hlives]
    exact hskip.merging other linked' todo' hother
  · intro other hother hunlocked
    exact hskip.finished other ((hlives other).mp hother) hunlocked

theorem Linked.unlock (h : Linked d (.mergeLink idx linked [] :: pcs)) :
    Linked (d.setLock idx false) (.merged idx linked :: pcs) := by
  refine ⟨h.reserved, h.owned, fun other => ?_, h.wellFormed_front trivial, h.once, h.child, ?_,
    h.member, h.nodup, h.counted, ?_, ?_⟩
  · rw [countP_front]
    by_cases hother : other = idx
    · subst hother
      have hnone : pcs.countP (·.holds other) = 0 := by
        apply countP_eq_zero.mpr
        intro pc hpc
        rw [(h.sole_holder (beq_self_eq_true other)).2 pc hpc]
        exact Bool.false_ne_true
      rw [hnone]
      exact Nat.zero_le _
    · have hlocks := h.locks other
      rw [countP_front] at hlocks
      rw [setLock_rowLocked_of_ne hother]
      exact Nat.le_trans (Nat.add_le_add_right (Nat.zero_le _) _) hlocks
  · intro c p hp
    apply (h.parent c p hp).imp_right
    exact unlinks_front id
  · intro other linked' todo' hother
    rcases mem_cons.mp hother with hother | hother
    · cases hother
    · exact h.merging_of_mem hother
  · intro other hother hunlocked
    by_cases hidx : other = idx
    · subst hidx
      rw [← (h.merging other linked [] mem_cons_self).2]
      exact mem_cons_self
    · rw [setLock_rowLocked_of_ne hidx] at hunlocked
      exact merged_front (fun _ _ => SyncPc.noConfusion) (h.finished other hother hunlocked)

end Merge

end Rows

end QcomModules.CamSync
