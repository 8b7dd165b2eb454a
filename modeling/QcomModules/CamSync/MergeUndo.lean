import QcomModules.CamSync.LinkSteps

/-! A merge on a table that no other thread touches, from its entry to its return. A failed one
clears its bit and takes its links off the children; it keeps the lock of its row. -/

namespace QcomModules.CamSync

open Library List Function SyncDevice

/-! ## One caller -/

/-- The only thread takes its next section, when no lock is in its way. The allocations of a
section are for the child whose row it locks. -/
def soloStep (alloc : ℕ → SyncChoice) (s : SyncDevice × SyncPc) : SyncDevice × SyncPc :=
  if syncSystem.enabled s.1 s.2 then s.1.act (alloc (s.2.lock.getD 0)) s.2 else s

def soloMerge (alloc : ℕ → SyncChoice) (d : SyncDevice) (objs : List ℕ) (sections : ℕ) :
    SyncDevice × SyncPc :=
  (soloStep alloc)^[sections] (d, .enter (.merge objs))

def SyncPc.mergeError : SyncPc → Bool
  | .returned _ | .mergeLeaked _ => true
  | _ => false

def SyncPc.mergeReturned : SyncPc → Bool
  | .merged _ _ => true
  | pc => pc.mergeError

/-- What a merge owes its caller: after an error the bitmap is as before and no row mentions a
parent that it did not mention before, and in any case no row lock is left held. -/
structure MergeUndone (d d' : SyncDevice) (pc : SyncPc) : Prop where
  bitmap : pc.mergeError = true → d'.bitmap = d.bitmap
  parents : pc.mergeError = true → ∀ obj idx, idx ∈ (d'.table obj).parentsList →
    idx ∈ (d.table obj).parentsList
  rowLocked : ∀ obj, d'.rowLocked obj = true → d.rowLocked obj = true

/-- The loop of `cam_sync_init_group_object` gets past a child. -/
def LinkSucceeds (alloc : ℕ → SyncChoice) (d : SyncDevice) (child : ℕ) : Prop :=
  (d.table child).type ≠ .group ∧
    ((d.table child).state = .active →
      (alloc child).firstAlloc = true ∧ (alloc child).secondAlloc = true)

/-- What `cam_sync_merge` checks before it looks for a row. -/
structure MergeChecked (d : SyncDevice) (objs : List ℕ) : Prop where
  several : 1 < objs.length
  distinct : (removeDuplicateArr objs).length = objs.length
  valid : ∀ obj ∈ objs, d.checkValid obj = true

/-- A merge that comes to the loop of `cam_sync_init_group_object` gets to its end. -/
def MergeSafe (alloc : ℕ → SyncChoice) (d : SyncDevice) (objs : List ℕ) : Prop :=
  MergeChecked d objs → findFirstZeroBit d.bitmap maxObjs 0 ≠ none →
    ∀ obj ∈ objs, LinkSucceeds alloc d obj

theorem findFirstZeroBit_free {bitmap : ℕ → Bool} {size idx found : ℕ}
    (h : findFirstZeroBit bitmap size idx = some found) : bitmap found = false := by
  induction size generalizing idx with
  | zero => cases h
  | succ size ih =>
    rw [findFirstZeroBit] at h
    split at h
    · exact ih h
    · rename_i hfree
      cases h
      exact Bool.eq_false_iff.mpr hfree

/-! ## The row lock of a merge -/

/-- A device on which a merge holds its new row: the children of the list may have it once more as
a parent. -/
structure MergeHeld (d₀ d : SyncDevice) (idx : ℕ) (linked : List ℕ) : Prop where
  bitmap : d.bitmap = Function.update d₀.bitmap idx true
  rowLocked : d.rowLocked = Function.update d₀.rowLocked idx true
  type : ∀ obj ≠ idx, (d.table obj).type = (d₀.table obj).type
  state : ∀ obj ≠ idx, (d.table obj).state = (d₀.table obj).state
  parents : ∀ obj parent, (d.table obj).parentsList.count parent ≤
    (d₀.table obj).parentsList.count parent + if parent = idx then linked.count obj else 0

section Held

variable {d₀ d : SyncDevice} {idx : ℕ} {linked : List ℕ}

theorem MergeHeld.setRow_own (h : MergeHeld d₀ d idx linked) {row : SyncRow}
    (hparents : row.parentsList = (d.table idx).parentsList) :
    MergeHeld d₀ (d.setRow idx row) idx linked where
  bitmap := h.bitmap
  rowLocked := h.rowLocked
  type obj hne := by rw [setRow_table_of_ne hne, h.type obj hne]
  state obj hne := by rw [setRow_table_of_ne hne, h.state obj hne]
  parents obj parent := by
    by_cases hobj : obj = idx
    · subst hobj
      rw [setRow_table_self, hparents]
      exact h.parents obj parent
    · rw [setRow_table_of_ne hobj]
      exact h.parents obj parent

theorem MergeHeld.setMembers (h : MergeHeld d₀ d idx linked) (obj : ℕ) (children : List ℕ) :
    MergeHeld d₀ (d.setMembers obj children) idx linked :=
  ⟨h.bitmap, h.rowLocked, h.type, h.state, h.parents⟩

variable {linked' : List ℕ}

theorem MergeHeld.mono (h : MergeHeld d₀ d idx linked)
    (hle : ∀ obj, linked.count obj ≤ linked'.count obj) : MergeHeld d₀ d idx linked' where
  bitmap := h.bitmap
  rowLocked := h.rowLocked
  type := h.type
  state := h.state
  parents obj parent := by
    apply (h.parents obj parent).trans
    apply Nat.add_le_add_left
    split
    · exact hle obj
    · exact Nat.le_refl 0

theorem MergeHeld.setParents (h : MergeHeld d₀ d idx linked) {child : ℕ} {parents : List ℕ}
    (hne : child ≠ idx) (hself : ∀ parent, parents.count parent ≤
      (d₀.table child).parentsList.count parent + if parent = idx then linked'.count child else 0)
    (hother : ∀ obj ≠ child, linked.count obj ≤ linked'.count obj) :
    MergeHeld d₀ (d.setRow child { d.table child with parentsList := parents }) idx linked' where
  bitmap := h.bitmap
  rowLocked := h.rowLocked
  type obj hobj := by
    by_cases hchild : obj = child
    · subst hchild
      rw [setRow_table_self]
      exact h.type obj hobj
    · rw [setRow_table_of_ne hchild, h.type obj hobj]
  state obj hobj := by
    by_cases hchild : obj = child
    · subst hchild
      rw [setRow_table_self]
      exact h.state obj hobj
    · rw [setRow_table_of_ne hchild, h.state obj hobj]
  parents obj parent := by
    by_cases hchild : obj = child
    · subst hchild
      rw [setRow_table_self]
      exact hself parent
    · rw [setRow_table_of_ne hchild]
      apply (h.parents obj parent).trans
      apply Nat.add_le_add_left
      split
      · exact hother obj hchild
      · exact Nat.le_refl 0

theorem MergeHeld.link (h : MergeHeld d₀ d idx linked) {child : ℕ} (hne : child ≠ idx)
    {childRow : SyncRow} (hrow : d.table child = childRow) :
    MergeHeld d₀
      (d.setRow child { childRow with parentsList := childRow.parentsList ++ [idx] }) idx
      (linked ++ [child]) := by
  subst hrow
  apply h.setParents hne
  · intro parent
    have hcount := h.parents child parent
    rw [count_append, count_append, count_singleton_self]
    by_cases hparent : parent = idx
    · subst hparent
      rw [if_pos rfl] at hcount ⊢
      rw [count_singleton_self]
      omega
    · rw [if_neg hparent] at hcount ⊢
      rw [count_singleton, beq_eq_false_iff_ne.mpr (Ne.symm hparent)]
      exact hcount
  · intro obj _
    rw [count_append]
    exact Nat.le_add_right _ _

theorem MergeHeld.unlink {child : ℕ} (h : MergeHeld d₀ d idx (child :: linked))
    (hne : child ≠ idx) : MergeHeld d₀ (d.unlinkParent child idx) idx linked := by
  apply h.setParents hne
  · intro parent
    have hcount := h.parents child parent
    rw [count_cons_self] at hcount
    by_cases hparent : parent = idx
    · subst hparent
      rw [if_pos rfl] at hcount ⊢
      rw [count_erase_self]
      omega
    · rw [if_neg hparent] at hcount ⊢
      rw [count_erase_of_ne hparent]
      exact hcount
  · intro obj hobj
    rw [count_cons_of_ne (Ne.symm hobj)]

theorem MergeHeld.no_mention (h : MergeHeld d₀ d idx []) (obj parent : ℕ)
    (hmem : parent ∈ (d.table obj).parentsList) : parent ∈ (d₀.table obj).parentsList := by
  have hcount := h.parents obj parent
  rw [count_nil, ite_self, Nat.add_zero] at hcount
  exact count_pos_iff.mp ((count_pos_iff.mpr hmem).trans_le hcount)

end Held

/-! ## The points of a merge -/

/-- The merge is past its checks and has found a free row. -/
structure MergeStarted (d : SyncDevice) (objs : List ℕ) (idx : ℕ) : Prop extends
    MergeChecked d objs where
  found : findFirstZeroBit d.bitmap maxObjs 0 = some idx

/-- The device at each point of a merge, from the one it was entered on. -/
inductive MergeAt (alloc : ℕ → SyncChoice) (d₀ : SyncDevice) (objs : List ℕ) :
    SyncDevice → SyncPc → Prop where
  | enter : MergeAt alloc d₀ objs d₀ (.enter (.merge objs))
  | returned (rc : ℤ) (hsafe : MergeSafe alloc d₀ objs) : MergeAt alloc d₀ objs d₀ (.returned rc)
  | mergeCheck {checked todo : List ℕ} (hobjs : checked ++ todo = objs)
      (hseveral : 1 < objs.length) (hdistinct : (removeDuplicateArr objs).length = objs.length)
      (hvalid : ∀ obj ∈ checked, d₀.checkValid obj = true) :
      MergeAt alloc d₀ objs d₀ (.mergeCheck checked todo)
  | finding (hchecked : MergeChecked d₀ objs) : MergeAt alloc d₀ objs d₀ (.finding (.group objs))
  | found {idx : ℕ} (hstarted : MergeStarted d₀ objs idx) :
      MergeAt alloc d₀ objs d₀ (.found idx (.group objs))
  | owning {idx : ℕ} (hstarted : MergeStarted d₀ objs idx) :
      MergeAt alloc d₀ objs (d₀.setBit idx true) (.owning idx (.group objs))
  | mergeLink {d : SyncDevice} {idx : ℕ} {linked todo : List ℕ}
      (hstarted : MergeStarted d₀ objs idx) (hunlocked : d₀.rowLocked idx = false)
      (hheld : MergeHeld d₀ d idx linked)
      (hobjs : linked ++ todo = objs) (hlinked : ∀ obj ∈ linked, LinkSucceeds alloc d₀ obj) :
      MergeAt alloc d₀ objs d (.mergeLink idx linked todo)
  | mergeClean {d : SyncDevice} {idx : ℕ} {todo : List ℕ} (hstarted : MergeStarted d₀ objs idx)
      (hunlocked : d₀.rowLocked idx = false) (hheld : MergeHeld d₀ d idx todo)
      (hobjs : ∀ obj ∈ todo, obj ∈ objs) (hfails : ¬ MergeSafe alloc d₀ objs) :
      MergeAt alloc d₀ objs d (.mergeClean idx todo)
  | mergeLeaked {d : SyncDevice} {idx : ℕ} (hbitmap : d.bitmap = d₀.bitmap)
      (hparents : ∀ obj parent, parent ∈ (d.table obj).parentsList →
        parent ∈ (d₀.table obj).parentsList)
      (hunlocked : d₀.rowLocked idx = false) (hlocked : d.rowLocked idx = true)
      (hfails : ¬ MergeSafe alloc d₀ objs) : MergeAt alloc d₀ objs d (.mergeLeaked idx)
  | merged {d : SyncDevice} {idx : ℕ} {linked : List ℕ} (hlocked : d.rowLocked = d₀.rowLocked)
      (hsafe : MergeSafe alloc d₀ objs) : MergeAt alloc d₀ objs d (.merged idx linked)

section Points

variable {alloc : ℕ → SyncChoice} {d₀ d : SyncDevice} {objs linked todo : List ℕ} {idx child : ℕ}
  {row : SyncRow} {pc : SyncPc}

theorem MergeStarted.free (h : MergeStarted d₀ objs idx) : d₀.bitmap idx = false :=
  findFirstZeroBit_free h.found

variable {obj : ℕ}

theorem MergeStarted.ne (h : MergeStarted d₀ objs idx) (hobj : obj ∈ objs) : obj ≠ idx := by
  rintro rfl
  have hvalid := h.valid obj hobj
  rw [SyncDevice.checkValid, h.free, Bool.and_false, Bool.false_and] at hvalid
  cases hvalid

theorem MergeStarted.not_invalid (h : MergeStarted d₀ objs idx) (hobj : obj ∈ objs) :
    (d₀.table obj).state ≠ .invalid := by
  have hvalid := h.valid obj hobj
  rw [SyncDevice.checkValid, Bool.and_eq_true, Bool.not_eq_true'] at hvalid
  exact of_decide_eq_false hvalid.2

theorem MergeStarted.not_safe (h : MergeStarted d₀ objs idx) (hobj : obj ∈ objs)
    (hfails : ¬ LinkSucceeds alloc d₀ obj) : ¬ MergeSafe alloc d₀ objs := by
  intro hsafe
  apply hfails
  apply hsafe h.toMergeChecked _ obj hobj
  rw [h.found]
  exact Option.some_ne_none idx

theorem mergeEnter_mergeAt :
    MergeAt alloc d₀ objs (d₀.mergeEnter objs).1 (d₀.mergeEnter objs).2 := by
  rw [SyncDevice.mergeEnter]
  split
  · rename_i hshort
    exact .returned _ fun hchecked => absurd hchecked.several (Nat.not_lt.mpr hshort)
  split
  · rename_i hdouble
    exact .returned _ fun hchecked => absurd hchecked.distinct hdouble
  · rename_i hlong hdistinct
    exact .mergeCheck (nil_append objs) (Nat.lt_of_not_le hlong) (not_not.mp hdistinct)
      fun obj hobj => absurd hobj not_mem_nil

theorem groupRow_mergeHeld (h : ∀ parent, row.parentsList.count parent ≤
    (d₀.table idx).parentsList.count parent) :
    MergeHeld d₀ ((((d₀.setBit idx true).setRow idx row).setLock idx true).setMembers idx [])
      idx [] where
  bitmap := rfl
  rowLocked := rfl
  type obj hne := congrArg SyncRow.type (setRow_table_of_ne hne)
  state obj hne := congrArg SyncRow.state (setRow_table_of_ne hne)
  parents obj parent := by
    rw [count_nil, ite_self, Nat.add_zero]
    change (((d₀.setBit idx true).setRow idx row).table obj).parentsList.count parent ≤ _
    by_cases hobj : obj = idx
    · subst hobj
      rw [setRow_table_self]
      exact h parent
    · rw [setRow_table_of_ne hobj]
      exact Nat.le_refl _

theorem groupRow_mergeAt (h : MergeStarted d₀ objs idx) (hunlocked : d₀.rowLocked idx = false) :
    MergeAt alloc d₀ objs ((d₀.setBit idx true).groupRow idx objs).1
      ((d₀.setBit idx true).groupRow idx objs).2 := by
  apply MergeAt.mergeLink h hunlocked _ (nil_append objs)
    fun obj hobj => absurd hobj not_mem_nil
  apply groupRow_mergeHeld
  intro parent
  split
  · exact Nat.le_refl _
  · rename_i row hrow
    rw [(SyncRow.init_ok hrow).2.2.2, count_nil]
    exact Nat.zero_le _

theorem failLink_mergeAt (h : MergeStarted d₀ objs idx) (hunlocked : d₀.rowLocked idx = false)
    (hheld : MergeHeld d₀ d idx linked) (hobjs : linked ++ child :: todo = objs)
    (hfails : ¬ LinkSucceeds alloc d₀ child) :
    MergeAt alloc d₀ objs (d.failLink idx linked).1 (d.failLink idx linked).2 := by
  have hchild : child ∈ objs := hobjs ▸ mem_append_right _ mem_cons_self
  refine .mergeClean h hunlocked ?_ ?_ (h.not_safe hchild hfails)
  · exact (hheld.mono fun obj => count_reverse.ge).setRow_own rfl
  · intro obj hobj
    rw [← hobjs]
    exact mem_append_left _ (mem_reverse.mp hobj)

theorem linkChild_mergeAt (h : MergeStarted d₀ objs idx) (hunlocked : d₀.rowLocked idx = false)
    (hheld : MergeHeld d₀ d idx linked) (hobjs : linked ++ child :: todo = objs)
    (hlinked : ∀ obj ∈ linked, LinkSucceeds alloc d₀ obj) :
    MergeAt alloc d₀ objs (d.linkChild idx linked child todo (alloc child)).1
      (d.linkChild idx linked child todo (alloc child)).2 := by
  have hchild : child ∈ objs := hobjs ▸ mem_append_right _ mem_cons_self
  have hne := h.ne hchild
  have htype := hheld.type child hne
  have hstate := hheld.state child hne
  have hnext : linked ++ [child] ++ todo = objs := by
    rw [append_assoc, singleton_append, hobjs]
  have hmono : MergeHeld d₀ d idx (linked ++ [child]) := hheld.mono fun obj => by
    rw [count_append]
    exact Nat.le_add_right _ _
  have hall (hsucceeds : LinkSucceeds alloc d₀ child) :
      ∀ obj ∈ linked ++ [child], LinkSucceeds alloc d₀ obj := by
    intro obj hobj
    rcases mem_append.mp hobj with hobj | hobj
    · exact hlinked obj hobj
    · rw [mem_singleton.mp hobj]
      exact hsucceeds
  rw [SyncDevice.linkChild]
  split
  · -- A group, since the check has found the child valid.
    rename_i hbad
    rw [htype, hstate] at hbad
    apply failLink_mergeAt h hunlocked hheld hobjs
    exact fun hsucceeds => hbad.elim hsucceeds.1 (h.not_invalid hchild)
  rename_i hgood
  rw [not_or, htype] at hgood
  split
  · rename_i hfailed
    have hinactive : (d₀.table child).state ≠ .active := by
      intro hactive
      rw [hstate, hactive] at hfailed
      cases hfailed
    exact .mergeLink h hunlocked ((hmono.setMembers _ _).setRow_own rfl) hnext
      (hall ⟨hgood.1, fun hactive => absurd hactive hinactive⟩)
  split
  · rename_i hinactive
    rw [hstate] at hinactive
    exact .mergeLink h hunlocked (hmono.setMembers _ _) hnext
      (hall ⟨hgood.1, fun hactive => absurd hactive hinactive⟩)
  rename_i hactive
  rw [not_not, hstate] at hactive
  split
  · rename_i hfirst
    rw [Bool.not_eq_true'] at hfirst
    refine failLink_mergeAt h hunlocked ?_ hobjs ?_
    · exact hheld.setRow_own rfl
    · intro hsucceeds
      rw [(hsucceeds.2 hactive).1] at hfirst
      cases hfirst
  rename_i hfirst
  split
  · rename_i hsecond
    rw [Bool.not_eq_true'] at hsecond
    refine failLink_mergeAt h hunlocked ?_ hobjs ?_
    · exact hheld.setRow_own rfl
    · intro hsucceeds
      rw [(hsucceeds.2 hactive).2] at hsecond
      cases hsecond
  · rename_i hsecond
    rw [Bool.not_eq_true', Bool.not_eq_false] at hfirst hsecond
    refine .mergeLink h hunlocked ?_ hnext (hall ⟨hgood.1, fun _ => ⟨hfirst, hsecond⟩⟩)
    refine MergeHeld.link ?_ hne (setRow_table_of_ne hne)
    exact (hheld.setMembers _ _).setRow_own rfl

theorem mergeEnd_mergeAt (hunlocked : d₀.rowLocked idx = false)
    (hheld : MergeHeld d₀ d idx linked) (hlinked : ∀ obj ∈ objs, LinkSucceeds alloc d₀ obj) :
    MergeAt alloc d₀ objs (d.mergeEnd idx linked).1 (d.mergeEnd idx linked).2 := by
  refine .merged ?_ fun _ _ => hlinked
  change update d.rowLocked idx false = d₀.rowLocked
  rw [hheld.rowLocked, update_idem, ← hunlocked, update_eq_self]

theorem mergeFail_mergeAt (h : MergeStarted d₀ objs idx) (hunlocked : d₀.rowLocked idx = false)
    (hheld : MergeHeld d₀ d idx []) (hfails : ¬ MergeSafe alloc d₀ objs) :
    MergeAt alloc d₀ objs (d.mergeFail idx).1 (d.mergeFail idx).2 := by
  refine .mergeLeaked ?_ ?_ hunlocked ?_ hfails
  · change update d.bitmap idx false = d₀.bitmap
    rw [hheld.bitmap, update_idem, ← h.free, update_eq_self]
  · have hcleaned : MergeHeld d₀ (d.setRow idx { d.table idx with childrenList := [] }) idx [] :=
      hheld.setRow_own rfl
    exact hcleaned.no_mention
  · change d.rowLocked idx = true
    rw [hheld.rowLocked, update_self]

theorem MergeAt.act (h : MergeAt alloc d₀ objs d pc) (henabled : syncSystem.enabled d pc = true) :
    MergeAt alloc d₀ objs (d.act (alloc (pc.lock.getD 0)) pc).1
      (d.act (alloc (pc.lock.getD 0)) pc).2 := by
  cases h with
  | enter => exact mergeEnter_mergeAt
  | returned rc hsafe => exact .returned rc hsafe
  | @mergeCheck checked todo hobjs hseveral hdistinct hvalid =>
    cases todo with
    | nil =>
      rw [append_nil] at hobjs
      subst hobjs
      exact .finding ⟨hseveral, hdistinct, hvalid⟩
    | cons obj todo =>
      rw [SyncDevice.act]
      split
      · rename_i hobj
        refine .mergeCheck ?_ hseveral hdistinct ?_
        · rw [append_assoc, singleton_append, hobjs]
        · intro other hother
          rcases mem_append.mp hother with hother | hother
          · exact hvalid other hother
          · rw [mem_singleton.mp hother]
            exact hobj
      · rename_i hobj
        have hmem : obj ∈ objs := hobjs ▸ mem_append_right _ mem_cons_self
        exact .returned _ fun hchecked => absurd (hchecked.valid obj hmem) hobj
  | finding hchecked =>
    rw [SyncDevice.act]
    split
    · rename_i hnone
      exact .returned _ fun _ hsome => absurd hnone hsome
    · rename_i idx hsome
      exact .found ⟨hchecked, hsome⟩
  | found hstarted =>
    rw [SyncDevice.act, hstarted.free]
    exact .owning hstarted
  | owning hstarted =>
    exact groupRow_mergeAt hstarted (SyncPc.unlocked_of_enabled henabled rfl)
  | @mergeLink _ idx linked todo hstarted hunlocked hheld hobjs hlinked =>
    cases todo with
    | nil =>
      rw [append_nil] at hobjs
      subst hobjs
      exact mergeEnd_mergeAt hunlocked hheld hlinked
    | cons child todo => exact linkChild_mergeAt hstarted hunlocked hheld hobjs hlinked
  | @mergeClean _ idx todo hstarted hunlocked hheld hobjs hfails =>
    cases todo with
    | nil => exact mergeFail_mergeAt hstarted hunlocked hheld hfails
    | cons child todo =>
      have hne := hstarted.ne (hobjs child mem_cons_self)
      exact .mergeClean hstarted hunlocked (hheld.unlink hne)
        (fun obj hobj => hobjs obj (mem_cons_of_mem child hobj)) hfails
  | mergeLeaked hbitmap hparents hunlocked hlocked hfails =>
    exact .mergeLeaked hbitmap hparents hunlocked hlocked hfails
  | merged hlocked hsafe => exact .merged hlocked hsafe

theorem MergeAt.soloStep {s : SyncDevice × SyncPc} (h : MergeAt alloc d₀ objs s.1 s.2) :
    MergeAt alloc d₀ objs (soloStep alloc s).1 (soloStep alloc s).2 := by
  rw [CamSync.soloStep]
  split
  · rename_i henabled
    exact h.act henabled
  · exact h

theorem soloMerge_mergeAt (alloc : ℕ → SyncChoice) (d : SyncDevice) (objs : List ℕ)
    (sections : ℕ) :
    MergeAt alloc d objs (soloMerge alloc d objs sections).1
      (soloMerge alloc d objs sections).2 := by
  rw [soloMerge]
  induction sections with
  | zero => exact .enter
  | succ sections ih =>
    rw [iterate_succ_apply']
    exact ih.soloStep

end Points

/-! ## The merge returns -/

section Returns

variable {alloc : ℕ → SyncChoice} {d : SyncDevice} {objs : List ℕ} {s : SyncDevice × SyncPc}

/-- The sections that a merge of `n` objects has before it, at most. -/
def SyncPc.mergeLeft (n : ℕ) : SyncPc → ℕ
  | .enter _ => 3 * n + 6
  | .mergeCheck _ todo => 2 * n + 5 + todo.length
  | .finding _ => 2 * n + 4
  | .found _ _ => 2 * n + 3
  | .owning _ _ => 2 * n + 2
  | .mergeLink _ _ todo => n + 1 + todo.length
  | .mergeClean _ todo => todo.length + 1
  | _ => 0

theorem MergeAt.act_eq (h : MergeAt alloc d objs s.1 s.2) (hfree : ∀ obj, d.rowLocked obj = false) :
    CamSync.soloStep alloc s = s.1.act (alloc (s.2.lock.getD 0)) s.2 := by
  have hunlocked : ∀ obj, s.2.lock = some obj → s.1.rowLocked obj = false := by
    obtain ⟨d', pc⟩ := s
    have hother {idx : ℕ} {linked : List ℕ} (hheld : MergeHeld d d' idx linked) {obj : ℕ}
        (hne : obj ≠ idx) : d'.rowLocked obj = false := by
      rw [hheld.rowLocked, update_of_ne hne]
      exact hfree obj
    intro obj hobj
    cases h with
    | mergeLink hstarted _ hheld hobjs _ =>
      exact hother hheld (hstarted.ne (hobjs ▸ mem_append_right _ (mem_of_mem_head? hobj)))
    | mergeClean hstarted _ hheld hobjs _ =>
      exact hother hheld (hstarted.ne (hobjs obj (mem_of_mem_head? hobj)))
    | mergeLeaked => cases hobj
    | merged => cases hobj
    | _ => exact hfree obj
  refine if_pos ?_
  change s.2.lock.all (fun obj => !s.1.rowLocked obj) = true
  cases hlock : s.2.lock with
  | none => rfl
  | some obj =>
    rw [Option.all_some, hunlocked obj hlock]
    rfl

theorem linkChild_left {idx child : ℕ} {linked todo : List ℕ}
    (hobjs : linked ++ child :: todo = objs) (choice : SyncChoice) :
    (d.linkChild idx linked child todo choice).2.mergeLeft objs.length <
      (SyncPc.mergeLink idx linked (child :: todo)).mergeLeft objs.length := by
  have hfail : (SyncPc.mergeClean idx linked.reverse).mergeLeft objs.length <
      (SyncPc.mergeLink idx linked (child :: todo)).mergeLeft objs.length := by
    simp only [SyncPc.mergeLeft, length_reverse, ← hobjs, length_append, length_cons]
    omega
  have hnext : (SyncPc.mergeLink idx (linked ++ [child]) todo).mergeLeft objs.length <
      (SyncPc.mergeLink idx linked (child :: todo)).mergeLeft objs.length :=
    Nat.add_lt_add_left (Nat.lt_succ_self _) _
  simp only [SyncDevice.linkChild]
  split_ifs
  all_goals first | exact hfail | exact hnext

theorem MergeAt.left_lt (h : MergeAt alloc d objs s.1 s.2) (hfree : ∀ obj, d.rowLocked obj = false)
    (hgoes : s.2.mergeReturned = false) :
    (CamSync.soloStep alloc s).2.mergeLeft objs.length < s.2.mergeLeft objs.length := by
  rw [h.act_eq hfree]
  obtain ⟨d', pc⟩ := s
  cases h with
  | enter =>
    simp only [SyncDevice.act, SyncDevice.enter, SyncDevice.mergeEnter]
    split_ifs <;> simp only [SyncPc.mergeLeft] <;> omega
  | @mergeCheck checked todo hobjs hseveral hdistinct hvalid =>
    cases todo with
    | nil => exact Nat.lt_succ_self _
    | cons obj todo =>
      rw [SyncDevice.act]
      split <;> simp only [SyncPc.mergeLeft, length_cons] <;> omega
  | finding hchecked =>
    rw [SyncDevice.act]
    split <;> simp only [SyncPc.mergeLeft] <;> omega
  | found hstarted =>
    rw [SyncDevice.act, hstarted.free]
    exact Nat.lt_succ_self _
  | owning hstarted =>
    change objs.length + 1 + objs.length < 2 * objs.length + 2
    omega
  | @mergeLink _ idx linked todo hstarted hunlocked hheld hobjs hlinked =>
    cases todo with
    | nil => exact Nat.succ_pos _
    | cons child todo => exact linkChild_left hobjs _
  | @mergeClean _ idx todo hstarted hunlocked hheld hobjs hfails =>
    cases todo with
    | nil => exact Nat.succ_pos _
    | cons child todo => exact Nat.lt_succ_self _
  | _ => cases hgoes

theorem soloMerge_returns (alloc : ℕ → SyncChoice) (objs : List ℕ)
    (hfree : ∀ obj, d.rowLocked obj = false) :
    ∃ sections, (soloMerge alloc d objs sections).2.mergeReturned = true := by
  by_contra hnever
  have hgoes (sections : ℕ) : (soloMerge alloc d objs sections).2.mergeReturned = false :=
    Bool.eq_false_iff.2 fun hreturned => hnever ⟨sections, hreturned⟩
  have hleft (sections : ℕ) : (soloMerge alloc d objs sections).2.mergeLeft objs.length +
      sections ≤ 3 * objs.length + 6 := by
    induction sections with
    | zero => exact Nat.le_refl _
    | succ sections ih =>
      have hlt := (soloMerge_mergeAt alloc d objs sections).left_lt hfree (hgoes sections)
      rw [soloMerge, iterate_succ_apply'] at *
      omega
  have hover := hleft (3 * objs.length + 7)
  omega

end Returns

/-! ## What is undone -/

section Undone

variable {alloc : ℕ → SyncChoice} {d₀ d : SyncDevice} {objs : List ℕ} {pc : SyncPc}

theorem MergeAt.undone_links (h : MergeAt alloc d₀ objs d pc) (herror : pc.mergeError = true) :
    d.bitmap = d₀.bitmap ∧
      ∀ obj idx, idx ∈ (d.table obj).parentsList → idx ∈ (d₀.table obj).parentsList := by
  cases h with
  | returned rc hsafe => exact ⟨rfl, fun _ _ hmem => hmem⟩
  | mergeLeaked hbitmap hparents hunlocked hlocked hfails => exact ⟨hbitmap, hparents⟩
  | _ => cases herror

theorem MergeAt.unlocked_iff (h : MergeAt alloc d₀ objs d pc)
    (hreturned : pc.mergeReturned = true) :
    (∀ obj, d.rowLocked obj = true → d₀.rowLocked obj = true) ↔ MergeSafe alloc d₀ objs := by
  cases h with
  | returned rc hsafe => exact iff_of_true (fun _ hlocked => hlocked) hsafe
  | @mergeLeaked _ idx hbitmap hparents hunlocked hlocked hfails =>
    refine iff_of_false (fun hkept => ?_) hfails
    have hheld := hkept idx hlocked
    rw [hunlocked] at hheld
    cases hheld
  | merged hlocked hsafe =>
    refine iff_of_true (fun obj hobj => ?_) hsafe
    rw [← hlocked]
    exact hobj
  | _ => cases hreturned

end Undone

/-- On every table, a merge that has returned is undone, and has left no lock held, exactly when it
does not come to a child that cannot be linked. -/
theorem merge_undone_iff (alloc : ℕ → SyncChoice) (d : SyncDevice) (objs : List ℕ)
    (sections : ℕ) (hreturned : (soloMerge alloc d objs sections).2.mergeReturned = true) :
    MergeUndone d (soloMerge alloc d objs sections).1 (soloMerge alloc d objs sections).2 ↔
      MergeSafe alloc d objs := by
  have hat := soloMerge_mergeAt alloc d objs sections
  rw [← hat.unlocked_iff hreturned]
  refine ⟨fun hundone => hundone.rowLocked, fun hunlocked => ?_⟩
  exact ⟨fun herror => (hat.undone_links herror).1, fun herror => (hat.undone_links herror).2,
    hunlocked⟩

def SyncDevice.withGroup : SyncDevice :=
  let create := fun d => ((soloStep fun _ => ⟨true, true⟩)^[4] (d, .enter (.create none none))).1
  (soloMerge (fun _ => ⟨true, true⟩) (create (create (create SyncDevice.probe))) [1, 2] 10).1

theorem merge_undone_iff_group :
    MergeUndone SyncDevice.withGroup
        (soloMerge (fun _ => ⟨true, true⟩) SyncDevice.withGroup [3, 4] 11).1
        (soloMerge (fun _ => ⟨true, true⟩) SyncDevice.withGroup [3, 4] 11).2 ↔
      MergeSafe (fun _ => ⟨true, true⟩) SyncDevice.withGroup [3, 4] :=
  merge_undone_iff _ _ _ _ (by decide +kernel)

/-- A group among the objects: the merge returns an error and keeps the lock of the fifth row. -/
theorem not_merge_undone :
    ¬ ∀ alloc d objs sections, (soloMerge alloc d objs sections).2.mergeReturned = true →
      MergeUndone d (soloMerge alloc d objs sections).1 (soloMerge alloc d objs sections).2 := by
  intro hall
  have hundone := hall (fun _ => ⟨true, true⟩) SyncDevice.withGroup [3, 4] 11 (by decide +kernel)
  have hlocked := hundone.rowLocked 5 (by decide +kernel)
  exact absurd hlocked (by decide +kernel)

end QcomModules.CamSync
