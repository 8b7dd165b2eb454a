import QcomModules.Wlan.SerializationRuns

/-! The marks on the entries when operations are executed one after another.

The mark for activation is only seen by the end of that activation. A removal or a cancellation so
never has to be put off, and a move can take every entry that it finds. -/

namespace QcomModules.Wlan

open Library List

variable {V : Type}

/-! ## Marked entries -/

/-- An entry is marked for activation only if it is at the given address, and nothing waits for the
end of its activation. -/
structure CommandList.Marked (e : CommandList V) (node : Option ℕ) : Prop where
  cancel : e.cmdInUse.activeMarkedForCancel = false
  removal : e.cmdInUse.activeMarkedForRemoval = false
  activation : e.cmdInUse.markedForActivation = true → node = some e.node

structure Marks (s : SerPdev V) (node : Option ℕ) : Prop where
  active : ∀ e ∈ s.activeList, e.Marked node
  pending : ∀ e ∈ s.pendingList, e.Marked none

def SerFrame.activates : SerFrame V → Option ℕ
  | .activate node => some node
  | _ => none

theorem CommandList.Marked.unmarked {e : CommandList V} (h : e.Marked none) :
    e.cmdInUse.markedForActivation = false :=
  Bool.eq_false_iff.mpr fun hmark => Option.some_ne_none _ (h.activation hmark).symm

theorem CommandList.Marked.mono {e : CommandList V} (h : e.Marked none) (node : Option ℕ) :
    e.Marked node :=
  ⟨h.cancel, h.removal, fun hmark => absurd (h.activation hmark).symm (Option.some_ne_none _)⟩

theorem CommandList.Marked.moved {e : CommandList V} {node : Option ℕ} (h : e.Marked node)
    (b : Bool) : (e.markForMovement b).Marked node := ⟨h.cancel, h.removal, h.activation⟩

theorem Marks.mono {s : SerPdev V} (h : Marks s none) (node : Option ℕ) : Marks s node :=
  ⟨fun e he => (h.active e he).mono node, h.pending⟩

theorem Marks.list {s : SerPdev V} (h : Marks s none) (isActive : Bool) :
    ∀ e ∈ s.list isActive, e.Marked none := by
  cases isActive with
  | true => exact h.active
  | false => exact h.pending

theorem Marks.setList {s : SerPdev V} (h : Marks s none) {isActive : Bool}
    {l : List (CommandList V)} (hl : l ⊆ s.list isActive) : Marks (s.setList isActive l) none := by
  cases isActive with
  | true => exact ⟨fun e he => h.active e (hl he), h.pending⟩
  | false => exact ⟨h.active, fun e he => h.pending e (hl he)⟩

theorem Marks.marked {s : SerPdev V} (h : Marks s none) (node : ℕ) :
    Marks (s.setInUse true node fun u => { u with markedForActivation := true }) (some node) := by
  refine ⟨fun e he => ?_, h.pending⟩
  obtain ⟨x, hx, rfl⟩ := mem_map.mp he
  have hmark := h.active x hx
  split
  · rename_i hnode
    exact ⟨hmark.cancel, hmark.removal, fun _ => congrArg some hnode.symm⟩
  · exact hmark.mono _

theorem Marks.cleared {s : SerPdev V} {node : ℕ} (h : Marks s (some node)) :
    Marks (s.setInUse true node fun u =>
      { u with markedForActivation := false, isActive := true }) none := by
  refine ⟨fun e he => ?_, h.pending⟩
  obtain ⟨x, hx, rfl⟩ := mem_map.mp he
  have hmark := h.active x hx
  split
  · exact ⟨hmark.cancel, hmark.removal, fun hfalse => Bool.noConfusion hfalse⟩
  · rename_i hnode
    refine ⟨hmark.cancel, hmark.removal, fun htrue => ?_⟩
    exact absurd (Option.some.inj (hmark.activation htrue)).symm hnode

variable [DecidableEq V]

/-! ## Steps -/

theorem marks_add [Fintype V] (cfg : SerConfig V) {s : SerPdev V} {e : CommandList V}
    (isActive : Bool) (h : Marks s none) (he : e.Marked none) :
    Marks (wlanSerAddNonScanCmd cfg e isActive s).2 none := by
  have hput : ∀ l : List (CommandList V), (∀ x ∈ l, x.Marked none) →
      ∀ x ∈ putEntry e.cmd e l, x.Marked none := by
    intro l hl x hx
    rcases mem_cons.mp ((putEntry_perm e.cmd e l).mem_iff.mp hx) with rfl | hx
    · exact he
    · exact hl x hx
  by_cases hfull : s.Full cfg isActive e.cmd.vdev
  · obtain ⟨disabled, hadd⟩ := wlanSerAddNonScanCmd_full hfull
    rw [hadd]
    exact ⟨h.active, h.pending⟩
  · obtain ⟨disabled, hadd⟩ := wlanSerAddNonScanCmd_room hfull
    rw [hadd]
    cases isActive with
    | true => exact ⟨hput _ h.active, h.pending⟩
    | false => exact ⟨h.active, hput _ h.pending⟩

/-- Without marks, a removal fails only if the command is not there. -/
theorem wlanSerRemoveNonScanCmd_unmarked (cmd : SerCommand V) (isActive : Bool) {s : SerPdev V}
    (h : Marks s none) :
    (wlanSerRemoveNonScanCmd cmd isActive s = (.eFailure, s) ∧
      ∀ e ∈ s.list isActive, ¬ sameCmd cmd e.cmd) ∨
    ∃ e t, wlanSerRemoveNonScanCmd cmd isActive s = (.success e, t) ∧ e.Marked none ∧
      Marks t none := by
  rw [wlanSerRemoveNonScanCmd, vdevList_find]
  cases hfind : (s.list isActive).find? (matchCmd cmd) with
  | none =>
    refine Or.inl ⟨rfl, fun e he hsame => ?_⟩
    exact find?_eq_none.mp hfind e he ((matchCmd_iff cmd e).mpr hsame)
  | some e =>
    have he := h.list isActive e (mem_of_find?_eq_some hfind)
    have hunmarked := he.unmarked
    have herase := h.setList (eraseP_subset (p := matchCmd cmd) (l := s.list isActive))
    simp only [hunmarked, Bool.false_eq_true, if_false]
    cases isActive with
    | true => exact Or.inr ⟨e, _, rfl, he, herase.active, herase.pending⟩
    | false => exact Or.inr ⟨e, _, rfl, he, herase⟩

theorem marks_walk {bitmap : Finset V} {marked : Bool} {l : List (CommandList V)}
    (h : ∀ e ∈ l, e.Marked none) :
    (∀ e ∈ (walkPending bitmap marked l).1, e.Marked none) ∧
      ∀ e ∈ (walkPending bitmap marked l).2, e.Marked none := by
  induction l generalizing marked with
  | nil => exact ⟨h, fun e he => absurd he (Option.not_mem_none e)⟩
  | cons e rest ih =>
    obtain ⟨hfirst, hrest⟩ := forall_mem_cons.mp h
    have hmark : (if marked then e.markForMovement true else e).Marked none := by
      split
      · exact hfirst.moved true
      · exact hfirst
    rw [walkPending]
    generalize (if marked then e.markForMovement true else e) = e' at hmark ⊢
    simp only
    split
    · exact ⟨forall_mem_cons.mpr ⟨hmark, hrest⟩, fun e he => by simp at he⟩
    split
    · obtain ⟨hlist, hfound⟩ := ih hrest
      exact ⟨forall_mem_cons.mpr ⟨hmark.moved false, hlist⟩, hfound⟩
    · refine ⟨forall_mem_cons.mpr ⟨hmark, ?_⟩, fun x hx => ?_⟩
      · cases rest with
        | nil => exact hrest
        | cons y rest =>
          obtain ⟨hy, hrest⟩ := forall_mem_cons.mp hrest
          exact forall_mem_cons.mpr ⟨hy.moved true, hrest⟩
      · rwa [← Option.some.inj hx]

theorem marks_search {s : SerPdev V} (h : Marks s none) (lookup : Option V) :
    Marks (searchPending lookup s).1 none ∧
      ∀ e ∈ (searchPending lookup s).2, e.Marked none := by
  cases lookup with
  | none =>
    obtain ⟨hlist, hfound⟩ := marks_walk h.pending
    exact ⟨⟨h.active, hlist⟩, hfound⟩
  | some vdev =>
    refine ⟨h, fun e he => ?_⟩
    simp only [searchPending] at he
    split at he
    · simp at he
    · obtain ⟨hhead, -⟩ := Option.filter_eq_some_iff.mp he
      exact h.pending e (mem_of_mem_filter (mem_of_mem_head? hhead))

theorem marks_cancelLoop (req : CancelReq V) (isActive : Bool) (qsize : ℕ) (nnode pnode : Option ℕ)
    {s : SerPdev V} (h : Marks s none) :
    Marks (cancelLoop req isActive qsize nnode pnode s).2 none := by
  induction qsize generalizing nnode pnode with
  | zero => exact h
  | succ qsize ih =>
    rw [cancelLoop]
    cases hget : getCmdFromQueue (s.list isActive) nnode with
    | none => exact h
    | some e =>
      have hunmarked := (h.list isActive e (getCmdFromQueue_mem hget)).unmarked
      simp only [hunmarked, Bool.and_false, Bool.false_eq_true, if_false]
      split
      · exact ih _ _
      · have herase := h.setList (eraseP_subset
          (p := fun x => decide (x.node = e.node)) (l := s.list isActive))
        exact ⟨herase.active, herase.pending⟩

theorem marks_cancelFrames (req : CancelReq V) (isActive : Bool)
    {r : Option (CancelCursor × SerCommand V) × SerPdev V} (h : Marks r.2 none)
    (fs : List (SerFrame V)) :
    Marks (cancelFrames req isActive r).1
      (((cancelFrames req isActive r).2 ++ fs).head?.bind SerFrame.activates) := by
  obtain ⟨found, s⟩ := r
  cases found with
  | none => exact h.mono _
  | some x => exact h.mono _

variable [Fintype V]

variable {s : SerPdev V}

theorem marks_move (cfg : SerConfig V) (h : Marks s none) (lookup : Option V) :
    Marks (moveSection cfg lookup s).2 (moveSection cfg lookup s).1 := by
  obtain ⟨hsearch, hfound⟩ := marks_search h lookup
  rw [moveSection]
  generalize searchPending lookup s = r at hsearch hfound
  obtain ⟨t, found⟩ := r
  cases found with
  | none => exact hsearch
  | some e =>
    simp only
    rw [moveToActive]
    rcases wlanSerRemoveNonScanCmd_unmarked e.cmd false hsearch with
      ⟨hremove, -⟩ | ⟨x, u, hremove, hx, hu⟩
    · rw [hremove]
      exact hsearch
    · rw [hremove]
      have hadd := marks_add cfg true hu hx
      simp only
      generalize wlanSerAddNonScanCmd cfg x true u = r at hadd
      obtain ⟨status, v⟩ := r
      cases status with
      | active =>
        have hmarked := hadd.marked x.node
        simp only
        split
        · exact ⟨hmarked.active, hmarked.pending⟩
        · exact hmarked
      | pending | deniedListFull | queueDisabled | deniedUnspecified =>
        exact ⟨hadd.active, hadd.pending⟩

theorem marks_enqueue (cfg : SerConfig V) (cmd : SerCommand V) (h : Marks s none) :
    Marks (wlanSerializationEnqueueCmd cfg cmd s).2.2
      (wlanSerializationEnqueueCmd cfg cmd s).2.1 := by
  rw [wlanSerializationEnqueueCmd]
  split
  · exact h
  have hallowed : Marks (wlanSerializationIsActiveCmdAllowed cmd s).2 none := by
    rw [wlanSerializationIsActiveCmdAllowed_snd, SerPdev.counted_eq]
    exact ⟨h.active, h.pending⟩
  simp only
  generalize wlanSerializationIsActiveCmdAllowed cmd s = r at hallowed
  obtain ⟨activeQueue, t⟩ := r
  rw [enqueueInto]
  split
  · exact hallowed
  split
  · exact hallowed
  rename_i node pool _
  have hpool : Marks ({ t with cmdPoolList := pool } : SerPdev V) none :=
    ⟨hallowed.active, hallowed.pending⟩
  have hadd := marks_add cfg activeQueue (e := ⟨node, cmd, {}⟩) hpool
    ⟨rfl, rfl, fun hmark => Bool.noConfusion hmark⟩
  simp only
  generalize wlanSerAddNonScanCmd cfg ⟨node, cmd, {}⟩ activeQueue
    { t with cmdPoolList := pool } = r at hadd
  obtain ⟨status, u⟩ := r
  cases status with
  | active => exact hadd.marked node
  | pending => exact hadd
  | deniedListFull | queueDisabled | deniedUnspecified => exact ⟨hadd.active, hadd.pending⟩

omit [DecidableEq V] [Fintype V] in
theorem marks_moveFrames (vdevQueueLookup : Bool) {node : Option ℕ} (h : Marks s node)
    (fs : List (SerFrame V)) :
    Marks s ((moveFrames vdevQueueLookup node ++ fs).head?.bind SerFrame.activates) := by
  cases node with
  | none => exact h.mono _
  | some node => exact h

theorem marks_runFrame (cfg : SerConfig V) (activated : Bool) {f : SerFrame V}
    (h : Marks s f.activates) (fs : List (SerFrame V)) :
    Marks (runFrame cfg activated s f).1
      (((runFrame cfg activated s f).2 ++ fs).head?.bind SerFrame.activates) := by
  cases f with
  | enqueue cmd =>
    have henqueue := marks_enqueue cfg cmd h
    rw [runFrame]
    simp only
    generalize wlanSerializationEnqueueCmd cfg cmd s = r at henqueue
    obtain ⟨status, node, t⟩ := r
    cases node with
    | none => exact henqueue.mono _
    | some node => exact henqueue
  | dequeue cmd =>
    rw [runFrame]
    rcases wlanSerRemoveNonScanCmd_unmarked cmd true h with
      ⟨hremove, -⟩ | ⟨e, t, hremove, -, ht⟩
    · rw [hremove]
      exact h.mono _
    · rw [hremove]
      exact ⟨ht.active, ht.pending⟩
  | cancel req isActive =>
    exact marks_cancelFrames req isActive (marks_cancelLoop req isActive _ none none h) fs
  | cancelResume req isActive cursor removed =>
    have hclear : Marks (cancelClear isActive removed s) none := by
      cases isActive with
      | true => exact ⟨h.active, h.pending⟩
      | false =>
        rw [cancelClear, if_neg Bool.false_ne_true]
        split
        · exact ⟨h.active, h.pending⟩
        · exact h
    rw [runFrame]
    refine marks_cancelFrames req isActive ?_ fs
    split
    · exact hclear
    · exact marks_cancelLoop req isActive _ _ _ hclear
  | activate node =>
    have hcleared := h.cleared
    rw [runFrame, wlanSerializationActivateCmd]
    simp only
    split
    · exact hcleared.mono _
    split
    · exact hcleared
    split
    · exact hcleared
    · exact hcleared.mono _
  | move vdev blockingCmdRemoved => exact marks_moveFrames _ (marks_move cfg h _) fs
  | moveResume vdevQueueLookup =>
    rw [runFrame]
    split
    · exact h.mono _
    · exact marks_moveFrames _ (marks_move cfg h _) fs

omit [DecidableEq V] in
theorem Marks.create (cfg : SerConfig V) : Marks (SerPdev.create cfg) none :=
  ⟨fun _ he => absurd he not_mem_nil, fun _ he => absurd he not_mem_nil⟩

omit [DecidableEq V] [Fintype V] in
theorem Marks.started (h : Marks s none) (op : SerOp V) :
    Marks s (op.frames.head?.bind SerFrame.activates) := by
  cases op with
  | request cmd => exact h
  | remove cmd => exact h
  | cancel reqType cmd activeQueue pendingQueue =>
    cases activeQueue <;> cases pendingQueue <;> exact h

theorem moveSection_found (cfg : SerConfig V) {fs : List (SerFrame V)}
    (htracked : Tracked s.view fs) (h : Marks s none) {lookup : Option V}
    (hnone : (moveSection cfg lookup s).1 = none) : (searchPending lookup s).2 = none := by
  rcases moveSection_cases cfg htracked lookup with
    ⟨-, -, hnot⟩ | ⟨e, l₁, l₂, disabled, -, -, -, hsome, -⟩
  · cases hsearch : (searchPending lookup s).2 with
    | none => rfl
    | some e =>
      obtain ⟨l₁, l₂, hl, -⟩ := searchPending_some hsearch
      have hview := searchPending_view lookup s
      rcases wlanSerRemoveNonScanCmd_unmarked e.cmd false (marks_search h lookup).1 with
        ⟨-, hother⟩ | ⟨x, t, hremove, -⟩
      · have hmem : e.entry ∈ (searchPending lookup s).1.view.pending := by
          rw [hview, hl]
          exact mem_append_right l₁ mem_cons_self
        obtain ⟨y, hy, hentry⟩ := mem_map.mp hmem
        have hcmd : y.cmd = e.cmd := congrArg Prod.snd hentry
        exact absurd ⟨by rw [hcmd], by rw [hcmd], by rw [hcmd]⟩ (hother y hy)
      · exact absurd (congrArg Prod.fst hremove) (hnot e hsearch x)
  · rw [hsome] at hnone
    exact absurd hnone (Option.some_ne_none _)

end QcomModules.Wlan
