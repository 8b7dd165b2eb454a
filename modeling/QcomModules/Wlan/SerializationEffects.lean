import QcomModules.Wlan.SerializationSteps

/-! The effect of each step on the queues, and the invariant that every step keeps. -/

namespace QcomModules.Wlan

open List

variable {V : Type} [DecidableEq V]

/-! ## Cancelling -/

variable {l : List (CommandList V)} {e : CommandList V} {s : SerPdev V} {f : SerFrame V}
  {req : CancelReq V} {isActive : Bool} {w w' : SerView V} {fs gs : List (SerFrame V)} {v : V}
  {x : ℕ × SerCommand V} {l₁ l₂ : List (ℕ × SerCommand V)}

omit [DecidableEq V] in
theorem getCmdFromQueue_mem {pnode : Option ℕ} (h : getCmdFromQueue l pnode = some e) : e ∈ l := by
  cases pnode with
  | none => exact mem_of_mem_head? h
  | some node =>
    exact (dropWhile_sublist _).subset (mem_of_mem_tail (mem_of_mem_head? h))

omit [DecidableEq V] in
theorem map_node_entry (l : List (CommandList V)) :
    (l.map CommandList.entry).map (·.1) = l.map (·.node) := by
  rw [map_map]
  rfl

omit [DecidableEq V] in
theorem eraseP_node (hnodup : (l.map (·.node)).Nodup) (he : e ∈ l) :
    ∃ l₁ l₂, l = l₁ ++ e :: l₂ ∧ (l.eraseP fun x => x.node = e.node) = l₁ ++ l₂ := by
  cases hfind : l.find? fun x => x.node = e.node with
  | none => exact absurd (find?_eq_none.mp hfind e he) (by simp)
  | some x =>
    have hnode : x.node = e.node := by simpa using find?_some hfind
    obtain rfl := inj_on_of_nodup_map hnodup (mem_of_find?_eq_some hfind) he hnode
    exact eraseP_of_find hfind

theorem cancelLoop_cases (req : CancelReq V) (isActive : Bool) (qsize : ℕ)
    (nnode pnode : Option ℕ) (s : SerPdev V)
    (hnodup : ((s.view.list isActive).map (·.1)).Nodup) :
    ((cancelLoop req isActive qsize nnode pnode s).1 = none ∧
      (cancelLoop req isActive qsize nnode pnode s).2.view = s.view) ∨
    ∃ cursor e l₁ l₂, s.view.list isActive = l₁ ++ e.entry :: l₂ ∧ req.selects e = true ∧
      (cancelLoop req isActive qsize nnode pnode s).1 = some (cursor, e.cmd) ∧
      (cancelLoop req isActive qsize nnode pnode s).2.view =
        (s.view.setList isActive (l₁ ++ l₂)).release e.node := by
  induction qsize generalizing nnode pnode s with
  | zero => exact Or.inl ⟨rfl, rfl⟩
  | succ qsize ih =>
    rw [cancelLoop]
    cases hget : getCmdFromQueue (s.list isActive) nnode with
    | none => exact Or.inl ⟨rfl, rfl⟩
    | some e =>
      simp only
      split
      · exact ih _ _ s hnodup
      rename_i hselects
      split
      · have hsame := view_setInUse s true e.node
          fun u => { u with activeMarkedForCancel := true }
        rw [← hsame] at hnodup
        have hrest := ih (some e.node) pnode _ hnodup
        rwa [hsame] at hrest
      · rw [view_list, map_node_entry] at hnodup
        obtain ⟨l₁, l₂, hl, herase⟩ := eraseP_node hnodup (getCmdFromQueue_mem hget)
        refine Or.inr ⟨⟨pnode, qsize⟩, e, l₁.map CommandList.entry, l₂.map CommandList.entry,
          ?_, by simpa using hselects, rfl, ?_⟩
        · rw [view_list, hl, map_append, map_cons]
        · rw [view_release, view_setList, herase, map_append]

@[simp] theorem SerView.clear_list (w : SerView V) (isActive' isActive : Bool)
    (cmd : SerCommand V) : (w.clear isActive' cmd).list isActive = w.list isActive := by
  rw [SerView.clear]
  split
  · simp [SerView.list]
  split <;> simp [SerView.list]

/-! ## Effects -/

/-- The queue that a step cancels in, and the queues after the clearing that comes first. -/
def SerFrame.cancelling (s : SerPdev V) : SerFrame V → Option (CancelReq V × Bool × SerView V)
  | .cancel req isActive => some (req, isActive, s.view)
  | .cancelResume req isActive _ removed => some (req, isActive, s.view.clear isActive removed)
  | _ => none

def SerFrame.lookup (s : SerPdev V) : SerFrame V → Option (Option V)
  | .move vdev blockingCmdRemoved =>
    some (if !blockingCmdRemoved && s.blockingCmdWaiting = 0 then vdev else none)
  | .moveResume vdevQueueLookup =>
    if vdevQueueLookup || s.blockingCmdActive then none else some none
  | _ => none

theorem cancelling_list (hcancel : f.cancelling s = some (req, isActive, w)) (isActive' : Bool) :
    w.list isActive' = s.view.list isActive' := by
  cases f with
  | cancel req' isActive'' =>
    obtain ⟨-, -, rfl⟩ : req' = req ∧ isActive'' = isActive ∧ s.view = w := by
      simpa [SerFrame.cancelling] using hcancel
    rfl
  | cancelResume req' isActive'' cursor removed =>
    obtain ⟨-, -, rfl⟩ : req' = req ∧ isActive'' = isActive ∧
        s.view.clear isActive'' removed = w := by
      simpa [SerFrame.cancelling] using hcancel
    exact s.view.clear_list isActive'' isActive' removed
  | enqueue | dequeue | activate | move | moveResume => simp [SerFrame.cancelling] at hcancel

def SerView.dropActive (w : SerView V) (x : ℕ × SerCommand V) (rest : List (ℕ × SerCommand V)) :
    SerView V :=
  { w with
    active := rest
    pool := w.pool ++ [x.1]
    bitmap := w.bitmap.erase x.2.vdev
    blockingActive := w.blockingActive && !x.2.isBlocking }

/-- What a step can do to the queues, and the steps that it calls for. -/
inductive SerEffect [Fintype V] (cfg : SerConfig V) (s : SerPdev V) :
    SerFrame V → SerView V → List (SerFrame V) → Prop where
  | enqueue {cmd : SerCommand V} {w : SerView V} {node : Option ℕ}
      (heffect : EnqueueEffect cfg s cmd w node) :
      SerEffect cfg s (.enqueue cmd) w (node.map SerFrame.activate).toList
  | dequeueNone (cmd : SerCommand V) : SerEffect cfg s (.dequeue cmd) s.view []
  | dequeue {cmd : SerCommand V} {x : ℕ × SerCommand V} {l₁ l₂ : List (ℕ × SerCommand V)}
      (hactive : s.view.active = l₁ ++ x :: l₂) (hsame : sameCmd cmd x.2) :
      SerEffect cfg s (.dequeue cmd) (s.view.dropActive x (l₁ ++ l₂))
        [.move (some x.2.vdev) x.2.isBlocking]
  | cancelEnd {f : SerFrame V} {req : CancelReq V} {isActive : Bool} {w : SerView V}
      (hcancel : f.cancelling s = some (req, isActive, w)) :
      SerEffect cfg s f w
        (if isActive = true ∧ w.active = [] ∧ w.bitmap = ∅ then [.move none false] else [])
  | cancel {f : SerFrame V} {req : CancelReq V} {isActive : Bool} {w : SerView V}
      {e : CommandList V} {l₁ l₂ : List (ℕ × SerCommand V)} (cursor : CancelCursor)
      (hcancel : f.cancelling s = some (req, isActive, w))
      (hlist : w.list isActive = l₁ ++ e.entry :: l₂) (hselects : req.selects e = true) :
      SerEffect cfg s f ((w.setList isActive (l₁ ++ l₂)).release e.node)
        [.cancelResume req isActive cursor e.cmd]
  | activate (node : ℕ) : SerEffect cfg s (.activate node) s.view []
  | activateDequeue {x : ℕ × SerCommand V} (hactive : x ∈ s.view.active) :
      SerEffect cfg s (.activate x.1) s.view [.dequeue x.2]
  | activateCancel {x : ℕ × SerCommand V} (hactive : x ∈ s.view.active) :
      SerEffect cfg s (.activate x.1) s.view [.cancel (CancelReq.ofCmd x.2 x.2.cmdType) true]
  | moveNone {f : SerFrame V} {lookup : Option V} (hlookup : f.lookup s = some lookup)
      (hnone : (moveSection cfg lookup s).1 = none) : SerEffect cfg s f s.view []
  | moveEnd (vdevQueueLookup : Bool) (hend : (vdevQueueLookup || s.blockingCmdActive) = true) :
      SerEffect cfg s (.moveResume vdevQueueLookup) s.view []
  | moved {f : SerFrame V} {lookup : Option V} {e : CommandList V}
      {l₁ l₂ : List (ℕ × SerCommand V)} (disabled : Finset V)
      (hlookup : f.lookup s = some lookup) (hsearch : (searchPending lookup s).2 = some e)
      (hpending : s.view.pending = l₁ ++ e.entry :: l₂)
      (hpicks : Picks lookup s.vdevActiveCmdBitmap l₁ e.cmd) :
      SerEffect cfg s f (s.view.moved e.entry (l₁ ++ l₂) disabled)
        [.activate e.node, .moveResume lookup.isSome]

theorem cancelFrames_effect [Fintype V] (cfg : SerConfig V) {s t : SerPdev V} {f : SerFrame V}
    {req : CancelReq V} (hcancel : f.cancelling s = some (req, isActive, t.view))
    {r : Option (CancelCursor × SerCommand V) × SerPdev V} (h : (r.1 = none ∧ r.2.view = t.view) ∨
      ∃ cursor e l₁ l₂, t.view.list isActive = l₁ ++ e.entry :: l₂ ∧ req.selects e = true ∧
        r.1 = some (cursor, e.cmd) ∧
        r.2.view = (t.view.setList isActive (l₁ ++ l₂)).release e.node) :
    SerEffect cfg s f (cancelFrames req isActive r).1.view (cancelFrames req isActive r).2 := by
  obtain ⟨found, u⟩ := r
  rcases h with ⟨hnone, hview⟩ | ⟨cursor, e, l₁, l₂, hl, hselects, hsome, hview⟩
  · simp only at hnone hview
    subst hnone
    have hend : SerEffect cfg s f t.view _ := .cancelEnd hcancel
    rw [← hview] at hend
    have hlist : u.view.active = [] ↔ u.activeList = [] := map_eq_nil_iff
    have hbitmap : u.view.bitmap = u.vdevActiveCmdBitmap := rfl
    rw [cancelFrames]
    convert hend using 2
    cases isActive <;>
      simp [hlist, hbitmap, SerPdev.list, wlanSerializationAnyVdevCmdActive, List.isEmpty_iff]
  · simp only at hsome hview
    subst hsome
    rw [cancelFrames, hview]
    exact .cancel cursor hcancel hl hselects

theorem moveFrames_effect [Fintype V] (cfg : SerConfig V) {s : SerPdev V} {f : SerFrame V}
    {fs : List (SerFrame V)} (h : Tracked s.view fs) {lookup : Option V}
    (hlookup : f.lookup s = some lookup) :
    SerEffect cfg s f (moveSection cfg lookup s).2.view
      (moveFrames lookup.isSome (moveSection cfg lookup s).1) := by
  rcases moveSection_cases cfg h lookup with
    ⟨hend, hview, -⟩ | ⟨e, l₁, l₂, disabled, hsearch, hpending, hpicks, hsome, hview⟩
  · rw [hend, hview]
    exact .moveNone hlookup hend
  · rw [hsome, hview]
    exact .moved disabled hlookup hsearch hpending hpicks

theorem activate_effect [Fintype V] (cfg : SerConfig V) (activated : Bool) (node : ℕ)
    (s : SerPdev V) :
    SerEffect cfg s (.activate node) (wlanSerializationActivateCmd activated node s).1.view
      (wlanSerializationActivateCmd activated node s).2 := by
  simp only [wlanSerializationActivateCmd]
  have hview := view_setInUse s true node
    fun u => { u with markedForActivation := false, isActive := true }
  generalize s.setInUse true node
    (fun u => { u with markedForActivation := false, isActive := true }) = t at hview ⊢
  rw [hview]
  cases hfind : t.activeList.find? fun e => e.node = node with
  | none => exact .activate node
  | some e =>
    have hnode : e.node = node := by simpa using find?_some hfind
    have hmem : e.entry ∈ s.view.active :=
      hview ▸ mem_map_of_mem (mem_of_find?_eq_some hfind)
    subst hnode
    simp only
    split
    · exact .activateDequeue hmem
    split
    · exact .activateCancel hmem
    · exact .activate e.node

theorem dequeue_effect [Fintype V] (cfg : SerConfig V) (activated : Bool) (cmd : SerCommand V)
    (s : SerPdev V) :
    SerEffect cfg s (.dequeue cmd) (runFrame cfg activated s (.dequeue cmd)).1.view
      (runFrame cfg activated s (.dequeue cmd)).2 := by
  rw [runFrame]
  rcases wlanSerRemoveNonScanCmd_cases cmd true s with
    ⟨hview, hnot⟩ | ⟨e, l₁, l₂, hl, hsame, heq⟩
  · cases hremove : wlanSerRemoveNonScanCmd cmd true s with
    | mk status t =>
      rw [hremove] at hview hnot
      cases status with
      | success e => exact absurd rfl (hnot e)
      | eFailure => exact hview ▸ .dequeueNone cmd
      | ePending => exact hview ▸ .dequeueNone cmd
  · have hactive : s.view.active =
        l₁.map CommandList.entry ++ e.entry :: l₂.map CommandList.entry := by
      rw [← map_cons, ← map_append, ← hl]
      rfl
    have heffect : SerEffect cfg s (.dequeue cmd) _ _ := .dequeue hactive hsame
    rw [heq, if_pos rfl, view_release]
    convert heffect using 1
    · simp [SerPdev.view, SerView.release, SerView.dropActive, CommandList.entry, hsame.2.2]
    · rfl

theorem Tracked.list_nodup (h : Tracked w fs) (isActive : Bool) :
    ((w.list isActive).map (·.1)).Nodup := by
  have hlists := h.nodes.of_append_left
  cases isActive with
  | true => exact hlists.of_append_left
  | false => exact hlists.of_append_right

theorem runFrame_effect [Fintype V] (cfg : SerConfig V) (activated : Bool) {s : SerPdev V}
    {f : SerFrame V} {fs : List (SerFrame V)} (h : Tracked s.view (f :: fs)) :
    SerEffect cfg s f (runFrame cfg activated s f).1.view (runFrame cfg activated s f).2 := by
  cases f with
  | enqueue cmd =>
    have heffect := SerEffect.enqueue (enqueue_effect cfg s cmd)
    simpa only [runFrame] using heffect
  | dequeue cmd => exact dequeue_effect cfg activated cmd s
  | cancel req isActive =>
    exact cancelFrames_effect cfg rfl
      (cancelLoop_cases req isActive _ none none s (h.list_nodup isActive))
  | cancelResume req isActive cursor removed =>
    have hview := view_cancelClear s isActive removed
    have hcancel : (SerFrame.cancelResume req isActive cursor removed).cancelling s =
        some (req, isActive, (cancelClear isActive removed s).view) := by
      rw [hview]
      rfl
    refine cancelFrames_effect cfg hcancel ?_
    split
    · exact Or.inl ⟨rfl, rfl⟩
    · refine cancelLoop_cases req isActive _ _ _ _ ?_
      rw [hview, SerView.clear_list]
      exact h.list_nodup isActive
  | activate node => exact activate_effect cfg activated node s
  | move vdev blockingCmdRemoved =>
    exact moveFrames_effect cfg h rfl
  | moveResume vdevQueueLookup =>
    rw [runFrame]
    by_cases hstop : (vdevQueueLookup || s.blockingCmdActive) = true
    · rw [if_pos hstop]
      exact .moveEnd vdevQueueLookup hstop
    · rw [if_neg hstop]
      exact moveFrames_effect cfg h (if_neg hstop)

/-! ## The queues stay tracked -/

omit [DecidableEq V] in
theorem heldVdevs_cons (w : SerView V) (hf : f.clearing = none) (fs : List (SerFrame V)) :
    w.heldVdevs (f :: fs) = w.heldVdevs fs := by
  rw [SerView.heldVdevs, SerView.heldVdevs, filterMap_cons_none hf]

theorem Tracked.of_cons (h : Tracked w (f :: fs)) (hf : f.clearing = none) : Tracked w fs := by
  have hheld := heldVdevs_cons w hf fs
  exact ⟨h.nodes, hheld ▸ h.vdevs, hheld ▸ h.bitmap, h.keys⟩

theorem Tracked.cons (h : Tracked w fs) (hf : f.clearing = none) : Tracked w (f :: fs) := by
  have hheld := heldVdevs_cons w hf fs
  exact ⟨h.nodes, hheld ▸ h.vdevs, hheld ▸ h.bitmap, h.keys⟩

theorem Tracked.hold (h : Tracked w fs) (hidle : v ∉ w.bitmap)
    (hheld : (w'.heldVdevs gs).Perm (v :: w.heldVdevs fs)) :
    (w'.heldVdevs gs).Nodup ∧ insert v w.bitmap = (w'.heldVdevs gs).toFinset := by
  refine ⟨hheld.nodup_iff.mpr (nodup_cons.mpr ⟨?_, h.vdevs⟩), ?_⟩
  · rwa [h.bitmap, mem_toFinset] at hidle
  · rw [toFinset_eq_of_perm _ _ hheld, toFinset_cons, h.bitmap]

theorem Tracked.unhold (h : Tracked w fs) (hheld : (w.heldVdevs fs).Perm (v :: w'.heldVdevs gs)) :
    (w'.heldVdevs gs).Nodup ∧ w.bitmap.erase v = (w'.heldVdevs gs).toFinset := by
  obtain ⟨hnot, hnodup⟩ := nodup_cons.mp (hheld.nodup_iff.mp h.vdevs)
  refine ⟨hnodup, ?_⟩
  rw [h.bitmap, toFinset_eq_of_perm _ _ hheld, toFinset_cons,
    Finset.erase_insert (by rwa [mem_toFinset])]

theorem Tracked.nodes_perm (h : Tracked w fs)
    (hcount : ∀ node, (w'.active.map (·.1)).count node + (w'.pending.map (·.1)).count node +
      w'.pool.count node = (w.active.map (·.1)).count node + (w.pending.map (·.1)).count node +
        w.pool.count node) : (w'.active.map (·.1) ++ w'.pending.map (·.1) ++ w'.pool).Nodup := by
  refine (perm_iff_count.mpr fun node => ?_).nodup_iff.mpr h.nodes
  simpa only [count_append] using hcount node

theorem Tracked.congr (h : Tracked w fs) (hactive : w'.active = w.active)
    (hpending : w'.pending = w.pending) (hpool : w'.pool.Perm w.pool)
    (hbitmap : w'.bitmap = w.bitmap) : Tracked w' fs := by
  have hheld : w'.heldVdevs fs = w.heldVdevs fs := by
    rw [SerView.heldVdevs, SerView.heldVdevs, hactive]
  refine ⟨h.nodes_perm fun node => ?_, hheld ▸ h.vdevs, ?_, hpending ▸ h.keys⟩
  · rw [hactive, hpending, hpool.count_eq]
  · rw [hbitmap, hheld, h.bitmap]

omit [DecidableEq V] in
theorem count_putEntry (cmd : SerCommand V) (x : ℕ × SerCommand V)
    (l : List (ℕ × SerCommand V)) (node : ℕ) :
    ((putEntry cmd x l).map (·.1)).count node =
      (l.map (·.1)).count node + if x.1 = node then 1 else 0 := by
  rw [((putEntry_perm cmd x l).map _).count_eq, map_cons, count_cons]
  simp only [beq_iff_eq]

omit [DecidableEq V] in
theorem heldVdevs_put (w : SerView V) (fs : List (SerFrame V))
    (hactive : w'.active = putEntry x.2 x w.active) :
    (w'.heldVdevs fs).Perm (x.2.vdev :: w.heldVdevs fs) := by
  rw [SerView.heldVdevs, SerView.heldVdevs, hactive, ← cons_append]
  exact ((putEntry_perm x.2 x w.active).map _).append_right _

omit [DecidableEq V] in
theorem heldVdevs_drop (fs : List (SerFrame V)) (hw : w.active = l₁ ++ x :: l₂)
    (hw' : w'.active = l₁ ++ l₂) : (w.heldVdevs fs).Perm (x.2.vdev :: w'.heldVdevs fs) := by
  rw [SerView.heldVdevs, SerView.heldVdevs, hw, hw', ← cons_append]
  exact (perm_middle.map _).append_right _

theorem Tracked.dropped (h : Tracked w fs) (hactive : w.active = l₁ ++ x :: l₂) :
    Tracked (w.dropActive x (l₁ ++ l₂)) fs := by
  obtain ⟨hvdevs, hbitmap⟩ := h.unhold (heldVdevs_drop fs hactive
    (show (w.dropActive x (l₁ ++ l₂)).active = l₁ ++ l₂ from rfl))
  refine ⟨h.nodes_perm fun node => ?_, hvdevs, hbitmap, h.keys⟩
  rw [hactive]
  simp only [SerView.dropActive, map_append, map_cons, count_append,
    count_cons, count_nil]
  omega

theorem Tracked.cancelled (h : Tracked w fs) (hlist : w.list isActive = l₁ ++ x :: l₂)
    (req : CancelReq V) (cursor : CancelCursor) :
    Tracked ((w.setList isActive (l₁ ++ l₂)).release x.1)
      (.cancelResume req isActive cursor x.2 :: fs) := by
  cases isActive with
  | true =>
    -- the vdev is held by the step to come in place of the entry
    have hactive : w.active = l₁ ++ x :: l₂ := hlist
    have hheld : (((w.setList true (l₁ ++ l₂)).release x.1).heldVdevs
        (.cancelResume req true cursor x.2 :: fs)).Perm (w.heldVdevs fs) := by
      have hdrop := heldVdevs_drop fs hactive
        (show ((w.setList true (l₁ ++ l₂)).release x.1).active = l₁ ++ l₂ from rfl)
      exact perm_middle.trans hdrop.symm
    refine ⟨h.nodes_perm fun node => ?_, hheld.nodup_iff.mpr h.vdevs, ?_, h.keys⟩
    · rw [hactive]
      simp only [SerView.setList, SerView.release, if_true, map_append, map_cons,
        count_append, count_cons, count_nil]
      omega
    · rw [toFinset_eq_of_perm _ _ hheld, ← h.bitmap]
      rfl
  | false =>
    have hpending : w.pending = l₁ ++ x :: l₂ := hlist
    have hkeys := h.keys
    rw [hpending] at hkeys
    refine ⟨h.nodes_perm fun node => ?_, h.vdevs, h.bitmap,
      hkeys.sublist ((sublist_cons_self _ _).append_left _)⟩
    rw [hpending]
    simp only [SerView.setList, SerView.release, Bool.false_eq_true, if_false, map_append,
      map_cons, count_append, count_cons, count_nil]
    omega

theorem Tracked.cleared (h : Tracked s.view (f :: fs))
    (hcancel : f.cancelling s = some (req, isActive, w)) : Tracked w fs := by
  cases f with
  | cancel req' isActive' =>
    obtain ⟨rfl, rfl, rfl⟩ : req' = req ∧ isActive' = isActive ∧ s.view = w := by
      simpa [SerFrame.cancelling] using hcancel
    exact h.of_cons rfl
  | cancelResume req' isActive' cursor removed =>
    obtain ⟨rfl, rfl, rfl⟩ : req' = req ∧ isActive' = isActive ∧
        s.view.clear isActive' removed = w := by
      simpa [SerFrame.cancelling] using hcancel
    cases isActive' with
    | true =>
      have hheld : (s.view.heldVdevs (.cancelResume req' true cursor removed :: fs)).Perm
          (removed.vdev :: (s.view.clear true removed).heldVdevs fs) := perm_middle
      obtain ⟨hvdevs, hbitmap⟩ := h.unhold hheld
      exact ⟨h.nodes, hvdevs, hbitmap, h.keys⟩
    | false =>
      have hrest := h.of_cons rfl
      rw [SerView.clear, if_neg Bool.false_ne_true]
      split
      · exact hrest.congr rfl rfl (Perm.refl _) rfl
      · exact hrest
  | enqueue | dequeue | activate | move | moveResume => simp [SerFrame.cancelling] at hcancel

theorem Tracked.activated (h : Tracked w fs) (hidle : x.2.vdev ∉ w.bitmap)
    (hactive : w'.active = putEntry x.2 x w.active) (hbitmap : w'.bitmap = insert x.2.vdev w.bitmap)
    (hpending : w'.pending.Sublist w.pending)
    (hcount : ∀ node, (w'.pending.map (·.1)).count node + w'.pool.count node +
      (if x.1 = node then 1 else 0) = (w.pending.map (·.1)).count node + w.pool.count node) :
    Tracked w' fs := by
  obtain ⟨hvdevs, hinsert⟩ := h.hold hidle (heldVdevs_put w fs hactive)
  refine ⟨h.nodes_perm fun node => ?_, hvdevs, hbitmap.trans hinsert, h.keys.sublist hpending⟩
  have := hcount node
  rw [hactive, count_putEntry]
  omega

theorem count_cons_pool {pool pool' : List ℕ} {x : ℕ} (hpool : pool = x :: pool') (node : ℕ) :
    pool.count node = pool'.count node + if x = node then 1 else 0 := by
  rw [hpool, count_cons]
  simp only [beq_iff_eq]

theorem SerPdev.Allows.idle {cmd : SerCommand V} (h : s.Allows cmd) :
    cmd.vdev ∉ s.vdevActiveCmdBitmap := by
  have hfirst := h.1
  split at hfirst
  · rw [hfirst]
    exact Finset.notMem_empty _
  · exact hfirst.2.2

theorem Tracked.enqueued [Fintype V] {cfg : SerConfig V} {s : SerPdev V}
    {fs : List (SerFrame V)} {cmd : SerCommand V} {w : SerView V} {node : Option ℕ}
    (h : Tracked s.view fs) (heffect : EnqueueEffect cfg s cmd w node) : Tracked w fs := by
  cases heffect with
  | refused pool disabled hpool => exact h.congr rfl rfl hpool rfl
  | refusedCounted pool disabled hpool => exact h.congr rfl rfl hpool rfl
  | admitted node pool disabled hpool henabled hallows =>
    refine h.activated (x := (node, cmd)) hallows.idle rfl rfl (Sublist.refl _) fun n => ?_
    have hcount := count_cons_pool hpool n
    change _ = _ + s.cmdPoolList.count n
    rw [hcount, Nat.add_assoc]
  | queued node pool disabled hpool henabled hnot hroom =>
    refine ⟨h.nodes_perm fun n => ?_, h.vdevs, h.bitmap, ?_⟩
    · have hcount := count_cons_pool hpool n
      change _ = _ + s.cmdPoolList.count n
      rw [hcount, count_putEntry]
      dsimp only
      omega
    · refine (Perm.pairwise_iff ?_ (putEntry_perm cmd (node, cmd) _)).mpr ?_
      · exact fun hne hsame => hne (sameCmd_symm hsame)
      · refine pairwise_cons.mpr ⟨fun p hp => ?_, h.keys⟩
        obtain ⟨e, he, rfl⟩ := mem_map.mp hp
        exact hroom.fresh e he

theorem Tracked.moved {s : SerPdev V} {fs : List (SerFrame V)} (h : Tracked s.view fs)
    {x : ℕ × SerCommand V} {l₁ l₂ : List (ℕ × SerCommand V)}
    (hpending : s.view.pending = l₁ ++ x :: l₂) (hidle : x.2.vdev ∉ s.vdevActiveCmdBitmap)
    (disabled : Finset V) : Tracked (s.view.moved x (l₁ ++ l₂) disabled) fs := by
  refine h.activated hidle rfl rfl ?_ fun node => ?_
  · rw [hpending]
    exact (sublist_cons_self x l₂).append_left l₁
  · rw [hpending]
    simp only [SerView.moved, map_append, map_cons, count_append, count_cons,
      beq_iff_eq]
    omega

omit [DecidableEq V] in
theorem lookup_clearing {lookup : Option V} (h : f.lookup s = some lookup) : f.clearing = none := by
  cases f with
  | move | moveResume => rfl
  | enqueue | dequeue | cancel | cancelResume | activate => simp [SerFrame.lookup] at h

theorem SerEffect.tracked [Fintype V] {cfg : SerConfig V} {s : SerPdev V} {f : SerFrame V}
    {fs gs : List (SerFrame V)} {w : SerView V} (heffect : SerEffect cfg s f w gs)
    (h : Tracked s.view (f :: fs)) : Tracked w (gs ++ fs) := by
  cases heffect with
  | enqueue heffect =>
    have hrest := (h.of_cons rfl).enqueued heffect
    cases heffect with
    | refused | refusedCounted | queued => exact hrest
    | admitted => exact hrest.cons rfl
  | dequeueNone | activate | moveEnd => exact h.of_cons rfl
  | moveNone hlookup => exact h.of_cons (lookup_clearing hlookup)
  | dequeue hactive hsame => exact ((h.of_cons rfl).dropped hactive).cons rfl
  | cancelEnd hcancel =>
    have hrest := h.cleared hcancel
    split
    · exact hrest.cons rfl
    · exact hrest
  | cancel cursor hcancel hlist hselects => exact (h.cleared hcancel).cancelled hlist _ cursor
  | activateDequeue | activateCancel => exact (h.of_cons rfl).cons rfl
  | moved disabled hlookup hsearch hpending hpicks =>
    have hf := lookup_clearing hlookup
    exact (((h.of_cons hf).moved hpending hpicks.1 disabled).cons rfl).cons rfl

end QcomModules.Wlan
