import QcomModules.Wlan.Serialization

/-! What a step of the serialization can do, seen without the marks on the entries. -/

namespace QcomModules.Wlan

open List

variable {V : Type}

/-! ## Views -/

/-- The queues without the marks: an entry is its address and its command. -/
structure SerView (V : Type) where
  active : List (ℕ × SerCommand V)
  pending : List (ℕ × SerCommand V)
  pool : List ℕ
  bitmap : Finset V
  blockingActive : Bool
  waiting : ℕ
  disabled : Finset V

def CommandList.entry (e : CommandList V) : ℕ × SerCommand V := (e.node, e.cmd)

def SerPdev.view (s : SerPdev V) : SerView V where
  active := s.activeList.map CommandList.entry
  pending := s.pendingList.map CommandList.entry
  pool := s.cmdPoolList
  bitmap := s.vdevActiveCmdBitmap
  blockingActive := s.blockingCmdActive
  waiting := s.blockingCmdWaiting
  disabled := s.queueDisable

def SerView.list (w : SerView V) (isActive : Bool) : List (ℕ × SerCommand V) :=
  if isActive then w.active else w.pending

def SerView.setList (w : SerView V) (isActive : Bool) (l : List (ℕ × SerCommand V)) :
    SerView V :=
  if isActive then { w with active := l } else { w with pending := l }

def SerView.release (w : SerView V) (node : ℕ) : SerView V := { w with pool := w.pool ++ [node] }

/-- `cancelClear` on views. -/
def SerView.clear [DecidableEq V] (w : SerView V) (isActive : Bool) (cmd : SerCommand V) :
    SerView V :=
  if isActive then
    { w with
      blockingActive := w.blockingActive && !cmd.isBlocking
      bitmap := w.bitmap.erase cmd.vdev }
  else if cmd.isBlocking then { w with waiting := (w.waiting + (2 ^ 16 - 1)) % 2 ^ 16 }
  else w

/-- Adds an entry at the end of a list, or in front if it has high priority. -/
def putEntry {α : Type} (cmd : SerCommand V) (x : α) (l : List α) : List α :=
  if cmd.isHighPriority then x :: l else l ++ [x]

variable {α : Type} {isActive : Bool}

theorem putEntry_perm (cmd : SerCommand V) (x : α) (l : List α) :
    (putEntry cmd x l).Perm (x :: l) := by
  rw [putEntry]
  split
  · exact Perm.refl _
  · exact perm_append_singleton x l

theorem mem_putEntry {cmd : SerCommand V} {x y : α} {l : List α} :
    y ∈ putEntry cmd x l ↔ y = x ∨ y ∈ l :=
  (putEntry_perm cmd x l).mem_iff.trans mem_cons

theorem map_putEntry {β : Type} (f : α → β) (cmd : SerCommand V) (x : α) (l : List α) :
    (putEntry cmd x l).map f = putEntry cmd (f x) (l.map f) := by
  rw [putEntry, putEntry]
  split <;> simp

@[simp] theorem view_setInUse (s : SerPdev V) (isActive : Bool) (node : ℕ)
    (f : CmdInUse → CmdInUse) : (s.setInUse isActive node f).view = s.view := by
  have hmap : ∀ l : List (CommandList V),
      (l.map fun e => if e.node = node then { e with cmdInUse := f e.cmdInUse } else e).map
        CommandList.entry = l.map CommandList.entry := by
    intro l
    rw [map_map]
    refine map_congr_left fun e _ => ?_
    rw [Function.comp_apply]
    split <;> rfl
  cases isActive with
  | true => simp [SerPdev.setInUse, SerPdev.setList, SerPdev.list, SerPdev.view, hmap]
  | false => simp [SerPdev.setInUse, SerPdev.setList, SerPdev.list, SerPdev.view, hmap]

@[simp] theorem view_release (s : SerPdev V) (node : ℕ) :
    (s.release node).view = s.view.release node := rfl

theorem setInUse_waiting (s : SerPdev V) (isActive : Bool) (node : ℕ) (f : CmdInUse → CmdInUse) :
    (s.setInUse isActive node f).blockingCmdWaiting = s.blockingCmdWaiting :=
  congrArg SerView.waiting (view_setInUse s isActive node f)

theorem view_setWaiting (s : SerPdev V) (b : Bool) (waiting : ℕ) :
    (if b then { s with blockingCmdWaiting := waiting } else s).view =
      { s.view with waiting := if b then waiting else s.blockingCmdWaiting } := by
  cases b <;> rfl

theorem view_list (s : SerPdev V) (isActive : Bool) :
    s.view.list isActive = (s.list isActive).map CommandList.entry := by
  cases isActive <;> rfl

theorem view_setList (s : SerPdev V) (isActive : Bool) (l : List (CommandList V)) :
    (s.setList isActive l).view = s.view.setList isActive (l.map CommandList.entry) := by
  cases isActive <;> rfl

variable [DecidableEq V]

/-- Commands that are told apart by nothing that a removal or a cancellation names. -/
def sameCmd (cmd c : SerCommand V) : Prop :=
  c.cmdId = cmd.cmdId ∧ c.cmdType = cmd.cmdType ∧ c.vdev = cmd.vdev

instance (cmd c : SerCommand V) : Decidable (sameCmd cmd c) :=
  inferInstanceAs (Decidable (_ ∧ _ ∧ _))

theorem matchCmd_iff (cmd : SerCommand V) (e : CommandList V) :
    matchCmd cmd e = true ↔ sameCmd cmd e.cmd := by
  simp only [matchCmd, sameCmd, Bool.and_eq_true, decide_eq_true_eq, and_assoc]

theorem view_cancelClear (s : SerPdev V) (isActive : Bool) (cmd : SerCommand V) :
    (cancelClear isActive cmd s).view = s.view.clear isActive cmd := by
  cases isActive with
  | true => rfl
  | false =>
    rw [cancelClear, SerView.clear]
    split <;> rename_i h
    · exact absurd h Bool.false_ne_true
    · split <;> rfl

/-! ## Searching and removing -/

theorem eraseP_of_find {p : α → Bool} {l : List α} {x : α} (h : l.find? p = some x) :
    ∃ l₁ l₂, l = l₁ ++ x :: l₂ ∧ l.eraseP p = l₁ ++ l₂ := by
  obtain ⟨hx, l₁, l₂, rfl, hnot⟩ := find?_eq_some_iff_append.mp h
  refine ⟨l₁, l₂, rfl, ?_⟩
  rw [eraseP_append_right _ (by simpa using hnot), eraseP_cons_of_pos hx]

theorem vdevList_find (s : SerPdev V) (isActive : Bool) (cmd : SerCommand V) :
    (s.vdevList isActive cmd.vdev).find? (matchCmd cmd) =
      (s.list isActive).find? (matchCmd cmd) := by
  rw [SerPdev.vdevList, find?_filter]
  congr 1
  funext e
  by_cases h : matchCmd cmd e = true
  · have := ((matchCmd_iff cmd e).mp h).2.2
    simp [h, this]
  · simp [h]

theorem wlanSerRemoveNonScanCmd_cases (cmd : SerCommand V) (isActive : Bool) (s : SerPdev V) :
    ((wlanSerRemoveNonScanCmd cmd isActive s).2.view = s.view ∧
      ∀ e, (wlanSerRemoveNonScanCmd cmd isActive s).1 ≠ .success e) ∨
    ∃ e l₁ l₂, s.list isActive = l₁ ++ e :: l₂ ∧ sameCmd cmd e.cmd ∧
      wlanSerRemoveNonScanCmd cmd isActive s =
        (.success e, if isActive then
          { s with
            activeList := l₁ ++ l₂
            blockingCmdActive := s.blockingCmdActive && !e.cmd.isBlocking
            vdevActiveCmdBitmap := s.vdevActiveCmdBitmap.erase cmd.vdev }
        else { s with pendingList := l₁ ++ l₂ }) := by
  rw [wlanSerRemoveNonScanCmd, vdevList_find]
  cases hfind : (s.list isActive).find? (matchCmd cmd) with
  | none => exact Or.inl ⟨rfl, by simp⟩
  | some e =>
    obtain ⟨l₁, l₂, hl, herase⟩ := eraseP_of_find hfind
    have hsame := (matchCmd_iff cmd e).mp (find?_some hfind)
    simp only
    split
    · exact Or.inl ⟨view_setInUse _ _ _ _, by simp⟩
    · refine Or.inr ⟨e, l₁, l₂, hl, hsame, ?_⟩
      rw [herase]
      cases isActive <;> rfl

/-! ## Admission -/

/-- The commands that `wlan_serialization_is_active_cmd_allowed` lets through. -/
def SerPdev.Allows (s : SerPdev V) (cmd : SerCommand V) : Prop :=
  (if cmd.isBlocking then s.vdevActiveCmdBitmap = ∅
    else s.blockingCmdActive = false ∧ s.blockingCmdWaiting % 2 ^ 8 = 0 ∧
      cmd.vdev ∉ s.vdevActiveCmdBitmap) ∧
  s.vdevList false cmd.vdev = []

/-- The blocking commands that have to wait for the active ones are counted. -/
def SerPdev.counted (s : SerPdev V) (cmd : SerCommand V) : SerPdev V :=
  if cmd.isBlocking ∧ s.vdevActiveCmdBitmap ≠ ∅ then
    { s with blockingCmdWaiting := (s.blockingCmdWaiting + 1) % 2 ^ 16 }
  else s

theorem wlanSerializationIsActiveCmdAllowed_snd (cmd : SerCommand V) (s : SerPdev V) :
    (wlanSerializationIsActiveCmdAllowed cmd s).2 = s.counted cmd := by
  simp only [wlanSerializationIsActiveCmdAllowed, wlanSerializationIsActiveNonScanCmdAllowed,
    wlanSerializationAnyVdevCmdActive, SerPdev.counted]
  cases cmd.isBlocking with
  | true =>
    by_cases h : s.vdevActiveCmdBitmap = ∅ <;> simp [h]
  | false => simp only [Bool.false_eq_true, false_and, if_false]; split <;> rfl

theorem wlanSerializationIsActiveCmdAllowed_fst (cmd : SerCommand V) (s : SerPdev V) :
    (wlanSerializationIsActiveCmdAllowed cmd s).1 = true ↔ s.Allows cmd := by
  simp only [wlanSerializationIsActiveCmdAllowed, wlanSerializationIsActiveNonScanCmdAllowed,
    wlanSerializationAnyVdevCmdActive, wlanSerializationIsNonScanPendingQueueEmpty,
    SerPdev.Allows, Bool.and_eq_true, List.isEmpty_iff]
  cases cmd.isBlocking with
  | true =>
    by_cases h : s.vdevActiveCmdBitmap = ∅ <;> simp [h]
  | false =>
    cases s.blockingCmdActive with
    | true => simp
    | false => by_cases h : s.blockingCmdWaiting % 2 ^ 8 = 0 <;> simp_all

theorem isCmdPresentQueue_iff (s : SerPdev V) (isActive : Bool) (cmd : SerCommand V) :
    wlanSerializationIsCmdPresentQueue cmd isActive s = true ↔
      ∃ e ∈ s.list isActive, sameCmd cmd e.cmd := by
  simp only [wlanSerializationIsCmdPresentQueue, SerPdev.vdevList, any_filter,
    any_eq_true,
    Bool.and_eq_true, decide_eq_true_eq, matchCmd_iff]
  constructor
  · rintro ⟨e, he, -, hsame⟩
    exact ⟨e, he, hsame⟩
  · rintro ⟨e, he, hsame⟩
    exact ⟨e, he, hsame.2.2, hsame⟩

theorem SerPdev.counted_eq (s : SerPdev V) (cmd : SerCommand V) :
    s.counted cmd = { s with blockingCmdWaiting := (s.counted cmd).blockingCmdWaiting } := by
  rw [SerPdev.counted]
  split <;> rfl

theorem SerPdev.Allows.counted {s : SerPdev V} {cmd : SerCommand V} (h : s.Allows cmd) :
    s.counted cmd = s := by
  rw [SerPdev.counted, if_neg]
  rintro ⟨hblocking, hany⟩
  rw [SerPdev.Allows, if_pos hblocking] at h
  exact hany h.1

variable [Fintype V]

def SerPdev.Full (s : SerPdev V) (cfg : SerConfig V) (isActive : Bool) (vdev : V) : Prop :=
  (s.vdevList isActive vdev).length = cfg.vdevMaxCmds isActive vdev ∨
    (s.list isActive).length = cfg.maxCmds isActive

omit [Fintype V] in
theorem disableQueue_eq (s : SerPdev V) (cmd : SerCommand V) :
    (if cmd.queueDisable then { s with queueDisable := insert cmd.vdev s.queueDisable } else s) =
      { s with queueDisable :=
        if cmd.queueDisable then insert cmd.vdev s.queueDisable else s.queueDisable } := by
  cases cmd.queueDisable <;> rfl

theorem wlanSerAddNonScanCmd_full {cfg : SerConfig V} {s : SerPdev V} {e : CommandList V}
    (h : s.Full cfg isActive e.cmd.vdev) :
    ∃ disabled, wlanSerAddNonScanCmd cfg e isActive s =
      (.deniedListFull, { s with queueDisable := disabled }) := by
  refine ⟨if e.cmd.queueDisable then insert e.cmd.vdev s.queueDisable else s.queueDisable, ?_⟩
  rw [wlanSerAddNonScanCmd, disableQueue_eq]
  rcases h with h | h
  · exact if_pos h
  · by_cases hv : (s.vdevList isActive e.cmd.vdev).length = cfg.vdevMaxCmds isActive e.cmd.vdev
    · exact if_pos hv
    · exact (if_neg hv).trans (if_pos h)

theorem wlanSerAddNonScanCmd_room {cfg : SerConfig V} {s : SerPdev V} {e : CommandList V}
    (h : ¬ s.Full cfg isActive e.cmd.vdev) :
    ∃ disabled, wlanSerAddNonScanCmd cfg e isActive s =
      if isActive then
        (.active,
          { s with
            activeList := putEntry e.cmd e s.activeList
            vdevActiveCmdBitmap := insert e.cmd.vdev s.vdevActiveCmdBitmap
            blockingCmdActive := s.blockingCmdActive || e.cmd.isBlocking
            queueDisable := disabled })
      else
        (.pending,
          { s with
            pendingList := putEntry e.cmd e s.pendingList
            queueDisable := disabled }) := by
  refine ⟨if e.cmd.queueDisable then insert e.cmd.vdev s.queueDisable else s.queueDisable, ?_⟩
  obtain ⟨hv, hp⟩ := not_or.mp h
  rw [wlanSerAddNonScanCmd, disableQueue_eq]
  refine (if_neg hv).trans ((if_neg hp).trans ?_)
  cases isActive <;> rfl

/-- What a request needs to be accepted into the pending list. -/
structure SerPdev.HasRoom (s : SerPdev V) (cfg : SerConfig V) (cmd : SerCommand V) : Prop where
  fresh : ∀ e ∈ s.pendingList, ¬ sameCmd cmd e.cmd
  pool : s.cmdPoolList ≠ []
  room : ¬ s.Full cfg false cmd.vdev

/-- What a request can do. -/
inductive EnqueueEffect (cfg : SerConfig V) (s : SerPdev V) (cmd : SerCommand V) :
    SerView V → Option ℕ → Prop where
  | refused (pool : List ℕ) (disabled : Finset V) (hpool : pool.Perm s.cmdPoolList)
      (huncounted : cmd.vdev ∈ s.queueDisable ∨
        ¬ (cmd.isBlocking = true ∧ s.vdevActiveCmdBitmap ≠ ∅)) :
      EnqueueEffect cfg s cmd { s.view with pool := pool, disabled := disabled } none
  | refusedCounted (pool : List ℕ) (disabled : Finset V) (hpool : pool.Perm s.cmdPoolList)
      (henabled : cmd.vdev ∉ s.queueDisable) (hblocking : cmd.isBlocking = true)
      (hany : s.vdevActiveCmdBitmap ≠ ∅) (hroom : ¬ s.HasRoom cfg cmd) :
      EnqueueEffect cfg s cmd
        { s.view with
          pool := pool
          disabled := disabled
          waiting := (s.blockingCmdWaiting + 1) % 2 ^ 16 } none
  | admitted (node : ℕ) (pool : List ℕ) (disabled : Finset V)
      (hpool : s.cmdPoolList = node :: pool) (henabled : cmd.vdev ∉ s.queueDisable)
      (hallows : s.Allows cmd) :
      EnqueueEffect cfg s cmd
        { s.view with
          active := putEntry cmd (node, cmd) s.view.active
          pool := pool
          bitmap := insert cmd.vdev s.vdevActiveCmdBitmap
          blockingActive := s.blockingCmdActive || cmd.isBlocking
          disabled := disabled } (some node)
  | queued (node : ℕ) (pool : List ℕ) (disabled : Finset V)
      (hpool : s.cmdPoolList = node :: pool) (henabled : cmd.vdev ∉ s.queueDisable)
      (hnot : ¬ s.Allows cmd) (hroom : s.HasRoom cfg cmd) :
      EnqueueEffect cfg s cmd
        { s.view with
          pending := putEntry cmd (node, cmd) s.view.pending
          pool := pool
          waiting := (s.counted cmd).blockingCmdWaiting
          disabled := disabled } none

theorem EnqueueEffect.refuse {cfg : SerConfig V} {s : SerPdev V} {cmd : SerCommand V}
    {pool : List ℕ} {disabled : Finset V} (hpool : pool.Perm s.cmdPoolList)
    (henabled : cmd.vdev ∉ s.queueDisable) (hroom : ¬ s.HasRoom cfg cmd) :
    EnqueueEffect cfg s cmd
      { s.view with
        pool := pool
        disabled := disabled
        waiting := (s.counted cmd).blockingCmdWaiting } none := by
  rw [SerPdev.counted]
  by_cases h : cmd.isBlocking = true ∧ s.vdevActiveCmdBitmap ≠ ∅
  · rw [if_pos h]
    exact .refusedCounted pool disabled hpool henabled h.1 h.2 hroom
  · rw [if_neg h]
    exact .refused pool disabled hpool (Or.inr h)

theorem enqueueInto_active (cfg : SerConfig V) {s : SerPdev V} {cmd : SerCommand V}
    (henabled : cmd.vdev ∉ s.queueDisable) (hallows : s.Allows cmd) :
    EnqueueEffect cfg s cmd (enqueueInto cfg cmd true s).2.2.view
      (enqueueInto cfg cmd true s).2.1 := by
  have huncounted : ¬ (cmd.isBlocking = true ∧ s.vdevActiveCmdBitmap ≠ ∅) := by
    rintro ⟨hblocking, hany⟩
    rw [SerPdev.Allows, if_pos hblocking] at hallows
    exact hany hallows.1
  rw [enqueueInto]
  split
  · exact .refused _ _ (Perm.refl _) (Or.inr huncounted)
  split
  · exact .refused _ _ (Perm.refl _) (Or.inr huncounted)
  rename_i node pool hpool
  by_cases hfull : ({ s with cmdPoolList := pool } : SerPdev V).Full cfg true cmd.vdev
  · obtain ⟨disabled, hadd⟩ := wlanSerAddNonScanCmd_full (e := ⟨node, cmd, {}⟩) hfull
    rw [hadd]
    exact .refused (pool ++ [node]) disabled
      (hpool ▸ perm_append_singleton node pool) (Or.inr huncounted)
  · obtain ⟨disabled, hadd⟩ := wlanSerAddNonScanCmd_room (e := ⟨node, cmd, {}⟩) hfull
    have heffect : EnqueueEffect cfg s cmd _ _ :=
      .admitted node pool disabled hpool henabled hallows
    rw [hadd]
    simp only [if_true, view_setInUse]
    simpa [SerPdev.view, map_putEntry, CommandList.entry] using heffect

theorem enqueueInto_pending (cfg : SerConfig V) {s : SerPdev V} {cmd : SerCommand V}
    (henabled : cmd.vdev ∉ s.queueDisable) (hnot : ¬ s.Allows cmd) :
    EnqueueEffect cfg s cmd (enqueueInto cfg cmd false (s.counted cmd)).2.2.view
      (enqueueInto cfg cmd false (s.counted cmd)).2.1 := by
  rw [SerPdev.counted_eq, enqueueInto]
  split
  · rename_i hpresent
    obtain ⟨e, he, hsame⟩ := (isCmdPresentQueue_iff _ _ _).mp hpresent
    exact .refuse (Perm.refl _) henabled fun hroom => hroom.fresh e he hsame
  rename_i hfresh
  split
  · rename_i hpool
    exact .refuse (Perm.refl _) henabled fun hroom => hroom.pool hpool
  rename_i node pool hpool
  by_cases hfull : s.Full cfg false cmd.vdev
  · obtain ⟨disabled, hadd⟩ := wlanSerAddNonScanCmd_full (e := ⟨node, cmd, {}⟩)
      (s := { s with
        cmdPoolList := pool
        blockingCmdWaiting := (s.counted cmd).blockingCmdWaiting }) hfull
    rw [hadd]
    exact .refuse (hpool ▸ perm_append_singleton node pool) henabled
      fun hroom => hroom.room hfull
  · obtain ⟨disabled, hadd⟩ := wlanSerAddNonScanCmd_room (e := ⟨node, cmd, {}⟩)
      (s := { s with
        cmdPoolList := pool
        blockingCmdWaiting := (s.counted cmd).blockingCmdWaiting }) hfull
    have hroom : s.HasRoom cfg cmd :=
      ⟨fun e he hsame => hfresh ((isCmdPresentQueue_iff _ _ _).mpr ⟨e, he, hsame⟩),
        by simp [show s.cmdPoolList = node :: pool from hpool], hfull⟩
    have heffect : EnqueueEffect cfg s cmd _ _ :=
      .queued node pool disabled hpool henabled hnot hroom
    rw [hadd]
    simpa [SerPdev.view, map_putEntry, CommandList.entry] using heffect

theorem enqueue_effect (cfg : SerConfig V) (s : SerPdev V) (cmd : SerCommand V) :
    EnqueueEffect cfg s cmd (wlanSerializationEnqueueCmd cfg cmd s).2.2.view
      (wlanSerializationEnqueueCmd cfg cmd s).2.1 := by
  rw [wlanSerializationEnqueueCmd]
  by_cases hdis : cmd.vdev ∈ s.queueDisable
  · rw [if_pos hdis]
    exact .refused s.cmdPoolList s.queueDisable (Perm.refl _) (Or.inl hdis)
  rw [if_neg hdis]
  simp only [wlanSerializationIsActiveCmdAllowed_snd]
  by_cases hallows : s.Allows cmd
  · rw [(wlanSerializationIsActiveCmdAllowed_fst cmd s).mpr hallows, hallows.counted]
    exact enqueueInto_active cfg hdis hallows
  · rw [Bool.eq_false_iff.mpr fun h =>
      hallows ((wlanSerializationIsActiveCmdAllowed_fst cmd s).mp h)]
    exact enqueueInto_pending cfg hdis hallows

/-! ## Moving -/

section Walk

omit [DecidableEq V] [Fintype V]

@[simp] theorem markForMovement_entry (e : CommandList V) (b : Bool) :
    (e.markForMovement b).entry = e.entry := rfl

@[simp] theorem markForMovement_cmd (e : CommandList V) (b : Bool) :
    (e.markForMovement b).cmd = e.cmd := rfl

@[simp] theorem ite_markForMovement_entry (e : CommandList V) (marked b : Bool) :
    (if marked then e.markForMovement b else e).entry = e.entry := by
  cases marked <;> rfl

@[simp] theorem ite_markForMovement_cmd (e : CommandList V) (marked b : Bool) :
    (if marked then e.markForMovement b else e).cmd = e.cmd := by
  cases marked <;> rfl

theorem map_modifyHead_entry (l : List (CommandList V)) (b : Bool) :
    (l.modifyHead (·.markForMovement b)).map CommandList.entry = l.map CommandList.entry := by
  cases l <;> rfl

variable [DecidableEq V]

theorem walkPending_entries (bitmap : Finset V) (marked : Bool) (l : List (CommandList V)) :
    (walkPending bitmap marked l).1.map CommandList.entry = l.map CommandList.entry := by
  induction l generalizing marked with
  | nil => rfl
  | cons e rest ih =>
    rw [walkPending]
    simp only [ite_markForMovement_cmd]
    split
    · simp
    split
    · simp [ih]
    · simp [map_modifyHead_entry]

theorem walkPending_some {bitmap : Finset V} {marked : Bool} {l : List (CommandList V)}
    {e : CommandList V} (h : (walkPending bitmap marked l).2 = some e) :
    ∃ l₁ l₂, l.map CommandList.entry = l₁ ++ e.entry :: l₂ ∧
      (∀ p ∈ l₁, p.2.vdev ∈ bitmap ∧ p.2.isBlocking = false) ∧
      e.cmd.vdev ∉ bitmap ∧ (e.cmd.isBlocking = true → bitmap = ∅) := by
  induction l generalizing marked with
  | nil => simp [walkPending] at h
  | cons x rest ih =>
    rw [walkPending] at h
    simp only [ite_markForMovement_cmd] at h
    by_cases hstop : (x.cmd.isBlocking && decide (bitmap ≠ ∅)) = true
    · rw [if_pos hstop] at h
      exact absurd h (by simp)
    rw [if_neg hstop] at h
    by_cases hin : x.cmd.vdev ∈ bitmap
    · rw [if_pos hin] at h
      obtain ⟨l₁, l₂, hl, hbefore, hidle⟩ := ih h
      refine ⟨x.entry :: l₁, l₂, by rw [map_cons, hl, cons_append], ?_, hidle⟩
      intro p hp
      rcases mem_cons.mp hp with rfl | hp
      · refine ⟨hin, Bool.eq_false_iff.mpr fun hblocking => hstop ?_⟩
        rw [Bool.and_eq_true, decide_eq_true_eq]
        exact ⟨hblocking, Finset.ne_empty_of_mem hin⟩
      · exact hbefore p hp
    · rw [if_neg hin, Option.some.injEq] at h
      subst h
      refine ⟨[], rest.map CommandList.entry, by simp, by simp, by simpa using hin, ?_⟩
      intro hblocking
      by_contra hne
      simp only [ite_markForMovement_cmd] at hblocking
      exact hstop (by simp [hblocking, hne])

end Walk

/-- The entry that a search picks, given those before it in the pending list. -/
def Picks (lookup : Option V) (bitmap : Finset V) (before : List (ℕ × SerCommand V))
    (cmd : SerCommand V) : Prop :=
  cmd.vdev ∉ bitmap ∧
    match lookup with
    | some vdev => cmd.vdev = vdev ∧ ∀ p ∈ before, p.2.vdev ≠ vdev
    | none => (∀ p ∈ before, p.2.vdev ∈ bitmap ∧ p.2.isBlocking = false) ∧
        (cmd.isBlocking = true → bitmap = ∅)

omit [Fintype V] in
theorem searchPending_view (lookup : Option V) (s : SerPdev V) :
    (searchPending lookup s).1.view = s.view := by
  cases lookup with
  | some vdev => rfl
  | none => simp [searchPending, SerPdev.view, walkPending_entries]

variable {e : CommandList V} {s : SerPdev V} {w : SerView V} {fs : List (SerFrame V)}

omit [Fintype V] in
theorem searchPending_some {lookup : Option V} (h : (searchPending lookup s).2 = some e) :
    ∃ l₁ l₂, s.view.pending = l₁ ++ e.entry :: l₂ ∧
      Picks lookup s.vdevActiveCmdBitmap l₁ e.cmd := by
  cases lookup with
  | some vdev =>
    simp only [searchPending] at h
    split at h
    · simp at h
    · rename_i hidle
      obtain ⟨hhead, -⟩ := Option.filter_eq_some_iff.mp h
      rw [SerPdev.vdevList, head?_filter] at hhead
      obtain ⟨hvdev, l₁, l₂, hl, hbefore⟩ := find?_eq_some_iff_append.mp hhead
      have hvdev' : e.cmd.vdev = vdev := by simpa using hvdev
      refine ⟨l₁.map CommandList.entry, l₂.map CommandList.entry, ?_, ?_, hvdev', ?_⟩
      · change (s.list false).map CommandList.entry = _
        rw [hl, map_append, map_cons]
      · rw [hvdev']
        exact hidle
      · intro p hp
        obtain ⟨x, hx, rfl⟩ := mem_map.mp hp
        simpa [CommandList.entry] using hbefore x hx
  | none =>
    obtain ⟨l₁, l₂, hl, hbefore, hidle, hblocking⟩ := walkPending_some h
    exact ⟨l₁, l₂, hl, hidle, hbefore, hblocking⟩

/-! ## Tracked queues -/

/-- The vdev whose bit a cancellation still has to clear. -/
def SerFrame.clearing : SerFrame V → Option V
  | .cancelResume _ true _ removed => some removed.vdev
  | _ => none

/-- The vdevs whose bits are set: those of active commands, and those of cancelled ones that are
not cleared yet. -/
def SerView.heldVdevs (w : SerView V) (fs : List (SerFrame V)) : List V :=
  w.active.map (·.2.vdev) ++ fs.filterMap SerFrame.clearing

/-- What holds of the queues in every state, whatever the threads do. -/
structure Tracked (w : SerView V) (fs : List (SerFrame V)) : Prop where
  nodes : (w.active.map (·.1) ++ w.pending.map (·.1) ++ w.pool).Nodup
  vdevs : (w.heldVdevs fs).Nodup
  bitmap : w.bitmap = (w.heldVdevs fs).toFinset
  keys : w.pending.Pairwise fun p q => ¬ sameCmd p.2 q.2

omit [Fintype V] in
theorem Tracked.perm {gs : List (SerFrame V)} (h : Tracked w fs) (hperm : fs.Perm gs) :
    Tracked w gs := by
  have hheld : (w.heldVdevs fs).Perm (w.heldVdevs gs) :=
    (hperm.filterMap SerFrame.clearing).append_left _
  refine ⟨h.nodes, hheld.nodup_iff.mp h.vdevs, ?_, h.keys⟩
  rw [h.bitmap]
  exact toFinset_eq_of_perm _ _ hheld

omit [Fintype V] in
theorem Tracked.mem_bitmap (h : Tracked w fs) {p : ℕ × SerCommand V} (hp : p ∈ w.active) :
    p.2.vdev ∈ w.bitmap := by
  rw [h.bitmap, mem_toFinset]
  exact mem_append_left _ (mem_map_of_mem hp)

theorem Tracked.not_full (cfg : SerConfig V) (h : Tracked s.view fs) {vdev : V}
    (hidle : vdev ∉ s.vdevActiveCmdBitmap) : ¬ s.Full cfg true vdev := by
  have hcard := cfg.card_le
  have hnot : ∀ e ∈ s.activeList, e.cmd.vdev ≠ vdev := by
    intro e he heq
    exact hidle (heq ▸ h.mem_bitmap (mem_map_of_mem he))
  have hnodup : (vdev :: s.activeList.map (·.cmd.vdev)).Nodup := by
    refine nodup_cons.mpr ⟨?_, ?_⟩
    · intro hmem
      obtain ⟨e, he, heq⟩ := mem_map.mp hmem
      exact hnot e he heq
    · have := h.vdevs.of_append_left
      rwa [SerPdev.view, map_map] at this
  have hlength := hnodup.length_le_card
  rw [length_cons, length_map] at hlength
  rintro (hfull | hfull)
  · have hnil : s.vdevList true vdev = [] := by
      rw [SerPdev.vdevList, filter_eq_nil_iff]
      exact fun e he => by simpa using hnot e he
    rw [hnil, SerConfig.vdevMaxCmds, if_pos rfl, Nat.div_self (by omega)] at hfull
    exact absurd hfull (by simp)
  · rw [SerConfig.maxCmds, if_pos rfl] at hfull
    change s.activeList.length = cfg.maxVdevs at hfull
    omega

omit [DecidableEq V] [Fintype V] in
theorem split_unique {r : α → α → Prop} (hsymm : ∀ a b, r a b → r b a) {l₁ l₂ m₁ m₂ : List α}
    {x y : α} (hpair : (l₁ ++ x :: l₂).Pairwise fun a b => ¬ r a b)
    (heq : l₁ ++ x :: l₂ = m₁ ++ y :: m₂) (hxy : r x y) : l₁ = m₁ ∧ x = y ∧ l₂ = m₂ := by
  induction l₁ generalizing m₁ with
  | nil =>
    cases m₁ with
    | nil => simpa using heq
    | cons a m₁ =>
      obtain ⟨rfl, rfl⟩ := cons.inj heq
      exact absurd hxy (rel_of_pairwise_cons hpair (by simp))
  | cons a l₁ ih =>
    cases m₁ with
    | nil =>
      obtain ⟨rfl, rfl⟩ := cons.inj heq
      exact absurd (hsymm _ _ hxy) (rel_of_pairwise_cons hpair (by simp))
    | cons b m₁ =>
      obtain ⟨rfl, htail⟩ := cons.inj heq
      obtain ⟨rfl, h⟩ := ih (List.Pairwise.of_cons hpair) htail
      exact ⟨rfl, h⟩

omit [DecidableEq V] [Fintype V] in
theorem sameCmd_symm {c d : SerCommand V} (h : sameCmd c d) : sameCmd d c :=
  ⟨h.1.symm, h.2.1.symm, h.2.2.symm⟩

def SerView.moved (w : SerView V) (x : ℕ × SerCommand V) (rest : List (ℕ × SerCommand V))
    (disabled : Finset V) : SerView V :=
  { w with
    active := putEntry x.2 x w.active
    pending := rest
    bitmap := insert x.2.vdev w.bitmap
    blockingActive := w.blockingActive || x.2.isBlocking
    waiting := if x.2.isBlocking then (w.waiting + (2 ^ 16 - 1)) % 2 ^ 16 else w.waiting
    disabled := disabled }

theorem moveToActive_cases (cfg : SerConfig V) (h : Tracked s.view fs)
    {l₁ l₂ : List (ℕ × SerCommand V)} (hl : s.view.pending = l₁ ++ e.entry :: l₂)
    (hidle : e.cmd.vdev ∉ s.vdevActiveCmdBitmap) :
    ((moveToActive cfg e s).1 = none ∧ (moveToActive cfg e s).2.view = s.view ∧
      ∀ x, (wlanSerRemoveNonScanCmd e.cmd false s).1 ≠ .success x) ∨
    ∃ disabled, (moveToActive cfg e s).1 = some e.node ∧
      (moveToActive cfg e s).2.view = s.view.moved e.entry (l₁ ++ l₂) disabled := by
  rw [moveToActive]
  rcases wlanSerRemoveNonScanCmd_cases e.cmd false s with ⟨hview, hnot⟩ |
    ⟨x, m₁, m₂, hm, hsame, heq⟩
  · cases hremove : wlanSerRemoveNonScanCmd e.cmd false s with
    | mk status t =>
      rw [hremove] at hview hnot
      cases status with
      | success x => exact absurd rfl (hnot x)
      | eFailure => exact Or.inl ⟨rfl, hview, hnot⟩
      | ePending => exact Or.inl ⟨rfl, hview, hnot⟩
  · -- the entry that is removed is the one that was found
    have hsplit : l₁ ++ e.entry :: l₂ =
        m₁.map CommandList.entry ++ x.entry :: m₂.map CommandList.entry := by
      rw [← hl, ← map_cons, ← map_append, ← hm]
      rfl
    obtain ⟨rfl, hx, rfl⟩ := split_unique (fun _ _ => sameCmd_symm) (hl ▸ h.keys) hsplit hsame
    have hcmd : x.cmd = e.cmd := congrArg Prod.snd hx.symm
    have hnode : x.node = e.node := congrArg Prod.fst hx.symm
    have hroom : ¬ ({ s with pendingList := m₁ ++ m₂ } : SerPdev V).Full cfg true x.cmd.vdev :=
      h.not_full cfg (hcmd ▸ hidle)
    obtain ⟨disabled, hadd⟩ := wlanSerAddNonScanCmd_room hroom
    refine Or.inr ⟨disabled, ?_, ?_⟩
    · rw [heq, if_neg Bool.false_ne_true]
      simp only [hadd, if_true]
      rw [hnode]
    · rw [heq, if_neg Bool.false_ne_true]
      simp only [hadd, if_true]
      rw [view_setWaiting, view_setInUse, setInUse_waiting, hx, SerView.moved]
      simp only [SerPdev.view, map_putEntry, CommandList.entry, map_append]
      rfl

theorem moveSection_cases (cfg : SerConfig V) (h : Tracked s.view fs) (lookup : Option V) :
    ((moveSection cfg lookup s).1 = none ∧ (moveSection cfg lookup s).2.view = s.view ∧
      ∀ e ∈ (searchPending lookup s).2, ∀ x,
        (wlanSerRemoveNonScanCmd e.cmd false (searchPending lookup s).1).1 ≠ .success x) ∨
    ∃ e l₁ l₂ disabled, (searchPending lookup s).2 = some e ∧
      s.view.pending = l₁ ++ e.entry :: l₂ ∧ Picks lookup s.vdevActiveCmdBitmap l₁ e.cmd ∧
      (moveSection cfg lookup s).1 = some e.node ∧
      (moveSection cfg lookup s).2.view = s.view.moved e.entry (l₁ ++ l₂) disabled := by
  have hview := searchPending_view lookup s
  rw [moveSection]
  cases hsearch : searchPending lookup s with
  | mk t found =>
    rw [hsearch] at hview
    cases found with
    | none => exact Or.inl ⟨rfl, hview, fun e he => absurd he (Option.not_mem_none e)⟩
    | some e =>
      obtain ⟨l₁, l₂, hl, hpicks⟩ := searchPending_some (by rw [hsearch])
      simp only at hview ⊢
      have hbitmap : t.vdevActiveCmdBitmap = s.vdevActiveCmdBitmap :=
        congrArg SerView.bitmap hview
      rcases moveToActive_cases cfg (hview ▸ h) (hview ▸ hl) (hbitmap ▸ hpicks.1) with
        ⟨hnone, hsame, hnot⟩ | ⟨disabled, hsome, hmoved⟩
      · refine Or.inl ⟨hnone, hsame.trans hview, fun x hx => ?_⟩
        rwa [← Option.some.inj hx]
      · exact Or.inr ⟨e, l₁, l₂, disabled, rfl, hl, hpicks, hsome, hview ▸ hmoved⟩

end QcomModules.Wlan
