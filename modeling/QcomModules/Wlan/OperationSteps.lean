import QcomModules.Wlan.BlockingCounter
import QcomModules.Wlan.MutualExclusion
import QcomModules.Wlan.SerializationMarks

/-! What holds between the sections of operations that are executed one after another, if every
blocking command that waits is counted.

A move then never meets a blocking command, and a blocking command does not wait without an active
one, unless a step to come will move it. -/

namespace QcomModules.Wlan

open List

variable {V : Type} [DecidableEq V]

/-! ## The order of the steps -/

/-- The steps that wait below another one. -/
def SerFrame.waits : SerFrame V → Bool
  | .cancel _ _ => true
  | .moveResume _ => true
  | _ => false

/-- The steps that go on to look for pending commands in the whole pdev. -/
def SerFrame.movesOn : SerFrame V → Bool
  | .move _ _ => true
  | .moveResume vdevQueueLookup => !vdevQueueLookup
  | .cancelResume _ isActive _ _ => isActive
  | _ => false

def SerView.BlockingActive (w : SerView V) : Prop := ∃ x ∈ w.active, x.2.isBlocking = true

structure Orderly (w : SerView V) (fs : List (SerFrame V)) : Prop where
  tail : ∀ f ∈ fs.tail, f.waits = true
  single : ∀ cmd, fs.head? = some (.enqueue cmd) → fs.tail = []
  flag : w.blockingActive = true → w.BlockingActive ∨ ∃ req cursor removed,
    fs.head? = some (.cancelResume req true cursor removed) ∧ removed.isBlocking = true
  move : ∀ v b, fs.head? = some (.move v b) → ¬ w.BlockingActive
  mover : (∃ x ∈ w.pending, x.2.isBlocking = true) →
    w.active ≠ [] ∨ ∃ f ∈ fs, f.movesOn = true

omit [DecidableEq V] in
theorem waits_clearing {fs : List (SerFrame V)} (h : ∀ f ∈ fs, f.waits = true) :
    fs.filterMap SerFrame.clearing = [] := by
  rw [filterMap_eq_nil_iff]
  intro f hf
  have hwaits := h f hf
  cases f with
  | cancel | moveResume => rfl
  | enqueue | dequeue | cancelResume | activate | move => exact absurd hwaits Bool.false_ne_true

omit [DecidableEq V] in
theorem Orderly.of_step {w : SerView V} {fs : List (SerFrame V)} (gs : List (SerFrame V))
    (hfs : ∀ f ∈ fs, f.waits = true) (hgs : ∀ f ∈ gs.tail, f.waits = true)
    (hhead : ∀ cmd, gs.head? ≠ some (.enqueue cmd))
    (hflag : w.blockingActive = true → w.BlockingActive ∨ ∃ req cursor removed,
      gs.head? = some (.cancelResume req true cursor removed) ∧ removed.isBlocking = true)
    (hmove : ∀ v b, gs.head? = some (.move v b) → ¬ w.BlockingActive)
    (hmover : (∃ x ∈ w.pending, x.2.isBlocking = true) →
      w.active ≠ [] ∨ ∃ f ∈ gs ++ fs, f.movesOn = true) : Orderly w (gs ++ fs) := by
  cases gs with
  | nil =>
    have hwaits : ∀ f, fs.head? = some f → f.waits = true :=
      fun f hf => hfs f (mem_of_mem_head? hf)
    refine ⟨fun f hf => hfs f (mem_of_mem_tail hf), fun cmd hcmd => ?_, fun hactive => ?_,
      fun v b hv => ?_, hmover⟩
    · exact absurd (hwaits _ hcmd) Bool.false_ne_true
    · exact Or.inl ((hflag hactive).resolve_right fun ⟨_, _, _, hnone, _⟩ =>
        Option.some_ne_none _ hnone.symm)
    · exact absurd (hwaits _ hv) Bool.false_ne_true
  | cons g gs =>
    refine ⟨fun f hf => ?_, fun cmd hcmd => absurd hcmd (hhead cmd), hflag, hmove, hmover⟩
    rcases mem_append.mp hf with hf | hf
    · exact hgs f hf
    · exact hfs f hf

/-! ## The counter -/

/-- The counter is not lower than the number of blocking commands that wait. -/
structure Covered (w : SerView V) (fs : List (SerFrame V)) : Prop where
  count : w.blockingCount fs ≤ w.waiting
  bound : w.waiting < 2 ^ 16

/-- A blocking command does not become pending uncounted, and the counter does not wrap. -/
def SerFrame.AdmitOk [Fintype V] (cfg : SerConfig V) (s : SerPdev V) : SerFrame V → Prop
  | .enqueue cmd => cmd.isBlocking = true → cmd.vdev ∉ s.queueDisable →
      if s.vdevActiveCmdBitmap = ∅ then s.vdevList false cmd.vdev = [] ∨ ¬ s.HasRoom cfg cmd
      else s.blockingCmdWaiting + 1 < 2 ^ 16
  | _ => True

theorem SerEffect.covered [Fintype V] {cfg : SerConfig V} {s : SerPdev V} {f : SerFrame V}
    {fs gs : List (SerFrame V)} {w : SerView V} (heffect : SerEffect cfg s f w gs)
    (h : Covered s.view (f :: fs)) (hok : f.AdmitOk cfg s) : Covered w (gs ++ fs) := by
  have hcounts := heffect.counts fs
  have hcount : s.view.blockingCount (f :: fs) ≤ s.blockingCmdWaiting := h.count
  have hbound : s.blockingCmdWaiting < 2 ^ 16 := h.bound
  suffices hsuff : ∀ {count count' waiting : ℕ}, CountEffect cfg s f count count' waiting →
      count ≤ s.blockingCmdWaiting → count' ≤ waiting ∧ waiting < 2 ^ 16 from
    ⟨(hsuff hcounts hcount).1, (hsuff hcounts hcount).2⟩
  intro count count' waiting heffect hle
  cases heffect with
  | same => exact ⟨hle, hbound⟩
  | raised hf hblocking henabled hany =>
    subst hf
    have hneeds := hok hblocking henabled
    rw [if_neg hany] at hneeds
    omega
  | refused hf hblocking henabled hany hroom =>
    subst hf
    have hneeds := hok hblocking henabled
    rw [if_neg hany] at hneeds
    omega
  | missed hf hblocking henabled hidle hpending hroom =>
    subst hf
    have hneeds := hok hblocking henabled
    rw [if_pos hidle] at hneeds
    exact absurd hneeds (not_or.mpr ⟨hpending, not_not_intro hroom⟩)
  | lowered hlowered => omega

omit [DecidableEq V] in
theorem Covered.none_waiting {w : SerView V} {fs : List (SerFrame V)} (h : Covered w fs)
    (hwaiting : w.waiting = 0) : ∀ x ∈ w.pending, x.2.isBlocking = false := by
  have hcount := h.count
  rw [hwaiting, SerView.blockingCount] at hcount
  have hzero := countP_eq_zero.mp
    (show w.pending.countP (fun x => x.2.isBlocking) = 0 by omega)
  simpa only [Bool.not_eq_true] using hzero

/-! ## Searches that find nothing -/

theorem walkPending_none {bitmap : Finset V} {marked : Bool} {l : List (CommandList V)}
    (h : (walkPending bitmap marked l).2 = none) :
    (∀ e ∈ l, e.cmd.vdev ∈ bitmap) ∨ bitmap ≠ ∅ ∧ ∃ e ∈ l, e.cmd.isBlocking = true := by
  induction l generalizing marked with
  | nil => exact Or.inl fun e he => absurd he not_mem_nil
  | cons x rest ih =>
    rw [walkPending] at h
    simp only [ite_markForMovement_cmd] at h
    by_cases hstop : (x.cmd.isBlocking && decide (bitmap ≠ ∅)) = true
    · rw [Bool.and_eq_true, decide_eq_true_eq] at hstop
      exact Or.inr ⟨hstop.2, x, mem_cons_self, hstop.1⟩
    rw [if_neg hstop] at h
    by_cases hin : x.cmd.vdev ∈ bitmap
    · rw [if_pos hin] at h
      rcases ih h with hall | ⟨hne, e, he, hblocking⟩
      · exact Or.inl (forall_mem_cons.mpr ⟨hin, hall⟩)
      · exact Or.inr ⟨hne, e, mem_cons_of_mem x he, hblocking⟩
    · rw [if_neg hin] at h
      exact absurd h (Option.some_ne_none _)

variable [Fintype V]

/-- What holds of the queues and of the steps to come. -/
structure Sequential (cfg : SerConfig V) (s : SerPdev V) (fs : List (SerFrame V)) : Prop where
  exclusion : Exclusion s.view fs
  covered : Covered s.view fs
  marks : Marks s (fs.head?.bind SerFrame.activates)
  orderly : Orderly s.view fs

variable {fs : List (SerFrame V)} {cfg : SerConfig V} {s : SerPdev V} {f : SerFrame V}
  {w : SerView V} {cmd : SerCommand V} {x : ℕ × SerCommand V} {l₁ l₂ : List (ℕ × SerCommand V)}
  {req : CancelReq V} {isActive : Bool}

theorem Sequential.tracked (h : Sequential cfg s fs) : Tracked s.view fs := h.exclusion.toTracked

theorem Sequential.waits (h : Sequential cfg s (f :: fs)) : ∀ g ∈ fs, g.waits = true :=
  h.orderly.tail

theorem Sequential.blockingActive (h : Sequential cfg s fs) (hactive : s.view.BlockingActive) :
    s.blockingCmdActive = true := by
  obtain ⟨x, hx, hblocking⟩ := hactive
  exact (h.exclusion.alone x hx hblocking).2.2

omit [DecidableEq V] [Fintype V] in
theorem not_blockingActive (h : ¬ w.BlockingActive) : ∀ x ∈ w.active, x.2.isBlocking = false :=
  fun x hx => Bool.eq_false_iff.mpr fun hblocking => h ⟨x, hx, hblocking⟩

theorem Sequential.mem_bitmap_iff (h : Sequential cfg s (f :: fs)) (hf : f.clearing = none)
    {v : V} : v ∈ s.vdevActiveCmdBitmap ↔ ∃ x ∈ s.view.active, x.2.vdev = v := by
  have hbitmap : s.vdevActiveCmdBitmap = _ := h.tracked.bitmap
  rw [hbitmap, SerView.heldVdevs, filterMap_cons_none hf, waits_clearing h.waits,
    append_nil, mem_toFinset, mem_map]

theorem Sequential.bitmap_empty_iff (h : Sequential cfg s (f :: fs)) (hf : f.clearing = none) :
    s.vdevActiveCmdBitmap = ∅ ↔ s.view.active = [] := by
  have hbitmap : s.vdevActiveCmdBitmap = _ := h.tracked.bitmap
  rw [hbitmap, SerView.heldVdevs, filterMap_cons_none hf, waits_clearing h.waits,
    append_nil, toFinset_eq_empty_iff, map_eq_nil_iff]

omit [DecidableEq V] [Fintype V] in
theorem lookup_some_waiting {vdev : V} (hlookup : f.lookup s = some (some vdev)) :
    s.blockingCmdWaiting = 0 := by
  cases f with
  | move v b =>
    simp only [SerFrame.lookup, Option.some.injEq] at hlookup
    split at hlookup
    · rename_i hboth
      simp only [Bool.and_eq_true, decide_eq_true_eq] at hboth
      exact hboth.2
    · exact absurd hlookup.symm (Option.some_ne_none _)
  | moveResume q =>
    simp only [SerFrame.lookup] at hlookup
    split at hlookup <;> simp at hlookup
  | enqueue | dequeue | cancel | cancelResume | activate => simp [SerFrame.lookup] at hlookup

theorem Sequential.movesSafely (h : Sequential cfg s (f :: fs)) : f.MovesSafely s := by
  intro lookup e l₁ l₂ hlookup hsearch hpending hpicks
  have hmem : e.entry ∈ s.view.pending :=
    hpending ▸ mem_append_right l₁ mem_cons_self
  cases f with
  | move v b =>
    have hnone := not_blockingActive (h.orderly.move v b rfl)
    cases lookup with
    | some vdev =>
      -- a search for one vdev is made only if no blocking command waits
      have hwaiting := lookup_some_waiting hlookup
      have he := h.covered.none_waiting hwaiting e.entry hmem
      rw [if_neg (by simpa [CommandList.entry] using he)]
      exact hnone
    | none =>
      split
      · rename_i hblocking
        exact hpicks.2.2 hblocking
      · exact hnone
  | moveResume q =>
    simp only [SerFrame.lookup] at hlookup
    split at hlookup
    · exact absurd hlookup.symm (Option.some_ne_none _)
    rename_i hstop
    cases hlookup
    split
    · rename_i hblocking
      exact hpicks.2.2 hblocking
    · refine not_blockingActive fun hactive => hstop ?_
      rw [h.blockingActive hactive, Bool.or_true]
  | enqueue | dequeue | cancel | cancelResume | activate => simp [SerFrame.lookup] at hlookup

/-! ## The order is kept -/

omit [DecidableEq V] [Fintype V] in
theorem Orderly.flagged (h : Orderly w (f :: fs)) (hf : f.clearing = none)
    (hblocking : w.blockingActive = true) : w.BlockingActive := by
  refine (h.flag hblocking).resolve_right ?_
  rintro ⟨req, cursor, removed, hhead, -⟩
  cases hhead
  exact Option.some_ne_none _ hf

omit [DecidableEq V] [Fintype V] in
theorem Orderly.moved_by (h : Orderly w (f :: fs)) (hf : f.movesOn = false)
    (hblocking : ∃ x ∈ w.pending, x.2.isBlocking = true) :
    w.active ≠ [] ∨ ∃ g ∈ fs, g.movesOn = true := by
  refine (h.mover hblocking).imp_right ?_
  rintro ⟨g, hg, hmoves⟩
  rcases mem_cons.mp hg with rfl | hg
  · rw [hf] at hmoves
    exact absurd hmoves Bool.false_ne_true
  · exact ⟨g, hg, hmoves⟩

theorem Sequential.orderly_same (gs : List (SerFrame V)) (h : Sequential cfg s (f :: fs))
    (hf : f.clearing = none)
    (hmoves : f.movesOn = true → (∃ x ∈ s.view.pending, x.2.isBlocking = true) →
      s.view.active ≠ [] ∨ ∃ g ∈ fs, g.movesOn = true)
    (hgs : gs = [] ∨ ∃ g, gs = [g] ∧ (∀ cmd, g ≠ .enqueue cmd) ∧ ∀ v b, g ≠ .move v b) :
    Orderly s.view (gs ++ fs) := by
  refine Orderly.of_step _ h.waits ?_ ?_ (fun hflag => Or.inl (h.orderly.flagged hf hflag)) ?_
    fun hblocking => ?_
  · rcases hgs with rfl | ⟨g, rfl, -⟩
    · exact fun g hg => absurd hg not_mem_nil
    · exact fun g hg => absurd hg not_mem_nil
  · rcases hgs with rfl | ⟨g, rfl, hne, -⟩
    · exact fun cmd hcmd => Option.some_ne_none _ hcmd.symm
    · exact fun cmd hcmd => hne cmd (Option.some.inj hcmd)
  · rcases hgs with rfl | ⟨g, rfl, -, hne⟩
    · exact fun v b hv => absurd hv.symm (Option.some_ne_none _)
    · exact fun v b hv => absurd (Option.some.inj hv) (hne v b)
  · have hmover : s.view.active ≠ [] ∨ ∃ g ∈ fs, g.movesOn = true := by
      cases hmovesOn : f.movesOn with
      | true => exact hmoves hmovesOn hblocking
      | false => exact h.orderly.moved_by hmovesOn hblocking
    exact hmover.imp_right fun ⟨g, hg, hg'⟩ => ⟨g, mem_append_right gs hg, hg'⟩

theorem Sequential.orderly_enqueued {node : Option ℕ} (h : Sequential cfg s (.enqueue cmd :: fs))
    (hok : (SerFrame.enqueue cmd).AdmitOk cfg s) (heffect : EnqueueEffect cfg s cmd w node) :
    Orderly w ((node.map SerFrame.activate).toList ++ fs) := by
  obtain rfl : fs = [] := h.orderly.single cmd rfl
  have hactive : (∃ x ∈ s.view.pending, x.2.isBlocking = true) → s.view.active ≠ [] :=
    fun hblocking => (h.orderly.moved_by rfl hblocking).resolve_right
      fun ⟨g, hg, _⟩ => not_mem_nil hg
  have hsame := h.orderly_same [] rfl (fun hmoves => absurd hmoves Bool.false_ne_true)
    (Or.inl rfl)
  cases heffect with
  | refused | refusedCounted =>
    exact ⟨hsame.tail, hsame.single, hsame.flag, hsame.move, hsame.mover⟩
  | admitted node pool disabled hpool henabled hallows =>
    have hmem : ∀ x ∈ s.view.active, x ∈ putEntry cmd (node, cmd) s.view.active :=
      fun x hx => (putEntry_perm _ _ _).mem_iff.mpr (mem_cons_of_mem _ hx)
    have hnew : (node, cmd) ∈ putEntry cmd (node, cmd) s.view.active :=
      (putEntry_perm _ _ _).mem_iff.mpr mem_cons_self
    refine Orderly.of_step _ h.waits (fun g hg => absurd hg not_mem_nil)
      (fun c hc => by simp at hc) (fun hflag => ?_) (fun v b hv => by simp at hv)
      fun _ => Or.inl (ne_nil_of_mem hnew)
    rcases Bool.or_eq_true_iff.mp hflag with hold | hcmd
    · obtain ⟨x, hx, hblocking⟩ := h.orderly.flagged rfl hold
      exact Or.inl ⟨x, hmem x hx, hblocking⟩
    · exact Or.inl ⟨(node, cmd), hnew, hcmd⟩
  | queued node pool disabled hpool henabled hnot hroom =>
    refine ⟨hsame.tail, hsame.single, hsame.flag, hsame.move, ?_⟩
    rintro ⟨x, hx, hblocking⟩
    rcases mem_cons.mp ((putEntry_perm _ _ _).mem_iff.mp hx) with rfl | hx
    · -- it would have become active on an idle pdev
      refine Or.inl fun hnil => hnot ?_
      have hidle := (h.bitmap_empty_iff rfl).mpr hnil
      have hneeds := hok hblocking henabled
      rw [if_pos hidle] at hneeds
      exact ⟨by rwa [if_pos hblocking], hneeds.resolve_right fun hno => hno hroom⟩
    · exact Or.inl (hactive ⟨x, hx, hblocking⟩)

theorem Sequential.orderly_dequeued (h : Sequential cfg s (.dequeue cmd :: fs))
    (hactive : s.view.active = l₁ ++ x :: l₂) :
    Orderly (s.view.dropActive x (l₁ ++ l₂)) (.move (some x.2.vdev) x.2.isBlocking :: fs) := by
  have hnone : ¬ (s.view.dropActive x (l₁ ++ l₂)).BlockingActive := by
    rintro ⟨y, hy, hblocking⟩
    rw [h.exclusion.not_beside hactive hy] at hblocking
    exact absurd hblocking Bool.false_ne_true
  refine Orderly.of_step [.move (some x.2.vdev) x.2.isBlocking] h.waits
    (fun g hg => absurd hg not_mem_nil) (fun c hc => by simp at hc) (fun hflag => ?_)
    (fun _ _ _ => hnone) fun _ => Or.inr ⟨_, mem_cons_self, rfl⟩
  rw [SerView.dropActive, Bool.and_eq_true] at hflag
  obtain ⟨y, hy, hblocking⟩ := h.orderly.flagged rfl hflag.1
  refine Or.inl ⟨y, ?_, hblocking⟩
  rw [hactive, perm_middle.mem_iff] at hy
  rcases mem_cons.mp hy with rfl | hy
  · rw [hblocking] at hflag
    exact absurd hflag.2 Bool.false_ne_true
  · exact hy

theorem Sequential.cleared (h : Sequential cfg s (f :: fs))
    (hcancel : f.cancelling s = some (req, isActive, w)) :
    w.active = s.view.active ∧ w.pending = s.view.pending ∧
      (w.blockingActive = true → w.BlockingActive) ∧
      ((∃ x ∈ w.pending, x.2.isBlocking = true) → isActive = false →
        w.active ≠ [] ∨ ∃ g ∈ fs, g.movesOn = true) := by
  cases f with
  | cancel req' isActive' =>
    obtain ⟨-, -, rfl⟩ : req' = req ∧ isActive' = isActive ∧ s.view = w := by
      simpa [SerFrame.cancelling] using hcancel
    exact ⟨rfl, rfl, h.orderly.flagged rfl, fun hblocking _ => h.orderly.moved_by rfl hblocking⟩
  | cancelResume req' isActive' cursor removed =>
    obtain ⟨-, rfl, rfl⟩ : req' = req ∧ isActive' = isActive ∧
        s.view.clear isActive' removed = w := by
      simpa [SerFrame.cancelling] using hcancel
    have hactive : (s.view.clear isActive' removed).active = s.view.active :=
      s.view.clear_list isActive' true removed
    have hpending : (s.view.clear isActive' removed).pending = s.view.pending :=
      s.view.clear_list isActive' false removed
    refine ⟨hactive, hpending, fun hflag => ?_, fun hblocking hpend => ?_⟩
    · rw [SerView.BlockingActive, hactive]
      cases isActive' with
      | true =>
        rw [SerView.clear, if_pos rfl, Bool.and_eq_true] at hflag
        refine (h.orderly.flag hflag.1).resolve_right ?_
        rintro ⟨req, cursor', removed', hhead, hblocking⟩
        cases hhead
        rw [hblocking] at hflag
        exact absurd hflag.2 Bool.false_ne_true
      | false =>
        refine h.orderly.flagged rfl ?_
        rw [SerView.clear, if_neg Bool.false_ne_true] at hflag
        split at hflag <;> exact hflag
    · rw [hpending] at hblocking
      rw [hactive]
      exact h.orderly.moved_by hpend hblocking
  | enqueue | dequeue | activate | move | moveResume => simp [SerFrame.cancelling] at hcancel

theorem Sequential.orderly_cancelEnd (h : Sequential cfg s (f :: fs))
    (hcancel : f.cancelling s = some (req, isActive, w)) :
    Orderly w
      ((if isActive = true ∧ w.active = [] ∧ w.bitmap = ∅ then [.move none false] else []) ++
      fs) := by
  obtain ⟨-, -, hflag, hmover⟩ := h.cleared hcancel
  have htracked := h.tracked.cleared hcancel
  split
  · rename_i hidle
    refine Orderly.of_step [.move none false] h.waits
      (fun g hg => absurd hg not_mem_nil) (fun c hc => by simp at hc)
      (fun hset => Or.inl (hflag hset)) (fun _ _ _ => ?_)
      fun _ => Or.inr ⟨_, mem_cons_self, rfl⟩
    rintro ⟨x, hx, -⟩
    rw [hidle.2.1] at hx
    exact not_mem_nil hx
  · rename_i hbusy
    refine Orderly.of_step [] h.waits (fun g hg => absurd hg not_mem_nil)
      (fun c hc => by simp at hc) (fun hset => Or.inl (hflag hset)) (fun v b hv => by simp at hv)
      fun hblocking => ?_
    cases isActive with
    | false => exact hmover hblocking rfl
    | true =>
      refine Or.inl fun hnil => hbusy ⟨rfl, hnil, ?_⟩
      rw [htracked.bitmap, SerView.heldVdevs, hnil, waits_clearing h.waits]
      rfl

theorem Sequential.orderly_cancelled (h : Sequential cfg s (f :: fs))
    (hcancel : f.cancelling s = some (req, isActive, w)) (hlist : w.list isActive = l₁ ++ x :: l₂)
    (cursor : CancelCursor) :
    Orderly ((w.setList isActive (l₁ ++ l₂)).release x.1)
      (.cancelResume req isActive cursor x.2 :: fs) := by
  obtain ⟨-, -, hflag, hmover⟩ := h.cleared hcancel
  refine Orderly.of_step [.cancelResume req isActive cursor x.2] h.waits
    (fun g hg => absurd hg not_mem_nil) (fun c hc => by simp at hc) ?_
    (fun v b hv => by simp at hv) ?_
  · cases isActive with
    | false => exact fun hset => Or.inl (hflag hset)
    | true =>
      have hactive : w.active = l₁ ++ x :: l₂ := hlist
      intro hset
      obtain ⟨y, hy, hblocking⟩ := hflag hset
      rw [hactive, perm_middle.mem_iff] at hy
      rcases mem_cons.mp hy with rfl | hy
      · exact Or.inr ⟨req, cursor, _, rfl, hblocking⟩
      · exact Or.inl ⟨y, hy, hblocking⟩
  · cases isActive with
    | true => exact fun _ => Or.inr ⟨_, mem_cons_self, rfl⟩
    | false =>
      have hpending : w.pending = l₁ ++ x :: l₂ := hlist
      rintro ⟨y, hy, hblocking⟩
      have hmem : y ∈ w.pending := by
        rw [hpending, perm_middle.mem_iff]
        exact mem_cons_of_mem x hy
      exact (hmover ⟨y, hmem, hblocking⟩ rfl).imp_right
        fun ⟨g, hg, hmoves⟩ => ⟨g, mem_cons_of_mem _ hg, hmoves⟩

theorem Sequential.orderly_moveNone (h : Sequential cfg s (f :: fs)) {lookup : Option V}
    (hlookup : f.lookup s = some lookup) (hnone : (moveSection cfg lookup s).1 = none) :
    Orderly s.view fs := by
  have hclearing := lookup_clearing hlookup
  refine h.orderly_same [] hclearing (fun _ hblocking => Or.inl fun hnil => ?_) (Or.inl rfl)
  have hidle := (h.bitmap_empty_iff hclearing).mpr hnil
  have hmarks : Marks s none := by
    have := h.marks
    cases f with
    | move | moveResume => exact this
    | enqueue | dequeue | cancel | cancelResume | activate => simp [SerFrame.lookup] at hlookup
  have hsearch := moveSection_found cfg h.tracked hmarks hnone
  obtain rfl : lookup = none := by
    cases f with
    | move v b =>
      simp only [SerFrame.lookup, Option.some.injEq] at hlookup
      rw [← hlookup, if_neg]
      intro hboth
      simp only [Bool.and_eq_true, decide_eq_true_eq] at hboth
      obtain ⟨x, hx, hxblocking⟩ := hblocking
      rw [h.covered.none_waiting hboth.2 x hx] at hxblocking
      exact Bool.false_ne_true hxblocking
    | moveResume q =>
      simp only [SerFrame.lookup] at hlookup
      split at hlookup
      · exact absurd hlookup.symm (Option.some_ne_none _)
      · exact (Option.some.inj hlookup).symm
    | enqueue | dequeue | cancel | cancelResume | activate => simp [SerFrame.lookup] at hlookup
  obtain ⟨x, hx, -⟩ := hblocking
  obtain ⟨e, he, rfl⟩ := mem_map.mp hx
  rcases walkPending_none hsearch with hall | ⟨hbusy, -⟩
  · exact Finset.notMem_empty _ (hidle ▸ hall e he)
  · exact hbusy hidle

theorem Sequential.orderly_moved (h : Sequential cfg s (f :: fs)) (hf : f.clearing = none)
    {rest : List (ℕ × SerCommand V)} (disabled : Finset V) (vdevQueueLookup : Bool) :
    Orderly (s.view.moved x rest disabled)
      (.activate x.1 :: .moveResume vdevQueueLookup :: fs) := by
  have hnew : x ∈ putEntry x.2 x s.view.active :=
    (putEntry_perm _ _ _).mem_iff.mpr mem_cons_self
  refine Orderly.of_step [.activate x.1, .moveResume vdevQueueLookup] h.waits
    (fun g hg => ?_) (fun c hc => by simp at hc) (fun hflag => ?_) (fun v b hv => by simp at hv)
    fun _ => Or.inl (ne_nil_of_mem hnew)
  · rw [mem_singleton.mp hg]
    rfl
  · rw [SerView.moved, Bool.or_eq_true] at hflag
    rcases hflag with hold | hblocking
    · obtain ⟨y, hy, hblocking⟩ := h.orderly.flagged hf hold
      exact Or.inl ⟨y, (putEntry_perm _ _ _).mem_iff.mpr (mem_cons_of_mem _ hy), hblocking⟩
    · exact Or.inl ⟨x, hnew, hblocking⟩

theorem SerEffect.orderly {gs : List (SerFrame V)} (heffect : SerEffect cfg s f w gs)
    (h : Sequential cfg s (f :: fs)) (hok : f.AdmitOk cfg s) : Orderly w (gs ++ fs) := by
  cases heffect with
  | enqueue heffect => exact h.orderly_enqueued hok heffect
  | dequeueNone =>
    exact h.orderly_same _ rfl (fun hmoves => absurd hmoves Bool.false_ne_true) (Or.inl rfl)
  | dequeue hactive hsame => exact h.orderly_dequeued hactive
  | cancelEnd hcancel => exact h.orderly_cancelEnd hcancel
  | cancel cursor hcancel hlist hselects => exact h.orderly_cancelled hcancel hlist cursor
  | activate =>
    exact h.orderly_same _ rfl (fun hmoves => absurd hmoves Bool.false_ne_true) (Or.inl rfl)
  | activateDequeue | activateCancel =>
    exact h.orderly_same _ rfl (fun hmoves => absurd hmoves Bool.false_ne_true)
      (Or.inr ⟨_, rfl, fun _ hc => by simp at hc, fun _ _ hv => by simp at hv⟩)
  | moveNone hlookup hnone => exact h.orderly_moveNone hlookup hnone
  | moveEnd q hend =>
    refine h.orderly_same [] rfl (fun hmoves _ => Or.inl ?_) (Or.inl rfl)
    -- the move has stopped at a blocking command
    rw [Bool.or_eq_true] at hend
    rcases hend with rfl | hflag
    · exact absurd hmoves Bool.false_ne_true
    · obtain ⟨x, hx, -⟩ := h.orderly.flagged rfl hflag
      exact ne_nil_of_mem hx
  | moved disabled hlookup hsearch hpending hpicks =>
    exact h.orderly_moved (lookup_clearing hlookup) disabled _

theorem Sequential.step (h : Sequential cfg s (f :: fs)) (activated : Bool)
    (hok : f.AdmitOk cfg s) :
    Sequential cfg (runFrame cfg activated s f).1 ((runFrame cfg activated s f).2 ++ fs) := by
  have heffect := runFrame_effect cfg activated h.tracked
  exact ⟨heffect.exclusion h.exclusion h.movesSafely, heffect.covered h.covered hok,
    marks_runFrame cfg activated h.marks fs, heffect.orderly h hok⟩

theorem Sequential.create (cfg : SerConfig V) : Sequential cfg (SerPdev.create cfg) [] := by
  refine ⟨Exclusion.create cfg, ⟨Nat.le_refl 0, Nat.two_pow_pos 16⟩, Marks.create cfg, ?_⟩
  refine ⟨fun g hg => absurd hg not_mem_nil, fun c hc => by simp at hc, fun hflag => ?_,
    fun v b hv => by simp at hv, ?_⟩
  · exact absurd hflag Bool.false_ne_true
  · rintro ⟨x, hx, -⟩
    exact absurd hx not_mem_nil

theorem Sequential.started (h : Sequential cfg s []) (op : SerOp V) :
    Sequential cfg s op.frames := by
  have hexclusion := h.exclusion.started op
  rw [append_nil] at hexclusion
  refine ⟨hexclusion, ⟨?_, h.covered.bound⟩, h.marks.started op, ?_⟩
  · have hcount := h.covered.count
    rw [SerView.blockingCount] at hcount ⊢
    rwa [op.frames_lowers]
  have hmover : (∃ x ∈ s.view.pending, x.2.isBlocking = true) → s.view.active ≠ [] :=
    fun hblocking => (h.orderly.mover hblocking).resolve_right
      (by rintro ⟨g, hg, -⟩; exact not_mem_nil hg)
  have hflag : s.view.blockingActive = true → s.view.BlockingActive :=
    fun hset => (h.orderly.flag hset).resolve_right
      (by rintro ⟨_, _, _, hnone, -⟩; exact Option.some_ne_none _ hnone.symm)
  refine ⟨?_, ?_, fun hset => Or.inl (hflag hset), ?_, fun hblocking => Or.inl (hmover hblocking)⟩
  · cases op with
    | request | remove => exact fun g hg => absurd hg not_mem_nil
    | cancel reqType cmd activeQueue pendingQueue =>
      cases activeQueue <;> cases pendingQueue <;> simp [SerOp.frames, SerFrame.waits]
  · cases op with
    | request | remove => exact fun _ _ => rfl
    | cancel reqType cmd activeQueue pendingQueue =>
      cases activeQueue <;> cases pendingQueue <;> simp [SerOp.frames]
  · cases op with
    | request | remove => exact fun v b hv => by simp [SerOp.frames] at hv
    | cancel reqType cmd activeQueue pendingQueue =>
      cases activeQueue <;> cases pendingQueue <;> simp [SerOp.frames]

end QcomModules.Wlan
