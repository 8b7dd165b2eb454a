import QcomModules.Wlan.VdevQueues

/-! The sections of requests, moves and cancellations on the queues of the pdev and the vdevs: each
does to the pdev what the section on the pdev alone does, and keeps the lists of the vdevs in
agreement. -/

namespace QcomModules.Wlan

open List

variable {V : Type} [DecidableEq V]

section Sections

variable {s : SerQueues V} {fs : List (SerFrame V)}

/-- The pdev of the queues is tracked, and the vdevs agree with it. -/
structure SerQueues.Sound (s : SerQueues V) (fs : List (SerFrame V)) : Prop where
  coherent : s.Coherent
  tracked : Tracked s.pdev.view fs

theorem SerQueues.Sound.distinct (h : s.Sound fs) : s.pdev.view.Distinct := h.tracked.distinct

theorem SerQueues.Coherent.withPdev (h : s.Coherent) (pdev : SerPdev V)
    (hview : ∀ isActive, pdev.view.list isActive = s.pdev.view.list isActive) :
    ({ s with pdev := pdev } : SerQueues V).Coherent := by
  intro isActive vdev
  exact (h isActive vdev).trans (congrArg (nodesOf vdev) (hview isActive).symm)

/-! ## Requests -/

theorem SerQueues.Sound.isCmdPresent (h : s.Sound fs) (isActive : Bool) (cmd : SerCommand V) :
    (s.findVdevCmd none isActive cmd).isSome =
      wlanSerializationIsCmdPresentQueue cmd isActive s.pdev := by
  rw [h.coherent.findVdevCmd h.distinct, ← vdevList_find, Bool.eq_iff_iff,
    find?_isSome, wlanSerializationIsCmdPresentQueue, any_eq_true]

variable [Fintype V] {cfg : SerConfig V}

theorem SerQueues.Sound.addTaken (h : s.Sound fs) {cmd : SerCommand V} {activeQueue : Bool}
    {node : ℕ} {pool : List ℕ} (hpool : s.pdev.cmdPoolList = node :: pool)
    (hpresent : ¬wlanSerializationIsCmdPresentQueue cmd activeQueue s.pdev = true) :
    (SerQueues.addNonScanCmd cfg { s with pdev := { s.pdev with cmdPoolList := pool } }
        ⟨node, cmd, {}⟩ activeQueue).1 =
      (wlanSerAddNonScanCmd cfg ⟨node, cmd, {}⟩ activeQueue
        { s.pdev with cmdPoolList := pool }).1 ∧
    (SerQueues.addNonScanCmd cfg { s with pdev := { s.pdev with cmdPoolList := pool } }
        ⟨node, cmd, {}⟩ activeQueue).2.Follows
      (wlanSerAddNonScanCmd cfg ⟨node, cmd, {}⟩ activeQueue
        { s.pdev with cmdPoolList := pool }).2 := by
  have hcoherent :
      ({ s with pdev := { s.pdev with cmdPoolList := pool } } : SerQueues V).Coherent :=
    h.coherent.withPdev _ fun isActive => by cases isActive <;> rfl
  by_cases hfull : ({ s.pdev with cmdPoolList := pool } : SerPdev V).Full cfg activeQueue cmd.vdev
  · apply hcoherent.addNonScanCmd_full h.distinct hfull
    · have hnodes := disjoint_of_nodup_append h.tracked.nodes
      intro hmem
      rw [map_append] at hmem
      apply hnodes hmem
      show node ∈ s.pdev.cmdPoolList
      rw [hpool]
      exact mem_cons_self
    · rfl
    · intro x hx
      rw [Bool.eq_false_iff]
      intro hmatch
      exact hpresent ((isCmdPresentQueue_iff s.pdev activeQueue cmd).mpr
        ⟨x, hx, (matchCmd_iff cmd x).mp hmatch⟩)
  · exact hcoherent.addNonScanCmd_room hfull

theorem SerQueues.Sound.enqueueInto (h : s.Sound fs) (cmd : SerCommand V) (activeQueue : Bool) :
    (SerQueues.enqueueInto cfg s cmd activeQueue).1 =
        (QcomModules.Wlan.enqueueInto cfg cmd activeQueue s.pdev).1 ∧
      (SerQueues.enqueueInto cfg s cmd activeQueue).2.2.Follows
        (QcomModules.Wlan.enqueueInto cfg cmd activeQueue s.pdev).2.2 ∧
      (QcomModules.Wlan.enqueueInto cfg cmd activeQueue s.pdev).2.1 =
        toActivate (SerQueues.enqueueInto cfg s cmd activeQueue).1
          (SerQueues.enqueueInto cfg s cmd activeQueue).2.1 := by
  rw [SerQueues.enqueueInto, QcomModules.Wlan.enqueueInto, h.isCmdPresent]
  split
  · exact ⟨rfl, ⟨rfl, h.coherent⟩, rfl⟩
  rename_i hpresent
  cases hpool : s.pdev.cmdPoolList with
  | nil => exact ⟨rfl, ⟨rfl, h.coherent⟩, rfl⟩
  | cons node pool =>
    have hadd :=
      @SerQueues.Sound.addTaken V _ s fs _ cfg h cmd activeQueue node pool hpool hpresent
    simp only
    cases hconcrete : SerQueues.addNonScanCmd cfg
        { s with pdev := { s.pdev with cmdPoolList := pool } } ⟨node, cmd, {}⟩ activeQueue with
    | mk status t =>
      cases habstract : wlanSerAddNonScanCmd cfg ⟨node, cmd, {}⟩ activeQueue
          { s.pdev with cmdPoolList := pool } with
      | mk status' t' =>
        rw [hconcrete, habstract] at hadd
        obtain ⟨hstatus, rfl, hcoherent⟩ := hadd
        cases hstatus
        cases status with
        | active => exact ⟨rfl, ⟨rfl, hcoherent.marked true node _⟩, rfl⟩
        | pending => exact ⟨rfl, ⟨rfl, hcoherent⟩, rfl⟩
        | deniedListFull => exact ⟨rfl, ⟨rfl, hcoherent.withPdev _ fun _ => rfl⟩, rfl⟩
        | queueDisabled => exact ⟨rfl, ⟨rfl, hcoherent.withPdev _ fun _ => rfl⟩, rfl⟩
        | deniedUnspecified => exact ⟨rfl, ⟨rfl, hcoherent.withPdev _ fun _ => rfl⟩, rfl⟩

omit [Fintype V] in
theorem SerQueues.Sound.isActiveCmdAllowed (h : s.Sound fs) (cmd : SerCommand V) :
    (s.isActiveCmdAllowed cmd).1 = (wlanSerializationIsActiveCmdAllowed cmd s.pdev).1 ∧
      (s.isActiveCmdAllowed cmd).2.pdev = (wlanSerializationIsActiveCmdAllowed cmd s.pdev).2 ∧
      (s.isActiveCmdAllowed cmd).2.Sound fs := by
  have hpdev : (s.isActiveCmdAllowed cmd).2.pdev =
      (wlanSerializationIsActiveCmdAllowed cmd s.pdev).2 := rfl
  have hview : (s.isActiveCmdAllowed cmd).2.pdev.view = { s.pdev.view with
      waiting := (s.pdev.counted cmd).blockingCmdWaiting } := by
    rw [hpdev, wlanSerializationIsActiveCmdAllowed_snd, SerPdev.counted_eq]
    rfl
  have hlists : ∀ isActive, (s.isActiveCmdAllowed cmd).2.pdev.view.list isActive =
      s.pdev.view.list isActive := by
    intro isActive
    rw [hview]
    cases isActive <;> rfl
  refine ⟨?_, hpdev, h.coherent.withPdev _ hlists, ?_⟩
  · have hempty : (s.vdevNodes false cmd.vdev).isEmpty =
        wlanSerializationIsNonScanPendingQueueEmpty cmd (s.isActiveCmdAllowed cmd).2.pdev := by
      rw [h.coherent, ← hlists, nodesOf_vdevList, isEmpty_map]
      rfl
    rw [SerQueues.isActiveCmdAllowed, hempty]
    rfl
  · rw [hview]
    exact h.tracked.congr rfl rfl (Perm.refl _) rfl

theorem SerQueues.Sound.enqueueCmd (h : s.Sound fs) (cmd : SerCommand V) :
    (SerQueues.enqueueCmd cfg s cmd).1 = (wlanSerializationEnqueueCmd cfg cmd s.pdev).1 ∧
      (SerQueues.enqueueCmd cfg s cmd).2.2.Follows
        (wlanSerializationEnqueueCmd cfg cmd s.pdev).2.2 ∧
      (wlanSerializationEnqueueCmd cfg cmd s.pdev).2.1 =
        toActivate (SerQueues.enqueueCmd cfg s cmd).1 (SerQueues.enqueueCmd cfg s cmd).2.1 := by
  rw [SerQueues.enqueueCmd, wlanSerializationEnqueueCmd]
  split
  · exact ⟨rfl, ⟨rfl, h.coherent⟩, rfl⟩
  · obtain ⟨hallowed, hpdev, hsound⟩ := h.isActiveCmdAllowed cmd
    have hinto := @SerQueues.Sound.enqueueInto V _ _ fs _ cfg hsound cmd
      (s.isActiveCmdAllowed cmd).1
    rw [hpdev, hallowed] at hinto
    simp only [hallowed]
    exact hinto

/-! ## Moves -/

omit [Fintype V] in
theorem SerQueues.Sound.searchPending (h : s.Sound fs) (lookup : Option V) :
    (SerQueues.searchPending lookup s).1.pdev =
        (QcomModules.Wlan.searchPending lookup s.pdev).1 ∧
      (SerQueues.searchPending lookup s).1.Sound fs ∧
      (SerQueues.searchPending lookup s).2 =
        (QcomModules.Wlan.searchPending lookup s.pdev).2 := by
  have hpdev : (SerQueues.searchPending lookup s).1.pdev =
      (QcomModules.Wlan.searchPending lookup s.pdev).1 := by
    cases lookup <;> rfl
  have hview : (SerQueues.searchPending lookup s).1.pdev.view = s.pdev.view := by
    rw [hpdev, searchPending_view]
  refine ⟨hpdev, ⟨?_, hview ▸ h.tracked⟩, ?_⟩
  · have hcoherent := h.coherent.withPdev (SerQueues.searchPending lookup s).1.pdev
      fun isActive => by rw [hview]
    cases lookup <;> exact hcoherent
  · cases lookup with
    | none => rfl
    | some vdev =>
      have hhead : (s.vdevNodes false vdev).head?.bind (s.entryAt none) =
          (s.pdev.vdevList false vdev).head? := by
        have hentries := h.coherent.entries h.distinct false vdev
        rw [h.coherent, nodesOf_vdevList] at hentries ⊢
        cases hlist : s.pdev.vdevList false vdev with
        | nil => rfl
        | cons e rest =>
          rw [map_cons, head?_cons, Option.bind_some, head?_cons]
          apply SerQueues.entryAt_eq h.distinct
          · exact fun x hx => absurd hx (Option.not_mem_none x)
          · have hmem : e ∈ s.pdev.vdevList false vdev := hlist ▸ mem_cons_self
            exact mem_append_right _ (mem_append_right _ (mem_filter.mp hmem).1)
      rw [SerQueues.searchPending, hhead]
      rfl

omit [DecidableEq V] [Fintype V] in
theorem view_list_setWaiting (s : SerPdev V) (waiting : ℕ) (isActive : Bool) :
    ({ s with blockingCmdWaiting := waiting } : SerPdev V).view.list isActive =
      s.view.list isActive := by
  cases isActive <;> rfl

theorem SerQueues.Sound.moveToActive (h : s.Sound fs) {e : CommandList V}
    (hidle : e.cmd.vdev ∉ s.pdev.vdevActiveCmdBitmap) :
    (SerQueues.moveToActive cfg e s).1 = (QcomModules.Wlan.moveToActive cfg e s.pdev).1 ∧
      (SerQueues.moveToActive cfg e s).2.Follows
        (QcomModules.Wlan.moveToActive cfg e s.pdev).2 := by
  have hremove := h.coherent.removeNonScanCmd h.distinct e.cmd false
  rw [SerQueues.moveToActive, QcomModules.Wlan.moveToActive]
  rcases wlanSerRemoveNonScanCmd_cases e.cmd false s.pdev with
    ⟨-, hnot⟩ | ⟨x, l₁, l₂, -, hsame, heq⟩
  · cases hconcrete : s.removeNonScanCmd e.cmd false with
    | mk status t =>
      cases habstract : wlanSerRemoveNonScanCmd e.cmd false s.pdev with
      | mk status' t' =>
        rw [hconcrete, habstract] at hremove
        rw [habstract] at hnot
        obtain ⟨hstatus, rfl, hcoherent⟩ := hremove
        cases hstatus
        cases status with
        | eFailure => exact ⟨rfl, rfl, hcoherent⟩
        | ePending => exact ⟨rfl, rfl, hcoherent⟩
        | success x => exact absurd rfl (hnot x)
  · rw [if_neg Bool.false_ne_true] at heq
    cases hconcrete : s.removeNonScanCmd e.cmd false with
    | mk status t =>
      rw [hconcrete, heq] at hremove
      obtain ⟨hstatus, hpdev, hcoherent⟩ := hremove
      simp only at hstatus hpdev hcoherent
      have hroom : ¬t.pdev.Full cfg true x.cmd.vdev := by
        rw [hpdev, hsame.2.2]
        exact h.tracked.not_full cfg hidle
      have hadd := hcoherent.addNonScanCmd_room hroom
      rw [hpdev] at hadd
      rw [hstatus, heq]
      simp only
      cases hadded : SerQueues.addNonScanCmd cfg t x true with
      | mk status u =>
        cases habstract : wlanSerAddNonScanCmd cfg x true
            { s.pdev with pendingList := l₁ ++ l₂ } with
        | mk status' u' =>
          rw [hadded, habstract] at hadd
          obtain ⟨hstatus, rfl, hcoherent⟩ := hadd
          cases hstatus
          cases status with
          | active =>
            refine ⟨rfl, rfl, hcoherent.withPdev _ ?_⟩
            intro isActive
            have hmarked := congrArg (SerView.list · isActive)
              (view_setInUse u.pdev true x.node
                fun use => { use with markedForActivation := true })
            split
            · exact (view_list_setWaiting _ _ isActive).trans hmarked
            · exact hmarked
          | pending => exact ⟨rfl, rfl, hcoherent.withPdev _ fun _ => rfl⟩
          | deniedListFull => exact ⟨rfl, rfl, hcoherent.withPdev _ fun _ => rfl⟩
          | queueDisabled => exact ⟨rfl, rfl, hcoherent.withPdev _ fun _ => rfl⟩
          | deniedUnspecified => exact ⟨rfl, rfl, hcoherent.withPdev _ fun _ => rfl⟩

theorem SerQueues.Sound.moveSection (h : s.Sound fs) (lookup : Option V) :
    (SerQueues.moveSection cfg lookup s).1 =
        (QcomModules.Wlan.moveSection cfg lookup s.pdev).1 ∧
      (SerQueues.moveSection cfg lookup s).2.Follows
        (QcomModules.Wlan.moveSection cfg lookup s.pdev).2 := by
  obtain ⟨hpdev, hsound, hfound⟩ := h.searchPending lookup
  rw [SerQueues.moveSection, QcomModules.Wlan.moveSection]
  cases hconcrete : SerQueues.searchPending lookup s with
  | mk t found =>
    cases habstract : QcomModules.Wlan.searchPending lookup s.pdev with
    | mk t' found' =>
      rw [hconcrete, habstract] at hpdev hfound
      rw [hconcrete] at hsound
      simp only at hpdev hfound hsound
      subst hpdev hfound
      cases found with
      | none => exact ⟨rfl, rfl, hsound.coherent⟩
      | some e =>
        have hview := searchPending_view lookup s.pdev
        obtain ⟨l₁, l₂, -, hpicks⟩ := searchPending_some (by rw [habstract])
        apply hsound.moveToActive
        rw [habstract] at hview
        have hbitmap : t.pdev.vdevActiveCmdBitmap = s.pdev.vdevActiveCmdBitmap :=
          congrArg SerView.bitmap hview
        rw [hbitmap]
        exact hpicks.1

/-! ## Cancellations -/

omit [DecidableEq V] [Fintype V] in
theorem SerQueues.getCmdFromQueue_eq {isActive : Bool} {nnode : Option ℕ}
    (hnnode : ∀ node ∈ nnode, node ∈ (s.pdev.list isActive).map (·.node)) :
    s.getCmdFromQueue isActive nnode =
      (QcomModules.Wlan.getCmdFromQueue (s.pdev.list isActive) nnode).elim .head
        (.entry isActive) := by
  cases nnode with
  | none => rfl
  | some node =>
    rw [SerQueues.getCmdFromQueue]
    exact if_pos (hnnode node rfl)

omit [Fintype V] in
/-- The loop goes on from an entry that is still in its list; then the entry that it removes is in
the list of its vdev. -/
theorem SerQueues.Sound.cancelLoop (h : s.Sound fs) (req : CancelReq V) (isActive : Bool)
    (qsize : ℕ) (nnode pnode : Option ℕ) (hnnode : 0 < qsize → s.pdev.list isActive ≠ [] →
      ∀ node ∈ nnode, node ∈ (s.pdev.list isActive).map (·.node)) :
    (QcomModules.Wlan.cancelLoop req isActive qsize nnode pnode s.pdev).1 =
        (SerQueues.cancelLoop req isActive qsize nnode pnode s).1.map
          (fun found => (found.1, found.2.cmd)) ∧
      (SerQueues.cancelLoop req isActive qsize nnode pnode s).2.Follows
        (QcomModules.Wlan.cancelLoop req isActive qsize nnode pnode s.pdev).2 := by
  induction qsize generalizing nnode pnode s with
  | zero => exact ⟨rfl, rfl, h.coherent⟩
  | succ qsize ih =>
    rw [SerQueues.cancelLoop, QcomModules.Wlan.cancelLoop]
    by_cases hempty : s.pdev.list isActive = []
    · have hnone : QcomModules.Wlan.getCmdFromQueue (s.pdev.list isActive) nnode = none := by
        rw [hempty]
        cases nnode <;> rfl
      rw [if_pos (List.isEmpty_iff.mpr hempty), hnone]
      exact ⟨rfl, rfl, h.coherent⟩
    have hcursor := hnnode qsize.succ_pos hempty
    rw [if_neg (by rwa [List.isEmpty_iff]), SerQueues.getCmdFromQueue_eq hcursor]
    cases hget : QcomModules.Wlan.getCmdFromQueue (s.pdev.list isActive) nnode with
    | none => exact ⟨rfl, rfl, h.coherent⟩
    | some e =>
      have he := getCmdFromQueue_mem hget
      have hnext : ∀ node ∈ some e.node, node ∈ (s.pdev.list isActive).map (·.node) := by
        intro node hnode
        cases hnode
        exact mem_map_of_mem he
      simp only [Option.elim_some]
      split
      · exact ih h _ _ fun _ _ => hnext
      split
      · have hview := view_setInUse s.pdev true e.node fun u =>
          { u with activeMarkedForCancel := true }
        have hmarked : ({ s with pdev := s.pdev.setInUse true e.node fun u =>
            { u with activeMarkedForCancel := true } } : SerQueues V).Sound fs := by
          refine ⟨h.coherent.marked true e.node _, ?_⟩
          rw [hview]
          exact h.tracked
        apply ih hmarked
        intro _ _
        rw [← map_node_entry, ← view_list] at hnext ⊢
        simp only [hview]
        exact hnext
      · rename_i hmarked
        have hkind : (isActive && !isActive) = false := by cases isActive <;> rfl
        have hnode : e.node ∈ s.vdevNodes isActive e.cmd.vdev := by
          rw [h.coherent, nodesOf_vdevList]
          exact mem_map_of_mem (mem_filter.mpr ⟨he, decide_eq_true rfl⟩)
        have hsome : ¬(s.vdevNodes isActive e.cmd.vdev).isEmpty = true := by
          rw [List.isEmpty_iff]
          exact ne_nil_of_mem hnode
        obtain ⟨l₁, l₂, hl⟩ := append_of_mem he
        have herase := eraseP_node_split (h.distinct.list isActive) hl
        have hcoherent := h.coherent.removed h.distinct hl
        simp only [hkind, Bool.false_eq_true, if_false, if_neg hsome, herase]
        refine ⟨rfl, ?_, ?_⟩
        · rw [setVdevNodes_pdev]
        · have hrest := hcoherent ((s.pdev.setList isActive (l₁ ++ l₂)).release e.node)
            fun other => by cases other <;> rfl
          cases isActive <;> exact hrest

end Sections

end QcomModules.Wlan
