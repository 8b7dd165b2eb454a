import QcomModules.Wlan.SerializationRuns

/-! The serialization with the lists of each vdev beside those of the pdev, as the driver keeps
them. As long as the two agree, every step does to the pdev what the step on the pdev alone does,
and the two agree after it. -/

namespace QcomModules.Wlan

open List

variable {V : Type} [DecidableEq V]

/-! ## Queues -/

/-- The queues of a pdev and of its vdevs. Entries are memory that both kinds of lists link; they
are kept in the lists of the pdev here, and the lists of a vdev have their addresses. -/
structure SerQueues (V : Type) where
  pdev : SerPdev V
  vdevActiveList : V → List ℕ
  vdevPendingList : V → List ℕ

def SerQueues.create [Fintype V] (cfg : SerConfig V) : SerQueues V where
  pdev := SerPdev.create cfg
  vdevActiveList := fun _ => []
  vdevPendingList := fun _ => []

/-- `wlan_serialization_get_list_from_vdev_queue`. -/
def SerQueues.vdevNodes (s : SerQueues V) (isActive : Bool) : V → List ℕ :=
  if isActive then s.vdevActiveList else s.vdevPendingList

def SerQueues.setVdevNodes (s : SerQueues V) (isActive : Bool) (vdev : V) (nodes : List ℕ) :
    SerQueues V :=
  if isActive then { s with vdevActiveList := Function.update s.vdevActiveList vdev nodes }
  else { s with vdevPendingList := Function.update s.vdevPendingList vdev nodes }

/-- The memory at an address: an entry that is in hand, or one in the lists of the pdev. -/
def SerQueues.entryAt (s : SerQueues V) (hand : Option (CommandList V)) (node : ℕ) :
    Option (CommandList V) :=
  (hand.toList ++ (s.pdev.activeList ++ s.pdev.pendingList)).find? fun e => e.node = node

/-- `wlan_serialization_find_cmd` in the list of the vdev of a command. -/
def SerQueues.findVdevCmd (s : SerQueues V) (hand : Option (CommandList V)) (isActive : Bool)
    (cmd : SerCommand V) : Option (CommandList V) :=
  ((s.vdevNodes isActive cmd.vdev).filterMap (s.entryAt hand)).find? (matchCmd cmd)

def SerQueues.removeCmdFromVdevQueue (s : SerQueues V) (hand : Option (CommandList V))
    (cmd : SerCommand V) (isActive : Bool) : RemoveStatus V × SerQueues V :=
  match s.findVdevCmd hand isActive cmd with
  | none => (.eFailure, s)
  | some e =>
    if e.cmdInUse.markedForActivation then
      (.ePending,
        { s with pdev := s.pdev.setInUse isActive e.node fun u =>
          { u with activeMarkedForRemoval := true } })
    else
      (.success e,
        s.setVdevNodes isActive cmd.vdev ((s.vdevNodes isActive cmd.vdev).erase e.node))

def SerQueues.removeCmdFromPdevQueue (s : SerQueues V) (cmd : SerCommand V) (isActive : Bool) :
    RemoveStatus V × SerQueues V :=
  match (s.pdev.list isActive).find? (matchCmd cmd) with
  | none => (.eFailure, s)
  | some e =>
    if e.cmdInUse.markedForActivation then
      (.ePending,
        { s with pdev := s.pdev.setInUse isActive e.node fun u =>
          { u with activeMarkedForRemoval := true } })
    else
      let rest := (s.pdev.list isActive).eraseP fun x => x.node = e.node
      (.success e, { s with pdev := s.pdev.setList isActive rest })

def SerQueues.removeNonScanCmd (s : SerQueues V) (cmd : SerCommand V) (isActive : Bool) :
    RemoveStatus V × SerQueues V :=
  match s.removeCmdFromVdevQueue none cmd isActive with
  | (.success _, s) =>
    match s.removeCmdFromPdevQueue cmd isActive with
    | (.success e, s) =>
      if isActive then
        (.success e,
          { s with pdev := { s.pdev with
            blockingCmdActive := s.pdev.blockingCmdActive && !e.cmd.isBlocking
            vdevActiveCmdBitmap := s.pdev.vdevActiveCmdBitmap.erase cmd.vdev } })
      else (.success e, s)
    | (_, s) => (.eFailure, s)
  | r => r

variable [Fintype V]

/-- `wlan_serialization_add_cmd_to_vdev_queue`: whether there was room, and the queues. -/
def SerQueues.addCmdToVdevQueue (cfg : SerConfig V) (s : SerQueues V) (e : CommandList V)
    (isActive : Bool) : Bool × SerQueues V :=
  let disabled := if e.cmd.queueDisable then
      { s with pdev := { s.pdev with queueDisable := insert e.cmd.vdev s.pdev.queueDisable } }
    else s
  let nodes := s.vdevNodes isActive e.cmd.vdev
  if nodes.length = cfg.vdevMaxCmds isActive e.cmd.vdev then (false, disabled)
  else
    (true, disabled.setVdevNodes isActive e.cmd.vdev
      (if e.cmd.isHighPriority then e.node :: nodes else nodes ++ [e.node]))

/-- `wlan_ser_add_non_scan_cmd`. An entry that finds no room in the list of the pdev is taken off
the list of the vdev again. -/
def SerQueues.addNonScanCmd (cfg : SerConfig V) (s : SerQueues V) (e : CommandList V)
    (isActive : Bool) : SerStatus × SerQueues V :=
  match s.addCmdToVdevQueue cfg e isActive with
  | (false, s) => (.deniedListFull, s)
  | (true, s) =>
    if (s.pdev.list isActive).length = cfg.maxCmds isActive then
      (.deniedListFull, (s.removeCmdFromVdevQueue (some e) e.cmd isActive).2)
    else
      let pdev := s.pdev.setList isActive
        (if e.cmd.isHighPriority then e :: s.pdev.list isActive
          else s.pdev.list isActive ++ [e])
      if isActive then
        (.active,
          { s with pdev := { pdev with
            vdevActiveCmdBitmap := insert e.cmd.vdev pdev.vdevActiveCmdBitmap
            blockingCmdActive := pdev.blockingCmdActive || e.cmd.isBlocking } })
      else (.pending, { s with pdev := pdev })

def SerQueues.isActiveCmdAllowed (s : SerQueues V) (cmd : SerCommand V) : Bool × SerQueues V :=
  let r := wlanSerializationIsActiveNonScanCmdAllowed cmd s.pdev
  (r.1 && (s.vdevNodes false cmd.vdev).isEmpty, { s with pdev := r.2 })

def SerQueues.enqueueInto (cfg : SerConfig V) (s : SerQueues V) (cmd : SerCommand V)
    (activeQueue : Bool) : SerStatus × Option ℕ × SerQueues V :=
  if (s.findVdevCmd none activeQueue cmd).isSome then (.deniedUnspecified, none, s)
  else
    match s.pdev.cmdPoolList with
    | [] => (.deniedListFull, none, s)
    | node :: pool =>
      match SerQueues.addNonScanCmd cfg { s with pdev := { s.pdev with cmdPoolList := pool } }
        ⟨node, cmd, {}⟩ activeQueue with
      | (.active, s) =>
        (.active, some node,
          { s with pdev := s.pdev.setInUse true node fun u =>
            { u with markedForActivation := true } })
      | (.pending, s) => (.pending, some node, s)
      | (status, s) => (status, none, { s with pdev := s.pdev.release node })

/-- The locked part of `wlan_serialization_enqueue_cmd`: the status, the entry that holds the
command, and the queues. -/
def SerQueues.enqueueCmd (cfg : SerConfig V) (s : SerQueues V) (cmd : SerCommand V) :
    SerStatus × Option ℕ × SerQueues V :=
  if cmd.vdev ∈ s.pdev.queueDisable then (.queueDisabled, none, s)
  else
    let r := s.isActiveCmdAllowed cmd
    SerQueues.enqueueInto cfg r.2 cmd r.1

/-- Only the entry of a command that is active at once goes on to its activation. -/
def toActivate : SerStatus → Option ℕ → Option ℕ
  | .active, node => node
  | _, _ => none

/-- The search of `wlan_ser_move_non_scan_pending_to_active`. -/
def SerQueues.searchPending (lookup : Option V) (s : SerQueues V) :
    SerQueues V × Option (CommandList V) :=
  match lookup with
  | some vdev =>
    (s, if vdev ∈ s.pdev.vdevActiveCmdBitmap then none
      else ((s.vdevNodes false vdev).head?.bind (s.entryAt none)).filter fun e =>
        !e.cmdInUse.markedForMovement)
  | none =>
    let r := walkPending s.pdev.vdevActiveCmdBitmap false s.pdev.pendingList
    ({ s with pdev := { s.pdev with pendingList := r.1 } }, r.2)

def SerQueues.moveToActive (cfg : SerConfig V) (e : CommandList V) (s : SerQueues V) :
    Option ℕ × SerQueues V :=
  match s.removeNonScanCmd e.cmd false with
  | (.success e, s) =>
    match SerQueues.addNonScanCmd cfg s e true with
    | (.active, s) =>
      let pdev := s.pdev.setInUse true e.node fun u => { u with markedForActivation := true }
      (some e.node, { s with pdev := if e.cmd.isBlocking then
          { pdev with blockingCmdWaiting := (pdev.blockingCmdWaiting + (2 ^ 16 - 1)) % 2 ^ 16 }
        else pdev })
    | (_, s) => (none, { s with pdev := s.pdev.release e.node })
  | (_, s) => (none, s)

/-- What `wlan_ser_move_non_scan_pending_to_active` does under the lock up to an activation. -/
def SerQueues.moveSection (cfg : SerConfig V) (lookup : Option V) (s : SerQueues V) :
    Option ℕ × SerQueues V :=
  match SerQueues.searchPending lookup s with
  | (s, none) => (none, s)
  | (s, some e) => SerQueues.moveToActive cfg e s

/-- Where the link of an entry leads: to an entry of one of the lists, to an entry that is free, or
back to the head of a list. -/
inductive SerLink (V : Type) where
  | entry (isActive : Bool) (e : CommandList V)
  | free (node : ℕ)
  | head

/-- `wlan_serialization_get_cmd_from_queue`: the first entry, or the one behind an address. The link
at an address is that of the list its entry is in now. The code takes the head of another list
than the one it walks for an entry. -/
def SerQueues.getCmdFromQueue (s : SerQueues V) (isActive : Bool) : Option ℕ → SerLink V
  | none => (s.pdev.list isActive).head?.elim .head (.entry isActive)
  | some node =>
    let next := fun kind =>
      (QcomModules.Wlan.getCmdFromQueue (s.pdev.list kind) (some node)).elim .head (.entry kind)
    if node ∈ (s.pdev.list isActive).map (·.node) then next isActive
    else if node ∈ (s.pdev.list !isActive).map (·.node) then next !isActive
    else (s.pdev.cmdPoolList.dropWhile (· ≠ node)).tail.head?.elim .head .free

/-- The loop of `wlan_ser_cancel_non_scan_cmd` up to the next removal, with the entry removed. An
entry leaves the list that it is in, whichever was walked; the loop ends when the list of the vdev
is empty. A command that is not active has no timer to stop. -/
def SerQueues.cancelLoop (req : CancelReq V) (isActive : Bool) :
    ℕ → Option ℕ → Option ℕ → SerQueues V → Option (CancelCursor × CommandList V) × SerQueues V
  | 0, _, _, s => (none, s)
  | qsize + 1, nnode, pnode, s =>
    if (s.pdev.list isActive).isEmpty then (none, s)
    else
      match s.getCmdFromQueue isActive nnode with
      | .head => (none, s)
      | .free node => SerQueues.cancelLoop req isActive qsize (some node) (some node) s
      | .entry kind e =>
        if !req.selects e then
          SerQueues.cancelLoop req isActive qsize (some e.node) (some e.node) s
        else if isActive && e.cmdInUse.markedForActivation then
          SerQueues.cancelLoop req isActive qsize (some e.node) pnode
            { s with pdev := s.pdev.setInUse true e.node fun u =>
              { u with activeMarkedForCancel := true } }
        else if isActive && !kind then (none, s)
        else
          let pdev := s.pdev.setList kind
            ((s.pdev.list kind).eraseP fun x => x.node = e.node)
          if (s.vdevNodes isActive e.cmd.vdev).isEmpty then (none, { s with pdev := pdev })
          else
            (some (⟨pnode, qsize⟩, e),
              { s with pdev := pdev.release e.node }.setVdevNodes kind e.cmd.vdev
                ((s.vdevNodes kind e.cmd.vdev).erase e.node))

/-! ## Agreement -/

section Agreement

omit [Fintype V]

def nodesOf (vdev : V) (l : List (ℕ × SerCommand V)) : List ℕ :=
  (l.filter fun x => x.2.vdev = vdev).map Prod.fst

/-- The list of each vdev has the entries of the vdev in the list of the pdev, in the same order. -/
def SerQueues.Coherent (s : SerQueues V) : Prop :=
  ∀ isActive vdev, s.vdevNodes isActive vdev = nodesOf vdev (s.pdev.view.list isActive)

def SerView.Distinct (w : SerView V) : Prop := ((w.active ++ w.pending).map Prod.fst).Nodup

variable {s s' : SerQueues V} {isActive : Bool} {x : ℕ × SerCommand V}
  {l l₁ l₂ : List (ℕ × SerCommand V)} {vdev : V} {hand : Option (CommandList V)}
  {cmd : SerCommand V}

variable {w : SerView V} {m₁ m₂ : List (CommandList V)}

omit [DecidableEq V] in
theorem SerView.Distinct.list (h : w.Distinct) (isActive : Bool) :
    ((w.list isActive).map Prod.fst).Nodup := by
  rw [SerView.Distinct, map_append] at h
  cases isActive with
  | true => exact h.of_append_left
  | false => exact h.of_append_right

theorem Tracked.distinct {fs : List (SerFrame V)} (h : Tracked w fs) : w.Distinct := by
  rw [SerView.Distinct, map_append]
  exact h.nodes.of_append_left

theorem nodesOf_vdevList (s : SerPdev V) (isActive : Bool) (vdev : V) :
    nodesOf vdev (s.view.list isActive) = (s.vdevList isActive vdev).map (·.node) := by
  rw [view_list, nodesOf, filter_map, map_map]
  rfl

theorem nodesOf_of_ne (hvdev : vdev ≠ x.2.vdev) :
    nodesOf vdev (l₁ ++ x :: l₂) = nodesOf vdev (l₁ ++ l₂) := by
  rw [nodesOf, nodesOf, filter_append, filter_append, filter_cons_of_neg]
  rw [decide_eq_true_eq]
  exact hvdev.symm

theorem nodesOf_erase (hnodup : ((l₁ ++ x :: l₂).map Prod.fst).Nodup) :
    nodesOf x.2.vdev (l₁ ++ l₂) = (nodesOf x.2.vdev (l₁ ++ x :: l₂)).erase x.1 := by
  have hnot : x.1 ∉ (l₁.filter fun y => y.2.vdev = x.2.vdev).map Prod.fst := by
    intro hmem
    obtain ⟨y, hy, hnode⟩ := mem_map.mp hmem
    rw [map_append, nodup_append] at hnodup
    have hy' : y.1 ∈ l₁.map Prod.fst := mem_map_of_mem (mem_filter.mp hy).1
    exact hnodup.2.2 y.1 hy' x.1 mem_cons_self hnode
  rw [nodesOf, nodesOf, filter_append, filter_append, map_append, map_append,
    filter_cons_of_pos (by rw [decide_eq_true_eq]), map_cons,
    erase_append_right _ hnot, erase_cons_head]

theorem nodesOf_putEntry_of_ne (hvdev : vdev ≠ x.2.vdev) :
    nodesOf vdev (putEntry x.2 x l) = nodesOf vdev l := by
  rw [putEntry]
  split
  · have hfront : nodesOf vdev ([] ++ x :: l) = nodesOf vdev ([] ++ l) := nodesOf_of_ne hvdev
    exact hfront
  · have hend : nodesOf vdev (l ++ [x]) = nodesOf vdev (l ++ []) := nodesOf_of_ne hvdev
    rw [append_nil] at hend
    exact hend

theorem nodesOf_putEntry : nodesOf x.2.vdev (putEntry x.2 x l) =
    putEntry x.2 x.1 (nodesOf x.2.vdev l) := by
  rw [putEntry, putEntry]
  split
  · rw [nodesOf, filter_cons_of_pos (by rw [decide_eq_true_eq]), map_cons, nodesOf]
  · rw [nodesOf, filter_append, filter_singleton, decide_eq_true rfl, map_append]
    rfl

theorem vdevNodes_setVdevNodes (s : SerQueues V) (isActive other : Bool) (vdev v : V)
    (nodes : List ℕ) : (s.setVdevNodes isActive vdev nodes).vdevNodes other v =
      if other = isActive ∧ v = vdev then nodes else s.vdevNodes other v := by
  have hupdate : ∀ f : V → List ℕ, Function.update f vdev nodes v =
      if v = vdev then nodes else f v := fun f => Function.update_apply f vdev nodes v
  cases isActive with
  | true =>
    cases other with
    | true => exact (hupdate s.vdevActiveList).trans (by simp [SerQueues.vdevNodes])
    | false => rfl
  | false =>
    cases other with
    | true => rfl
    | false => exact (hupdate s.vdevPendingList).trans (by simp [SerQueues.vdevNodes])

omit [DecidableEq V] in
theorem setVdevNodes_pdev [DecidableEq V] (s : SerQueues V) (isActive : Bool) (vdev : V)
    (nodes : List ℕ) : (s.setVdevNodes isActive vdev nodes).pdev = s.pdev := by
  cases isActive <;> rfl

theorem SerQueues.Coherent.congr (h : s.Coherent) (hnodes : s'.vdevNodes = s.vdevNodes)
    (hview : ∀ isActive, s'.pdev.view.list isActive = s.pdev.view.list isActive) :
    s'.Coherent := by
  intro isActive vdev
  rw [hnodes, hview]
  exact h isActive vdev

theorem SerQueues.Coherent.put (h : s.Coherent)
    (hnodes : ∀ other v, s'.vdevNodes other v = if other = isActive ∧ v = x.2.vdev then
      putEntry x.2 x.1 (s.vdevNodes isActive x.2.vdev) else s.vdevNodes other v)
    (hlist : s'.pdev.view.list isActive = putEntry x.2 x (s.pdev.view.list isActive))
    (hother : ∀ other, other ≠ isActive →
      s'.pdev.view.list other = s.pdev.view.list other) : s'.Coherent := by
  intro other v
  rw [hnodes]
  by_cases hkind : other = isActive
  · subst hkind
    rw [hlist]
    split
    · rename_i hvdev
      rw [hvdev.2, nodesOf_putEntry, h]
    · rename_i hvdev
      rw [nodesOf_putEntry_of_ne (fun heq => hvdev ⟨rfl, heq⟩), h]
  · rw [if_neg (fun hboth => hkind hboth.1), hother other hkind, h]

theorem SerQueues.Coherent.drop (h : s.Coherent) (hdistinct : s.pdev.view.Distinct)
    (hlist : s.pdev.view.list isActive = l₁ ++ x :: l₂)
    (hnodes : ∀ other v, s'.vdevNodes other v = if other = isActive ∧ v = x.2.vdev then
      (s.vdevNodes isActive x.2.vdev).erase x.1 else s.vdevNodes other v)
    (hrest : s'.pdev.view.list isActive = l₁ ++ l₂)
    (hother : ∀ other, other ≠ isActive →
      s'.pdev.view.list other = s.pdev.view.list other) : s'.Coherent := by
  have hnodup := hdistinct.list isActive
  rw [hlist] at hnodup
  intro other v
  rw [hnodes]
  by_cases hkind : other = isActive
  · subst hkind
    rw [hrest]
    split
    · rename_i hvdev
      rw [hvdev.2, nodesOf_erase hnodup, h, hlist]
    · rename_i hvdev
      rw [← nodesOf_of_ne (fun heq => hvdev ⟨rfl, heq⟩), h, hlist]
  · rw [if_neg (fun hboth => hkind hboth.1), hother other hkind, h]

/-! ## Lists of addresses -/

omit [DecidableEq V] in
theorem find_node {m : List (CommandList V)} (hnodup : (m.map (·.node)).Nodup) {e : CommandList V}
    (he : e ∈ m) : m.find? (fun x => x.node = e.node) = some e := by
  cases hfind : m.find? fun x => x.node = e.node with
  | none =>
    have hnone := find?_eq_none.mp hfind e he
    exact absurd (decide_eq_true rfl) hnone
  | some x =>
    have hnode := find?_some hfind
    rw [decide_eq_true_eq] at hnode
    rw [inj_on_of_nodup_map hnodup (mem_of_find?_eq_some hfind) he hnode]

omit [DecidableEq V] in
theorem SerQueues.entryAt_eq [DecidableEq V] (hdistinct : s.pdev.view.Distinct)
    (hhand : ∀ x ∈ hand, x.node ∉ (s.pdev.view.active ++ s.pdev.view.pending).map Prod.fst)
    {e : CommandList V} (he : e ∈ hand.toList ++ (s.pdev.activeList ++ s.pdev.pendingList)) :
    s.entryAt hand e.node = some e := by
  have hmap : (s.pdev.activeList ++ s.pdev.pendingList).map (·.node) =
      (s.pdev.view.active ++ s.pdev.view.pending).map Prod.fst := by
    rw [SerPdev.view, ← map_append, map_map]
    rfl
  apply find_node _ he
  cases hand with
  | none =>
    rw [Option.toList_none, nil_append, hmap]
    exact hdistinct
  | some x =>
    rw [Option.toList_some, singleton_append, map_cons, hmap]
    exact nodup_cons.mpr ⟨hhand x rfl, hdistinct⟩

theorem SerQueues.Coherent.entries (h : s.Coherent) (hdistinct : s.pdev.view.Distinct)
    (isActive : Bool) (vdev : V) :
    (s.vdevNodes isActive vdev).filterMap (s.entryAt none) = s.pdev.vdevList isActive vdev := by
  rw [h, nodesOf_vdevList, filterMap_map]
  have hsome : ∀ e ∈ s.pdev.vdevList isActive vdev,
      (s.entryAt none ∘ fun e : CommandList V => e.node) e = some e := by
    intro e he
    apply SerQueues.entryAt_eq hdistinct
    · exact fun x hx => absurd hx (Option.not_mem_none x)
    · have hmem := (mem_filter.mp he).1
      cases isActive with
      | true => exact mem_append_right _ (mem_append_left _ hmem)
      | false => exact mem_append_right _ (mem_append_right _ hmem)
  rw [filterMap_congr hsome, filterMap_some]

theorem SerQueues.Coherent.findVdevCmd (h : s.Coherent) (hdistinct : s.pdev.view.Distinct)
    (isActive : Bool) (cmd : SerCommand V) :
    s.findVdevCmd none isActive cmd = (s.pdev.list isActive).find? (matchCmd cmd) := by
  rw [SerQueues.findVdevCmd, h.entries hdistinct, vdevList_find]

/-! ## Removing -/

omit [DecidableEq V] in
theorem eraseP_node_split {s : SerPdev V} {e : CommandList V}
    (hnodup : ((s.view.list isActive).map Prod.fst).Nodup) (hl : s.list isActive = m₁ ++ e :: m₂) :
    ((s.list isActive).eraseP fun x => x.node = e.node) = m₁ ++ m₂ := by
  rw [view_list, map_node_entry, hl, map_append, nodup_append] at hnodup
  have hnot : ∀ x ∈ m₁, ¬(decide (x.node = e.node) = true) := by
    intro x hx heq
    rw [decide_eq_true_eq] at heq
    exact hnodup.2.2 x.node (mem_map_of_mem hx) e.node mem_cons_self heq
  rw [hl, eraseP_append_right _ hnot]
  exact congrArg (m₁ ++ ·) (eraseP_cons_of_pos (decide_eq_true rfl))

/-- The pdev is as the step on the pdev alone leaves it, and the vdevs agree with it. -/
structure SerQueues.Follows (s : SerQueues V) (pdev : SerPdev V) : Prop where
  pdev : s.pdev = pdev
  coherent : s.Coherent

theorem SerQueues.Coherent.marked (h : s.Coherent) (isActive : Bool) (node : ℕ)
    (f : CmdInUse → CmdInUse) :
    ({ s with pdev := s.pdev.setInUse isActive node f } : SerQueues V).Coherent := by
  have hview : ∀ other, (s.pdev.setInUse isActive node f).view.list other =
      s.pdev.view.list other := by
    intro other
    rw [view_setInUse]
  exact fun other vdev => (h other vdev).trans (congrArg (nodesOf vdev) (hview other).symm)

omit [DecidableEq V] in
theorem view_list_setList (s : SerPdev V) (isActive other : Bool) (m : List (CommandList V)) :
    (s.setList isActive m).view.list other =
      if other = isActive then m.map CommandList.entry else s.view.list other := by
  cases isActive <;> cases other <;> rfl

theorem SerQueues.Coherent.removed (h : s.Coherent) (hdistinct : s.pdev.view.Distinct)
    {e : CommandList V} (hl : s.pdev.list isActive = m₁ ++ e :: m₂) (pdev : SerPdev V)
    (hpdev : ∀ other, pdev.view.list other =
      (s.pdev.setList isActive (m₁ ++ m₂)).view.list other) :
    ({ s.setVdevNodes isActive e.cmd.vdev ((s.vdevNodes isActive e.cmd.vdev).erase e.node) with
      pdev := pdev } : SerQueues V).Coherent := by
  have hlist : s.pdev.view.list isActive =
      m₁.map CommandList.entry ++ e.entry :: m₂.map CommandList.entry := by
    rw [view_list, hl, map_append, map_cons]
  apply h.drop hdistinct hlist
  · intro other v
    exact vdevNodes_setVdevNodes s isActive other e.cmd.vdev v _
  · rw [hpdev, view_list_setList, if_pos rfl, map_append]
  · intro other hother
    rw [hpdev, view_list_setList, if_neg hother]

theorem SerQueues.Coherent.removeNonScanCmd (h : s.Coherent) (hdistinct : s.pdev.view.Distinct)
    (cmd : SerCommand V) (isActive : Bool) :
    (s.removeNonScanCmd cmd isActive).1 = (wlanSerRemoveNonScanCmd cmd isActive s.pdev).1 ∧
      (s.removeNonScanCmd cmd isActive).2.Follows
        (wlanSerRemoveNonScanCmd cmd isActive s.pdev).2 := by
  rw [SerQueues.removeNonScanCmd, SerQueues.removeCmdFromVdevQueue, h.findVdevCmd hdistinct,
    wlanSerRemoveNonScanCmd, vdevList_find]
  cases hfind : (s.pdev.list isActive).find? (matchCmd cmd) with
  | none => exact ⟨rfl, rfl, h⟩
  | some e =>
    have hvdev := ((matchCmd_iff cmd e).mp (find?_some hfind)).2.2
    obtain ⟨l₁, l₂, hl, herase⟩ := eraseP_of_find hfind
    have hrest := eraseP_node_split (hdistinct.list isActive) hl
    by_cases hmarked : e.cmdInUse.markedForActivation = true
    · simp only [if_pos hmarked]
      exact ⟨trivial, rfl, h.marked _ _ _⟩
    · simp only [if_neg hmarked]
      have hagain : ((s.setVdevNodes isActive cmd.vdev
          ((s.vdevNodes isActive cmd.vdev).erase e.node)).pdev.list isActive).find?
          (matchCmd cmd) = some e := by
        rw [setVdevNodes_pdev]
        exact hfind
      rw [SerQueues.removeCmdFromPdevQueue, hagain]
      simp only [if_neg hmarked, setVdevNodes_pdev, hrest, herase]
      have hcoherent := h.removed hdistinct hl
      rw [hvdev] at hcoherent
      cases isActive with
      | true => exact ⟨rfl, rfl, hcoherent _ fun other => rfl⟩
      | false => exact ⟨rfl, rfl, hcoherent _ fun other => rfl⟩

end Agreement

/-! ## Adding -/

section Adding

variable {cfg : SerConfig V} {s : SerQueues V} {isActive : Bool} {e : CommandList V}

omit [Fintype V] in
theorem SerQueues.Coherent.length (h : s.Coherent) (isActive : Bool) (vdev : V) :
    (s.vdevNodes isActive vdev).length = (s.pdev.vdevList isActive vdev).length := by
  rw [h, nodesOf_vdevList, length_map]

def SerQueues.disabled (s : SerQueues V) (cmd : SerCommand V) : SerQueues V :=
  { s with pdev := { s.pdev with queueDisable :=
    if cmd.queueDisable then insert cmd.vdev s.pdev.queueDisable else s.pdev.queueDisable } }

omit [Fintype V] in
theorem SerQueues.disabled_eq (s : SerQueues V) (cmd : SerCommand V) :
    (if cmd.queueDisable then
      { s with pdev := { s.pdev with queueDisable := insert cmd.vdev s.pdev.queueDisable } }
    else s) = s.disabled cmd := by
  rw [SerQueues.disabled]
  cases cmd.queueDisable <;> rfl

theorem SerQueues.Coherent.addCmdToVdevQueue_full (h : s.Coherent)
    (hfull : (s.pdev.vdevList isActive e.cmd.vdev).length =
      cfg.vdevMaxCmds isActive e.cmd.vdev) :
    SerQueues.addCmdToVdevQueue cfg s e isActive = (false, s.disabled e.cmd) := by
  rw [← h.length] at hfull
  rw [SerQueues.addCmdToVdevQueue, SerQueues.disabled_eq]
  exact if_pos hfull

theorem SerQueues.Coherent.addCmdToVdevQueue_room (h : s.Coherent)
    (hroom : (s.pdev.vdevList isActive e.cmd.vdev).length ≠
      cfg.vdevMaxCmds isActive e.cmd.vdev) :
    SerQueues.addCmdToVdevQueue cfg s e isActive = (true,
      (s.disabled e.cmd).setVdevNodes isActive e.cmd.vdev
        (putEntry e.cmd e.node (s.vdevNodes isActive e.cmd.vdev))) := by
  rw [← h.length] at hroom
  rw [SerQueues.addCmdToVdevQueue, SerQueues.disabled_eq]
  exact if_neg hroom

omit [Fintype V] in
theorem SerQueues.Coherent.added (h : s.Coherent) (pdev : SerPdev V)
    (hpdev : ∀ other, pdev.view.list other =
      (s.pdev.setList isActive (putEntry e.cmd e (s.pdev.list isActive))).view.list other) :
    ({ s.setVdevNodes isActive e.cmd.vdev
        (putEntry e.cmd e.node (s.vdevNodes isActive e.cmd.vdev)) with
      pdev := pdev } : SerQueues V).Coherent := by
  have hnodes : ∀ other v, (s.setVdevNodes isActive e.cmd.vdev
      (putEntry e.cmd e.node (s.vdevNodes isActive e.cmd.vdev))).vdevNodes other v =
      if other = isActive ∧ v = e.entry.2.vdev then
        putEntry e.entry.2 e.entry.1 (s.vdevNodes isActive e.entry.2.vdev)
      else s.vdevNodes other v :=
    fun other v => vdevNodes_setVdevNodes s isActive other e.cmd.vdev v _
  refine SerQueues.Coherent.put (x := e.entry) h hnodes ?_ ?_
  · rw [hpdev, view_list_setList, if_pos rfl, map_putEntry, view_list]
    rfl
  · intro other hother
    rw [hpdev, view_list_setList, if_neg hother]

omit [Fintype V] in
theorem disabled_pdev_list (s : SerQueues V) (cmd : SerCommand V) (isActive : Bool) :
    (s.disabled cmd).pdev.list isActive = s.pdev.list isActive := by
  cases isActive <;> rfl

omit [Fintype V] in
theorem disabled_setVdevNodes (s : SerQueues V) (cmd : SerCommand V) (isActive : Bool) (vdev : V)
    (nodes : List ℕ) : (s.disabled cmd).setVdevNodes isActive vdev nodes =
      { s.setVdevNodes isActive vdev nodes with pdev := (s.disabled cmd).pdev } := by
  cases isActive <;> rfl

theorem SerQueues.Coherent.addNonScanCmd_room (h : s.Coherent)
    (hroom : ¬s.pdev.Full cfg isActive e.cmd.vdev) :
    (SerQueues.addNonScanCmd cfg s e isActive).1 =
        (wlanSerAddNonScanCmd cfg e isActive s.pdev).1 ∧
      (SerQueues.addNonScanCmd cfg s e isActive).2.Follows
        (wlanSerAddNonScanCmd cfg e isActive s.pdev).2 := by
  obtain ⟨hvdev, hpdev⟩ := not_or.mp hroom
  have hcoherent := @SerQueues.Coherent.added V _ s isActive e h
  have hsame : wlanSerAddNonScanCmd cfg e isActive s.pdev =
      if isActive then
        (.active,
          { (s.disabled e.cmd).pdev.setList isActive
              (putEntry e.cmd e (s.pdev.list isActive)) with
            vdevActiveCmdBitmap := insert e.cmd.vdev s.pdev.vdevActiveCmdBitmap
            blockingCmdActive := s.pdev.blockingCmdActive || e.cmd.isBlocking })
      else
        (.pending, (s.disabled e.cmd).pdev.setList isActive
          (putEntry e.cmd e (s.pdev.list isActive))) := by
    rw [wlanSerAddNonScanCmd, disableQueue_eq]
    apply ((if_neg hvdev).trans (if_neg hpdev)).trans
    cases isActive <;> rfl
  rw [SerQueues.addNonScanCmd, h.addCmdToVdevQueue_room hvdev, hsame]
  simp only [disabled_setVdevNodes, disabled_pdev_list, if_neg hpdev]
  cases isActive with
  | true => exact ⟨rfl, rfl, hcoherent _ fun other => by cases other <;> rfl⟩
  | false => exact ⟨rfl, rfl, hcoherent _ fun other => by cases other <;> rfl⟩

omit [Fintype V] in
theorem SerQueues.Coherent.entries_hand (h : s.Coherent) (hdistinct : s.pdev.view.Distinct)
    (hhand : e.node ∉ (s.pdev.view.active ++ s.pdev.view.pending).map Prod.fst) :
    (putEntry e.cmd e.node (s.vdevNodes isActive e.cmd.vdev)).filterMap (s.entryAt (some e)) =
      putEntry e.cmd e (s.pdev.vdevList isActive e.cmd.vdev) := by
  have hnot : ∀ x ∈ some e, x.node ∉ (s.pdev.view.active ++ s.pdev.view.pending).map Prod.fst := by
    intro x hx
    cases hx
    exact hhand
  have hself : s.entryAt (some e) e.node = some e :=
    SerQueues.entryAt_eq hdistinct hnot (mem_append_left _ mem_cons_self)
  have hsome : ∀ x ∈ s.pdev.vdevList isActive e.cmd.vdev,
      (s.entryAt (some e) ∘ fun x : CommandList V => x.node) x = some x := by
    intro x hx
    apply SerQueues.entryAt_eq hdistinct hnot
    have hmem := (mem_filter.mp hx).1
    cases isActive with
    | true => exact mem_append_right _ (mem_append_left _ hmem)
    | false => exact mem_append_right _ (mem_append_right _ hmem)
  have hrest : (s.vdevNodes isActive e.cmd.vdev).filterMap (s.entryAt (some e)) =
      s.pdev.vdevList isActive e.cmd.vdev := by
    rw [h, nodesOf_vdevList, filterMap_map, filterMap_congr hsome, filterMap_some]
  rw [putEntry, putEntry]
  split
  · rw [filterMap_cons_some hself, hrest]
  · rw [filterMap_append, hrest, filterMap_cons_some hself, filterMap_nil]

omit [DecidableEq V] [Fintype V] in
theorem erase_putEntry {node : ℕ} {nodes : List ℕ} (hnot : node ∉ nodes) (cmd : SerCommand V) :
    (putEntry cmd node nodes).erase node = nodes := by
  rw [putEntry]
  split
  · exact erase_cons_head ..
  · rw [erase_append_right _ hnot, erase_cons_head, append_nil]

theorem SerQueues.Coherent.addNonScanCmd_full (h : s.Coherent)
    (hdistinct : s.pdev.view.Distinct) (hfull : s.pdev.Full cfg isActive e.cmd.vdev)
    (hhand : e.node ∉ (s.pdev.view.active ++ s.pdev.view.pending).map Prod.fst)
    (hmarked : e.cmdInUse.markedForActivation = false)
    (hfresh : ∀ x ∈ s.pdev.list isActive, matchCmd e.cmd x = false) :
    (SerQueues.addNonScanCmd cfg s e isActive).1 =
        (wlanSerAddNonScanCmd cfg e isActive s.pdev).1 ∧
      (SerQueues.addNonScanCmd cfg s e isActive).2.Follows
        (wlanSerAddNonScanCmd cfg e isActive s.pdev).2 := by
  have hsame : wlanSerAddNonScanCmd cfg e isActive s.pdev =
      (.deniedListFull, (s.disabled e.cmd).pdev) := by
    rw [wlanSerAddNonScanCmd, disableQueue_eq]
    by_cases hvdev : (s.pdev.vdevList isActive e.cmd.vdev).length =
        cfg.vdevMaxCmds isActive e.cmd.vdev
    · exact if_pos hvdev
    · exact (if_neg hvdev).trans (if_pos (hfull.resolve_left hvdev))
  have hcoherent : (s.disabled e.cmd).Coherent := h.congr rfl fun _ => by cases isActive <;> rfl
  rw [SerQueues.addNonScanCmd, hsame]
  by_cases hvdev : (s.pdev.vdevList isActive e.cmd.vdev).length =
      cfg.vdevMaxCmds isActive e.cmd.vdev
  · rw [h.addCmdToVdevQueue_full hvdev]
    exact ⟨rfl, rfl, hcoherent⟩
  · have hpdev := hfull.resolve_left hvdev
    rw [h.addCmdToVdevQueue_room hvdev]
    simp only [setVdevNodes_pdev, disabled_pdev_list, if_pos hpdev]
    have hnot : e.node ∉ s.vdevNodes isActive e.cmd.vdev := by
      rw [h]
      intro hmem
      obtain ⟨x, hx, hnode⟩ := mem_map.mp hmem
      apply hhand
      rw [← hnode]
      have hlist := (mem_filter.mp hx).1
      cases isActive with
      | true => exact mem_map_of_mem (mem_append_left _ hlist)
      | false => exact mem_map_of_mem (mem_append_right _ hlist)
    have hself : matchCmd e.cmd e = true := (matchCmd_iff e.cmd e).mpr ⟨rfl, rfl, rfl⟩
    have hnone : (s.pdev.vdevList isActive e.cmd.vdev).find? (matchCmd e.cmd) = none := by
      rw [vdevList_find]
      exact find?_eq_none.mpr fun x hx => Bool.eq_false_iff.mp (hfresh x hx)
    have hfind : ((s.disabled e.cmd).setVdevNodes isActive e.cmd.vdev
        (putEntry e.cmd e.node (s.vdevNodes isActive e.cmd.vdev))).findVdevCmd (some e) isActive
        e.cmd = some e := by
      have hentry : ((s.disabled e.cmd).setVdevNodes isActive e.cmd.vdev
          (putEntry e.cmd e.node (s.vdevNodes isActive e.cmd.vdev))).entryAt (some e) =
          s.entryAt (some e) := by cases isActive <;> rfl
      rw [SerQueues.findVdevCmd, vdevNodes_setVdevNodes, if_pos ⟨rfl, rfl⟩, hentry,
        h.entries_hand hdistinct hhand, putEntry]
      split
      · exact find?_cons_of_pos hself
      · rw [find?_append, hnone, Option.none_or]
        exact find?_cons_of_pos hself
    rw [SerQueues.removeCmdFromVdevQueue, hfind]
    have hinner : ((s.disabled e.cmd).setVdevNodes isActive e.cmd.vdev
        (putEntry e.cmd e.node (s.vdevNodes isActive e.cmd.vdev))).vdevNodes isActive e.cmd.vdev =
        putEntry e.cmd e.node (s.vdevNodes isActive e.cmd.vdev) :=
      (vdevNodes_setVdevNodes ..).trans (if_pos ⟨rfl, rfl⟩)
    simp only [hmarked, Bool.false_eq_true, if_false, hinner, erase_putEntry hnot]
    refine ⟨trivial, ?_, ?_⟩
    · rw [setVdevNodes_pdev, setVdevNodes_pdev]
    · apply hcoherent.congr
      · funext other v
        rw [vdevNodes_setVdevNodes]
        split
        · rename_i hboth
          rw [hboth.1, hboth.2]
          rfl
        · rename_i hnot
          rw [vdevNodes_setVdevNodes, if_neg hnot]
      · intro other
        rw [setVdevNodes_pdev, setVdevNodes_pdev]

end Adding

end QcomModules.Wlan
