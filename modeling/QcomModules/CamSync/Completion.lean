import QcomModules.CamSync.LinkSteps

/-! The state of a merged object against those of its children, in runs that destroy no object. -/

namespace QcomModules.CamSync

open Library List SyncDevice

/-! ## The invariant -/

def SyncPc.destroys : SyncPc → Bool
  | .enter (.destroy _) | .destroyLinks _ _ _ => true
  | _ => false

/-- The object that a signal is on its way for, with the status. -/
def SyncPc.signals : SyncPc → Option (ℕ × SyncState)
  | .signalSynx obj status _ | .signalParents obj status _ _ => some (obj, status)
  | _ => none

/-- What a child that is propagated says about the state of the merged object: the state is an
error or a cancellation as soon as one such child has failed, and not before. -/
structure Settled (d : SyncDevice) (pcs : List SyncPc) : Prop where
  noDestroy : ∀ pc ∈ pcs, pc.destroys = false
  target : ∀ child parent, 0 < pending d pcs child parent →
    (d.table parent).type = .group ∧
      ((d.table parent).state ≠ .invalid ∨ d.rowLocked parent = true)
  member : ∀ parent child, d.Live parent → child ∈ d.members parent →
    (d.table child).type = .indv ∧ (d.table child).state ≠ .invalid ∧
      (pending d pcs child parent = 0 → (d.table child).state.signaled = true)
  signaling : ∀ pc ∈ pcs, ∀ obj status, pc.signals = some (obj, status) →
    (d.table obj).type = .indv ∧ (d.table obj).state = status
  failed : ∀ parent, d.Live parent → ((d.table parent).state.failed = true ↔
    ∃ child ∈ d.members parent,
      pending d pcs child parent = 0 ∧ (d.table child).state.failed = true)
  settled : ∀ parent, d.Live parent → d.rowLocked parent = false →
    (d.table parent).remaining = 0 → (d.table parent).state ≠ .active
  indv : ∀ obj, (d.table obj).type = .indv → (d.table obj).remaining = 0
  merged : ∀ idx objs, .merged idx objs ∈ pcs →
    d.Live idx ∧ d.rowLocked idx = false ∧ d.members idx = objs

theorem Settled.probe : Settled SyncDevice.probe [] where
  noDestroy _ hpc := absurd hpc not_mem_nil
  target _ _ hpos := absurd hpos (Nat.lt_irrefl 0)
  member _ _ hlive := absurd rfl hlive.2
  signaling _ hpc := absurd hpc not_mem_nil
  failed _ hlive := absurd rfl hlive.2
  settled _ hlive := absurd rfl hlive.2
  indv _ _ := rfl
  merged _ _ hpc := absurd hpc not_mem_nil

theorem Settled.perm {d : SyncDevice} {pcs pcs' : List SyncPc} (h : Settled d pcs)
    (hperm : pcs.Perm pcs') : Settled d pcs' where
  noDestroy pc hpc := h.noDestroy pc (hperm.mem_iff.mpr hpc)
  target := pending_perm hperm d ▸ h.target
  member := pending_perm hperm d ▸ h.member
  signaling pc hpc := h.signaling pc (hperm.mem_iff.mpr hpc)
  failed := pending_perm hperm d ▸ h.failed
  settled := h.settled
  indv := h.indv
  merged idx objs hpc := h.merged idx objs (hperm.mem_iff.mpr hpc)

/-! ## One row and one place at a time -/

/-- What the invariant says of one row, by the links that are pending. -/
structure SettledRow (d : SyncDevice) (links : ℕ → ℕ → ℕ) (idx : ℕ) : Prop where
  target : ∀ child, 0 < links child idx → (d.table idx).type = .group ∧
    ((d.table idx).state ≠ .invalid ∨ d.rowLocked idx = true)
  member : d.Live idx → ∀ child ∈ d.members idx,
    (d.table child).type = .indv ∧ (d.table child).state ≠ .invalid ∧
      (links child idx = 0 → (d.table child).state.signaled = true)
  failed : d.Live idx → ((d.table idx).state.failed = true ↔
    ∃ child ∈ d.members idx, links child idx = 0 ∧ (d.table child).state.failed = true)
  settled : d.Live idx → d.rowLocked idx = false → (d.table idx).remaining = 0 →
    (d.table idx).state ≠ .active
  indv : (d.table idx).type = .indv → (d.table idx).remaining = 0

/-- What the invariant says of one place. -/
structure SettledPc (d : SyncDevice) (pc : SyncPc) : Prop where
  noDestroy : pc.destroys = false
  signaling : ∀ obj status, pc.signals = some (obj, status) →
    (d.table obj).type = .indv ∧ (d.table obj).state = status
  merged : ∀ idx objs, pc = .merged idx objs →
    d.Live idx ∧ d.rowLocked idx = false ∧ d.members idx = objs

structure SyncDevice.SameAt (d d' : SyncDevice) (idx : ℕ) : Prop where
  type : (d'.table idx).type = (d.table idx).type
  state : (d'.table idx).state = (d.table idx).state
  remaining : (d'.table idx).remaining = (d.table idx).remaining
  rowLocked : d'.rowLocked idx = d.rowLocked idx
  members : d'.members idx = d.members idx

section Split

variable {d d' : SyncDevice} {pc pc' : SyncPc} {pcs : List SyncPc} {idx : ℕ}
  {links links' : ℕ → ℕ → ℕ}

theorem Settled.row (h : Settled d pcs) (idx : ℕ) : SettledRow d (pending d pcs) idx where
  target child := h.target child idx
  member hlive child := h.member idx child hlive
  failed := h.failed idx
  settled := h.settled idx
  indv := h.indv idx

theorem Settled.place (h : Settled d pcs) (hpc : pc ∈ pcs) : SettledPc d pc where
  noDestroy := h.noDestroy pc hpc
  signaling := h.signaling pc hpc
  merged idx objs heq := h.merged idx objs (heq ▸ hpc)

theorem Settled.of_rows (hrows : ∀ idx, SettledRow d (pending d pcs) idx)
    (hpcs : ∀ pc ∈ pcs, SettledPc d pc) : Settled d pcs where
  noDestroy pc hpc := (hpcs pc hpc).noDestroy
  target child parent := (hrows parent).target child
  member parent child hlive := (hrows parent).member hlive child
  signaling pc hpc := (hpcs pc hpc).signaling
  failed parent := (hrows parent).failed
  settled parent := (hrows parent).settled
  indv obj := (hrows obj).indv
  merged idx objs hpc := (hpcs _ hpc).merged idx objs rfl

theorem SyncDevice.SameAt.of_table (htable : d'.table idx = d.table idx)
    (hlock : d'.rowLocked idx = d.rowLocked idx) (hmembers : d'.members idx = d.members idx) :
    d.SameAt d' idx :=
  ⟨by rw [htable], by rw [htable], by rw [htable], hlock, hmembers⟩

theorem SyncDevice.SameAt.setRow {obj : ℕ} (hne : idx ≠ obj) (row : SyncRow) :
    d.SameAt (d.setRow obj row) idx :=
  .of_table (setRow_table_of_ne hne) rfl rfl

theorem SyncDevice.SameAt.live (h : d.SameAt d' idx) : d'.Live idx ↔ d.Live idx := by
  rw [SyncDevice.Live, SyncDevice.Live, h.type, h.state]

theorem SettledRow.same (h : SettledRow d links idx) (hsame : d.SameAt d' idx)
    (hchild : d.Live idx → ∀ child ∈ d.members idx, d.SameAt d' child)
    (hlinks : ∀ child, links' child idx = links child idx) : SettledRow d' links' idx where
  target child hpos := by
    rw [hlinks] at hpos
    rw [hsame.type, hsame.state, hsame.rowLocked]
    exact h.target child hpos
  member hlive child hmem := by
    rw [hsame.live] at hlive
    rw [hsame.members] at hmem
    rw [(hchild hlive child hmem).type, (hchild hlive child hmem).state, hlinks]
    exact h.member hlive child hmem
  failed hlive := by
    rw [hsame.live] at hlive
    rw [hsame.state, hsame.members, h.failed hlive]
    refine exists_congr fun child => and_congr_right fun hmem => ?_
    rw [hlinks, (hchild hlive child hmem).state]
  settled hlive hunlocked := by
    rw [hsame.live] at hlive
    rw [hsame.rowLocked] at hunlocked
    rw [hsame.remaining, hsame.state]
    exact h.settled hlive hunlocked
  indv := by
    rw [hsame.type, hsame.remaining]
    exact h.indv

theorem SettledPc.same (h : SettledPc d pc)
    (hobj : ∀ obj status, pc.signals = some (obj, status) → d.SameAt d' obj)
    (hmerged : ∀ idx objs, pc = .merged idx objs → d.SameAt d' idx) : SettledPc d' pc where
  noDestroy := h.noDestroy
  signaling obj status hsignals := by
    rw [(hobj obj status hsignals).type, (hobj obj status hsignals).state]
    exact h.signaling obj status hsignals
  merged idx objs hpc := by
    have hsame := hmerged idx objs hpc
    rw [hsame.live, hsame.rowLocked, hsame.members]
    exact h.merged idx objs hpc

theorem Settled.same (h : Settled d (pc :: pcs)) (hsame : ∀ idx, d.SameAt d' idx)
    (hpending : pending d' (pc' :: pcs) = pending d (pc :: pcs)) (hpc' : SettledPc d pc') :
    Settled d' (pc' :: pcs) := by
  have hkept {pc : SyncPc} (hpc : SettledPc d pc) : SettledPc d' pc :=
    hpc.same (fun obj _ _ => hsame obj) fun idx _ _ => hsame idx
  refine .of_rows (fun idx => ?_) (forall_mem_cons.mpr ⟨hkept hpc', fun other hmem => ?_⟩)
  · exact (h.row idx).same (hsame idx) (fun _ child _ => hsame child) fun _ => by rw [hpending]
  · exact hkept (h.place (mem_cons_of_mem _ hmem))

theorem SyncPc.signaled_of_signals {obj : ℕ} {status : SyncState} (hwf : pc.WellFormed)
    (hsignals : pc.signals = some (obj, status)) : status.signaled = true := by
  cases pc with
  | signalSynx obj' status' cause' =>
    cases hsignals
    exact hwf
  | signalParents child status' cause' parents =>
    cases hsignals
    exact hwf
  | _ => cases hsignals

theorem SyncDevice.Live.not_indv (hlive : d.Live idx) (hindv : (d.table idx).type = .indv) :
    (d.table idx).state = .invalid :=
  absurd (hlive.1.symm.trans hindv) SyncType.noConfusion

theorem Settled.step (h : Settled d (pc :: pcs)) (hwf : ∀ other ∈ pcs, other.WellFormed)
    (hsame : ∀ i ≠ idx, d.SameAt d' i)
    (hidx : (d.table idx).type = .indv → (d.table idx).state = .invalid)
    (hpending : ∀ child parent, parent ≠ idx →
      pending d' (pc' :: pcs) child parent = pending d (pc :: pcs) child parent)
    (hrow : SettledRow d' (pending d' (pc' :: pcs)) idx)
    (hmerged : ∀ objs, .merged idx objs ∈ pcs →
      d'.Live idx ∧ d'.rowLocked idx = false ∧ d'.members idx = objs)
    (hpc' : SettledPc d' pc') : Settled d' (pc' :: pcs) := by
  have hne : ∀ obj, (d.table obj).type = .indv → (d.table obj).state ≠ .invalid → obj ≠ idx := by
    intro obj htype hvalid heq
    subst heq
    exact hvalid (hidx htype)
  refine .of_rows (fun i => ?_) (forall_mem_cons.mpr ⟨hpc', fun other hmem => ?_⟩)
  · by_cases hi : i = idx
    · subst hi
      exact hrow
    · refine (h.row i).same (hsame i hi) (fun hlive child hmem => ?_) fun child =>
        hpending child i hi
      obtain ⟨htype, hvalid, -⟩ := h.member i child hlive hmem
      exact hsame child (hne child htype hvalid)
  · have hother := h.place (mem_cons_of_mem _ hmem)
    refine ⟨hother.noDestroy, fun obj status hsignals => ?_, fun i objs hpc => ?_⟩
    · obtain ⟨htype, hstate⟩ := hother.signaling obj status hsignals
      have hsignaled := SyncPc.signaled_of_signals (hwf other hmem) hsignals
      have hobj := hsame obj (hne obj htype (hstate ▸ SyncState.ne_invalid_of_signaled hsignaled))
      rw [hobj.type, hobj.state]
      exact ⟨htype, hstate⟩
    · by_cases hi : i = idx
      · subst hi
        exact hmerged objs (hpc ▸ hmem)
      · rw [(hsame i hi).live, (hsame i hi).rowLocked, (hsame i hi).members]
        exact hother.merged i objs hpc

end Split

/-! ## Sections that leave the states alone -/

structure SyncRow.SameStates (row row' : SyncRow) : Prop where
  type : row'.type = row.type
  state : row'.state = row.state
  remaining : row'.remaining = row.remaining
  parentsList : row'.parentsList = row.parentsList

structure SyncDevice.SameStates (d d' : SyncDevice) : Prop where
  rows : ∀ idx, (d.table idx).SameStates (d'.table idx)
  rowLocked : d'.rowLocked = d.rowLocked
  members : d'.members = d.members

theorem SyncRow.SameStates.refl (row : SyncRow) : row.SameStates row := ⟨rfl, rfl, rfl, rfl⟩

section Still

variable {pc : SyncPc} (h : pc.still = true)
include h

theorem SyncPc.destroys_still : pc.destroys = false := by
  cases pc with
  | enter op => cases op <;> first | rfl | cases h
  | _ => first | rfl | cases h

theorem SyncPc.signals_still : pc.signals = none := by
  cases pc <;> first | rfl | cases h

theorem SyncPc.carries_still : pc.carries = [] := by
  cases pc <;> first | rfl | cases h

theorem SettledPc.still (d : SyncDevice) : SettledPc d pc where
  noDestroy := pc.destroys_still h
  signaling obj status hsignals := by
    rw [pc.signals_still h] at hsignals
    cases hsignals
  merged idx objs hpc := by
    rw [hpc] at h
    cases h

end Still

section Front

variable {d d' : SyncDevice} {pc pc' : SyncPc} {pcs : List SyncPc}

theorem SyncDevice.SameStates.setRow {obj : ℕ} {row : SyncRow}
    (hrow : (d.table obj).SameStates row) : d.SameStates (d.setRow obj row) where
  rows idx := by
    by_cases hidx : idx = obj
    · subst hidx
      rw [setRow_table_self]
      exact hrow
    · rw [setRow_table_of_ne hidx]
      exact .refl _
  rowLocked := rfl
  members := rfl

theorem SyncDevice.SameStates.sameAt (hsame : d.SameStates d') (idx : ℕ) : d.SameAt d' idx where
  type := (hsame.rows idx).type
  state := (hsame.rows idx).state
  remaining := (hsame.rows idx).remaining
  rowLocked := congrFun hsame.rowLocked idx
  members := congrFun hsame.members idx

theorem Settled.device (h : Settled d (pc :: pcs)) (hsame : d.SameStates d') :
    Settled d' (pc :: pcs) := by
  refine h.same hsame.sameAt ?_ (h.place mem_cons_self)
  funext child parent
  rw [pending, pending, (hsame.rows child).parentsList]

theorem Settled.still (h : Settled d (pc :: pcs)) (hcarries : pc.carries = [])
    (hpc' : pc'.still = true) : Settled d (pc' :: pcs) := by
  refine h.same (fun idx => .of_table rfl rfl rfl) ?_ (.still hpc' d)
  funext child parent
  simp only [pending, carried_cons, hcarries, pc'.carries_still hpc']

end Front

/-! ## Signals of individual objects -/

section Signals

variable {d : SyncDevice} {pc : SyncPc} {pcs : List SyncPc} {obj cause : ℕ}
  {status : SyncState} {row : SyncRow}

theorem Settled.signaled (h : Settled d (pc :: pcs)) (hwf : ∀ other ∈ pcs, other.WellFormed)
    (hpc : pc.carries = []) (hactive : (d.table obj).state = .active)
    (hindv : (d.table obj).type = .indv) (hsignaled : status.signaled = true)
    (htype : row.type = .indv) (hstate : row.state = status)
    (hremaining : row.remaining = (d.table obj).remaining)
    (hparents : row.parentsList = (d.table obj).parentsList) :
    Settled (d.setRow obj row) (.signalSynx obj status cause :: pcs) := by
  have hpending : pending (d.setRow obj row) (.signalSynx obj status cause :: pcs) =
      pending d (pc :: pcs) := by
    funext child parent
    rw [pending, parentsList_setRow hparents, pending, carried_cons, carried_cons, hpc]
    rfl
  have hother : ∀ idx, idx ≠ obj → (d.setRow obj row).table idx = d.table idx :=
    fun idx => setRow_table_of_ne
  have hself : (d.setRow obj row).table obj = row := setRow_table_self
  have hlive : ∀ idx, (d.setRow obj row).Live idx → idx ≠ obj ∧ d.Live idx := by
    intro idx hidx
    have hne : idx ≠ obj := by
      intro heq
      rw [SyncDevice.Live, heq, hself, htype] at hidx
      cases hidx.1
    rw [SyncDevice.Live, hother idx hne] at hidx
    exact ⟨hne, hidx⟩
  have hnot : ∀ parent, d.Live parent → obj ∈ d.members parent →
      pending d (pc :: pcs) obj parent ≠ 0 := by
    intro parent hparent hmem hzero
    have hdone := (h.member parent obj hparent hmem).2.2 hzero
    rw [hactive] at hdone
    cases hdone
  have hactive' : (d.table obj).state.signaled = false := by rw [hactive]; rfl
  have hsame : ∀ i ≠ obj, d.SameAt (d.setRow obj row) i := fun i hi => .setRow hi row
  refine .of_rows (fun i => ?_) (forall_mem_cons.mpr ⟨⟨rfl, ?_, ?_⟩, fun other hmem => ?_⟩)
  · rw [hpending]
    by_cases hi : i = obj
    · subst hi
      constructor
      · intro child hpos
        exact absurd ((h.target child i hpos).1.symm.trans hindv) (by decide)
      · exact fun hparent => absurd rfl (hlive i hparent).1
      · exact fun hparent => absurd rfl (hlive i hparent).1
      · exact fun hparent => absurd rfl (hlive i hparent).1
      · rw [hself, hremaining]
        exact fun _ => h.indv i hindv
    · constructor
      · rw [hother i hi]
        exact fun child => h.target child i
      · intro hparent child hmem
        have hmember := h.member i child (hlive i hparent).2 hmem
        by_cases hchild : child = obj
        · subst hchild
          rw [hself, hstate]
          exact ⟨htype, SyncState.ne_invalid_of_signaled hsignaled, fun _ => hsignaled⟩
        · rw [hother child hchild]
          exact hmember
      · intro hparent
        have hold := (hlive i hparent).2
        rw [hother i hi, h.failed i hold]
        refine exists_congr fun child => and_congr_right fun hmem => and_congr_right fun hzero => ?_
        rw [hother child (fun heq => hnot i hold (heq ▸ hmem) (heq ▸ hzero))]
      · rw [hother i hi]
        exact fun hparent => h.settled i (hlive i hparent).2
      · rw [hother i hi]
        exact h.indv i
  · intro obj' status' hsignals
    cases hsignals
    rw [hself]
    exact ⟨htype, hstate⟩
  · intro idx objs hmerged
    cases hmerged
  · have hpc := h.place (mem_cons_of_mem _ hmem)
    refine hpc.same (fun obj' status' hsignals => hsame obj' ?_) fun i objs hmerged => hsame i ?_
    · intro heq
      have hdone := (hpc.signaling obj' status' hsignals).2
      rw [← heq, hdone, SyncPc.signaled_of_signals (hwf other hmem) hsignals] at hactive'
      cases hactive'
    · intro heq
      have hgroup := (hpc.merged i objs hmerged).1.1
      rw [heq, hindv] at hgroup
      cases hgroup

theorem Settled.takeParents (h : Settled d (pc :: pcs)) (hpc : pc.carries = [])
    (hindv : (d.table obj).type = .indv) (hstate : (d.table obj).state = status) :
    Settled (d.takeParents obj)
      (.signalParents obj status cause (d.table obj).parentsList :: pcs) := by
  refine h.same (fun idx => ?_) (pending_takeParents hpc obj) ⟨rfl, fun obj' status' hsignals => ?_,
    fun idx objs hmerged => by cases hmerged⟩
  · have htable := takeParents_table d obj idx
    exact ⟨by rw [htable], by rw [htable], by rw [htable], rfl, rfl⟩
  · cases hsignals
    exact ⟨hindv, hstate⟩

end Signals

/-! ## The update of a parent -/

section Parent

variable {d : SyncDevice} {pcs : List SyncPc} {child parent cause : ℕ} {status : SyncState}
  {parents : List ℕ} {row : SyncRow}

theorem updateParentState_some {row row' : SyncRow}
    (h : row.updateParentState status = some row') :
    row' = { row with state := row'.state } ∧
      (row'.state = status ∨ row'.state = row.state ∧ row.state.failed = true) ∧
      (row.state.failed = true → row'.state = row.state) := by
  rw [SyncRow.updateParentState] at h
  split at h
  · rename_i hstate
    cases h
    exact ⟨rfl, .inl rfl, fun hfailed => by rw [hstate] at hfailed; cases hfailed⟩
  · rename_i hstate
    cases h
    exact ⟨rfl, .inl rfl, fun hfailed => by rw [hstate] at hfailed; cases hfailed⟩
  · rename_i hstate
    cases h
    exact ⟨rfl, .inr ⟨rfl, by rw [hstate]; rfl⟩, fun _ => rfl⟩
  · rename_i hstate
    cases h
    exact ⟨rfl, .inr ⟨rfl, by rw [hstate]; rfl⟩, fun _ => rfl⟩
  · cases h

theorem updateParentState_isSome {row : SyncRow} (hvalid : row.state ≠ .invalid)
    (status : SyncState) : ∃ row', row.updateParentState status = some row' := by
  rw [SyncRow.updateParentState]
  split
  · exact ⟨_, rfl⟩
  · exact ⟨_, rfl⟩
  · exact ⟨_, rfl⟩
  · exact ⟨_, rfl⟩
  · rename_i hinvalid
    exact absurd hinvalid hvalid

theorem SyncState.signaled_of_failed {state : SyncState} (h : state.failed = true) :
    state.signaled = true := by
  cases state <;> first | rfl | cases h

theorem Settled.live_parent
    (h : Settled d (.signalParents child status cause (parent :: parents) :: pcs))
    (hlocked : d.rowLocked parent = false) : d.Live parent := by
  have hpos : 0 < pending d (.signalParents child status cause (parent :: parents) :: pcs)
      child parent := by
    rw [pending_countDown, if_pos ⟨rfl, rfl⟩]
    exact Nat.succ_pos _
  have htarget := h.target child parent hpos
  refine ⟨htarget.1, htarget.2.resolve_right ?_⟩
  rw [hlocked]
  exact Bool.false_ne_true

theorem Settled.propagate
    (h : Settled d (.signalParents child status cause (parent :: parents) :: pcs))
    (hlinked : Linked d (.signalParents child status cause (parent :: parents) :: pcs))
    (hsignaled : status.signaled = true) (hlocked : d.rowLocked parent = false)
    (hupdate : ({ d.table parent with
      remaining := (d.table parent).remaining - 1 } : SyncRow).updateParentState status =
        some row) :
    Settled (d.setRow parent row) (.signalParents child status cause parents :: pcs) := by
  have hlive := h.live_parent hlocked
  obtain ⟨hrow, hstate, hsticky⟩ := updateParentState_some hupdate
  have hself : (d.setRow parent row).table parent = row := setRow_table_self
  have hother : ∀ idx, idx ≠ parent → (d.setRow parent row).table idx = d.table idx :=
    fun idx => setRow_table_of_ne
  have htype : row.type = .group := by
    rw [hrow]
    exact hlive.1
  have hrowSignaled : row.state.signaled = true := by
    rcases hstate with hstate | hstate
    · rw [hstate]
      exact hsignaled
    · rw [hstate.1]
      exact SyncState.signaled_of_failed hstate.2
  have hvalid := SyncState.ne_invalid_of_signaled hrowSignaled
  have hpending : ∀ c p,
      pending d (.signalParents child status cause (parent :: parents) :: pcs) c p =
      pending (d.setRow parent row) (.signalParents child status cause parents :: pcs) c p +
        if c = child ∧ p = parent then 1 else 0 := by
    intro c p
    rw [pending_countDown, pending, countDown_table]
    rw [pending, parentsList_setRow]
    rw [hrow]
  have hlive' : (d.setRow parent row).Live parent := by
    rw [SyncDevice.Live, hself]
    exact ⟨htype, hvalid⟩
  have hchild := h.signaling _ mem_cons_self child status rfl
  have hmembers := fun c => h.member parent c hlive
  have hchildren : ∀ c, (d.table c).type = .indv → (d.setRow parent row).table c = d.table c := by
    intro c hc
    apply hother
    intro heq
    rw [heq, hlive.1] at hc
    cases hc
  refine h.step (forall_mem_cons.mp hlinked.wellFormed).2 (fun i hi => .setRow hi row)
    hlive.not_indv (fun c p hp => ?_) ⟨?_, ?_, ?_, ?_, ?_⟩ (fun objs hmem => ?_) ⟨rfl, ?_, ?_⟩
  · rw [hpending, if_neg (fun hboth => hp hboth.2), Nat.add_zero]
  · intro c hpos
    rw [hself]
    exact ⟨htype, .inl hvalid⟩
  · intro _ c hmem
    obtain ⟨hc, hcvalid, hdone⟩ := hmembers c hmem
    rw [hchildren c hc]
    refine ⟨hc, hcvalid, fun hzero => ?_⟩
    by_cases hcc : c = child
    · rw [hcc, hchild.2]
      exact hsignaled
    · apply hdone
      rw [hpending, if_neg (fun hboth => hcc hboth.1), hzero]
  · intro _
    have hfailed := h.failed parent hlive
    rw [hself]
    constructor
    · intro hrowFailed
      rcases hstate with hstate | hstate
      · have hone := hpending child parent
        have honce := hlinked.once child parent
        rw [if_pos ⟨rfl, rfl⟩] at hone
        have hmem : child ∈ d.members parent := hlinked.member child parent hlive (by omega)
        refine ⟨child, hmem, by omega, ?_⟩
        rw [hchildren child hchild.1, hchild.2, ← hstate]
        exact hrowFailed
      · obtain ⟨c, hmem, hzero, hc⟩ := hfailed.mp hstate.2
        rw [hpending] at hzero
        refine ⟨c, hmem, Nat.eq_zero_of_add_eq_zero_right hzero, ?_⟩
        rw [hchildren c (hmembers c hmem).1]
        exact hc
    · rintro ⟨c, hmem, hzero, hc⟩
      rw [hchildren c (hmembers c hmem).1] at hc
      by_cases heq : c = child
      · rcases hstate with hstate | hstate
        · rw [hstate, ← hchild.2, ← heq]
          exact hc
        · rw [hstate.1]
          exact hstate.2
      · have hold := hfailed.mpr
          ⟨c, hmem, by rw [hpending, hzero, if_neg (fun hboth => heq hboth.1)], hc⟩
        rw [hsticky hold]
        exact hold
  · intro _ _ _ hactive
    rw [hself] at hactive
    rw [hactive] at hrowSignaled
    cases hrowSignaled
  · rw [hself, htype]
    exact fun hindv => SyncType.noConfusion hindv
  · exact ⟨hlive', (h.merged parent objs (mem_cons_of_mem _ hmem)).2⟩
  · intro obj' status' hsignals
    cases hsignals
    rw [hchildren child hchild.1]
    exact hchild
  · intro idx objs hmerged
    cases hmerged

end Parent

/-! ## New rows -/

section Rows

variable {d : SyncDevice} {pc pc' : SyncPc} {pcs : List SyncPc} {idx : ℕ} {row : SyncRow}
  {new : NewObj}

theorem Settled.free_row (h : Settled d pcs) (hinvalid : (d.table idx).state = .invalid)
    (hlocked : d.rowLocked idx = false) (child : ℕ) : pending d pcs child idx = 0 := by
  apply Nat.eq_zero_of_not_pos
  intro hpos
  rcases (h.target child idx hpos).2 with hvalid | hheld
  · exact hvalid hinvalid
  · rw [hlocked] at hheld
    cases hheld

variable {objs : List ℕ}

/-- A merge that begins finds no link to its row, so it does not count what is not its own. -/
theorem Settled.takesFreshRow (h : Settled d (.owning idx (.group objs) :: pcs))
    (hinvalid : (d.table idx).state = .invalid) (hlocked : d.rowLocked idx = false) :
    (SyncPc.owning idx (.group objs)).takesFreshRow (.owning idx (.group objs) :: pcs) = true := by
  rw [SyncPc.takesFreshRow, all_eq_true]
  intro link hlink
  apply bne_iff_ne.mpr
  intro heq
  have hnone := h.free_row hinvalid hlocked link.1
  rw [pending, Nat.add_eq_zero_iff] at hnone
  exact count_eq_zero.mp hnone.2 (heq ▸ hlink)

theorem Settled.newRow (h : Settled d (.owning idx new :: pcs))
    (hlinked : Linked d (.owning idx new :: pcs)) (hlocked : d.rowLocked idx = false)
    (hremaining : row.remaining = 0)
    (hparents : row.parentsList = []) (htype : row.type = .indv) :
    Settled (d.setRow idx row) (.created idx :: pcs) := by
  have hinvalid := (hlinked.sole_owner (beq_self_eq_true idx)).1
  have hself : (d.setRow idx row).table idx = row := setRow_table_self
  have hpending : pending (d.setRow idx row) (.created idx :: pcs) =
      pending d (.owning idx new :: pcs) := by
    funext child parent
    rw [pending, hlinked.parentsList_init hinvalid hparents]
    rfl
  have hlive : ¬(d.setRow idx row).Live idx := by
    rw [SyncDevice.Live, hself, htype]
    exact fun hgroup => SyncType.noConfusion hgroup.1
  refine h.step (forall_mem_cons.mp hlinked.wellFormed).2 (fun i hi => .setRow hi row)
    (fun _ => hinvalid) (fun child parent _ => by rw [hpending])
    ⟨fun child hpos => ?_, (absurd · hlive), (absurd · hlive), (absurd · hlive), fun _ => ?_⟩
    (fun objs hmem => ?_) (.still rfl _)
  · rw [hpending, h.free_row hinvalid hlocked] at hpos
    exact absurd hpos (Nat.lt_irrefl 0)
  · rw [hself]
    exact hremaining
  · exact absurd hinvalid (h.merged idx objs (mem_cons_of_mem _ hmem)).1.2

theorem Settled.group (h : Settled d (.owning idx (.group objs) :: pcs))
    (hlinked : Linked d (.owning idx (.group objs) :: pcs)) (hlocked : d.rowLocked idx = false)
    (hactive : row.state = .active) (hparents : row.parentsList = []) (htype : row.type = .group) :
    Settled (((d.setRow idx row).setLock idx true).setMembers idx [])
      (.mergeLink idx [] objs :: pcs) := by
  have hinvalid := (hlinked.sole_owner (beq_self_eq_true idx)).1
  have hself : (((d.setRow idx row).setLock idx true).setMembers idx []).table idx = row :=
    setRow_table_self
  have hmembers : (((d.setRow idx row).setLock idx true).setMembers idx []).members idx = [] :=
    setMembers_members_self
  have hlock : (((d.setRow idx row).setLock idx true).setMembers idx []).rowLocked idx = true :=
    setLock_rowLocked_self
  have hpending : pending (((d.setRow idx row).setLock idx true).setMembers idx [])
      (.mergeLink idx [] objs :: pcs) = pending d (.owning idx (.group objs) :: pcs) := by
    funext child parent
    exact congrArg (·.count parent + (carried pcs).count (child, parent))
      (hlinked.parentsList_init hinvalid hparents child)
  refine h.step (forall_mem_cons.mp hlinked.wellFormed).2 (fun i hi => ?_)
    (fun _ => hinvalid) (fun child parent _ => by rw [hpending])
    ⟨fun child hpos => ?_, fun _ child hmem => ?_, fun _ => ?_, fun _ hunlocked => ?_, ?_⟩
    (fun objs' hmem => ?_) (.still rfl _)
  · exact .of_table (setRow_table_of_ne hi)
      (setLock_rowLocked_of_ne hi)
      (setMembers_members_of_ne hi)
  · rw [hpending, h.free_row hinvalid hlocked] at hpos
    exact absurd hpos (Nat.lt_irrefl 0)
  · rw [hmembers] at hmem
    exact absurd hmem not_mem_nil
  · rw [hself, hactive, hmembers]
    refine iff_of_false Bool.false_ne_true fun hex => ?_
    obtain ⟨child, hmem, -⟩ := hex
    exact not_mem_nil hmem
  · rw [hlock] at hunlocked
    cases hunlocked
  · rw [hself, htype]
    exact fun hindv => SyncType.noConfusion hindv
  · exact absurd hinvalid (h.merged idx objs' (mem_cons_of_mem _ hmem)).1.2

end Rows

/-! ## The loop of a merge -/

section Merge

variable {d : SyncDevice} {pcs : List SyncPc} {idx child : ℕ} {linked todo : List ℕ}
  {row : SyncRow}

theorem SyncDevice.Live.ne_indv (hlive : d.Live idx) {obj : ℕ}
    (hindv : (d.table obj).type = .indv) : obj ≠ idx := by
  intro heq
  rw [heq, hlive.1] at hindv
  cases hindv

theorem Settled.merged_ne (h : Settled d pcs) (hlocked : d.rowLocked idx = true) {other : ℕ}
    {objs : List ℕ} (hmem : .merged other objs ∈ pcs) : other ≠ idx := by
  intro heq
  have hunlocked := (h.merged other objs hmem).2.1
  rw [heq, hlocked] at hunlocked
  cases hunlocked

theorem Settled.skip (h : Settled d (.mergeLink idx linked (child :: todo) :: pcs))
    (hlinked : Linked d (.mergeLink idx linked (child :: todo) :: pcs))
    (hindv : (d.table child).type = .indv) (hsignaled : (d.table child).state.signaled = true)
    (hrow : row = { d.table idx with state := row.state }) (hstate : row.state =
      if (d.table child).state.failed then (d.table child).state else (d.table idx).state) :
    Settled ((d.setMembers idx (linked ++ [child])).setRow idx row)
      (.mergeLink idx (linked ++ [child]) todo :: pcs) := by
  obtain ⟨hlive, hmembers⟩ := hlinked.merging idx linked (child :: todo) mem_cons_self
  have hlocked := (hlinked.sole_holder (beq_self_eq_true idx)).1
  have hself : ((d.setMembers idx (linked ++ [child])).setRow idx row).table idx = row :=
    setRow_table_self
  have hother : ∀ other, other ≠ idx →
      ((d.setMembers idx (linked ++ [child])).setRow idx row).table other = d.table other :=
    fun other => setRow_table_of_ne
  have hmemSelf : ((d.setMembers idx (linked ++ [child])).setRow idx row).members idx =
      linked ++ [child] := setMembers_members_self
  have hvalid : row.state ≠ .invalid := by
    rw [hstate]
    split
    · exact SyncState.ne_invalid_of_signaled hsignaled
    · exact hlive.2
  have htype : row.type = .group := by
    rw [hrow]
    exact hlive.1
  have hpending : pending ((d.setMembers idx (linked ++ [child])).setRow idx row)
      (.mergeLink idx (linked ++ [child]) todo :: pcs) =
      pending d (.mergeLink idx linked (child :: todo) :: pcs) := by
    funext c p
    have hparents : row.parentsList =
        ((d.setMembers idx (linked ++ [child])).table idx).parentsList := by rw [hrow]; rfl
    rw [pending, parentsList_setRow hparents]
    rfl
  have hchildRow := hother child (hlive.ne_indv hindv)
  have hold : ∀ c ∈ linked, c ≠ idx := by
    intro c hc
    exact hlive.ne_indv (h.member idx c hlive (hmembers ▸ hc)).1
  have hzero := hlinked.todo_not_pending
  refine h.step (forall_mem_cons.mp hlinked.wellFormed).2 (fun i hi => ?_) hlive.not_indv
    (fun c p _ => by rw [hpending])
    ⟨fun c hpos => ?_, fun _ c hmem => ?_, fun _ => ?_, fun _ hunlocked => ?_, ?_⟩
    (fun objs hmem => ?_) (.still rfl _)
  · exact .of_table (hother i hi) rfl (setMembers_members_of_ne hi)
  · rw [hself]
    exact ⟨htype, .inl hvalid⟩
  · rw [hpending]
    rw [hmemSelf] at hmem
    rcases mem_append.mp hmem with hmem | hmem
    · rw [hother c (hold c hmem)]
      exact h.member idx c hlive (hmembers ▸ hmem)
    · rw [mem_singleton.mp hmem, hchildRow]
      exact ⟨hindv, SyncState.ne_invalid_of_signaled hsignaled, fun _ => hsignaled⟩
  · have hfailed := h.failed idx hlive
    rw [hpending, hself, hmemSelf, hstate]
    rw [hmembers] at hfailed
    constructor
    · intro hrowFailed
      split at hrowFailed
      · exact ⟨child, mem_append_right _ mem_cons_self, hzero,
          hchildRow.symm ▸ hrowFailed⟩
      · obtain ⟨c, hmem, hdone, hc⟩ := hfailed.mp hrowFailed
        exact ⟨c, mem_append_left _ hmem, hdone, (hother c (hold c hmem)).symm ▸ hc⟩
    · rintro ⟨c, hmem, hdone, hc⟩
      split
      · rename_i hchildFailed
        exact hchildFailed
      · rename_i hchildGood
        rcases mem_append.mp hmem with hmem | hmem
        · rw [hother c (hold c hmem)] at hc
          exact hfailed.mpr ⟨c, hmem, hdone, hc⟩
        · rw [mem_singleton.mp hmem, hchildRow] at hc
          exact absurd hc hchildGood
  · exact absurd (hunlocked.symm.trans hlocked) Bool.false_ne_true
  · rw [hself, htype]
    exact fun hobj => SyncType.noConfusion hobj
  · exact absurd rfl (h.merged_ne hlocked (mem_cons_of_mem _ hmem))

theorem Settled.link (h : Settled d (.mergeLink idx linked (child :: todo) :: pcs))
    (hlinked : Linked d (.mergeLink idx linked (child :: todo) :: pcs))
    (hindv : (d.table child).type = .indv) (hvalid : (d.table child).state ≠ .invalid) :
    Settled ((d.setMembers idx (linked ++ [child])).addLink idx child)
      (.mergeLink idx (linked ++ [child]) todo :: pcs) := by
  obtain ⟨hlive, hmembers⟩ := hlinked.merging idx linked (child :: todo) mem_cons_self
  have hlocked := (hlinked.sole_holder (beq_self_eq_true idx)).1
  have hne := hlive.ne_indv hindv
  have htable := addLink_table (d := d.setMembers idx (linked ++ [child])) hne
  have hpending : ∀ c p, pending ((d.setMembers idx (linked ++ [child])).addLink idx child)
      (.mergeLink idx (linked ++ [child]) todo :: pcs) c p =
      pending d (.mergeLink idx linked (child :: todo) :: pcs) c p +
        if c = child ∧ p = idx then 1 else 0 := pending_addLink hne
  have hmemSelf : ((d.setMembers idx (linked ++ [child])).addLink idx child).members idx =
      linked ++ [child] := setMembers_members_self
  have hsame : ∀ i ≠ idx,
      d.SameAt ((d.setMembers idx (linked ++ [child])).addLink idx child) i := by
    intro i hi
    refine ⟨?_, ?_, ?_, rfl, setMembers_members_of_ne hi⟩
    · rw [htable]
      rfl
    · rw [htable]
      rfl
    · rw [htable]
      exact if_neg hi
  have hlinks : ∀ c, pending ((d.setMembers idx (linked ++ [child])).addLink idx child)
      (.mergeLink idx (linked ++ [child]) todo :: pcs) c idx =
      pending d (.mergeLink idx linked (child :: todo) :: pcs) c idx +
        if c = child then 1 else 0 := by
    intro c
    rw [hpending]
    simp only [and_true]
  have hnew : ∀ c ∈ d.members idx, c ≠ child := by
    intro c hmem heq
    rw [hmembers, heq] at hmem
    have hnodup := (hlinked.wellFormed _ mem_cons_self).2.1
    exact (disjoint_of_nodup_append hnodup) hmem mem_cons_self
  have hold : ∀ c ∈ linked ++ [child], c ∈ d.members idx ∨ c = child := by
    intro c hmem
    rw [hmembers]
    exact (mem_append.mp hmem).imp_right mem_singleton.mp
  have htype : (((d.setMembers idx (linked ++ [child])).addLink idx child).table idx).type =
      .group := by
    rw [htable]
    exact hlive.1
  refine h.step (forall_mem_cons.mp hlinked.wellFormed).2 hsame hlive.not_indv
    (fun c p hp => ?_) ⟨fun c hpos => ⟨htype, .inl ?_⟩, fun _ c hmem => ?_, fun _ => ?_,
      fun _ hunlocked => ?_, fun hobj => ?_⟩ (fun objs hmem => ?_) (.still rfl _)
  · rw [hpending, if_neg (fun hboth => hp hboth.2), Nat.add_zero]
  · rw [htable]
    exact hlive.2
  · rw [hmemSelf] at hmem
    rw [htable, hlinks]
    rcases hold c hmem with hmem | heq
    · obtain ⟨hc, hcvalid, hdone⟩ := h.member idx c hlive hmem
      exact ⟨hc, hcvalid, fun hzero => hdone (Nat.eq_zero_of_add_eq_zero_right hzero)⟩
    · rw [heq]
      refine ⟨hindv, hvalid, fun hzero => ?_⟩
      rw [if_pos rfl] at hzero
      exact absurd hzero (Nat.succ_ne_zero _)
  · rw [hmemSelf]
    simp only [htable, hlinks]
    refine (h.failed idx hlive).trans ⟨?_, ?_⟩
    · rintro ⟨c, hmem, hzero, hc⟩
      refine ⟨c, mem_append_left _ (hmembers ▸ hmem), ?_, hc⟩
      rw [if_neg (hnew c hmem)]
      exact hzero
    · rintro ⟨c, hmem, hzero, hc⟩
      rcases hold c hmem with hmem | heq
      · exact ⟨c, hmem, Nat.eq_zero_of_add_eq_zero_right hzero, hc⟩
      · rw [if_pos heq] at hzero
        exact absurd hzero (Nat.succ_ne_zero _)
  · exact absurd (hunlocked.symm.trans hlocked) Bool.false_ne_true
  · exact absurd (htype.symm.trans hobj) SyncType.noConfusion
  · exact absurd rfl (h.merged_ne hlocked (mem_cons_of_mem _ hmem))

end Merge

/-! ## The end of a merge -/

section MergeEnd

variable {d : SyncDevice} {pc : SyncPc} {pcs : List SyncPc} {idx child : ℕ}
  {linked todo : List ℕ} {row : SyncRow}

theorem Settled.failLink (h : Settled d (.mergeLink idx linked (child :: todo) :: pcs))
    (hlinked : Linked d (.mergeLink idx linked (child :: todo) :: pcs))
    (hinvalid : row.state = .invalid) (htype : row.type = .group)
    (hparents : row.parentsList = []) :
    Settled (d.setRow idx row) (.mergeClean idx linked.reverse :: pcs) := by
  obtain ⟨hlive, -⟩ := hlinked.merging idx linked (child :: todo) mem_cons_self
  have hlocked := (hlinked.sole_holder (beq_self_eq_true idx)).1
  have hself : (d.setRow idx row).table idx = row := setRow_table_self
  have hpending : pending (d.setRow idx row) (.mergeClean idx linked.reverse :: pcs) =
      pending d (.mergeLink idx linked (child :: todo) :: pcs) := by
    funext c p
    rw [pending, parentsList_setRow (hparents.trans (hlinked.parentsList_of_live hlive).symm)]
    rfl
  have hdead : ¬(d.setRow idx row).Live idx := by
    rw [SyncDevice.Live, hself]
    exact fun hrow => hrow.2 hinvalid
  refine h.step (forall_mem_cons.mp hlinked.wellFormed).2 (fun i hi => .setRow hi row)
    hlive.not_indv (fun c p _ => by rw [hpending])
    ⟨fun c hpos => ?_, (absurd · hdead), (absurd · hdead), (absurd · hdead), fun hobj => ?_⟩
    (fun objs hmem => ?_) (.still rfl _)
  · rw [hself]
    exact ⟨htype, .inr hlocked⟩
  · rw [hself, htype] at hobj
    cases hobj
  · exact absurd rfl (h.merged_ne hlocked (mem_cons_of_mem _ hmem))

theorem Settled.unlink (h : Settled d (.mergeClean idx (child :: todo) :: pcs))
    (hlinked : Linked d (.mergeClean idx (child :: todo) :: pcs)) :
    Settled (d.unlinkParent child idx) (.mergeClean idx todo :: pcs) := by
  have hinvalid := (hlinked.sole_owner (beq_self_eq_true idx)).1
  have htable := unlinkParent_table d child idx
  have hpending : ∀ c p, p ≠ idx → pending (d.unlinkParent child idx)
      (.mergeClean idx todo :: pcs) c p = pending d (.mergeClean idx (child :: todo) :: pcs) c p :=
    fun c p => pending_unlinkParent rfl
  have hsame : ∀ i, d.SameAt (d.unlinkParent child idx) i := by
    intro i
    exact ⟨by rw [htable], by rw [htable], by rw [htable], rfl, rfl⟩
  have hdead : ¬(d.unlinkParent child idx).Live idx := by
    rw [(hsame idx).live]
    exact fun hlive => hlive.2 hinvalid
  refine h.step (forall_mem_cons.mp hlinked.wellFormed).2 (fun i _ => hsame i)
    (fun _ => hinvalid) hpending
    ⟨fun c hpos => ?_, (absurd · hdead), (absurd · hdead), (absurd · hdead), ?_⟩
    (fun objs hmem => ?_) (.still rfl _)
  · rw [htable]
    exact h.target c idx (Nat.lt_of_lt_of_le hpos (pending_unlinkParent_le rfl c idx))
  · rw [htable]
    exact h.indv idx
  · exact absurd hinvalid (h.merged idx objs (mem_cons_of_mem _ hmem)).1.2

theorem Settled.mergeEnd (h : Settled d (.mergeLink idx linked [] :: pcs))
    (hlinked : Linked d (.mergeLink idx linked [] :: pcs)) :
    Settled (d.mergeEnd idx linked).1 ((d.mergeEnd idx linked).2 :: pcs) := by
  obtain ⟨hlive, hmembers⟩ := hlinked.merging idx linked [] mem_cons_self
  have hlocked := (hlinked.sole_holder (beq_self_eq_true idx)).1
  obtain ⟨row, hrow⟩ : ∃ row : SyncRow, row = if (d.table idx).remaining = 0 ∧
      (d.table idx).state.failed = false then { d.table idx with state := .signaledSuccess }
    else d.table idx := ⟨_, rfl⟩
  have hdevice : d.mergeEnd idx linked = ((d.setRow idx row).setLock idx false,
      .merged idx linked) := by rw [hrow]; rfl
  have hkept : row = { d.table idx with state := row.state } := by
    rw [hrow]
    split <;> rfl
  have hvalid : row.state ≠ .invalid := by
    rw [hrow]
    split
    · exact SyncState.noConfusion
    · exact hlive.2
  have hfailedEq : row.state.failed = (d.table idx).state.failed := by
    rw [hrow]
    split
    · rename_i hdone
      exact hdone.2.symm
    · rfl
  have hself : ((d.setRow idx row).setLock idx false).table idx = row :=
    setRow_table_self
  have htype : row.type = .group := by
    rw [hkept]
    exact hlive.1
  have hpending : pending ((d.setRow idx row).setLock idx false) (.merged idx linked :: pcs) =
      pending d (.mergeLink idx linked [] :: pcs) := by
    funext c p
    have hparents : row.parentsList = (d.table idx).parentsList := by rw [hkept]
    exact congrArg (·.count p + (carried pcs).count (c, p)) (parentsList_setRow hparents c)
  have hlive' : ((d.setRow idx row).setLock idx false).Live idx := by
    rw [SyncDevice.Live, hself]
    exact ⟨htype, hvalid⟩
  have hsame : ∀ i ≠ idx, d.SameAt ((d.setRow idx row).setLock idx false) i := fun i hi =>
    .of_table (setRow_table_of_ne hi)
      (setLock_rowLocked_of_ne hi) rfl
  have hunlocked : ((d.setRow idx row).setLock idx false).rowLocked idx = false :=
    setLock_rowLocked_self
  rw [hdevice]
  refine h.step (forall_mem_cons.mp hlinked.wellFormed).2 hsame hlive.not_indv
    (fun c p _ => by rw [hpending])
    ⟨fun c hpos => ?_, fun _ c hmem => ?_, fun _ => ?_, fun _ _ hremaining => ?_, fun hobj => ?_⟩
    (fun objs hmem => ?_) ⟨rfl, fun _ _ hsignals => ?_, fun i objs hmerged => ?_⟩
  · rw [hself]
    exact ⟨htype, .inl hvalid⟩
  · have hmember := h.member idx c hlive hmem
    have hchild := hsame c (hlive.ne_indv hmember.1)
    rw [hpending, hchild.type, hchild.state]
    exact hmember
  · rw [hself, hfailedEq, hpending, h.failed idx hlive]
    refine exists_congr fun c => and_congr_right fun hmem => ?_
    rw [(hsame c (hlive.ne_indv (h.member idx c hlive hmem).1)).state]
  · rw [hself] at hremaining ⊢
    rw [hkept] at hremaining
    have hremaining' : (d.table idx).remaining = 0 := hremaining
    rw [hrow]
    split
    · exact SyncState.noConfusion
    · rename_i hnot
      rw [not_and, Bool.not_eq_false] at hnot
      have hfailed := hnot hremaining'
      intro hactive
      rw [hactive] at hfailed
      cases hfailed
  · rw [hself, htype] at hobj
    cases hobj
  · exact absurd rfl (h.merged_ne hlocked (mem_cons_of_mem _ hmem))
  · cases hsignals
  · cases hmerged
    exact ⟨hlive', hunlocked, hmembers⟩

end MergeEnd

/-! ## All sections -/

section Sections

variable {d : SyncDevice} {pc : SyncPc} {pcs : List SyncPc} {choice : SyncChoice}

theorem SyncDevice.SameObjects.sameStates {d' : SyncDevice} (h : d.SameObjects d') :
    d.SameStates d' where
  rows idx := by
    obtain ⟨callbacks, payloads, hrow⟩ := h.rows idx
    rw [hrow]
    exact ⟨rfl, rfl, rfl, rfl⟩
  rowLocked := h.rowLocked
  members := h.members

theorem Settled.finishSignal {obj cause : ℕ} {status : SyncState}
    (h : Settled d (.signalSynx obj status cause :: pcs)) :
    Settled (d.finishSignal obj status cause).1 ((d.finishSignal obj status cause).2 :: pcs) := by
  have hsame := (dispatchSignaledCb_sameObjects d obj status cause).sameStates
  obtain ⟨hindv, hstate⟩ := h.signaling _ mem_cons_self obj status rfl
  apply (h.device hsame).takeParents rfl
  · rw [(hsame.rows obj).type]
    exact hindv
  · rw [(hsame.rows obj).state]
    exact hstate

theorem Settled.effect {out : SyncDevice × SyncPc} (h : Settled d (pc :: pcs))
    (hwf : ∀ other ∈ pcs, other.WellFormed) (hpc : pc.carries = [])
    (heffect : SectionEffect d pc out) : Settled out.1 (out.2 :: pcs) := by
  induction heffect with
  | goesOn _ hstill _ => exact h.still hpc hstill
  | notes obj refCnt synxObj =>
    exact Settled.device (h.still hpc rfl) (.setRow ⟨rfl, rfl, rfl, rfl⟩)
  | registers _ hsame => exact Settled.device (h.still hpc rfl) hsame.sameStates
  | signals obj refCnt status cause hindv hactive hsignaled =>
    exact h.signaled hwf hpc hactive hindv hsignaled hindv rfl rfl rfl
  | finishes _ _ _ ih => exact ih.finishSignal

theorem Settled.linkChild {idx child : ℕ} {linked todo : List ℕ}
    (h : Settled d (.mergeLink idx linked (child :: todo) :: pcs))
    (hlinked : Linked d (.mergeLink idx linked (child :: todo) :: pcs)) :
    Settled (d.linkChild idx linked child todo choice).1
      ((d.linkChild idx linked child todo choice).2 :: pcs) := by
  obtain ⟨hlive, hmembers⟩ := hlinked.merging idx linked (child :: todo) mem_cons_self
  have hparents := hlinked.parentsList_of_live hlive
  rw [SyncDevice.linkChild]
  split
  · exact h.failLink hlinked rfl hlive.1 hparents
  rename_i hgood
  rw [not_or] at hgood
  have hindv : (d.table child).type = .indv := by
    cases htype : (d.table child).type with
    | indv => rfl
    | group => exact absurd htype hgood.1
  split
  · rename_i hfailed
    apply h.skip hlinked hindv (SyncState.signaled_of_failed hfailed) rfl
    exact (if_pos hfailed).symm
  rename_i hfailed
  split
  · rename_i hactive
    have hsignaled : (d.table child).state.signaled = true := by
      cases hstate : (d.table child).state <;>
        first | rfl | exact absurd hstate hgood.2 | exact absurd hstate hactive
    have hskip : Settled ((d.setMembers idx (linked ++ [child])).setRow idx (d.table idx))
        (.mergeLink idx (linked ++ [child]) todo :: pcs) :=
      h.skip hlinked hindv hsignaled rfl (if_neg hfailed).symm
    have hsame : (d.setMembers idx (linked ++ [child])).setRow idx (d.table idx) =
        d.setMembers idx (linked ++ [child]) := SyncDevice.setRow_self _ idx
    rw [hsame] at hskip
    exact hskip
  split
  · rw [SyncDevice.failLink, setRow_setRow, setRow_table_self]
    exact h.failLink hlinked rfl hlive.1 hparents
  split
  · rw [SyncDevice.failLink, setRow_setRow, setRow_table_self]
    exact h.failLink hlinked rfl hlive.1 hparents
  · exact h.link hlinked hindv hgood.2

theorem Settled.signalParent {child parent cause : ℕ} {status : SyncState} {parents : List ℕ}
    (h : Settled d (.signalParents child status cause (parent :: parents) :: pcs))
    (hlinked : Linked d (.signalParents child status cause (parent :: parents) :: pcs))
    (hsignaled : status.signaled = true) (hlocked : d.rowLocked parent = false) :
    Settled (d.signalParent parent status cause) (.signalParents child status cause parents :: pcs)
    := by
  rw [SyncDevice.signalParent]
  have hvalid : ({ d.table parent with
      remaining := (d.table parent).remaining - 1 } : SyncRow).state ≠ .invalid :=
    (h.live_parent hlocked).2
  obtain ⟨row, hupdate⟩ := updateParentState_isSome hvalid status
  have hpropagate := h.propagate hlinked hsignaled hlocked hupdate
  simp only [hupdate]
  split
  · exact hpropagate.device (dispatchSignaledCb_sameObjects _ parent row.state cause).sameStates
  · exact hpropagate

theorem Settled.act (h : Settled d (pc :: pcs)) (hlinked : Linked d (pc :: pcs))
    (henabled : syncSystem.enabled d pc = true) :
    Settled (d.act choice pc).1 ((d.act choice pc).2 :: pcs) := by
  have hwf := (forall_mem_cons.mp hlinked.wellFormed).2
  have hgood := hlinked.wellFormed pc mem_cons_self
  cases pc with
  | enter op =>
    cases op with
    | destroy obj => cases h.noDestroy _ mem_cons_self
    | _ => exact h.effect hwf rfl (enter_effect choice henabled rfl)
  | finding new => exact h.effect hwf rfl (finding_effect hgood)
  | mergeCheck checked todo => exact h.effect hwf rfl (mergeCheck_effect hgood)
  | found idx new =>
    rw [SyncDevice.act]
    split
    · exact h.still rfl rfl
    · exact Settled.device (h.still rfl rfl) ⟨fun _ => .refl _, rfl, rfl⟩
  | owning idx new =>
    have hlocked := SyncPc.unlocked_of_enabled henabled rfl
    cases new with
    | indv synx dma =>
      obtain ⟨row, hrow⟩ := SyncRow.init_inRange hgood.1 (d.table idx) .indv
      have hinit := SyncRow.init_ok hrow
      rw [SyncDevice.act, SyncDevice.createRow, hrow]
      exact h.newRow hlinked hlocked hinit.2.2.1 hinit.2.2.2 hinit.1
    | group objs =>
      obtain ⟨row, hrow⟩ := SyncRow.init_inRange hgood.1 (d.table idx) .group
      have hinit := SyncRow.init_ok hrow
      rw [SyncDevice.act, SyncDevice.groupRow, hrow]
      exact h.group hlinked hlocked hinit.2.1 hinit.2.2.2 hinit.1
  | signalSynx obj status cause => exact h.finishSignal
  | signalParents child status cause parents =>
    cases parents with
    | nil => exact h.still rfl rfl
    | cons parent parents =>
      exact h.signalParent hlinked hgood (SyncPc.unlocked_of_enabled henabled rfl)
  | mergeLink idx linked todo =>
    cases todo with
    | nil => exact h.mergeEnd hlinked
    | cons child todo => exact h.linkChild hlinked
  | mergeClean idx todo =>
    cases todo with
    | nil =>
      have hsame : (d.table idx).SameStates { d.table idx with childrenList := [] } :=
        ⟨rfl, rfl, rfl, rfl⟩
      exact Settled.device (h.still rfl rfl)
        ⟨(SyncDevice.SameStates.setRow hsame).rows, rfl, rfl⟩
    | cons child todo => exact h.unlink hlinked
  | destroyLinks obj children parents => cases h.noDestroy _ mem_cons_self
  | returned rc => exact h
  | created idx => exact h
  | mergeLeaked idx => exact h
  | merged idx objs => exact h

end Sections

end QcomModules.CamSync
