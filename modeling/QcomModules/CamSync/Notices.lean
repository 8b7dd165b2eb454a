import QcomModules.CamSync.Completion

/-! Callbacks and user payloads: what is registered for an object is sent once, when the object has
its final state, and with that state. The two kinds share one invariant. -/

namespace QcomModules.CamSync

open Library List SyncDevice

variable {α : Type}

/-! ## Notices -/

/-- The notices of one kind for one object: those in its row, all that were registered, and those
that were sent, with the status. -/
structure Notices (α : Type) where
  pending : List α
  registered : List α
  sent : List (α × SyncState)

/-- An object in its final state sends everything, and no other sends anything. While a signal is
between its two sections (`gap`) the row is not emptied yet; a row that is new (`fresh`) has
nothing registered. -/
structure Notices.Ok (n : Notices α) (state : SyncState) (final gap fresh : Prop) : Prop where
  balance : n.registered.Perm (n.pending ++ n.sent.map Prod.fst)
  early : n.sent ≠ [] → final
  status : ∀ e ∈ n.sent, e.2 = state
  drained : final → ¬gap → n.pending = []
  fresh : fresh → n.registered = []

section Ok

variable {n : Notices α} {state state' : SyncState} {final final' gap gap' fresh fresh' : Prop}

theorem Notices.Ok.empty (h : n.Ok state final gap fresh) (hfresh : fresh) :
    n.pending = [] ∧ n.registered = [] ∧ n.sent = [] := by
  have hregistered := h.fresh hfresh
  have hbalance := h.balance
  rw [hregistered] at hbalance
  have hnil := append_eq_nil_iff.mp (nil_perm.mp hbalance)
  exact ⟨hnil.1, hregistered, map_eq_nil_iff.mp hnil.2⟩

theorem Notices.Ok.of_empty {n : Notices α} (hpending : n.pending = [])
    (hregistered : n.registered = []) (hsent : n.sent = []) : n.Ok state final gap fresh where
  balance := by
    rw [hpending, hregistered, hsent]
    exact .refl _
  early hne := absurd hsent hne
  status := by
    rw [hsent]
    exact fun _ he => absurd he not_mem_nil
  drained _ _ := hpending
  fresh _ := hregistered

theorem Notices.Ok.change (h : n.Ok state final gap fresh) (hfinal : ¬final)
    (hafter : final' → gap') (hfresh : fresh' → fresh) : n.Ok state' final' gap' fresh' := by
  have hsent : n.sent = [] := not_not.mp fun hne => hfinal (h.early hne)
  refine ⟨h.balance, fun hne => absurd hsent hne, ?_, fun hfinal' hgap =>
    absurd (hafter hfinal') hgap,
    fun hfresh' => h.fresh (hfresh hfresh')⟩
  rw [hsent]
  exact fun _ he => absurd he not_mem_nil

theorem Notices.Ok.dispatch (h : n.Ok state final gap fresh) (hstate : n.sent ≠ [] → state' = state)
    (hfinal : final') (hfresh : fresh' → fresh) :
    (⟨[], n.registered, n.sent ++ n.pending.map (·, state')⟩ : Notices α).Ok state' final' gap'
      fresh' where
  balance := by
    have hmap : (n.pending.map (·, state')).map Prod.fst = n.pending := by
      rw [map_map]
      exact map_id _
    rw [nil_append, map_append, hmap]
    exact h.balance.trans perm_append_comm
  early _ := hfinal
  status e he := by
    rcases mem_append.mp he with he | he
    · exact (h.status e he).trans (hstate (ne_nil_of_mem he)).symm
    · obtain ⟨x, -, rfl⟩ := mem_map.mp he
      rfl
  drained _ _ := rfl
  fresh hfresh' := h.fresh (hfresh hfresh')

theorem Notices.Ok.append (h : n.Ok state final gap fresh) (x : α) (hfinal : ¬final)
    (hfresh : ¬fresh) :
    (⟨n.pending ++ [x], n.registered ++ [x], n.sent⟩ : Notices α).Ok state final gap fresh where
  balance := by
    rw [append_assoc]
    have hswap : ([x] ++ n.sent.map Prod.fst).Perm (n.sent.map Prod.fst ++ [x]) :=
      perm_append_comm
    apply (h.balance.append_right [x]).trans
    rw [append_assoc]
    exact (hswap.append_left n.pending).symm
  early := h.early
  status := h.status
  drained hfinal' := absurd hfinal' hfinal
  fresh hfresh' := absurd hfresh' hfresh

theorem Notices.Ok.sendNow (h : n.Ok state final gap fresh) (x : α) (hfinal : final)
    (hfresh : ¬fresh) :
    (⟨n.pending, n.registered ++ [x], n.sent ++ [(x, state)]⟩ : Notices α).Ok state final gap
      fresh where
  balance := by
    rw [map_append, ← append_assoc]
    exact h.balance.append_right [x]
  early _ := hfinal
  status e he := by
    rcases mem_append.mp he with he | he
    · exact h.status e he
    · rw [mem_singleton.mp he]
  drained := h.drained
  fresh hfresh' := absurd hfresh' hfresh

end Ok

/-! ## The two kinds -/

/-- Where the notices of one kind are kept in the device. -/
structure NoticeKind (α : Type) where
  pending : SyncRow → List α
  registered : SyncDevice → ℕ → List α
  sent : SyncDevice → ℕ → List (α × SyncState)
  pending_congr : ∀ {row row' : SyncRow}, row'.callbackList = row.callbackList →
    row'.userPayloadList = row.userPayloadList → pending row' = pending row
  pending_nil : ∀ {row : SyncRow}, row.callbackList = [] → row.userPayloadList = [] →
    pending row = []
  registered_congr : ∀ {d d' : SyncDevice}, d'.registered = d.registered →
    d'.payloads = d.payloads → registered d' = registered d
  sent_congr : ∀ {d d' : SyncDevice}, d'.dispatched = d.dispatched → d'.events = d.events →
    sent d' = sent d
  sent_send : ∀ (d : SyncDevice) (row : SyncRow) (obj : ℕ) (status : SyncState) (cause idx : ℕ),
    sent (d.send (row.callbackList.map (⟨obj, status, ·⟩))
      (row.userPayloadList.map (⟨obj, status, ·, cause⟩))) idx =
      sent d idx ++ if idx = obj then (pending row).map (·, status) else []

theorem filter_map_log {β γ : Type} (key : β → ℕ) (entry : γ → β) {obj : ℕ}
    (hkey : ∀ x, key (entry x) = obj) (l : List γ) (idx : ℕ) :
    (l.map entry).filter (key · = idx) = if idx = obj then l.map entry else [] := by
  split
  · rename_i heq
    apply filter_eq_self.mpr
    intro y hy
    obtain ⟨x, -, rfl⟩ := mem_map.mp hy
    exact decide_eq_true ((hkey x).trans heq.symm)
  · rename_i hne
    apply filter_eq_nil_iff.mpr
    intro y hy
    obtain ⟨x, -, rfl⟩ := mem_map.mp hy
    rw [decide_eq_true_eq, hkey]
    exact Ne.symm hne

def callbackKind : NoticeKind SyncCallback where
  pending := SyncRow.callbackList
  registered d obj := (d.registered.filter (·.1 = obj)).map Prod.snd
  sent d obj := (d.dispatched.filter (·.syncObj = obj)).map fun e => (e.callback, e.status)
  pending_congr h _ := h
  pending_nil h _ := h
  registered_congr h _ := by rw [h]
  sent_congr h _ := by rw [h]
  sent_send d row obj status cause idx := by
    rw [SyncDevice.send, List.filter_append, List.map_append,
      filter_map_log SyncDispatch.syncObj (⟨obj, status, ·⟩) (fun _ => rfl)]
    apply congrArg
    split
    · rw [List.map_map]
      rfl
    · rfl

def payloadKind : NoticeKind SyncPayload where
  pending := SyncRow.userPayloadList
  registered d obj := (d.payloads.filter (·.1 = obj)).map Prod.snd
  sent d obj := (d.events.filter (·.syncObj = obj)).map fun e => (e.payload, e.status)
  pending_congr _ h := h
  pending_nil _ h := h
  registered_congr _ h := by rw [h]
  sent_congr _ h := by rw [h]
  sent_send d row obj status cause idx := by
    rw [SyncDevice.send, List.filter_append, List.map_append,
      filter_map_log SyncEvent.syncObj (⟨obj, status, ·, cause⟩) (fun _ => rfl)]
    apply congrArg
    split
    · rw [List.map_map]
      rfl
    · rfl

/-! ## The invariant -/

def NoticeKind.notices (k : NoticeKind α) (d : SyncDevice) (obj : ℕ) : Notices α :=
  ⟨k.pending (d.table obj), k.registered d obj, k.sent d obj⟩

def SyncDevice.Final (d : SyncDevice) (obj : ℕ) : Prop :=
  (d.table obj).state.signaled = true ∧ (d.table obj).remaining = 0 ∧ d.rowLocked obj = false

/-- Nothing can be registered for a row that is invalid, or that a merge is in. -/
def SyncDevice.Fresh (d : SyncDevice) (obj : ℕ) : Prop :=
  (d.table obj).state = .invalid ∨ d.rowLocked obj = true

/-- A signal of the object is between its two sections. -/
def Gap (pcs : List SyncPc) (obj : ℕ) : Prop :=
  ∃ status cause, .signalSynx obj status cause ∈ pcs

def Delivered (k : NoticeKind α) (d : SyncDevice) (pcs : List SyncPc) : Prop :=
  ∀ obj, (k.notices d obj).Ok (d.table obj).state (d.Final obj) (Gap pcs obj) (d.Fresh obj)

structure SameNotices (k : NoticeKind α) (d d' : SyncDevice) (obj : ℕ) : Prop where
  state : (d'.table obj).state = (d.table obj).state
  remaining : (d'.table obj).remaining = (d.table obj).remaining
  rowLocked : d'.rowLocked obj = d.rowLocked obj
  notices : k.notices d' obj = k.notices d obj

structure SyncRow.SameLists (row row' : SyncRow) : Prop where
  state : row'.state = row.state
  remaining : row'.remaining = row.remaining
  callbackList : row'.callbackList = row.callbackList
  userPayloadList : row'.userPayloadList = row.userPayloadList

structure SyncDevice.SameLog (d d' : SyncDevice) : Prop where
  dispatched : d'.dispatched = d.dispatched
  events : d'.events = d.events
  registered : d'.registered = d.registered
  payloads : d'.payloads = d.payloads

section Frame

variable {k : NoticeKind α} {d d' : SyncDevice} {pc pc' : SyncPc} {pcs pcs' : List SyncPc}
  {obj : ℕ}

theorem SyncDevice.SameLog.refl (d : SyncDevice) : d.SameLog d := ⟨rfl, rfl, rfl, rfl⟩

theorem SyncDevice.SameLog.setRow (d : SyncDevice) (obj : ℕ) (row : SyncRow) :
    d.SameLog (d.setRow obj row) := ⟨rfl, rfl, rfl, rfl⟩

theorem NoticeKind.notices_eq (k : NoticeKind α) (hlog : d.SameLog d')
    (hcallbacks : (d'.table obj).callbackList = (d.table obj).callbackList)
    (hpayloads : (d'.table obj).userPayloadList = (d.table obj).userPayloadList) :
    k.notices d' obj = k.notices d obj := by
  rw [NoticeKind.notices, NoticeKind.notices, k.pending_congr hcallbacks hpayloads,
    k.registered_congr hlog.registered hlog.payloads, k.sent_congr hlog.dispatched hlog.events]

theorem NoticeKind.same (k : NoticeKind α) (hlog : d.SameLog d')
    (hrow : (d.table obj).SameLists (d'.table obj))
    (hlocked : d'.rowLocked obj = d.rowLocked obj) : SameNotices k d d' obj where
  state := hrow.state
  remaining := hrow.remaining
  rowLocked := hlocked
  notices := k.notices_eq hlog hrow.callbackList hrow.userPayloadList

theorem SyncRow.SameLists.refl (row : SyncRow) : row.SameLists row := ⟨rfl, rfl, rfl, rfl⟩

theorem SyncRow.SameLists.setRow {row : SyncRow} (hrow : (d.table obj).SameLists row) (idx : ℕ) :
    (d.table idx).SameLists ((d.setRow obj row).table idx) := by
  by_cases hidx : idx = obj
  · subst hidx
    rw [setRow_table_self]
    exact hrow
  · rw [setRow_table_of_ne hidx]
    exact .refl _

theorem SameNotices.final (h : SameNotices k d d' obj) : d'.Final obj ↔ d.Final obj := by
  rw [SyncDevice.Final, SyncDevice.Final, h.state, h.remaining, h.rowLocked]

theorem SameNotices.fresh (h : SameNotices k d d' obj) : d'.Fresh obj ↔ d.Fresh obj := by
  rw [SyncDevice.Fresh, SyncDevice.Fresh, h.state, h.rowLocked]

theorem Notices.Ok.of_same
    (h : (k.notices d obj).Ok (d.table obj).state (d.Final obj) (Gap pcs obj) (d.Fresh obj))
    (hsame : SameNotices k d d' obj) (hgap : Gap pcs obj → Gap pcs' obj) :
    (k.notices d' obj).Ok (d'.table obj).state (d'.Final obj) (Gap pcs' obj) (d'.Fresh obj) := by
  rw [hsame.notices, hsame.state]
  exact ⟨h.balance, fun hne => hsame.final.mpr (h.early hne), h.status,
    fun hfinal hnot => h.drained (hsame.final.mp hfinal) (fun hgap' => hnot (hgap hgap')),
    fun hfresh => h.fresh (hsame.fresh.mp hfresh)⟩

theorem gap_front (hpc : ∀ obj status cause, pc ≠ .signalSynx obj status cause)
    (h : Gap (pc :: pcs) obj) : Gap (pc' :: pcs) obj := by
  obtain ⟨status, cause, hmem⟩ := h
  rcases mem_cons.mp hmem with hmem | hmem
  · exact absurd hmem.symm (hpc obj status cause)
  · exact ⟨status, cause, mem_cons_of_mem _ hmem⟩

theorem Delivered.perm (h : Delivered k d pcs) (hperm : pcs.Perm pcs') : Delivered k d pcs' := by
  intro obj
  apply (h obj).of_same ⟨rfl, rfl, rfl, rfl⟩
  intro hgap
  obtain ⟨status, cause, hmem⟩ := hgap
  exact ⟨status, cause, hperm.mem_iff.mp hmem⟩

theorem Delivered.start (h : Delivered k d pcs) (pc : SyncPc) : Delivered k d (pc :: pcs) := by
  intro obj
  apply (h obj).of_same ⟨rfl, rfl, rfl, rfl⟩
  intro hgap
  obtain ⟨status, cause, hmem⟩ := hgap
  exact ⟨status, cause, mem_cons_of_mem _ hmem⟩

theorem Delivered.same (h : Delivered k d (pc :: pcs))
    (hpc : ∀ obj status cause, pc ≠ .signalSynx obj status cause)
    (hsame : ∀ obj, SameNotices k d d' obj) : Delivered k d' (pc' :: pcs) :=
  fun obj => (h obj).of_same (hsame obj) (gap_front hpc)

theorem Delivered.at (h : Delivered k d (pc :: pcs)) (obj : ℕ)
    (hpc : ∀ other status cause, other ≠ obj → pc ≠ .signalSynx other status cause)
    (hsame : ∀ other, other ≠ obj → SameNotices k d d' other)
    (hobj : (k.notices d' obj).Ok (d'.table obj).state (d'.Final obj) (Gap (pc' :: pcs) obj)
      (d'.Fresh obj)) : Delivered k d' (pc' :: pcs) := by
  intro other
  by_cases hother : other = obj
  · exact hother ▸ hobj
  · apply (h other).of_same (hsame other hother)
    intro hgap
    obtain ⟨status, cause, hmem⟩ := hgap
    rcases mem_cons.mp hmem with hmem | hmem
    · exact absurd hmem.symm (hpc other status cause hother)
    · exact ⟨status, cause, mem_cons_of_mem _ hmem⟩

/-- Nothing was registered for a row that is new, so what is written there is of no account. -/
theorem Delivered.fresh (h : Delivered k d (pc :: pcs)) (obj : ℕ) (hfresh : d.Fresh obj)
    (hpc : ∀ obj status cause, pc ≠ .signalSynx obj status cause)
    (hsame : ∀ other, other ≠ obj → SameNotices k d d' other) (hlog : d.SameLog d')
    (hpending : k.pending (d.table obj) = [] → k.pending (d'.table obj) = []) :
    Delivered k d' (pc' :: pcs) := by
  apply h.at obj (fun other status cause _ => hpc other status cause) hsame
  obtain ⟨hnone, hregistered, hsent⟩ := (h obj).empty hfresh
  apply Notices.Ok.of_empty
  · exact hpending hnone
  · show k.registered d' obj = []
    rw [k.registered_congr hlog.registered hlog.payloads]
    exact hregistered
  · show k.sent d' obj = []
    rw [k.sent_congr hlog.dispatched hlog.events]
    exact hsent

end Frame

/-! ## Dispatch -/

section Dispatch

variable {k : NoticeKind α} {d : SyncDevice} {pc pc' : SyncPc} {pcs : List SyncPc} {obj : ℕ}
  {status : SyncState} {cause : ℕ}

theorem dispatch_eq (hvalid : (d.table obj).state ≠ .invalid) :
    d.dispatchSignaledCb obj status cause =
      (d.setRow obj { d.table obj with callbackList := [], userPayloadList := [] }).send
        ((d.table obj).callbackList.map (⟨obj, status, ·⟩))
        ((d.table obj).userPayloadList.map (⟨obj, status, ·, cause⟩)) := by
  rw [SyncDevice.dispatchSignaledCb]
  exact if_neg hvalid

theorem registered_dispatch (k : NoticeKind α) (hvalid : (d.table obj).state ≠ .invalid) :
    k.registered (d.dispatchSignaledCb obj status cause) = k.registered d := by
  apply k.registered_congr
  · rw [dispatch_eq hvalid]
    rfl
  · rw [dispatch_eq hvalid]
    rfl

theorem sent_dispatch (k : NoticeKind α) (hvalid : (d.table obj).state ≠ .invalid) (idx : ℕ) :
    k.sent (d.dispatchSignaledCb obj status cause) idx =
      k.sent d idx ++ if idx = obj then (k.pending (d.table obj)).map (·, status) else [] := by
  have hset : k.sent (d.setRow obj { d.table obj with
      callbackList := [], userPayloadList := [] }) = k.sent d := k.sent_congr rfl rfl
  rw [dispatch_eq hvalid, k.sent_send, hset]

theorem dispatch_notices (hvalid : (d.table obj).state ≠ .invalid) :
    k.notices (d.dispatchSignaledCb obj status cause) obj =
      ⟨[], k.registered d obj,
        k.sent d obj ++ (k.pending (d.table obj)).map (·, status)⟩ := by
  have hrow : (d.dispatchSignaledCb obj status cause).table obj =
      { d.table obj with callbackList := [], userPayloadList := [] } := by
    rw [dispatch_eq hvalid]
    exact setRow_table_self
  rw [NoticeKind.notices, registered_dispatch k hvalid, sent_dispatch k hvalid, if_pos rfl, hrow,
    k.pending_nil rfl rfl]

theorem dispatch_other (k : NoticeKind α) (hvalid : (d.table obj).state ≠ .invalid) {other : ℕ}
    (hother : other ≠ obj) :
    SameNotices k d (d.dispatchSignaledCb obj status cause) other := by
  have hrow : (d.dispatchSignaledCb obj status cause).table other = d.table other := by
    rw [dispatch_eq hvalid]
    exact setRow_table_of_ne hother
  refine ⟨by rw [hrow], by rw [hrow], by rw [dispatch_eq hvalid]; rfl, ?_⟩
  rw [NoticeKind.notices, hrow, registered_dispatch k hvalid, sent_dispatch k hvalid,
    if_neg hother, append_nil]
  rfl

theorem Delivered.dispatch (h : Delivered k d (pc :: pcs)) {d' : SyncDevice}
    (hpc : ∀ other status cause, other ≠ obj → pc ≠ .signalSynx other status cause)
    (hother : ∀ other, other ≠ obj → SameNotices k d d' other) (hlog : d.SameLog d')
    (hpending : k.pending (d'.table obj) = k.pending (d.table obj))
    (hfinal : d'.Final obj) (hstate : (d'.table obj).state = status)
    (hsent : k.sent d obj ≠ [] → status = (d.table obj).state) :
    Delivered k (d'.dispatchSignaledCb obj status cause) (pc' :: pcs) := by
  have hvalid' := SyncState.ne_invalid_of_signaled hfinal.1
  have hsame := (dispatchSignaledCb_sameObjects d' obj status cause).sameStates
  apply h.at obj hpc
  · intro other hne
    have hold := hother other hne
    have hnew : SameNotices k d' (d'.dispatchSignaledCb obj status cause) other :=
      dispatch_other k hvalid' hne
    exact ⟨hnew.state.trans hold.state, hnew.remaining.trans hold.remaining,
      hnew.rowLocked.trans hold.rowLocked, hnew.notices.trans hold.notices⟩
  · rw [dispatch_notices hvalid', (hsame.rows obj).state, hstate, hpending,
      k.registered_congr hlog.registered hlog.payloads, k.sent_congr hlog.dispatched hlog.events]
    apply (h obj).dispatch hsent
    · rw [SyncDevice.Final, (hsame.rows obj).state, (hsame.rows obj).remaining, hsame.rowLocked]
      exact hfinal
    · intro hfresh
      rw [SyncDevice.Fresh, (hsame.rows obj).state, hsame.rowLocked, hfinal.2.2] at hfresh
      exact (hfresh.resolve_left hvalid' |> Bool.false_ne_true).elim

end Dispatch

/-! ## Sections of signals -/

section Sections

variable {k : NoticeKind α} {d : SyncDevice} {pc pc' : SyncPc} {pcs : List SyncPc}
  {choice : SyncChoice}

theorem Delivered.sameRow (h : Delivered k d (pc :: pcs))
    (hpc : ∀ obj status cause, pc ≠ .signalSynx obj status cause) {obj : ℕ} {row : SyncRow}
    (hrow : (d.table obj).SameLists row) : Delivered k (d.setRow obj row) (pc' :: pcs) :=
  h.same hpc fun idx => k.same (.setRow d obj row) (hrow.setRow idx) rfl

/-- The object is active, so nothing is sent, and then its state is final but for the gap. -/
theorem Delivered.signaled (h : Delivered k d (pc :: pcs))
    (hpc : ∀ obj status cause, pc ≠ .signalSynx obj status cause) {obj cause : ℕ}
    {status : SyncState} {row : SyncRow} (hactive : (d.table obj).state = .active)
    (hsignaled : row.state.signaled = true)
    (hcallbacks : row.callbackList = (d.table obj).callbackList)
    (hpayloads : row.userPayloadList = (d.table obj).userPayloadList) :
    Delivered k (d.setRow obj row) (.signalSynx obj status cause :: pcs) := by
  have hself : (d.setRow obj row).table obj = row := setRow_table_self
  apply h.at obj (fun other status cause _ => hpc other status cause)
  · intro other hne
    apply k.same (.setRow d obj row) _ rfl
    rw [setRow_table_of_ne hne]
    exact .refl _
  · have hsame : k.notices (d.setRow obj row) obj = k.notices d obj := by
      apply k.notices_eq (.setRow d obj row)
      · rw [hself]
        exact hcallbacks
      · rw [hself]
        exact hpayloads
    rw [hsame]
    apply (h obj).change
    · intro hfinal
      have hstate := hfinal.1
      rw [hactive] at hstate
      cases hstate
    · exact fun _ => ⟨status, cause, mem_cons_self⟩
    · intro hfresh
      rw [SyncDevice.Fresh, hself] at hfresh
      exact .inr (hfresh.resolve_left (SyncState.ne_invalid_of_signaled hsignaled))

theorem Delivered.finishSignal {obj cause : ℕ} {status : SyncState}
    (h : Delivered k d (.signalSynx obj status cause :: pcs))
    (hsettled : Settled d (.signalSynx obj status cause :: pcs))
    (hsignaled : status.signaled = true) (hlocked : d.rowLocked obj = false) :
    Delivered k (d.finishSignal obj status cause).1
      ((d.finishSignal obj status cause).2 :: pcs) := by
  obtain ⟨hindv, hstate⟩ := hsettled.signaling _ mem_cons_self obj status rfl
  have hfinal : d.Final obj := ⟨hstate ▸ hsignaled, hsettled.indv obj hindv, hlocked⟩
  have hdispatch : Delivered k (d.dispatchSignaledCb obj status cause) (.returned 0 :: pcs) := by
    apply h.dispatch _ _ (.refl d) rfl hfinal hstate (fun _ => hstate.symm)
    · intro other status' cause' hne heq
      cases heq
      exact hne rfl
    · exact fun _ _ => ⟨rfl, rfl, rfl, rfl⟩
  exact hdispatch.sameRow (fun _ _ _ => SyncPc.noConfusion) ⟨rfl, rfl, rfl, rfl⟩

theorem Delivered.effect {out : SyncDevice × SyncPc} (h : Delivered k d (pc :: pcs))
    (hsettled : Settled d (pc :: pcs)) (hwf : ∀ other ∈ pcs, other.WellFormed)
    (hcarries : pc.carries = []) (hpc : ∀ obj status cause, pc ≠ .signalSynx obj status cause)
    (hregisters : pc.registers = false) (heffect : SectionEffect d pc out) :
    Delivered k out.1 (out.2 :: pcs) := by
  induction heffect with
  | goesOn => exact h.same hpc fun _ => ⟨rfl, rfl, rfl, rfl⟩
  | notes obj refCnt synxObj => exact h.sameRow hpc ⟨rfl, rfl, rfl, rfl⟩
  | registers hregister _ =>
    rw [hregisters] at hregister
    cases hregister
  | signals obj refCnt status cause _ hactive hsignaled =>
    exact h.signaled hpc hactive hsignaled rfl rfl
  | finishes heffect hsignaled hlocked ih =>
    exact ih.finishSignal (hsettled.effect hwf hcarries heffect) hsignaled hlocked

variable {parents : List ℕ}

theorem remaining_ne_zero {child parent cause : ℕ} {status : SyncState}
    (hsettled : Settled d (.signalParents child status cause (parent :: parents) :: pcs))
    (hlinked : Linked d (.signalParents child status cause (parent :: parents) :: pcs))
    (hlocked : d.rowLocked parent = false) : (d.table parent).remaining ≠ 0 := by
  have hlive := hsettled.live_parent hlocked
  have hpos : 0 < pending d (.signalParents child status cause (parent :: parents) :: pcs)
      child parent := by
    rw [pending_countDown, if_pos ⟨rfl, rfl⟩]
    exact Nat.succ_pos _
  intro hzero
  have hcounted := hlinked.counted parent hlive
  rw [hzero] at hcounted
  have hnone := countP_eq_zero.mp hcounted.symm child (hlinked.member child parent hlive hpos)
  exact hnone (decide_eq_true hpos)

theorem Delivered.signalParent {child parent cause : ℕ} {status : SyncState}
    (h : Delivered k d (.signalParents child status cause (parent :: parents) :: pcs))
    (hsettled : Settled d (.signalParents child status cause (parent :: parents) :: pcs))
    (hlinked : Linked d (.signalParents child status cause (parent :: parents) :: pcs))
    (hsignaled : status.signaled = true) (hlocked : d.rowLocked parent = false) :
    Delivered k (d.signalParent parent status cause)
      (.signalParents child status cause parents :: pcs) := by
  have hremains := remaining_ne_zero hsettled hlinked hlocked
  have hsent : k.sent d parent = [] := not_not.mp fun hne => hremains ((h parent).early hne).2.1
  have hpc : ∀ obj status' cause',
      SyncPc.signalParents child status cause (parent :: parents) ≠
        .signalSynx obj status' cause' :=
    fun _ _ _ => SyncPc.noConfusion
  have hvalid : ({ d.table parent with
      remaining := (d.table parent).remaining - 1 } : SyncRow).state ≠ .invalid :=
    (hsettled.live_parent hlocked).2
  obtain ⟨row, hupdate⟩ := updateParentState_isSome hvalid status
  obtain ⟨hrow, hstate, -⟩ := updateParentState_some hupdate
  have hrowSignaled : row.state.signaled = true := by
    rcases hstate with hstate | hstate
    · rw [hstate]
      exact hsignaled
    · rw [hstate.1]
      exact SyncState.signaled_of_failed hstate.2
  have hself : (d.setRow parent row).table parent = row := setRow_table_self
  have hothers : ∀ other, other ≠ parent → SameNotices k d (d.setRow parent row) other := by
    intro other hne
    apply k.same (.setRow d parent row) _ rfl
    rw [setRow_table_of_ne hne]
    exact .refl _
  rw [SyncDevice.signalParent]
  simp only [hupdate]
  split
  · rename_i hzero
    apply h.dispatch (fun _ _ _ _ => SyncPc.noConfusion) hothers (.setRow d parent row)
    · rw [hself]
      apply k.pending_congr
      · rw [hrow]
      · rw [hrow]
    · rw [SyncDevice.Final, hself]
      exact ⟨hrowSignaled, hzero, hlocked⟩
    · rw [hself]
    · exact fun hne => absurd hsent hne
  · rename_i hmore
    apply h.at parent (fun _ _ _ _ => SyncPc.noConfusion) hothers
    have hsame : k.notices (d.setRow parent row) parent = k.notices d parent := by
      apply k.notices_eq (.setRow d parent row)
      · rw [hself, hrow]
      · rw [hself, hrow]
    rw [hsame]
    apply (h parent).change
    · exact fun hfinal => hremains hfinal.2.1
    · intro hfinal
      have hzero := hfinal.2.1
      rw [hself] at hzero
      exact absurd hzero hmore
    · intro hfresh
      rw [SyncDevice.Fresh, hself] at hfresh
      exact .inr (hfresh.resolve_left (SyncState.ne_invalid_of_signaled hrowSignaled))

/-! ## Sections of merges -/

theorem SyncRow.init_lists {row row' : SyncRow} {idx : ℕ} {type : SyncType}
    (h : row.init idx type = .ok row') : row'.callbackList = [] ∧ row'.userPayloadList = [] := by
  rw [SyncRow.init] at h
  split at h
  · cases h
    exact ⟨rfl, rfl⟩
  · cases h

theorem sameNotices_setRow_of_ne (k : NoticeKind α) {obj other : ℕ} {row : SyncRow}
    (hne : other ≠ obj) : SameNotices k d (d.setRow obj row) other := by
  apply k.same (.setRow d obj row) _ rfl
  rw [setRow_table_of_ne hne]
  exact .refl _

section Merge

variable {idx child : ℕ} {linked todo : List ℕ}

theorem Delivered.write (h : Delivered k d (pc :: pcs)) (hfresh : d.Fresh idx)
    (hpc : ∀ obj status cause, pc ≠ .signalSynx obj status cause) {row : SyncRow}
    (hcallbacks : row.callbackList = (d.table idx).callbackList)
    (hpayloads : row.userPayloadList = (d.table idx).userPayloadList) :
    Delivered k (d.setRow idx row) (pc' :: pcs) := by
  apply h.fresh idx hfresh hpc (fun other => sameNotices_setRow_of_ne k) (.setRow d idx row)
  intro hnone
  rw [setRow_table_self, k.pending_congr hcallbacks hpayloads]
  exact hnone

theorem Delivered.linkChild (h : Delivered k d (.mergeLink idx linked (child :: todo) :: pcs))
    (hlinked : Linked d (.mergeLink idx linked (child :: todo) :: pcs)) :
    Delivered k (d.linkChild idx linked child todo choice).1
      ((d.linkChild idx linked child todo choice).2 :: pcs) := by
  obtain ⟨hlive, -⟩ := hlinked.merging idx linked (child :: todo) mem_cons_self
  have hfresh : d.Fresh idx := .inr (hlinked.sole_holder (beq_self_eq_true idx)).1
  have hpc : ∀ obj status cause,
      SyncPc.mergeLink idx linked (child :: todo) ≠ .signalSynx obj status cause :=
    fun _ _ _ => SyncPc.noConfusion
  have hnext : Delivered k (d.setMembers idx (linked ++ [child]))
      (.mergeLink idx linked (child :: todo) :: pcs) :=
    h.same hpc fun _ => k.same ⟨rfl, rfl, rfl, rfl⟩ (.refl _) rfl
  rw [SyncDevice.linkChild]
  split
  · exact h.write hfresh hpc rfl rfl
  rename_i hgood
  rw [not_or] at hgood
  split
  · exact hnext.write hfresh hpc rfl rfl
  split
  · exact h.same hpc fun _ => k.same ⟨rfl, rfl, rfl, rfl⟩ (.refl _) rfl
  split
  · rw [SyncDevice.failLink, setRow_setRow, setRow_table_self]
    exact h.write hfresh hpc rfl rfl
  split
  · rw [SyncDevice.failLink, setRow_setRow, setRow_table_self]
    exact h.write hfresh hpc rfl rfl
  · have hne : child ≠ idx := by
      intro heq
      exact hgood.1 (heq ▸ hlive.1)
    have hrow : Delivered k ((d.setMembers idx (linked ++ [child])).setRow idx { d.table idx with
        remaining := (d.table idx).remaining + 1
        childrenList := (d.table idx).childrenList ++ [child] }) (.returned 0 :: pcs) :=
      hnext.write hfresh hpc rfl rfl
    apply hrow.sameRow (fun _ _ _ => SyncPc.noConfusion)
    rw [setRow_table_of_ne hne]
    exact ⟨rfl, rfl, rfl, rfl⟩

theorem Delivered.mergeEnd (h : Delivered k d (.mergeLink idx linked [] :: pcs))
    (hlinked : Linked d (.mergeLink idx linked [] :: pcs)) :
    Delivered k (d.mergeEnd idx linked).1 ((d.mergeEnd idx linked).2 :: pcs) := by
  have hfresh : d.Fresh idx := .inr (hlinked.sole_holder (beq_self_eq_true idx)).1
  rw [SyncDevice.mergeEnd]
  apply h.fresh idx hfresh (fun _ _ _ => SyncPc.noConfusion)
  · intro other hne
    apply k.same
    · exact ⟨rfl, rfl, rfl, rfl⟩
    · have hrow := @setRow_table_of_ne d idx other
        (if (d.table idx).remaining = 0 ∧ (d.table idx).state.failed = false then
          { d.table idx with state := .signaledSuccess } else d.table idx) hne
      exact hrow ▸ SyncRow.SameLists.refl (d.table other)
    · exact setLock_rowLocked_of_ne hne
  · exact ⟨rfl, rfl, rfl, rfl⟩
  · intro hnone
    have hrow := @setRow_table_self d idx
      (if (d.table idx).remaining = 0 ∧ (d.table idx).state.failed = false then
        { d.table idx with state := .signaledSuccess } else d.table idx)
    have hpending : k.pending (if (d.table idx).remaining = 0 ∧
        (d.table idx).state.failed = false then { d.table idx with state := .signaledSuccess }
        else d.table idx) = k.pending (d.table idx) := by
      split
      · exact k.pending_congr rfl rfl
      · rfl
    exact (congrArg k.pending hrow).trans (hpending.trans hnone)

theorem Delivered.createRow {synx : Option ℕ} {dma : Option ℤ}
    (h : Delivered k d (.owning idx (.indv synx dma) :: pcs))
    (hlinked : Linked d (.owning idx (.indv synx dma) :: pcs)) :
    Delivered k (d.createRow idx synx dma).1 ((d.createRow idx synx dma).2 :: pcs) := by
  obtain ⟨row, hrow⟩ := SyncRow.init_inRange (hlinked.wellFormed _ mem_cons_self).1
    (d.table idx) .indv
  obtain ⟨hcallbacks, hpayloads⟩ := SyncRow.init_lists hrow
  rw [SyncDevice.createRow, hrow]
  apply h.fresh idx (.inl (hlinked.sole_owner (beq_self_eq_true idx)).1)
    (fun _ _ _ => SyncPc.noConfusion) (fun other => sameNotices_setRow_of_ne k) (.setRow d idx _)
  intro _
  rw [setRow_table_self]
  exact k.pending_nil hcallbacks hpayloads

theorem Delivered.groupRow {objs : List ℕ}
    (h : Delivered k d (.owning idx (.group objs) :: pcs))
    (hlinked : Linked d (.owning idx (.group objs) :: pcs)) :
    Delivered k (d.groupRow idx objs).1 ((d.groupRow idx objs).2 :: pcs) := by
  obtain ⟨row, hrow⟩ := SyncRow.init_inRange (hlinked.wellFormed _ mem_cons_self).1
    (d.table idx) .group
  obtain ⟨hcallbacks, hpayloads⟩ := SyncRow.init_lists hrow
  rw [SyncDevice.groupRow, hrow]
  apply h.fresh idx (.inl (hlinked.sole_owner (beq_self_eq_true idx)).1)
    (fun _ _ _ => SyncPc.noConfusion)
  · intro other hne
    apply k.same
    · exact ⟨rfl, rfl, rfl, rfl⟩
    · have hother := @setRow_table_of_ne d idx other row hne
      exact hother ▸ SyncRow.SameLists.refl (d.table other)
    · exact setLock_rowLocked_of_ne hne
  · exact ⟨rfl, rfl, rfl, rfl⟩
  · intro _
    have hself := @setRow_table_self d idx row
    exact (congrArg k.pending hself).trans (k.pending_nil hcallbacks hpayloads)

end Merge

/-! ## All sections -/

/-- Every section but a registration delivers the notices of both kinds alike. -/
theorem Delivered.act (h : Delivered k d (pc :: pcs)) (hsettled : Settled d (pc :: pcs))
    (hlinked : Linked d (pc :: pcs)) (henabled : syncSystem.enabled d pc = true)
    (hregisters : pc.registers = false) :
    Delivered k (d.act choice pc).1 ((d.act choice pc).2 :: pcs) := by
  have hwf := (forall_mem_cons.mp hlinked.wellFormed).2
  have hgood := hlinked.wellFormed pc mem_cons_self
  have hstill : (∀ obj status cause, pc ≠ .signalSynx obj status cause) →
      ∀ pc' : SyncPc, Delivered k d (pc' :: pcs) :=
    fun hpc pc' => h.same hpc fun _ => ⟨rfl, rfl, rfl, rfl⟩
  cases pc with
  | enter op =>
    have heffect {out : SyncDevice × SyncPc} (heffect : SectionEffect d (.enter op) out) :=
      h.effect hsettled hwf rfl (fun _ _ _ => SyncPc.noConfusion) hregisters heffect
    cases op with
    | destroy obj => cases hsettled.noDestroy _ mem_cons_self
    | _ => exact heffect (enter_effect choice henabled rfl)
  | finding new =>
    exact h.effect hsettled hwf rfl (fun _ _ _ => SyncPc.noConfusion) rfl (finding_effect hgood)
  | mergeCheck checked todo =>
    exact h.effect hsettled hwf rfl (fun _ _ _ => SyncPc.noConfusion) rfl (mergeCheck_effect hgood)
  | found idx new =>
    rw [SyncDevice.act]
    split
    · exact hstill (fun _ _ _ => SyncPc.noConfusion) _
    · apply h.same (fun _ _ _ => SyncPc.noConfusion)
      exact fun _ => k.same ⟨rfl, rfl, rfl, rfl⟩ (.refl _) rfl
  | owning idx new =>
    cases new with
    | indv synx dma => exact h.createRow hlinked
    | group objs => exact h.groupRow hlinked
  | signalSynx obj status cause =>
    exact h.finishSignal hsettled hgood (SyncPc.unlocked_of_enabled henabled rfl)
  | signalParents child status cause parents =>
    cases parents with
    | nil => exact hstill (fun _ _ _ => SyncPc.noConfusion) _
    | cons parent parents =>
      exact h.signalParent hsettled hlinked hgood (SyncPc.unlocked_of_enabled henabled rfl)
  | mergeLink idx linked todo =>
    cases todo with
    | nil => exact h.mergeEnd hlinked
    | cons child todo => exact h.linkChild hlinked
  | mergeClean idx todo =>
    cases todo with
    | nil =>
      have hclean : Delivered k (d.setRow idx { d.table idx with childrenList := [] })
          (.returned 0 :: pcs) :=
        h.sameRow (fun _ _ _ => SyncPc.noConfusion) ⟨rfl, rfl, rfl, rfl⟩
      apply hclean.same (fun _ _ _ => SyncPc.noConfusion)
      exact fun _ => k.same ⟨rfl, rfl, rfl, rfl⟩ (.refl _) rfl
    | cons child todo =>
      exact h.sameRow (fun _ _ _ => SyncPc.noConfusion) ⟨rfl, rfl, rfl, rfl⟩
  | destroyLinks obj children parents => cases hsettled.noDestroy _ mem_cons_self
  | returned rc => exact h
  | created idx => exact h
  | mergeLeaked idx => exact h
  | merged idx objs => exact h

end Sections

end QcomModules.CamSync
