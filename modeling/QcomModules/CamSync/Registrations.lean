import QcomModules.CamSync.Notices
import QcomModules.CamSync.SlotReuse

/-! Runs that destroy no object, and the two registrations in them: what is registered waits in the
row or is sent at once. -/

namespace QcomModules.CamSync

open Library Relation List SyncDevice

/-! ## Runs without destruction -/

def SyncOp.keeps : SyncOp → Bool
  | .destroy _ => false
  | _ => true

section Keep

variable {d : SyncDevice} {pc : SyncPc} {pcs : List SyncPc} {choice : SyncChoice}

theorem Settled.reuseOk (h : Settled d (pc :: pcs)) (hlinked : Linked d (pc :: pcs))
    (henabled : syncSystem.enabled d pc = true) : pc.ReuseOk d (pc :: pcs) := by
  constructor
  · have hkeeps := h.noDestroy pc mem_cons_self
    cases pc with
    | enter op =>
      cases op with
      | destroy obj => cases hkeeps
      | _ => rfl
    | _ => rfl
  · cases pc with
    | owning idx new =>
      cases new with
      | indv synx dma => rfl
      | group objs =>
        exact h.takesFreshRow (hlinked.sole_owner (beq_self_eq_true idx)).1
          (SyncPc.unlocked_of_enabled henabled rfl)
    | _ => rfl

theorem Settled.start (h : Settled d pcs) {op : SyncOp} (hop : op.keeps = true) :
    Settled d (.enter op :: pcs) := by
  refine ⟨?_, h.target, h.member, ?_, h.failed, h.settled, h.indv, ?_⟩
  · refine forall_mem_cons.mpr ⟨?_, h.noDestroy⟩
    cases op <;> first | rfl | cases hop
  · refine forall_mem_cons.mpr ⟨?_, h.signaling⟩
    intro obj status hsignals
    cases hsignals
  · intro idx objs hmem
    rcases mem_cons.mp hmem with hmem | hmem
    · cases hmem
    · exact h.merged idx objs hmem

theorem keep_of_run {Inv : SyncDevice → List SyncPc → Prop} {ok : SyncDevice → SyncPc → Prop}
    (hperm : ∀ d pcs pcs', pcs.Perm pcs' → Inv d pcs → Inv d pcs')
    (hstart : ∀ d pcs op, Inv d pcs → Inv d (.enter op :: pcs))
    (hact : ∀ choice d pc pcs, Inv d (pc :: pcs) → Linked d (pc :: pcs) →
      Settled d (pc :: pcs) → syncSystem.enabled d pc = true → ok d pc →
        Inv (SyncDevice.act choice d pc).1 ((SyncDevice.act choice d pc).2 :: pcs))
    {s s' : SyncSystem}
    (hinit : Linked s.shared s.pcs ∧ Settled s.shared s.pcs ∧ Inv s.shared s.pcs)
    (hrun : ReflTransGen (GuardedStep (ThreadSystem.StepOk (fun op => op.keeps = true)
      fun d _ pc => ok d pc) syncSystem.step) s s') :
    Linked s'.shared s'.pcs ∧ Settled s'.shared s'.pcs ∧ Inv s'.shared s'.pcs := by
  refine @ThreadSystem.invariant _ _ _ _ syncSystem _ _
    (fun d pcs => Linked d pcs ∧ Settled d pcs ∧ Inv d pcs) ?_ (fun _ _ _ _ _ hok => hok) ?_ ?_
    _ _ hinit hrun
  · intro d pcs pcs' hpcs h
    exact ⟨h.1.perm hpcs, h.2.1.perm hpcs, hperm d pcs pcs' hpcs h.2.2⟩
  · intro d pcs op h hop
    exact ⟨h.1.start op, h.2.1.start hop, hstart d pcs op h.2.2⟩
  · intro choice d pc pcs h henabled hok
    exact ⟨h.1.act henabled (h.2.1.reuseOk h.1 henabled), h.2.1.act h.1 henabled,
      hact choice d pc pcs h.2.2 h.1 h.2.1 henabled hok⟩

end Keep

/-! ## Registrations -/

section Register

variable {α : Type} {k : NoticeKind α} {d d' : SyncDevice} {pc pc' : SyncPc} {pcs : List SyncPc}
  {obj : ℕ}

theorem Delivered.otherKind (h : Delivered k d (pc :: pcs))
    (hpc : ∀ obj status cause, pc ≠ .signalSynx obj status cause) {row : SyncRow}
    (htable : d'.table = (d.setRow obj row).table) (hlocks : d'.rowLocked = d.rowLocked)
    (hstate : row.state = (d.table obj).state)
    (hremaining : row.remaining = (d.table obj).remaining)
    (hpending : k.pending row = k.pending (d.table obj))
    (hregistered : k.registered d' = k.registered d) (hsent : k.sent d' = k.sent d) :
    Delivered k d' (pc' :: pcs) := by
  apply h.same hpc
  intro other
  by_cases hother : other = obj
  · subst hother
    have hself : d'.table other = row := by
      rw [htable]
      exact setRow_table_self
    refine ⟨by rw [hself, hstate], by rw [hself, hremaining], by rw [hlocks], ?_⟩
    rw [NoticeKind.notices, NoticeKind.notices, hself, hpending, hregistered, hsent]
  · have hrow : d'.table other = d.table other := by
      rw [htable]
      exact setRow_table_of_ne hother
    refine ⟨by rw [hrow], by rw [hrow], by rw [hlocks], ?_⟩
    rw [NoticeKind.notices, NoticeKind.notices, hrow, hregistered, hsent]

variable {x : α}

theorem Delivered.waits (h : Delivered k d (pc :: pcs))
    (hpc : ∀ obj status cause, pc ≠ .signalSynx obj status cause) {row : SyncRow}
    (htable : d'.table = (d.setRow obj row).table) (hlocks : d'.rowLocked = d.rowLocked)
    (hstate : row.state = (d.table obj).state)
    (hremaining : row.remaining = (d.table obj).remaining)
    (hpending : k.pending row = k.pending (d.table obj) ++ [x])
    (hregistered : ∀ other, k.registered d' other =
      k.registered d other ++ if other = obj then [x] else []) (hsent : k.sent d' = k.sent d)
    (hfinal : ¬d.Final obj) (hfresh : ¬d.Fresh obj) : Delivered k d' (pc' :: pcs) := by
  have hself : d'.table obj = row := by
    rw [htable]
    exact setRow_table_self
  have hothers : ∀ other, other ≠ obj → d'.table other = d.table other := by
    intro other hne
    rw [htable]
    exact setRow_table_of_ne hne
  apply h.at obj (fun other status cause _ => hpc other status cause)
  · intro other hne
    refine ⟨by rw [hothers other hne], by rw [hothers other hne], by rw [hlocks], ?_⟩
    rw [NoticeKind.notices, hothers other hne, hregistered, if_neg hne, append_nil, hsent]
    rfl
  · have hstill : Delivered k d (pc' :: pcs) := h.same hpc fun _ => ⟨rfl, rfl, rfl, rfl⟩
    have happend := (hstill obj).append x hfinal hfresh
    rw [NoticeKind.notices, SyncDevice.Final, SyncDevice.Fresh, hself, hregistered, if_pos rfl,
      hsent, hlocks, hpending, hstate, hremaining]
    exact happend

theorem Delivered.sendsNow (h : Delivered k d (pc :: pcs))
    (hpc : ∀ obj status cause, pc ≠ .signalSynx obj status cause) (htable : d'.table = d.table)
    (hlocks : d'.rowLocked = d.rowLocked) (hregistered : ∀ other, k.registered d' other =
      k.registered d other ++ if other = obj then [x] else []) (hsent : ∀ other, k.sent d' other =
      k.sent d other ++ if other = obj then [(x, (d.table obj).state)] else [])
    (hfinal : d.Final obj) (hfresh : ¬d.Fresh obj) : Delivered k d' (pc' :: pcs) := by
  apply h.at obj (fun other status cause _ => hpc other status cause)
  · intro other hne
    refine ⟨by rw [htable], by rw [htable], by rw [hlocks], ?_⟩
    rw [NoticeKind.notices, htable, hregistered, if_neg hne, append_nil, hsent, if_neg hne,
      append_nil]
    rfl
  · have hstill : Delivered k d (pc' :: pcs) := h.same hpc fun _ => ⟨rfl, rfl, rfl, rfl⟩
    have hsend := (hstill obj).sendNow x hfinal hfresh
    rw [NoticeKind.notices, SyncDevice.Final, SyncDevice.Fresh, hregistered, if_pos rfl, hsent,
      if_pos rfl, htable, hlocks]
    exact hsend

theorem not_fresh_of_valid (hvalid : (d.table obj).state ≠ .invalid)
    (hlocked : d.rowLocked obj = false) : ¬d.Fresh obj := by
  rw [SyncDevice.Fresh, hlocked, not_or]
  exact ⟨hvalid, Bool.false_ne_true⟩

theorem filter_map_append {β γ : Type} (key : β → ℕ) (value : β → γ) (log : List β) (entry : β)
    (idx : ℕ) : ((log ++ [entry]).filter (key · = idx)).map value =
      (log.filter (key · = idx)).map value ++ if idx = key entry then [value entry] else [] := by
  rw [filter_append, map_append, filter_singleton]
  apply congrArg
  by_cases hidx : idx = key entry
  · rw [if_pos hidx, decide_eq_true hidx.symm]
    rfl
  · rw [if_neg hidx, decide_eq_false (Ne.symm hidx)]
    rfl

theorem Delivered.registerCallback (h : Delivered callbackKind d (pc :: pcs))
    (hpc : ∀ obj status cause, pc ≠ .signalSynx obj status cause) (obj : ℕ) (cb : SyncCallback)
    (alloc : Bool) (hlocked : d.rowLocked obj = false) :
    Delivered callbackKind (d.registerCallback obj cb alloc).1
      ((d.registerCallback obj cb alloc).2 :: pcs) := by
  have hstill : ∀ pc' : SyncPc, Delivered callbackKind d (pc' :: pcs) :=
    fun pc' => h.same hpc fun _ => ⟨rfl, rfl, rfl, rfl⟩
  rw [SyncDevice.registerCallback]
  split
  · exact hstill _
  split
  · exact hstill _
  rename_i hvalid
  have hfresh : ¬d.Fresh obj := not_fresh_of_valid hvalid hlocked
  split
  · exact hstill _
  split
  · rename_i hnow
    rw [Bool.and_eq_true, beq_iff_eq] at hnow
    apply h.sendsNow hpc
    · rfl
    · rfl
    · exact filter_map_append Prod.fst Prod.snd d.registered (obj, cb)
    · exact filter_map_append SyncDispatch.syncObj (fun e => (e.callback, e.status)) d.dispatched
        ⟨obj, (d.table obj).state, cb⟩
    · exact ⟨hnow.1, hnow.2, hlocked⟩
    · exact hfresh
  · rename_i hwait
    have hfinal : ¬d.Final obj := by
      intro hfinal
      apply hwait
      rw [Bool.and_eq_true, beq_iff_eq]
      exact ⟨hfinal.1, hfinal.2.1⟩
    apply h.waits hpc
    · rfl
    · rfl
    · rfl
    · rfl
    · rfl
    · exact filter_map_append Prod.fst Prod.snd d.registered (obj, cb)
    · rfl
    · exact hfinal
    · exact hfresh

theorem Delivered.callbacks_registerUserPayload (h : Delivered callbackKind d (pc :: pcs))
    (hpc : ∀ obj status cause, pc ≠ .signalSynx obj status cause) (obj : ℕ)
    (payload : SyncPayload) (alloc : Bool) :
    Delivered callbackKind (d.registerUserPayload obj payload alloc).1
      ((d.registerUserPayload obj payload alloc).2 :: pcs) := by
  have hstill : ∀ pc' : SyncPc, Delivered callbackKind d (pc' :: pcs) :=
    fun pc' => h.same hpc fun _ => ⟨rfl, rfl, rfl, rfl⟩
  rw [SyncDevice.registerUserPayload]
  split
  · exact hstill _
  split
  · exact hstill _
  split
  · exact hstill _
  split
  · apply h.otherKind hpc
    · exact (Function.update_eq_self obj d.table).symm
    · rfl
    · rfl
    · rfl
    · rfl
    · rfl
    · exact congrArg (fun (log : List SyncDispatch) (idx : ℕ) =>
        (log.filter (·.syncObj = idx)).map fun e => (e.callback, e.status))
        (append_nil d.dispatched)
  split
  · exact hstill _
  · apply h.otherKind hpc
    · rfl
    · rfl
    · rfl
    · rfl
    · rfl
    · rfl
    · rfl

/-- A payload waits in the row, or its event is sent at once when the object is signaled, which
must then be its final state. -/
theorem Delivered.registerUserPayload (h : Delivered payloadKind d (pc :: pcs))
    (hpc : ∀ obj status cause, pc ≠ .signalSynx obj status cause) (obj : ℕ)
    (payload : SyncPayload) (alloc : Bool) (hlocked : d.rowLocked obj = false)
    (hok : (d.table obj).state.signaled = true → (d.table obj).remaining = 0) :
    Delivered payloadKind (d.registerUserPayload obj payload alloc).1
      ((d.registerUserPayload obj payload alloc).2 :: pcs) := by
  have hstill : ∀ pc' : SyncPc, Delivered payloadKind d (pc' :: pcs) :=
    fun pc' => h.same hpc fun _ => ⟨rfl, rfl, rfl, rfl⟩
  rw [SyncDevice.registerUserPayload]
  split
  · exact hstill _
  split
  · exact hstill _
  split
  · exact hstill _
  rename_i hvalid
  have hfresh : ¬d.Fresh obj := not_fresh_of_valid hvalid hlocked
  split
  · rename_i hsignaled
    apply h.sendsNow hpc
    · rfl
    · rfl
    · exact filter_map_append Prod.fst Prod.snd d.payloads (obj, payload)
    · exact filter_map_append SyncEvent.syncObj (fun e => (e.payload, e.status)) d.events
        ⟨obj, (d.table obj).state, payload, regPayloadEvent⟩
    · exact ⟨hsignaled, hok hsignaled, hlocked⟩
    · exact hfresh
  rename_i hsignaled
  split
  · exact hstill _
  · apply h.waits hpc
    · rfl
    · rfl
    · rfl
    · rfl
    · rfl
    · exact filter_map_append Prod.fst Prod.snd d.payloads (obj, payload)
    · rfl
    · exact fun hfinal => hsignaled hfinal.1
    · exact hfresh

theorem Delivered.payloads_registerCallback (h : Delivered payloadKind d (pc :: pcs))
    (hpc : ∀ obj status cause, pc ≠ .signalSynx obj status cause) (obj : ℕ) (cb : SyncCallback)
    (alloc : Bool) :
    Delivered payloadKind (d.registerCallback obj cb alloc).1
      ((d.registerCallback obj cb alloc).2 :: pcs) := by
  have hstill : ∀ pc' : SyncPc, Delivered payloadKind d (pc' :: pcs) :=
    fun pc' => h.same hpc fun _ => ⟨rfl, rfl, rfl, rfl⟩
  rw [SyncDevice.registerCallback]
  split
  · exact hstill _
  split
  · exact hstill _
  split
  · exact hstill _
  split
  · apply h.otherKind hpc
    · exact (Function.update_eq_self obj d.table).symm
    · rfl
    · rfl
    · rfl
    · rfl
    · rfl
    · exact congrArg (fun (log : List SyncEvent) (idx : ℕ) =>
        (log.filter (·.syncObj = idx)).map fun e => (e.payload, e.status))
        (append_nil d.events)
  · apply h.otherKind hpc
    · rfl
    · rfl
    · rfl
    · rfl
    · rfl
    · rfl
    · rfl

end Register

end QcomModules.CamSync
