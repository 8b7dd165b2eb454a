import QcomModules.CamReqMgr.IndexRange

/-! What the recovery of a bubble does to the queue of its link, by what the basic steps do in a
known state, and when the internal recovery of back-to-back bubbles is decided by the bubbled
request's own record. -/

namespace QcomModules.CamReqMgr

open Library
open List hiding Vector

/-! ## Known links -/

def nextSlot (k : SlotNum) : SlotNum :=
  ⟨(k.val + 1) % maxReqSlots, Nat.mod_lt _ (by decide)⟩

theorem incIdx_one (k : SlotNum) : incIdx k 1 numSlots = nextSlot k := by
  have hsum : (k.val : ℤ) + 1 = (k.val + 1 : ℕ) := rfl
  rw [incIdx, hsum, numSlots]
  rfl

/-! ## States -/

/-- A state with another link at a place. -/
def Core.put (s : Core) (i : ℕ) (l : Link) : Core :=
  { s with links := s.links.set i l }

theorem Core.put_links {s : Core} {i : ℕ} {l : Link} (h : s.links[i]? = some l) (l' : Link) :
    (s.put i l').links[i]? = some l' := by
  obtain ⟨hlt, -⟩ := List.getElem?_eq_some_iff.1 h
  rw [Core.put, getElem?_set_self hlt]

theorem Core.put_put (s : Core) (i : ℕ) (l l' : Link) : (s.put i l).put i l' = s.put i l' := by
  rw [Core.put, Core.put, Core.put, set_set]

theorem Core.put_self {s : Core} {i : ℕ} {l : Link} (h : s.links[i]? = some l) :
    s.put i l = s := by
  obtain ⟨hlt, rfl⟩ := List.getElem?_eq_some_iff.1 h
  rw [Core.put, set_getElem_self]

/-! ## Steps -/

def Link.updateSlot (l : Link) (k : SlotNum) (f : Slot → Slot) : Link :=
  l.withSlots (l.inQ.slot.set k (f l.inQ.slot[k]))

def Link.updateTbls (l : Link) (k : SlotNum) (f : TblSlot → TblSlot) : Link :=
  l.withTbls (l.lTbl.map fun tbl => tbl.withSlots (tbl.slot.set k (f tbl.slot[k])))

theorem Link.updateSlot_slot (l : Link) (k : SlotNum) (f : Slot → Slot) (j : SlotNum) :
    (l.updateSlot k f).inQ.slot[j] = if j = k then f l.inQ.slot[j] else l.inQ.slot[j] := by
  change (l.inQ.slot.set k.val (f l.inQ.slot[k.val]) k.isLt)[j.val] = _
  rw [Vector.getElem_set]
  by_cases hjk : j = k
  · subst hjk
    rw [if_pos rfl, if_pos rfl]
    rfl
  · rw [if_neg hjk, if_neg fun h => hjk (Fin.ext h.symm)]
    rfl

theorem Link.updateTbls_inQ (l : Link) (k : SlotNum) (f : TblSlot → TblSlot) :
    (l.updateTbls k f).inQ = l.inQ := rfl

section Known

variable {i : ℕ} {s : Core} {l : Link}

theorem modLink_run (f : Link → Link) (h : s.links[i]? = some l) :
    modLink i f s = .ok ((), s.put i (f l)) := by
  have hset : s.links.modify i f = s.links.set i (f l) := by
    ext1 j
    rw [getElem?_modify, getElem?_set]
    by_cases hij : i = j
    · subst hij
      obtain ⟨hlt, hget⟩ := List.getElem?_eq_some_iff.1 h
      simp [hlt, hget]
    · simp [hij]
  change Except.ok ((), { s with links := s.links.modify i f }) = _
  rw [hset]
  rfl

theorem link_known (h : s.links[i]? = some l) : link i s = .ok (l, s) := by
  rw [link_run, h]

variable {α : Type} {n : ℕ}

theorem elemAt_slotNum (array : Vector α n) (k : Fin n) : elemAt array k.val = .ok array[k] :=
  dif_pos ⟨Int.natCast_nonneg k.val, k.isLt⟩

theorem modElem_slotNum (array : Vector α n) (k : Fin n) (f : α → α) :
    modElem array k.val f = .ok (array.set k (f array[k])) :=
  dif_pos ⟨Int.natCast_nonneg k.val, k.isLt⟩

theorem slotAt_known (h : s.links[i]? = some l) (k : SlotNum) :
    slotAt i k.val s = .ok (l.inQ.slot[k], s) := by
  change Except.bind (link i s) _ = _
  rw [link_known h]
  change Except.bind (elemAt l.inQ.slot k.val) _ = _
  rw [elemAt_slotNum]
  rfl

theorem modSlot_known (h : s.links[i]? = some l) (k : SlotNum) (f : Slot → Slot) :
    modSlot i k.val f s = .ok ((), s.put i (l.updateSlot k f)) := by
  change Except.bind (link i s) _ = _
  rw [link_known h]
  change Except.bind (Except.bind (modElem l.inQ.slot k.val f) _) _ = _
  rw [modElem_slotNum]
  exact modLink_run _ h

theorem modTblSlots_known (h : s.links[i]? = some l) (k : SlotNum) (f : TblSlot → TblSlot) :
    modTblSlots i k.val f s = .ok ((), s.put i (l.updateTbls k f)) := by
  have hmap : ∀ lTbl : List ReqTbl, (lTbl.mapM fun tbl =>
      return tbl.withSlots (← modElem tbl.slot k.val f) : Except Fault (List ReqTbl)) =
        .ok (lTbl.map fun tbl => tbl.withSlots (tbl.slot.set k (f tbl.slot[k]))) := by
    intro lTbl
    induction lTbl with
    | nil => rfl
    | cons tbl lTbl ih =>
      rw [mapM_cons, ih, modElem_slotNum]
      rfl
  change Except.bind (link i s) _ = _
  rw [link_known h]
  change Except.bind (Except.bind (mapM _ l.lTbl) _) _ = _
  rw [hmap]
  exact modLink_run _ h

end Known

/-! ## What the recovery is for -/

/-- A slot whose request was bubbled as often as a notification says. -/
def Slot.counted (err : ErrorNotify) (slot : Slot) : Slot :=
  { slot with bubbleTimes := if err.isBubble then slot.bubbleTimes + 1 else slot.bubbleTimes }

/-- Back-to-back bubbles of a request that was not internally recovered. -/
def Slot.RecoveryDue (slot : Slot) : Prop :=
  reqMaximumBubbleTimes ≤ slot.bubbleTimes ∧ slot.internalRecovered = false

instance (slot : Slot) : Decidable slot.RecoveryDue := inferInstanceAs (Decidable (_ ∧ _))

/-- The bubbled request of a slot is due for internal recovery. -/
def Link.RecoveryDue (l : Link) (err : ErrorNotify) (pos : SlotNum) : Prop :=
  (l.inQ.slot[pos].counted err).RecoveryDue

instance (l : Link) (err : ErrorNotify) (pos : SlotNum) : Decidable (l.RecoveryDue err pos) :=
  inferInstanceAs (Decidable (Slot.RecoveryDue _))

/-- A slot lies behind another one, around the queue, up to the one last applied; where none is,
only the next slot does. -/
def ReqQueue.Behind (inQ : ReqQueue) (pos k : SlotNum) : Prop :=
  if inQ.lastAppliedIdx < 0 then k = nextSlot pos
  else if pos ≤ inQ.lastAppliedIdx then pos < k ∧ k ≤ inQ.lastAppliedIdx
  else pos < k ∨ k ≤ inQ.lastAppliedIdx

instance (inQ : ReqQueue) (pos k : SlotNum) : Decidable (inQ.Behind pos k) := by
  unfold ReqQueue.Behind
  infer_instance

/-- The slots a bubble has to turn back: its own, and the applied ones behind it. -/
def ReqQueue.TurnsBack (inQ : ReqQueue) (pos k : SlotNum) : Prop :=
  k = pos ∨ inQ.slot[k].status = .reqApplied ∧ inQ.Behind pos k

instance (inQ : ReqQueue) (pos k : SlotNum) : Decidable (inQ.TurnsBack pos k) :=
  inferInstanceAs (Decidable (_ ∨ _))

/-- A table whose devices forgot that they applied the requests of some slots. -/
def ReqTbl.forgetAt (P : SlotNum → Prop) [DecidablePred P] (tbl : ReqTbl) : ReqTbl :=
  tbl.withSlots (.ofFn fun k =>
    if P k then { tbl.slot[k] with reqApplyMap := 0 } else tbl.slot[k])

def stalledCalls (s : Core) (l : Link) (reqId : ℤ) : List DeviceCall :=
  match sendEvtTo (.stalled reqId) l.devs true s with
  | .ok (_, s') => s'.calls
  | .error _ => s.calls

/-- The queue and the tables of a link after the bubble of the request in a slot. -/
structure Link.Rewound (l l' : Link) (err : ErrorNotify) (pos : SlotNum) : Prop where
  rdIdx : l'.inQ.rdIdx = pos
  status : ∀ k : SlotNum, l'.inQ.slot[k].status =
    if l.inQ.TurnsBack pos k then .reqAdded else l.inQ.slot[k].status
  tbls : l'.lTbl = (tblSetAllSkipCnt l.lTbl).map (·.forgetAt (l.inQ.TurnsBack pos))
  bubbleTimes : ∀ k : SlotNum, l'.inQ.slot[k].bubbleTimes =
    if k = pos ∧ err.isBubble then l.inQ.slot[k].bubbleTimes + 1 else l.inQ.slot[k].bubbleTimes

/-- The recovery acts on the bubbled request, up to the final re-apply: the queue is set back to
it, and internal recovery is tried and recorded exactly where its own record says so. -/
def Core.RecoversBubble (s : Core) (i : ℕ) (err : ErrorNotify) (pos : SlotNum) : Prop :=
  ∃ l s' l', s.links[i]? = some l ∧ recoverBubble i err pos.val s = .ok ((), s') ∧
    s'.links[i]? = some l' ∧ l.Rewound l' err pos ∧
    s'.calls = (if l.RecoveryDue err pos then stalledCalls s l err.notify.reqId else s.calls) ∧
    ∀ k : SlotNum, l'.inQ.slot[k].internalRecovered =
      (l.inQ.slot[k].internalRecovered || decide (k = pos ∧ l.RecoveryDue err pos))

/-- The slot an internal recovery is decided by is the bubbled one, or no recovery is due in either;
nothing the recovery reads through is missing. -/
def Link.DecidesOwn (l : Link) (err : ErrorNotify) (pos : SlotNum) : Prop :=
  if l.syncLink[0].isSome then
    l.lTbl ≠ [] ∧ ¬ l.RecoveryDue err pos ∧ ¬ l.inQ.slot[nextSlot pos].RecoveryDue
  else (l.RecoveryDue err pos → l.watchdog.isSome) ∧ (l.lTbl = [] → l.inQ.slotDiff pos.val ≤ 0)

instance (l : Link) (err : ErrorNotify) (pos : SlotNum) : Decidable (l.DecidesOwn err pos) := by
  unfold Link.DecidesOwn
  infer_instance

/-! ## The slots set back -/

def Slot.added (slot : Slot) : Slot :=
  { slot with status := .reqAdded }

def Link.readd (l : Link) (k : SlotNum) : Link :=
  if l.inQ.slot[k].status = .reqApplied then
    (l.updateSlot k Slot.added).updateTbls k fun slot => { slot with reqApplyMap := 0 }
  else l

/-- The next slots behind one, around the queue. -/
def ahead : ℕ → SlotNum → List SlotNum
  | 0, _ => []
  | n + 1, pos => nextSlot pos :: ahead n (nextSlot pos)

theorem reapplyFrom_run {i : ℕ} {s : Core} {l : Link} (h : s.links[i]? = some l) (n : ℕ)
    (pos : SlotNum) :
    reapplyFrom i n pos.val s = .ok ((), s.put i ((ahead n pos).foldl Link.readd l)) := by
  induction n generalizing s l pos with
  | zero =>
    rw [ahead, foldl_nil, Core.put_self h]
    rfl
  | succ n ih =>
    rw [reapplyFrom, incIdx_one, run_bind (slotAt_known h _), ahead, foldl_cons, Link.readd]
    split
    · have hslot := Core.put_links h (l.updateSlot (nextSlot pos) Slot.added)
      refine (run_bind (modSlot_known h _ Slot.added) _).trans ?_
      rw [forgetApplied, run_bind (modTblSlots_known hslot _ _), Core.put_put]
      refine (ih (Core.put_links h _) _).trans ?_
      rw [Core.put_put]
    · exact ih h _

theorem mem_ahead {n : ℕ} {pos k : SlotNum} :
    k ∈ ahead n pos ↔ ∃ d, 0 < d ∧ d ≤ n ∧ k.val = (pos.val + d) % maxReqSlots := by
  induction n generalizing pos with
  | zero =>
    refine ⟨fun h => absurd h not_mem_nil, fun h => ?_⟩
    obtain ⟨d, hpos, hle, -⟩ := h
    omega
  | succ n ih =>
    rw [ahead, mem_cons, ih]
    constructor
    · rintro (rfl | ⟨d, hpos, hle, hk⟩)
      · exact ⟨1, by decide, Nat.succ_le_succ n.zero_le, rfl⟩
      · refine ⟨d + 1, d.succ_pos, Nat.succ_le_succ hle, ?_⟩
        rw [hk]
        simp only [nextSlot, Nat.mod_add_mod, Nat.add_assoc, Nat.add_comm 1]
    · rintro ⟨d, hpos, hle, hk⟩
      cases d with
      | zero => exact absurd hpos (Nat.lt_irrefl 0)
      | succ d =>
        by_cases hd : d = 0
        · subst hd
          exact .inl (Fin.ext hk)
        · refine .inr ⟨d, Nat.pos_of_ne_zero hd, Nat.le_of_succ_le_succ hle, ?_⟩
          rw [hk]
          simp only [nextSlot, Nat.mod_add_mod, Nat.add_assoc, Nat.add_comm 1]

theorem mem_ahead_slotDiff {inQ : ReqQueue} (hlast : inQ.lastAppliedIdx < numSlots)
    (pos k : SlotNum) : k ∈ ahead (inQ.slotDiff pos.val).toNat pos ↔ inQ.Behind pos k := by
  have hpos := pos.isLt
  have hk := k.isLt
  rw [mem_ahead, ReqQueue.Behind, ReqQueue.slotDiff]
  simp only [numSlots, maxReqSlots, nextSlot, Fin.lt_def] at *
  by_cases hneg : inQ.lastAppliedIdx < 0
  · rw [if_pos hneg, if_neg (Int.not_le.2 hneg)]
    constructor
    · rintro ⟨d, hd0, hd1, heq⟩
      obtain rfl : d = 1 := by omega
      exact Fin.ext heq
    · exact fun heq => ⟨1, by decide, by decide, congrArg Fin.val heq⟩
  · rw [if_neg hneg, if_pos (Int.not_lt.1 hneg)]
    by_cases hle : (pos.val : ℤ) ≤ inQ.lastAppliedIdx
    · rw [if_pos hle, if_neg (by omega)]
      constructor
      · rintro ⟨d, hd0, hd1, heq⟩
        omega
      · exact fun hbetween => ⟨k.val - pos.val, by omega, by omega, by omega⟩
    · rw [if_neg hle, if_pos (by omega)]
      constructor
      · rintro ⟨d, hd0, hd1, heq⟩
        omega
      · rintro (hbehind | hwrapped)
        · exact ⟨k.val - pos.val, by omega, by omega, by omega⟩
        · exact ⟨k.val + 48 - pos.val, by omega, by omega, by omega⟩

section Tables

variable {P Q : SlotNum → Prop} [DecidablePred P] [DecidablePred Q]

theorem ReqTbl.forgetAt_get (tbl : ReqTbl) {j : ℕ} (hj : j < maxReqSlots) :
    (tbl.forgetAt P).slot[j] =
      if P ⟨j, hj⟩ then { tbl.slot[j] with reqApplyMap := 0 } else tbl.slot[j] :=
  Vector.getElem_ofFn hj

theorem ReqTbl.withSlots_withSlots (tbl : ReqTbl) (slots slots' : Vector TblSlot maxReqSlots) :
    (tbl.withSlots slots).withSlots slots' = tbl.withSlots slots' := rfl

theorem ReqTbl.forgetAt_forgetAt (tbl : ReqTbl) :
    (tbl.forgetAt P).forgetAt Q = tbl.forgetAt fun k => P k ∨ Q k := by
  unfold ReqTbl.forgetAt
  rw [withSlots_withSlots]
  refine congrArg tbl.withSlots (Vector.ext fun j hj => ?_)
  rw [Vector.getElem_ofFn, Vector.getElem_ofFn]
  change (if Q ⟨j, hj⟩ then { (tbl.forgetAt P).slot[j] with reqApplyMap := 0 } else
    (tbl.forgetAt P).slot[j]) = _
  rw [forgetAt_get]
  by_cases hP : P ⟨j, hj⟩ <;> by_cases hQ : Q ⟨j, hj⟩ <;> simp [hP, hQ]

theorem ReqTbl.forgetAt_congr (h : ∀ k, P k ↔ Q k) (tbl : ReqTbl) :
    tbl.forgetAt P = tbl.forgetAt Q := by
  refine congrArg tbl.withSlots (congrArg Vector.ofFn (funext fun k => ?_))
  simp only [h k]

theorem updateTbls_eq_forgetAt (l : Link) (k : SlotNum) :
    (l.updateTbls k fun slot => { slot with reqApplyMap := 0 }).lTbl =
      l.lTbl.map (·.forgetAt (· = k)) := by
  refine map_congr_left fun tbl _ => congrArg tbl.withSlots (Vector.ext fun j hj => ?_)
  rw [Vector.getElem_set]
  refine Eq.trans ?_ (tbl.forgetAt_get hj).symm
  by_cases hjk : k.val = j
  · subst hjk
    rw [if_pos rfl, if_pos rfl]
    rfl
  · rw [if_neg hjk, if_neg fun h => hjk (congrArg Fin.val h).symm]

theorem ReqTbl.forgetAt_none (h : ∀ k, ¬ P k) (tbl : ReqTbl) : tbl.forgetAt P = tbl := by
  have hslots : (Vector.ofFn fun k : SlotNum =>
      if P k then { tbl.slot[k] with reqApplyMap := 0 } else tbl.slot[k]) = tbl.slot := by
    refine Vector.ext fun j hj => ?_
    rw [Vector.getElem_ofFn, if_neg (h _)]
    rfl
  rw [ReqTbl.forgetAt, hslots]
  rfl

end Tables

theorem Link.readd_slot (l : Link) (k j : SlotNum) :
    (l.readd k).inQ.slot[j] =
      if j = k ∧ l.inQ.slot[j].status = .reqApplied then l.inQ.slot[j].added
      else l.inQ.slot[j] := by
  rw [Link.readd]
  by_cases happlied : l.inQ.slot[k].status = .reqApplied
  · have hslot := l.updateSlot_slot k Slot.added j
    rw [if_pos happlied, Link.updateTbls_inQ, hslot]
    by_cases hjk : j = k
    · subst hjk
      rw [if_pos rfl, if_pos ⟨rfl, happlied⟩]
    · rw [if_neg hjk, if_neg fun h => hjk h.1]
  · rw [if_neg happlied, if_neg]
    rintro ⟨rfl, h⟩
    exact happlied h

theorem Link.readd_lTbl (l : Link) (k : SlotNum) : (l.readd k).lTbl =
    l.lTbl.map (·.forgetAt fun j => j = k ∧ l.inQ.slot[j].status = .reqApplied) := by
  rw [Link.readd]
  split
  · rename_i happlied
    refine (updateTbls_eq_forgetAt _ k).trans (map_congr_left fun tbl _ => ?_)
    refine ReqTbl.forgetAt_congr (fun j => ⟨?_, And.left⟩) tbl
    rintro rfl
    exact ⟨rfl, happlied⟩
  · rename_i happlied
    refine (map_id _).symm.trans (map_congr_left fun tbl _ => ?_)
    refine (ReqTbl.forgetAt_none (fun j => ?_) tbl).symm
    rintro ⟨rfl, h⟩
    exact happlied h

theorem Link.readd_rdIdx (l : Link) (k : SlotNum) : (l.readd k).inQ.rdIdx = l.inQ.rdIdx := by
  rw [Link.readd]
  split <;> rfl

theorem foldl_readd_slot (ks : List SlotNum) (l : Link) (j : SlotNum) :
    (ks.foldl Link.readd l).inQ.slot[j] =
      if j ∈ ks ∧ l.inQ.slot[j].status = .reqApplied then l.inQ.slot[j].added
      else l.inQ.slot[j] := by
  induction ks generalizing l with
  | nil => exact (if_neg fun h => not_mem_nil h.1).symm
  | cons k ks ih =>
    rw [foldl_cons, ih, Link.readd_slot]
    by_cases hjk : j = k ∧ l.inQ.slot[j].status = .reqApplied
    · have hadded : l.inQ.slot[j].added.status ≠ .reqApplied := CrmSlotStatus.noConfusion
      rw [if_pos hjk, if_neg fun h => hadded h.2, if_pos ⟨mem_cons.2 (.inl hjk.1), hjk.2⟩]
    · rw [if_neg hjk]
      refine if_congr (and_congr_left fun happlied => ?_) rfl rfl
      rw [mem_cons]
      exact ⟨.inr, fun h => h.resolve_left fun heq => hjk ⟨heq, happlied⟩⟩

theorem foldl_readd_lTbl (ks : List SlotNum) (l : Link) : (ks.foldl Link.readd l).lTbl =
    l.lTbl.map (·.forgetAt fun j => j ∈ ks ∧ l.inQ.slot[j].status = .reqApplied) := by
  induction ks generalizing l with
  | nil =>
    refine (map_id _).symm.trans (map_congr_left fun tbl _ => ?_)
    exact (ReqTbl.forgetAt_none (fun j h => not_mem_nil h.1) tbl).symm
  | cons k ks ih =>
    rw [foldl_cons, ih, Link.readd_lTbl, map_map]
    refine map_congr_left fun tbl _ => ?_
    rw [Function.comp_apply, ReqTbl.forgetAt_forgetAt]
    refine ReqTbl.forgetAt_congr (fun j => ?_) tbl
    rw [Link.readd_slot, mem_cons]
    by_cases hjk : j = k ∧ l.inQ.slot[j].status = .reqApplied
    · exact iff_of_true (.inl hjk) ⟨.inl hjk.1, hjk.2⟩
    · rw [if_neg hjk, or_iff_right hjk]
      refine and_congr_left fun happlied => ?_
      exact ⟨.inr, fun h => h.resolve_left fun heq => hjk ⟨heq, happlied⟩⟩

theorem foldl_readd_rdIdx (ks : List SlotNum) (l : Link) :
    (ks.foldl Link.readd l).inQ.rdIdx = l.inQ.rdIdx := by
  induction ks generalizing l with
  | nil => rfl
  | cons k ks ih => rw [foldl_cons, ih, Link.readd_rdIdx]

/-! ## The parts of the recovery -/

def Link.bubbled (l : Link) (err : ErrorNotify) (pos : SlotNum) : Link :=
  ((l.setBack pos.val).updateSlot pos fun slot => (slot.counted err).added).updateTbls pos
    fun slot => { slot with reqApplyMap := 0 }

/-- The end of `recoverBubble`, which turns the slots behind the bubbled one back. -/
def rewindApplied (i : ℕ) : Crm Unit := do
  let l ← link i
  let slotDiff := (l.inQ.slotDiff l.inQ.rdIdx).toNat
  if l.lTbl.isEmpty ∧ slotDiff ≠ 0 then throw .null
  reapplyFrom i slotDiff l.inQ.rdIdx
  modLink i fun l => { l with state := .err, openReqCnt := l.openReqCnt + 1 }

def Link.unsynced (l : Link) (pos : SlotNum) : Link :=
  (l.updateSlot pos fun slot => { slot with syncMode := 0 }).updateSlot (nextSlot pos)
    fun slot => { slot with syncMode := 0 }

def Link.recovered (l : Link) (k : SlotNum) : Link :=
  { l.updateSlot k fun slot => { slot with internalRecovered := true } with
    tryForInternalRecovery := false }

section Parts

variable {i : ℕ} {s : Core} {l : Link}

theorem recoverBubble_run (h : s.links[i]? = some l) (err : ErrorNotify) (pos : SlotNum) :
    recoverBubble i err pos.val s = (do
      recoverInternally i err.notify.reqId (← dropSyncMode i pos.val)
      rewindApplied i) (s.put i (l.bubbled err pos)) := by
  have hback := Core.put_links h (l.setBack pos.val)
  have hslot := Core.put_links h
    ((l.setBack pos.val).updateSlot pos fun slot => (slot.counted err).added)
  rw [recoverBubble, run_bind (modLink_run _ h)]
  refine (run_bind (modSlot_known hback pos fun slot => (slot.counted err).added) _).trans ?_
  rw [Core.put_put, forgetApplied, run_bind (modTblSlots_known hslot _ _), Core.put_put]
  rfl

theorem dropSyncMode_solo (h : s.links[i]? = some l) (hsync : l.syncLink[0].isSome = false)
    (pos : SlotNum) : dropSyncMode i pos.val s = .ok (pos.val, s) := by
  have helem : (StateT.lift (elemAt l.syncLink 0) : Crm _) s = .ok (l.syncLink[0], s) := rfl
  rw [dropSyncMode, run_bind (link_known h), run_bind helem, hsync]
  rfl

theorem dropSyncMode_synced (h : s.links[i]? = some l) (hsync : l.syncLink[0].isSome)
    (htbls : l.lTbl ≠ []) (pos : SlotNum) :
    dropSyncMode i pos.val s = .ok ((nextSlot pos).val, s.put i (l.unsynced pos)) := by
  have helem : (StateT.lift (elemAt l.syncLink 0) : Crm _) s = .ok (l.syncLink[0], s) := rfl
  have hslot := Core.put_links h (l.updateSlot pos fun slot => { slot with syncMode := 0 })
  have htbls' : (l.updateSlot pos fun slot => { slot with syncMode := 0 }).lTbl.isEmpty = false :=
    isEmpty_eq_false_iff.2 htbls
  rw [dropSyncMode, run_bind (link_known h), run_bind helem, if_pos hsync,
    run_bind (modSlot_known h _ _), run_bind (link_known hslot), htbls']
  simp only [Bool.false_eq_true, if_false]
  rw [incIdx_one, run_bind (modSlot_known hslot _ _), Core.put_put]
  rfl

theorem dropSyncMode_null (h : s.links[i]? = some l) (hsync : l.syncLink[0].isSome)
    (htbls : l.lTbl = []) (pos : SlotNum) : dropSyncMode i pos.val s = .error .null := by
  have helem : (StateT.lift (elemAt l.syncLink 0) : Crm _) s = .ok (l.syncLink[0], s) := rfl
  have hslot := Core.put_links h (l.updateSlot pos fun slot => { slot with syncMode := 0 })
  have htbls' : (l.updateSlot pos fun slot => { slot with syncMode := 0 }).lTbl.isEmpty = true :=
    List.isEmpty_iff.2 htbls
  rw [dropSyncMode, run_bind (link_known h), run_bind helem, if_pos hsync,
    run_bind (modSlot_known h _ _), run_bind (link_known hslot), if_pos htbls']
  rfl

theorem sendEvtTo_run (evt : Bool → LinkEvt) (devs : List ConnectedDevice) (tryRecovery : Bool)
    (answers : List Answer) (calls : List DeviceCall) :
    ∃ out answers' calls', ∀ s : Core,
      sendEvtTo evt devs tryRecovery { s with answers, calls } =
        .ok (out, { s with answers := answers', calls := calls' }) := by
  induction devs generalizing tryRecovery answers calls with
  | nil => exact ⟨(0, tryRecovery), answers, calls, fun s => rfl⟩
  | cons dev devs ih =>
    by_cases hops : dev.ops.processEvt
    · have hask : ∀ s : Core, ask (.processEvt dev.devHdl (evt tryRecovery))
          { s with answers, calls } = .ok (answers.headD {}, { s with
            answers := answers.tail
            calls := calls ++ [.processEvt dev.devHdl (evt tryRecovery)] }) := fun s => rfl
      by_cases hrc : (answers.headD {}).rc ≠ 0
      · refine ⟨((answers.headD {}).rc, tryRecovery && !(answers.headD {}).flag), answers.tail,
          calls ++ [.processEvt dev.devHdl (evt tryRecovery)], fun s => ?_⟩
        rw [sendEvtTo, if_pos hops, run_bind (hask s), if_pos hrc]
        rfl
      · obtain ⟨out, answers', calls', hrest⟩ := ih (tryRecovery && !(answers.headD {}).flag)
          answers.tail (calls ++ [.processEvt dev.devHdl (evt tryRecovery)])
        refine ⟨out, answers', calls', fun s => ?_⟩
        rw [sendEvtTo, if_pos hops, run_bind (hask s), if_neg hrc, hrest]
    · obtain ⟨out, answers', calls', hrest⟩ := ih tryRecovery answers calls
      refine ⟨out, answers', calls', fun s => ?_⟩
      rw [sendEvtTo, if_neg hops, hrest]

theorem sendEvt_run (h : s.links[i]? = some l) (evt : Bool → LinkEvt) {out : ℤ × Bool}
    {answers : List Answer} {calls : List DeviceCall}
    (hsend : ∀ s' : Core, sendEvtTo evt l.devs l.tryForInternalRecovery
        { s' with answers := s.answers, calls := s.calls } =
      .ok (out, { s' with answers := answers, calls := calls })) :
    sendEvt i evt s = .ok (out.1, Core.put { s with answers, calls } i
      { l with tryForInternalRecovery := out.2 }) := by
  obtain ⟨rc, tryRecovery⟩ := out
  have hl : ({ s with answers, calls } : Core).links[i]? = some l := h
  rw [sendEvt, run_bind (link_known h)]
  refine (run_bind (hsend s) _).trans ?_
  exact run_bind (modLink_run _ hl) _

theorem recoverInternally_idle (h : s.links[i]? = some l) (reqId : ℤ) {k : SlotNum}
    (hdue : ¬ l.inQ.slot[k].RecoveryDue) : recoverInternally i reqId k.val s = .ok ((), s) := by
  rw [recoverInternally, run_bind (slotAt_known h k), if_neg]
  · rfl
  · exact fun hboth => hdue ⟨hboth.1, Bool.not_eq_true' _ ▸ hboth.2⟩

theorem recoverInternally_null (h : s.links[i]? = some l) (reqId : ℤ) {k : SlotNum}
    (hdue : l.inQ.slot[k].RecoveryDue) (hwatch : l.watchdog.isSome = false) :
    recoverInternally i reqId k.val s = .error .null := by
  have htry := Core.put_links h { l with tryForInternalRecovery := true }
  have hnone : l.watchdog.isNone := by
    rw [← Option.not_isSome, hwatch]
    rfl
  rw [recoverInternally, run_bind (slotAt_known h k), if_pos ⟨hdue.1, by rw [hdue.2]; rfl⟩,
    run_bind (modLink_run _ h), run_bind (link_known htry), if_pos hnone]
  rfl

theorem recoverInternally_run (h : s.links[i]? = some l) (reqId : ℤ) {k : SlotNum}
    (hdue : l.inQ.slot[k].RecoveryDue) (hwatch : l.watchdog.isSome) :
    ∃ answers, recoverInternally i reqId k.val s = .ok ((),
      Core.put { s with answers, calls := stalledCalls s l reqId } i (l.recovered k)) := by
  obtain ⟨out, answers, calls, hsend⟩ :=
    sendEvtTo_run (.stalled reqId) l.devs true s.answers s.calls
  have hcalls : stalledCalls s l reqId = calls := by
    rw [stalledCalls, show s = { s with answers := s.answers, calls := s.calls } from rfl, hsend]
  refine ⟨answers, ?_⟩
  rw [hcalls]
  have htry := Core.put_links h { l with tryForInternalRecovery := true }
  have hnone : ¬ l.watchdog.isNone := by
    rw [← Option.not_isSome, hwatch]
    exact Bool.noConfusion
  have hsent := sendEvt_run htry (.stalled reqId) hsend
  rw [recoverInternally, run_bind (slotAt_known h k), if_pos ⟨hdue.1, by rw [hdue.2]; rfl⟩,
    run_bind (modLink_run _ h), run_bind (link_known htry), if_neg hnone]
  refine (run_bind hsent _).trans ?_
  have hput : (Core.put { s with answers, calls } i
      { l with tryForInternalRecovery := out.2 }).links[i]? = some _ := Core.put_links h _
  rw [show Core.put { s.put i { l with tryForInternalRecovery := true } with answers, calls } i
      { l with tryForInternalRecovery := out.2 } = Core.put { s with answers, calls } i
      { l with tryForInternalRecovery := out.2 } from Core.put_put { s with answers, calls } i _ _]
  refine (run_bind (modSlot_known hput k _) _).trans ?_
  refine (modLink_run _ (Core.put_links hput _)).trans ?_
  rw [Core.put_put, Core.put_put]
  rfl

def Link.rewound (l : Link) (pos : SlotNum) : Link :=
  let l' := (ahead (l.inQ.slotDiff pos.val).toNat pos).foldl Link.readd l
  { l' with state := .err, openReqCnt := l'.openReqCnt + 1 }

theorem rewindApplied_run (h : s.links[i]? = some l) {pos : SlotNum} (hrd : l.inQ.rdIdx = pos.val)
    (htbls : l.lTbl = [] → l.inQ.slotDiff pos.val ≤ 0) :
    rewindApplied i s = .ok ((), s.put i (l.rewound pos)) := by
  have hthrow : ¬ (l.lTbl.isEmpty ∧ (l.inQ.slotDiff pos.val).toNat ≠ 0) := fun hboth =>
    hboth.2 (Int.toNat_of_nonpos (htbls (List.isEmpty_iff.1 hboth.1)))
  rw [rewindApplied, run_bind (link_known h)]
  simp only [hrd]
  rw [if_neg hthrow, run_bind (reapplyFrom_run h _ pos)]
  refine (modLink_run _ (Core.put_links h _)).trans ?_
  rw [Core.put_put]
  rfl

theorem rewindApplied_null (h : s.links[i]? = some l) {pos : SlotNum}
    (hrd : l.inQ.rdIdx = pos.val) (htbls : l.lTbl = []) (hdiff : ¬ l.inQ.slotDiff pos.val ≤ 0) :
    rewindApplied i s = .error .null := by
  have hthrow : l.lTbl.isEmpty ∧ (l.inQ.slotDiff pos.val).toNat ≠ 0 :=
    ⟨List.isEmpty_iff.2 htbls, fun hzero => hdiff (Int.toNat_eq_zero.1 hzero)⟩
  rw [rewindApplied, run_bind (link_known h)]
  simp only [hrd]
  rw [if_pos hthrow]
  rfl

end Parts

/-! ## The recovery as a whole -/

/-- Links whose queues and tables differ only in what the recovery does not go by. -/
structure Link.SameQueue (l m : Link) : Prop where
  rdIdx : m.inQ.rdIdx = l.inQ.rdIdx
  lastAppliedIdx : m.inQ.lastAppliedIdx = l.inQ.lastAppliedIdx
  lTbl : m.lTbl = l.lTbl
  slot : ∀ k : SlotNum, m.inQ.slot[k].status = l.inQ.slot[k].status ∧
    m.inQ.slot[k].bubbleTimes = l.inQ.slot[k].bubbleTimes

theorem Link.SameQueue.refl (l : Link) : l.SameQueue l := ⟨rfl, rfl, rfl, fun _ => ⟨rfl, rfl⟩⟩

theorem Link.SameQueue.updateSlot {l m : Link} (h : l.SameQueue m) (k : SlotNum)
    {f : Slot → Slot} (hf : ∀ slot : Slot, (f slot).status = slot.status ∧
      (f slot).bubbleTimes = slot.bubbleTimes) : l.SameQueue (m.updateSlot k f) where
  rdIdx := h.rdIdx
  lastAppliedIdx := h.lastAppliedIdx
  lTbl := h.lTbl
  slot j := by
    rw [Link.updateSlot_slot]
    split
    · exact ⟨(hf _).1.trans (h.slot j).1, (hf _).2.trans (h.slot j).2⟩
    · exact h.slot j

theorem sameQueue_unsynced (l : Link) (pos : SlotNum) : l.SameQueue (l.unsynced pos) :=
  have hunsync (slot : Slot) : ({ slot with syncMode := 0 } : Slot).status = slot.status ∧
      ({ slot with syncMode := 0 } : Slot).bubbleTimes = slot.bubbleTimes := ⟨rfl, rfl⟩
  ((Link.SameQueue.refl l).updateSlot pos hunsync).updateSlot _ hunsync

theorem Link.SameQueue.recovered {l m : Link} (h : l.SameQueue m) (k : SlotNum) :
    l.SameQueue (m.recovered k) :=
  have hslot : l.SameQueue (m.updateSlot k fun slot => { slot with internalRecovered := true }) :=
    h.updateSlot k fun _ => ⟨rfl, rfl⟩
  ⟨hslot.rdIdx, hslot.lastAppliedIdx, hslot.lTbl, hslot.slot⟩

theorem Link.bubbled_slot (l : Link) (err : ErrorNotify) (pos k : SlotNum) :
    (l.bubbled err pos).inQ.slot[k] =
      if k = pos then (l.inQ.slot[k].counted err).added else l.inQ.slot[k] :=
  (l.setBack pos.val).updateSlot_slot pos (fun slot => (slot.counted err).added) k

theorem Link.bubbled_lTbl (l : Link) (err : ErrorNotify) (pos : SlotNum) :
    (l.bubbled err pos).lTbl = (tblSetAllSkipCnt l.lTbl).map (·.forgetAt (· = pos)) :=
  updateTbls_eq_forgetAt _ pos

theorem Link.bubbled_lTbl_nil (l : Link) (err : ErrorNotify) (pos : SlotNum) :
    (l.bubbled err pos).lTbl = [] ↔ l.lTbl = [] := by
  rw [Link.bubbled_lTbl, map_eq_nil_iff]
  cases l.lTbl with
  | nil => exact iff_of_true rfl rfl
  | cons tbl rest => exact iff_of_false (cons_ne_nil _ _) (cons_ne_nil _ _)

theorem rewound_of_sameQueue {l m : Link} {err : ErrorNotify} {pos : SlotNum}
    (hlast : l.inQ.lastAppliedIdx < numSlots) (h : (l.bubbled err pos).SameQueue m) :
    l.Rewound (m.rewound pos) err pos := by
  have hdiff : m.inQ.slotDiff pos.val = l.inQ.slotDiff pos.val := by
    rw [ReqQueue.slotDiff, h.lastAppliedIdx]
    rfl
  have hbehind (k : SlotNum) :
      k ∈ ahead (m.inQ.slotDiff pos.val).toNat pos ↔ l.inQ.Behind pos k := by
    rw [hdiff, mem_ahead_slotDiff hlast]
  have hstatus (k : SlotNum) : m.inQ.slot[k].status =
      if k = pos then .reqAdded else l.inQ.slot[k].status := by
    rw [(h.slot k).1, Link.bubbled_slot]
    split <;> rfl
  have hturn (k : SlotNum) (hk : k ≠ pos) :
      (k ∈ ahead (m.inQ.slotDiff pos.val).toNat pos ∧ m.inQ.slot[k].status = .reqApplied) ↔
        l.inQ.TurnsBack pos k := by
    rw [hbehind, hstatus, if_neg hk, ReqQueue.TurnsBack, or_iff_right hk, and_comm]
  have hslot (k : SlotNum) : (m.rewound pos).inQ.slot[k] =
      if k ∈ ahead (m.inQ.slotDiff pos.val).toNat pos ∧ m.inQ.slot[k].status = .reqApplied then
        m.inQ.slot[k].added else m.inQ.slot[k] :=
    foldl_readd_slot _ m k
  refine ⟨?_, fun k => ?_, ?_, fun k => ?_⟩
  · exact (foldl_readd_rdIdx _ m).trans h.rdIdx
  · rw [hslot]
    by_cases hk : k = pos
    · have hown : l.inQ.TurnsBack pos k := .inl hk
      have hadded : m.inQ.slot[k].status = .reqAdded := by rw [hstatus, if_pos hk]
      rw [if_pos hown, if_neg, hadded]
      rw [hadded]
      exact fun hboth => CrmSlotStatus.noConfusion hboth.2
    · rw [if_congr (hturn k hk) rfl rfl]
      split
      · rfl
      · rw [hstatus, if_neg hk]
  · refine (foldl_readd_lTbl _ m).trans ?_
    rw [h.lTbl, Link.bubbled_lTbl, map_map]
    refine map_congr_left fun tbl _ => ?_
    rw [Function.comp_apply, ReqTbl.forgetAt_forgetAt]
    refine ReqTbl.forgetAt_congr (fun k => ?_) tbl
    by_cases hk : k = pos
    · exact iff_of_true (.inl hk) (.inl hk)
    · rw [or_iff_right hk, hturn k hk]
  · have htimes : (m.rewound pos).inQ.slot[k].bubbleTimes = m.inQ.slot[k].bubbleTimes := by
      rw [hslot]
      split <;> rfl
    rw [htimes, (h.slot k).2, Link.bubbled_slot]
    by_cases hk : k = pos
    · rw [if_pos hk]
      by_cases hb : err.isBubble
      · rw [if_pos ⟨hk, hb⟩]
        exact if_pos hb
      · rw [if_neg fun hboth => hb hboth.2]
        exact if_neg hb
    · rw [if_neg hk, if_neg fun hboth => hk hboth.1]

section Whole

variable {i : ℕ} {s t : Core} {l m : Link} {err : ErrorNotify} {pos : SlotNum}

theorem not_recoversBubble {e : Fault} (hrun : recoverBubble i err pos.val s = .error e) :
    ¬ s.RecoversBubble i err pos := by
  rintro ⟨_, _, _, _, hok, _⟩
  rw [hrun] at hok
  cases hok

theorem recoversBubble_iff_decided (h : s.links[i]? = some l)
    (hlast : l.inQ.lastAppliedIdx < numSlots) (ht : t.links[i]? = some m)
    (hrun : recoverBubble i err pos.val s = rewindApplied i t)
    (hsame : (l.bubbled err pos).SameQueue m) :
    s.RecoversBubble i err pos ↔ (l.lTbl = [] → l.inQ.slotDiff pos.val ≤ 0) ∧
      t.calls = (if l.RecoveryDue err pos then stalledCalls s l err.notify.reqId else s.calls) ∧
      ∀ k : SlotNum, m.inQ.slot[k].internalRecovered =
        (l.inQ.slot[k].internalRecovered || decide (k = pos ∧ l.RecoveryDue err pos)) := by
  have hdiff : m.inQ.slotDiff pos.val = l.inQ.slotDiff pos.val := by
    rw [ReqQueue.slotDiff, hsame.lastAppliedIdx]
    rfl
  have htbls : m.lTbl = [] ↔ l.lTbl = [] := by
    rw [hsame.lTbl, Link.bubbled_lTbl_nil]
  have hflag (k : SlotNum) : (m.rewound pos).inQ.slot[k].internalRecovered =
      m.inQ.slot[k].internalRecovered := by
    refine (congrArg Slot.internalRecovered (foldl_readd_slot _ m k)).trans ?_
    split <;> rfl
  by_cases hempty : l.lTbl = [] → l.inQ.slotDiff pos.val ≤ 0
  · have hend := rewindApplied_run ht hsame.rdIdx fun hm => hdiff ▸ hempty (htbls.1 hm)
    constructor
    · rintro ⟨l₀, s', l', hl₀, hok, hl', -, hcalls, hflags⟩
      cases h.symm.trans hl₀
      rw [hrun, hend] at hok
      cases hok
      cases (Core.put_links ht _).symm.trans hl'
      exact ⟨hempty, hcalls, fun k => (hflag k).symm.trans (hflags k)⟩
    · rintro ⟨-, hcalls, hflags⟩
      exact ⟨l, _, _, h, hrun.trans hend, Core.put_links ht _, rewound_of_sameQueue hlast hsame,
        hcalls, fun k => (hflag k).trans (hflags k)⟩
  · have hend := hempty
    rw [Classical.not_imp] at hend
    have hnull := rewindApplied_null ht hsame.rdIdx (htbls.2 hend.1) (hdiff ▸ hend.2)
    exact iff_of_false (not_recoversBubble (hrun.trans hnull)) fun hall => hempty hall.1

theorem Link.bubbled_due (l : Link) (err : ErrorNotify) (pos : SlotNum) :
    (l.bubbled err pos).inQ.slot[pos].RecoveryDue ↔ l.RecoveryDue err pos := by
  rw [Link.bubbled_slot, if_pos rfl]
  rfl

theorem nextSlot_ne (k : SlotNum) : nextSlot k ≠ k := by
  have hk := k.isLt
  intro heq
  have hval := congrArg Fin.val heq
  simp only [nextSlot, maxReqSlots] at *
  omega

theorem Link.unsynced_flag (l : Link) (pos k : SlotNum) :
    (l.unsynced pos).inQ.slot[k].internalRecovered = l.inQ.slot[k].internalRecovered := by
  rw [Link.unsynced, Link.updateSlot_slot, Link.updateSlot_slot]
  split <;> split <;> rfl

theorem Link.bubbled_flag (l : Link) (err : ErrorNotify) (pos k : SlotNum) :
    (l.bubbled err pos).inQ.slot[k].internalRecovered = l.inQ.slot[k].internalRecovered := by
  rw [Link.bubbled_slot]
  split <;> rfl

theorem Link.recovered_flag (l : Link) (j k : SlotNum) :
    (l.recovered j).inQ.slot[k].internalRecovered =
      (l.inQ.slot[k].internalRecovered || decide (k = j)) := by
  have hslot := l.updateSlot_slot j (fun slot => { slot with internalRecovered := true }) k
  refine (congrArg Slot.internalRecovered hslot).trans ?_
  by_cases hk : k = j
  · rw [if_pos hk, decide_eq_true hk, Bool.or_true]
  · rw [if_neg hk, decide_eq_false hk, Bool.or_false]

theorem Link.unsynced_due (l : Link) (err : ErrorNotify) (pos : SlotNum) :
    ((l.bubbled err pos).unsynced pos).inQ.slot[nextSlot pos].RecoveryDue ↔
      l.inQ.slot[nextSlot pos].RecoveryDue := by
  rw [Slot.RecoveryDue, Slot.RecoveryDue, Link.unsynced_flag, Link.bubbled_flag,
    ((sameQueue_unsynced (l.bubbled err pos) pos).slot _).2, Link.bubbled_slot,
    if_neg (nextSlot_ne pos)]

/-- The recovery of a bubble has come, in state `t`, to where a slot decides about internal
recovery. -/
structure DecidedAt (s : Core) (l : Link) (i : ℕ) (err : ErrorNotify) (pos : SlotNum) (t : Core)
    (m : Link) (k : SlotNum) : Prop where
  run : recoverBubble i err pos.val s = (do
    recoverInternally i err.notify.reqId k.val
    rewindApplied i) t
  links : t.links[i]? = some m
  calls : t.calls = s.calls
  answers : t.answers = s.answers
  sameQueue : (l.bubbled err pos).SameQueue m
  devs : m.devs = l.devs
  watchdog : m.watchdog = l.watchdog
  flags : ∀ j : SlotNum, m.inQ.slot[j].internalRecovered = l.inQ.slot[j].internalRecovered

theorem stalledCalls_congr (hcalls : t.calls = s.calls) (hanswers : t.answers = s.answers)
    (hdevs : m.devs = l.devs) (reqId : ℤ) : stalledCalls t m reqId = stalledCalls s l reqId := by
  obtain ⟨out, answers, calls, hsend⟩ :=
    sendEvtTo_run (.stalled reqId) l.devs true s.answers s.calls
  have hs := hsend s
  have ht := hsend t
  rw [← hcalls, ← hanswers] at ht
  rw [stalledCalls, stalledCalls, hdevs, ht]
  exact (congrArg (fun r : Except Fault ((ℤ × Bool) × Core) => match r with
    | .ok (_, s') => s'.calls
    | .error _ => s.calls) hs).symm

variable {k : SlotNum}

theorem DecidedAt.iff_of_due (hd : DecidedAt s l i err pos t m k) (h : s.links[i]? = some l)
    (hlast : l.inQ.lastAppliedIdx < numSlots) (hdue : m.inQ.slot[k].RecoveryDue) :
    s.RecoversBubble i err pos ↔ l.watchdog.isSome ∧
      (l.lTbl = [] → l.inQ.slotDiff pos.val ≤ 0) ∧
      stalledCalls s l err.notify.reqId = (if l.RecoveryDue err pos then
        stalledCalls s l err.notify.reqId else s.calls) ∧
      ∀ j : SlotNum, (l.inQ.slot[j].internalRecovered || decide (j = k)) =
        (l.inQ.slot[j].internalRecovered || decide (j = pos ∧ l.RecoveryDue err pos)) := by
  by_cases hwatch : l.watchdog.isSome
  · rw [and_iff_right hwatch]
    obtain ⟨answers, hrun⟩ :=
      recoverInternally_run hd.links err.notify.reqId hdue (hd.watchdog ▸ hwatch)
    rw [stalledCalls_congr hd.calls hd.answers hd.devs] at hrun
    have hput : (Core.put { t with answers, calls := stalledCalls s l err.notify.reqId } i
        (m.recovered k)).links[i]? = some (m.recovered k) := Core.put_links hd.links _
    refine (recoversBubble_iff_decided h hlast hput (hd.run.trans (run_bind hrun _))
      (hd.sameQueue.recovered k)).trans ?_
    refine and_congr_right fun _ => and_congr Iff.rfl (forall_congr' fun j => ?_)
    rw [Link.recovered_flag, hd.flags]
  · have hnone : m.watchdog.isSome = false := by
      rw [hd.watchdog]
      exact Bool.eq_false_iff.2 hwatch
    have hnull := recoverInternally_null hd.links err.notify.reqId hdue hnone
    exact iff_of_false (not_recoversBubble (hd.run.trans (run_bind_error hnull _)))
      fun hall => hwatch hall.1

theorem DecidedAt.iff_of_idle (hd : DecidedAt s l i err pos t m k) (h : s.links[i]? = some l)
    (hlast : l.inQ.lastAppliedIdx < numSlots) (hidle : ¬ m.inQ.slot[k].RecoveryDue) :
    s.RecoversBubble i err pos ↔ (l.lTbl = [] → l.inQ.slotDiff pos.val ≤ 0) ∧
      s.calls = (if l.RecoveryDue err pos then
        stalledCalls s l err.notify.reqId else s.calls) ∧
      ∀ j : SlotNum, l.inQ.slot[j].internalRecovered =
        (l.inQ.slot[j].internalRecovered || decide (j = pos ∧ l.RecoveryDue err pos)) := by
  have hrun := recoverInternally_idle hd.links err.notify.reqId hidle
  refine (recoversBubble_iff_decided h hlast hd.links (hd.run.trans (run_bind hrun _))
    hd.sameQueue).trans ?_
  rw [hd.calls]
  refine and_congr_right fun _ => and_congr_right fun _ => forall_congr' fun j => ?_
  rw [hd.flags]

theorem decidedAt_own (h : s.links[i]? = some l) (hsync : l.syncLink[0].isSome = false) :
    DecidedAt s l i err pos (s.put i (l.bubbled err pos)) (l.bubbled err pos) pos where
  run := by
    have hdrop := dropSyncMode_solo (Core.put_links h (l.bubbled err pos)) hsync pos
    rw [recoverBubble_run h err pos, run_bind hdrop]
  links := Core.put_links h _
  calls := rfl
  answers := rfl
  sameQueue := .refl _
  devs := rfl
  watchdog := rfl
  flags := l.bubbled_flag err pos

theorem decidedAt_next (h : s.links[i]? = some l) (hsync : l.syncLink[0].isSome)
    (htbls : l.lTbl ≠ []) :
    DecidedAt s l i err pos (s.put i ((l.bubbled err pos).unsynced pos))
      ((l.bubbled err pos).unsynced pos) (nextSlot pos) where
  run := by
    have hdrop := dropSyncMode_synced (Core.put_links h (l.bubbled err pos)) hsync
      (fun hnil => htbls ((l.bubbled_lTbl_nil err pos).1 hnil)) pos
    rw [recoverBubble_run h err pos, run_bind hdrop, Core.put_put]
  links := Core.put_links h _
  calls := rfl
  answers := rfl
  sameQueue := sameQueue_unsynced _ pos
  devs := rfl
  watchdog := rfl
  flags j := by rw [Link.unsynced_flag, Link.bubbled_flag]

theorem recoversBubble_iff (h : s.links[i]? = some l) (hlast : l.inQ.lastAppliedIdx < numSlots) :
    s.RecoversBubble i err pos ↔ l.DecidesOwn err pos := by
  rw [Link.DecidesOwn]
  by_cases hsync : l.syncLink[0].isSome
  · rw [if_pos hsync]
    by_cases htbls : l.lTbl = []
    · have hnull := dropSyncMode_null (Core.put_links h (l.bubbled err pos)) hsync
        ((l.bubbled_lTbl_nil err pos).2 htbls) pos
      have hrun := (recoverBubble_run h err pos).trans (run_bind_error hnull _)
      exact iff_of_false (not_recoversBubble hrun) fun hall => hall.1 htbls
    rw [and_iff_right htbls]
    have hd : DecidedAt s l i err pos _ _ _ := decidedAt_next h hsync htbls
    by_cases hnext : l.inQ.slot[nextSlot pos].RecoveryDue
    · -- The record of the next request is marked, whose bubble it was not.
      refine iff_of_false (fun hrec => ?_) fun hall => hall.2 hnext
      have hflag := ((hd.iff_of_due h hlast ((l.unsynced_due err pos).2 hnext)).1 hrec).2.2.2
        (nextSlot pos)
      rw [hnext.2, decide_eq_true rfl,
        decide_eq_false fun hboth => nextSlot_ne pos hboth.1] at hflag
      exact Bool.noConfusion hflag
    · rw [and_iff_left hnext, hd.iff_of_idle h hlast fun hdue =>
        hnext ((l.unsynced_due err pos).1 hdue)]
      constructor
      · intro hall hdue
        have hflag := hall.2.2 pos
        rw [show l.inQ.slot[pos].internalRecovered = false from hdue.2,
          decide_eq_true ⟨rfl, hdue⟩] at hflag
        exact Bool.noConfusion hflag
      · intro hidle
        refine ⟨fun hnil => absurd hnil htbls, (if_neg hidle).symm, fun j => ?_⟩
        rw [decide_eq_false fun hboth => hidle hboth.2, Bool.or_false]
  · rw [if_neg hsync]
    have hd : DecidedAt s l i err pos _ _ _ := decidedAt_own h (Bool.eq_false_iff.2 hsync)
    by_cases hdue : l.RecoveryDue err pos
    · rw [hd.iff_of_due h hlast ((l.bubbled_due err pos).2 hdue)]
      constructor
      · exact fun hall => ⟨fun _ => hall.1, hall.2.1⟩
      · intro hall
        refine ⟨hall.1 hdue, hall.2, (if_pos hdue).symm, fun j => ?_⟩
        rw [decide_eq_decide.2 (and_iff_left hdue)]
    · rw [hd.iff_of_idle h hlast fun hdue' => hdue ((l.bubbled_due err pos).1 hdue')]
      constructor
      · exact fun hall => ⟨fun hdue' => absurd hdue' hdue, hall.1⟩
      · intro hall
        refine ⟨hall.2, (if_neg hdue).symm, fun j => ?_⟩
        rw [decide_eq_false fun hboth => hdue hboth.2, Bool.or_false]

end Whole

end QcomModules.CamReqMgr
