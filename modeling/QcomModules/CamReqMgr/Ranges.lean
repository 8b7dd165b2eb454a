import QcomModules.CamReqMgr.Operations
import QcomModules.Library.Fallible

/-! Indexes of a link that are in range, what the checks of a request leave alone, and the basic
steps on links and slots. -/

namespace QcomModules.CamReqMgr

open Library
open List hiding Vector

/-! ## Indexes -/

def SlotIdx (idx : ℤ) : Prop :=
  0 ≤ idx ∧ idx < numSlots

def PipelineDelay (pd : ℤ) : Prop :=
  0 ≤ pd ∧ pd < camPipelineDelayMax

theorem slotIdx_natCast {k : ℕ} (h : k < maxReqSlots) : SlotIdx k :=
  ⟨Int.natCast_nonneg k, Int.ofNat_lt.2 h⟩

theorem slotIdx_incIdx {idx step : ℤ} (h : SlotIdx idx) (hs : 0 ≤ step) :
    SlotIdx (incIdx idx step numSlots) := by
  have hnonneg : 0 ≤ idx + step := Int.add_nonneg h.1 hs
  rw [SlotIdx, incIdx, Int.tmod_eq_emod_of_nonneg hnonneg]
  exact ⟨Int.emod_nonneg _ (by decide), Int.emod_lt_of_pos _ (by decide)⟩

theorem slotIdx_decIdx {idx step : ℤ} (h : SlotIdx idx) (hs : 0 ≤ step) (hstep : step ≤ numSlots) :
    SlotIdx (decIdx idx step numSlots) := by
  obtain ⟨hlo, hhi⟩ := h
  rw [SlotIdx, decIdx]
  split <;> omega

theorem slotIdx_decIdx_pred {idx maxDelay : ℤ} (h : SlotIdx idx) (hd : PipelineDelay maxDelay)
    (hlast : maxDelay = 0 → idx ≠ numSlots - 1) :
    SlotIdx (decIdx idx (maxDelay - 1) numSlots) := by
  obtain ⟨hlo, hhi⟩ := h
  obtain ⟨hd0, hd3⟩ := hd
  simp only [numSlots, maxReqSlots, camPipelineDelayMax] at *
  rw [SlotIdx, decIdx]
  simp only [numSlots, maxReqSlots]
  split <;> omega

/-! ## Links -/

structure Slot.InRange (slot : Slot) : Prop where
  idx : SlotIdx slot.idx
  numSyncLinks : slot.numSyncLinks < maximumLinksPerSession

structure ReqTbl.InRange (tbl : ReqTbl) : Prop where
  pd : PipelineDelay tbl.pd
  pdDelta : 0 ≤ tbl.pdDelta ∧ tbl.pdDelta ≤ numSlots

structure ConnectedDevice.InRange (dev : ConnectedDevice) : Prop where
  pDelay : PipelineDelay dev.info.pDelay
  pdTbl : PipelineDelay dev.pdTbl

/-- The indexes of a link's queue, tables and devices are in range. -/
structure RangesOk (inQ : ReqQueue) (lTbl : List ReqTbl)
    (applyData prevApplyData : Vector Apply camPipelineDelayMax) (devices : List ConnectedDevice)
    (maxPd minPd syncLinks : ℤ) : Prop where
  rdIdx : SlotIdx inQ.rdIdx
  wrIdx : SlotIdx inQ.wrIdx
  slots : ∀ slot ∈ inQ.slot, slot.InRange
  tbls : ∀ tbl ∈ lTbl, tbl.InRange
  apply : ∀ a ∈ applyData, SlotIdx a.idx
  prevApply : ∀ a ∈ prevApplyData, SlotIdx a.idx
  devs : ∀ dev ∈ devices, dev.InRange
  maxDelay : PipelineDelay maxPd
  minDelay : PipelineDelay minPd
  numSyncLinks : syncLinks < maximumLinksPerSession

def Link.InRange (l : Link) : Prop :=
  RangesOk l.inQ l.lTbl l.applyData l.prevApplyData l.devs l.maxDelay l.minDelay l.numSyncLinks

/-- The state, the read index and what the watchdog's timeout depends on are the same in both
links; a slot may only have lost its request. -/
structure SameFrame (pd pd' : ℤ) (inQ inQ' : ReqQueue) (skip skip' : Bool) (eof eof' : ℤ)
    (state state' : LinkState) : Prop where
  maxDelay : pd' = pd
  rdIdx : inQ'.rdIdx = inQ.rdIdx
  skipInitFrame : skip' = skip
  eofEventCnt : eof' = eof
  state : state' = state
  status : ∀ j (h : j < maxReqSlots),
    (inQ'.slot[j]).status = (inQ.slot[j]).status ∨ (inQ'.slot[j]).status = .noReq

/-- What the checks before a request is sent leave as it is. -/
def Link.Calm (l l' : Link) : Prop :=
  SameFrame l.maxDelay l'.maxDelay l.inQ l'.inQ l.skipInitFrame l'.skipInitFrame
    l.eofEventCnt l'.eofEventCnt l.state l'.state

theorem Link.Calm.refl (l : Link) : l.Calm l :=
  ⟨rfl, rfl, rfl, rfl, rfl, fun _ _ => .inl rfl⟩

variable {l l' : Link}

theorem Link.Calm.trans {m n : Link} (h : l.Calm m) (h' : m.Calm n) : l.Calm n where
  maxDelay := h'.maxDelay.trans h.maxDelay
  rdIdx := h'.rdIdx.trans h.rdIdx
  skipInitFrame := h'.skipInitFrame.trans h.skipInitFrame
  eofEventCnt := h'.eofEventCnt.trans h.eofEventCnt
  state := h'.state.trans h.state
  status j hj := by
    cases h'.status j hj with
    | inl heq => exact (h.status j hj).imp heq.trans heq.trans
    | inr hno => exact .inr hno

/-- What the recovery of a bubble leaves as it is, once the read index is moved. -/
def Link.Held (l l' : Link) : Prop :=
  l'.maxDelay = l.maxDelay ∧ l'.inQ.rdIdx = l.inQ.rdIdx ∧ l'.skipInitFrame = l.skipInitFrame ∧
    l'.eofEventCnt = l.eofEventCnt

theorem Link.Held.refl (l : Link) : l.Held l := ⟨rfl, rfl, rfl, rfl⟩

theorem Link.Held.trans {m n : Link} (h : l.Held m) (h' : m.Held n) : l.Held n :=
  ⟨h'.1.trans h.1, h'.2.1.trans h.2.1, h'.2.2.1.trans h.2.2.1, h'.2.2.2.trans h.2.2.2⟩

/-- What the timeout check of a processed request still finds as it was at its start. -/
def Link.Timed (l l' : Link) : Prop :=
  l'.maxDelay = l.maxDelay ∧ l'.inQ.rdIdx = l.inQ.rdIdx ∧ l'.skipInitFrame = l.skipInitFrame

theorem Link.Timed.refl (l : Link) : l.Timed l := ⟨rfl, rfl, rfl⟩

theorem Link.Timed.trans {m n : Link} (h : l.Timed m) (h' : m.Timed n) : l.Timed n :=
  ⟨h'.1.trans h.1, h'.2.1.trans h.2.1, h'.2.2.trans h.2.2⟩

theorem Link.Calm.held (h : l.Calm l') : l.Held l' :=
  ⟨h.maxDelay, h.rdIdx, h.skipInitFrame, h.eofEventCnt⟩

theorem Link.Held.timed (h : l.Held l') : l.Timed l' :=
  ⟨h.1, h.2.1, h.2.2.1⟩

/-! ## Records -/

abbrev SlotNum := Fin maxReqSlots

/-- A slot is given up, or keeps its request and what is recorded of its recovery. -/
def Slot.KeepsRecord (slot slot' : Slot) : Prop :=
  slot'.reqId = -1 ∨ slot'.reqId = slot.reqId ∧
    (slot.internalRecovered → slot'.internalRecovered)

theorem Slot.KeepsRecord.refl (slot : Slot) : slot.KeepsRecord slot := .inr ⟨rfl, id⟩

theorem Slot.KeepsRecord.trans {a b c : Slot} (h : a.KeepsRecord b) (h' : b.KeepsRecord c) :
    a.KeepsRecord c := by
  cases h' with
  | inl hgiven => exact .inl hgiven
  | inr hkept =>
    exact h.imp hkept.1.trans fun h => ⟨hkept.1.trans h.1, fun hrec => hkept.2 (h.2 hrec)⟩

/-- The slots of a link keep their records, and the slot last applied stays one of the queue. -/
def Link.KeepsRecords (l l' : Link) : Prop :=
  (l.inQ.lastAppliedIdx < numSlots → l'.inQ.lastAppliedIdx < numSlots) ∧
    ∀ k : SlotNum, (l.inQ.slot.get k).KeepsRecord (l'.inQ.slot.get k)

theorem Link.KeepsRecords.refl (l : Link) : l.KeepsRecords l := ⟨id, fun _ => .refl _⟩

theorem Link.KeepsRecords.trans {m n : Link} (h : l.KeepsRecords m) (h' : m.KeepsRecords n) :
    l.KeepsRecords n :=
  ⟨fun hlast => h'.1 (h.1 hlast), fun k => (h.2 k).trans (h'.2 k)⟩

/-- Links change along `K` and keep their records. -/
def Link.Recording (K : Link → Link → Prop) (l l' : Link) : Prop :=
  K l l' ∧ l.KeepsRecords l'

theorem Link.Recording.refl {K : Link → Link → Prop} (hrefl : ∀ l, K l l) (l : Link) :
    Link.Recording K l l :=
  ⟨hrefl l, .refl l⟩

theorem Link.Recording.trans {K : Link → Link → Prop} (htrans : ∀ l m n, K l m → K m n → K l n)
    (l m n : Link) (h : Link.Recording K l m) (h' : Link.Recording K m n) : Link.Recording K l n :=
  ⟨htrans l m n h.1 h'.1, h.2.trans h'.2⟩

/-! ## Disciplines of a step -/

def Core.InRange (s : Core) : Prop :=
  ∀ (i : ℕ) (l : Link), s.links[i]? = some l → l.InRange

def LinkWise (K : Link → Link → Prop) (s t : Core) : Prop :=
  ∀ (i : ℕ) (l' : Link), t.links[i]? = some l' → ∃ l, s.links[i]? = some l ∧ K l l'

/-- Steps that keep the links' indexes in range and change links only along `K`; if they are judged
strictly, they use no index out of range. -/
def along (strict : Bool) (K : Link → Link → Prop) (hrefl : ∀ l, K l l)
    (htrans : ∀ l m n, K l m → K m n → K l n) : Discipline Core Fault where
  inv := Core.InRange
  rel := LinkWise K
  bad e := strict = true ∧ e = .index
  refl s := fun i l hl => ⟨l, hl, hrefl l⟩
  trans := by
    intro s t w hst htw i n hn
    obtain ⟨m, hm, hmn⟩ := htw i n hn
    obtain ⟨l, hl, hlm⟩ := hst i m hm
    exact ⟨l, hl, htrans l m n hlm hmn⟩

def calm (strict : Bool) : Discipline Core Fault :=
  along strict (Link.Recording Link.Calm) (Link.Recording.refl Link.Calm.refl)
    (Link.Recording.trans fun _ _ _ => Link.Calm.trans)

def held (strict : Bool) : Discipline Core Fault :=
  along strict (Link.Recording Link.Held) (Link.Recording.refl Link.Held.refl)
    (Link.Recording.trans fun _ _ _ => Link.Held.trans)

def timed (strict : Bool) : Discipline Core Fault :=
  along strict (Link.Recording Link.Timed) (Link.Recording.refl Link.Timed.refl)
    (Link.Recording.trans fun _ _ _ => Link.Timed.trans)

def ranged (strict : Bool) : Discipline Core Fault :=
  along strict Link.KeepsRecords Link.KeepsRecords.refl fun _ _ _ => Link.KeepsRecords.trans

theorem LinkWise.imp {K K' : Link → Link → Prop} (h : ∀ l l', K l l' → K' l l') {s t : Core}
    (hrel : LinkWise K s t) : LinkWise K' s t :=
  fun i l' hl' => (hrel i l' hl').imp fun l hl => ⟨hl.1, h l l' hl.2⟩

variable {α : Type} {strict : Bool}

variable {m : Crm α} {Q : α → Prop}

theorem keeps_held (h : (calm strict).Keeps m Q) : (held strict).Keeps m Q :=
  h.loosen (fun _ => Iff.rfl) (fun _ _ => LinkWise.imp fun _ _ h => ⟨h.1.held, h.2⟩) (fun _ h => h)

theorem timed_of_held (h : (held strict).Keeps m Q) : (timed strict).Keeps m Q :=
  h.loosen (fun _ => Iff.rfl) (fun _ _ => LinkWise.imp fun _ _ h => ⟨h.1.timed, h.2⟩) (fun _ h => h)

theorem keeps_timed (h : (calm strict).Keeps m Q) : (timed strict).Keeps m Q :=
  timed_of_held (keeps_held h)

theorem keeps_ranged (h : (timed strict).Keeps m Q) : (ranged strict).Keeps m Q :=
  h.loosen (fun _ => Iff.rfl) (fun _ _ => LinkWise.imp fun _ _ h => h.2) (fun _ h => h)

/-! ## Arrays -/

section Arrays

variable {n : ℕ} {D : Discipline Core Fault}

variable {idx : ℤ} {array : Vector α n} {P : α → Prop} {f : α → α}

theorem elemAt_ok (array : Vector α n) (h0 : 0 ≤ idx) (hn : idx < n) :
    ∃ a ∈ array, elemAt array idx = .ok a := by
  have h : 0 ≤ idx ∧ idx.toNat < n := ⟨h0, by omega⟩
  refine ⟨array.get ⟨idx.toNat, h.2⟩, ?_, ?_⟩
  · exact Vector.getElem_mem h.2
  · rw [elemAt, dif_pos h]

theorem modElem_ok (array : Vector α n) (f : α → α) (h0 : 0 ≤ idx) (hn : idx < n) :
    ∃ h : idx.toNat < n,
      modElem array idx f = .ok (array.set idx.toNat (f array[idx.toNat]) h) := by
  have h : 0 ≤ idx ∧ idx.toNat < n := ⟨h0, by omega⟩
  exact ⟨h.2, by rw [modElem, dif_pos h]; rfl⟩

theorem forall_mem_set {k : ℕ} (h : ∀ a ∈ array, P a) (hk : k < n) {a : α} (ha : P a) :
    ∀ b ∈ array.set k a hk, P b := by
  intro b hb
  obtain ⟨j, hj, rfl⟩ := Vector.mem_iff_getElem.1 hb
  rw [Vector.getElem_set]
  split
  · exact ha
  · exact h _ (Vector.getElem_mem hj)

theorem yields_elemAt (h : ∀ a ∈ array, P a) (h0 : 0 ≤ idx) (hn : idx < n) :
    D.Yields P (elemAt array idx) := by
  obtain ⟨a, ha, heq⟩ := elemAt_ok array h0 hn
  rw [heq]
  exact h a ha

theorem yields_modElem (h : ∀ a ∈ array, P a) (hf : ∀ a, P a → P (f a)) (h0 : 0 ≤ idx)
    (hn : idx < n) : D.Yields (fun out => ∀ a ∈ out, P a) (modElem array idx f) := by
  obtain ⟨hlt, heq⟩ := modElem_ok array f h0 hn
  rw [heq]
  exact forall_mem_set h hlt (hf _ (h _ (Vector.getElem_mem hlt)))

theorem yields_modElem_any (h0 : 0 ≤ idx) (hn : idx < n) :
    D.Yields (fun _ => True) (modElem array idx f) :=
  (yields_modElem (P := fun _ => True) (fun _ _ => trivial) (fun _ _ => trivial) h0 hn).mono
    fun _ _ => trivial

theorem keeps_elemAt (h : ∀ a ∈ array, P a) (h0 : 0 ≤ idx) (hn : idx < n) :
    D.Keeps (StateT.lift (elemAt array idx)) P :=
  .lift (yields_elemAt h h0 hn)

theorem keeps_elemAt_any (h0 : 0 ≤ idx) (hn : idx < n) :
    D.Follows (StateT.lift (elemAt array idx)) :=
  keeps_elemAt (fun _ _ => trivial) h0 hn

end Arrays

/-! ## Steps on a link -/

section Steps

variable {K : Link → Link → Prop} {hrefl : ∀ l, K l l}
  {htrans : ∀ l m n, K l m → K m n → K l n}

theorem link_run (i : ℕ) (s : Core) : link i s = match s.links[i]? with
    | some l => .ok (l, s)
    | none => .error .null := by
  change (match s.links[i]? with
    | some l => (Pure.pure l : Crm Link)
    | none => (throw Fault.null : Crm Link)) s = _
  cases s.links[i]? <;> rfl

theorem keeps_link (i : ℕ) : (along strict K hrefl htrans).Keeps (link i) Link.InRange := by
  intro s hs
  rw [link_run]
  cases hl : s.links[i]? with
  | none => exact fun h => Fault.noConfusion h.2
  | some l => exact ⟨hs, Discipline.refl _ s, hs i l hl⟩

variable {i : ℕ} {s : Core} {Q : α → Core → Prop} {idx : ℤ} {l : Link} {f : TblSlot → TblSlot}

theorem allows_link {k : Link → Crm α} (hs : s.InRange)
    (h : ∀ l, s.links[i]? = some l → l.InRange →
      (along strict K hrefl htrans).Allows s Q (k l s)) :
    (along strict K hrefl htrans).Allows s Q ((link i >>= k) s) := by
  change (along strict K hrefl htrans).Allows s Q (Except.bind (link i s) fun out => k out.1 out.2)
  rw [link_run]
  cases hl : s.links[i]? with
  | none => exact fun h => Fault.noConfusion h.2
  | some l => exact h l hl (hs i l hl)

theorem keeps_modLink {f : Link → Link} (h : ∀ l, l.InRange → (f l).InRange ∧ K l (f l)) :
    (along strict K hrefl htrans).Follows (modLink i f) := by
  have hget : ∀ (s : Core) (j : ℕ) (l' : Link), (s.links.modify i f)[j]? = some l' →
      ∃ l, s.links[j]? = some l ∧ (l' = f l ∨ l' = l) := by
    intro s j l' hl'
    rw [getElem?_modify] at hl'
    obtain ⟨l, hl, rfl⟩ := Option.map_eq_some_iff.1 hl'
    refine ⟨l, hl, ?_⟩
    split
    · exact .inl rfl
    · exact .inr rfl
  refine .modify fun s (hs : s.InRange) => ⟨fun j l' hl' => ?_, fun j l' hl' => ?_⟩
  · obtain ⟨l, hl, rfl | rfl⟩ := hget s j l' hl'
    · exact (h l (hs j l hl)).1
    · exact hs j l' hl
  · obtain ⟨l, hl, rfl | rfl⟩ := hget s j l' hl'
    · exact ⟨l, hl, (h l (hs j l hl)).2⟩
    · exact ⟨l', hl, hrefl l'⟩

theorem keeps_getLinkPriv (hdl : ℤ) :
    (along strict K hrefl htrans).Follows (getLinkPriv hdl) :=
  (Discipline.Keeps.get (Q := fun _ => True) fun _ _ => trivial).seq fun _ => .pure trivial

theorem keeps_get : (along strict K hrefl htrans).Follows (get : Crm Core) :=
  .get fun _ _ => trivial

theorem keeps_throwNull {Q : α → Prop} :
    (along strict K hrefl htrans).Keeps (throw Fault.null : Crm α) Q :=
  .throw fun h => Fault.noConfusion h.2

theorem keeps_ask (call : DeviceCall) :
    (along strict K hrefl htrans).Follows (ask call) :=
  fun _ hs => ⟨hs, fun _ l hl => ⟨l, hl, hrefl l⟩, trivial⟩

theorem keeps_slotAt (i : ℕ) (h : SlotIdx idx) :
    (along strict K hrefl htrans).Keeps (slotAt i idx) Slot.InRange :=
  (keeps_link i).bind fun _ hl => keeps_elemAt hl.slots h.1 h.2

/-- A step that is not judged strictly may look for a slot that is not there. -/
theorem follows_slotAt (i : ℕ) (idx : ℤ) :
    (along false K hrefl htrans).Follows (slotAt i idx) := by
  refine (keeps_link i).seq fun l => .lift ?_
  cases elemAt l.inQ.slot idx with
  | error e => exact fun h => Bool.false_ne_true h.1
  | ok slot => trivial

theorem slotAt_run (hl : s.links[i]? = some l) (h : SlotIdx idx) :
    ∃ slot, l.inQ.slot[idx.toNat]? = some slot ∧ slotAt i idx s = .ok (slot, s) := by
  have hlt : idx.toNat < maxReqSlots := (Int.toNat_lt h.1).2 h.2
  have helem : elemAt l.inQ.slot idx = .ok l.inQ.slot[idx.toNat] := by
    rw [elemAt, dif_pos ⟨h.1, hlt⟩]
    rfl
  refine ⟨l.inQ.slot[idx.toNat], Vector.getElem?_eq_getElem hlt, ?_⟩
  change Except.bind (link i s) _ = _
  rw [link_run, hl]
  change Except.bind (elemAt l.inQ.slot idx) _ = _
  rw [helem]
  rfl

theorem allows_slotAt {k : Slot → Crm α} (hs : s.InRange) (hl : s.links[i]? = some l)
    (h : SlotIdx idx) (hk : ∀ slot, l.inQ.slot[idx.toNat]? = some slot → slot.InRange →
      (along strict K hrefl htrans).Allows s Q (k slot s)) :
    (along strict K hrefl htrans).Allows s Q ((slotAt i idx >>= k) s) := by
  obtain ⟨slot, hget, hrun⟩ := slotAt_run hl h
  refine .step hrun (Discipline.refl _ s) (hk slot hget ?_)
  exact (hs i l hl).slots slot (Vector.mem_of_getElem? hget)

theorem keeps_tblAt (i : ℕ) (pdTbl : ℤ) :
    (along strict K hrefl htrans).Keeps (tblAt i pdTbl) ReqTbl.InRange := by
  refine (keeps_link i).bind fun l hl => ?_
  cases hfind : l.lTbl.find? (·.pd = pdTbl) with
  | none => exact keeps_throwNull
  | some tbl => exact .pure (hl.tbls tbl (mem_of_find?_eq_some hfind))

theorem keeps_tblSlotAt (i : ℕ) (pdTbl : ℤ) (h : SlotIdx idx) :
    (along strict K hrefl htrans).Follows (tblSlotAt i pdTbl idx) :=
  (keeps_tblAt i pdTbl).seq fun _ => keeps_elemAt (fun _ _ => trivial) h.1 h.2

theorem modSlot_eq (f : Slot → Slot) (h : SlotIdx idx) :
    ∃ hk : idx.toNat < maxReqSlots, modSlot i idx f = (link i >>= fun _ => modLink i fun l =>
      l.withSlots (l.inQ.slot.set idx.toNat (f l.inQ.slot[idx.toNat]) hk)) := by
  refine ⟨(Int.toNat_lt h.1).2 h.2, ?_⟩
  funext s
  change Except.bind (link i s) _ = Except.bind (link i s) _
  rw [link_run]
  cases hl : s.links[i]? with
  | none => rfl
  | some l =>
    obtain ⟨hk, hset⟩ := modElem_ok l.inQ.slot f h.1 h.2
    change Except.bind (Except.bind (modElem l.inQ.slot idx f) _) _ = _
    rw [hset]
    change Except.ok (_, { s with links := _ }) = Except.ok (_, { s with links := _ })
    have hlinks : s.links.modify i
          (·.withSlots (l.inQ.slot.set idx.toNat (f l.inQ.slot[idx.toNat]) hk)) =
        s.links.modify i
          (fun l => l.withSlots (l.inQ.slot.set idx.toNat (f l.inQ.slot[idx.toNat]) hk)) := by
      ext j : 1
      rw [getElem?_modify, getElem?_modify]
      by_cases hij : i = j
      · subst hij
        simp [hl]
      · simp [hij]
    rw [hlinks]

theorem keeps_modSlot {f : Slot → Slot} (h : SlotIdx idx)
    (hf : ∀ slot, slot.InRange → (f slot).InRange) (hK : ∀ l k (hk : k < maxReqSlots),
      K l (l.withSlots (l.inQ.slot.set k (f l.inQ.slot[k]) hk))) :
    (along strict K hrefl htrans).Follows (modSlot i idx f) := by
  obtain ⟨hk, heq⟩ := modSlot_eq (i := i) f h
  rw [heq]
  refine (keeps_link i).seq fun _ => keeps_modLink fun l hl => ⟨?_, hK l _ hk⟩
  exact { hl with slots := forall_mem_set hl.slots hk (hf _ (hl.slots _ (Vector.getElem_mem hk))) }

theorem keeps_modTblSlot {pdTbl : ℤ} (h : SlotIdx idx) (hK : ∀ l lTbl, K l (l.withTbls lTbl)) :
    (along strict K hrefl htrans).Follows (modTblSlot i pdTbl idx f) := by
  refine (keeps_tblAt i pdTbl).seq fun tbl => ?_
  refine (Discipline.Keeps.lift (yields_modElem_any h.1 h.2)).seq fun slot =>
    keeps_modLink fun l hl => ⟨?_, hK l _⟩
  refine { hl with tbls := fun tbl htbl => ?_ }
  obtain ⟨old, hold, rfl⟩ := mem_map.1 htbl
  have hin := hl.tbls old hold
  split
  · exact ⟨hin.pd, hin.pdDelta⟩
  · exact hin

theorem keeps_modTblSlots (h : SlotIdx idx) (hK : ∀ l lTbl, K l (l.withTbls lTbl)) :
    (along strict K hrefl htrans).Follows (modTblSlots i idx f) := by
  refine (keeps_link i).bind fun l hl => ?_
  refine (Discipline.Keeps.lift (Q := fun out => ∀ tbl ∈ out, tbl.InRange) (.mapM ?_)).bind
    fun lTbl htbls => keeps_modLink fun l hl => ⟨{ hl with tbls := htbls }, hK l _⟩
  intro tbl htbl
  have hin := hl.tbls tbl htbl
  exact (yields_modElem_any h.1 h.2).bind fun _ _ => ⟨hin.pd, hin.pdDelta⟩

end Steps

theorem keepsRecords_withSlots {f : Slot → Slot} (hf : ∀ slot : Slot, slot.KeepsRecord (f slot))
    (l : Link) (k : ℕ) (hk : k < maxReqSlots) :
    l.KeepsRecords (l.withSlots (l.inQ.slot.set k (f l.inQ.slot[k]) hk)) := by
  refine ⟨id, fun j => ?_⟩
  change (l.inQ.slot[j.val]).KeepsRecord ((l.inQ.slot.set k (f l.inQ.slot[k]) hk)[j.val])
  rw [Vector.getElem_set]
  by_cases hkj : k = j.val
  · subst hkj
    simpa using hf _
  · simpa [hkj] using Slot.KeepsRecord.refl _

theorem calm_withSlots {f : Slot → Slot}
    (hf : ∀ slot, (f slot).status = slot.status ∨ (f slot).status = .noReq) (l : Link) (k : ℕ)
    (hk : k < maxReqSlots) :
    l.Calm (l.withSlots (l.inQ.slot.set k (f l.inQ.slot[k]) hk)) := by
  refine ⟨rfl, rfl, rfl, rfl, rfl, fun j hj => ?_⟩
  change ((l.inQ.slot.set k (f l.inQ.slot[k]) hk)[j]).status = _ ∨
    ((l.inQ.slot.set k (f l.inQ.slot[k]) hk)[j]).status = _
  rw [Vector.getElem_set]
  by_cases hkj : k = j
  · subst hkj
    simpa using hf l.inQ.slot[k]
  · simp [hkj]

end QcomModules.CamReqMgr
