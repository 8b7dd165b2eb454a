import QcomModules.CamReqMgr.RangedChecks

/-! Processing the request at the read index uses indexes in range, except where the watchdog's
timeout is computed for the last slot of a link without pipeline delay. -/

namespace QcomModules.CamReqMgr

open Library Discipline

/-! ## What a step leaves to the next one -/

def HoldsAt (i : ℕ) (F : Link → Prop) (s : Core) : Prop :=
  ∀ l, s.links[i]? = some l → F l

section After

variable {strict : Bool} {α β : Type} {K : Link → Link → Prop}
  {hrefl : ∀ l, Link.Recording K l l}
  {htrans : ∀ l m n, Link.Recording K l m → Link.Recording K m n → Link.Recording K l n}
  {F : Link → Prop} {s : Core} {m : Crm α}
  {k : α → Crm β} {P : α → Prop} {Q : β → Core → Prop}

theorem allows_after {i : ℕ} (hF : ∀ l l', F l → K l l' → F l') (hs : s.InRange)
    (hat : HoldsAt i F s) (hm : (along strict (Link.Recording K) hrefl htrans).Keeps m P)
    (hk : ∀ a s', s'.InRange → HoldsAt i F s' → P a → (ranged strict).Allows s' Q (k a s')) :
    (ranged strict).Allows s Q ((m >>= k) s) := by
  refine Allows.after (D := along strict (Link.Recording K) hrefl htrans)
    (fun _ _ => LinkWise.imp fun _ _ h => h.2) (fun _ h => h) (hm s hs)
    fun a s' hs' hrel ha => hk a s' hs' (fun l' hl' => ?_) ha
  obtain ⟨l, hl, hll'⟩ := hrel i l' hl'
  exact hF l l' (hat l hl) hll'.1

end After

/-! ## The watchdog's timeout -/

/-- The step of the timeout check to the next frame's slot leaves the queue: it steps forward
from the last slot, and is not passed over for the first frame. -/
def Link.TimerLeaves (l : Link) (pos : ℤ) : Prop :=
  l.skipInitFrame = false ∧ l.maxDelay = 0 ∧ pos = numSlots - 1

/-- The timeout check of a link stays in the queue. -/
def Link.TimerFits (l : Link) : Prop :=
  ¬ l.TimerLeaves l.inQ.rdIdx

theorem Link.TimerFits.of_timed {l l' : Link} (h : l.TimerFits) (hrel : l.Timed l') :
    l'.TimerFits := by
  obtain ⟨hmax, hrd, hskip⟩ := hrel
  rw [Link.TimerFits, Link.TimerLeaves] at h ⊢
  rwa [hmax, hrd, hskip]

/-- The timeout check of a link stays in the queue, if it is judged strictly. -/
def Link.Timely (strict : Bool) (l : Link) : Prop :=
  strict = true → l.TimerFits

variable {strict : Bool} {i : ℕ} {idx rd : ℤ}

theorem allows_after_timed {α β : Type} {s : Core} {m : Crm α} {k : α → Crm β} {P : α → Prop}
    {Q : β → Core → Prop} (hs : s.InRange) (hfits : HoldsAt i (Link.Timely strict) s)
    (hm : (timed strict).Keeps m P)
    (hk : ∀ a s', s'.InRange → HoldsAt i (Link.Timely strict) s' → P a →
      (ranged strict).Allows s' Q (k a s')) :
    (ranged strict).Allows s Q ((m >>= k) s) :=
  allows_after (K := Link.Timed) (fun _ _ h hrel hstrict => (h hstrict).of_timed hrel) hs hfits
    hm hk

theorem ranged_modLink {f : Link → Link} (h : ∀ l, l.InRange → (f l).InRange)
    (hr : ∀ l : Link, l.KeepsRecords (f l)) :
    (ranged strict).Follows (modLink i f) :=
  keeps_modLink fun l hl => ⟨h l hl, hr l⟩

theorem ranged_modSlot {f : Slot → Slot} (h : SlotIdx idx)
    (hf : ∀ slot, slot.InRange → (f slot).InRange)
    (hr : ∀ slot : Slot, slot.KeepsRecord (f slot)) :
    (ranged strict).Follows (modSlot i idx f) :=
  keeps_modSlot h hf (keepsRecords_withSlots hr)

theorem ranged_of_calm {α : Type} {m : Crm α} {Q : α → Prop} (h : (calm strict).Keeps m Q) :
    (ranged strict).Keeps m Q :=
  keeps_ranged (keeps_timed h)

theorem allows_validateCrmWdTimer {s : Core} (hs : s.InRange)
    (hfits : HoldsAt i (Link.Timely strict) s) :
    (ranged strict).Allows s (fun _ _ => True) (validateCrmWdTimer i s) := by
  refine allows_link hs fun l hl hin => .ite (fun _ => ?_) fun hskip => ?_
  · exact Keeps.allows (ranged_modLink (fun _ hl => hl) .refl) hs fun _ _ _ => trivial
  have hnext : (ranged strict).Follows
      (slotAt i (decIdx l.inQ.rdIdx (l.maxDelay - 1) numSlots)) := by
    cases strict with
    | false => exact follows_slotAt i _
    | true =>
      have hlast (h0 : l.maxDelay = 0) : l.inQ.rdIdx ≠ numSlots - 1 := fun hrd =>
        hfits l hl rfl ⟨Bool.eq_false_iff.2 hskip, h0, hrd⟩
      have hidx := slotIdx_decIdx_pred hin.rdIdx hin.maxDelay hlast
      exact (keeps_slotAt i hidx).mono fun _ _ => trivial
  have hcurrent : SlotIdx (decIdx l.inQ.rdIdx l.maxDelay numSlots) := by
    have hmax := hin.maxDelay.2
    refine slotIdx_decIdx hin.rdIdx hin.maxDelay.1 ?_
    simp only [camPipelineDelayMax, numSlots, maxReqSlots] at *
    omega
  refine Keeps.seq hnext (fun next => ?_) s hs
  refine .seq (keeps_slotAt i hcurrent) fun current => .ite (fun _ => ?_) fun _ => ?_
  · exact .ite (fun _ => ranged_modLink (fun _ hl => hl) .refl) fun _ => .pure trivial
  · exact ranged_modLink (fun _ hl => hl) .refl

/-! ## Processing the read index -/

theorem timed_admitReq (i : ℕ) {slot : Slot} (trigger : BitVec 32) (hslot : slot.InRange)
    (hrd : SlotIdx rd) : (timed strict).Follows (admitReq i slot rd trigger) := by
  have hstatus (status : CrmSlotStatus) :
      (timed strict).Follows (modSlot i rd fun slot => { slot with status := status }) :=
    keeps_modSlot hrd (fun _ hin => ⟨hin.idx, hin.numSyncLinks⟩) fun l k hk =>
      ⟨Link.Timed.refl l, keepsRecords_withSlots (f := fun slot => { slot with status })
        (fun _ => .inr ⟨rfl, id⟩) l k hk⟩
  refine .ite (fun _ => .seq (keeps_timed (calm_checkRequest i trigger hslot)) fun rc => ?_) ?_
  · refine .ite (fun _ => .seq (hstatus _) fun _ => ?_) fun _ => .seq (hstatus _) fun _ => ?_
    · exact .seq (keeps_link i) fun l => .pure trivial
    · exact .seq (timed_modLink (fun _ hl => hl) .refl .refl) fun _ => .pure trivial
  · refine fun _ => .seq (keeps_timed (calm_injectDelayOnLink i trigger hslot.idx)) fun rc => ?_
    exact .ite (fun _ => .pure trivial) fun _ => .pure trivial

theorem ranged_notifyErrorOnLink (i : ℕ) (dev : ConnectedDevice) :
    (ranged strict).Follows (notifyErrorOnLink i dev) := by
  refine .bind (keeps_link i) fun l hl => .ite (fun _ => .pure trivial) fun _ => ?_
  refine .seq (keeps_elemAt_any hl.minDelay.1 hl.minDelay.2) fun apply => ?_
  exact .seq (ranged_of_calm (calm_sendEvt i _)) fun _ => .pure trivial

theorem ranged_reportRefusals (i : ℕ) (dev : ConnectedDevice) (hrd : SlotIdx rd) :
    (ranged strict).Follows (reportRefusals i rd dev) := by
  refine .seq (keeps_slotAt i hrd) fun slot => ?_
  refine .seq (ranged_modLink (fun _ hl => hl) .refl) fun _ => ?_
  refine .seq (ranged_notifyErrorOnLink i dev) fun _ => .seq (keeps_link i) fun l => ?_
  refine .ite (fun _ => ?_) fun _ => ranged_modLink (fun _ hl => hl) .refl
  exact .seq (ranged_modSlot hrd (fun _ hin => ⟨hin.idx, hin.numSyncLinks⟩) .refl) fun _ =>
    ranged_modLink (fun _ hl => hl) .refl

theorem ranged_retryLater (i : ℕ) (rc : ℤ) (failedDev : Option ConnectedDevice) (hrd : SlotIdx rd) :
    (ranged strict).Follows (retryLater i rd rc failedDev) := by
  refine .seq (ranged_modSlot hrd (fun _ hin => ⟨hin.idx, hin.numSyncLinks⟩) .refl) fun _ => ?_
  refine .seq (ranged_modLink (fun _ hl => hl) .refl) fun _ => ?_
  cases failedDev with
  | none => exact .pure trivial
  | some dev =>
    refine .seq (keeps_link i) fun l => .ite (fun _ => .pure trivial) fun _ => ?_
    refine .seq (ranged_modLink (fun _ hl => hl) .refl) fun _ => .seq (keeps_link i) fun l => ?_
    exact .ite (fun _ => ranged_reportRefusals i dev hrd) fun _ => .pure trivial

theorem calm_resetStep (i : ℕ) : (calm strict).Keeps (resetStep i) PipelineDelay := by
  refine .bind (keeps_link i) fun l hl => .seq (keeps_syncedLinks hl) fun links => ?_
  refine .foldlM hl.maxDelay fun step hstep j _ => .bind (keeps_link j) fun sync hsync => .pure ?_
  split
  · exact hsync.maxDelay
  · exact hstep

theorem PipelineDelay.resetIdx {step : ℤ} (h : PipelineDelay step) (hidx : SlotIdx idx) :
    SlotIdx (decIdx idx (step + 1) numSlots) := by
  have hlo := h.1
  have hhi := h.2
  refine slotIdx_decIdx hidx (by omega) ?_
  simp only [camPipelineDelayMax, numSlots, maxReqSlots] at *
  omega

theorem ranged_allApplied (i : ℕ) {applyData : Vector Apply camPipelineDelayMax}
    {devs : List ConnectedDevice} (happly : ∀ a ∈ applyData, SlotIdx a.idx)
    (hdevs : ∀ dev ∈ devs, dev.InRange) :
    (ranged strict).Follows (allApplied i applyData devs) := by
  induction devs with
  | nil => exact .pure trivial
  | cons dev devs ih =>
    have hpd := (hdevs dev List.mem_cons_self).pDelay
    refine .ite (fun _ => .pure trivial) fun _ => ?_
    refine .bind (keeps_elemAt happly hpd.1 hpd.2) fun apply hidx => ?_
    refine .seq (keeps_tblAt i _) fun tbl => .seq (keeps_tblSlotAt i _ hidx) fun slot => ?_
    exact .ite (fun _ => .pure trivial) fun _ =>
      ih fun d hd => hdevs d (List.mem_cons_of_mem dev hd)

theorem allows_settleApplied (rc : ℤ) {s : Core} (hrd : SlotIdx rd) (hs : s.InRange)
    (hfits : HoldsAt i (Link.Timely strict) s) :
    (ranged strict).Allows s (fun _ _ => True) (settleApplied i rd rc s) := by
  refine allows_after_timed hs hfits (timed_modLink (fun _ hl => hl) .refl .refl)
    fun _ s hs hfits _ => ?_
  refine .bind (allows_validateCrmWdTimer hs hfits) fun _ s hs _ _ =>
    Keeps.allows (P := fun _ => True) ?_ hs fun _ _ _ => trivial
  refine .seq (ranged_modLink (fun _ hl => hl) .refl) fun _ => .bind (keeps_link i) fun l hl => ?_
  refine .seq (ranged_allApplied i hl.apply hl.devs) fun applied => ?_
  cases applied with
  | none => exact .pure trivial
  | some applied =>
    refine .ite (fun _ => ?_) fun _ => .seq (ranged_modLink (fun _ hl => hl) .refl) fun _ =>
      .pure trivial
    refine .seq (ranged_modSlot hrd (fun _ hin => ⟨hin.idx, hin.numSyncLinks⟩) .refl) fun _ => ?_
    refine .seq (ranged_modLink (fun l hl => { hl with })
      fun l => ⟨fun _ => hrd.2, fun _ => .refl _⟩) fun _ => ?_
    refine .bind (ranged_of_calm (calm_resetStep i)) fun step hstep => ?_
    refine .seq (ranged_of_calm (calm_resetReqSlot i (hstep.resetIdx hrd))) fun _ => ?_
    exact .seq (ranged_modLink (fun _ hl => hl) .refl) fun _ => .pure trivial

/-- The part of `__cam_req_mgr_process_req` that checks and sends a request. -/
theorem allows_processSlot (t : TriggerNotify) {slot : Slot} {s : Core} (hslot : slot.InRange)
    (hrd : SlotIdx rd) (hs : s.InRange) (hfits : HoldsAt i (Link.Timely strict) s) :
    (ranged strict).Allows s (fun _ _ => True) ((do
      match ← admitReq i slot rd t.trigger with
      | some rc =>
        notifyFrameSkip i t.trigger
        validateCrmWdTimer i
        pure rc
      | none =>
        let (rc, failedDev) ← sendReq i t.trigger
        if rc < 0 then
          retryLater i rd rc failedDev
          pure rc
        else settleApplied i rd rc : Crm ℤ) s) := by
  refine allows_after_timed hs hfits (timed_admitReq i _ hslot hrd) fun admitted s hs hfits _ => ?_
  cases admitted with
  | some rc =>
    refine allows_after_timed hs hfits (keeps_timed (calm_notifyFrameSkip i _))
      fun _ s hs hfits _ => ?_
    exact .bind (allows_validateCrmWdTimer hs hfits) fun _ s hs _ _ => .pure hs trivial
  | none =>
    refine allows_after_timed hs hfits (timed_sendReq i _) fun out s hs hfits _ => ?_
    refine .ite (fun _ => ?_) fun _ => allows_settleApplied _ hrd hs hfits
    exact Keeps.seq (ranged_retryLater i _ _ hrd) (fun _ => .pure trivial) s hs

def Link.statusAt (l : Link) (pos : ℤ) : Option CrmSlotStatus :=
  (l.inQ.slot[pos.toNat]?).map (·.status)

/-- A trigger takes up the request at a position: at SOF one that is there and not applied, at
EOF any that is not applied, where a device waits for the event. -/
def Link.TakesUp (l : Link) (trigger : BitVec 32) (pos : ℤ) : Prop :=
  trigger = triggerPointSof ∧ l.statusAt pos ≠ some .noReq ∧ l.statusAt pos ≠ some .reqApplied ∨
    trigger = triggerPointEof ∧ l.eofEventCnt ≠ 0 ∧ l.statusAt pos ≠ some .reqApplied

theorem allows_processReq (t : TriggerNotify) {s : Core} (hs : s.InRange)
    (hfits : ∀ l, s.links[i]? = some l → l.TakesUp t.trigger l.inQ.rdIdx → l.Timely strict) :
    (ranged strict).Allows s (fun _ _ => True) (processReq i t s) := by
  refine allows_link hs fun l hl hin => .ite (fun _ => .pure hs trivial) fun _ => ?_
  refine allows_slotAt hs hl hin.rdIdx fun slot hget hslot => .ite (fun _ => .pure hs trivial) ?_
  intro hearly
  refine .ite (fun _ => ?_) fun hskip => ?_
  · exact Keeps.seq (ranged_of_calm (calm_notifyFrameSkip i _)) (fun _ => .pure trivial) s hs
  have hstatus : l.statusAt l.inQ.rdIdx = some slot.status := by
    rw [Link.statusAt, hget, Option.map_some]
  have htakes : l.TakesUp t.trigger l.inQ.rdIdx := by
    rw [Link.TakesUp, hstatus]
    by_cases hsof : t.trigger = triggerPointSof
    · exact .inl ⟨hsof, fun h => hskip ⟨hsof, Option.some.inj h⟩,
        fun h => hearly (.inr (.inr (Option.some.inj h)))⟩
    · have heof : t.trigger = triggerPointEof :=
        Decidable.not_not.1 fun hne => hearly (.inl ⟨hsof, hne⟩)
      exact .inr ⟨heof, fun h => hearly (.inr (.inl ⟨heof, h⟩)),
        fun h => hearly (.inr (.inr (Option.some.inj h)))⟩
  have hat : HoldsAt i (Link.Timely strict) s := by
    intro l' hl'
    rw [hl] at hl'
    cases hl'
    exact hfits l hl htakes
  refine allows_after_timed hs hat keeps_get fun s₀ s hs hat _ => ?_
  refine .ite (fun _ => ?_) fun _ => allows_processSlot t hslot hin.rdIdx hs hat
  exact allows_after_timed hs hat (timed_modLink (fun _ hl => hl) .refl .refl)
    fun _ s hs hat _ => allows_processSlot t hslot hin.rdIdx hs hat

end QcomModules.CamReqMgr
