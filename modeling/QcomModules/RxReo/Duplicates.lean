import QcomModules.Library.Runs
import QcomModules.RxReo.Snapshot

/-! The frames of one link that the host snapshot lets pass: their counters increase as long as no
frame older than the snapshot arrives, since the snapshot follows such a frame back. -/

namespace QcomModules.RxReo

open Library List

/-! ## Frames of a link -/

/-- A frame of a link, with the count of frames that its counter is the remainder of. -/
structure CountedFrame where
  desc : FrameDescriptor
  position : ℤ
  valid : desc.reoParams.valid = true
  fresh : desc.drop = false
  counted : desc.reoParams.mgmtPktCtr = BitVec.ofInt 16 position

/-- The host snapshot of a link, the frames that passed and where the latest frame stood. -/
structure LinkState where
  hostSs : MgmtRxReoSnapshotParams
  accepted : List CountedFrame
  last : ℤ

/-- The update reports success and leaves the frame unmarked. -/
def passesUpdate (r : QdfStatus × MgmtRxReoSnapshotParams × FrameDescriptor) : Bool :=
  r.1 == .success && !r.2.2.drop

def LinkState.receive (pktCtrDeltaThresh : BitVec 16) (s : LinkState) (f : CountedFrame) :
    LinkState :=
  let r := updateHostSnapshot pktCtrDeltaThresh s.hostSs f.desc
  { hostSs := r.2.1
    accepted := if passesUpdate r then s.accepted ++ [f] else s.accepted
    last := f.position }

def LinkState.Near (s : LinkState) (f : CountedFrame) : Prop :=
  f.position - s.last < 2 ^ 15 ∧ s.last - f.position < 2 ^ 15

instance (s : LinkState) (f : CountedFrame) : Decidable (s.Near f) :=
  inferInstanceAs (Decidable (_ ∧ _))

def LinkState.Older (s : LinkState) (f : CountedFrame) : Prop :=
  s.hostSs.valid = true ∧
    comparePktCtrsGte s.hostSs.mgmtPktCtr f.desc.reoParams.mgmtPktCtr = true ∧
    s.hostSs.mgmtPktCtr ≠ f.desc.reoParams.mgmtPktCtr

instance (s : LinkState) (f : CountedFrame) : Decidable (s.Older f) :=
  inferInstanceAs (Decidable (_ ∧ _))

/-- Later frames that passed have greater counters. -/
def LinkState.Increasing (s : LinkState) : Prop :=
  (s.accepted.map CountedFrame.position).Pairwise (· < ·)

/-- Nothing has passed yet, and a valid snapshot is that of the latest frame. -/
structure LinkState.Starts (s : LinkState) : Prop where
  accepted : s.accepted = []
  counted : s.hostSs.valid = true → s.hostSs.mgmtPktCtr = BitVec.ofInt 16 s.last

/-! ## What one update does -/

variable (thresh : BitVec 16) {s : LinkState} {f : CountedFrame} {us : ℤ}

theorem LinkState.receive_invalid (h : s.hostSs.valid = false) :
    s.receive thresh f =
      { hostSs := f.desc.reoParams.snapshot, accepted := s.accepted ++ [f],
        last := f.position } := by
  simp [LinkState.receive, updateHostSnapshot, passesUpdate, f.valid, f.fresh, h]

theorem LinkState.receive_behind (h : s.hostSs.valid = true)
    (hus : s.hostSs.mgmtPktCtr = BitVec.ofInt 16 us)
    (hgte : comparePktCtrsGte s.hostSs.mgmtPktCtr f.desc.reoParams.mgmtPktCtr = true)
    (hmod : (f.position - us) % 65536 = 0 ∨ 32768 < (f.position - us) % 65536) :
    s.receive thresh f =
      { hostSs := f.desc.reoParams.snapshot, accepted := s.accepted,
        last := f.position } := by
  have hdelta : subtractPktCtrs f.desc.reoParams.mgmtPktCtr s.hostSs.mgmtPktCtr ≤ 0 := by
    have hsub := @toNat_sub_ofInt 16 f.position us
    rw [subtractPktCtrs, serialSub, f.counted, hus]
    split <;> omega
  have hthresh : exceedsDeltaThresh thresh
      (subtractPktCtrs f.desc.reoParams.mgmtPktCtr s.hostSs.mgmtPktCtr) = false := by
    simp only [exceedsDeltaThresh, Bool.and_eq_false_imp, decide_eq_false_iff_not]
    omega
  simp [LinkState.receive, updateHostSnapshot, passesUpdate, f.valid, h, hgte, hthresh,
    handleOutOfOrderPktCtr]

theorem LinkState.receive_ahead (h : s.hostSs.valid = true)
    (hgte : comparePktCtrsGte s.hostSs.mgmtPktCtr f.desc.reoParams.mgmtPktCtr = false) :
    s.receive thresh f =
        { hostSs := f.desc.reoParams.snapshot, accepted := s.accepted ++ [f],
          last := f.position } ∨
      s.receive thresh f = { s with last := f.position } ∧
        subtractPktCtrs f.desc.reoParams.mgmtPktCtr s.hostSs.mgmtPktCtr ≠ 1 := by
  by_cases hthresh : subtractPktCtrs f.desc.reoParams.mgmtPktCtr s.hostSs.mgmtPktCtr ≠ 1 ∧
      exceedsDeltaThresh thresh
        (subtractPktCtrs f.desc.reoParams.mgmtPktCtr s.hostSs.mgmtPktCtr) = true
  · right
    refine ⟨?_, hthresh.1⟩
    simp [LinkState.receive, updateHostSnapshot, passesUpdate, f.valid, h, hgte, hthresh.1,
      hthresh.2]
  · left
    simp [LinkState.receive, updateHostSnapshot, passesUpdate, f.valid, f.fresh, h, hgte, hthresh]

/-! ## Runs of frames -/

/-- The frames that passed increase, and none is ahead of the snapshot, which is less than half of
the range behind the latest frame. -/
structure LinkState.InOrder (s : LinkState) : Prop where
  increasing : s.Increasing
  started : s.hostSs.valid = false → s.accepted = []
  snapshot : s.hostSs.valid = true → ∃ us, s.hostSs.mgmtPktCtr = BitVec.ofInt 16 us ∧
    us ≤ s.last ∧ s.last - us < 2 ^ 15 ∧ ∀ a ∈ s.accepted, a.position ≤ us

theorem LinkState.Starts.inOrder (h : s.Starts) : s.InOrder where
  increasing := by
    rw [LinkState.Increasing, h.accepted]
    exact .nil
  started := fun _ => h.accepted
  snapshot := fun hvalid => ⟨s.last, h.counted hvalid, le_refl _, by omega, by
    rw [h.accepted]
    simp⟩

theorem LinkState.inOrder_of_snapshot {accepted : List CountedFrame}
    (hinc : (accepted.map CountedFrame.position).Pairwise (· < ·))
    (hle : ∀ a ∈ accepted, a.position ≤ f.position) :
    LinkState.InOrder
      { hostSs := f.desc.reoParams.snapshot, accepted := accepted, last := f.position } where
  increasing := hinc
  started := fun hvalid => by cases hvalid
  snapshot := fun _ =>
    ⟨f.position, f.counted, le_refl _, show f.position - f.position < 2 ^ 15 by omega, hle⟩

theorem pairwise_append_ahead {accepted : List CountedFrame}
    (hinc : (accepted.map CountedFrame.position).Pairwise (· < ·))
    (hlt : ∀ a ∈ accepted, a.position < f.position) :
    ((accepted ++ [f]).map CountedFrame.position).Pairwise (· < ·) := by
  rw [map_append, pairwise_append]
  refine ⟨hinc, pairwise_singleton .., fun p hp q hq => ?_⟩
  obtain ⟨a, ha, rfl⟩ := mem_map.1 hp
  obtain rfl := mem_singleton.1 hq
  exact hlt a ha

theorem LinkState.InOrder.receive (h : s.InOrder) (hnear : s.Near f) (hold : ¬ s.Older f) :
    (s.receive thresh f).InOrder := by
  cases hvalid : s.hostSs.valid with
  | false =>
    rw [LinkState.receive_invalid thresh hvalid, h.started hvalid]
    exact LinkState.inOrder_of_snapshot (pairwise_singleton ..) (by simp)
  | true =>
    obtain ⟨us, hus, hle, hlast, hacc⟩ := h.snapshot hvalid
    obtain ⟨hnear, hnear'⟩ := hnear
    have hback := @toNat_sub_ofInt 16 us f.position
    cases hgte : comparePktCtrsGte s.hostSs.mgmtPktCtr f.desc.reoParams.mgmtPktCtr with
    | true =>
      -- only a duplicate is left, and it stands where the snapshot does
      have hsame : s.hostSs.mgmtPktCtr = f.desc.reoParams.mgmtPktCtr := by
        by_contra hne
        exact hold ⟨hvalid, hgte, hne⟩
      rw [← hus, ← f.counted, hsame, BitVec.sub_self] at hback
      have hpos : f.position = us := by
        change (0 : ℤ) = _ at hback
        omega
      rw [LinkState.receive_behind thresh hvalid hus hgte (by omega)]
      exact LinkState.inOrder_of_snapshot h.increasing fun a ha => hpos ▸ hacc a ha
    | false =>
      have hahead : us < f.position ∧ f.position - us < 2 ^ 15 := by
        rw [comparePktCtrsGte, serialGte, hus, f.counted] at hgte
        have hgt := of_decide_eq_false hgte
        omega
      obtain hrec | ⟨hrec, -⟩ := LinkState.receive_ahead thresh hvalid hgte
      · rw [hrec]
        have hlt (a) (ha : a ∈ s.accepted) : a.position < f.position := by
          have := hacc a ha
          omega
        refine LinkState.inOrder_of_snapshot (pairwise_append_ahead h.increasing hlt) ?_
        intro a ha
        obtain ha | ha := mem_append.1 ha
        · exact Int.le_of_lt (hlt a ha)
        · rw [mem_singleton.1 ha]
      · rw [hrec]
        refine ⟨h.increasing, h.started, fun _ => ⟨us, hus, ?_, ?_, hacc⟩⟩
        · exact Int.le_of_lt hahead.1
        · exact hahead.2

/-- As long as no frame older than the snapshot arrives, the frames that pass have increasing
counters. -/
theorem accepted_frames_increase {s s' : LinkState} (h : s.Starts)
    (hrun : Relation.ReflTransGen
      (GuardedStep (fun s f => s.Near f ∧ ¬ s.Older f) (LinkState.receive thresh)) s s') :
    s'.Increasing :=
  (invariant_of_guarded (fun _ _ hinv hok => hinv.receive thresh hok.1 hok.2) h.inOrder
    hrun).increasing

def CountedFrame.ofPosition (position : ℤ) : CountedFrame where
  desc := .init .hostConsumedFrame 0
    { valid := true, linkId := 0, mgmtPktCtr := BitVec.ofInt 16 position, globalTimestamp := 0,
      startTimestamp := 0, endTimestamp := 0 } true
  position := position
  valid := rfl
  fresh := rfl
  counted := rfl

def LinkState.start (position : ℤ) : LinkState where
  hostSs := { valid := false, mgmtPktCtr := 0, globalTimestamp := 0 }
  accepted := []
  last := position

theorem LinkState.start_starts (position : ℤ) : (LinkState.start position).Starts where
  accepted := rfl
  counted := fun h => by cases h

/-- A duplicate is dropped, and the frame after it passes. -/
theorem accepted_frames_increase_duplicate :
    (([10, 10, 11].map CountedFrame.ofPosition).foldl (LinkState.receive 0)
      (LinkState.start 10)).Increasing :=
  accepted_frames_increase 0 (LinkState.start_starts 10)
    (guarded_foldl (by decide +kernel))

/-- After the frame with counter 10, one with counter 5 is dropped and one with counter 6 passes. -/
theorem not_accepted_frames_increase :
    ¬ ∀ s : LinkState, Relation.ReflTransGen
      (GuardedStep LinkState.Near (LinkState.receive 0)) (LinkState.start 10) s →
        s.Increasing := by
  intro h
  have hrun : (([10, 5, 6].map CountedFrame.ofPosition).foldl (LinkState.receive 0)
      (LinkState.start 10)).Increasing := h _ (guarded_foldl (by decide +kernel))
  exact absurd hrun (by unfold LinkState.Increasing; decide +kernel)

end QcomModules.RxReo
