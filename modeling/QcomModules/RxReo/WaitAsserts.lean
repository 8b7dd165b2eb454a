import QcomModules.RxReo.WaitCount

/-! Management rx reorder: no assertion of the wait count fails, whatever snapshots the firmware
writes. -/

namespace QcomModules.RxReo

open Library

/-- All timestamps lie in one window below half of their range, and all counters in another. -/
structure LinkSnapshots.Windows (ss : LinkSnapshots) (ts : BitVec 32) : Prop where
  timestamps : ∃ base, ∀ t ∈ [ts, ss.macHwSs.globalTimestamp, ss.fwForwardedSs.globalTimestamp,
    ss.fwConsumedSs.globalTimestamp, ss.hostSs.globalTimestamp], (t - base).toNat < 2 ^ 31
  counters : ∃ base, ∀ ctr ∈ [ss.macHwSs.mgmtPktCtr, ss.fwForwardedSs.mgmtPktCtr,
    ss.fwConsumedSs.mgmtPktCtr, ss.hostSs.mgmtPktCtr], (ctr - base).toNat < 2 ^ 15

/-- The distance from the host snapshot to the one of the MAC hardware. -/
def LinkSnapshots.countBound (ss : LinkSnapshots) : ℕ :=
  if ss.hostSs.valid then (ss.macHwSs.mgmtPktCtr - ss.hostSs.mgmtPktCtr).toNat else UINT_MAX

variable {ss : LinkSnapshots} {ts : BitVec 32} {macHwSs hostSs fwSs : MgmtRxReoSnapshotParams}

/-! ## What the invalidation leaves -/

@[simp] theorem globalTimestamp_invalidateFwSnapshot :
    (invalidateFwSnapshot macHwSs hostSs fwSs).globalTimestamp = fwSs.globalTimestamp := by
  rw [invalidateFwSnapshot]
  split <;> rfl

@[simp] theorem mgmtPktCtr_invalidateFwSnapshot :
    (invalidateFwSnapshot macHwSs hostSs fwSs).mgmtPktCtr = fwSs.mgmtPktCtr := by
  rw [invalidateFwSnapshot]
  split <;> rfl

theorem LinkSnapshots.Windows.invalidate (h : ss.Windows ts) :
    (invalidateStaleSnapshots ss).Windows ts := by
  rw [invalidateStaleSnapshots]
  split
  · exact h
  · obtain ⟨htimestamps, hcounters⟩ := h
    constructor
    · simp only [globalTimestamp_invalidateFwSnapshot, apply_ite, ite_self]
      exact htimestamps
    · simp only [mgmtPktCtr_invalidateFwSnapshot, apply_ite, ite_self]
      exact hcounters

theorem invalidateFwSnapshot_valid (hvalid : (invalidateFwSnapshot macHwSs hostSs fwSs).valid) :
    macHwSs.aheadOf (invalidateFwSnapshot macHwSs hostSs fwSs) = true ∧
      (hostSs.valid → hostSs.agreesWith (invalidateFwSnapshot macHwSs hostSs fwSs) = true) := by
  rw [invalidateFwSnapshot] at hvalid ⊢
  split at hvalid
  · cases hvalid
  · next hstays =>
      rw [if_neg hstays]
      simp only [hvalid, Bool.true_and, Bool.or_eq_true, Bool.not_eq_true', Bool.and_eq_true,
        not_or, not_and, Bool.not_eq_false] at hstays
      exact hstays

/-- Snapshots that are valid are in order. -/
structure LinkSnapshots.Ordered (ss : LinkSnapshots) : Prop where
  host : ss.hostSs.valid → ss.macHwSs.aheadOf ss.hostSs = true
  forwarded : ss.fwForwardedSs.valid → ss.macHwSs.aheadOf ss.fwForwardedSs = true ∧
    (ss.hostSs.valid → ss.hostSs.agreesWith ss.fwForwardedSs = true)
  consumed : ss.fwConsumedSs.valid → ss.macHwSs.aheadOf ss.fwConsumedSs = true ∧
    (ss.hostSs.valid → ss.hostSs.agreesWith ss.fwConsumedSs = true)

theorem ordered_invalidateStaleSnapshots (hmac : ss.macHwSs.valid = true) :
    (invalidateStaleSnapshots ss).Ordered := by
  rw [invalidateStaleSnapshots, if_neg (by rw [hmac]; decide)]
  refine ⟨fun hvalid => ?_, invalidateFwSnapshot_valid, invalidateFwSnapshot_valid⟩
  dsimp only at hvalid ⊢
  split at hvalid
  · cases hvalid
  · next hstays =>
      rw [if_neg hstays]
      rw [hvalid, Bool.true_and, Bool.not_eq_true', Bool.not_eq_false] at hstays
      exact hstays

/-! ## Frames pending -/

theorem assertNonneg_of_le {pending : ℤ} (h : 0 ≤ pending) : assertNonneg pending = some pending :=
  if_pos h

theorem refineFramesPending_bounded {pending bound : ℤ} (hpos : 0 ≤ pending)
    (hle : pending ≤ bound)
    (hconsumed : ss.fwConsumedSs.valid →
      compareGlobalTimestampsGte ss.fwConsumedSs.globalTimestamp ts = true →
        0 < subtractPktCtrs ss.fwConsumedSs.mgmtPktCtr ss.hostSs.mgmtPktCtr ∧
          subtractPktCtrs ss.fwConsumedSs.mgmtPktCtr ss.hostSs.mgmtPktCtr ≤ bound)
    (hforwarded : ss.fwForwardedSs.valid →
      subtractPktCtrs ss.fwForwardedSs.mgmtPktCtr ss.hostSs.mgmtPktCtr ≤ bound)
    (hnewer : ss.fwForwardedSs.valid →
      compareGlobalTimestampsGte ss.fwForwardedSs.globalTimestamp ts = true →
        0 < subtractPktCtrs ss.fwForwardedSs.mgmtPktCtr ss.hostSs.mgmtPktCtr) :
    ∃ count, refineFramesPending ss ts pending = some count ∧ 0 ≤ count ∧ count ≤ bound := by
  have hlast (first : ℤ) (hfirst : 0 ≤ first) (hfirstLe : first ≤ bound) :
      ∃ count, (if ss.fwForwardedSs.valid &&
          compareGlobalTimestampsGte ss.fwForwardedSs.globalTimestamp ts then do
        let deltaFwdHost ← assertNonneg
          (subtractPktCtrs ss.fwForwardedSs.mgmtPktCtr ss.hostSs.mgmtPktCtr - 1)
        assertNonneg (min first deltaFwdHost)
      else pure first) = some count ∧ 0 ≤ count ∧ count ≤ bound := by
    split
    · next hseen =>
        rw [Bool.and_eq_true] at hseen
        have hpos' := hnewer hseen.1 hseen.2
        rw [assertNonneg_of_le (by omega), Option.bind_eq_bind, Option.bind_some,
          assertNonneg_of_le (by omega)]
        exact ⟨_, rfl, by omega, by omega⟩
    · exact ⟨first, rfl, hfirst, hfirstLe⟩
  rw [refineFramesPending]
  split
  · next hseen =>
      rw [Bool.and_eq_true] at hseen
      obtain ⟨hpos', hle'⟩ := hconsumed hseen.1 hseen.2
      rw [assertNonneg_of_le (by omega), Option.bind_eq_bind, Option.bind_some]
      split
      · next hbefore =>
          rw [Bool.and_eq_true] at hbefore
          have hle'' := hforwarded hbefore.1
          exact hlast _ (by omega) (by omega)
      · exact hlast _ (by omega) (by omega)
  · exact hlast _ hpos hle

theorem LinkSnapshots.Windows.fw_places {baseTs : BitVec 32} {baseCtr : BitVec 16}
    (hmacCtr : (macHwSs.mgmtPktCtr - baseCtr).toNat < 2 ^ 15)
    (hhostCtr : (hostSs.mgmtPktCtr - baseCtr).toNat < 2 ^ 15)
    (hfwCtr : (fwSs.mgmtPktCtr - baseCtr).toNat < 2 ^ 15)
    (hts : (ts - baseTs).toNat < 2 ^ 31)
    (hhostTs : (hostSs.globalTimestamp - baseTs).toNat < 2 ^ 31)
    (hfwTs : (fwSs.globalTimestamp - baseTs).toNat < 2 ^ 31)
    (hbefore : compareGlobalTimestampsGte hostSs.globalTimestamp ts = false)
    (hahead : macHwSs.aheadOf fwSs = true) (hagrees : hostSs.agreesWith fwSs = true) :
    subtractPktCtrs fwSs.mgmtPktCtr hostSs.mgmtPktCtr ≤
        subtractPktCtrs macHwSs.mgmtPktCtr hostSs.mgmtPktCtr ∧
      (compareGlobalTimestampsGte fwSs.globalTimestamp ts = true →
        0 < subtractPktCtrs fwSs.mgmtPktCtr hostSs.mgmtPktCtr) := by
  rw [MgmtRxReoSnapshotParams.aheadOf, Bool.and_eq_true, comparePktCtrsGte,
    serialGte_of_window hmacCtr hfwCtr, decide_eq_true_eq] at hahead
  rw [MgmtRxReoSnapshotParams.agreesWith, beq_iff_eq, comparePktCtrsGte,
    serialGte_of_window hhostCtr hfwCtr, compareGlobalTimestampsGte,
    serialGte_of_window hhostTs hfwTs, decide_eq_decide] at hagrees
  rw [compareGlobalTimestampsGte, serialGte_of_window hhostTs hts, decide_eq_false_iff_not]
    at hbefore
  rw [subtractPktCtrs, subtractPktCtrs, serialSub_of_window hfwCtr hhostCtr,
    serialSub_of_window hmacCtr hhostCtr, compareGlobalTimestampsGte,
    serialGte_of_window hfwTs hts, decide_eq_true_eq]
  omega

theorem framesPending_bounded (hordered : ss.macHwSs.valid → ss.Ordered)
    (hwindows : ss.Windows ts) :
    ∃ count, framesPending ss ts = some count ∧ count ≤ ss.countBound := by
  obtain ⟨⟨baseTs, htimestamps⟩, baseCtr, hcounters⟩ := hwindows
  simp only [List.forall_mem_cons, List.not_mem_nil, false_imp_iff, implies_true, and_true]
    at htimestamps hcounters
  obtain ⟨hts, -, hfwdTs, hconsTs, hhostTs⟩ := htimestamps
  obtain ⟨hmacCtr, hfwdCtr, hconsCtr, hhostCtr⟩ := hcounters
  rw [framesPending, LinkSnapshots.countBound]
  split
  · exact ⟨0, rfl, Nat.zero_le _⟩
  next hmac =>
  rw [Bool.not_eq_true', Bool.not_eq_false] at hmac
  split
  · next hinvalid =>
      rw [Bool.not_eq_true'] at hinvalid
      exact ⟨UINT_MAX, rfl, (if_neg (by rw [hinvalid]; decide)).ge⟩
  next hvalid =>
  rw [Bool.not_eq_true', Bool.not_eq_false] at hvalid
  split
  · exact ⟨0, rfl, Nat.zero_le _⟩
  next hne =>
  split
  · exact ⟨0, rfl, Nat.zero_le _⟩
  next hbefore =>
  rw [Bool.not_eq_true] at hbefore
  obtain ⟨hhost, hforwarded, hconsumed⟩ := hordered hmac
  have hhost := hhost hvalid
  have hfwd (h : ss.fwForwardedSs.valid) := LinkSnapshots.Windows.fw_places hmacCtr hhostCtr
    hfwdCtr hts hhostTs hfwdTs hbefore (hforwarded h).1 ((hforwarded h).2 hvalid)
  have hcons (h : ss.fwConsumedSs.valid) := LinkSnapshots.Windows.fw_places hmacCtr hhostCtr
    hconsCtr hts hhostTs hconsTs hbefore (hconsumed h).1 ((hconsumed h).2 hvalid)
  rw [MgmtRxReoSnapshotParams.aheadOf, Bool.and_eq_true, comparePktCtrsGte,
    serialGte_of_window hmacCtr hhostCtr, decide_eq_true_eq] at hhost
  have hdist : subtractPktCtrs ss.macHwSs.mgmtPktCtr ss.hostSs.mgmtPktCtr =
      (ss.macHwSs.mgmtPktCtr - ss.hostSs.mgmtPktCtr).toNat := by
    have hsub := @toNat_sub_of_places 15 baseCtr ss.macHwSs.mgmtPktCtr ss.hostSs.mgmtPktCtr
    rw [if_pos hhost.2] at hsub
    rw [subtractPktCtrs, serialSub_of_window hmacCtr hhostCtr, hsub, Nat.cast_sub hhost.2]
  have hpos : 0 < subtractPktCtrs ss.macHwSs.mgmtPktCtr ss.hostSs.mgmtPktCtr := by omega
  rw [assertNonneg_of_le hpos.le, Option.bind_eq_bind, Option.bind_some]
  dsimp only
  split
  · have hless : 0 ≤ subtractPktCtrs ss.macHwSs.mgmtPktCtr ss.hostSs.mgmtPktCtr - 1 := by omega
    rw [assertNonneg_of_le hless, Option.bind_some]
    obtain ⟨count, hsome, hcount, hle⟩ := refineFramesPending_bounded hless (Int.sub_le_self _
      Int.one_nonneg) (fun hv hseen => ⟨(hcons hv).2 hseen, (hcons hv).1⟩) (fun hv => (hfwd hv).1)
      (fun hv hseen => (hfwd hv).2 hseen)
    rw [hsome, Option.bind_some, assertNonneg_of_le hcount]
    exact ⟨_, rfl, by omega⟩
  · rw [Option.pure_def, Option.bind_some, assertNonneg_of_le hpos.le]
    exact ⟨_, rfl, by omega⟩

variable {views : Fin MAX_MLO_LINKS → LinkView} {c : Calculation} {link : Fin MAX_MLO_LINKS}

theorem perLinkCount_count (c : Calculation) (link : Fin MAX_MLO_LINKS) (count : ℕ) :
    (c.count link count).desc.waitCount.perLinkCount link = count := Function.update_self ..

/-- No assertion fails for a link, and where its snapshots are accepted the frames to wait for are
no more than those between the host snapshot and the one of the MAC hardware. -/
theorem wait_count_asserts_hold (hread : (views link).snapshots (c.hostSs link) = some ss)
    (hwindows : ss.Windows c.desc.globalTs) :
    ∃ c', calculateLink views c link = some c' ∧ (c'.status = .success →
      c'.desc.waitCount.perLinkCount link ≤ (invalidateStaleSnapshots ss).countBound) := by
  have hzero : (c.count link 0).desc.waitCount.perLinkCount link ≤
      (invalidateStaleSnapshots ss).countBound :=
    (perLinkCount_count c link 0).le.trans (Nat.zero_le _)
  rw [calculateLink, hread]
  split
  · next hstopped => exact ⟨c, rfl, fun hok => absurd hok hstopped⟩
  split
  · exact ⟨_, rfl, fun _ => hzero⟩
  split
  · exact ⟨_, rfl, fun _ => hzero⟩
  split
  · exact ⟨_, rfl, nofun⟩
  split
  · exact ⟨_, rfl, fun _ => hzero⟩
  dsimp only
  split
  · exact ⟨_, rfl, nofun⟩
  split
  · exact ⟨_, rfl, fun _ => (perLinkCount_count _ link 0).le.trans (Nat.zero_le _)⟩
  · obtain ⟨count, hsome, hle⟩ := framesPending_bounded
      (fun hmac => ordered_invalidateStaleSnapshots (by
        rw [invalidateStaleSnapshots] at hmac
        split at hmac <;> exact hmac)) hwindows.invalidate
    refine ⟨_, congrArg (Option.map _) hsome, fun _ => ?_⟩
    exact (perLinkCount_count _ link count).le.trans hle

/-- The firmware has consumed a frame after the incoming one, and has not forwarded one yet. -/
def sampleSnapshots : LinkSnapshots where
  macHwSs := ⟨true, 12, 120⟩
  fwForwardedSs := ⟨true, 8, 80⟩
  fwConsumedSs := ⟨true, 10, 100⟩
  hostSs := ⟨true, 5, 50⟩

def sampleView : LinkView :=
  ⟨true, true, true, true, fun
    | .fwConsumed => some sampleSnapshots.fwConsumedSs
    | .fwForwarded => some sampleSnapshots.fwForwardedSs
    | .macHw => some sampleSnapshots.macHwSs⟩

def sampleCalculation : Calculation :=
  ⟨.success, fun _ => sampleSnapshots.hostSs,
    .init .hostConsumedFrame 0 ⟨true, 0, 3, 90, 90, 95⟩ true⟩

theorem sampleSnapshots_windows : sampleSnapshots.Windows sampleCalculation.desc.globalTs where
  timestamps := ⟨0, by
    simp [sampleSnapshots, sampleCalculation, FrameDescriptor.globalTs, FrameDescriptor.init]⟩
  counters := ⟨0, by simp [sampleSnapshots]⟩

theorem wait_count_asserts_hold_consumed :
    ∃ c', calculateLink (fun _ => sampleView) sampleCalculation 1 = some c' ∧
      (c'.status = .success → c'.desc.waitCount.perLinkCount 1 ≤
        (invalidateStaleSnapshots sampleSnapshots).countBound) :=
  wait_count_asserts_hold rfl sampleSnapshots_windows

end QcomModules.RxReo
