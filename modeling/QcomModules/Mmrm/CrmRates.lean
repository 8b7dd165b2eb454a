import QcomModules.Mmrm.Levels

/-! Clients whose rate is the largest vote of several drivers. -/

namespace QcomModules.Mmrm

open Library Relation List

variable {tot : ℕ}

/-! ## The largest vote -/

/-- A place holds a largest vote. -/
structure MaxAt (votes : List (BitVec 64)) (rate : BitVec 64) (idx : ℕ) : Prop where
  le : ∀ (i : ℕ) (v : BitVec 64), votes[i]? = some v → v ≤ rate
  attained : votes[idx]? = some rate

/-- What a scan from place `i` on ends with: the largest vote beside the one that is left out, or
what it began with. -/
structure Scanned (skip i : ℕ) (votes : List (BitVec 64)) (best best' : BitVec 64 × ℕ) : Prop where
  best_le : best.1 ≤ best'.1
  le : ∀ (j : ℕ) (v : BitVec 64), i + j ≠ skip → votes[j]? = some v → v ≤ best'.1
  found : best' = best ∨ ∃ j, i + j ≠ skip ∧ best.1 < best'.1 ∧ best'.2 = i + j ∧
    votes[j]? = some best'.1

variable {i : ℕ} {votes : List (BitVec 64)} {best best' : BitVec 64 × ℕ} {v clkVal : BitVec 64}
  {e : ClkClient} {data : ClientData} {corners : VddCorners} {clk : Clk} {reqLevel : Level}
  {m : ClkMgr tot} {uid : Fin tot} {env : SetvalEnv}

theorem Scanned.cons_of_le {skip : ℕ} {vote : BitVec 64} (h : Scanned skip (i + 1) votes best best')
    (hvote : i ≠ skip → vote ≤ best.1) : Scanned skip i (vote :: votes) best best' := by
  refine ⟨h.best_le, fun j v hj hv => ?_, h.found.imp_right ?_⟩
  · cases j with
    | zero =>
      rw [getElem?_cons_zero, Option.some.injEq] at hv
      exact hv ▸ BitVec.le_trans (hvote hj) h.best_le
    | succ j => exact h.le j v (by omega) hv
  · rintro ⟨j, hj, hlt, hidx, hget⟩
    exact ⟨j + 1, by omega, hlt, by omega, hget⟩

theorem Scanned.cons_of_lt {skip : ℕ} {vote : BitVec 64}
    (h : Scanned skip (i + 1) votes (vote, i) best') (hskip : i ≠ skip) (hlt : best.1 < vote) :
    Scanned skip i (vote :: votes) best best' := by
  have hless : best.1 < best'.1 := Nat.lt_of_lt_of_le hlt h.best_le
  refine ⟨BitVec.le_of_lt hless, fun j v hj hv => ?_, ?_⟩
  · cases j with
    | zero =>
      rw [getElem?_cons_zero, Option.some.injEq] at hv
      exact hv ▸ h.best_le
    | succ j => exact h.le j v (by omega) hv
  · rcases h.found with rfl | ⟨j, hj, -, hidx, hget⟩
    · exact .inr ⟨0, hskip, hlt, rfl, rfl⟩
    · exact .inr ⟨j + 1, by omega, hless, by omega, hget⟩

theorem scanVotes_spec (skip i : ℕ) (votes : List (BitVec 64)) (best : BitVec 64 × ℕ) :
    Scanned skip i votes best (scanVotes skip i votes best) := by
  induction votes generalizing i best with
  | nil => exact ⟨BitVec.le_refl _, nofun, .inl rfl⟩
  | cons vote votes ih =>
    rw [scanVotes]
    by_cases hskip : i = skip
    · rw [if_pos hskip]
      exact (ih (i + 1) best).cons_of_le fun h => absurd hskip h
    · rw [if_neg hskip]
      by_cases hlt : best.1 < vote
      · rw [if_pos hlt]
        exact (ih (i + 1) (vote, i)).cons_of_lt hskip hlt
      · rw [if_neg hlt]
        exact (ih (i + 1) best).cons_of_le fun _ => BitVec.not_lt.mp hlt

theorem MaxAt.set_of_ne {rate : BitVec 64} {idx : ℕ} (h : MaxAt votes rate idx) (hne : i ≠ idx)
    (hle : v ≤ rate) : MaxAt (votes.set i v) rate idx := by
  refine ⟨fun j w hw => ?_, ?_⟩
  · rw [getElem?_set] at hw
    split at hw
    · split at hw
      · cases hw
        exact hle
      · cases hw
    · exact h.le j w hw
  · rw [getElem?_set_ne hne]
    exact h.attained

theorem maxAt_set (hi : i < votes.length)
    (hle : ∀ (j : ℕ) (w : BitVec 64), i ≠ j → votes[j]? = some w → w ≤ v) :
    MaxAt (votes.set i v) v i := by
  refine ⟨fun j w hw => ?_, getElem?_set_self hi⟩
  by_cases hj : i = j
  · subst hj
    rw [getElem?_set_self hi] at hw
    cases hw
    exact BitVec.le_refl _
  · rw [getElem?_set_ne hj] at hw
    exact hle j w hj hw

/-! ## The vote of a driver -/

/-- The rate of a client is its largest vote, and the place of that vote is known. -/
structure CrmTracks (e : ClkClient) : Prop where
  isCrmClient : e.isCrmClient = true
  length : e.crmClientTbl.length = e.hwDrvInstances * e.numPwrStates + 1
  maxAt : MaxAt e.crmClientTbl e.clkRate e.maxRateIdx

theorem CrmTracks.newValIdx_lt (h : CrmTracks e) (hvalid : ¬ e.InvalidCrm data) :
    e.newValIdx data < e.crmClientTbl.length := by
  have hidx : data.crmDrvIdx < e.hwDrvInstances ∧ data.pwrSt < e.numPwrStates := by
    by_contra hnot
    refine hvalid ⟨h.isCrmClient, ?_⟩
    omega
  have hlength := h.length
  rw [ClkClient.newValIdx]
  split
  · omega
  · have hmul : e.numPwrStates * (data.crmDrvIdx + 1) ≤ e.numPwrStates * e.hwDrvInstances :=
      Nat.mul_le_mul_left _ hidx.1
    rw [Nat.mul_add, Nat.mul_one, Nat.mul_comm e.numPwrStates e.hwDrvInstances] at hmul
    omega

theorem CrmTracks.maxAt_set (h : CrmTracks e) (hvalid : ¬ e.InvalidCrm data)
    (newClkVal : BitVec 64) :
    MaxAt (e.crmClientTbl.set (e.newValIdx data) newClkVal) (getMaxCrmRate e data newClkVal).1
      (getMaxCrmRate e data newClkVal).2 := by
  have hlt := h.newValIdx_lt hvalid
  rw [getMaxCrmRate]
  by_cases hmore : e.clkRate < newClkVal
  · rw [if_pos hmore]
    refine Mmrm.maxAt_set hlt fun j w _ hw => ?_
    exact BitVec.le_of_lt (Nat.lt_of_le_of_lt (h.maxAt.le j w hw) hmore)
  rw [if_neg hmore]
  by_cases hmax : e.newValIdx data = e.maxRateIdx
  · rw [if_pos hmax, hmax]
    have hscan := scanVotes_spec e.maxRateIdx 0 e.crmClientTbl (0, e.maxRateIdx)
    generalize scanVotes e.maxRateIdx 0 e.crmClientTbl (0, e.maxRateIdx) = best at hscan ⊢
    have hothers : ∀ (j : ℕ) (w : BitVec 64), e.maxRateIdx ≠ j → e.crmClientTbl[j]? = some w →
        w ≤ best.1 := fun j w hj => hscan.le j w (by omega)
    dsimp only
    by_cases hbest : best.1 ≤ newClkVal
    · rw [if_pos hbest]
      refine Mmrm.maxAt_set (hmax ▸ hlt) fun j w hj hw => ?_
      exact BitVec.le_trans (hothers j w hj hw) hbest
    · rw [if_neg hbest]
      have hless := BitVec.not_le.mp hbest
      rcases hscan.found with rfl | ⟨j, hj, -, hidx, hget⟩
      · exact absurd (by bv_omega) hbest
      · rw [hidx, Nat.zero_add]
        refine ⟨fun i w hw => ?_, ?_⟩
        · by_cases hi : e.maxRateIdx = i
          · subst hi
            rw [getElem?_set_self (hmax ▸ hlt)] at hw
            cases hw
            exact BitVec.le_of_lt hless
          · rw [getElem?_set_ne hi] at hw
            exact hothers i w hi hw
        · rw [getElem?_set_ne (by omega)]
          exact hget
  · rw [if_neg hmax]
    exact h.maxAt.set_of_ne hmax (BitVec.not_lt.mp hmore)

/-! ## Levels -/

theorem getReqLevel_ne_zero (corners : VddCorners) (clk : Clk) (clkVal : BitVec 64) :
    getReqLevel corners clk clkVal ≠ some 0 := by
  rw [getReqLevel]
  split
  · nofun
  split
  · decide
  · rename_i hlow
    intro hfind
    have hcorner := find?_some hfind
    rw [decide_eq_true_eq] at hcorner
    exact hlow (hcorner ▸ corners.strictMono (by decide))

def ClkClient.LevelRight (corners : VddCorners) (e : ClkClient) : Prop :=
  ∀ clk ∈ e.clk, e.clkRate ≠ 0 → getReqLevel corners clk e.clkRate = some e.vddLevel

instance (corners : VddCorners) (e : ClkClient) : Decidable (e.LevelRight corners) :=
  inferInstanceAs (Decidable (∀ _ ∈ _, _))

/-- No other driver votes for a rate. -/
def ClkClient.OthersIdle (e : ClkClient) (data : ClientData) : Prop :=
  ∀ i < e.crmClientTbl.length, i ≠ e.newValIdx data → e.crmClientTbl[i]? = some 0

theorem CrmTracks.effective_zero_iff (h : CrmTracks e) (hvalid : ¬ e.InvalidCrm data) :
    e.effective data 0 = 0 ↔ e.OthersIdle data := by
  have hmax := h.maxAt_set hvalid 0
  rw [ClkClient.effective, if_pos h.isCrmClient]
  generalize getMaxCrmRate e data 0 = best at hmax ⊢
  constructor
  · intro hzero i hi hne
    have hget : (e.crmClientTbl.set (e.newValIdx data) 0)[i]? = some e.crmClientTbl[i] := by
      rw [getElem?_set_ne hne.symm, getElem?_eq_getElem hi]
    have hle := hmax.le i _ hget
    rw [hzero] at hle
    rw [getElem?_eq_getElem hi]
    exact congrArg some (BitVec.le_zero_iff.mp hle)
  · intro hidle
    have hget := hmax.attained
    rw [getElem?_set] at hget
    split at hget
    · split at hget
      · exact (Option.some.inj hget).symm
      · cases hget
    · rename_i hne
      have hlt : best.2 < e.crmClientTbl.length := (List.getElem?_eq_some_iff.mp hget).1
      rw [hidle best.2 hlt (Ne.symm hne)] at hget
      exact (Option.some.inj hget).symm

theorem ClkClient.getReqLevel_of_requestLevel (hne : clkVal ≠ 0)
    (h : e.requestLevel corners clk data clkVal = some reqLevel) :
    getReqLevel corners clk (e.effective data clkVal) = some reqLevel := by
  rw [requestLevel, if_pos hne] at h
  cases hlevel : getReqLevel corners clk (e.effective data clkVal) with
  | none => simp [hlevel] at h
  | some level =>
    simp only [hlevel, Option.bind_eq_bind, Option.bind_some, Option.bind_eq_some_iff] at h
    obtain ⟨-, -, hlevel⟩ := h
    exact hlevel

/-- After a recorded vote the level is right if it is for a rate, or if no other driver votes for
one. -/
theorem CrmTracks.levelRight_record_iff (h : CrmTracks e) (hclk : e.clk = some clk)
    (hvalid : ¬ e.InvalidCrm data)
    (hlevel : e.requestLevel corners clk data clkVal = some reqLevel) :
    (e.record e data clkVal reqLevel).LevelRight corners ↔ clkVal ≠ 0 ∨ e.OthersIdle data := by
  by_cases hne : clkVal = 0
  · subst hne
    have hreq : reqLevel = 0 := by
      rw [ClkClient.requestLevel] at hlevel
      simpa using hlevel.symm
    rw [← h.effective_zero_iff hvalid]
    constructor
    · intro hright
      right
      by_contra hrate
      refine getReqLevel_ne_zero corners clk (e.effective data 0) ?_
      rw [← hreq]
      exact hright clk hclk hrate
    · rintro (habsurd | hzero) clk' hclk' hrate
      · exact absurd rfl habsurd
      · exact absurd hzero hrate
  · refine iff_of_true ?_ (.inl hne)
    intro clk' hclk' _
    rw [show (e.record e data clkVal reqLevel).clk = e.clk from rfl, hclk] at hclk'
    cases hclk'
    exact ClkClient.getReqLevel_of_requestLevel hne hlevel

theorem CrmTracks.record (h : CrmTracks e) (hvalid : ¬ e.InvalidCrm data) (clkVal : BitVec 64)
    (reqLevel : Level) : CrmTracks (e.record e data clkVal reqLevel) := by
  have hmax := h.maxAt_set hvalid clkVal
  rw [ClkClient.record, ClkClient.effective]
  simp only [if_pos h.isCrmClient]
  exact ⟨h.isCrmClient, (length_set ..).trans h.length, hmax⟩

/-! ## Runs -/

theorem checkPeakCurrent_entry {m' : ClkMgr tot} {clkVal numHwBlocks : BitVec 32}
    (h : checkPeakCurrent m uid reqLevel clkVal numHwBlocks env = (m', 0)) (c : Fin tot) :
    m'.clkClientTbl c = m.clkClientTbl c ∨ m'.clkClientTbl c = (m.clkClientTbl c).throttle := by
  have houtcome := checkPeakCurrent_outcome m uid reqLevel clkVal numHwBlocks env
  rw [h] at houtcome
  cases houtcome with
  | idle | below | refused | unhelped => exact .inl rfl
  | throttled t i =>
    by_cases hc : c = t
    · subst hc
      exact .inr (m.setEntry_self c _)
    · exact .inl (m.setEntry_of_ne hc _)

theorem CrmTracks.setval_entry (h : CrmTracks (m.clkClientTbl uid))
    (hrc : (clkClientSetval corners m uid data clkVal env).2 = 0) :
    ∃ clk reqLevel, (m.clkClientTbl uid).clk = some clk ∧
      ¬ (m.clkClientTbl uid).InvalidCrm data ∧
      (m.clkClientTbl uid).requestLevel corners clk data clkVal = some reqLevel ∧
      (clkClientSetval corners m uid data clkVal env).1.clkClientTbl uid =
        (m.clkClientTbl uid).record (m.clkClientTbl uid) data clkVal reqLevel := by
  have houtcome := clkClientSetval_outcome corners m uid data clkVal env
  generalize clkClientSetval corners m uid data clkVal env = r at houtcome hrc ⊢
  cases houtcome with
  | rejected rc hne => exact absurd hrc hne
  | repeated hrepeats =>
    have hcrm := hrepeats.2.2
    rw [h.isCrmClient] at hcrm
    cases hcrm
  | recorded clk hclk hvalid _ reqLevel hlevel m' hpeak rc =>
    refine ⟨clk, reqLevel, hclk, hvalid, hlevel, ?_⟩
    rw [ClkMgr.setEntry_self]
    rcases checkPeakCurrent_entry hpeak uid with hsame | hthrottled
    · rw [hsame]
    · rw [hthrottled]
      rfl

/-- The calls of a run: requests of the client that pass, and calls that leave its entry alone. -/
def CrmCall (corners : VddCorners) (uid : Fin tot) (m : ClkMgr tot) (op : ClkOp tot) : Prop :=
  (∃ data clkVal env, op = .setval uid data clkVal env ∧
    (clkClientSetval corners m uid data clkVal env).2 = 0) ∨
  (clkStep corners m op).clkClientTbl uid = m.clkClientTbl uid

/-- A client with several drivers that none has voted for. -/
structure ClkClient.CrmFresh (e : ClkClient) : Prop where
  isCrmClient : e.isCrmClient = true
  crmClientTbl : e.crmClientTbl = List.replicate (e.hwDrvInstances * e.numPwrStates + 1) 0
  maxRateIdx : e.maxRateIdx = 0
  clkRate : e.clkRate = 0

theorem ClkClient.CrmFresh.tracks (h : e.CrmFresh) : CrmTracks e := by
  refine ⟨h.isCrmClient, ?_, fun i v hv => ?_, ?_⟩
  · rw [h.crmClientTbl, length_replicate]
  · rw [h.crmClientTbl, getElem?_replicate] at hv
    split at hv
    · cases hv
      rw [h.clkRate]
      exact BitVec.le_refl _
    · cases hv
  · rw [h.crmClientTbl, h.maxRateIdx, h.clkRate, getElem?_replicate, if_pos (Nat.succ_pos _)]

theorem crmTracks_step (m : ClkMgr tot) (op : ClkOp tot) (h : CrmTracks (m.clkClientTbl uid))
    (hcall : CrmCall corners uid m op) : CrmTracks ((clkStep corners m op).clkClientTbl uid) := by
  rcases hcall with ⟨data, clkVal, env, rfl, hrc⟩ | hsame
  · obtain ⟨clk, reqLevel, -, hvalid, -, hentry⟩ := h.setval_entry hrc
    rw [clkStep, hentry]
    exact h.record hvalid clkVal reqLevel
  · rw [hsame]
    exact h

/-- In every run of votes that pass, the rate of a client is its largest vote; and the level after
such a vote is right exactly if the vote is for a rate, or no other driver votes for one. -/
theorem crm_rates_tracked {corners : VddCorners} {m₀ m : ClkMgr tot} {uid : Fin tot}
    (hfresh : (m₀.clkClientTbl uid).CrmFresh)
    (hrun : ReflTransGen (GuardedStep (CrmCall corners uid) (clkStep corners)) m₀ m) :
    CrmTracks (m.clkClientTbl uid) ∧ ∀ data clkVal env,
      (clkClientSetval corners m uid data clkVal env).2 = 0 →
      (((clkClientSetval corners m uid data clkVal env).1.clkClientTbl uid).LevelRight corners ↔
        clkVal ≠ 0 ∨ (m.clkClientTbl uid).OthersIdle data) := by
  have h : CrmTracks (m.clkClientTbl uid) := @invariant_of_guarded _ _ _ _
    (fun m => CrmTracks (m.clkClientTbl uid)) crmTracks_step _ _ hfresh.tracks hrun
  refine ⟨h, fun data clkVal env hrc => ?_⟩
  obtain ⟨clk, reqLevel, hclk, hvalid, hlevel, hentry⟩ := h.setval_entry hrc
  rw [hentry]
  exact h.levelRight_record_iff hclk hvalid hlevel

/-! ## Two votes -/

/-- A client with one hardware driver in one power state, and the software driver. -/
def crmMgr : ClkMgr 3 :=
  (clkClientRegister freshMgr
    { clientDomain := 0, clientId := 0, clk := some levelClk, pri := .low, notifier := false
      hwDrvInstances := 1, numPwrStates := 1, freq := fun _ => 1, currentMa := fun _ _ => 10 }
    ⟨false, true, true⟩).1

def vote (swDrv : Bool) (clkVal : BitVec 64) : ClkOp 3 :=
  .setval 0 ⟨1, false, swDrv, 0, 0⟩ clkVal ⟨false, true, true, true, true⟩

theorem crmMgr_fresh : (crmMgr.clkClientTbl 0).CrmFresh :=
  ⟨by decide +kernel, by decide +kernel, by decide +kernel, by decide +kernel⟩

theorem crmMgr_votes : ReflTransGen (GuardedStep (CrmCall kernelCorners 0) (clkStep kernelCorners))
    crmMgr ([vote false 5, vote true 3].foldl (clkStep kernelCorners) crmMgr) :=
  .head ⟨vote false 5, .inl ⟨_, _, _, rfl, by decide +kernel⟩, rfl⟩
    (.single ⟨vote true 3, .inl ⟨_, _, _, rfl, by decide +kernel⟩, rfl⟩)

theorem crm_rates_tracked_votes :
    CrmTracks (([vote false 5, vote true 3].foldl (clkStep kernelCorners) crmMgr).clkClientTbl 0) ∧
      ∀ data clkVal env,
        (clkClientSetval kernelCorners ([vote false 5, vote true 3].foldl (clkStep kernelCorners)
          crmMgr) 0 data clkVal env).2 = 0 →
        (((clkClientSetval kernelCorners ([vote false 5, vote true 3].foldl (clkStep kernelCorners)
            crmMgr) 0 data clkVal env).1.clkClientTbl 0).LevelRight kernelCorners ↔ clkVal ≠ 0 ∨
          (([vote false 5, vote true 3].foldl (clkStep kernelCorners) crmMgr).clkClientTbl
            0).OthersIdle data) :=
  crm_rates_tracked crmMgr_fresh crmMgr_votes

/-- A driver takes its vote back, and the level of the other vote is lost. -/
theorem crm_level_lost : ¬ ∀ (corners : VddCorners) (m₀ m : ClkMgr 3) (uid : Fin 3),
    (m₀.clkClientTbl uid).CrmFresh →
    ReflTransGen (GuardedStep (CrmCall corners uid) (clkStep corners)) m₀ m →
    (m.clkClientTbl uid).LevelRight corners := by
  intro h
  have hrun := crmMgr_votes.tail
    ⟨vote true 0, .inl ⟨_, _, _, rfl, by decide +kernel⟩, rfl⟩
  have hright := h kernelCorners crmMgr _ 0 crmMgr_fresh hrun
  revert hright
  decide +kernel

end QcomModules.Mmrm
