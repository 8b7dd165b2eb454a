import QcomModules.Mmrm.Levels

/-! The budget: what is admitted stays below the threshold, and a client that goes gives its
current back. -/

namespace QcomModules.Mmrm

open Library Relation

variable {tot : ℕ}

/-! ## Deregistration -/

/-- The client draws nothing at the level of the manager when its last reference is dropped. -/
def ClkMgr.DropsIdle (m : ClkMgr tot) (uid : Fin tot) : Prop :=
  (m.clkClientTbl uid).dropped = 0 → (m.clkClientTbl uid).load m.aggregLevel = 0

instance (m : ClkMgr tot) (uid : Fin tot) : Decidable (m.DropsIdle uid) :=
  inferInstanceAs (Decidable (_ → _))

variable {m m' : ClkMgr tot} {uid t : Fin tot} {corners : VddCorners} {data : ClientData}
  {clkVal : BitVec 64} {env : SetvalEnv}

theorem sameLoads_deregister (h : (m.clkClientTbl uid).dropped ≠ 0) :
    SameLoads m (clkClientDeregister m uid) := by
  rw [clkClientDeregister]
  dsimp only
  rw [if_neg h]
  exact sameLoads_setEntry Iff.rfl (fun _ => rfl) fun _ => rfl

theorem total_deregister (h : (m.clkClientTbl uid).dropped = 0) (level : Level) :
    (clkClientDeregister m uid).total level + (m.clkClientTbl uid).load level =
      m.total level := by
  rw [clkClientDeregister]
  dsimp only
  rw [if_pos h, ClkMgr.total_setEntry_add, ClkClient.load_of_not_active, Nat.add_zero]
  exact fun hactive => hactive.2 rfl

theorem total_deregister_le (m : ClkMgr tot) (uid : Fin tot) (level : Level) :
    (clkClientDeregister m uid).total level ≤ m.total level := by
  by_cases h : (m.clkClientTbl uid).dropped = 0
  · exact Nat.le_of_add_right_le (total_deregister h level).le
  · rw [(sameLoads_deregister h).total]

/-- The aggregate is the total of the clients that run, at the level of the manager. -/
def ClkMgr.Balanced (m : ClkMgr tot) : Prop :=
  m.aggregVal.toNat = m.total m.aggregLevel

theorem ClkMgr.Balanced.deregister_iff (h : m.Balanced) (uid : Fin tot) :
    (clkClientDeregister m uid).Balanced ↔ m.DropsIdle uid := by
  rw [Balanced, show (clkClientDeregister m uid).aggregVal = m.aggregVal from rfl,
    show (clkClientDeregister m uid).aggregLevel = m.aggregLevel from rfl, h]
  by_cases hlast : (m.clkClientTbl uid).dropped = 0
  · have htotal := total_deregister hlast m.aggregLevel
    rw [DropsIdle]
    constructor
    · intro heq _
      omega
    · intro hidle
      have := hidle hlast
      omega
  · rw [(sameLoads_deregister hlast).total]
    exact iff_of_true rfl fun h => absurd h hlast

/-! ## Runs with deregistrations -/

/-- Calls without throttling, with numbers that fit and where a client that goes draws nothing. -/
def BudgetOk (corners : VddCorners) (m : ClkMgr tot) : ClkOp tot → Prop
  | .register _ _ => True
  | .deregister uid => m.DropsIdle uid
  | .setval uid data clkVal env =>
    env.enableThrottle = false ∧ m.Asks corners uid data clkVal fun reqLevel =>
      m.Fits uid reqLevel ((m.clkClientTbl uid).effective data clkVal) data.numHwBlocks

instance (corners : VddCorners) (m : ClkMgr tot) : (op : ClkOp tot) →
    Decidable (BudgetOk corners m op)
  | .register _ _ => inferInstanceAs (Decidable True)
  | .deregister _ => inferInstanceAs (Decidable (ClkMgr.DropsIdle _ _))
  | .setval _ _ _ _ => inferInstanceAs (Decidable (_ ∧ _))

theorem ClkMgr.Balanced.sameLoads (h : m.Balanced) (hsame : SameLoads m m') : m'.Balanced := by
  rw [Balanced, hsame.aggregVal, hsame.aggregLevel, hsame.total]
  exact h

theorem balanced_setval (hwf : WellFormed m) (h : m.Balanced)
    (hok : BudgetOk corners m (.setval uid data clkVal env)) :
    WellFormed (clkClientSetval corners m uid data clkVal env).1 ∧
      (clkClientSetval corners m uid data clkVal env).1.Balanced := by
  have houtcome := clkClientSetval_outcome corners m uid data clkVal env
  generalize clkClientSetval corners m uid data clkVal env = r at houtcome ⊢
  cases houtcome with
  | rejected rc hrc => exact ⟨hwf, h⟩
  | repeated hrepeats reserve rc =>
    refine ⟨?_, h.sameLoads (sameLoads_setReserve m uid reserve)⟩
    exact hwf.setEntry rfl (hwf.free uid) (hwf.first uid)
  | recorded clk hclk _ hrepeats reqLevel hlevel m' hpeak rc hrc =>
    have hsome : (m.clkClientTbl uid).clk.isSome := hclk ▸ rfl
    have hfits := hok.2 clk hclk hrepeats reqLevel hlevel
    have hsettled := checkPeakCurrent_settled hpeak hok.1 hsome (Nat.le_of_eq h.symm) hfits
    refine ⟨hwf.record hsettled.tbl hsome data clkVal reqLevel, ?_⟩
    rw [ClkMgr.Balanced, show (m'.setEntry uid _).aggregLevel = m'.aggregLevel from rfl,
      show (m'.setEntry uid _).aggregVal = m'.aggregVal from rfl, hsettled.total_record hsome,
      hsettled.aggregVal, hsettled.aggregLevel, ClkMgr.intended_eq h]

theorem balanced_step (m : ClkMgr tot) (op : ClkOp tot) (h : WellFormed m ∧ m.Balanced)
    (hok : BudgetOk corners m op) :
    WellFormed (clkStep corners m op) ∧ (clkStep corners m op).Balanced := by
  cases op with
  | register desc env =>
    obtain ⟨hwf, hsame⟩ := clkClientRegister_spec h.1 desc env
    exact ⟨hwf, h.2.sameLoads hsame⟩
  | deregister uid =>
    exact ⟨clkClientDeregister_wellFormed h.1 uid, (h.2.deregister_iff uid).mpr hok⟩
  | setval uid data clkVal env => exact balanced_setval h.1 h.2 hok

/-- In every run whose clients draw nothing when their last reference is dropped, the aggregate is
the total of the clients that run; and a deregistration keeps it so exactly under this condition. -/
theorem budget_returned {corners : VddCorners} {m₀ m : ClkMgr tot} (hinit : m₀.Initial)
    (hrun : ReflTransGen (GuardedStep (BudgetOk corners) (clkStep corners)) m₀ m) :
    m.Balanced ∧ ∀ uid, (clkClientDeregister m uid).Balanced ↔ m.DropsIdle uid := by
  have h := (invariant_of_guarded balanced_step
    ⟨hinit.wellFormed, hinit.tracks.aggregVal⟩ hrun).2
  exact ⟨h, h.deregister_iff⟩

def stopsThenGoes : List (ClkOp 3) :=
  [registerClient 0, registerClient 1, setRate 0 3, setRate 1 2, setRate 0 0, .deregister 0]

theorem budget_returned_stopsThenGoes :
    (stopsThenGoes.foldl (clkStep kernelCorners) freshMgr).Balanced ∧ ∀ uid,
      (clkClientDeregister (stopsThenGoes.foldl (clkStep kernelCorners) freshMgr) uid).Balanced ↔
        (stopsThenGoes.foldl (clkStep kernelCorners) freshMgr).DropsIdle uid :=
  budget_returned freshMgr_initial (guarded_foldl (by decide +kernel))

/-- The conditions of a call but for what a client that goes draws. -/
def CallOk (corners : VddCorners) (m : ClkMgr tot) : ClkOp tot → Prop
  | .register _ _ | .deregister _ => True
  | .setval uid data clkVal env =>
    env.enableThrottle = false ∧ env.clkSet = true ∧
      m.Asks corners uid data clkVal fun reqLevel =>
        m.Fits uid reqLevel ((m.clkClientTbl uid).effective data clkVal) data.numHwBlocks

instance (corners : VddCorners) (m : ClkMgr tot) : (op : ClkOp tot) →
    Decidable (CallOk corners m op)
  | .register _ _ | .deregister _ => inferInstanceAs (Decidable True)
  | .setval _ _ _ _ => inferInstanceAs (Decidable (_ ∧ _ ∧ _))

theorem budget_not_returned : ¬ ∀ (corners : VddCorners) (m₀ m : ClkMgr 3) (uid : Fin 3),
    m₀.Initial → ReflTransGen (GuardedStep (CallOk corners) (clkStep corners)) m₀ m →
    (m.clkClientTbl uid).dropped = 0 → (clkClientDeregister m uid).Balanced := by
  intro h
  have hbalanced := h kernelCorners freshMgr
    (([registerClient 0, setRate 0 3] : List (ClkOp 3)).foldl (clkStep kernelCorners) freshMgr) 0
    freshMgr_initial (guarded_foldl (by decide +kernel)) (by decide +kernel)
  revert hbalanced
  rw [ClkMgr.Balanced]
  decide +kernel

/-! ## Admission -/

/-- The current the client will draw at a level once it is throttled. -/
def ClkClient.lowLoad (e : ClkClient) (level : Level) : ℕ :=
  (e.currentMa lowSvs level).toNat * e.numHwBlocks.toNat

theorem ClkClient.load_throttle_le (e : ClkClient) (level : Level) :
    e.throttle.load level ≤ e.lowLoad level := by
  rw [load]
  split
  · exact le_rfl
  · exact Nat.zero_le _

/-- The client that is throttled is another one, it runs, it saves at the level the request moves to
at least what is booked, and that brings the total below the threshold. -/
structure ClkMgr.Relieves (m : ClkMgr tot) (uid t : Fin tot) (adjLevel : Level) (total : ℕ) :
    Prop where
  other : m.Other uid t
  saves : (m.saving t).toNat + (m.clkClientTbl t).lowLoad adjLevel ≤
    (m.clkClientTbl t).load adjLevel
  below : total < m.threshold.toNat + (m.saving t).toNat

instance (m : ClkMgr tot) (uid t : Fin tot) (adjLevel : Level) (total : ℕ) :
    Decidable (m.Relieves uid t adjLevel total) :=
  decidable_of_iff
    (m.Other uid t ∧ (m.saving t).toNat + (m.clkClientTbl t).lowLoad adjLevel ≤
      (m.clkClientTbl t).load adjLevel ∧ total < m.threshold.toNat + (m.saving t).toNat)
    ⟨fun h => ⟨h.1, h.2.1, h.2.2⟩, fun h => ⟨h.other, h.saves, h.below⟩⟩

/-- A request that overshoots and may throttle finds a client whose throttling fails or makes up
for it. -/
def ClkMgr.ThrottleOk (m : ClkMgr tot) (uid : Fin tot) (reqLevel : Level) (rate : BitVec 64)
    (numHwBlocks : BitVec 32) (env : SetvalEnv) : Prop :=
  let e := m.clkClientTbl uid
  let adjLevel := checkReqLevel m e.clkSrcId reqLevel
  let total := m.intended uid reqLevel rate numHwBlocks
  let deltaCur := (m.peakDelta uid adjLevel
    (newCur e reqLevel adjLevel (rate.setWidth 32) numHwBlocks)).2
  m.threshold.toNat ≤ total → e.pri = .high → env.enableThrottle = true →
    (m.findThrottle deltaCur).isSome ∧ ∀ found ∈ m.findThrottle deltaCur,
      throttleRc (m.clkClientTbl found.1) env = 0 → m.Relieves uid found.1 adjLevel total

instance (m : ClkMgr tot) (uid : Fin tot) (reqLevel : Level) (rate : BitVec 64)
    (numHwBlocks : BitVec 32) (env : SetvalEnv) :
    Decidable (m.ThrottleOk uid reqLevel rate numHwBlocks env) :=
  inferInstanceAs (Decidable (_ → _ → _ → _ ∧ ∀ _ ∈ _, _ → _))

/-- The clock of a request is set, where the request is for something new, its numbers fit, and
throttling makes up for what it overshoots. -/
def AdmitOk (corners : VddCorners) (m : ClkMgr tot) : ClkOp tot → Prop
  | .register _ _ | .deregister _ => True
  | .setval uid data clkVal env =>
    m.Asks corners uid data clkVal fun reqLevel =>
      env.clkSet = true ∧
        m.Fits uid reqLevel ((m.clkClientTbl uid).effective data clkVal) data.numHwBlocks ∧
        m.ThrottleOk uid reqLevel ((m.clkClientTbl uid).effective data clkVal) data.numHwBlocks
          env

instance (corners : VddCorners) (m : ClkMgr tot) : (op : ClkOp tot) →
    Decidable (AdmitOk corners m op)
  | .register _ _ | .deregister _ => inferInstanceAs (Decidable True)
  | .setval _ _ _ _ => inferInstanceAs (Decidable (ClkMgr.Asks ..))

/-- The total is at most the aggregate, which is below the threshold. -/
structure Admitted (m : ClkMgr tot) : Prop where
  total_le : m.total m.aggregLevel ≤ m.aggregVal.toNat
  aggregVal_lt : m.aggregVal.toNat < m.threshold.toNat

theorem Admitted.sameLoads (h : Admitted m) (hsame : SameLoads m m') : Admitted m' := by
  refine ⟨?_, ?_⟩
  · rw [hsame.aggregVal, hsame.aggregLevel, hsame.total]
    exact h.total_le
  · rw [hsame.aggregVal, hsame.threshold]
    exact h.aggregVal_lt

theorem Admitted.deregister (h : Admitted m) (uid : Fin tot) :
    Admitted (clkClientDeregister m uid) :=
  ⟨(total_deregister_le m uid m.aggregLevel).trans h.total_le, h.aggregVal_lt⟩

theorem WellFormed.throttled (h : WellFormed m) (hclk : (m.clkClientTbl t).clk.isSome) (i : ℕ) :
    WellFormed (m.throttled t i) := by
  have hset : WellFormed (m.setEntry t (m.clkClientTbl t).throttle) :=
    h.setClient rfl rfl (h.client_of_clk hclk)
  exact hset.congr rfl

theorem others_throttled_le {adjLevel : Level} {total : ℕ} (h : m.Relieves uid t adjLevel total)
    (i : ℕ) :
    (m.throttled t i).others uid adjLevel + (m.saving t).toNat ≤ m.others uid adjLevel := by
  have hadd := m.others_setEntry_add h.other.1 (m.clkClientTbl t).throttle adjLevel
  have hlow := (m.clkClientTbl t).load_throttle_le adjLevel
  have hsaves := h.saves
  rw [show (m.throttled t i).others uid adjLevel =
    (m.setEntry t (m.clkClientTbl t).throttle).others uid adjLevel from rfl]
  omega

theorem Admitted.record {reqLevel : Level} (h : Admitted m) (hwf : WellFormed m)
    (hclk : (m.clkClientTbl uid).clk.isSome) (hpeak : checkPeakCurrent m uid reqLevel
      (((m.clkClientTbl uid).effective data clkVal).setWidth 32) data.numHwBlocks env = (m', 0))
    (hfits : m.Fits uid reqLevel ((m.clkClientTbl uid).effective data clkVal) data.numHwBlocks)
    (hthrottle : m.ThrottleOk uid reqLevel ((m.clkClientTbl uid).effective data clkVal)
      data.numHwBlocks env) :
    WellFormed (m'.setEntry uid
        ((m'.clkClientTbl uid).record (m.clkClientTbl uid) data clkVal reqLevel)) ∧
      Admitted (m'.setEntry uid
        ((m'.clkClientTbl uid).record (m.clkClientTbl uid) data clkVal reqLevel)) := by
  have houtcome := checkPeakCurrent_outcome m uid reqLevel
    (((m.clkClientTbl uid).effective data clkVal).setWidth 32) data.numHwBlocks env
  rw [hpeak] at houtcome
  have hsum := ClkMgr.toNat_peakDelta hclk hfits.rate h.total_le hfits.intended rfl
  have hle := @ClkMgr.le_intended _ m uid reqLevel h.total_le
    ((m.clkClientTbl uid).effective data clkVal) data.numHwBlocks
  rcases houtcome.settled hsum hfits.intended with
    ⟨hsettled, hbelow⟩ | ⟨hover, hpri, henable, hnone | ⟨t, i, hfind, hrc, hsettled⟩⟩
  · refine ⟨hwf.record hsettled.tbl hclk data clkVal reqLevel, ?_, ?_⟩
    · rw [show (m'.setEntry uid _).aggregLevel = m'.aggregLevel from rfl,
        show (m'.setEntry uid _).aggregVal = m'.aggregVal from rfl, hsettled.total_record hclk,
        hsettled.aggregVal, hsettled.aggregLevel]
      exact hle
    · rw [show (m'.setEntry uid _).aggregVal = m'.aggregVal from rfl,
        show (m'.setEntry uid _).threshold = m'.threshold from rfl, hsettled.aggregVal,
        hsettled.threshold]
      rcases hbelow with hzero | hlt
      · rw [hzero]
        exact Nat.zero_lt_of_lt h.aggregVal_lt
      · exact hlt
  · rw [ClkMgr.ThrottleOk] at hthrottle
    have hsome := (hthrottle hover hpri henable).1
    rw [hnone] at hsome
    cases hsome
  · have hrelieves : m.Relieves uid t (checkReqLevel m (m.clkClientTbl uid).clkSrcId reqLevel)
        (m.intended uid reqLevel ((m.clkClientTbl uid).effective data clkVal) data.numHwBlocks) :=
      (hthrottle hover hpri henable).2 (t, i) hfind hrc
    have hothers := others_throttled_le hrelieves i
    have hsettled := hsettled (by omega)
    have hsame : (m.throttled t i).clkClientTbl uid = m.clkClientTbl uid :=
      m.setEntry_of_ne hrelieves.other.1.symm _
    have hclk' : ((m.throttled t i).clkClientTbl uid).clk.isSome := hsame.symm ▸ hclk
    have hwf' := (hwf.throttled hrelieves.other.2.1 i).record hsettled.tbl hclk' data clkVal
      reqLevel
    have htotal := fun level => hsettled.total_record hclk' data clkVal reqLevel level
    rw [hsame] at hwf' htotal
    refine ⟨hwf', ?_, ?_⟩
    · rw [show (m'.setEntry uid _).aggregLevel = m'.aggregLevel from rfl,
        show (m'.setEntry uid _).aggregVal = m'.aggregVal from rfl, htotal, hsettled.aggregVal,
        hsettled.aggregLevel]
      omega
    · rw [show (m'.setEntry uid _).aggregVal = m'.aggregVal from rfl,
        show (m'.setEntry uid _).threshold = m'.threshold from rfl, hsettled.aggregVal,
        hsettled.threshold]
      have hbelow := hrelieves.below
      rw [show (m.throttled t i).threshold = m.threshold from rfl]
      omega

/-- What a client has recorded, and the peak data, are as they were. -/
structure KeepsRecords (m m' : ClkMgr tot) : Prop where
  clkRate : ∀ c, (m'.clkClientTbl c).clkRate = (m.clkClientTbl c).clkRate
  vddLevel : ∀ c, (m'.clkClientTbl c).vddLevel = (m.clkClientTbl c).vddLevel
  numHwBlocks : ∀ c, (m'.clkClientTbl c).numHwBlocks = (m.clkClientTbl c).numHwBlocks
  aggregVal : m'.aggregVal = m.aggregVal
  aggregLevel : m'.aggregLevel = m.aggregLevel

theorem keepsRecords_setReserve (m : ClkMgr tot) (uid : Fin tot) (reserve : Bool) :
    KeepsRecords m (m.setEntry uid ((m.clkClientTbl uid).setReserve reserve)) := by
  refine ⟨fun c => ?_, fun c => ?_, fun c => ?_, rfl, rfl⟩ <;>
    by_cases hc : c = uid
  · rw [hc, ClkMgr.setEntry_self]
    rfl
  · rw [m.setEntry_of_ne hc]
  · rw [hc, ClkMgr.setEntry_self]
    rfl
  · rw [m.setEntry_of_ne hc]
  · rw [hc, ClkMgr.setEntry_self]
    rfl
  · rw [m.setEntry_of_ne hc]

theorem admitted_setval (hwf : WellFormed m) (h : Admitted m)
    (hok : AdmitOk corners m (.setval uid data clkVal env)) :
    (WellFormed (clkClientSetval corners m uid data clkVal env).1 ∧
      Admitted (clkClientSetval corners m uid data clkVal env).1) ∧
    ((clkClientSetval corners m uid data clkVal env).2 ≠ 0 →
      KeepsRecords m (clkClientSetval corners m uid data clkVal env).1) := by
  have houtcome := clkClientSetval_outcome corners m uid data clkVal env
  generalize clkClientSetval corners m uid data clkVal env = r at houtcome ⊢
  cases houtcome with
  | rejected rc hrc =>
    exact ⟨⟨hwf, h⟩, fun _ => ⟨fun _ => rfl, fun _ => rfl, fun _ => rfl, rfl, rfl⟩⟩
  | repeated hrepeats reserve rc =>
    refine ⟨⟨?_, h.sameLoads (sameLoads_setReserve m uid reserve)⟩, fun _ => ?_⟩
    · exact hwf.setEntry rfl (hwf.free uid) (hwf.first uid)
    · exact keepsRecords_setReserve m uid reserve
  | recorded clk hclk _ hrepeats reqLevel hlevel m' hpeak rc hrc =>
    have hsome : (m.clkClientTbl uid).clk.isSome := hclk ▸ rfl
    obtain ⟨hset, hfits, hthrottle⟩ := hok clk hclk hrepeats reqLevel hlevel
    exact ⟨h.record hwf hsome hpeak hfits hthrottle, fun hne => absurd (hrc hset) hne⟩

theorem admitted_step (m : ClkMgr tot) (op : ClkOp tot) (h : WellFormed m ∧ Admitted m)
    (hok : AdmitOk corners m op) :
    WellFormed (clkStep corners m op) ∧ Admitted (clkStep corners m op) := by
  cases op with
  | register desc env =>
    obtain ⟨hwf, hsame⟩ := clkClientRegister_spec h.1 desc env
    exact ⟨hwf, h.2.sameLoads hsame⟩
  | deregister uid => exact ⟨clkClientDeregister_wellFormed h.1 uid, h.2.deregister uid⟩
  | setval uid data clkVal env => exact (admitted_setval h.1 h.2 hok).1

/-- In every run whose requests meet the condition, the total of the clients that run is below the
threshold, and such a request that fails leaves the records and the peak data as they were. -/
theorem overload_refused {corners : VddCorners} {m₀ m : ClkMgr tot} (hinit : m₀.Initial)
    (hthreshold : 0 < m₀.threshold)
    (hrun : ReflTransGen (GuardedStep (AdmitOk corners) (clkStep corners)) m₀ m) :
    m.total m.aggregLevel < m.threshold.toNat ∧
      ∀ uid data clkVal env, AdmitOk corners m (.setval uid data clkVal env) →
        (clkClientSetval corners m uid data clkVal env).2 ≠ 0 →
        KeepsRecords m (clkClientSetval corners m uid data clkVal env).1 := by
  have hadmitted : Admitted m₀ := by
    refine ⟨hinit.tracks.aggregVal.ge, ?_⟩
    rw [hinit.aggregVal]
    exact hthreshold
  obtain ⟨hwf, h⟩ := invariant_of_guarded admitted_step ⟨hinit.wellFormed, hadmitted⟩ hrun
  refine ⟨h.total_le.trans_lt h.aggregVal_lt, fun uid data clkVal env hok => ?_⟩
  exact (admitted_setval hwf h hok).2

/-! ## Two clients -/

def registerWith (id : BitVec 32) (pri : Priority) (cur : Level → BitVec 32) : ClkOp 3 :=
  .register
    { clientDomain := 0, clientId := id, clk := some levelClk, pri, notifier := true
      hwDrvInstances := 0, numPwrStates := 0, freq := fun _ => 1
      currentMa := fun vdd _ => cur vdd }
    ⟨false, true, true⟩

def askRate (uid : Fin 3) (clkVal : BitVec 64) : ClkOp 3 :=
  .setval uid ⟨1, false, false, 0, 0⟩ clkVal ⟨true, true, true, true, true⟩

/-- The client of low priority saves more than the other one asks for. -/
def lowSaves : List (ClkOp 3) :=
  [registerWith 0 .high fun _ => 50, registerWith 1 .low fun vdd => if vdd = lowSvs then 20 else 80,
    askRate 1 5, askRate 0 5]

def throttlingMgr : ClkMgr 3 :=
  { freshMgr with throttleClientsInfo := [1] }

theorem overload_refused_lowSaves :
    (lowSaves.foldl (clkStep kernelCorners) throttlingMgr).total
        (lowSaves.foldl (clkStep kernelCorners) throttlingMgr).aggregLevel <
      (lowSaves.foldl (clkStep kernelCorners) throttlingMgr).threshold.toNat ∧
    ∀ uid data clkVal env, AdmitOk kernelCorners
        (lowSaves.foldl (clkStep kernelCorners) throttlingMgr) (.setval uid data clkVal env) →
      (clkClientSetval kernelCorners (lowSaves.foldl (clkStep kernelCorners) throttlingMgr) uid data
        clkVal env).2 ≠ 0 →
      KeepsRecords (lowSaves.foldl (clkStep kernelCorners) throttlingMgr)
        (clkClientSetval kernelCorners (lowSaves.foldl (clkStep kernelCorners) throttlingMgr) uid
          data clkVal env).1 :=
  overload_refused
    ⟨fun _ => rfl, fun _ => rfl, fun _ => rfl, fun _ => rfl, fun _ => rfl, rfl, rfl, rfl⟩
    (by decide) (guarded_foldl (by decide +kernel))

/-- A request of high priority passes above the threshold where nobody can be throttled. -/
theorem overload_admitted : ¬ ∀ (corners : VddCorners) (m₀ m : ClkMgr 3) (uid : Fin 3)
    (data : ClientData) (clkVal : BitVec 64) (env : SetvalEnv), m₀.Initial → 0 < m₀.threshold →
    ReflTransGen (GuardedStep (fun _ _ => True) (clkStep corners)) m₀ m →
    (clkClientSetval corners m uid data clkVal env).2 = 0 →
    (clkClientSetval corners m uid data clkVal env).1.total
        (clkClientSetval corners m uid data clkVal env).1.aggregLevel <
      (clkClientSetval corners m uid data clkVal env).1.threshold.toNat := by
  intro h
  have hlt := h kernelCorners freshMgr
    (([registerWith 0 .high fun _ => 100] : List (ClkOp 3)).foldl (clkStep kernelCorners) freshMgr)
    0 ⟨1, false, false, 0, 0⟩ 5 ⟨true, true, true, true, true⟩ freshMgr_initial (by decide)
    (guarded_foldl (by decide +kernel)) (by decide +kernel)
  revert hlt
  decide +kernel

end QcomModules.Mmrm
