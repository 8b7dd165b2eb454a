import QcomModules.Mmrm.ClkMgr

/-! The current of all clients as a number, and what a request does in terms of it. -/

namespace QcomModules.Mmrm

open Finset

variable {tot : ℕ}

/-! ## Loads -/

def ClkClient.load (e : ClkClient) (level : Level) : ℕ :=
  if e.Active then (e.currentMa e.vddLevel level).toNat * e.numHwBlocks.toNat else 0

def ClkMgr.total (m : ClkMgr tot) (level : Level) : ℕ :=
  ∑ c, (m.clkClientTbl c).load level

def ClkMgr.others (m : ClkMgr tot) (uid : Fin tot) (level : Level) : ℕ :=
  ∑ c ∈ univ.erase uid, (m.clkClientTbl c).load level

variable {e : ClkClient} {uid : Fin tot} {m m' : ClkMgr tot} {adjLevel reqLevel : Level}
  {peakCur deltaCur numHwBlocks : BitVec 32} {env : SetvalEnv} {rate : BitVec 64} {n : ℕ}

theorem ClkClient.load_of_not_active (h : ¬ e.Active) (level : Level) : e.load level = 0 :=
  if_neg h

theorem ClkMgr.load_add_others (m : ClkMgr tot) (uid : Fin tot) (level : Level) :
    (m.clkClientTbl uid).load level + m.others uid level = m.total level :=
  add_sum_erase univ (fun c => (m.clkClientTbl c).load level) (mem_univ uid)

theorem ClkMgr.load_le_total (m : ClkMgr tot) (uid : Fin tot) (level : Level) :
    (m.clkClientTbl uid).load level ≤ m.total level := by
  rw [← m.load_add_others uid]
  exact Nat.le_add_right _ _

@[simp] theorem ClkMgr.setEntry_self (m : ClkMgr tot) (uid : Fin tot) (e : ClkClient) :
    (m.setEntry uid e).clkClientTbl uid = e :=
  Function.update_self ..

theorem ClkMgr.setEntry_of_ne (m : ClkMgr tot) {c : Fin tot} (h : c ≠ uid) (e : ClkClient) :
    (m.setEntry uid e).clkClientTbl c = m.clkClientTbl c :=
  Function.update_of_ne h ..

@[simp] theorem ClkMgr.others_setEntry (m : ClkMgr tot) (uid : Fin tot) (e : ClkClient)
    (level : Level) : (m.setEntry uid e).others uid level = m.others uid level := by
  apply sum_congr rfl
  intro c hc
  rw [m.setEntry_of_ne (ne_of_mem_erase hc)]

theorem ClkMgr.total_setEntry (m : ClkMgr tot) (uid : Fin tot) (e : ClkClient) (level : Level) :
    (m.setEntry uid e).total level = e.load level + m.others uid level := by
  rw [← (m.setEntry uid e).load_add_others uid, setEntry_self, others_setEntry]

theorem ClkMgr.total_setEntry_add (m : ClkMgr tot) (uid : Fin tot) (e : ClkClient)
    (level : Level) :
    (m.setEntry uid e).total level + (m.clkClientTbl uid).load level =
      m.total level + e.load level := by
  rw [total_setEntry, ← m.load_add_others uid]
  omega

theorem ClkMgr.others_setEntry_add (m : ClkMgr tot) {t : Fin tot} (h : t ≠ uid) (e : ClkClient)
    (level : Level) :
    (m.setEntry t e).others uid level + (m.clkClientTbl t).load level =
      m.others uid level + e.load level := by
  have htotal := m.total_setEntry_add t e level
  have hsame : (m.setEntry t e).clkClientTbl uid = m.clkClientTbl uid :=
    m.setEntry_of_ne h.symm e
  rw [← (m.setEntry t e).load_add_others uid, ← m.load_add_others uid, hsame] at htotal
  omega

theorem ClkMgr.others_congr (h : m'.clkClientTbl = m.clkClientTbl) (uid : Fin tot) (level : Level) :
    m'.others uid level = m.others uid level := by
  rw [others, others, h]

/-! ## The sum of the code -/

theorem toNat_foldl_add (p : Fin tot → Prop) [DecidablePred p] (f g : Fin tot → BitVec 32)
    (l : List (Fin tot)) (a : BitVec 32) :
    (l.foldl (fun sum c => if p c then sum else sum + f c * g c) a).toNat =
      (a.toNat + (l.map fun c => if p c then 0 else (f c).toNat * (g c).toNat).sum) % 2 ^ 32 := by
  induction l generalizing a with
  | nil => simp [Nat.mod_eq_of_lt a.isLt]
  | cons c cs ih =>
    rw [List.foldl_cons, List.map_cons, List.sum_cons, ih]
    by_cases h : p c
    · rw [if_pos h, if_pos h, Nat.zero_add]
    · rw [if_neg h, if_neg h, BitVec.toNat_add, BitVec.toNat_mul]
      simp only [Nat.add_mod_mod, Nat.mod_add_mod, Nat.add_assoc]

theorem toNat_calculateTotalCurrent (m : ClkMgr tot) (level : Level) (new : Fin tot) :
    (calculateTotalCurrent m level new).toNat = m.others new level % 2 ^ 32 := by
  rw [calculateTotalCurrent]
  simp only [ClkClient.cur]
  rw [toNat_foldl_add]
  rw [show (0 : BitVec 32).toNat = 0 from rfl, Nat.zero_add, ← Fin.sum_univ_def]
  congr 1
  rw [← sum_erase univ (a := new) (by simp)]
  apply sum_congr rfl
  intro c hc
  have hne := ne_of_mem_erase hc
  by_cases h : (m.clkClientTbl c).Active <;> simp [ClkClient.load, h, hne]

/-! ## What a check of the peak current does -/

/-- The ways `mmrm_sw_check_peak_current` ends, for a sum and a level it moves to. -/
inductive PeakOutcome (m : ClkMgr tot) (uid : Fin tot) (adjLevel : Level)
    (peakCur deltaCur : BitVec 32) (env : SetvalEnv) : ClkMgr tot × ℤ → Prop where
  | idle (h : (peakCur + deltaCur).toInt ≤ 0) :
      PeakOutcome m uid adjLevel peakCur deltaCur env (m.setPeak 0 adjLevel, 0)
  | below (hpos : 0 < (peakCur + deltaCur).toInt) (hlt : peakCur + deltaCur < m.threshold) :
      PeakOutcome m uid adjLevel peakCur deltaCur env
        (reinstateThrottledClient (m.setPeak (peakCur + deltaCur) adjLevel), 0)
  | refused (rc : ℤ) (hrc : rc ≠ 0) : PeakOutcome m uid adjLevel peakCur deltaCur env (m, rc)
  | unhelped (hover : m.threshold ≤ peakCur + deltaCur)
      (hpri : (m.clkClientTbl uid).pri = .high) (henable : env.enableThrottle = true)
      (hnone : m.findThrottle deltaCur = none) :
      PeakOutcome m uid adjLevel peakCur deltaCur env
        (reinstateThrottledClient (m.setPeak (peakCur + deltaCur) adjLevel), 0)
  | throttled (t : Fin tot) (i : ℕ) (hover : m.threshold ≤ peakCur + deltaCur)
      (hpri : (m.clkClientTbl uid).pri = .high) (henable : env.enableThrottle = true)
      (hfind : m.findThrottle deltaCur = some (t, i))
      (hrc : throttleRc (m.clkClientTbl t) env = 0) :
      PeakOutcome m uid adjLevel peakCur deltaCur env
        (reinstateThrottledClient
          ((m.throttled t i).setPeak (peakCur + (deltaCur - m.saving t)) adjLevel), 0)

theorem admitPeak_outcome (m : ClkMgr tot) (uid : Fin tot) (adjLevel : Level)
    (peakCur deltaCur : BitVec 32) (env : SetvalEnv) :
    PeakOutcome m uid adjLevel peakCur deltaCur env
      (admitPeak m uid adjLevel peakCur deltaCur env) := by
  rw [admitPeak]
  by_cases hidle : (peakCur + deltaCur).toInt ≤ 0
  · rw [if_pos hidle]
    exact .idle hidle
  rw [if_neg hidle]
  by_cases hover : m.threshold ≤ peakCur + deltaCur
  · rw [if_pos hover]
    by_cases hhigh : (m.clkClientTbl uid).pri = .high ∧ env.enableThrottle = true
    · rw [if_pos hhigh, throttleLowPriorityClient]
      cases hfind : m.findThrottle deltaCur with
      | none => exact .unhelped hover hhigh.1 hhigh.2 hfind
      | some p =>
        by_cases hrc : throttleRc (m.clkClientTbl p.1) env = 0
        · simp only [hrc, ne_eq, not_true_eq_false, if_false]
          exact .throttled p.1 p.2 hover hhigh.1 hhigh.2 hfind hrc
        · simp only [ne_eq, hrc, not_false_eq_true, if_true]
          exact .refused _ hrc
    · rw [if_neg hhigh]
      exact .refused einval (by decide)
  · rw [if_neg hover]
    exact .below (Int.not_le.mp hidle) (BitVec.not_le.mp hover)

theorem checkPeakCurrent_outcome (m : ClkMgr tot) (uid : Fin tot) (reqLevel : Level)
    (clkVal numHwBlocks : BitVec 32) (env : SetvalEnv) :
    let adjLevel := checkReqLevel m (m.clkClientTbl uid).clkSrcId reqLevel
    let sums := m.peakDelta uid adjLevel
      (newCur (m.clkClientTbl uid) reqLevel adjLevel clkVal numHwBlocks)
    PeakOutcome m uid adjLevel sums.1 sums.2 env
      (checkPeakCurrent m uid reqLevel clkVal numHwBlocks env) :=
  admitPeak_outcome ..

theorem PeakOutcome.eq_of_refused {r : ClkMgr tot × ℤ}
    (h : PeakOutcome m uid adjLevel peakCur deltaCur env r) (hrc : r.2 ≠ 0) : r = (m, r.2) := by
  cases h with
  | refused rc _ => rfl
  | idle | below | unhelped | throttled => exact absurd rfl hrc

theorem checkPeakCurrent_of_refused {clkVal : BitVec 32}
    (hrc : (checkPeakCurrent m uid reqLevel clkVal numHwBlocks env).2 ≠ 0) :
    checkPeakCurrent m uid reqLevel clkVal numHwBlocks env =
      (m, (checkPeakCurrent m uid reqLevel clkVal numHwBlocks env).2) :=
  (checkPeakCurrent_outcome m uid reqLevel clkVal numHwBlocks env).eq_of_refused hrc

/-! ## What a request does -/

/-- The ways `mmrm_sw_clk_client_setval` ends. -/
inductive SetvalOutcome (corners : VddCorners) (m : ClkMgr tot) (uid : Fin tot)
    (data : ClientData) (clkVal : BitVec 64) (env : SetvalEnv) : ClkMgr tot × ℤ → Prop where
  | rejected (rc : ℤ) (hrc : rc ≠ 0) : SetvalOutcome corners m uid data clkVal env (m, rc)
  | repeated (hrepeats : (m.clkClientTbl uid).Repeats data clkVal) (reserve : Bool) (rc : ℤ) :
      SetvalOutcome corners m uid data clkVal env
        (m.setEntry uid ((m.clkClientTbl uid).setReserve reserve), rc)
  | recorded (clk : Clk) (hclk : (m.clkClientTbl uid).clk = some clk)
      (hcrm : ¬ (m.clkClientTbl uid).InvalidCrm data)
      (hrepeats : ¬ (m.clkClientTbl uid).Repeats data clkVal) (reqLevel : Level)
      (hlevel : (m.clkClientTbl uid).requestLevel corners clk data clkVal = some reqLevel)
      (m' : ClkMgr tot)
      (hpeak : checkPeakCurrent m uid reqLevel
        (((m.clkClientTbl uid).effective data clkVal).setWidth 32) data.numHwBlocks env = (m', 0))
      (rc : ℤ) (hrc : env.clkSet = true → rc = 0) :
      SetvalOutcome corners m uid data clkVal env
        (m'.setEntry uid
          ((m'.clkClientTbl uid).record (m.clkClientTbl uid) data clkVal reqLevel), rc)

theorem ClkMgr.setReserve_self (m : ClkMgr tot) (uid : Fin tot) :
    m.setEntry uid ((m.clkClientTbl uid).setReserve (m.clkClientTbl uid).reserve) = m := by
  rw [setEntry, ClkClient.setReserve, Function.update_eq_self]

theorem clkClientSetval_outcome (corners : VddCorners) (m : ClkMgr tot) (uid : Fin tot)
    (data : ClientData) (clkVal : BitVec 64) (env : SetvalEnv) :
    SetvalOutcome corners m uid data clkVal env
      (clkClientSetval corners m uid data clkVal env) := by
  rw [clkClientSetval]
  dsimp only
  cases hclk : (m.clkClientTbl uid).clk with
  | none => exact .rejected _ (by decide)
  | some clk =>
    dsimp only
    by_cases hcrm : (m.clkClientTbl uid).InvalidCrm data
    · rw [if_pos hcrm]
      exact .rejected _ (by decide)
    rw [if_neg hcrm]
    by_cases hrepeats : (m.clkClientTbl uid).Repeats data clkVal
    · rw [if_pos hrepeats]
      split
      · have houtcome := @SetvalOutcome.repeated _ corners _ _ _ _ env hrepeats
          (m.clkClientTbl uid).reserve 0
        rwa [m.setReserve_self] at houtcome
      · exact .repeated hrepeats _ _
    rw [if_neg hrepeats]
    cases hlevel : (m.clkClientTbl uid).requestLevel corners clk data clkVal with
    | none => exact .rejected _ (by decide)
    | some reqLevel =>
      dsimp only
      split
      · rename_i hrc
        rw [checkPeakCurrent_of_refused hrc]
        exact .rejected _ hrc
      · rename_i hrc
        refine .recorded clk hclk hcrm hrepeats reqLevel hlevel _
          (Prod.ext rfl (not_not.mp hrc)) _ ?_
        intro hset
        rw [SetvalEnv.setRateRc, hset]
        split <;> rfl

/-! ## The total a request leads to -/

def ClkClient.newLoad (e : ClkClient) (reqLevel level : Level) (rate : BitVec 64)
    (numHwBlocks : BitVec 32) : ℕ :=
  if rate ≠ 0 then (e.currentMa reqLevel level).toNat * numHwBlocks.toNat else 0

/-- The total that the peak current is compared with: the others and the new current where the
level moves, the aggregate and the difference where it does not. -/
def ClkMgr.intended (m : ClkMgr tot) (uid : Fin tot) (reqLevel : Level) (rate : BitVec 64)
    (numHwBlocks : BitVec 32) : ℕ :=
  let e := m.clkClientTbl uid
  let adjLevel := checkReqLevel m e.clkSrcId reqLevel
  if adjLevel ≠ m.aggregLevel then
    m.others uid adjLevel + e.newLoad reqLevel adjLevel rate numHwBlocks
  else
    m.aggregVal.toNat + e.newLoad reqLevel adjLevel rate numHwBlocks - e.load m.aggregLevel

theorem toNat_newCur (e : ClkClient) (reqLevel level : Level)
    (hrate : rate.setWidth 32 = (0 : BitVec 32) → rate = 0) (numHwBlocks : BitVec 32) :
    (newCur e reqLevel level (rate.setWidth 32) numHwBlocks).toNat =
      e.newLoad reqLevel level rate numHwBlocks % 2 ^ 32 := by
  rw [newCur, ClkClient.newLoad]
  by_cases h : rate = 0
  · subst h
    rfl
  · rw [if_pos h, if_pos (fun hzero => h (hrate hzero)), BitVec.toNat_mul]

theorem ClkMgr.toNat_oldCur (m : ClkMgr tot) (hclk : e.clk.isSome) :
    (m.oldCur e).toNat = e.load m.aggregLevel % 2 ^ 32 := by
  rw [oldCur, ClkClient.load]
  by_cases h : e.clkRate = 0
  · rw [if_neg (not_not.mpr h), if_neg (fun hactive => hactive.2 h)]
    rfl
  · rw [if_pos h, if_pos ⟨hclk, h⟩, ClkClient.cur, BitVec.toNat_mul]

theorem ClkMgr.toNat_peakDelta (hclk : (m.clkClientTbl uid).clk.isSome)
    (hrate : rate.setWidth 32 = (0 : BitVec 32) → rate = 0)
    (hle : m.total m.aggregLevel ≤ m.aggregVal.toNat)
    (hfits : m.intended uid reqLevel rate numHwBlocks < 2 ^ 31)
    (hadj : adjLevel = checkReqLevel m (m.clkClientTbl uid).clkSrcId reqLevel) :
    let sums := m.peakDelta uid adjLevel
      (newCur (m.clkClientTbl uid) reqLevel adjLevel (rate.setWidth 32) numHwBlocks)
    (sums.1 + sums.2).toNat = m.intended uid reqLevel rate numHwBlocks := by
  rw [intended] at hfits ⊢
  rw [← hadj] at hfits ⊢
  dsimp only at hfits ⊢
  rw [peakDelta]
  by_cases hmoves : adjLevel = m.aggregLevel
  · rw [if_neg (not_not.mpr hmoves)] at hfits ⊢
    rw [if_neg (not_not.mpr hmoves)]
    have hload := m.load_le_total uid m.aggregLevel
    have hval := m.aggregVal.isLt
    have hnew := toNat_newCur (m.clkClientTbl uid) reqLevel adjLevel hrate numHwBlocks
    have hold := m.toNat_oldCur hclk
    dsimp only
    rw [BitVec.toNat_add, BitVec.toNat_sub, hnew, hold]
    omega
  · rw [if_pos hmoves] at hfits ⊢
    rw [if_pos hmoves]
    have hnew := toNat_newCur (m.clkClientTbl uid) reqLevel adjLevel hrate numHwBlocks
    dsimp only
    rw [BitVec.toNat_add, BitVec.toNat_add, hnew, toNat_calculateTotalCurrent]
    rw [show (0 : BitVec 32).toNat = 0 from rfl]
    omega

/-- The peak data are set, and the table is as it was. -/
structure Settled (m m' : ClkMgr tot) (level : Level) (val : ℕ) : Prop where
  tbl : m'.clkClientTbl = m.clkClientTbl
  aggregLevel : m'.aggregLevel = level
  aggregVal : m'.aggregVal.toNat = val
  threshold : m'.threshold = m.threshold

theorem settled_setPeak (m : ClkMgr tot) (val : BitVec 32) (level : Level) :
    Settled m (m.setPeak val level) level val.toNat :=
  ⟨rfl, rfl, rfl, rfl⟩

theorem settled_reinstate (m : ClkMgr tot) (val : BitVec 32) (level : Level) :
    Settled m (reinstateThrottledClient (m.setPeak val level)) level val.toNat :=
  ⟨rfl, rfl, rfl, rfl⟩

theorem PeakOutcome.settled (h : PeakOutcome m uid adjLevel peakCur deltaCur env (m', 0))
    (hn : (peakCur + deltaCur).toNat = n) (hfits : n < 2 ^ 31) :
    (Settled m m' adjLevel n ∧ (n = 0 ∨ n < m.threshold.toNat)) ∨
      (m.threshold.toNat ≤ n ∧ (m.clkClientTbl uid).pri = .high ∧ env.enableThrottle = true ∧
        (m.findThrottle deltaCur = none ∨ ∃ t i, m.findThrottle deltaCur = some (t, i) ∧
          throttleRc (m.clkClientTbl t) env = 0 ∧ ((m.saving t).toNat ≤ n →
            Settled (m.throttled t i) m' adjLevel (n - (m.saving t).toNat)))) := by
  have hint : (peakCur + deltaCur).toInt = n := by
    rw [BitVec.toInt_eq_toNat_of_lt (by omega), hn]
  cases h with
  | idle hidle =>
    have hzero : n = 0 := by omega
    subst hzero
    exact .inl ⟨settled_setPeak m 0 adjLevel, .inl rfl⟩
  | below _ hlt =>
    rw [BitVec.lt_def, hn] at hlt
    exact .inl ⟨hn ▸ settled_reinstate m _ adjLevel, .inr hlt⟩
  | refused _ hrc => exact absurd rfl hrc
  | unhelped hover hpri henable hnone =>
    rw [BitVec.le_def, hn] at hover
    exact .inr ⟨hover, hpri, henable, .inl hnone⟩
  | throttled t i hover hpri henable hfind hrc =>
    rw [BitVec.le_def, hn] at hover
    refine .inr ⟨hover, hpri, henable, .inr ⟨t, i, hfind, hrc, fun hle => ?_⟩⟩
    have hval : (peakCur + (deltaCur - m.saving t)).toNat = n - (m.saving t).toNat := by
      rw [BitVec.toNat_add] at hn
      rw [BitVec.toNat_add, BitVec.toNat_sub]
      have := (m.saving t).isLt
      omega
    exact hval ▸ settled_reinstate _ _ adjLevel

/-! ## The total after a request -/

theorem ClkClient.load_record {e' : ClkClient} (hclk : e'.clk.isSome)
    (hcur : e'.currentMa = e.currentMa) (data : ClientData) (clkVal : BitVec 64)
    (reqLevel level : Level) :
    (e'.record e data clkVal reqLevel).load level =
      e.newLoad reqLevel level (e.effective data clkVal) data.numHwBlocks := by
  rw [load, newLoad, record, hcur]
  by_cases h : e.effective data clkVal = 0
  · rw [if_neg (not_not.mpr h), if_neg (fun hactive => hactive.2 h)]
  · rw [if_pos h, if_pos ⟨hclk, h⟩]

/-- The total a request leads to is at least what the clients will draw, -/
theorem ClkMgr.le_intended {m : ClkMgr tot} {uid : Fin tot} {reqLevel : Level}
    (hle : m.total m.aggregLevel ≤ m.aggregVal.toNat) (rate : BitVec 64)
    (numHwBlocks : BitVec 32) :
    (m.clkClientTbl uid).newLoad reqLevel
        (checkReqLevel m (m.clkClientTbl uid).clkSrcId reqLevel) rate numHwBlocks +
      m.others uid (checkReqLevel m (m.clkClientTbl uid).clkSrcId reqLevel) ≤
      m.intended uid reqLevel rate numHwBlocks := by
  rw [intended]
  split
  · rw [Nat.add_comm]
  · rename_i hsame
    rw [not_not.mp hsame]
    rw [← m.load_add_others uid] at hle
    omega

/-- and it is just that where the aggregate is right. -/
theorem ClkMgr.intended_eq (hval : m.aggregVal.toNat = m.total m.aggregLevel) (rate : BitVec 64)
    (numHwBlocks : BitVec 32) :
    m.intended uid reqLevel rate numHwBlocks =
      (m.clkClientTbl uid).newLoad reqLevel
          (checkReqLevel m (m.clkClientTbl uid).clkSrcId reqLevel) rate numHwBlocks +
        m.others uid (checkReqLevel m (m.clkClientTbl uid).clkSrcId reqLevel) := by
  rw [intended]
  split
  · rw [Nat.add_comm]
  · rename_i hsame
    rw [not_not.mp hsame]
    rw [← m.load_add_others uid] at hval
    omega

theorem Settled.total_record (h : Settled m m' adjLevel n) (hclk : (m.clkClientTbl uid).clk.isSome)
    (data : ClientData) (clkVal : BitVec 64) (reqLevel level : Level) :
    (m'.setEntry uid
        ((m'.clkClientTbl uid).record (m.clkClientTbl uid) data clkVal reqLevel)).total level =
      (m.clkClientTbl uid).newLoad reqLevel level ((m.clkClientTbl uid).effective data clkVal)
        data.numHwBlocks + m.others uid level := by
  rw [ClkMgr.total_setEntry, h.tbl, ClkMgr.others_congr h.tbl]
  rw [ClkClient.load_record hclk rfl]

/-- The numbers of a request fit: the total is below `2 ^ 31`, as the code reads it as signed, and
no rate is cut down to 0. -/
structure ClkMgr.Fits (m : ClkMgr tot) (uid : Fin tot) (reqLevel : Level) (rate : BitVec 64)
    (numHwBlocks : BitVec 32) : Prop where
  intended : m.intended uid reqLevel rate numHwBlocks < 2 ^ 31
  rate : rate.setWidth 32 = (0 : BitVec 32) → rate = 0

instance (m : ClkMgr tot) (uid : Fin tot) (reqLevel : Level) (rate : BitVec 64)
    (numHwBlocks : BitVec 32) : Decidable (m.Fits uid reqLevel rate numHwBlocks) :=
  decidable_of_iff
    (m.intended uid reqLevel rate numHwBlocks < 2 ^ 31 ∧
      (rate.setWidth 32 = (0 : BitVec 32) → rate = 0))
    ⟨fun h => ⟨h.1, h.2⟩, fun h => ⟨h.intended, h.rate⟩⟩

theorem checkPeakCurrent_settled
    (hpeak : checkPeakCurrent m uid reqLevel (rate.setWidth 32) numHwBlocks env = (m', 0))
    (hdisabled : env.enableThrottle = false) (hclk : (m.clkClientTbl uid).clk.isSome)
    (hle : m.total m.aggregLevel ≤ m.aggregVal.toNat)
    (hfits : m.Fits uid reqLevel rate numHwBlocks) :
    Settled m m' (checkReqLevel m (m.clkClientTbl uid).clkSrcId reqLevel)
      (m.intended uid reqLevel rate numHwBlocks) := by
  have houtcome := checkPeakCurrent_outcome m uid reqLevel (rate.setWidth 32) numHwBlocks env
  rw [hpeak] at houtcome
  have hsum := ClkMgr.toNat_peakDelta hclk hfits.rate hle hfits.intended rfl
  rcases houtcome.settled hsum hfits.intended with ⟨hsettled, -⟩ | ⟨-, -, henabled, -⟩
  · exact hsettled
  · rw [hdisabled] at henabled
    cases henabled

end QcomModules.Mmrm
