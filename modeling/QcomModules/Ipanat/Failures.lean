import QcomModules.Ipanat.HybridRuns

/-! What becomes of failures inside the state machine. The result of giving the mutex back
overwrites that of the callback, so neither a caller nor a callback that runs a trigger of
its own learns that anything went wrong. -/

namespace QcomModules.Ipanat

open Library

section
variable {kernel : Kernel} {nati : IpaNatiObj} {trigger : IpaNatiTrigger}

theorem statemachBody_ret (statemach : IpaNatiTrigger → IpaNatiObj → SmResult) :
    (statemachBody kernel statemach trigger nati).ret = 0 := by
  rw [statemachBody]
  split
  · simp only
    split
    · rfl
    · rfl
  · rfl

/-! ## A failed switch back to SRAM -/

/-- A handle finds a rule through the maps and the table that the state selects. -/
def IpaNatiObj.Resolves (nati : IpaNatiObj) (origRuleHdl : Nat) (rule : IpaNatRule) : Prop :=
  ∃ x, (nati.mapPairs nati.chooseMemSub).orig2newMap origRuleHdl =
      some (makeEntryHdl (nati.driver.natTable nati.chooseMemSub).conf x) ∧
    ((nati.driver.natTable nati.chooseMemSub).table.records x).live = true ∧
    ((nati.driver.natTable nati.chooseMemSub).table.records x).client = rule

/-- A deletion leaves NAT in DDR: its state, its focus and the handles of other rules. -/
structure StaysInDdr (ruleHdl : Nat) (nati nati' : IpaNatiObj) : Prop where
  state : nati'.currState = .hybridDdr
  focus : nati'.driver.activeNatCache = some .ddr
  resolves : ∀ a rule, a ≠ ruleHdl → nati.Resolves a rule → nati'.Resolves a rule

theorem swStats_smDelRuleFromTbl (tblHdl ruleHdl : Nat) :
    (smDelRuleFromTbl kernel tblHdl ruleHdl nati).nati.swStats = nati.swStats := by
  simp only [smDelRuleFromTbl]
  split <;> rfl

/-- The switch reports success whatever happened, so the state becomes hybrid. -/
theorem smBackToSram_cases (depth : Nat) (result : SmResult) :
    (if result.ret = 0 ∧ result.nati.currState = .hybridDdr then
        smBackToSram (statemachDepth kernel (depth + 1)) result.nati
      else result).nati.swStats = result.nati.swStats ∨
      (if result.ret = 0 ∧ result.nati.currState = .hybridDdr then
        smBackToSram (statemachDepth kernel (depth + 1)) result.nati
      else result).nati.currState = .hybrid := by
  split
  · rw [smBackToSram]
    split
    · have hret : (statemachDepth kernel (depth + 1) .tblSwitch result.nati).ret = 0 :=
        statemachBody_ret _
      simp only [hret, if_true]
      exact .inr rfl
    · exact .inl rfl
  · exact .inl rfl

theorem smDelRuleHybrid_cases (depth tblHdl origRuleHdl : Nat) :
    (smDelRuleHybrid kernel (statemachDepth kernel (depth + 1)) tblHdl
        origRuleHdl nati).nati.swStats =
        nati.swStats ∨
      (smDelRuleHybrid kernel (statemachDepth kernel (depth + 1)) tblHdl origRuleHdl
        nati).nati.currState = .hybrid := by
  simp only [smDelRuleHybrid, ipaNatMapDel]
  split
  · exact .inl rfl
  · next newRuleHdl orig2newMap _ =>
      rcases smBackToSram_cases depth (smDelRuleFromTbl kernel _ newRuleHdl _) with hsame | hstate
      · refine .inl (hsame.trans ?_)
        rw [swStats_smDelRuleFromTbl]
        rfl
      · exact .inr hstate

/-- A deletion in DDR that counts one more failed switch from DDR, as it does exactly if
the copy back to SRAM fails, never stays in DDR. -/
theorem failed_switch_leaves_ddr (tblHdl ruleHdl : Nat) (hstate : nati.currState = .hybridDdr)
    (hfailed : ((ipaNatiDelIpv4Rule kernel tblHdl ruleHdl nati).nati.swStats .ddr).fail ≠
      (nati.swStats .ddr).fail) :
    ¬StaysInDdr ruleHdl nati (ipaNatiDelIpv4Rule kernel tblHdl ruleHdl nati).nati := by
  intro hstays
  have hvote : nati.voteRequired (.delRule tblHdl ruleHdl) = false := by
    simp [IpaNatiObj.voteRequired, hstate]
  have hbody : (ipaNatiDelIpv4Rule kernel tblHdl ruleHdl nati).nati =
      (smDelRuleHybrid kernel (statemachDepth kernel 2) tblHdl ruleHdl nati).nati := by
    rw [ipaNatiDelIpv4Rule, ipaNatiStatemach, statemachDepth, statemachBody_novote hvote, hstate]
    rfl
  rcases smDelRuleHybrid_cases 1 tblHdl ruleHdl with hsame | hhybrid
  · rw [hbody, hsame] at hfailed
    exact hfailed rfl
  · rw [← hbody, hstays.state] at hhybrid
    cases hhybrid

end

/-- The request that the copy back to SRAM makes fails. -/
def failingKernel : Kernel := ⟨fun n => if n = 39 then -1 else 0, 14, 216, fun _ => 0⟩

def failingStart : SmResult := ipaNatiAddIpv4Tbl failingKernel 1 .hybrid 8 unstartedNati

/-- Two rules are left in DDR. -/
def beforeSwitch : IpaNatiObj :=
  ([.add (portRule 0), .add (portRule 4), .add (portRule 8), .add (portRule 12), .del 32774,
    .del 32771].foldl (HybridRun.step failingKernel failingStart.out)
    ⟨failingStart.nati, fun _ => none⟩).nati

def afterSwitch : IpaNatiObj :=
    (ipaNatiDelIpv4Rule failingKernel failingStart.out 3 beforeSwitch).nati

theorem beforeSwitch_leaves_ddr : ¬StaysInDdr 3 beforeSwitch afterSwitch :=
  failed_switch_leaves_ddr failingStart.out 3 (by decide +kernel) (by decide +kernel)

/-- Handle 32769 named a rule in DDR; the object is left in SRAM, where it names none. -/
theorem failed_copy_loses_rule :
    beforeSwitch.currState = .hybridDdr ∧ beforeSwitch.driver.activeNatCache = some .ddr ∧
      ((beforeSwitch.mapPairs .ddr).orig2newMap 32769).isSome = true ∧
      (afterSwitch.swStats .ddr).fail = (beforeSwitch.swStats .ddr).fail + 1 ∧
      afterSwitch.currState = .hybrid ∧ afterSwitch.driver.activeNatCache = some .sram ∧
      (afterSwitch.mapPairs afterSwitch.chooseMemSub).orig2newMap 32769 = none := by
  decide +kernel

end QcomModules.Ipanat
