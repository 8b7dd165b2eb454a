import QcomModules.Ipanat.Hybrid
import QcomModules.Library.Runs

/-! Runs of `ipa_nati_add_ipv4_rule` and `ipa_nati_del_ipv4_rule` in hybrid mode, with any
number of switches between the two memories. -/

namespace QcomModules.Ipanat

open Library

section
variable {kernel : Kernel} {nati : IpaNatiObj}

/-! ## Starting in hybrid mode -/

/-- A memory in which a table has just been added. -/
def NewTable (kernel : Kernel) (driver : NatDriver) (nmi : Ipa3NatMemIn) : Prop :=
  ∃ publicIpAddr tableEntries expnTableEntries ver,
    DimsOk tableEntries expnTableEntries ∧ driver.ipv4NatCache nmi =
      newCache kernel nmi publicIpAddr tableEntries expnTableEntries (some ver)

variable {driver : NatDriver} {nmi : Ipa3NatMemIn} {publicIpAddr : UInt32}
  {numberOfEntries : UInt16} {result : SmResult}

theorem NewTable.ready (h : NewTable kernel driver nmi) :
    TableReady driver nmi emptyLinks ∧ ∀ i, (driver.natTable nmi).table.records i = default := by
  obtain ⟨_, _, _, _, hdims, hcache⟩ := h
  exact tableReady_of_newCache hdims hcache

theorem NewTable.desc (h : NewTable kernel driver nmi) :
    (driver.ipv4NatCache nmi).ipaDesc.isSome = true := by
  obtain ⟨_, _, _, _, -, hcache⟩ := h
  rw [hcache]
  rfl

theorem newTable_of_addTbl {driver' : NatDriver} {numberOfEntries tblHdl : Nat}
    (h : ipaNATIAddIpv4Tbl kernel driver nmi publicIpAddr numberOfEntries = (0, tblHdl, driver')) :
    tblHdl = makeTblHdl 1 nmi ∧ NewTable kernel driver' nmi ∧
      ∀ nmi', nmi' ≠ nmi → driver'.ipv4NatCache nmi' = driver.ipv4NatCache nmi' := by
  obtain ⟨htbl, tableEntries, expnTableEntries, ver, requests, hdims, rfl⟩ := addTbl_ok h
  refine ⟨htbl, ⟨publicIpAddr, tableEntries, expnTableEntries, ver, hdims, ?_⟩, ?_⟩
  · simp [NatDriver.setCache]
  · intro nmi' hne
    simp [NatDriver.setCache, hne]

theorem tblHdl_of_addTbl_fails {numberOfEntries : Nat}
    (h : (ipaNATIAddIpv4Tbl kernel driver nmi publicIpAddr numberOfEntries).1 ≠ 0) :
    (ipaNATIAddIpv4Tbl kernel driver nmi publicIpAddr numberOfEntries).2.1 = 0 := by
  simp only [ipaNATIAddIpv4Tbl] at h ⊢
  split_ifs at h ⊢
  · rfl
  · rfl
  · rfl
  · rfl
  · exact absurd rfl h

/-- What a successful `_smAddSramTbl` leaves. -/
structure SramAdded (kernel : Kernel) (nati : IpaNatiObj) (result : SmResult) : Prop where
  out : result.out = makeTblHdl 1 .sram
  sramTblHdl : result.nati.sramTblHdl = makeTblHdl 1 .sram
  mapPairs : result.nati.mapPairs = nati.mapPairs
  currState : result.nati.currState = nati.currState
  newTable : NewTable kernel result.nati.driver .sram

theorem currState_smAddSramTbl (kernel : Kernel) (publicIpAddr : UInt32) (nati : IpaNatiObj) :
    (smAddSramTbl kernel publicIpAddr nati).nati.currState = nati.currState := by
  simp only [smAddSramTbl]
  split_ifs <;> rfl

theorem smAddSramTbl_ok (h : (smAddSramTbl kernel publicIpAddr nati).ret = 0) :
    SramAdded kernel nati (smAddSramTbl kernel publicIpAddr nati) := by
  simp only [smAddSramTbl] at h ⊢
  split at h
  · next hsize => exact absurd h hsize
  · next hsize =>
      rw [if_neg hsize]
      split at h
      · next hcalc => exact absurd h hcalc
      · next hcalc =>
          rw [if_neg hcalc]
          split at h
          · next hvote => exact absurd h hvote
          · next hvote =>
              rw [if_neg hvote]
              obtain ⟨htbl, hnew, -⟩ := newTable_of_addTbl (Prod.ext h rfl)
              refine ⟨htbl, htbl, rfl, rfl, ?_⟩
              rw [ipaNatVoteClock_eq hnew.desc]
              exact hnew

theorem smAddDdrTbl_ok (h : (smAddDdrTbl kernel publicIpAddr numberOfEntries nati).ret = 0) :
    (smAddDdrTbl kernel publicIpAddr numberOfEntries nati).nati.ddrTblHdl = makeTblHdl 1 .ddr ∧
      NewTable kernel (smAddDdrTbl kernel publicIpAddr numberOfEntries nati).nati.driver .ddr ∧
      (smAddDdrTbl kernel publicIpAddr numberOfEntries nati).nati.driver.ipv4NatCache .sram =
        nati.driver.ipv4NatCache .sram := by
  obtain ⟨htbl, hnew, hother⟩ := newTable_of_addTbl (Prod.ext h rfl)
  exact ⟨htbl, hnew, hother .sram (by decide)⟩

theorem hybridOk_of_newTables (hstate : nati.currState = .hybrid)
    (hddr : nati.ddrTblHdl = makeTblHdl 1 .ddr) (hsram : nati.sramTblHdl = makeTblHdl 1 .sram)
    (hmaps : nati.mapPairs .sram = clearedMaps) (hnew : ∀ nmi, NewTable kernel nati.driver nmi) :
    HybridOk nati (fun _ _ => False) := by
  have hsub : nati.chooseMemSub = .sram := by rw [IpaNatiObj.chooseMemSub, if_pos hstate]
  refine ⟨.inl hstate, hddr, hsram, (hnew .sram).desc, fun nmi => ⟨_, (hnew nmi).ready.1⟩, ?_⟩
  rw [hsub, hmaps]
  exact handlesOk_empty _ (hnew .sram).ready.2

theorem smAddSramAndDdrTbl_hybrid (hok : ∀ n, kernel.request n = 0)
    (hnati : nati.currState = .hybrid) (depth : Nat)
    (hresult : smAddSramAndDdrTbl kernel (statemachDepth kernel (depth + 1)) publicIpAddr
      numberOfEntries nati = result) (hstate : result.nati.currState = .hybrid)
    (hddr : validTblHdl result.nati.ddrTblHdl = true) :
    result.out = makeTblHdl 1 .sram ∧ HybridOk result.nati (fun _ _ => False) := by
  subst hresult
  simp only [smAddSramAndDdrTbl] at hstate hddr ⊢
  generalize hclear : (nati.clearSub .sram).clearSub .ddr = cleared at hstate hddr ⊢
  have hcleared : cleared.currState = .hybrid ∧ cleared.mapPairs .sram = clearedMaps := by
    rw [← hclear]
    refine ⟨hnati, ?_⟩
    simp [IpaNatiObj.clearSub, IpaNatiObj.setMaps, IpaNatiObj.setRules]
  have hfail : ∀ {nati' : IpaNatiObj},
      (smAddDdrTbl kernel publicIpAddr numberOfEntries nati').ret ≠ 0 →
      validTblHdl
        (smAddDdrTbl kernel publicIpAddr numberOfEntries nati').nati.ddrTblHdl ≠ true := by
    intro nati' hret
    have hzero := tblHdl_of_addTbl_fails hret
    rw [smAddDdrTbl]
    simp only [hzero]
    decide
  split at hstate
  · next hsram =>
      have hadded := smAddSramTbl_ok hsram
      rw [if_pos hsram] at hddr ⊢
      split at hstate
      · cases hstate
      · next hslots =>
          rw [if_neg hslots] at hddr ⊢
          split at hstate
          · next hddrRet =>
              obtain ⟨hddrHdl, hddrNew, hsame⟩ := smAddDdrTbl_ok hddrRet
              rw [if_pos hddrRet] at hddr ⊢
              have hnew : ∀ nmi, NewTable kernel (smAddDdrTbl kernel publicIpAddr numberOfEntries
                  (smAddSramTbl kernel publicIpAddr cleared).nati).nati.driver nmi := by
                intro nmi
                cases nmi with
                | ddr => exact hddrNew
                | sram =>
                  rw [NewTable, hsame]
                  exact hadded.newTable
              have hhybrid : HybridOk (smAddDdrTbl kernel publicIpAddr numberOfEntries
                  (smAddSramTbl kernel publicIpAddr cleared).nati).nati (fun _ _ => False) :=
                hybridOk_of_newTables (hadded.currState.trans hcleared.1) hddrHdl
                  hadded.sramTblHdl ((congrFun hadded.mapPairs .sram).trans hcleared.2) hnew
              have hgoto := hhybrid.goto hok (show IpaNatiObj.voteRequired _
                Ipa3NatMemIn.sram.goto = true from rfl) depth
              rw [Ipa3NatMemIn.goto] at hgoto
              rw [hgoto]
              exact ⟨hadded.out, hhybrid.congr (hadded.currState.trans hcleared.1).symm rfl rfl rfl
                rfl rfl⟩
          · next hddrRet =>
              rw [if_neg hddrRet] at hddr
              exact absurd hddr (hfail hddrRet)
  · next hsram =>
      rw [if_neg hsram] at hddr
      split at hstate
      · cases hstate
      · next hddrRet =>
          rw [if_neg hddrRet] at hddr
          exact absurd hddr (hfail hddrRet)

theorem hybridOk_of_started {memType : MemTypeStr} (hok : ∀ n, kernel.request n = 0)
    (hnati : nati.currState = .null)
    (hresult : ipaNatiAddIpv4Tbl kernel publicIpAddr memType numberOfEntries nati = result)
    (hstate : result.nati.currState = .hybrid) (hddr : validTblHdl result.nati.ddrTblHdl = true) :
    result.out = makeTblHdl 1 .sram ∧ HybridOk result.nati (fun _ _ => False) := by
  subst hresult
  rw [ipaNatiAddIpv4Tbl, ipaNatiStatemach, statemachDepth, statemachBody_novote rfl, hnati]
    at hstate hddr ⊢
  simp only [stateMachTbl, smFirstTbl] at hstate hddr ⊢
  have hne : (if nati.holdState ∧ nati.stateToHold ≠ .null then nati.stateToHold
      else memTypeStrToIpaNatiState memType) ≠ .null := by
    split
    · next hhold => exact hhold.2
    · cases memType <;> decide
  generalize (if nati.holdState ∧ nati.stateToHold ≠ .null then nati.stateToHold
    else memTypeStrToIpaNatiState memType) = state at hstate hddr hne ⊢
  rw [statemachDepth, statemachBody_novote rfl] at hstate hddr ⊢
  cases state with
  | hybrid =>
    have hadd : smAddSramAndDdrTbl kernel (statemachDepth kernel 1) publicIpAddr numberOfEntries
        (nati.setState .hybrid) = _ := rfl
    have hstarted := smAddSramAndDdrTbl_hybrid hok rfl 0 hadd hstate hddr
    exact hstarted
  | null => exact absurd rfl hne
  | ddrOnly => cases hstate
  | sramOnly =>
    have hsram := currState_smAddSramTbl kernel publicIpAddr (nati.setState .sramOnly)
    cases hsram.symm.trans hstate
  | hybridDdr => cases hstate
  | last => cases hstate

/-! ## Runs -/

inductive HybridCall where
  | add (clntRule : IpaNatIpv4Rule)
  | del (ruleHdl : Nat)

/-- The object, and for each handle that a client holds what it knows of the rule that
the handle was returned for. -/
structure HybridRun where
  nati : IpaNatiObj
  held : Nat → Option IpaNatRule

namespace HybridRun

/-- What a client is told; no rule has handle 0. -/
def step (kernel : Kernel) (tblHdl : Nat) (s : HybridRun) : HybridCall → HybridRun
  | .add clntRule =>
    let result := ipaNatiAddIpv4Rule kernel tblHdl clntRule s.nati
    ⟨result.nati, if result.out = 0 then s.held else
      Function.update s.held result.out (some (clientRule s.nati.driver.pdns clntRule.zeroed))⟩
  | .del ruleHdl =>
    ⟨(ipaNatiDelIpv4Rule kernel tblHdl ruleHdl s.nati).nati,
      Function.update s.held ruleHdl none⟩

def StepOk (s : HybridRun) : HybridCall → Prop
  | .add clntRule => s.nati.addOk clntRule = true
  | .del ruleHdl => s.nati.delOk ruleHdl = true

instance (s : HybridRun) (call : HybridCall) : Decidable (s.StepOk call) :=
  match call with
  | .add clntRule => inferInstanceAs (Decidable (s.nati.addOk clntRule = true))
  | .del ruleHdl => inferInstanceAs (Decidable (s.nati.delOk ruleHdl = true))

/-- The states reached from a started object by calls that meet the condition. -/
def Reaches (kernel : Kernel) (tblHdl : Nat) (nati : IpaNatiObj) (s : HybridRun) : Prop :=
  Relation.ReflTransGen (GuardedStep StepOk (step kernel tblHdl)) ⟨nati, fun _ => none⟩ s

def Ok (s : HybridRun) : Prop := HybridOk s.nati (fun a rule => s.held a = some rule)

variable {s : HybridRun}

theorem Ok.add (h : s.Ok) (hok : ∀ n, kernel.request n = 0) {clntRule : IpaNatIpv4Rule}
    (hadd : s.nati.addOk clntRule = true) :
    (s.step kernel (makeTblHdl 1 .sram) (.add clntRule)).Ok := by
  rcases HybridOk.addRule h hok hadd with ⟨hout, hnati⟩ | ⟨hout, hfresh, hnati⟩
  · simp only [Ok, step, if_pos hout]
    exact hnati
  · simp only [Ok, step, if_neg hout]
    refine hnati.congr_held fun a rule => ?_
    rw [heldWith]
    by_cases ha : a = (ipaNatiAddIpv4Rule kernel (makeTblHdl 1 .sram) clntRule s.nati).out
    · have hnone := hfresh rule
      rw [← ha] at hnone
      simp only [ha, Function.update_self, Option.some.injEq, true_and]
      rw [← ha]
      simp only [hnone, or_false]
      exact eq_comm
    · simp [ha]

theorem Ok.del (h : s.Ok) (hok : ∀ n, kernel.request n = 0) {ruleHdl : Nat}
    (hdel : s.nati.delOk ruleHdl = true) :
    (s.step kernel (makeTblHdl 1 .sram) (.del ruleHdl)).Ok := by
  refine (HybridOk.delRule h hok hdel).congr_held fun a rule => ?_
  rw [heldWithout]
  by_cases ha : a = ruleHdl
  · simp [step, ha]
  · simp [step, ha]

theorem ok_of_reaches (hok : ∀ n, kernel.request n = 0) (hstart : HybridOk nati (fun _ _ => False))
    (hrun : Reaches kernel (makeTblHdl 1 .sram) nati s) : s.Ok := by
  have hinit : Ok ⟨nati, fun _ => none⟩ := hstart.congr_held fun a rule => by simp
  refine invariant_of_guarded ?_ hinit hrun
  intro s call h hcall
  cases call with
  | add clntRule => exact h.add hok hcall
  | del ruleHdl => exact h.del hok hcall

end HybridRun

/-- In every state that calls on their conditions reach, the maps of the active memory
name the live rules of its table, every handle held resolves to the rule it was returned
for, and a further such call returns a handle that is not held. -/
theorem handles_translate_of_stepOk {publicIpAddr : UInt32} {memType : MemTypeStr}
    {numberOfEntries : UInt16} {started : SmResult} (hok : ∀ n, kernel.request n = 0)
    (hnati : nati.currState = .null)
    (hstarted : ipaNatiAddIpv4Tbl kernel publicIpAddr memType numberOfEntries nati = started)
    (hstate : started.nati.currState = .hybrid)
    (hddr : validTblHdl started.nati.ddrTblHdl = true) {s : HybridRun}
    (hrun : HybridRun.Reaches kernel started.out started.nati s) :
    HandlesOk s.nati.driver.pdns (s.nati.driver.natTable s.nati.chooseMemSub)
        (s.nati.mapPairs s.nati.chooseMemSub) (fun a rule => s.held a = some rule) ∧
      ∀ clntRule, s.StepOk (.add clntRule) →
        (ipaNatiAddIpv4Rule kernel started.out clntRule s.nati).out ≠ 0 →
        s.held (ipaNatiAddIpv4Rule kernel started.out clntRule s.nati).out = none := by
  obtain ⟨hout, hhybrid⟩ := hybridOk_of_started hok hnati hstarted hstate hddr
  rw [hout] at hrun ⊢
  have h := HybridRun.ok_of_reaches hok hhybrid hrun
  refine ⟨h.handles, ?_⟩
  intro clntRule hadd hne
  rcases HybridOk.addRule h hok hadd with ⟨hzero, -⟩ | ⟨-, hfresh, -⟩
  · exact absurd hzero hne
  · exact Option.eq_none_iff_forall_ne_some.mpr hfresh

end

/-! ## A handle given out twice -/

/-- Room for three rules in SRAM. -/
def smallKernel : Kernel := ⟨fun _ => 0, 14, 216, fun _ => 0⟩

def unstartedNati : IpaNatiObj where
  prevState := .null
  currState := .null
  holdState := false
  stateToHold := .null
  ddrTblHdl := 0
  sramTblHdl := 0
  totSlotsInSram := 0
  backToSramThresh := 0
  totRulesInTable := fun _ => 0
  mapPairs := fun _ => clearedMaps
  swStats := fun _ => ⟨0, 0⟩
  driver :=
    { ipv4NatCache := fun nmi => ⟨none, 0, zeroTableCache nmi⟩
      activeNatCache := none
      pdns := fun _ => 0
      numPdns := 0
      hashToken := 69
      requests := 0 }

def startedNati : SmResult := ipaNatiAddIpv4Tbl smallKernel 1 .hybrid 8 unstartedNati

def portRule (port : UInt16) : IpaNatIpv4Rule :=
  { (default : IpaNatIpv4Rule) with
    privateIp := 2
    privatePort := port
    publicPort := port
    protocol := 17 }

/-- The fourth rule moves everything to DDR, the third deletion moves the one rule left
back to another slot of SRAM than it had. -/
def roundTrip : List HybridCall :=
  [.add (portRule 0), .add (portRule 4), .add (portRule 8), .add (portRule 12),
    .del 32774, .del 32771, .del 3]

def roundTripRun : HybridRun :=
  roundTrip.foldl (HybridRun.step smallKernel startedNati.out) ⟨startedNati.nati, fun _ => none⟩

/-- The rule left is deleted, so that no handle is held. -/
def clearedRun : HybridRun :=
  roundTripRun.step smallKernel startedNati.out (.del 32769)

theorem clearedRun_reaches :
    HybridRun.Reaches smallKernel startedNati.out startedNati.nati clearedRun :=
  .tail (guarded_foldl (by decide +kernel)) ⟨.del 32769, by decide +kernel, rfl⟩

theorem roundTrip_handles_translate :
    HandlesOk clearedRun.nati.driver.pdns (clearedRun.nati.driver.natTable
        clearedRun.nati.chooseMemSub) (clearedRun.nati.mapPairs clearedRun.nati.chooseMemSub)
        (fun a rule => clearedRun.held a = some rule) ∧
      clearedRun.held
        (ipaNatiAddIpv4Rule smallKernel startedNati.out (portRule 16) clearedRun.nati).out =
          none := by
  have h := handles_translate_of_stepOk (fun _ => rfl) rfl rfl (by decide +kernel)
    (by decide +kernel) clearedRun_reaches
  exact ⟨h.1, h.2 (portRule 16) (by decide +kernel) (by decide +kernel)⟩

/-- Handle 32769 was returned for port 4 and not deleted; the rule for port 16 gets it too. -/
theorem held_handle_returned_again :
    (roundTripRun.held 32769).map IpaNatRule.privatePort = some 4 ∧
      (ipaNatiAddIpv4Rule smallKernel startedNati.out (portRule 16) roundTripRun.nati).out =
        32769 ∧
      ((roundTripRun.step smallKernel startedNati.out (.add (portRule 16))).nati.driver.natTable
        .sram).table.records 4 = newRule roundTripRun.nati.driver.pdns (portRule 16) 4 3 := by
  decide +kernel

end QcomModules.Ipanat
