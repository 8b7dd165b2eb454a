import QcomModules.Ipanat.Migration

/-! Hybrid mode under a kernel that grants every request: focusing on a memory, switching
to the other one, adding and deleting a rule. Each keeps what clients hold, on the
condition that the rules to be moved fit and that the handles held name occupied slots. -/

namespace QcomModules.Ipanat

open Library Function IpaNatiObj

/-! ## The invariant -/

/-- Both tables are in good order, and the maps of the active memory name what clients
hold. -/
structure HybridOk (nati : IpaNatiObj) (held : Nat → IpaNatRule → Prop) : Prop where
  state : nati.currState = .hybrid ∨ nati.currState = .hybridDdr
  ddrTblHdl : nati.ddrTblHdl = makeTblHdl 1 .ddr
  sramTblHdl : nati.sramTblHdl = makeTblHdl 1 .sram
  desc : (nati.driver.ipv4NatCache .sram).ipaDesc.isSome = true
  ready : ∀ nmi, ∃ links, TableReady nati.driver nmi links
  handles : HandlesOk nati.driver.pdns (nati.driver.natTable nati.chooseMemSub)
    (nati.mapPairs nati.chooseMemSub) held

section
variable {kernel : Kernel} {nati nati' : IpaNatiObj} {held : Nat → IpaNatRule → Prop}

variable {driver : NatDriver} {nmi : Ipa3NatMemIn}
  {statemach : IpaNatiTrigger → IpaNatiObj → SmResult} {result : SmResult}
  {tblHdl hashToken b origRuleHdl : Nat} {held' : Nat → IpaNatRule → Prop}
  {clntRule : IpaNatIpv4Rule}

theorem TableReady.congr {driver' : NatDriver} {links : Links} (h : TableReady driver nmi links)
    (hcache : driver'.ipv4NatCache = driver.ipv4NatCache) (hpdns : driver'.pdns = driver.pdns) :
    TableReady driver' nmi links := by
  have htable : driver'.natTable nmi = driver.natTable nmi := by
    rw [NatDriver.natTable, hcache]
    rfl
  have henv : driver'.ruleEnv nmi = driver.ruleEnv nmi := by
    rw [NatDriver.ruleEnv, hcache, hpdns]
    rfl
  refine ⟨?_, ?_, ?_, ?_⟩
  · rw [htable]
    exact h.valid
  · rw [htable]
    exact h.memory
  · rw [hcache]
    exact h.tableCnt
  · rw [htable, henv]
    exact h.invariant

theorem HybridOk.congr (h : HybridOk nati held) (hstate : nati'.currState = nati.currState)
    (hddr : nati'.ddrTblHdl = nati.ddrTblHdl) (hsram : nati'.sramTblHdl = nati.sramTblHdl)
    (hmaps : nati'.mapPairs = nati.mapPairs)
    (hcache : nati'.driver.ipv4NatCache = nati.driver.ipv4NatCache)
    (hpdns : nati'.driver.pdns = nati.driver.pdns) : HybridOk nati' held := by
  have hsub : nati'.chooseMemSub = nati.chooseMemSub := by
    rw [chooseMemSub, hstate]
    rfl
  refine ⟨by rw [hstate]; exact h.state, hddr.trans h.ddrTblHdl, hsram.trans h.sramTblHdl,
    by rw [hcache]; exact h.desc, ?_, ?_⟩
  · intro nmi
    obtain ⟨links, hready⟩ := h.ready nmi
    exact ⟨links, hready.congr hcache hpdns⟩
  · rw [hsub, hmaps, hpdns, NatDriver.natTable, hcache]
    exact h.handles

@[simp]
theorem IpaNatiObj.mapPairs_setMaps (sub : Ipa3NatMemIn) (maps : NatiMapPair) :
    (nati.setMaps sub maps).mapPairs sub = maps := by
  simp [setMaps]

@[simp]
theorem IpaNatiObj.hybridTblHdl_setMaps (sub : Ipa3NatMemIn) (maps : NatiMapPair) (tblHdl : Nat) :
    (nati.setMaps sub maps).hybridTblHdl tblHdl = nati.hybridTblHdl tblHdl := rfl

/-! ## Votes -/

def NatDriver.tick (driver : NatDriver) : NatDriver :=
  { driver with requests := driver.requests + 1 }

def IpaNatiObj.ticked (nati : IpaNatiObj) : IpaNatiObj :=
  { nati with driver := nati.driver.tick }

theorem ipaNatVoteClock_eq (hdesc : (driver.ipv4NatCache .sram).ipaDesc.isSome = true) :
    ipaNatVoteClock kernel driver = (kernel.request driver.requests, driver.tick) := by
  simp only [ipaNatVoteClock, NatDriver.openDesc, hdesc, if_true, ne_eq, not_true, if_false]
  rfl

theorem statemachBody_novote {trigger : IpaNatiTrigger}
    (hvote : nati.voteRequired trigger = false) :
    statemachBody kernel statemach trigger nati =
      ⟨0, (stateMachTbl kernel statemach nati.currState trigger nati).out,
        (stateMachTbl kernel statemach nati.currState trigger nati).nati⟩ := by
  simp only [statemachBody, hvote, Bool.false_eq_true, if_false]
  rfl

theorem statemachBody_vote {trigger : IpaNatiTrigger} (hok : ∀ n, kernel.request n = 0)
    (hvote : nati.voteRequired trigger = true)
    (hdesc : (nati.driver.ipv4NatCache .sram).ipaDesc.isSome = true)
    (hresult : stateMachTbl kernel statemach nati.currState trigger
      nati.ticked = result)
    (hdesc' : (result.nati.driver.ipv4NatCache .sram).ipaDesc.isSome = true) :
    statemachBody kernel statemach trigger nati =
      ⟨0, result.out, result.nati.ticked⟩ := by
  rw [IpaNatiObj.ticked] at hresult
  simp only [statemachBody, hvote, if_true, ipaNatVoteClock_eq hdesc, hok, ne_eq, not_true,
    if_false, hresult, ipaNatVoteClock_eq hdesc']
  rfl

/-! ## Switching to the other memory -/

def Ipa3NatMemIn.hybridState : Ipa3NatMemIn → IpaNatiState
  | .ddr => .hybridDdr
  | .sram => .hybrid

def Ipa3NatMemIn.goto : Ipa3NatMemIn → IpaNatiTrigger
  | .ddr => .gotoDdr
  | .sram => .gotoSram

theorem HybridOk.currState (h : HybridOk nati held) :
    nati.currState = nati.chooseMemSub.hybridState := by
  rcases h.state with hstate | hstate
  · simp [chooseMemSub, hstate, Ipa3NatMemIn.hybridState]
  · simp [chooseMemSub, hstate, Ipa3NatMemIn.hybridState]

theorem HybridOk.hybridTblHdl (h : HybridOk nati held) :
    nati.hybridTblHdl (makeTblHdl 1 .sram) = makeTblHdl 1 nati.chooseMemSub := by
  rcases h.state with hstate | hstate
  · simp [IpaNatiObj.hybridTblHdl, chooseMemSub, hstate]
  · simp [IpaNatiObj.hybridTblHdl, chooseMemSub, hstate, h.ddrTblHdl]

/-- The object focused on a memory, `n` requests later. -/
def IpaNatiObj.focused (nati : IpaNatiObj) (nmi : Ipa3NatMemIn) (n : Nat) : IpaNatiObj :=
  { nati with
    prevState := nati.currState
    currState := nmi.hybridState
    driver := { nati.driver with
      requests := nati.driver.requests + n
      activeNatCache := some nmi } }

theorem smGoTo_eq (nati : IpaNatiObj) (hok : ∀ n, kernel.request n = 0)
    (htbl : tblHdl = makeTblHdl 1 nmi) (hcnt : (nati.driver.ipv4NatCache nmi).tableCnt = 1)
    (state : IpaNatiState) :
    smGoTo kernel tblHdl state nati =
      ⟨0, 0, { nati with
        prevState := nati.currState
        currState := state
        driver := { nati.driver with
          requests := nati.driver.requests + 1
          activeNatCache := some nmi } }⟩ := by
  simp only [htbl, smGoTo, ipaNATIPostIpv4InitCmd, tblHdlNmi_makeTblHdl, hcnt, one_ne_zero,
    if_false,
    NatDriver.request, hok, ne_eq, not_true, if_true, setState]

theorem HybridOk.goto (h : HybridOk nati held) (hok : ∀ n, kernel.request n = 0)
    (hvote : nati.voteRequired nmi.goto = true) (depth : Nat) :
    statemachDepth kernel (depth + 1) nmi.goto nati = ⟨0, 0, nati.focused nmi 3⟩ := by
  obtain ⟨links, hready⟩ := h.ready nmi
  have hcb : stateMachTbl kernel (statemachDepth kernel depth) nati.currState nmi.goto
      nati.ticked = ⟨0, 0, nati.focused nmi 2⟩ := by
    have hcnt : (nati.driver.tick.ipv4NatCache nmi).tableCnt = 1 := hready.tableCnt
    cases nmi with
    | ddr =>
      have htbl : stateMachTbl kernel (statemachDepth kernel depth) nati.currState .gotoDdr =
          smGoToDdr kernel := by
        rcases h.state with hstate | hstate <;> rw [hstate] <;> rfl
      rw [Ipa3NatMemIn.goto, htbl]
      exact smGoTo_eq nati.ticked hok h.ddrTblHdl hcnt .hybridDdr
    | sram =>
      have htbl : stateMachTbl kernel (statemachDepth kernel depth) nati.currState .gotoSram =
          smGoToSram kernel := by
        rcases h.state with hstate | hstate <;> rw [hstate] <;> rfl
      rw [Ipa3NatMemIn.goto, htbl]
      exact smGoTo_eq nati.ticked hok h.sramTblHdl hcnt .hybrid
  rw [statemachDepth, statemachBody_vote hok hvote h.desc hcb h.desc]
  rfl

theorem HybridOk.ticked (h : HybridOk nati held) : HybridOk nati.ticked held :=
  h.congr rfl rfl rfl rfl rfl rfl

theorem HybridOk.stateMachTbl_switch (h : HybridOk nati held) (kernel : Kernel)
    (statemach : IpaNatiTrigger → IpaNatiObj → SmResult) :
    stateMachTbl kernel statemach nati.currState .tblSwitch nati =
      smSwitch kernel statemach nati.chooseMemSub.other.goto nati.chooseMemSub.other
        (makeTblHdl 1 nati.chooseMemSub) (makeTblHdl 1 nati.chooseMemSub.other) nati := by
  rcases h.state with hstate | hstate
  · have hsub : nati.chooseMemSub = .sram := by simp [chooseMemSub, hstate]
    rw [hsub, hstate]
    simp only [stateMachTbl, smSwitchFromSramToDdr, Ipa3NatMemIn.other, Ipa3NatMemIn.goto,
      h.ddrTblHdl, h.sramTblHdl]
  · have hsub : nati.chooseMemSub = .ddr := by simp [chooseMemSub, hstate]
    rw [hsub, hstate]
    simp only [stateMachTbl, smSwitchFromDdrToSram, Ipa3NatMemIn.other, Ipa3NatMemIn.goto,
      h.ddrTblHdl, h.sramTblHdl]

theorem HybridOk.voteRequired_goto (h : HybridOk nati held) :
    nati.voteRequired nati.chooseMemSub.other.goto = true := by
  rcases h.state with hstate | hstate <;>
  simp [voteRequired, chooseMemSub, hstate, Ipa3NatMemIn.other,
    Ipa3NatMemIn.goto]

theorem HybridOk.stored (h : HybridOk nati held) (nati' : IpaNatiObj) (nmi : Ipa3NatMemIn)
    (hstate : nati'.currState = nmi.hybridState) (hddr : nati'.ddrTblHdl = nati.ddrTblHdl)
    (hsram : nati'.sramTblHdl = nati.sramTblHdl) {natTable : IpaNatIp4TableCache}
    (hcache : nati'.driver.ipv4NatCache = (nati.driver.setNatTable nmi natTable).ipv4NatCache)
    (hpdns : nati'.driver.pdns = nati.driver.pdns)
    (hsame : natTable = { nati.driver.natTable nmi with
      table := natTable.table
      indexTable := natTable.indexTable })
    (hinv : ∃ links, NatInvariant (nati.driver.ruleEnv nmi) natTable links)
    (hheld : HandlesOk nati.driver.pdns natTable (nati'.mapPairs nmi) held') :
    HybridOk nati' held' := by
  have hsub : nati'.chooseMemSub = nmi := by
    rw [chooseMemSub, hstate]
    cases nmi <;> rfl
  have hready : ∀ nmi', ∃ links, TableReady { nati.driver.setNatTable nmi natTable with
      hashToken := nati.driver.hashToken
      requests := nati.driver.requests } nmi' links := by
    intro nmi'
    obtain ⟨links, hready⟩ := h.ready nmi'
    by_cases hne : nmi' = nmi
    · subst hne
      obtain ⟨links', hinv⟩ := hinv
      exact ⟨links', hready.setNatTable hsame hinv _ _⟩
    · exact ⟨links, hready.setNatTable_of_ne hne _ _ _⟩
  refine ⟨?_, hddr.trans h.ddrTblHdl, hsram.trans h.sramTblHdl, ?_, ?_, ?_⟩
  · rw [hstate]
    cases nmi
    · exact .inr rfl
    · exact .inl rfl
  · rw [hcache, NatDriver.ipaDesc_setNatTable]
    exact h.desc
  · intro nmi'
    obtain ⟨links, hready'⟩ := hready nmi'
    exact ⟨links, hready'.congr hcache hpdns⟩
  · rw [hsub, hpdns, NatDriver.natTable, hcache]
    have htable := nati.driver.natTable_setNatTable nmi natTable
    rw [NatDriver.natTable] at htable
    rw [htable]
    exact hheld

/-- The rules of the active memory fit into the other one. -/
def IpaNatiObj.Fits (nati : IpaNatiObj) (natTable : IpaNatIp4TableCache) (hashToken : Nat) : Prop :=
  fillTable (nati.driver.ruleEnv nati.chooseMemSub.other)
    (nati.driver.natTable nati.chooseMemSub).allLiveRules
    (nati.driver.natTable nati.chooseMemSub.other).cleared nati.driver.hashToken =
    some (natTable, hashToken)

/-- The object as the copy finds it, `n` requests after the switch began. -/
def IpaNatiObj.copyStart (nati : IpaNatiObj) (n : Nat) : IpaNatiObj :=
  (nati.focused nati.chooseMemSub.other n).clearSub nati.chooseMemSub.other

theorem HybridOk.copy (h : HybridOk nati held) (hok : ∀ n, kernel.request n = 0)
    {natTable : IpaNatIp4TableCache} (hfits : nati.Fits natTable hashToken) (n : Nat) :
    ∃ d, ipaNatiCopyIpv4Tbl kernel (makeTblHdl 1 nati.chooseMemSub)
        (makeTblHdl 1 nati.chooseMemSub.other) (nati.copyStart n) =
        (0, (nati.copyStart n).withDst nati.chooseMemSub.other d) ∧
      d.natTable = natTable ∧ d.hashToken = hashToken ∧
      natTable = { nati.driver.natTable nati.chooseMemSub.other with
        table := natTable.table
        indexTable := natTable.indexTable } ∧
      (∃ links, NatInvariant (nati.driver.ruleEnv nati.chooseMemSub.other) natTable links) ∧
      HandlesOk nati.driver.pdns natTable d.maps held := by
  obtain ⟨links, hready⟩ := h.ready nati.chooseMemSub
  obtain ⟨linksDst, hreadyDst⟩ := h.ready nati.chooseMemSub.other
  have hsrc : TableReady (nati.copyStart n).driver nati.chooseMemSub links := hready.congr rfl rfl
  have hdst : TableReady (nati.copyStart n).driver nati.chooseMemSub.other linksDst :=
    hreadyDst.congr rfl rfl
  have hmaps : (nati.copyStart n).mapPairs nati.chooseMemSub = nati.mapPairs nati.chooseMemSub :=
    update_of_ne nati.chooseMemSub.ne_other _ _
  have hheld : HandlesOk (nati.copyStart n).driver.pdns
      ((nati.copyStart n).driver.natTable nati.chooseMemSub)
      ((nati.copyStart n).mapPairs nati.chooseMemSub) held := by
    rw [hmaps]
    exact h.handles
  exact copy_handles hok hsrc hheld hdst (update_self _ _ _) hfits

theorem smSwitch_eq {goto : IpaNatiTrigger} {dst : Ipa3NatMemIn} {srcTblHdl dstTblHdl : Nat}
    {focused copied : IpaNatiObj} (hgoto : statemach goto nati = ⟨0, 0, focused⟩)
    (hcopy : ipaNatiCopyIpv4Tbl kernel srcTblHdl dstTblHdl (focused.clearSub dst) = (0, copied)) :
    smSwitch kernel statemach goto dst srcTblHdl dstTblHdl nati =
      ⟨0, 0, { copied with
        swStats := Function.update copied.swStats nati.chooseMemSub
          { copied.swStats nati.chooseMemSub with
            pass := (copied.swStats nati.chooseMemSub).pass + 1 } }⟩ := by
  simp only [smSwitch, hgoto, hcopy, if_true]

theorem HybridOk.switch (h : HybridOk nati held) (hok : ∀ n, kernel.request n = 0)
    {natTable : IpaNatIp4TableCache} (hfits : nati.Fits natTable hashToken) (depth : Nat) :
    ∃ nati', statemachDepth kernel (depth + 2) .tblSwitch nati = ⟨0, 0, nati'⟩ ∧
      HybridOk nati' held ∧ nati'.currState = nati.chooseMemSub.other.hybridState ∧
      nati'.driver.natTable nati.chooseMemSub.other = natTable ∧
      nati'.driver.hashToken = hashToken ∧ nati'.driver.pdns = nati.driver.pdns ∧
      nati'.driver.ruleEnv nati.chooseMemSub.other =
        nati.driver.ruleEnv nati.chooseMemSub.other := by
  have hgoto : statemachDepth kernel (depth + 1) nati.chooseMemSub.other.goto nati.ticked =
      ⟨0, 0, nati.ticked.focused nati.chooseMemSub.other 3⟩ :=
    h.ticked.goto hok h.ticked.voteRequired_goto depth
  obtain ⟨d, hcopy, htable, htoken, hsame, hinv, hheld⟩ := h.ticked.copy hok hfits 3
  have hswitch := (h.ticked.stateMachTbl_switch kernel (statemachDepth kernel (depth + 1))).trans
    (smSwitch_eq hgoto hcopy)
  have hvote : nati.voteRequired .tblSwitch = true := rfl
  have hdesc : (((nati.ticked.copyStart 3).withDst nati.chooseMemSub.other d).driver.ipv4NatCache
      .sram).ipaDesc.isSome = true := by
    rw [← h.desc]
    exact congrArg Option.isSome (nati.driver.ipaDesc_setNatTable _ d.natTable .sram)
  have hbody := statemachBody_vote hok hvote h.desc hswitch hdesc
  have hstored : HybridOk ((nati.ticked.copyStart 3).withDst nati.chooseMemSub.other d) held := by
    refine h.stored ((nati.ticked.copyStart 3).withDst nati.chooseMemSub.other d)
      nati.chooseMemSub.other rfl rfl rfl rfl rfl ?_ ?_ ?_
    · rw [htable]
      exact hsame
    · rw [htable]
      exact hinv
    · rw [htable, mapPairs_withDst]
      exact hheld
  refine ⟨_, hbody, ?_, rfl, ?_, htoken, rfl, ?_⟩
  · exact hstored.congr rfl rfl rfl rfl rfl rfl
  · rw [← htable]
    exact (nati.ticked.copyStart 3).natTable_withDst d
  · exact (nati.ticked.copyStart 3).ruleEnv_withDst d _

/-! ## Adding a rule -/

/-- The rule as `_smAddRuleToTbl` passes it on. -/
def IpaNatIpv4Rule.zeroed (clntRule : IpaNatIpv4Rule) : IpaNatIpv4Rule :=
  { clntRule with redirect := 0, enable := 0, timeStamp := 0 }

def IpaNatiObj.addResult (nati : IpaNatiObj) (nmi : Ipa3NatMemIn) (natTable : IpaNatIp4TableCache)
    (hashToken : Nat) (clntRule : IpaNatIpv4Rule) : AddRuleResult :=
  addRuleLocked (nati.driver.ruleEnv nmi) 0 natTable hashToken clntRule.zeroed

/-- The active table accepts the rule and has room for it. -/
def IpaNatiObj.takes (nati : IpaNatiObj) (clntRule : IpaNatIpv4Rule) : Bool :=
  nati.driver.acceptsRule clntRule.zeroed &&
    (nati.addResult nati.chooseMemSub (nati.driver.natTable nati.chooseMemSub)
      nati.driver.hashToken clntRule).ret = 0

/-- The handle of the slot that the active table has for the rule. -/
def IpaNatiObj.takenHdl (nati : IpaNatiObj) (clntRule : IpaNatIpv4Rule) : Nat :=
  (nati.addResult nati.chooseMemSub (nati.driver.natTable nati.chooseMemSub)
    nati.driver.hashToken clntRule).ruleHdl

/-- `Hash_token` after the attempt. -/
def IpaNatiObj.tokenAfter (nati : IpaNatiObj) (clntRule : IpaNatIpv4Rule) : Nat :=
  if nati.driver.acceptsRule clntRule.zeroed then
    (nati.addResult nati.chooseMemSub (nati.driver.natTable nati.chooseMemSub)
      nati.driver.hashToken clntRule).hashToken
  else nati.driver.hashToken

/-- What clients hold once `a` has been given out for a rule. -/
def heldWith (pdns : Nat → UInt32) (held : Nat → IpaNatRule → Prop) (a : Nat)
    (clntRule : IpaNatIpv4Rule) (a' : Nat) (rule : IpaNatRule) : Prop :=
  (a' = a ∧ rule = clientRule pdns clntRule.zeroed) ∨ held a' rule

theorem smAddRuleHybrid_added
    (hadd : ipaNATIAddIpv4Rule kernel nati.driver (nati.hybridTblHdl tblHdl) clntRule.zeroed =
      (0, b, driver)) (horig : (nati.mapPairs nati.chooseMemSub).orig2newMap b = none)
    (hnew : (nati.mapPairs nati.chooseMemSub).new2origMap b = none) :
    smAddRuleHybrid kernel statemach tblHdl clntRule nati =
      ⟨0, b, ({ nati with driver := driver }.setRules nati.chooseMemSub
          (nati.totRulesInTable nati.chooseMemSub + 1)).setMaps nati.chooseMemSub
        ⟨Function.update (nati.mapPairs nati.chooseMemSub).orig2newMap b (some b),
          Function.update (nati.mapPairs nati.chooseMemSub).new2origMap b (some b)⟩⟩ := by
  rw [IpaNatIpv4Rule.zeroed] at hadd
  rw [chooseMemSub] at horig hnew ⊢
  simp only [smAddRuleHybrid, smAddRuleToTbl, hadd, if_true, chooseMemSub,
    setRules, ipaNatMapAdd_none horig, ipaNatMapAdd_none hnew, ne_eq, not_true,
    if_false]

theorem smAddRuleToTbl_refused {ret : Int}
    (hadd : ipaNATIAddIpv4Rule kernel nati.driver tblHdl clntRule.zeroed = (ret, b, driver))
    (hret : ret ≠ 0) :
    smAddRuleToTbl kernel tblHdl clntRule nati = ⟨ret, b, { nati with driver := driver }⟩ := by
  rw [IpaNatIpv4Rule.zeroed] at hadd
  simp only [smAddRuleToTbl, hadd, if_neg hret]

theorem HybridOk.smAddRuleToTbl_taken (h : HybridOk nati held) (hok : ∀ n, kernel.request n = 0)
    (htakes : nati.takes clntRule = true)
    (hfresh : (nati.mapPairs nati.chooseMemSub).orig2newMap (nati.takenHdl clntRule) = none)
    (statemach : IpaNatiTrigger → IpaNatiObj → SmResult) :
    ∃ nati', smAddRuleHybrid kernel statemach (makeTblHdl 1 .sram) clntRule nati =
        ⟨0, nati.takenHdl clntRule, nati'⟩ ∧ nati.takenHdl clntRule ≠ 0 ∧
      HybridOk nati' (heldWith nati.driver.pdns held (nati.takenHdl clntRule) clntRule) := by
  simp only [takes, Bool.and_eq_true, decide_eq_true_eq] at htakes
  obtain ⟨haccept, hret⟩ := htakes
  have haccepted := (acceptsRule_iff _ _).mp haccept
  obtain ⟨links, hready⟩ := h.ready nati.chooseMemSub
  rcases hready.invariant.addRule haccepted.protocol haccepted.pdnIndex nati.driver.hashToken with
    ⟨x, links', hashToken, natTable, hadd, hadded⟩ | ⟨hashToken, hadd⟩
  · have hdl : nati.takenHdl clntRule =
        makeEntryHdl (nati.driver.natTable nati.chooseMemSub).conf x := by
      rw [takenHdl, addResult, hadd]
    rw [hdl] at hfresh ⊢
    have hnew := h.handles.new_free hready.invariant hadded.lt hadded.free
    have hnati := hready.addRule_eq (hok _) haccept hadd
    rw [← h.hybridTblHdl] at hnati
    refine ⟨_, smAddRuleHybrid_added hnati hfresh hnew, hadded.hdl_ne_zero haccepted.protocol, ?_⟩
    have hheld := h.handles.insert rfl hready.invariant haccepted hadded hfresh
    refine HybridOk.stored h _ nati.chooseMemSub ?_ ?_ ?_ ?_ ?_ hadded.same
      ⟨links', hadded.invariant⟩ ?_
    · exact h.currState
    · rfl
    · rfl
    · rfl
    · rfl
    · rw [mapPairs_setMaps]
      exact hheld
  · rw [addResult, hadd] at hret
    cases hret

/-- The object with another `Hash_token`. -/
def IpaNatiObj.withToken (nati : IpaNatiObj) (hashToken : Nat) : IpaNatiObj :=
  { nati with driver := { nati.driver with hashToken := hashToken } }

theorem HybridOk.withToken (h : HybridOk nati held) (hashToken : Nat) :
    HybridOk (nati.withToken hashToken) held :=
  h.congr rfl rfl rfl rfl rfl rfl

theorem HybridOk.smAddRuleToTbl_not_taken (h : HybridOk nati held) (hok : ∀ n, kernel.request n = 0)
    (htakes : nati.takes clntRule = false) :
    ∃ ret, ret ≠ 0 ∧
      smAddRuleToTbl kernel (nati.hybridTblHdl (makeTblHdl 1 .sram)) clntRule nati =
        ⟨ret, 0, nati.withToken (nati.tokenAfter clntRule)⟩ := by
  obtain ⟨links, hready⟩ := h.ready nati.chooseMemSub
  rw [h.hybridTblHdl]
  by_cases haccept : nati.driver.acceptsRule clntRule.zeroed = true
  · have haccepted := (acceptsRule_iff _ _).mp haccept
    rcases hready.invariant.addRule haccepted.protocol haccepted.pdnIndex nati.driver.hashToken with
      ⟨x, links', hashToken, natTable, hadd, hadded⟩ | ⟨hashToken, hadd⟩
    · simp [takes, haccept, addResult, hadd] at htakes
    · have hnati := hready.addRule_eq (hok _) haccept hadd
      simp only [NatDriver.setNatTable_self, Bool.false_eq_true, if_false] at hnati
      have htoken : nati.tokenAfter clntRule = hashToken := by
        rw [tokenAfter, if_pos haccept, addResult, hadd]
      refine ⟨-1, by decide, ?_⟩
      rw [smAddRuleToTbl_refused hnati (by decide), htoken]
      rfl
  · have hnati : ipaNATIAddIpv4Rule kernel nati.driver (makeTblHdl 1 nati.chooseMemSub)
        clntRule.zeroed = (-EINVAL, 0, nati.driver) := by
      simp only [ipaNATIAddIpv4Rule, validTblHdl_makeTblHdl, haccept, Bool.not_true,
        Bool.false_eq_true, if_false, Bool.not_false, if_true]
    have htoken : nati.tokenAfter clntRule = nati.driver.hashToken := by
      rw [tokenAfter, if_neg haccept]
    refine ⟨-EINVAL, by decide, ?_⟩
    rw [smAddRuleToTbl_refused hnati (by decide), htoken]
    rfl

def IpaNatiObj.moved (nati : IpaNatiObj) : Option (IpaNatIp4TableCache × Nat) :=
  fillTable (nati.driver.ruleEnv nati.chooseMemSub.other)
    (nati.driver.natTable nati.chooseMemSub).allLiveRules
    (nati.driver.natTable nati.chooseMemSub.other).cleared nati.driver.hashToken

def IpaNatiObj.unheld (nati : IpaNatiObj) (ruleHdl : Nat) : Bool :=
  ((nati.mapPairs nati.chooseMemSub).orig2newMap ruleHdl).isNone

theorem HybridOk.unheld_iff (h : HybridOk nati held) {ruleHdl : Nat} :
    nati.unheld ruleHdl = true ↔ ∀ rule, ¬held ruleHdl rule := by
  rw [unheld, Option.isNone_iff_eq_none]
  exact h.handles.orig_none_iff

/-- The handles held name no free slot of the table. -/
def IpaNatiObj.heldOccupied (nati : IpaNatiObj) (natTable : IpaNatIp4TableCache) : Bool :=
  (List.range natTable.conf.totTblEnts).all fun x =>
    (natTable.table.records x).enable || nati.unheld (makeEntryHdl natTable.conf x)

theorem HybridOk.heldOccupied_iff (h : HybridOk nati held) {natTable : IpaNatIp4TableCache} :
    nati.heldOccupied natTable = true ↔ ∀ x < natTable.conf.totTblEnts,
      (natTable.table.records x).enable = false →
        ∀ rule, ¬held (makeEntryHdl natTable.conf x) rule := by
  simp only [heldOccupied, List.all_eq_true, List.mem_range, Bool.or_eq_true, h.unheld_iff]
  refine forall₂_congr fun x hx => ?_
  cases (natTable.table.records x).enable <;> simp

/-- Every handle held names an occupied slot of the table that takes the rule: the active one, or
the DDR table once it has the rules of SRAM, which fit. -/
def IpaNatiObj.addOk (nati : IpaNatiObj) (clntRule : IpaNatIpv4Rule) : Bool :=
  if nati.takes clntRule then nati.heldOccupied (nati.driver.natTable nati.chooseMemSub)
  else if nati.currState = .hybrid ∧ nati.holdState = false then
    match (nati.withToken (nati.tokenAfter clntRule)).moved with
    | none => false
    | some (natTable, _) => nati.heldOccupied natTable
  else true

theorem HybridOk.unheld_takenHdl (h : HybridOk nati held) (htakes : nati.takes clntRule = true)
    (hheld : nati.heldOccupied (nati.driver.natTable nati.chooseMemSub) = true) :
    nati.unheld (nati.takenHdl clntRule) = true := by
  simp only [takes, Bool.and_eq_true, decide_eq_true_eq] at htakes
  obtain ⟨haccept, hret⟩ := htakes
  have haccepted := (acceptsRule_iff _ _).mp haccept
  obtain ⟨links, hready⟩ := h.ready nati.chooseMemSub
  rcases hready.invariant.addRule haccepted.protocol haccepted.pdnIndex nati.driver.hashToken with
    ⟨x, links', hashToken, natTable, hadd, hadded⟩ | ⟨hashToken, hadd⟩
  · rw [takenHdl, addResult, hadd, h.unheld_iff]
    exact h.heldOccupied_iff.mp hheld x hadded.lt hadded.free
  · rw [addResult, hadd] at hret
    cases hret

def Added (nati : IpaNatiObj) (held : Nat → IpaNatRule → Prop) (clntRule : IpaNatIpv4Rule)
    (result : SmResult) : Prop :=
  (result.out = 0 ∧ HybridOk result.nati held) ∨
    (result.out ≠ 0 ∧ (∀ rule, ¬held result.out rule) ∧
      HybridOk result.nati (heldWith nati.driver.pdns held result.out clntRule))

theorem Added.desc (h : Added nati held clntRule result) :
    (result.nati.driver.ipv4NatCache .sram).ipaDesc.isSome = true := by
  rcases h with ⟨-, h⟩ | ⟨-, -, h⟩
  · exact h.desc
  · exact h.desc

theorem Added.ticked (h : Added nati held clntRule result) :
    Added nati held clntRule ⟨0, result.out, result.nati.ticked⟩ := by
  rcases h with ⟨hout, h⟩ | ⟨hout, hfresh, h⟩
  · exact .inl ⟨hout, h.ticked⟩
  · exact .inr ⟨hout, hfresh, h.ticked⟩

theorem HybridOk.smAddRuleHybrid_taken (h : HybridOk nati held) (hok : ∀ n, kernel.request n = 0)
    (htakes : nati.takes clntRule = true)
    (hheld : nati.heldOccupied (nati.driver.natTable nati.chooseMemSub) = true)
    (statemach : IpaNatiTrigger → IpaNatiObj → SmResult) :
    Added nati held clntRule
      (smAddRuleHybrid kernel statemach (makeTblHdl 1 .sram) clntRule nati) := by
  have hfresh := h.unheld_takenHdl htakes hheld
  rw [unheld, Option.isNone_iff_eq_none] at hfresh
  obtain ⟨nati', hadd, hne, hnati'⟩ := h.smAddRuleToTbl_taken hok htakes hfresh statemach
  rw [hadd]
  exact .inr ⟨hne, h.handles.orig_none_iff.mp hfresh, hnati'⟩

theorem HybridOk.smAddRuleHybrid_stays (h : HybridOk nati held) (hok : ∀ n, kernel.request n = 0)
    (htakes : nati.takes clntRule = false)
    (hstays : ¬(nati.currState = .hybrid ∧ nati.holdState = false))
    (statemach : IpaNatiTrigger → IpaNatiObj → SmResult) :
    Added nati held clntRule
      (smAddRuleHybrid kernel statemach (makeTblHdl 1 .sram) clntRule nati) := by
  obtain ⟨ret, hret, hadd⟩ := h.smAddRuleToTbl_not_taken hok htakes
  have hstays' : ¬((nati.withToken (nati.tokenAfter clntRule)).currState = .hybrid ∧
      (!(nati.withToken (nati.tokenAfter clntRule)).holdState) = true) := by
    simpa [IpaNatiObj.withToken] using hstays
  simp only [smAddRuleHybrid, hadd, if_neg hret, if_neg hstays']
  exact .inl ⟨rfl, h.withToken _⟩

/-- A full SRAM table: the rules move to DDR, and the rule is added there. -/
theorem HybridOk.smAddRuleHybrid_moves (h : HybridOk nati held) (hok : ∀ n, kernel.request n = 0)
    (htakes : nati.takes clntRule = false)
    (hmoves : nati.currState = .hybrid ∧ nati.holdState = false) (hadd : nati.addOk clntRule = true)
    (depth : Nat) :
    Added nati held clntRule
      (smAddRuleHybrid kernel (statemachDepth kernel (depth + 2)) (makeTblHdl 1 .sram) clntRule
        nati) := by
  obtain ⟨ret, hret, hrefused⟩ := h.smAddRuleToTbl_not_taken hok htakes
  have hsub : nati.chooseMemSub = .sram := by
    rw [chooseMemSub, if_pos hmoves.1]
  simp only [addOk, htakes, Bool.false_eq_true, if_false, if_pos hmoves] at hadd
  split at hadd
  · cases hadd
  · next natTable hashToken hfits =>
      obtain ⟨nati', hswitch, hnati', hstate, htable, -, hpdns, -⟩ :=
        (h.withToken (nati.tokenAfter clntRule)).switch hok hfits depth
      have hsub' : (nati.withToken (nati.tokenAfter clntRule)).chooseMemSub.other = .ddr :=
        congrArg Ipa3NatMemIn.other hsub
      rw [hsub'] at hstate htable
      have hddr : HybridOk (nati'.setState .hybridDdr) held :=
        hnati'.congr hstate.symm rfl rfl rfl rfl rfl
      have hmoves' : (nati.withToken (nati.tokenAfter clntRule)).currState = .hybrid ∧
          (!(nati.withToken (nati.tokenAfter clntRule)).holdState) = true := by
        simpa [IpaNatiObj.withToken] using hmoves
      have hbody : statemachDepth kernel (depth + 2) (.addRule (makeTblHdl 1 .sram) clntRule)
          (nati'.setState .hybridDdr) =
          ⟨0, (smAddRuleHybrid kernel (statemachDepth kernel (depth + 1)) (makeTblHdl 1 .sram)
              clntRule (nati'.setState .hybridDdr)).out,
            (smAddRuleHybrid kernel (statemachDepth kernel (depth + 1)) (makeTblHdl 1 .sram)
              clntRule (nati'.setState .hybridDdr)).nati⟩ := statemachBody_novote rfl
      simp only [smAddRuleHybrid.eq_1 kernel (statemachDepth kernel (depth + 2)), hrefused,
        if_neg hret, if_pos hmoves', hswitch, if_true, hbody]
      -- in DDR no further switch is tried
      have hresult : Added (nati'.setState .hybridDdr) held clntRule
          (smAddRuleHybrid kernel (statemachDepth kernel (depth + 1)) (makeTblHdl 1 .sram)
            clntRule (nati'.setState .hybridDdr)) := by
        by_cases htakes' : (nati'.setState .hybridDdr).takes clntRule = true
        · refine hddr.smAddRuleHybrid_taken hok htakes' ?_ _
          rw [show (nati'.setState .hybridDdr).driver.natTable
            (nati'.setState .hybridDdr).chooseMemSub = natTable from htable, hddr.heldOccupied_iff]
          exact h.heldOccupied_iff.mp hadd
        · exact hddr.smAddRuleHybrid_stays hok (Bool.not_eq_true _ ▸ htakes')
            (fun hhybrid => by cases hhybrid.1) _
      have hpdns' : (nati'.setState .hybridDdr).driver.pdns = nati.driver.pdns := hpdns
      rw [Added, hpdns'] at hresult
      exact hresult

theorem HybridOk.addRule (h : HybridOk nati held) (hok : ∀ n, kernel.request n = 0)
    (hadd : nati.addOk clntRule = true) :
    Added nati held clntRule (ipaNatiAddIpv4Rule kernel (makeTblHdl 1 .sram) clntRule nati) := by
  have hcallback : ∀ {nati : IpaNatiObj}, HybridOk nati held → nati.addOk clntRule = true →
      Added nati held clntRule (smAddRuleHybrid kernel (statemachDepth kernel 2)
        (makeTblHdl 1 .sram) clntRule nati) := by
    intro nati h hadd
    by_cases htakes : nati.takes clntRule = true
    · rw [addOk, if_pos htakes] at hadd
      exact h.smAddRuleHybrid_taken hok htakes hadd _
    · rw [Bool.not_eq_true] at htakes
      by_cases hmoves : nati.currState = .hybrid ∧ nati.holdState = false
      · exact h.smAddRuleHybrid_moves hok htakes hmoves hadd 0
      · exact h.smAddRuleHybrid_stays hok htakes hmoves _
  rcases h.state with hstate | hstate
  · have hvote : nati.voteRequired (.addRule (makeTblHdl 1 .sram) clntRule) = true := by
      simp [voteRequired, hstate]
    have hcb : stateMachTbl kernel (statemachDepth kernel 2) nati.currState
        (.addRule (makeTblHdl 1 .sram) clntRule) nati.ticked =
        smAddRuleHybrid kernel (statemachDepth kernel 2) (makeTblHdl 1 .sram) clntRule
          nati.ticked := by
      rw [hstate]
      rfl
    have hresult := hcallback h.ticked hadd
    rw [ipaNatiAddIpv4Rule, ipaNatiStatemach, statemachDepth,
      statemachBody_vote hok hvote h.desc hcb hresult.desc]
    exact hresult.ticked
  · have hvote : nati.voteRequired (.addRule (makeTblHdl 1 .sram) clntRule) = false := by
      simp [voteRequired, hstate]
    rw [ipaNatiAddIpv4Rule, ipaNatiStatemach, statemachDepth, statemachBody_novote hvote, hstate]
    exact hcallback h hadd

/-! ## Deleting a rule -/

/-- The object once the rule at a new handle has left the active table. -/
def IpaNatiObj.dropped (nati : IpaNatiObj) (origRuleHdl newRuleHdl : Nat) : IpaNatiObj :=
  { ((nati.setMaps nati.chooseMemSub
        ⟨Function.update (nati.mapPairs nati.chooseMemSub).orig2newMap origRuleHdl none,
          Function.update (nati.mapPairs nati.chooseMemSub).new2origMap newRuleHdl none⟩).setRules
        nati.chooseMemSub (nati.totRulesInTable nati.chooseMemSub - 1)) with
    driver := { nati.driver.setNatTable nati.chooseMemSub
        (delRuleLocked nati.driver.pdns 0 (nati.driver.natTable nati.chooseMemSub)
          newRuleHdl).natTable with
      requests := nati.driver.requests + 1 } }

/-- What clients hold once `a` has been deleted. -/
def heldWithout (held : Nat → IpaNatRule → Prop) (a a' : Nat) (rule : IpaNatRule) : Prop :=
  a' ≠ a ∧ held a' rule

theorem HybridOk.dropped (h : HybridOk nati held) (hok : ∀ n, kernel.request n = 0)
    {newRuleHdl : Nat}
    (hmap : (nati.mapPairs nati.chooseMemSub).orig2newMap origRuleHdl = some newRuleHdl) :
    ipaNATIDelIpv4Rule kernel nati.driver (makeTblHdl 1 nati.chooseMemSub) newRuleHdl =
        (0, (nati.dropped origRuleHdl newRuleHdl).driver) ∧
      HybridOk (nati.dropped origRuleHdl newRuleHdl) (heldWithout held origRuleHdl) := by
  obtain ⟨links, hready⟩ := h.ready nati.chooseMemSub
  obtain ⟨x, hlive, rfl⟩ := (h.handles.live newRuleHdl).mp
    (by rw [(h.handles.inverse _ _).mp hmap]; rfl)
  have hx := ruleHdlIndex_makeEntryHdl hready.invariant.dims (hready.invariant.lt_of_live hlive)
  obtain ⟨natTable', hdel, hdeleted⟩ :=
    hready.invariant.delRule_live (by rw [hx]; exact hlive)
  have henv : (nati.driver.ruleEnv nati.chooseMemSub).pdns = nati.driver.pdns := rfl
  rw [henv] at hdel
  rw [hx] at hdeleted
  constructor
  · simp only [ipaNATIDelIpv4Rule, tblHdlNmi_makeTblHdl, validTblHdl_makeTblHdl, hready.valid, hok,
      hdel, Bool.not_true, Bool.or_self, Bool.false_eq_true, if_false, if_true,
      IpaNatiObj.dropped]
  · have herase := h.handles.erase hready.invariant hdeleted hlive hmap
    refine h.stored (nati.dropped origRuleHdl _) nati.chooseMemSub h.currState rfl rfl rfl rfl
      ?_ ?_ ?_
    · rw [hdel]
      exact hdeleted.same
    · rw [hdel]
      exact ⟨links, hdeleted.invariant⟩
    · rw [hdel]
      have hmaps : (nati.dropped origRuleHdl (makeEntryHdl
          (nati.driver.natTable nati.chooseMemSub).conf x)).mapPairs nati.chooseMemSub = _ :=
        nati.mapPairs_setMaps _ _
      rw [hmaps]
      exact herase

/-- If the deletion leaves few enough rules in DDR to go back, they fit into SRAM. -/
def IpaNatiObj.delOk (nati : IpaNatiObj) (origRuleHdl : Nat) : Bool :=
  match (nati.mapPairs nati.chooseMemSub).orig2newMap origRuleHdl with
  | none => true
  | some newRuleHdl =>
    if nati.currState = .hybridDdr ∧
        nati.totRulesInTable .ddr - 1 ≤ UInt32.ofNat nati.backToSramThresh ∧
        nati.holdState = false then
      (nati.dropped origRuleHdl newRuleHdl).moved.isSome
    else true

theorem HybridOk.smBackToSram (h : HybridOk nati held) (hok : ∀ n, kernel.request n = 0)
    (hstate : nati.currState = .hybridDdr)
    (hfits : nati.totRulesInTable .ddr ≤ UInt32.ofNat nati.backToSramThresh →
      nati.holdState = false → nati.moved.isSome = true) (depth : Nat) :
    (smBackToSram (statemachDepth kernel (depth + 2)) nati).out = 0 ∧
      HybridOk (smBackToSram (statemachDepth kernel (depth + 2)) nati).nati held := by
  have hsub : nati.chooseMemSub = .ddr := by simp [chooseMemSub, hstate]
  rw [Ipanat.smBackToSram, hsub]
  split
  · next hback =>
      obtain ⟨⟨natTable, hashToken⟩, hmoved⟩ := Option.isSome_iff_exists.mp
        (hfits hback.1 (by simpa using hback.2))
      obtain ⟨nati', hswitch, hnati', hstate', -⟩ := h.switch hok hmoved depth
      rw [hsub] at hstate'
      simp only [hswitch, if_true, true_and]
      exact hnati'.congr hstate'.symm rfl rfl rfl rfl rfl
  · exact ⟨rfl, h⟩

theorem HybridOk.congr_held (h : HybridOk nati held)
    (hheld : ∀ a rule, held' a rule ↔ held a rule) : HybridOk nati held' where
  state := h.state
  ddrTblHdl := h.ddrTblHdl
  sramTblHdl := h.sramTblHdl
  desc := h.desc
  ready := h.ready
  handles := h.handles.congr_held hheld

theorem HybridOk.smDelRuleHybrid (h : HybridOk nati held) (hok : ∀ n, kernel.request n = 0)
    (hdel : nati.delOk origRuleHdl = true) :
    HybridOk (smDelRuleHybrid kernel (statemachDepth kernel 2) (makeTblHdl 1 .sram) origRuleHdl
      nati).nati (heldWithout held origRuleHdl) := by
  rw [delOk] at hdel
  cases hmap : (nati.mapPairs nati.chooseMemSub).orig2newMap origRuleHdl with
  | none =>
    simp only [Ipanat.smDelRuleHybrid, ipaNatMapDel, hmap]
    refine h.congr_held fun a rule => ⟨fun hheld => hheld.2, fun hheld => ⟨?_, hheld⟩⟩
    rintro rfl
    exact h.handles.orig_none_iff.mp hmap rule hheld
  | some newRuleHdl =>
    obtain ⟨hnati, hdropped⟩ := h.dropped hok hmap
    have hfrom : smDelRuleFromTbl kernel (makeTblHdl 1 nati.chooseMemSub) newRuleHdl
        (nati.setMaps nati.chooseMemSub
          ⟨update (nati.mapPairs nati.chooseMemSub).orig2newMap origRuleHdl none,
            update (nati.mapPairs nati.chooseMemSub).new2origMap newRuleHdl none⟩) =
        ⟨0, 0, nati.dropped origRuleHdl newRuleHdl⟩ := by
      have hnati' : ipaNATIDelIpv4Rule kernel (nati.setMaps nati.chooseMemSub
          ⟨update (nati.mapPairs nati.chooseMemSub).orig2newMap origRuleHdl none,
            update (nati.mapPairs nati.chooseMemSub).new2origMap newRuleHdl
              none⟩).driver (makeTblHdl 1 nati.chooseMemSub) newRuleHdl = _ := hnati
      simp only [smDelRuleFromTbl, hnati', if_true]
      rfl
    simp only [Ipanat.smDelRuleHybrid, ipaNatMapDel, hmap, hybridTblHdl_setMaps,
      h.hybridTblHdl, hfrom, true_and]
    split
    · next hddr =>
        have hstate : nati.currState = .hybridDdr := hddr
        have hsub : nati.chooseMemSub = .ddr := by simp [chooseMemSub, hstate]
        refine (hdropped.smBackToSram hok hddr ?_ 0).2
        intro hthresh hhold
        have hcnt : (nati.dropped origRuleHdl newRuleHdl).totRulesInTable .ddr =
            nati.totRulesInTable .ddr - 1 := by
          simp [IpaNatiObj.dropped, setRules, setMaps, hsub]
        rw [hcnt] at hthresh
        simp only [hmap] at hdel
        rw [if_pos ⟨hstate, hthresh, hhold⟩] at hdel
        exact hdel
    · exact hdropped

theorem HybridOk.delRule (h : HybridOk nati held) (hok : ∀ n, kernel.request n = 0)
    (hdel : nati.delOk origRuleHdl = true) :
    HybridOk (ipaNatiDelIpv4Rule kernel (makeTblHdl 1 .sram) origRuleHdl nati).nati
      (heldWithout held origRuleHdl) := by
  rcases h.state with hstate | hstate
  · have hvote : nati.voteRequired (.delRule (makeTblHdl 1 .sram) origRuleHdl) = true := by
      simp [voteRequired, hstate]
    have hcb : stateMachTbl kernel (statemachDepth kernel 2) nati.currState
        (.delRule (makeTblHdl 1 .sram) origRuleHdl) nati.ticked =
        Ipanat.smDelRuleHybrid kernel (statemachDepth kernel 2) (makeTblHdl 1 .sram) origRuleHdl
          nati.ticked := by
      rw [hstate]
      rfl
    have hresult := h.ticked.smDelRuleHybrid hok hdel
    rw [ipaNatiDelIpv4Rule, ipaNatiStatemach, statemachDepth,
      statemachBody_vote hok hvote h.desc hcb hresult.desc]
    exact hresult.ticked
  · have hvote : nati.voteRequired (.delRule (makeTblHdl 1 .sram) origRuleHdl) = false := by
      simp [voteRequired, hstate]
    rw [ipaNatiDelIpv4Rule, ipaNatiStatemach, statemachDepth, statemachBody_novote hvote, hstate]
    exact h.smDelRuleHybrid hok hdel

end

end QcomModules.Ipanat
