import QcomModules.Ipanat.Driver

/-! The state machine of `ipa_nat_statemach.c`, which keeps NAT rules in SRAM, in DDR, or
in both in turn, and the handle maps of `ipa_nat_map.cpp`. -/

namespace QcomModules.Ipanat

/-! ## Handle maps -/

/-- A `std::map` from rule handles to rule handles. -/
abbrev NatMap := Nat → Option Nat

/-- `ipa_nat_map_add`: a key in use is refused. -/
def ipaNatMapAdd (map : NatMap) (key val : Nat) : Int × NatMap :=
  if (map key).isSome then (-1, map) else (0, Function.update map key (some val))

/-- `ipa_nat_map_del`: the value of the key, if it has one. -/
def ipaNatMapDel (map : NatMap) (key : Nat) : Option Nat × NatMap :=
  (map key, Function.update map key none)

structure NatiMapPair where
  orig2newMap : NatMap
  new2origMap : NatMap

def clearedMaps : NatiMapPair := ⟨fun _ => none, fun _ => none⟩

/-! ## The nati object -/

inductive IpaNatiState where
  | null
  | ddrOnly
  | sramOnly
  | hybrid
  | hybridDdr
  | last
  deriving DecidableEq, Repr

/-- The memory type of the configuration: `HYBRID` or `SRAM` in any case, or anything else. -/
inductive MemTypeStr where
  | hybrid
  | sram
  | other
  deriving DecidableEq, Repr

def memTypeStrToIpaNatiState : MemTypeStr → IpaNatiState
  | .hybrid => .hybrid
  | .sram => .sramOnly
  | .other => .ddrOnly

structure NatiSwitchStats where
  pass : UInt32
  fail : UInt32
  deriving DecidableEq, Repr

/-- `ipa_nati_obj`, with the driver below it. Pairs indexed by `DDR_SUB` and `SRAM_SUB`
are functions of the memory type. -/
structure IpaNatiObj where
  prevState : IpaNatiState
  currState : IpaNatiState
  holdState : Bool
  stateToHold : IpaNatiState
  ddrTblHdl : Nat
  sramTblHdl : Nat
  totSlotsInSram : Nat
  backToSramThresh : Nat
  totRulesInTable : Ipa3NatMemIn → UInt32
  mapPairs : Ipa3NatMemIn → NatiMapPair
  swStats : Ipa3NatMemIn → NatiSwitchStats
  driver : NatDriver

/-- Which table `ipa_nati_walk_ipv4_tbl` walks, with a callback for its records. -/
inductive TblWalk where
  | useNatTable (walkCb : Nat → IpaNatRule → Nat → Int)
  | useIndexTable (walkCb : Nat → IpaNatIndxTblRule → Nat → Int)

/-- `ipa_nati_trigger`, each with the arguments its API function passes. -/
inductive IpaNatiTrigger where
  | null
  | addTable (publicIpAddr : UInt32) (numberOfEntries : UInt16) (memType : MemTypeStr)
  | delTable (tblHdl : Nat)
  | clrTable (tblHdl : Nat)
  | wlkTable (tblHdl : Nat) (walk : TblWalk)
  | tblStats (tblHdl : Nat)
  | addRule (tblHdl : Nat) (clntRule : IpaNatIpv4Rule)
  | delRule (tblHdl ruleHdl : Nat)
  | tblSwitch
  | gotoDdr
  | gotoSram
  | getTstamp (tblHdl ruleHdl : Nat)
  | last

/-- What a callback returns, what it stores through the caller's pointer (0 if nothing:
a table handle, a rule handle or a time stamp), and the object after it. -/
structure SmResult where
  ret : Int
  out : Nat
  nati : IpaNatiObj

namespace IpaNatiObj

variable (nati : IpaNatiObj)

/-- `SET_NATIOBJ_STATE`. -/
def setState (state : IpaNatiState) : IpaNatiObj :=
  { nati with prevState := nati.currState, currState := state }

def back2UnstartedState : IpaNatiObj := { nati with prevState := .null, currState := .null }

def inHybridState : Bool := nati.currState = .hybrid || nati.currState = .hybridDdr

def chooseMemSub : Ipa3NatMemIn := if nati.currState = .hybrid then .sram else .ddr

def hybridTblHdl (tblHdl : Nat) : Nat :=
  if nati.currState = .hybrid then tblHdl else nati.ddrTblHdl

def setRules (sub : Ipa3NatMemIn) (cnt : UInt32) : IpaNatiObj :=
  { nati with totRulesInTable := Function.update nati.totRulesInTable sub cnt }

def setMaps (sub : Ipa3NatMemIn) (maps : NatiMapPair) : IpaNatiObj :=
  { nati with mapPairs := Function.update nati.mapPairs sub maps }

/-- The counter and the maps of one memory type start over. -/
def clearSub (sub : Ipa3NatMemIn) : IpaNatiObj := (nati.setRules sub 0).setMaps sub clearedMaps

def voteRequired (trigger : IpaNatiTrigger) : Bool :=
  let sramCurrentlyActive := nati.currState = .sramOnly || nati.currState = .hybrid
  match trigger with
  | .getTstamp .. | .addTable .. => false
  | .gotoSram | .tblSwitch => true
  | _ => sramCurrentlyActive

end IpaNatiObj

/-! ## Copying a table -/

def Ipa3NatMemIn.other : Ipa3NatMemIn → Ipa3NatMemIn
  | .ddr => .sram
  | .sram => .ddr

/-- The client rule that `migrate_rule` reads back from a record. -/
def IpaNatRule.v4Rule (rule : IpaNatRule) : IpaNatIpv4Rule where
  targetIp := rule.targetIp
  privateIp := rule.privateIp
  targetPort := rule.targetPort
  privatePort := rule.privatePort
  publicPort := rule.publicPort
  protocol := rule.protocol
  pdnIndex := UInt8.ofNat rule.pdnIndex
  redirect := rule.redirect.toUInt8
  enable := rule.enable.toUInt8
  timeStamp := UInt32.ofNat rule.timeStamp
  ucActivationIndex := UInt16.ofNat rule.ucActivationIndex
  s := rule.s
  ucp := rule.ucp
  dstOnly := rule.dstOnly
  srcOnly := rule.srcOnly

/-- `migrate_rule` out of the table in memory `src`. A deleted head is not copied. -/
def migrateRule (kernel : Kernel) (dstTblHdl : Nat) (src : Ipa3NatMemIn) (nati : IpaNatiObj)
    (tblRuleHdl : Nat) (natRule : IpaNatRule) (_recordIndex : Nat) : Int × IpaNatiObj :=
  let dst := src.other
  if natRule.protocol = natInvalidProtocol then (0, nati)
  else
    match (nati.mapPairs src).new2origMap tblRuleHdl with
    | none => (-1, nati)
    | some origRuleHdl =>
      let (ret, newRuleHdl, driver) :=
        ipaNATIAddIpv4Rule kernel nati.driver dstTblHdl natRule.v4Rule
      let nati := { nati with driver := driver }
      if ret ≠ 0 then (ret, nati)
      else
        let nati := nati.setRules dst (nati.totRulesInTable dst + 1)
        let maps := nati.mapPairs dst
        let (ret, orig2newMap) := ipaNatMapAdd maps.orig2newMap origRuleHdl newRuleHdl
        if ret ≠ 0 then (ret, nati)
        else
          let (ret, new2origMap) := ipaNatMapAdd maps.new2origMap newRuleHdl origRuleHdl
          (ret, nati.setMaps dst ⟨orig2newMap, new2origMap⟩)

/-- `ipa_nati_copy_ipv4_tbl` with `migrate_rule`. -/
def ipaNatiCopyIpv4Tbl (kernel : Kernel) (srcTblHdl dstTblHdl : Nat) (nati : IpaNatiObj) :
    Int × IpaNatiObj :=
  let (ret, driver) := ipaNATIClearIpv4Tbl nati.driver dstTblHdl
  let nati := { nati with driver := driver }
  if ret ≠ 0 then (ret, nati)
  else
    ipaNATIWalkIpv4Tbl IpaNatiObj.driver srcTblHdl
      (migrateRule kernel dstTblHdl (driver.natTable (tblHdlNmi srcTblHdl)).nmi) nati

/-! ## Callbacks without a nested trigger -/

section
variable (kernel : Kernel)

def smUndef (nati : IpaNatiObj) : SmResult := ⟨-1, 0, nati⟩

def smDelTbl (tblHdl : Nat) (nati : IpaNatiObj) : SmResult :=
  let (ret, driver) := ipaNATIDelIpv4Table kernel nati.driver tblHdl
  let nati := { nati with driver := driver }
  if ret = 0 ∧ !nati.inHybridState then ⟨ret, 0, nati.back2UnstartedState⟩ else ⟨ret, 0, nati⟩

def smAddDdrTbl (publicIpAddr : UInt32) (numberOfEntries : UInt16) (nati : IpaNatiObj) :
    SmResult :=
  let (ret, tblHdl, driver) :=
    ipaNATIAddIpv4Tbl kernel nati.driver .ddr publicIpAddr numberOfEntries.toNat
  ⟨ret, tblHdl, { nati with driver := driver, ddrTblHdl := tblHdl }⟩

/-- A quarter of the SRAM slots is the threshold for going back to SRAM. -/
def smAddSramTbl (publicIpAddr : UInt32) (nati : IpaNatiObj) : SmResult :=
  let (ret, sramSize, driver) := ipaNatiGetSramSize kernel nati.driver
  let nati := { nati with driver := driver }
  if ret ≠ 0 then ⟨ret, 0, nati⟩
  else
    let (ret, totSlotsInSram) := ipaCalcNumSramTableEntries sramSize
    let nati := { nati with totSlotsInSram := totSlotsInSram }
    if ret ≠ 0 then ⟨ret, 0, nati⟩
    else
      let nati := { nati with backToSramThresh := totSlotsInSram / 4 }
      let (ret, driver) := ipaNatVoteClock kernel nati.driver
      let nati := { nati with driver := driver }
      if ret ≠ 0 then ⟨ret, 0, nati⟩
      else
        let (ret, tblHdl, driver) :=
          ipaNATIAddIpv4Tbl kernel nati.driver .sram publicIpAddr totSlotsInSram
        let (_, driver) := ipaNatVoteClock kernel driver
        ⟨ret, tblHdl, { nati with driver := driver, sramTblHdl := tblHdl }⟩

def smDelSramAndDdrTbl (tblHdl : Nat) (nati : IpaNatiObj) : SmResult :=
  let nati := (nati.clearSub .sram).clearSub .ddr
  let result := smDelTbl kernel tblHdl nati
  let result :=
    if result.ret = 0 then smDelTbl kernel result.nati.ddrTblHdl result.nati else result
  if result.ret = 0 then ⟨0, 0, result.nati.back2UnstartedState⟩ else result

def smClrTbl (tblHdl : Nat) (nati : IpaNatiObj) : SmResult :=
  let nati := nati.clearSub (tblHdlNmi tblHdl)
  let (ret, driver) := ipaNATIClearIpv4Tbl nati.driver tblHdl
  ⟨ret, 0, { nati with driver := driver }⟩

def smClrTblHybrid (tblHdl : Nat) (nati : IpaNatiObj) : SmResult :=
  smClrTbl (nati.hybridTblHdl tblHdl) nati

/-- The callback sees the records only; it cannot change the tables. -/
def smWalkTbl (tblHdl : Nat) (walk : TblWalk) (nati : IpaNatiObj) : SmResult :=
  match walk with
  | .useNatTable walkCb =>
    ⟨(ipaNATIWalkIpv4Tbl id tblHdl (fun driver hdl rule i => (walkCb hdl rule i, driver))
      nati.driver).1, 0, nati⟩
  | .useIndexTable walkCb =>
    ⟨(ipaNATIWalkIpv4IndexTbl tblHdl walkCb nati.driver), 0, nati⟩

def smWalkTblHybrid (tblHdl : Nat) (walk : TblWalk) (nati : IpaNatiObj) : SmResult :=
  smWalkTbl (nati.hybridTblHdl tblHdl) walk nati

def smStatTbl (tblHdl : Nat) (nati : IpaNatiObj) : SmResult :=
  ⟨ipaNATIIpv4TblStats nati.driver tblHdl, 0, nati⟩

def smStatTblHybrid (tblHdl : Nat) (nati : IpaNatiObj) : SmResult :=
  smStatTbl (nati.hybridTblHdl tblHdl) nati

def smAddRuleToTbl (tblHdl : Nat) (clntRule : IpaNatIpv4Rule) (nati : IpaNatiObj) : SmResult :=
  let clntRule := { clntRule with redirect := 0, enable := 0, timeStamp := 0 }
  let (ret, ruleHdl, driver) := ipaNATIAddIpv4Rule kernel nati.driver tblHdl clntRule
  let nati := { nati with driver := driver }
  let sub := nati.chooseMemSub
  if ret = 0 then ⟨ret, ruleHdl, nati.setRules sub (nati.totRulesInTable sub + 1)⟩
  else ⟨ret, ruleHdl, nati⟩

def smDelRuleFromTbl (tblHdl ruleHdl : Nat) (nati : IpaNatiObj) : SmResult :=
  let (ret, driver) := ipaNATIDelIpv4Rule kernel nati.driver tblHdl ruleHdl
  let nati := { nati with driver := driver }
  let sub := nati.chooseMemSub
  if ret = 0 then ⟨ret, 0, nati.setRules sub (nati.totRulesInTable sub - 1)⟩
  else ⟨ret, 0, nati⟩

/-- `_smGoToDdr` and `_smGoToSram`: focus on a table, and enter its state if that works. -/
def smGoTo (tblHdl : Nat) (state : IpaNatiState) (nati : IpaNatiObj) : SmResult :=
  let (ret, driver) := ipaNATIPostIpv4InitCmd kernel nati.driver tblHdl
  let nati := { nati with driver := driver }
  if ret = 0 then ⟨ret, 0, nati.setState state⟩ else ⟨ret, 0, nati⟩

def smGoToDdr (nati : IpaNatiObj) : SmResult := smGoTo kernel nati.ddrTblHdl .hybridDdr nati

def smGoToSram (nati : IpaNatiObj) : SmResult := smGoTo kernel nati.sramTblHdl .hybrid nati

def smGetTmStmp (tblHdl ruleHdl : Nat) (nati : IpaNatiObj) : SmResult :=
  let (ret, timeStamp) := ipaNATIQueryTimestamp nati.driver tblHdl ruleHdl
  ⟨ret, timeStamp, nati⟩

def smGetTmStmpHybrid (tblHdl origRuleHdl : Nat) (nati : IpaNatiObj) : SmResult :=
  match (nati.mapPairs nati.chooseMemSub).orig2newMap origRuleHdl with
  | none => ⟨-1, 0, nati⟩
  | some newRuleHdl => smGetTmStmp (nati.hybridTblHdl tblHdl) newRuleHdl nati

/-! ## Callbacks that run a trigger of their own -/

variable (statemach : IpaNatiTrigger → IpaNatiObj → SmResult)

def smFirstTbl (publicIpAddr : UInt32) (numberOfEntries : UInt16) (memType : MemTypeStr)
    (nati : IpaNatiObj) : SmResult :=
  let state := if nati.holdState ∧ nati.stateToHold ≠ .null then nati.stateToHold
    else memTypeStrToIpaNatiState memType
  statemach (.addTable publicIpAddr numberOfEntries memType) (nati.setState state)

def smAddSramAndDdrTbl (publicIpAddr : UInt32) (numberOfEntries : UInt16) (nati : IpaNatiObj) :
    SmResult :=
  let nati := (nati.clearSub .sram).clearSub .ddr
  let sram := smAddSramTbl kernel publicIpAddr nati
  if sram.ret = 0 then
    if sram.nati.totSlotsInSram ≥ numberOfEntries.toNat then
      ⟨0, sram.out, sram.nati.setState .sramOnly⟩
    else
      let ddr := smAddDdrTbl kernel publicIpAddr numberOfEntries sram.nati
      if ddr.ret = 0 then
        let result := statemach .gotoSram ddr.nati
        ⟨result.ret, sram.out, result.nati⟩
      else ⟨ddr.ret, sram.out, ddr.nati⟩
  else
    let ddr := smAddDdrTbl kernel publicIpAddr numberOfEntries sram.nati
    if ddr.ret = 0 then ⟨0, ddr.out, ddr.nati.setState .ddrOnly⟩ else ddr

def smAddRuleHybrid (tblHdl : Nat) (clntRule : IpaNatIpv4Rule) (nati : IpaNatiObj) : SmResult :=
  let result := smAddRuleToTbl kernel (nati.hybridTblHdl tblHdl) clntRule nati
  let nati := result.nati
  if result.ret = 0 then
    let sub := nati.chooseMemSub
    let maps := nati.mapPairs sub
    let (ret, orig2newMap) := ipaNatMapAdd maps.orig2newMap result.out result.out
    if ret ≠ 0 then ⟨ret, result.out, nati⟩
    else
      let (ret, new2origMap) := ipaNatMapAdd maps.new2origMap result.out result.out
      ⟨ret, result.out, nati.setMaps sub ⟨orig2newMap, new2origMap⟩⟩
  -- the SRAM table is full, hence let's jump to DDR
  else if nati.currState = .hybrid ∧ !nati.holdState then
    let switch := statemach .tblSwitch nati
    if switch.ret = 0 then
      statemach (.addRule tblHdl clntRule) (switch.nati.setState .hybridDdr)
    else ⟨switch.ret, result.out, switch.nati⟩
  else result

/-- The end of `_smDelRuleHybrid`: go back to SRAM once few enough rules are left. -/
def smBackToSram (nati : IpaNatiObj) : SmResult :=
  if nati.totRulesInTable nati.chooseMemSub ≤ UInt32.ofNat nati.backToSramThresh ∧
      !nati.holdState then
    let switch := statemach .tblSwitch nati
    if switch.ret = 0 then ⟨0, 0, switch.nati.setState .hybrid⟩
    -- stay in DDR for now
    else ⟨0, 0, switch.nati⟩
  else ⟨0, 0, nati⟩

def smDelRuleHybrid (tblHdl origRuleHdl : Nat) (nati : IpaNatiObj) : SmResult :=
  let sub := nati.chooseMemSub
  let maps := nati.mapPairs sub
  match ipaNatMapDel maps.orig2newMap origRuleHdl with
  | (none, _) => ⟨-1, 0, nati⟩
  | (some newRuleHdl, orig2newMap) =>
    let nati := nati.setMaps sub ⟨orig2newMap, (ipaNatMapDel maps.new2origMap newRuleHdl).2⟩
    let result := smDelRuleFromTbl kernel (nati.hybridTblHdl tblHdl) newRuleHdl nati
    if result.ret = 0 ∧ result.nati.currState = .hybridDdr then
      smBackToSram statemach result.nati
    else result

/-- `_smSwitchFromDdrToSram` and `_smSwitchFromSramToDdr`: change focus, then copy. The
statistics are those of the memory left. -/
def smSwitch (goto : IpaNatiTrigger) (dst : Ipa3NatMemIn) (srcTblHdl dstTblHdl : Nat)
    (nati : IpaNatiObj) : SmResult :=
  let sub := nati.chooseMemSub
  let result := statemach goto nati
  if result.ret = 0 then
    let (ret, nati) := ipaNatiCopyIpv4Tbl kernel srcTblHdl dstTblHdl (result.nati.clearSub dst)
    let stats := nati.swStats sub
    let stats := if ret = 0 then { stats with pass := stats.pass + 1 }
      else { stats with fail := stats.fail + 1 }
    ⟨ret, 0, { nati with swStats := Function.update nati.swStats sub stats }⟩
  else ⟨result.ret, 0, result.nati⟩

def smSwitchFromDdrToSram (nati : IpaNatiObj) : SmResult :=
  smSwitch kernel statemach .gotoSram .sram nati.ddrTblHdl nati.sramTblHdl nati

def smSwitchFromSramToDdr (nati : IpaNatiObj) : SmResult :=
  smSwitch kernel statemach .gotoDdr .ddr nati.sramTblHdl nati.ddrTblHdl nati

/-! ## The machine -/

/-- `_state_mach_tbl`: the callback for a state and a trigger. -/
def stateMachTbl : IpaNatiState → IpaNatiTrigger → IpaNatiObj → SmResult
  | .null, .addTable publicIpAddr numberOfEntries memType =>
    smFirstTbl statemach publicIpAddr numberOfEntries memType
  | .ddrOnly, .addTable publicIpAddr numberOfEntries _ =>
    smAddDdrTbl kernel publicIpAddr numberOfEntries
  | .sramOnly, .addTable publicIpAddr _ _ => smAddSramTbl kernel publicIpAddr
  | .hybrid, .addTable publicIpAddr numberOfEntries _ =>
    smAddSramAndDdrTbl kernel statemach publicIpAddr numberOfEntries
  | .ddrOnly, .delTable tblHdl | .sramOnly, .delTable tblHdl => smDelTbl kernel tblHdl
  | .hybrid, .delTable tblHdl | .hybridDdr, .delTable tblHdl => smDelSramAndDdrTbl kernel tblHdl
  | .ddrOnly, .clrTable tblHdl | .sramOnly, .clrTable tblHdl => smClrTbl tblHdl
  | .hybrid, .clrTable tblHdl | .hybridDdr, .clrTable tblHdl => smClrTblHybrid tblHdl
  | .ddrOnly, .wlkTable tblHdl walk | .sramOnly, .wlkTable tblHdl walk => smWalkTbl tblHdl walk
  | .hybrid, .wlkTable tblHdl walk | .hybridDdr, .wlkTable tblHdl walk =>
    smWalkTblHybrid tblHdl walk
  | .ddrOnly, .tblStats tblHdl | .sramOnly, .tblStats tblHdl => smStatTbl tblHdl
  | .hybrid, .tblStats tblHdl | .hybridDdr, .tblStats tblHdl => smStatTblHybrid tblHdl
  | .ddrOnly, .addRule tblHdl clntRule | .sramOnly, .addRule tblHdl clntRule =>
    smAddRuleToTbl kernel tblHdl clntRule
  | .hybrid, .addRule tblHdl clntRule | .hybridDdr, .addRule tblHdl clntRule =>
    smAddRuleHybrid kernel statemach tblHdl clntRule
  | .ddrOnly, .delRule tblHdl ruleHdl | .sramOnly, .delRule tblHdl ruleHdl =>
    smDelRuleFromTbl kernel tblHdl ruleHdl
  | .hybrid, .delRule tblHdl ruleHdl | .hybridDdr, .delRule tblHdl ruleHdl =>
    smDelRuleHybrid kernel statemach tblHdl ruleHdl
  | .hybrid, .tblSwitch => smSwitchFromSramToDdr kernel statemach
  | .hybridDdr, .tblSwitch => smSwitchFromDdrToSram kernel statemach
  | .hybrid, .gotoDdr | .hybridDdr, .gotoDdr => smGoToDdr kernel
  | .hybrid, .gotoSram | .hybridDdr, .gotoSram => smGoToSram kernel
  | .ddrOnly, .getTstamp tblHdl ruleHdl | .sramOnly, .getTstamp tblHdl ruleHdl =>
    smGetTmStmp tblHdl ruleHdl
  | .hybrid, .getTstamp tblHdl ruleHdl | .hybridDdr, .getTstamp tblHdl ruleHdl =>
    smGetTmStmpHybrid tblHdl ruleHdl
  | _, _ => smUndef

/-- `give_mutex`; locking and unlocking succeed. -/
def giveMutex : Int := 0

/-- The body of `ipa_nati_statemach`. What the callback returned, or that the vote
failed, is overwritten by the result of giving the mutex back. -/
def statemachBody (trigger : IpaNatiTrigger) (nati : IpaNatiObj) : SmResult :=
  if nati.voteRequired trigger then
    let (ret, driver) := ipaNatVoteClock kernel nati.driver
    let nati := { nati with driver := driver }
    if ret ≠ 0 then ⟨giveMutex, 0, nati⟩
    else
      let result := stateMachTbl kernel statemach nati.currState trigger nati
      let (_, driver) := ipaNatVoteClock kernel result.nati.driver
      ⟨giveMutex, result.out, { result.nati with driver := driver }⟩
  else
    let result := stateMachTbl kernel statemach nati.currState trigger nati
    ⟨giveMutex, result.out, result.nati⟩

/-- `ipa_nati_statemach` with triggers nested `depth` deep. -/
def statemachDepth : Nat → IpaNatiTrigger → IpaNatiObj → SmResult
  | 0, _, nati => ⟨-1, 0, nati⟩
  | depth + 1, trigger, nati => statemachBody kernel (statemachDepth depth) trigger nati

/-- `ipa_nati_statemach`; no trigger nests more than three deep. -/
def ipaNatiStatemach : IpaNatiTrigger → IpaNatiObj → SmResult := statemachDepth kernel 3

/-! ## The API -/

def ipaNatiAddIpv4Tbl (publicIpAddr : UInt32) (memType : MemTypeStr) (numberOfEntries : UInt16)
    (nati : IpaNatiObj) : SmResult :=
  ipaNatiStatemach kernel (.addTable publicIpAddr numberOfEntries memType) nati

def ipaNatiAddIpv4Rule (tblHdl : Nat) (clntRule : IpaNatIpv4Rule) (nati : IpaNatiObj) : SmResult :=
  ipaNatiStatemach kernel (.addRule tblHdl clntRule) nati

def ipaNatiDelIpv4Rule (tblHdl ruleHdl : Nat) (nati : IpaNatiObj) : SmResult :=
  ipaNatiStatemach kernel (.delRule tblHdl ruleHdl) nati

end

end QcomModules.Ipanat
