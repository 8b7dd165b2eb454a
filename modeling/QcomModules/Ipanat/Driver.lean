import QcomModules.Ipanat.NatTable

/-! The file-scope state of `ipa_nat_drvi.c` and the functions the state machine calls:
one table cache in DDR and one in SRAM, adding and deleting tables and rules, clearing
and walking a table, focusing the IPA on a table and voting for its clock. -/

namespace QcomModules.Ipanat

/-- What the kernel answers: the result of each request in turn (0 is success), the
hardware version, the SRAM there is and where table memory is placed. -/
structure Kernel where
  request : Nat → Int
  ver : Nat
  sramSize : Nat
  addrOffset : Ipa3NatMemIn → Nat

/-- `struct ipa_nat_cache`; `ipaDesc` is the version held by an open descriptor. -/
structure IpaNatCache where
  ipaDesc : Option Nat
  tableCnt : Nat
  ip4Tbl : IpaNatIp4TableCache

structure NatDriver where
  ipv4NatCache : Ipa3NatMemIn → IpaNatCache
  activeNatCache : Option Ipa3NatMemIn
  pdns : Nat → UInt32
  numPdns : Nat
  hashToken : Nat
  /-- The number of requests made to the kernel so far. -/
  requests : Nat

def ipaNatMaxIp4Tbls : Nat := 1

def makeTblHdl (hdl : Nat) (nmi : Ipa3NatMemIn) : Nat := (nmi.toNat <<< 31) ||| hdl

/-- The memory type that `BREAK_TBL_HDL` finds. -/
def tblHdlNmi (tblHdl : Nat) : Ipa3NatMemIn :=
  if (tblHdl >>> 31) &&& 1 = 1 then .sram else .ddr

def validTblHdl (tblHdl : Nat) : Bool := (tblHdl &&& 0xFF) = ipaNatMaxIp4Tbls

/-- A `nat_table` after `memset`. -/
def zeroTableCache (nmi : Ipa3NatMemIn) : IpaNatIp4TableCache where
  valid := false
  nmi := nmi
  addrOffset := 0
  publicAddr := 0
  tableEntries := 0
  expnTableEntries := 0
  table := ⟨fun _ => default, fun _ => 0, 0, 0⟩
  indexTable := ⟨fun _ => default, fun _ => 0, 0, 0⟩

namespace NatDriver

def setCache (driver : NatDriver) (nmi : Ipa3NatMemIn) (cache : IpaNatCache) : NatDriver :=
  { driver with ipv4NatCache := Function.update driver.ipv4NatCache nmi cache }

def natTable (driver : NatDriver) (nmi : Ipa3NatMemIn) : IpaNatIp4TableCache :=
  (driver.ipv4NatCache nmi).ip4Tbl

def setNatTable (driver : NatDriver) (nmi : Ipa3NatMemIn) (natTable : IpaNatIp4TableCache) :
    NatDriver :=
  driver.setCache nmi { driver.ipv4NatCache nmi with ip4Tbl := natTable }

def request (kernel : Kernel) (driver : NatDriver) : Int × NatDriver :=
  (kernel.request driver.requests, { driver with requests := driver.requests + 1 })

def openDesc (kernel : Kernel) (driver : NatDriver) (nmi : Ipa3NatMemIn) : Int × NatDriver :=
  if (driver.ipv4NatCache nmi).ipaDesc.isSome then (0, driver)
  else
    let (ret, driver) := driver.request kernel
    if ret ≠ 0 then (- EIO, driver)
    else (0, driver.setCache nmi { driver.ipv4NatCache nmi with ipaDesc := some kernel.ver })

def ruleEnv (driver : NatDriver) (nmi : Ipa3NatMemIn) : RuleEnv where
  ver := (driver.ipv4NatCache nmi).ipaDesc.getD 0
  pdns := driver.pdns

end NatDriver

/-! ## Tables -/

/-- `ipa_nati_create_table`: the table memory is allocated by one request. -/
def ipaNatiCreateTable (kernel : Kernel) (driver : NatDriver) (nmi : Ipa3NatMemIn)
    (publicIpAddr : UInt32) (numberOfEntries : Nat) : Int × NatDriver :=
  match ipaTableCalculateEntriesNum numberOfEntries nmi with
  | .error ret => (ret, driver)
  | .ok (tableEntries, expnTableEntries) =>
    let (ret, driver) := driver.request kernel
    if ret ≠ 0 then (ret, driver.setNatTable nmi (zeroTableCache nmi))
    else
      (0, driver.setNatTable nmi
        { zeroTableCache nmi with
          valid := true
          addrOffset := kernel.addrOffset nmi
          publicAddr := publicIpAddr
          tableEntries := tableEntries
          expnTableEntries := expnTableEntries })

def ipaNatiDestroyTable (kernel : Kernel) (driver : NatDriver) (nmi : Ipa3NatMemIn) :
    Int × NatDriver :=
  let (ret, driver) := driver.request kernel
  (ret, driver.setNatTable nmi (zeroTableCache nmi))

def closeDescIfUnused (driver : NatDriver) (nmi : Ipa3NatMemIn) : NatDriver :=
  if (driver.ipv4NatCache nmi).tableCnt = 0 then
    driver.setCache nmi { driver.ipv4NatCache nmi with ipaDesc := none }
  else driver

/-- `ipa_NATI_add_ipv4_tbl`: result, table handle, state. -/
def ipaNATIAddIpv4Tbl (kernel : Kernel) (driver : NatDriver) (nmi : Ipa3NatMemIn)
    (publicIpAddr : UInt32) (numberOfEntries : Nat) : Int × Nat × NatDriver :=
  if (driver.ipv4NatCache nmi).tableCnt ≥ ipaNatMaxIp4Tbls then (-EINVAL, 0, driver)
  else
    let (ret, driver) := driver.openDesc kernel nmi
    if ret ≠ 0 then (ret, 0, driver)
    else
      let (ret, driver) := ipaNatiCreateTable kernel driver nmi publicIpAddr numberOfEntries
      if ret ≠ 0 then (ret, 0, closeDescIfUnused driver nmi)
      else
        -- IPA_IOC_V4_INIT_NAT
        let (ret, driver) := driver.request kernel
        if ret ≠ 0 then
          (ret, 0, closeDescIfUnused (ipaNatiDestroyTable kernel driver nmi).2 nmi)
        else
          let cache := driver.ipv4NatCache nmi
          let driver := driver.setCache nmi { cache with tableCnt := cache.tableCnt + 1 }
          (0, makeTblHdl (cache.tableCnt + 1) nmi,
            { driver with
              activeNatCache := some nmi
              pdns := Function.update driver.pdns 0 publicIpAddr
              numPdns := 1 })

/-- `ipa_NATI_del_ipv4_table`. A handle that names no table of the cache is refused. -/
def ipaNATIDelIpv4Table (kernel : Kernel) (driver : NatDriver) (tblHdl : Nat) : Int × NatDriver :=
  let nmi := tblHdlNmi tblHdl
  if !validTblHdl tblHdl || !(driver.natTable nmi).valid then (-EINVAL, driver)
  else
    let (ret, driver) := ipaNatiDestroyTable kernel driver nmi
    if ret ≠ 0 then (ret, driver)
    else
      let cache := driver.ipv4NatCache nmi
      (0, closeDescIfUnused (driver.setCache nmi { cache with tableCnt := cache.tableCnt - 1 }) nmi)

def IpaNatIp4TableCache.cleared (natTable : IpaNatIp4TableCache) : IpaNatIp4TableCache :=
  { natTable with
    table := { ipaTableReset natTable.table with curTblCnt := 0, curExpnTblCnt := 0 }
    indexTable := { ipaTableReset natTable.indexTable with curTblCnt := 0, curExpnTblCnt := 0 } }

def ipaNATIClearIpv4Tbl (driver : NatDriver) (tblHdl : Nat) : Int × NatDriver :=
  let nmi := tblHdlNmi tblHdl
  if (driver.ipv4NatCache nmi).tableCnt = 0 then (-EINVAL, driver)
  else
    (0, driver.setNatTable nmi (driver.natTable nmi).cleared)

/-- `ipa_NATI_post_ipv4_init_cmd`: focus the IPA on a table. -/
def ipaNATIPostIpv4InitCmd (kernel : Kernel) (driver : NatDriver) (tblHdl : Nat) :
    Int × NatDriver :=
  let nmi := tblHdlNmi tblHdl
  if (driver.ipv4NatCache nmi).tableCnt = 0 then (-EINVAL, driver)
  else
    let (ret, driver) := driver.request kernel
    if ret ≠ 0 then (ret, driver) else (0, { driver with activeNatCache := some nmi })

/-! ## Rules -/

/-- The checks on the rule itself: protocol and PDN. -/
def NatDriver.acceptsRule (driver : NatDriver) (clntRule : IpaNatIpv4Rule) : Bool :=
  clntRule.protocol ≠ natInvalidProtocol && clntRule.pdnIndex.toNat < ipaMaxPdnNum &&
    driver.pdns clntRule.pdnIndex.toNat ≠ 0

/-- `ipa_NATI_add_ipv4_rule`: result, rule handle, state. -/
def ipaNATIAddIpv4Rule (kernel : Kernel) (driver : NatDriver) (tblHdl : Nat)
    (clntRule : IpaNatIpv4Rule) : Int × Nat × NatDriver :=
  let nmi := tblHdlNmi tblHdl
  if !validTblHdl tblHdl then (-EINVAL, 0, driver)
  else if !driver.acceptsRule clntRule then (-EINVAL, 0, driver)
  else if !(driver.natTable nmi).valid then (-EINVAL, 0, driver)
  else
    let result := addRuleLocked (driver.ruleEnv nmi) (kernel.request driver.requests)
      (driver.natTable nmi) driver.hashToken clntRule
    (result.ret, result.ruleHdl,
      { driver.setNatTable nmi result.natTable with
        hashToken := result.hashToken
        requests := if result.posted then driver.requests + 1 else driver.requests })

def ipaNATIDelIpv4Rule (kernel : Kernel) (driver : NatDriver) (tblHdl ruleHdl : Nat) :
    Int × NatDriver :=
  let nmi := tblHdlNmi tblHdl
  if !validTblHdl tblHdl || !(driver.natTable nmi).valid then (-EINVAL, driver)
  else
    let result := delRuleLocked driver.pdns (kernel.request driver.requests)
      (driver.natTable nmi) ruleHdl
    (result.ret,
      { driver.setNatTable nmi result.natTable with
        requests := if result.posted then driver.requests + 1 else driver.requests })

/-- `ipa_NATI_query_timestamp`: result and time stamp. -/
def ipaNATIQueryTimestamp (driver : NatDriver) (tblHdl ruleHdl : Nat) : Int × Nat :=
  let natTable := driver.natTable (tblHdlNmi tblHdl)
  if !validTblHdl tblHdl || !natTable.valid then (-EINVAL, 0)
  else
    let index := ruleHdlIndex natTable.conf ruleHdl
    if index ≥ natTable.conf.totTblEnts then (-EINVAL, 0)
    else (0, (natTable.table.records index).timeStamp)

/-! ## Walking -/

/-- `ipa_NATI_walk_ipv4_tbl` over the NAT table, from a state `σ` that holds the driver. -/
def ipaNATIWalkIpv4Tbl {σ : Type} (driver : σ → NatDriver) (tblHdl : Nat)
    (walkCb : σ → Nat → IpaNatRule → Nat → Int × σ) (s : σ) : Int × σ :=
  let nmi := tblHdlNmi tblHdl
  if !validTblHdl tblHdl then (-EINVAL, s)
  else if ((driver s).ipv4NatCache nmi).tableCnt = 0 then (-EINVAL, s)
  else
    let natTable := (driver s).natTable nmi
    ipaTableWalk (entryInterface (driver s).pdns) natTable.conf
      (fun s i => ((driver s).natTable nmi).table.records i) 0 .whenSlotFilled walkCb s

/-- The same over the index table, with a callback that leaves the driver alone. -/
def ipaNATIWalkIpv4IndexTbl (tblHdl : Nat) (walkCb : Nat → IpaNatIndxTblRule → Nat → Int)
    (driver : NatDriver) : Int :=
  let nmi := tblHdlNmi tblHdl
  if !validTblHdl tblHdl then -EINVAL
  else if (driver.ipv4NatCache nmi).tableCnt = 0 then -EINVAL
  else
    let natTable := driver.natTable nmi
    (ipaTableWalk indexEntryInterface natTable.indexConf
      (fun _ i => natTable.indexTable.records i) 0 .whenSlotFilled
      (fun s hdl rule i => (walkCb hdl rule i, s)) ()).1

/-- The result of `ipa_NATI_ipv4_tbl_stats`, without the figures. Its walks stop with 1
at the first expansion slot, and fail only on a table without slots. -/
def ipaNATIIpv4TblStats (driver : NatDriver) (tblHdl : Nat) : Int :=
  let nmi := tblHdlNmi tblHdl
  if !validTblHdl tblHdl then -EINVAL
  else if (driver.ipv4NatCache nmi).tableCnt = 0 then -EINVAL
  else if (driver.natTable nmi).conf.totTblEnts = 0 then -EINVAL
  else 0

/-! ## SRAM and clock -/

def ipaNatiGetSramSize (kernel : Kernel) (driver : NatDriver) : Int × Nat × NatDriver :=
  let (ret, driver) := driver.openDesc kernel .sram
  if ret ≠ 0 then (ret, 0, driver)
  else
    let (ret, driver) := driver.request kernel
    if ret ≠ 0 then (ret, 0, driver)
    else if kernel.sramSize = 0 then (-EINVAL, 0, driver)
    else (0, kernel.sramSize, driver)

/-- The loop of `ipa_calc_num_sram_table_entries`: the last number of entries whose
tables of 36 bytes a slot fit. -/
def calcNumSramLoop (sramSize : Nat) : Nat → Nat → Nat → Nat
  | 0, _, best => best
  | fuel + 1, tot, best =>
    let slots := get2PowerTightUpperBound tot + getEvenTightUpperBound (tot * 43 / 100)
    if 36 * slots > sramSize then best else calcNumSramLoop sramSize fuel (tot + 1) tot

/-- `ipa_calc_num_sram_table_entries`; a table has more slots than entries, so as many
steps as there are bytes suffice. -/
def ipaCalcNumSramTableEntries (sramSize : Nat) : Int × Nat :=
  let numEntries := calcNumSramLoop sramSize (sramSize + 1) 1 0
  (if numEntries ≠ 0 then 0 else -1, numEntries)

/-- `ipa_nat_vote_clock`, for a vote on or off. -/
def ipaNatVoteClock (kernel : Kernel) (driver : NatDriver) : Int × NatDriver :=
  let (ret, driver) := driver.openDesc kernel .sram
  if ret ≠ 0 then (ret, driver) else driver.request kernel

end QcomModules.Ipanat
