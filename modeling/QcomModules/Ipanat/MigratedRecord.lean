import QcomModules.Ipanat.HybridRuns
import QcomModules.Ipanat.RuleRuns

/-! One rule under `migrate_rule`: which records come out of the copy as they went in. -/

namespace QcomModules.Ipanat

/-- The fields without a type of their width are in range. -/
structure IpaNatRule.InRange (rule : IpaNatRule) : Prop where
  ucActivationIndex : rule.ucActivationIndex < 2 ^ 13
  timeStamp : rule.timeStamp < 2 ^ 24
  pdnIndex : rule.pdnIndex < 2 ^ 4

/-- What `migrate_rule` does not copy is what adding the rule gives it again: the redirect bit is
clear, and the checksums are those of the PDN's present address. -/
structure IpaNatRule.Rebuilt (pdns : Nat → UInt32) (rule : IpaNatRule) : Prop where
  redirect : rule.redirect = false
  ipChksum : rule.ipChksum = ipaNatiCalcIpCksum (pdns rule.pdnIndex) rule.privateIp
  tcpUdpChksum : rule.tcpUdpChksum =
    if rule.protocol = ipprotoTcp ∨ rule.protocol = ipprotoUdp then
      ipaNatiCalcTcpUdpCksum (pdns rule.pdnIndex) rule.publicPort rule.privateIp rule.privatePort
    else 0

theorem IpaNatRule.clientRule_v4Rule_iff {pdns : Nat → UInt32} {rule : IpaNatRule}
    (hrange : rule.InRange) (hlive : rule.live = true) :
    clientRule pdns rule.v4Rule = rule.client ↔ rule.Rebuilt pdns := by
  have hstamp : (UInt32.ofNat rule.timeStamp).toNat % 2 ^ 24 = rule.timeStamp := by
    have := hrange.timeStamp
    rw [UInt32.toNat_ofNat']
    omega
  have huc : (UInt16.ofNat rule.ucActivationIndex).toNat % 2 ^ 13 = rule.ucActivationIndex := by
    have := hrange.ucActivationIndex
    rw [UInt16.toNat_ofNat']
    omega
  have hpdn : (UInt8.ofNat rule.pdnIndex).toNat = rule.pdnIndex := by
    have := hrange.pdnIndex
    rw [UInt8.toNat_ofNat']
    omega
  have hpdn' : rule.pdnIndex % 2 ^ 4 = rule.pdnIndex := Nat.mod_eq_of_lt hrange.pdnIndex
  have henable := IpaNatRule.enable_of_live hlive
  simp only [clientRule, newRule, tableEntryCopyFromUser, IpaNatRule.client, IpaNatRule.content,
    IpaNatRule.v4Rule, hstamp, huc, hpdn, hpdn', henable, IpaNatRule.mk.injEq, true_and]
  constructor
  · rintro ⟨hip, hred, htcp⟩
    exact ⟨hred.symm, hip.symm, htcp.symm⟩
  · intro h
    exact ⟨h.ipChksum.symm, h.redirect.symm, h.tcpUdpChksum.symm⟩

theorem TableReady.addRule_room {kernel : Kernel} {driver : NatDriver} {nmi : Ipa3NatMemIn}
    {links : Links} (h : TableReady driver nmi links)
    (hok : kernel.request driver.requests = 0) (clntRule : IpaNatIpv4Rule) :
    (Accepted driver.pdns clntRule ∧
      HasRoom (driver.ruleEnv nmi) (driver.natTable nmi) driver.hashToken clntRule ∧
      ∃ x links' b driver', ipaNATIAddIpv4Rule kernel driver (makeTblHdl 1 nmi) clntRule =
          (0, b, driver') ∧
        RuleAdded (driver.ruleEnv nmi) (driver.natTable nmi) clntRule x (driver'.natTable nmi)
          links') ∨
    (¬ (Accepted driver.pdns clntRule ∧
        HasRoom (driver.ruleEnv nmi) (driver.natTable nmi) driver.hashToken clntRule) ∧
      ∃ ret driver', ret ≠ 0 ∧
        ipaNATIAddIpv4Rule kernel driver (makeTblHdl 1 nmi) clntRule = (ret, 0, driver') ∧
        driver'.natTable nmi = driver.natTable nmi) := by
  by_cases haccept : driver.acceptsRule clntRule = true
  · have haccepted := (acceptsRule_iff driver clntRule).mp haccept
    rcases h.invariant.addRule_cases 0 driver.hashToken clntRule with
      ⟨hfull, hashToken, hadd⟩ | ⟨hroom, table, x, cmd, indexTable, y, cmd', hnat, hindex, -, hadd⟩
    · refine .inr ⟨fun hboth => hfull hboth.2, -1, _, by decide,
        h.addRule_eq hok haccept hadd, ?_⟩
      exact driver.natTable_setNatTable nmi (driver.natTable nmi)
    · obtain ⟨links', hadded⟩ :=
        h.invariant.inserted haccepted.protocol haccepted.pdnIndex hnat hindex
      rw [if_neg (by simp)] at hadd
      refine .inl ⟨haccepted, hroom, x, links', _, _, h.addRule_eq hok haccept hadd, ?_⟩
      exact (driver.natTable_setNatTable nmi _).symm ▸ hadded
  · refine .inr ⟨fun hboth => haccept ((acceptsRule_iff driver clntRule).mpr hboth.1), -EINVAL,
      driver, by decide, ?_, rfl⟩
    rw [Bool.not_eq_true] at haccept
    simp only [ipaNATIAddIpv4Rule, validTblHdl_makeTblHdl, haccept, Bool.not_true, Bool.not_false,
      Bool.false_eq_true, if_false, if_true]

/-- A slot that was free holds a rule that differs from `rule` in its place alone. -/
def CreatesRecord (natTable natTable' : IpaNatIp4TableCache) (rule : IpaNatRule) : Prop :=
  ∃ x, x < natTable.conf.totTblEnts ∧ (natTable.table.records x).enable = false ∧
    (natTable'.table.records x).live = true ∧ (natTable'.table.records x).client = rule.client

instance (natTable natTable' : IpaNatIp4TableCache) (rule : IpaNatRule) :
    Decidable (CreatesRecord natTable natTable' rule) := by
  unfold CreatesRecord
  infer_instance

theorem CreatesRecord.of_table_eq {natTable natTable' : IpaNatIp4TableCache} {rule : IpaNatRule}
    (h : natTable' = natTable) : ¬ CreatesRecord natTable natTable' rule := by
  rintro ⟨x, -, hfree, hlive, -⟩
  rw [h, IpaNatRule.live, hfree] at hlive
  cases hlive

theorem RuleAdded.creates_iff {env : RuleEnv} {natTable natTable' : IpaNatIp4TableCache}
    {links' : Links} {clntRule : IpaNatIpv4Rule} {x : Nat}
    (h : RuleAdded env natTable clntRule x natTable' links')
    (hproto : clntRule.protocol ≠ natInvalidProtocol) (rule : IpaNatRule) :
    CreatesRecord natTable natTable' rule ↔ clientRule env.pdns clntRule = rule.client := by
  obtain ⟨indxTblEntry, prevIndex, hnew⟩ := h.rule
  have hclient : (natTable'.table.records x).client = clientRule env.pdns clntRule := by
    rw [hnew]
    rfl
  constructor
  · rintro ⟨i, -, hfree, hlive, hrule⟩
    have hix : i = x := by
      by_contra hne
      rw [IpaNatRule.live_of_content (h.others i hne), IpaNatRule.live, hfree] at hlive
      cases hlive
    rw [← hrule, hix, hclient]
  · intro hrule
    refine ⟨x, h.lt, h.free, ?_, hclient.trans hrule⟩
    rw [hnew]
    exact newRule_live env.pdns hproto indxTblEntry prevIndex

section
variable {kernel : Kernel} {nati : IpaNatiObj} {src : Ipa3NatMemIn} {dstTblHdl tblRuleHdl i : Nat}
  {rule : IpaNatRule}

theorem migrateRule_unmapped (hmap : (nati.mapPairs src).new2origMap tblRuleHdl = none) :
    (migrateRule kernel dstTblHdl src nati tblRuleHdl rule i).2 = nati := by
  rw [migrateRule]
  split
  · rfl
  · rw [hmap]

theorem migrateRule_driver (hproto : rule.protocol ≠ natInvalidProtocol) {a : Nat}
    (hmap : (nati.mapPairs src).new2origMap tblRuleHdl = some a) :
    (migrateRule kernel dstTblHdl src nati tblRuleHdl rule i).2.driver =
      (ipaNATIAddIpv4Rule kernel nati.driver dstTblHdl rule.v4Rule).2.2 := by
  simp only [migrateRule, if_neg hproto, hmap]
  split
  · rfl
  · split <;> rfl

end

/-- `migrate_rule` creates the record again exactly where its handle is mapped, its PDN has an
address, it has room and it is what its rebuilding gives. -/
theorem migrateRule_creates_iff {kernel : Kernel} {nati : IpaNatiObj} {src : Ipa3NatMemIn}
    {linksDst : Links} {i : Nat} {rule : IpaNatRule}
    (hok : kernel.request nati.driver.requests = 0)
    (hdst : TableReady nati.driver src.other linksDst)
    (hlive : rule.live = true)
    (hrange : rule.InRange) :
    CreatesRecord (nati.driver.natTable src.other)
        ((migrateRule kernel (makeTblHdl 1 src.other) src nati
          (makeEntryHdl (nati.driver.natTable src).conf i) rule i).2.driver.natTable src.other)
        rule ↔
      (nati.mapPairs src).new2origMap (makeEntryHdl (nati.driver.natTable src).conf i) ≠ none ∧
        nati.driver.pdns rule.pdnIndex ≠ 0 ∧
        HasRoom (nati.driver.ruleEnv src.other) (nati.driver.natTable src.other)
          nati.driver.hashToken rule.v4Rule ∧
        rule.Rebuilt nati.driver.pdns := by
  have hproto : rule.protocol ≠ natInvalidProtocol := by
    simp only [IpaNatRule.live, Bool.and_eq_true, bne_iff_ne] at hlive
    exact hlive.2
  have haccepted : Accepted nati.driver.pdns rule.v4Rule ↔
      nati.driver.pdns rule.pdnIndex ≠ 0 := by
    have hpdn : rule.v4Rule.pdnIndex.toNat = rule.pdnIndex := by
      have := hrange.pdnIndex
      change (UInt8.ofNat rule.pdnIndex).toNat = rule.pdnIndex
      rw [UInt8.toNat_ofNat']
      omega
    constructor
    · exact fun h => hpdn ▸ h.publicIp
    · refine fun h => ⟨hproto, ?_, ?_⟩
      · rw [hpdn]
        exact hrange.pdnIndex
      · rw [hpdn]
        exact h
  cases hmap : (nati.mapPairs src).new2origMap
      (makeEntryHdl (nati.driver.natTable src).conf i) with
  | none =>
    rw [migrateRule_unmapped hmap]
    exact iff_of_false (CreatesRecord.of_table_eq rfl) fun h => h.1 rfl
  | some a =>
    rw [migrateRule_driver hproto hmap]
    rcases hdst.addRule_room hok rule.v4Rule with
      ⟨haccept, hroom, x, links', b, driver', hadd, hadded⟩ |
        ⟨hnot, ret, driver', -, hadd, htable⟩
    · rw [hadd, hadded.creates_iff hproto]
      have hiff : clientRule nati.driver.pdns rule.v4Rule = rule.client ↔
          rule.Rebuilt nati.driver.pdns := rule.clientRule_v4Rule_iff hrange hlive
      exact hiff.trans ⟨fun h => ⟨Option.some_ne_none a, haccepted.mp haccept, hroom, h⟩,
        fun h => h.2.2.2⟩
    · rw [hadd]
      exact iff_of_false (CreatesRecord.of_table_eq htable)
        fun h => hnot ⟨haccepted.mpr h.2.1, h.2.2.1⟩

def sramRule : Int × Nat × NatDriver :=
  ipaNATIAddIpv4Rule sampleKernel (ipaNATIAddIpv4Tbl sampleKernel sampleDriver .sram 1 2).2.2
    (makeTblHdl 1 .sram) (sampleRule 1)

/-- The same with the FIN/RST bit that the IPA may set in the record. -/
def sramDriver (redirect : Bool) : NatDriver :=
  let natTable := sramRule.2.2.natTable .sram
  let i := ruleHdlIndex natTable.conf sramRule.2.1
  sramRule.2.2.setNatTable .sram
    { natTable with
      table := { natTable.table with
        records := Function.update natTable.table.records i
          { natTable.table.records i with redirect := redirect } } }

def ddrTbl (redirect : Bool) : Int × Nat × NatDriver :=
  ipaNATIAddIpv4Tbl sampleKernel (sramDriver redirect) .ddr 1 2

theorem ddrTbl_eq (redirect : Bool) :
    ipaNATIAddIpv4Tbl sampleKernel (sramDriver redirect) .ddr 1 2 =
      (0, makeTblHdl 1 .ddr, (ddrTbl redirect).2.2) := by
  cases redirect <;> exact Prod.ext (by decide +kernel) (Prod.ext (by decide +kernel) rfl)

/-- An empty table in DDR beside the rule in SRAM. -/
def migrationStart (redirect : Bool) : IpaNatiObj :=
  { unstartedNati with
    driver := (ddrTbl redirect).2.2
    mapPairs := Function.update unstartedNati.mapPairs .sram
      ⟨Function.update (fun _ => none) sramRule.2.1 (some sramRule.2.1),
        Function.update (fun _ => none) sramRule.2.1 (some sramRule.2.1)⟩ }

def sramRecord (redirect : Bool) : IpaNatRule :=
  let natTable := (migrationStart redirect).driver.natTable .sram
  natTable.table.records (ruleHdlIndex natTable.conf sramRule.2.1)

def migrated (redirect : Bool) : Int × IpaNatiObj :=
  let natTable := (migrationStart redirect).driver.natTable .sram
  let i := ruleHdlIndex natTable.conf sramRule.2.1
  migrateRule sampleKernel (makeTblHdl 1 .ddr) .sram (migrationStart redirect)
    (makeEntryHdl natTable.conf i) (sramRecord redirect) i

theorem sramRecord_migrated :
    (sramRecord false).Rebuilt (migrationStart false).driver.pdns := by
  have hok : sampleKernel.request (migrationStart false).driver.requests = 0 := rfl
  have hdst : TableReady (migrationStart false).driver Ipa3NatMemIn.sram.other emptyLinks :=
    (tableReady_of_addTbl (ddrTbl_eq false)).2.1
  let i := ruleHdlIndex ((migrationStart false).driver.natTable .sram).conf sramRule.2.1
  have hcreated : CreatesRecord ((migrationStart false).driver.natTable Ipa3NatMemIn.sram.other)
      ((migrateRule sampleKernel (makeTblHdl 1 Ipa3NatMemIn.sram.other) .sram
        (migrationStart false)
        (makeEntryHdl ((migrationStart false).driver.natTable .sram).conf i) (sramRecord false)
        i).2.driver.natTable Ipa3NatMemIn.sram.other) (sramRecord false) := by
    decide +kernel
  exact ((migrateRule_creates_iff hok hdst (by decide +kernel)
    ⟨by decide +kernel, by decide +kernel, by decide +kernel⟩).mp hcreated).2.2.2

/-- The FIN/RST bit of a rule is lost: the DMA command that enables the new record clears it. -/
theorem finRst_not_migrated :
    (sramRecord true).live = true ∧ (migrated true).1 = 0 ∧
      ¬ CreatesRecord ((migrationStart true).driver.natTable .ddr)
        ((migrated true).2.driver.natTable .ddr) (sramRecord true) := by
  decide +kernel

end QcomModules.Ipanat
