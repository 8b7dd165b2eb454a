import QcomModules.Ipanat.Driver
import QcomModules.Ipanat.RuleTables

/-! The driver's functions on a table that satisfies the invariant: creating the table,
adding and deleting rules. -/

namespace QcomModules.Ipanat

namespace NatDriver

variable (driver : NatDriver) (nmi : Ipa3NatMemIn) (natTable : IpaNatIp4TableCache)

@[simp]
theorem natTable_setNatTable : (driver.setNatTable nmi natTable).natTable nmi = natTable := by
  simp [NatDriver.natTable, setNatTable, setCache]

@[simp]
theorem ruleEnv_setNatTable (nmi' : Ipa3NatMemIn) :
    (driver.setNatTable nmi natTable).ruleEnv nmi' = driver.ruleEnv nmi' := by
  by_cases h : nmi' = nmi
  · simp [ruleEnv, setNatTable, setCache, h]
  · simp [ruleEnv, setNatTable, setCache, h]

@[simp]
theorem tableCnt_setNatTable (nmi' : Ipa3NatMemIn) :
    ((driver.setNatTable nmi natTable).ipv4NatCache nmi').tableCnt =
      (driver.ipv4NatCache nmi').tableCnt := by
  by_cases h : nmi' = nmi
  · simp [setNatTable, setCache, h]
  · simp [setNatTable, setCache, h]

@[simp]
theorem ipaDesc_setNatTable (nmi' : Ipa3NatMemIn) :
    ((driver.setNatTable nmi natTable).ipv4NatCache nmi').ipaDesc =
      (driver.ipv4NatCache nmi').ipaDesc := by
  by_cases h : nmi' = nmi
  · simp [setNatTable, setCache, h]
  · simp [setNatTable, setCache, h]

theorem natTable_setNatTable_of_ne {nmi' : Ipa3NatMemIn} (h : nmi' ≠ nmi) :
    (driver.setNatTable nmi natTable).natTable nmi' = driver.natTable nmi' := by
  simp [NatDriver.natTable, setNatTable, setCache, h]

@[simp]
theorem setNatTable_self : driver.setNatTable nmi (driver.natTable nmi) = driver := by
  simp [NatDriver.natTable, setNatTable, setCache]

end NatDriver

theorem validTblHdl_makeTblHdl (nmi : Ipa3NatMemIn) : validTblHdl (makeTblHdl 1 nmi) = true := by
  cases nmi <;> decide

@[simp]
theorem tblHdlNmi_makeTblHdl (nmi : Ipa3NatMemIn) : tblHdlNmi (makeTblHdl 1 nmi) = nmi := by
  cases nmi <;> decide

/-- The cache holds a table in good order. -/
structure TableReady (driver : NatDriver) (nmi : Ipa3NatMemIn) (links : Links) : Prop where
  valid : (driver.natTable nmi).valid = true
  memory : (driver.natTable nmi).nmi = nmi
  tableCnt : (driver.ipv4NatCache nmi).tableCnt = 1
  invariant : NatInvariant (driver.ruleEnv nmi) (driver.natTable nmi) links

section
variable {kernel : Kernel} {driver : NatDriver} {nmi : Ipa3NatMemIn} {links : Links}

theorem TableReady.setNatTable (h : TableReady driver nmi links)
    {natTable : IpaNatIp4TableCache}
    (hsame : natTable = { driver.natTable nmi with
      table := natTable.table
      indexTable := natTable.indexTable })
    {links' : Links} (hinv : NatInvariant (driver.ruleEnv nmi) natTable links')
    (hashToken requests : Nat) :
    TableReady { driver.setNatTable nmi natTable with
      hashToken := hashToken
      requests := requests } nmi links' where
  valid := by
    change ((driver.setNatTable nmi natTable).natTable nmi).valid = true
    rw [NatDriver.natTable_setNatTable, hsame]
    exact h.valid
  memory := by
    change ((driver.setNatTable nmi natTable).natTable nmi).nmi = nmi
    rw [NatDriver.natTable_setNatTable, hsame]
    exact h.memory
  tableCnt := (driver.tableCnt_setNatTable nmi natTable nmi).trans h.tableCnt
  invariant := by
    change NatInvariant ((driver.setNatTable nmi natTable).ruleEnv nmi)
      ((driver.setNatTable nmi natTable).natTable nmi) links'
    rw [NatDriver.natTable_setNatTable, NatDriver.ruleEnv_setNatTable]
    exact hinv

theorem TableReady.setNatTable_of_ne (h : TableReady driver nmi links) {nmi' : Ipa3NatMemIn}
    (hne : nmi ≠ nmi') (natTable : IpaNatIp4TableCache) (hashToken requests : Nat) :
    TableReady { driver.setNatTable nmi' natTable with
      hashToken := hashToken
      requests := requests } nmi links := by
  have htable := driver.natTable_setNatTable_of_ne nmi' natTable hne
  refine ⟨?_, ?_, (driver.tableCnt_setNatTable nmi' natTable nmi).trans h.tableCnt, ?_⟩
  · exact (congrArg IpaNatIp4TableCache.valid htable).trans h.valid
  · exact (congrArg IpaNatIp4TableCache.nmi htable).trans h.memory
  · change NatInvariant ((driver.setNatTable nmi' natTable).ruleEnv nmi)
      ((driver.setNatTable nmi' natTable).natTable nmi) links
    rw [htable, NatDriver.ruleEnv_setNatTable]
    exact h.invariant

/-! ## A new table -/

theorem occupied_empty (a b : Nat) : Library.occupied a b (fun _ => false) = 0 := by
  simp [Library.occupied]

theorem tableInvariant_empty {ε υ : Type} [Inhabited ε] {ei : IpaTableEntryInterface ε υ}
    (hfree : ei.entryIsValid default = false) (conf : IpaTableConf) (metaPrev : Nat → Nat) :
    TableInvariant ei conf ⟨fun _ => default, metaPrev, 0, 0⟩ (fun _ => 0) id := by
  have hocc : (⟨fun _ => default, metaPrev, 0, 0⟩ : IpaTable ε).occ ei = fun _ => false :=
    funext fun _ => hfree
  refine ⟨?_, fun _ _ => rfl, ?_, ?_⟩
  · rw [hocc]
    constructor <;> simp
  · rw [hocc, occupied_empty]
    rfl
  · rw [hocc, occupied_empty]
    rfl

def emptyLinks : Links := ⟨fun _ => 0, id, fun _ => 0, id⟩

theorem natInvariant_empty (env : RuleEnv) {natTable : IpaNatIp4TableCache}
    (hdims : DimsOk natTable.tableEntries natTable.expnTableEntries)
    {metaPrev metaPrev' : Nat → Nat}
    (htable : natTable.table = ⟨fun _ => default, metaPrev, 0, 0⟩)
    (hindex : natTable.indexTable = ⟨fun _ => default, metaPrev', 0, 0⟩) :
    NatInvariant env natTable emptyLinks where
  dims := hdims
  table := by
    rw [htable]
    exact tableInvariant_empty rfl _ _
  indexTable := by
    rw [hindex]
    exact tableInvariant_empty rfl _ _
  deadHeads i hdead := by simp [htable] at hdead
  live_index i hlive := by simp [htable] at hlive
  index_live j hj := by simp [hindex] at hj
  dst i hlive := by simp [htable] at hlive
  src i hlive := by simp [htable] at hlive

variable {publicIpAddr : UInt32} {numberOfEntries tblHdl ruleHdl : Nat} {driver' : NatDriver}

theorem ipaNatiCreateTable_ok
    (h : ipaNatiCreateTable kernel driver nmi publicIpAddr numberOfEntries = (0, driver')) :
    ∃ tableEntries expnTableEntries, DimsOk tableEntries expnTableEntries ∧
      driver' = (driver.request kernel).2.setNatTable nmi
        { zeroTableCache nmi with
          valid := true
          addrOffset := kernel.addrOffset nmi
          publicAddr := publicIpAddr
          tableEntries := tableEntries
          expnTableEntries := expnTableEntries } := by
  rw [ipaNatiCreateTable] at h
  split at h
  · next ret hcalc =>
      simp only [Prod.mk.injEq] at h
      simp only [ipaTableCalculateEntriesNum] at hcalc
      split_ifs at hcalc <;> (cases hcalc; exact absurd h.1 (by decide))
  · next tableEntries expnTableEntries hcalc =>
      simp only at h
      split at h
      · next hne => exact absurd (congrArg Prod.fst h) hne
      · exact ⟨_, _, dimsOk_of_calculateEntriesNum hcalc, (congrArg Prod.snd h).symm⟩

def newCache (kernel : Kernel) (nmi : Ipa3NatMemIn) (publicIpAddr : UInt32)
    (tableEntries expnTableEntries : Nat) (ipaDesc : Option Nat) : IpaNatCache where
  ipaDesc := ipaDesc
  tableCnt := 1
  ip4Tbl :=
    { zeroTableCache nmi with
      valid := true
      addrOffset := kernel.addrOffset nmi
      publicAddr := publicIpAddr
      tableEntries := tableEntries
      expnTableEntries := expnTableEntries }

theorem openDesc_ok (h : (driver.openDesc kernel nmi).1 = 0) :
    ∃ ver requests, (driver.openDesc kernel nmi).2 =
      { driver.setCache nmi { driver.ipv4NatCache nmi with ipaDesc := some ver } with
        requests := requests } := by
  rw [NatDriver.openDesc] at h ⊢
  split
  · next hopen =>
      obtain ⟨ver, hver⟩ := Option.isSome_iff_exists.mp hopen
      refine ⟨ver, driver.requests, ?_⟩
      have hcache : ({ driver.ipv4NatCache nmi with ipaDesc := some ver } : IpaNatCache) =
          driver.ipv4NatCache nmi := by
        rw [← hver]
      rw [hcache, NatDriver.setCache, Function.update_eq_self]
  · next hopen =>
      rw [if_neg hopen] at h
      by_cases hret : kernel.request driver.requests = 0
      · refine ⟨kernel.ver, driver.requests + 1, ?_⟩
        simp [NatDriver.request, hret, NatDriver.setCache]
      · simp [NatDriver.request, hret, EIO] at h

theorem addTbl_ok
    (h : ipaNATIAddIpv4Tbl kernel driver nmi publicIpAddr numberOfEntries = (0, tblHdl, driver')) :
    tblHdl = makeTblHdl 1 nmi ∧ ∃ tableEntries expnTableEntries ver requests,
      DimsOk tableEntries expnTableEntries ∧
      driver' =
        { driver.setCache nmi (newCache kernel nmi publicIpAddr tableEntries expnTableEntries
            (some ver)) with
          activeNatCache := some nmi
          pdns := Function.update driver.pdns 0 publicIpAddr
          numPdns := 1
          requests := requests } := by
  rw [ipaNATIAddIpv4Tbl] at h
  split at h
  · cases congrArg Prod.fst h
  · next hcnt =>
      have hcnt0 : (driver.ipv4NatCache nmi).tableCnt = 0 := by
        rw [ipaNatMaxIp4Tbls] at hcnt
        omega
      simp only at h
      split at h
      · next hne => exact absurd (congrArg Prod.fst h) hne
      · next hopen =>
          obtain ⟨ver, requests, hdesc⟩ := openDesc_ok (not_not.mp hopen)
          rw [hdesc] at h
          split at h
          · next hne => exact absurd (congrArg Prod.fst h) hne
          · next hcreate =>
              rw [ne_eq, not_not] at hcreate
              obtain ⟨tableEntries, expnTableEntries, hdims, hdriver⟩ :=
                ipaNatiCreateTable_ok (Prod.ext hcreate rfl)
              simp only [hdriver] at h
              split at h
              · next hne => exact absurd (congrArg Prod.fst h) hne
              · simp only [NatDriver.request, NatDriver.setNatTable, NatDriver.setCache,
                  Function.update_self, Function.update_idem, Prod.mk.injEq, true_and, hcnt0] at h
                obtain ⟨rfl, rfl⟩ := h
                exact ⟨rfl, tableEntries, expnTableEntries, ver, _, hdims, rfl⟩

theorem tableReady_of_newCache {tableEntries expnTableEntries : Nat} {ipaDesc : Option Nat}
    (hdims : DimsOk tableEntries expnTableEntries) (hcache : driver.ipv4NatCache nmi =
      newCache kernel nmi publicIpAddr tableEntries expnTableEntries ipaDesc) :
    TableReady driver nmi emptyLinks ∧ ∀ i, (driver.natTable nmi).table.records i = default := by
  refine ⟨⟨?_, ?_, ?_, ?_⟩, ?_⟩
  · rw [NatDriver.natTable, hcache]
    rfl
  · rw [NatDriver.natTable, hcache]
    rfl
  · rw [hcache]
    rfl
  · rw [NatDriver.natTable, hcache]
    exact natInvariant_empty _ hdims rfl rfl
  · intro i
    rw [NatDriver.natTable, hcache]
    rfl

theorem tableReady_of_addTbl
    (h : ipaNATIAddIpv4Tbl kernel driver nmi publicIpAddr numberOfEntries = (0, tblHdl, driver')) :
    tblHdl = makeTblHdl 1 nmi ∧ TableReady driver' nmi emptyLinks ∧
      ∀ i, (driver'.natTable nmi).table.records i = default := by
  obtain ⟨htbl, tableEntries, expnTableEntries, ver, requests, hdims, rfl⟩ := addTbl_ok h
  exact ⟨htbl, tableReady_of_newCache hdims (Function.update_self nmi _ driver.ipv4NatCache)⟩

/-! ## Rules -/

theorem TableReady.addRule (h : TableReady driver nmi links)
    (hok : kernel.request driver.requests = 0) (clntRule : IpaNatIpv4Rule) :
    (∃ x links' hashToken natTable',
      ipaNATIAddIpv4Rule kernel driver (makeTblHdl 1 nmi) clntRule =
        (0, makeEntryHdl (driver.natTable nmi).conf x,
          { driver.setNatTable nmi natTable' with
            hashToken := hashToken
            requests := driver.requests + 1 }) ∧
      clntRule.protocol ≠ natInvalidProtocol ∧
      RuleAdded (driver.ruleEnv nmi) (driver.natTable nmi) clntRule x natTable' links') ∨
    ∃ ret hashToken, ret ≠ 0 ∧
      ipaNATIAddIpv4Rule kernel driver (makeTblHdl 1 nmi) clntRule =
        (ret, 0, { driver with hashToken := hashToken }) := by
  simp only [ipaNATIAddIpv4Rule, tblHdlNmi_makeTblHdl, validTblHdl_makeTblHdl, Bool.not_true,
    Bool.false_eq_true, if_false, h.valid]
  by_cases haccept : driver.acceptsRule clntRule = true
  · simp only [haccept, Bool.not_true, Bool.false_eq_true, if_false, hok]
    simp only [NatDriver.acceptsRule, Bool.and_eq_true, decide_eq_true_eq] at haccept
    obtain ⟨⟨hproto, hpdn⟩, -⟩ := haccept
    rcases h.invariant.addRule hproto hpdn driver.hashToken with
      ⟨x, links', hashToken, natTable', hadd, hadded⟩ | ⟨hashToken, hadd⟩
    · rw [hadd]
      exact .inl ⟨x, links', hashToken, natTable', rfl, hproto, hadded⟩
    · rw [hadd]
      refine .inr ⟨-1, hashToken, by decide, ?_⟩
      simp only [NatDriver.setNatTable_self, Bool.false_eq_true, if_false]
  · rw [Bool.not_eq_true] at haccept
    simp only [haccept, Bool.not_false, if_true]
    exact .inr ⟨-EINVAL, driver.hashToken, by decide, rfl⟩

theorem TableReady.addRule_eq (h : TableReady driver nmi links)
    (hok : kernel.request driver.requests = 0) {clntRule : IpaNatIpv4Rule}
    (haccept : driver.acceptsRule clntRule = true) {result : AddRuleResult}
    (hresult : addRuleLocked (driver.ruleEnv nmi) 0 (driver.natTable nmi) driver.hashToken
      clntRule = result) :
    ipaNATIAddIpv4Rule kernel driver (makeTblHdl 1 nmi) clntRule =
      (result.ret, result.ruleHdl,
        { driver.setNatTable nmi result.natTable with
          hashToken := result.hashToken
          requests := if result.posted then driver.requests + 1 else driver.requests }) := by
  simp only [ipaNATIAddIpv4Rule, tblHdlNmi_makeTblHdl, validTblHdl_makeTblHdl, Bool.not_true,
    Bool.false_eq_true, if_false, h.valid, haccept, hok, hresult]

theorem TableReady.delRule_live (h : TableReady driver nmi links)
    (hok : kernel.request driver.requests = 0) (hlive : ((driver.natTable nmi).table.records
      (ruleHdlIndex (driver.natTable nmi).conf ruleHdl)).live = true) :
    ∃ natTable', ipaNATIDelIpv4Rule kernel driver (makeTblHdl 1 nmi) ruleHdl =
        (0, { driver.setNatTable nmi natTable' with requests := driver.requests + 1 }) ∧
      RuleDeleted (driver.ruleEnv nmi) (driver.natTable nmi)
        (ruleHdlIndex (driver.natTable nmi).conf ruleHdl) natTable' links := by
  obtain ⟨natTable', hdel, hdeleted⟩ := h.invariant.delRule_live hlive
  refine ⟨natTable', ?_, hdeleted⟩
  have henv : (driver.ruleEnv nmi).pdns = driver.pdns := rfl
  rw [henv] at hdel
  simp only [ipaNATIDelIpv4Rule, tblHdlNmi_makeTblHdl, validTblHdl_makeTblHdl, h.valid, hok, hdel,
    Bool.not_true, Bool.or_self, Bool.false_eq_true, if_false, if_true]

theorem TableReady.delRule_free (h : TableReady driver nmi links)
    (hfree : ((driver.natTable nmi).table.records
      (ruleHdlIndex (driver.natTable nmi).conf ruleHdl)).enable = false) :
    ipaNATIDelIpv4Rule kernel driver (makeTblHdl 1 nmi) ruleHdl = (-EINVAL, driver) := by
  simp only [ipaNATIDelIpv4Rule, tblHdlNmi_makeTblHdl, validTblHdl_makeTblHdl, h.valid,
    delRuleLocked_free hfree, Bool.not_true, Bool.or_self, Bool.false_eq_true, if_false,
    NatDriver.setNatTable_self]

end

end QcomModules.Ipanat
