import QcomModules.Ipanat.DriverRules
import QcomModules.Library.Runs

/-! Runs of `ipa_NATI_add_ipv4_rule` and `ipa_NATI_del_ipv4_rule` on one table, and what
holds of both tables in every state they reach. -/

namespace QcomModules.Ipanat

open Library

/-! ## Runs -/

inductive RuleCall where
  | add (clntRule : IpaNatIpv4Rule)
  | del (ruleHdl : Nat)

/-- The driver, and the slots whose handle has been deleted and not given out since. -/
structure RuleRun where
  driver : NatDriver
  deleted : Nat → Bool

namespace RuleRun

def slot (s : RuleRun) (tblHdl ruleHdl : Nat) : Nat :=
  ruleHdlIndex (s.driver.natTable (tblHdlNmi tblHdl)).conf ruleHdl

def step (kernel : Kernel) (tblHdl : Nat) (s : RuleRun) : RuleCall → RuleRun
  | .add clntRule =>
    let (ret, ruleHdl, driver) := ipaNATIAddIpv4Rule kernel s.driver tblHdl clntRule
    ⟨driver, if ret = 0 then Function.update s.deleted (s.slot tblHdl ruleHdl) false
      else s.deleted⟩
  | .del ruleHdl =>
    let (ret, driver) := ipaNATIDelIpv4Rule kernel s.driver tblHdl ruleHdl
    ⟨driver, if ret = 0 then Function.update s.deleted (s.slot tblHdl ruleHdl) true
      else s.deleted⟩

/-- No handle is deleted that has been deleted before. -/
def DeletesOnce (tblHdl : Nat) (s : RuleRun) : RuleCall → Prop
  | .add _ => True
  | .del ruleHdl => s.deleted (s.slot tblHdl ruleHdl) = false

def Reaches (kernel : Kernel) (tblHdl : Nat) (driver : NatDriver) (s : RuleRun) : Prop :=
  Relation.ReflTransGen (GuardedStep (DeletesOnce tblHdl) (step kernel tblHdl))
    ⟨driver, fun _ => false⟩ s

structure Ok (nmi : Ipa3NatMemIn) (requests : Nat) (s : RuleRun) : Prop where
  ready : ∃ links, TableReady s.driver nmi links
  requests_le : requests ≤ s.driver.requests
  dead_deleted : ∀ i, ((s.driver.natTable nmi).table.records i).dead = true → s.deleted i = true

variable {kernel : Kernel} {nmi : Ipa3NatMemIn} {requests : Nat} {s : RuleRun}

theorem Ok.add (h : s.Ok nmi requests) (hok : ∀ i, requests ≤ i → kernel.request i = 0)
    (clntRule : IpaNatIpv4Rule) :
    (s.step kernel (makeTblHdl 1 nmi) (.add clntRule)).Ok nmi requests := by
  obtain ⟨links, hready⟩ := h.ready
  rcases hready.addRule (hok _ h.requests_le) clntRule with
    ⟨x, links', hashToken, natTable', hadd, hproto, hadded⟩ | ⟨ret, hashToken, hret, hadd⟩
  · have hslot : s.slot (makeTblHdl 1 nmi) (makeEntryHdl (s.driver.natTable nmi).conf x) = x := by
      rw [slot, tblHdlNmi_makeTblHdl]
      exact ruleHdlIndex_makeEntryHdl hready.invariant.dims hadded.lt
    simp only [step, hadd, if_true, hslot]
    refine ⟨⟨links', hready.setNatTable hadded.same hadded.invariant _ _⟩,
      Nat.le_succ_of_le h.requests_le, ?_⟩
    intro i hdead
    change
      (((s.driver.setNatTable nmi natTable').natTable nmi).table.records i).dead = true at hdead
    rw [NatDriver.natTable_setNatTable] at hdead
    by_cases hi : i = x
    · obtain ⟨indxTblEntry, prevIndex, hnew⟩ := hadded.rule
      rw [hi, hnew, newRule_dead _ hproto] at hdead
      cases hdead
    · rw [IpaNatRule.dead_of_content (hadded.others i hi)] at hdead
      simpa [hi] using h.dead_deleted i hdead
  · simp only [step, hadd, if_neg hret]
    exact ⟨⟨links, ⟨hready.valid, hready.memory, hready.tableCnt, hready.invariant⟩⟩,
      h.requests_le, h.dead_deleted⟩

theorem Ok.del (h : s.Ok nmi requests) (hok : ∀ i, requests ≤ i → kernel.request i = 0)
    {ruleHdl : Nat} (honce : s.DeletesOnce (makeTblHdl 1 nmi) (.del ruleHdl)) :
    (s.step kernel (makeTblHdl 1 nmi) (.del ruleHdl)).Ok nmi requests := by
  obtain ⟨links, hready⟩ := h.ready
  rw [DeletesOnce, slot, tblHdlNmi_makeTblHdl] at honce
  cases henable : ((s.driver.natTable nmi).table.records
      (ruleHdlIndex (s.driver.natTable nmi).conf ruleHdl)).enable with
  | false =>
    have hret : -EINVAL ≠ 0 := by decide
    simp only [step, hready.delRule_free henable, if_neg hret]
    exact h
  | true =>
    have hlive : ((s.driver.natTable nmi).table.records
        (ruleHdlIndex (s.driver.natTable nmi).conf ruleHdl)).live = true := by
      rw [← Bool.not_eq_false]
      intro hnot
      have hdead := h.dead_deleted _ (IpaNatRule.dead_of_not_live henable hnot)
      rw [honce] at hdead
      cases hdead
    obtain ⟨natTable', hdel, hdeleted⟩ := hready.delRule_live (hok _ h.requests_le) hlive
    simp only [step, hdel, if_true, slot, tblHdlNmi_makeTblHdl]
    refine ⟨⟨links, hready.setNatTable hdeleted.same hdeleted.invariant _ _⟩,
      Nat.le_succ_of_le h.requests_le, ?_⟩
    intro i hdead
    change (((s.driver.setNatTable nmi natTable').natTable nmi).table.records i).dead = true
      at hdead
    rw [NatDriver.natTable_setNatTable] at hdead
    rcases hdeleted.dead i hdead with hi | hold
    · simp [hi]
    · by_cases hi : i = ruleHdlIndex (s.driver.natTable nmi).conf ruleHdl
      · simp [hi]
      · simpa [hi] using h.dead_deleted i hold

theorem ready_of_reaches {driver driver' : NatDriver} {publicIpAddr : UInt32}
    {numberOfEntries tblHdl : Nat}
    (htbl : ipaNATIAddIpv4Tbl kernel driver nmi publicIpAddr numberOfEntries =
      (0, tblHdl, driver'))
    (hok : ∀ i, driver'.requests ≤ i → kernel.request i = 0)
    (hrun : Reaches kernel tblHdl driver' s) :
    ∃ links, TableReady s.driver nmi links := by
  obtain ⟨rfl, hready, hempty⟩ := tableReady_of_addTbl htbl
  have hinit : Ok nmi driver'.requests ⟨driver', fun _ => false⟩ := by
    refine ⟨⟨emptyLinks, hready⟩, le_refl _, ?_⟩
    intro i hdead
    simp only [hempty i, default_dead] at hdead
    cases hdead
  refine (invariant_of_guarded ?_ hinit hrun).ready
  intro s call h honce
  cases call with
  | add clntRule => exact h.add hok clntRule
  | del ruleHdl => exact h.del hok honce

end RuleRun

/-! ## The chains of both tables -/

/-- The chains of a table end, cover its expansion slots once and are linked both ways,
and its counters count. -/
structure WellFormedTable {ε υ : Type} (ei : IpaTableEntryInterface ε υ) (conf : IpaTableConf)
    (table : IpaTable ε) : Prop where
  chains : WellFormedChains conf.tableEntries (table.occ ei) (table.next ei) (table.prev ei conf)
  curTblCnt : table.curTblCnt.toNat = occupied 0 conf.tableEntries (table.occ ei)
  curExpnTblCnt : table.curExpnTblCnt.toNat =
    occupied conf.tableEntries conf.totTblEnts (table.occ ei)

theorem TableInvariant.wellFormed {ε υ : Type} [Inhabited ε] {ei : IpaTableEntryInterface ε υ}
    {conf : IpaTableConf} {table : IpaTable ε} {rank root : Nat → Nat}
    (h : TableInvariant ei conf table rank root)
    (hdims : DimsOk conf.tableEntries conf.expnTableEntries) : WellFormedTable ei conf table where
  chains := h.linked.wellFormed
  curTblCnt := by
    rw [h.curTblCnt]
    refine UInt16.toNat_ofNat_of_lt' (lt_of_le_of_lt (occupied_le _ _ _) ?_)
    have := hdims.tableEntries_le
    rw [UInt16.size]
    omega
  curExpnTblCnt := by
    rw [h.curExpnTblCnt]
    refine UInt16.toNat_ofNat_of_lt' (lt_of_le_of_lt (occupied_le _ _ _) ?_)
    have := hdims.expnTableEntries_le
    rw [UInt16.size, IpaTableConf.totTblEnts]
    omega

/-- Both tables are well formed in every state reached by adding and deleting rules. -/
theorem tables_wellFormed {kernel : Kernel} {driver driver' : NatDriver} {nmi : Ipa3NatMemIn}
    {publicIpAddr : UInt32} {numberOfEntries tblHdl : Nat}
    (htbl : ipaNATIAddIpv4Tbl kernel driver nmi publicIpAddr numberOfEntries =
      (0, tblHdl, driver'))
    (hok : ∀ i, driver'.requests ≤ i → kernel.request i = 0) {s : RuleRun}
    (hrun : RuleRun.Reaches kernel tblHdl driver' s) :
    WellFormedTable (entryInterface s.driver.pdns) (s.driver.natTable nmi).conf
        (s.driver.natTable nmi).table ∧
      WellFormedTable indexEntryInterface (s.driver.natTable nmi).indexConf
        (s.driver.natTable nmi).indexTable := by
  obtain ⟨links, hready⟩ := RuleRun.ready_of_reaches htbl hok hrun
  exact ⟨hready.invariant.table.wellFormed hready.invariant.dims,
    hready.invariant.indexTable.wellFormed hready.invariant.dims⟩

def sampleKernel : Kernel := ⟨fun _ => 0, ipaHwV4_0, 0, fun _ => 0⟩

def sampleDriver : NatDriver where
  ipv4NatCache nmi := ⟨none, 0, zeroTableCache nmi⟩
  activeNatCache := none
  pdns := fun _ => 0
  numPdns := 0
  hashToken := 69
  requests := 0

def sampleTbl : Int × Nat × NatDriver := ipaNATIAddIpv4Tbl sampleKernel sampleDriver .ddr 1 2

theorem sampleTbl_eq : ipaNATIAddIpv4Tbl sampleKernel sampleDriver .ddr 1 2 =
    (0, makeTblHdl 1 .ddr, sampleTbl.2.2) :=
  Prod.ext (by decide +kernel) (Prod.ext (by decide +kernel) rfl)

def sampleRule (privatePort : UInt16) : IpaNatIpv4Rule :=
  { (default : IpaNatIpv4Rule) with privateIp := 2, privatePort := privatePort, protocol := 17 }

/-- Two rules in one chain; the head is deleted and a third rule extends the chain. -/
def sampleRun : RuleRun :=
  [.add (sampleRule 1), .add (sampleRule 2), .del 2, .add (sampleRule 3)].foldl
    (RuleRun.step sampleKernel (makeTblHdl 1 .ddr)) ⟨sampleTbl.2.2, fun _ => false⟩

theorem sampleRun_deletesOnce : RuleRun.DeletesOnce (makeTblHdl 1 .ddr)
    ([.add (sampleRule 1), .add (sampleRule 2)].foldl
      (RuleRun.step sampleKernel (makeTblHdl 1 .ddr)) ⟨sampleTbl.2.2, fun _ => false⟩)
      (.del 2) := by
  rw [RuleRun.DeletesOnce]
  decide +kernel

theorem sampleRun_reaches :
    RuleRun.Reaches sampleKernel (makeTblHdl 1 .ddr) sampleTbl.2.2 sampleRun :=
  (((Relation.ReflTransGen.refl.tail ⟨.add (sampleRule 1), trivial, rfl⟩).tail
    ⟨.add (sampleRule 2), trivial, rfl⟩).tail
    ⟨.del 2, sampleRun_deletesOnce, rfl⟩).tail ⟨.add (sampleRule 3), trivial, rfl⟩

theorem sampleRun_wellFormed :
    ((sampleRun.driver.natTable .ddr).table.records 1).dead = true ∧
      WellFormedTable (entryInterface sampleRun.driver.pdns) (sampleRun.driver.natTable .ddr).conf
        (sampleRun.driver.natTable .ddr).table ∧
      WellFormedTable indexEntryInterface (sampleRun.driver.natTable .ddr).indexConf
        (sampleRun.driver.natTable .ddr).indexTable :=
  ⟨by decide +kernel, tables_wellFormed sampleTbl_eq (fun _ _ => rfl) sampleRun_reaches⟩

/-! ## The two tables against each other -/

/-- Index entries and live rules correspond, and a rule is found from the base slot its
fields hash to. -/
structure TablesAgree (env : RuleEnv) (natTable : IpaNatIp4TableCache) : Prop where
  live_index : ∀ i, (natTable.table.records i).live = true →
    ∀ j, (natTable.indexTable.records j).tblEntry = i ↔
      j = (natTable.table.records i).indxTblEntry
  index_live : ∀ j, (natTable.indexTable.records j).tblEntry ≠ 0 →
    (natTable.table.records (natTable.indexTable.records j).tblEntry).live = true
  dst : ∀ i, (natTable.table.records i).live = true → (natTable.table.records i).srcOnly = false →
    OnChain (fun x => (natTable.table.records x).nextIndex)
      ((natTable.table.records i).dstSlot env natTable.tableEntries) i
  src : ∀ i, (natTable.table.records i).live = true → (natTable.table.records i).dstOnly = false →
    OnChain (fun x => (natTable.indexTable.records x).nextIndex)
      ((natTable.table.records i).srcSlot natTable.tableEntries)
      (natTable.table.records i).indxTblEntry

theorem NatInvariant.tablesAgree {env : RuleEnv} {natTable : IpaNatIp4TableCache} {links : Links}
    (h : NatInvariant env natTable links) : TablesAgree env natTable where
  live_index i hlive j := by
    constructor
    · intro hj
      have hne : (natTable.indexTable.records j).tblEntry ≠ 0 := by
        rw [hj]
        exact h.ne_zero_of_live hlive
      have hown := (h.index_live j hne).2
      rw [hj] at hown
      exact hown.symm
    · rintro rfl
      exact h.live_index i hlive
  index_live j hj := (h.index_live j hj).1
  dst i hlive hsrc := by
    have hchain := (h.table.linked.onChain_root (IpaNatRule.enable_of_live hlive)).2.2
    rw [h.dst i hlive hsrc] at hchain
    exact hchain
  src i hlive hdst := by
    have hocc : natTable.indexTable.occ indexEntryInterface
        (natTable.table.records i).indxTblEntry = true := by
      simpa [h.live_index i hlive] using h.ne_zero_of_live hlive
    have hchain := (h.indexTable.linked.onChain_root hocc).2.2
    rw [h.src i hlive hdst] at hchain
    exact hchain

/-- The two tables agree in every state reached by adding and deleting rules. -/
theorem tables_agree {kernel : Kernel} {driver driver' : NatDriver} {nmi : Ipa3NatMemIn}
    {publicIpAddr : UInt32} {numberOfEntries tblHdl : Nat}
    (htbl : ipaNATIAddIpv4Tbl kernel driver nmi publicIpAddr numberOfEntries =
      (0, tblHdl, driver'))
    (hok : ∀ i, driver'.requests ≤ i → kernel.request i = 0) {s : RuleRun}
    (hrun : RuleRun.Reaches kernel tblHdl driver' s) :
    TablesAgree (s.driver.ruleEnv nmi) (s.driver.natTable nmi) := by
  obtain ⟨links, hready⟩ := RuleRun.ready_of_reaches htbl hok hrun
  exact hready.invariant.tablesAgree

theorem sampleRun_agree :
    ((sampleRun.driver.natTable .ddr).table.records 3).live = true ∧
      TablesAgree (sampleRun.driver.ruleEnv .ddr) (sampleRun.driver.natTable .ddr) :=
  ⟨by decide +kernel, tables_agree sampleTbl_eq (fun _ _ => rfl) sampleRun_reaches⟩

end QcomModules.Ipanat
