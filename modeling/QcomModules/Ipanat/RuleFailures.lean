import QcomModules.Ipanat.RuleRuns

/-! What a failed call leaves behind. Adding a rule whose DMA command fails may leave the
back link of the index slot it had taken; deleting one may leave another rule told of an
index slot that it has not got. -/

namespace QcomModules.Ipanat

open Library Function

/-! ## Adding -/

theorem IpaNatIp4TableCache.findIndexExpn_cases (natTable : IpaNatIp4TableCache)
    (hdims : DimsOk natTable.tableEntries natTable.expnTableEntries) :
    (∃ x, findExpnTblFreeEntry indexEntryInterface natTable.indexConf natTable.indexTable =
        .ok x ∧ natTable.indexConf.tableEntries ≤ x ∧ x < natTable.indexConf.totTblEnts ∧
        natTable.indexTable.occ indexEntryInterface x = false) ∨
      (findExpnTblFreeEntry indexEntryInterface natTable.indexConf natTable.indexTable =
          .error (-1) ∧
        ∀ x, natTable.indexConf.tableEntries ≤ x → x < natTable.indexConf.totTblEnts →
          natTable.indexTable.occ indexEntryInterface x = true) :=
  findExpnTblFreeEntry_cases hdims natTable.indexTable

/-- Erasing the slot that an entry of the index table was given undoes its insertion, up to
the back link of an expansion slot. -/
theorem index_erase {natTable : IpaNatIp4TableCache} {rank root : Nat → Nat}
    (h : TableInvariant indexEntryInterface natTable.indexConf natTable.indexTable rank root)
    (hdims : DimsOk natTable.tableEntries natTable.expnTableEntries) {b tblEntry y : Nat}
    (hbn : b < natTable.tableEntries) {cmd cmd' : List IpaIocNatDmaOne}
    {indexTable : IpaTable IpaNatIndxTblRule}
    (hadd : ipaTableAddEntry indexEntryInterface natTable.indexConf natTable.indexTable tblEntry b
      cmd = .ok (indexTable, y, cmd')) :
    ipaTableEraseEntry natTable.indexConf indexTable y =
        { natTable.indexTable with metaPrev := indexTable.metaPrev } ∧
      ((natTable.indexTable.records b).tblEntry = 0 ∧
          indexTable.metaPrev = natTable.indexTable.metaPrev ∨
        (natTable.indexTable.records b).tblEntry ≠ 0 ∧ ∃ p,
          ipaTableIteratorEnd indexEntryInterface natTable.indexConf natTable.indexTable b =
            .ok p ∧
          findExpnTblFreeEntry indexEntryInterface natTable.indexConf natTable.indexTable =
            .ok y ∧
          indexTable.metaPrev =
            Function.update natTable.indexTable.metaPrev (y - natTable.tableEntries) p) := by
  rw [ipaTableAddEntry] at hadd
  by_cases hfree : (natTable.indexTable.records b).tblEntry = 0
  · have hzero : natTable.indexTable.records b = default := h.free b (by simpa using hfree)
    have hvalid : indexEntryInterface.entryIsValid (natTable.indexTable.records b) = false := by
      simpa [indexEntryInterface] using hfree
    simp only [hvalid, Bool.not_false, if_true, insertHead, Except.ok.injEq, Prod.mk.injEq] at hadd
    obtain ⟨rfl, rfl, -⟩ := hadd
    refine ⟨?_, .inl ⟨hfree, rfl⟩⟩
    have hbn' : b < natTable.indexConf.tableEntries := hbn
    rw [ipaTableEraseEntry, if_pos hbn']
    simp only [update_idem, UInt16.add_sub_cancel, ← hzero, update_eq_self]
  · have hvalid : indexEntryInterface.entryIsValid (natTable.indexTable.records b) = true := by
      simpa [indexEntryInterface] using hfree
    simp only [hvalid, Bool.not_true, Bool.false_eq_true, if_false, insertTail] at hadd
    cases hend : ipaTableIteratorEnd indexEntryInterface natTable.indexConf
        natTable.indexTable b with
    | error ret => simp [hend, bind, Except.bind] at hadd
    | ok p =>
      rcases natTable.findIndexExpn_cases hdims with
        ⟨x, hfind, hx, hxN, hfreex⟩ | ⟨hfind, hall⟩
      · have hzero : natTable.indexTable.records x = default := h.free x hfreex
        have hx' : natTable.tableEntries ≤ x := hx
        simp only [hend, hfind, bind, Except.bind, pure, Except.pure, Except.ok.injEq,
          Prod.mk.injEq, tailEntry] at hadd
        obtain ⟨rfl, rfl, -⟩ := hadd
        refine ⟨?_, .inr ⟨hfree, p, rfl, hfind, ?_⟩⟩
        · rw [ipaTableEraseEntry, if_neg (not_lt.mpr hx)]
          simp only [update_idem, UInt16.add_sub_cancel, ← hzero,
            update_eq_self]
        · simp [indexEntryInterface, IpaNatIp4TableCache.indexConf, hx']
      · simp [hend, hfind, bind, Except.bind] at hadd

/-- The index slot that a rule would be given is an expansion slot whose back link is not yet
the one it would get. -/
def TakesTailSlot (env : RuleEnv) (natTable : IpaNatIp4TableCache) (hashToken : Nat)
    (clntRule : IpaNatIpv4Rule) : Prop :=
  let b := (ruleSlots env natTable hashToken clntRule).2.1
  (natTable.indexTable.records b).tblEntry ≠ 0 ∧ ∃ p y,
    ipaTableIteratorEnd indexEntryInterface natTable.indexConf natTable.indexTable b = .ok p ∧
    findExpnTblFreeEntry indexEntryInterface natTable.indexConf natTable.indexTable = .ok y ∧
    natTable.indexTable.metaPrev (y - natTable.tableEntries) ≠ p

variable {env : RuleEnv}

theorem NatInvariant.addRule_restores_iff {natTable : IpaNatIp4TableCache} {links : Links}
    (h : NatInvariant env natTable links) (dmaRet : Int) (hashToken : Nat)
    (clntRule : IpaNatIpv4Rule) :
    ((addRuleLocked env dmaRet natTable hashToken clntRule).ret ≠ 0 →
        (addRuleLocked env dmaRet natTable hashToken clntRule).natTable = natTable) ↔
      ¬ (dmaRet ≠ 0 ∧ HasRoom env natTable hashToken clntRule ∧
        TakesTailSlot env natTable hashToken clntRule) := by
  rcases h.addRule_cases dmaRet hashToken clntRule with
    ⟨hfull, hashToken', hadd⟩ | ⟨hroom, table, x, cmd, indexTable, y, cmd', -, -, hindex, hadd⟩
  · rw [hadd]
    exact iff_of_true (fun _ => rfl) fun hboth => hfull hboth.2.1
  · by_cases hdma : dmaRet = 0
    · rw [hadd, if_neg (not_not.mpr hdma)]
      exact iff_of_true (fun hret => absurd rfl hret) fun hboth => hboth.1 hdma
    · rw [hadd, if_pos hdma]
      obtain ⟨herase, hcases⟩ := index_erase h.indexTable h.dims
        (newIndexTblEntryIndex_pos_lt h.dims _ clntRule).2 hindex
      have hsame : { natTable with
          indexTable := ipaTableEraseEntry natTable.indexConf indexTable y } = natTable ↔
          indexTable.metaPrev = natTable.indexTable.metaPrev := by
        rw [herase]
        constructor
        · exact fun heq => congrArg (fun t : IpaNatIp4TableCache => t.indexTable.metaPrev) heq
        · intro heq
          rw [heq]
      have hret : (- EIO : Int) ≠ 0 := by decide
      simp only [ne_eq, hret, not_false_eq_true, true_implies, hsame, hdma, hroom, true_and]
      rcases hcases with ⟨hfree, hmeta⟩ | ⟨hocc, p, hend, hfind, hmeta⟩
      · exact iff_of_true hmeta fun htail => htail.1 hfree
      · rw [hmeta, update_eq_self_iff]
        constructor
        · rintro hp ⟨-, p', y', hend', hfind', hne⟩
          obtain rfl : p = p' := Except.ok.inj (hend.symm.trans hend')
          obtain rfl : y = y' := Except.ok.inj (hfind.symm.trans hfind')
          exact hne hp.symm
        · intro hnot
          by_contra hne
          exact hnot ⟨hocc, p, y, hend, hfind, fun heq => hne heq.symm⟩

/-! ## Deleting -/

/-- Deleting what the slot holds changes the rule of another index entry before the DMA command:
the slot is enabled, and its index entry is in use and heads a longer chain. -/
def RetargetsRule (natTable : IpaNatIp4TableCache) (x : Nat) : Prop :=
  (natTable.table.records x).enable = true ∧
    (natTable.indexTable.records (natTable.table.records x).indxTblEntry).tblEntry ≠ 0 ∧
    natTable.HeadsTail (natTable.table.records x).indxTblEntry

theorem NatInvariant.retargeted_eq_iff {natTable : IpaNatIp4TableCache} {links : Links}
    (h : NatInvariant env natTable links) {j : Nat}
    (hj : (natTable.indexTable.records j).tblEntry ≠ 0)
    (hocc : (natTable.indexTable.records (natTable.emptiedIndex j)).tblEntry ≠ 0) :
    { natTable with table := natTable.retargeted (natTable.emptiedIndex j) j } = natTable ↔
      ¬ natTable.HeadsTail j := by
  rw [← h.emptiedIndex_eq_iff hj]
  constructor
  · intro heq
    by_contra hne
    obtain ⟨-, hown⟩ := h.index_live _ hocc
    have hrecord := congrArg (fun t : IpaNatIp4TableCache => (t.table.records
      (natTable.indexTable.records (natTable.emptiedIndex j)).tblEntry).indxTblEntry) heq
    simp only [IpaNatIp4TableCache.retargeted, if_neg hne, IpaNatIp4TableCache.setIndxTblEntry,
      update_self, hown] at hrecord
    exact hne hrecord.symm
  · intro heq
    rw [IpaNatIp4TableCache.retargeted, if_pos heq]

theorem NatInvariant.delRule_restores_iff {natTable : IpaNatIp4TableCache} {links : Links}
    (h : NatInvariant env natTable links) (dmaRet : Int) (ruleHdl : Nat) :
    ((delRuleLocked env.pdns dmaRet natTable ruleHdl).ret ≠ 0 →
        (delRuleLocked env.pdns dmaRet natTable ruleHdl).natTable = natTable) ↔
      ¬ (dmaRet ≠ 0 ∧ RetargetsRule natTable (ruleHdlIndex natTable.conf ruleHdl)) := by
  cases henable : (natTable.table.records (ruleHdlIndex natTable.conf ruleHdl)).enable with
  | false =>
    rw [delRuleLocked_free henable]
    refine iff_of_true (fun _ => rfl) fun hboth => ?_
    rw [RetargetsRule, henable] at hboth
    exact Bool.noConfusion hboth.2.1
  | true =>
    by_cases hocc : (natTable.indexTable.records (natTable.table.records
        (ruleHdlIndex natTable.conf ruleHdl)).indxTblEntry).tblEntry = 0
    · obtain ⟨ret, -, hdel⟩ := delRuleLocked_unindexed hocc env.pdns dmaRet
      rw [hdel]
      exact iff_of_true (fun _ => rfl) fun hboth => hboth.2.2.1 hocc
    · obtain ⟨table', indexTable', hindex, -, hdel⟩ :=
        h.delRule_enabled rfl henable rfl hocc dmaRet
      by_cases hdma : dmaRet = 0
      · rw [hdel, if_neg (not_not.mpr hdma)]
        exact iff_of_true (fun hret => absurd rfl hret) fun hboth => hboth.1 hdma
      · have hret : (- EIO : Int) ≠ 0 := by decide
        rw [hdel, if_pos hdma]
        simp only [ne_eq, hret, not_false_eq_true, true_implies, hdma, true_and,
          h.retargeted_eq_iff hocc hindex.occ, RetargetsRule, henable, hocc]

/-! ## The driver's functions -/

/-- A failed call leaves both tables exactly as they were, except where its DMA command fails
after an index slot with another back link has been taken, or after the second index entry has
been announced to its rule. -/
theorem failed_call_restores_iff {kernel : Kernel} {driver : NatDriver} {links : Links}
    {tblHdl : Nat} (h : TableReady driver (tblHdlNmi tblHdl) links) :
    (∀ clntRule,
      ((ipaNATIAddIpv4Rule kernel driver tblHdl clntRule).1 ≠ 0 →
          (ipaNATIAddIpv4Rule kernel driver tblHdl clntRule).2.2.natTable (tblHdlNmi tblHdl) =
            driver.natTable (tblHdlNmi tblHdl)) ↔
        ¬ (validTblHdl tblHdl = true ∧ driver.acceptsRule clntRule = true ∧
          kernel.request driver.requests ≠ 0 ∧
          HasRoom (driver.ruleEnv (tblHdlNmi tblHdl)) (driver.natTable (tblHdlNmi tblHdl))
            driver.hashToken clntRule ∧
          TakesTailSlot (driver.ruleEnv (tblHdlNmi tblHdl)) (driver.natTable (tblHdlNmi tblHdl))
            driver.hashToken clntRule)) ∧
    ∀ ruleHdl,
      ((ipaNATIDelIpv4Rule kernel driver tblHdl ruleHdl).1 ≠ 0 →
          (ipaNATIDelIpv4Rule kernel driver tblHdl ruleHdl).2.natTable (tblHdlNmi tblHdl) =
            driver.natTable (tblHdlNmi tblHdl)) ↔
        ¬ (validTblHdl tblHdl = true ∧ kernel.request driver.requests ≠ 0 ∧
          RetargetsRule (driver.natTable (tblHdlNmi tblHdl))
            (ruleHdlIndex (driver.natTable (tblHdlNmi tblHdl)).conf ruleHdl)) := by
  refine ⟨fun clntRule => ?_, fun ruleHdl => ?_⟩
  · cases hvalid : validTblHdl tblHdl with
    | false => simp [ipaNATIAddIpv4Rule, hvalid]
    | true =>
      cases haccept : driver.acceptsRule clntRule with
      | false => simp [ipaNATIAddIpv4Rule, hvalid, haccept]
      | true =>
        have hiff := h.invariant.addRule_restores_iff (kernel.request driver.requests)
          driver.hashToken clntRule
        simp only [ipaNATIAddIpv4Rule, hvalid, haccept, h.valid, Bool.not_true,
          Bool.false_eq_true, if_false, true_and]
        rw [← hiff]
        refine imp_congr_right fun _ => ?_
        exact iff_of_eq (congrArg (· = driver.natTable (tblHdlNmi tblHdl))
          (driver.natTable_setNatTable _ _))
  · cases hvalid : validTblHdl tblHdl with
    | false => simp [ipaNATIDelIpv4Rule, hvalid]
    | true =>
      have hiff := h.invariant.delRule_restores_iff (kernel.request driver.requests) ruleHdl
      simp only [ipaNATIDelIpv4Rule, hvalid, h.valid, Bool.not_true, Bool.or_self,
        Bool.false_eq_true, if_false, true_and]
      rw [← hiff]
      refine imp_congr_right fun _ => ?_
      exact iff_of_eq (congrArg (· = driver.natTable (tblHdlNmi tblHdl))
        (driver.natTable_setNatTable _ _))

def refusingKernel : Kernel := ⟨fun _ => -1, ipaHwV4_0, 0, fun _ => 0⟩

theorem emptyTable_restored :
    (ipaNATIAddIpv4Rule refusingKernel sampleTbl.2.2 (makeTblHdl 1 .ddr) (sampleRule 1)).1 ≠ 0 ∧
      (ipaNATIAddIpv4Rule refusingKernel sampleTbl.2.2 (makeTblHdl 1 .ddr)
          (sampleRule 1)).2.2.natTable (tblHdlNmi (makeTblHdl 1 .ddr)) =
        sampleTbl.2.2.natTable (tblHdlNmi (makeTblHdl 1 .ddr)) := by
  have hfails : (ipaNATIAddIpv4Rule refusingKernel sampleTbl.2.2 (makeTblHdl 1 .ddr)
      (sampleRule 1)).1 ≠ 0 := by
    decide +kernel
  have hready : TableReady sampleTbl.2.2 (tblHdlNmi (makeTblHdl 1 .ddr)) emptyLinks := by
    rw [tblHdlNmi_makeTblHdl]
    exact (tableReady_of_addTbl sampleTbl_eq).2.1
  refine ⟨hfails, ((failed_call_restores_iff hready).1 (sampleRule 1)).mpr ?_ hfails⟩
  exact fun hboth => hboth.2.2.2.2.1 (by decide +kernel)

def twoRules : NatDriver :=
  ([.add (sampleRule 1), .add (sampleRule 2)].foldl
    (RuleRun.step sampleKernel (makeTblHdl 1 .ddr)) ⟨sampleTbl.2.2, fun _ => false⟩).driver

/-- When the DMA command fails, the deletion of the first rule has given the second another index
entry, and the addition of a third has left a back link. -/
theorem twoRules_not_restored :
    let del := ipaNATIDelIpv4Rule refusingKernel twoRules (makeTblHdl 1 .ddr) 2
    let add := ipaNATIAddIpv4Rule refusingKernel twoRules (makeTblHdl 1 .ddr) (sampleRule 3)
    del.1 = - EIO ∧ ((twoRules.natTable .ddr).table.records 2).indxTblEntry = 2 ∧
      ((del.2.natTable .ddr).table.records 2).indxTblEntry = 1 ∧
      add.1 = - EIO ∧ (twoRules.natTable .ddr).indexTable.metaPrev 1 = 0 ∧
      (add.2.2.natTable .ddr).indexTable.metaPrev 1 = 2 := by
  decide +kernel

end QcomModules.Ipanat
