import QcomModules.Ipanat.RuleFailures

/-! Handles of rules that have been deleted. A deleted chain head stays enabled with the index
slot of its old entry, and a second deletion believes it when that slot is in use again. -/

namespace QcomModules.Ipanat

open Library

/-! ## One deletion -/

/-- Deleting what the slot holds is refused before or by the DMA command, and no rule has been
told of another index slot. -/
def RefusesSlot (dmaRet : Int) (natTable : IpaNatIp4TableCache) (x : Nat) : Prop :=
  (natTable.table.records x).enable = true →
    (natTable.indexTable.records (natTable.table.records x).indxTblEntry).tblEntry ≠ 0 →
      dmaRet ≠ 0 ∧ ¬ natTable.HeadsTail (natTable.table.records x).indxTblEntry

/-- The live rules of the table, but for the slot, are as they were, and so are their index
entries. -/
def KeepsRules (natTable natTable' : IpaNatIp4TableCache) (x : Nat) : Prop :=
  ∀ i, i ≠ x → (natTable.table.records i).live = true →
    natTable'.table.records i = natTable.table.records i ∧
      natTable'.indexTable.records (natTable.table.records i).indxTblEntry =
        natTable.indexTable.records (natTable.table.records i).indxTblEntry

section
variable {env : RuleEnv} {natTable : IpaNatIp4TableCache} {links : Links}

variable {ruleHdl : Nat}

theorem NatInvariant.delRule_refused (h : NatInvariant env natTable links) {dmaRet : Int}
    (hrefuses : RefusesSlot dmaRet natTable (ruleHdlIndex natTable.conf ruleHdl)) :
    (delRuleLocked env.pdns dmaRet natTable ruleHdl).ret ≠ 0 ∧
      (delRuleLocked env.pdns dmaRet natTable ruleHdl).natTable = natTable := by
  cases henable : (natTable.table.records (ruleHdlIndex natTable.conf ruleHdl)).enable with
  | false =>
    have hret : (-EINVAL : Int) ≠ 0 := by decide
    rw [delRuleLocked_free henable]
    exact ⟨hret, rfl⟩
  | true =>
    by_cases hocc : (natTable.indexTable.records (natTable.table.records
        (ruleHdlIndex natTable.conf ruleHdl)).indxTblEntry).tblEntry = 0
    · obtain ⟨ret, hret, hdel⟩ := delRuleLocked_unindexed hocc env.pdns dmaRet
      rw [hdel]
      exact ⟨hret, rfl⟩
    · obtain ⟨hdma, htail⟩ := hrefuses henable hocc
      obtain ⟨table', indexTable', hindex, -, hdel⟩ :=
        h.delRule_enabled rfl henable rfl hocc dmaRet
      have hret : (- EIO : Int) ≠ 0 := by decide
      rw [hdel, if_pos hdma]
      exact ⟨hret, (h.retargeted_eq_iff hocc hindex.occ).mpr htail⟩

theorem NatInvariant.delRule_stale_iff (h : NatInvariant env natTable links) (dmaRet : Int)
    (hstale : (natTable.table.records (ruleHdlIndex natTable.conf ruleHdl)).live = false) :
    ((delRuleLocked env.pdns dmaRet natTable ruleHdl).ret ≠ 0 ∧
        KeepsRules natTable (delRuleLocked env.pdns dmaRet natTable ruleHdl).natTable
          (ruleHdlIndex natTable.conf ruleHdl)) ↔
      RefusesSlot dmaRet natTable (ruleHdlIndex natTable.conf ruleHdl) := by
  constructor
  · rintro ⟨hret, hkeeps⟩ henable hocc
    obtain ⟨table', indexTable', hindex, -, hdel⟩ :=
      h.delRule_enabled rfl henable rfl hocc dmaRet
    by_cases hdma : dmaRet = 0
    · rw [hdel, if_neg (not_not.mpr hdma)] at hret
      exact absurd rfl hret
    · refine ⟨hdma, fun htail => ?_⟩
      rw [hdel, if_pos hdma] at hkeeps
      -- the rule of the second entry is live, so it is not the stale slot
      obtain ⟨hlive, hown⟩ := h.index_live _ hindex.occ
      have hother : (natTable.indexTable.records (natTable.emptiedIndex
          (natTable.table.records (ruleHdlIndex natTable.conf ruleHdl)).indxTblEntry)).tblEntry ≠
          ruleHdlIndex natTable.conf ruleHdl := by
        intro heq
        rw [heq, hstale] at hlive
        cases hlive
      have hsame := (hkeeps _ hother hlive).1
      have hne := (h.emptiedIndex_eq_iff hocc).not.mpr (not_not.mpr htail)
      simp only [IpaNatIp4TableCache.retargeted, if_neg hne, IpaNatIp4TableCache.setIndxTblEntry,
        Function.update_self] at hsame
      have hentry := congrArg IpaNatRule.indxTblEntry hsame
      rw [hown] at hentry
      exact hne hentry.symm
  · intro hrefuses
    obtain ⟨hret, hsame⟩ := h.delRule_refused hrefuses
    refine ⟨hret, fun i _ _ => ?_⟩
    rw [hsame]
    exact ⟨rfl, rfl⟩

end

/-! ## The table after any call -/

theorem NatInvariant.setMetaPrev {env : RuleEnv} {natTable : IpaNatIp4TableCache} {links : Links}
    (h : NatInvariant env natTable links) {y : Nat} (hy : natTable.tableEntries ≤ y)
    (hfree : (natTable.indexTable.records y).tblEntry = 0) (p : Nat) :
    NatInvariant env
      { natTable with
        indexTable := { natTable.indexTable with
          metaPrev := Function.update natTable.indexTable.metaPrev
            (y - natTable.tableEntries) p } } links where
  dims := h.dims
  table := h.table
  indexTable := by
    refine h.indexTable.congr (fun _ => rfl) (fun _ _ => rfl) ?_ h.indexTable.free rfl rfl
    intro i hi
    have hiy : i ≠ y := by
      rintro rfl
      simp [hfree] at hi
    by_cases hin : natTable.tableEntries ≤ i
    · have hne : i - natTable.tableEntries ≠ y - natTable.tableEntries := by omega
      simp [IpaTable.prev, indexEntryInterface, IpaNatIp4TableCache.indexConf, hin, hne]
    · simp [IpaTable.prev, indexEntryInterface, IpaNatIp4TableCache.indexConf, hin]
  deadHeads := h.deadHeads
  live_index := h.live_index
  index_live := h.index_live
  dst := h.dst
  src := h.src

theorem NatInvariant.addRule_outcome {env : RuleEnv} {natTable : IpaNatIp4TableCache}
    {links : Links} (h : NatInvariant env natTable links) (dmaRet : Int) (hashToken : Nat)
    {clntRule : IpaNatIpv4Rule} (hproto : clntRule.protocol ≠ natInvalidProtocol)
    (hpdn : clntRule.pdnIndex.toNat < ipaMaxPdnNum) {result : AddRuleResult}
    (hresult : addRuleLocked env dmaRet natTable hashToken clntRule = result) :
    (result.ret ≠ 0 ∧ NatInvariant env result.natTable links ∧
      result.natTable = { natTable with indexTable := result.natTable.indexTable }) ∨
    (result.ret = 0 ∧ ∃ x links', result.ruleHdl = makeEntryHdl natTable.conf x ∧
      RuleAdded env natTable clntRule x result.natTable links') := by
  subst hresult
  rcases h.addRule_cases dmaRet hashToken clntRule with
    ⟨-, hashToken', hadd⟩ | ⟨-, table, x, cmd, indexTable, y, cmd', hnat, hinserted, hindex, hadd⟩
  · rw [hadd]
    exact .inl ⟨by simp, h, rfl⟩
  · by_cases hdma : dmaRet = 0
    · rw [hadd, if_neg (not_not.mpr hdma)]
      obtain ⟨links', hadded⟩ := h.inserted hproto hpdn hnat hinserted
      exact .inr ⟨rfl, x, links', rfl, hadded⟩
    · have hret : (- EIO : Int) ≠ 0 := by decide
      rw [hadd, if_pos hdma]
      refine .inl ⟨hret, ?_, rfl⟩
      obtain ⟨herase, hcases⟩ := index_erase h.indexTable h.dims
        (newIndexTblEntryIndex_pos_lt h.dims _ clntRule).2 hindex
      rw [herase]
      rcases hcases with ⟨-, hmeta⟩ | ⟨-, p, -, hfind, hmeta⟩
      · rw [hmeta]
        exact h
      · rw [hmeta]
        rcases natTable.findIndexExpn_cases h.dims with
          ⟨y', hfind', hy', -, hfree⟩ | ⟨hfind', -⟩
        · obtain rfl : y = y' := Except.ok.inj (hfind.symm.trans hfind')
          exact h.setMetaPrev hy' (by simpa using hfree) p
        · cases hfind.symm.trans hfind'

namespace RuleRun

/-- A deletion of a deleted rule is refused, and no other deletion is cut short by its DMA command
after it has told a rule of another index slot. -/
def SafeCall (kernel : Kernel) (tblHdl : Nat) (s : RuleRun) : RuleCall → Prop
  | .add _ => True
  | .del ruleHdl =>
    let natTable := s.driver.natTable (tblHdlNmi tblHdl)
    if s.deleted (s.slot tblHdl ruleHdl) then
      RefusesSlot (kernel.request s.driver.requests) natTable (s.slot tblHdl ruleHdl)
    else kernel.request s.driver.requests = 0 ∨
      ¬ RetargetsRule natTable (s.slot tblHdl ruleHdl)

/-- The table is in good order, and what has been deleted is what is not live. -/
structure Tracked (nmi : Ipa3NatMemIn) (s : RuleRun) : Prop where
  ready : ∃ links, TableReady s.driver nmi links
  dead_deleted : ∀ i, ((s.driver.natTable nmi).table.records i).dead = true → s.deleted i = true
  deleted_stale : ∀ i, s.deleted i = true →
    ((s.driver.natTable nmi).table.records i).live = false

section
variable {kernel : Kernel} {nmi : Ipa3NatMemIn} {s : RuleRun}

theorem Tracked.add (h : s.Tracked nmi) (clntRule : IpaNatIpv4Rule) :
    (s.step kernel (makeTblHdl 1 nmi) (.add clntRule)).Tracked nmi := by
  obtain ⟨links, hready⟩ := h.ready
  cases haccept : s.driver.acceptsRule clntRule with
  | false =>
    have hret : (-EINVAL : Int) ≠ 0 := by decide
    simp only [step, ipaNATIAddIpv4Rule, validTblHdl_makeTblHdl, haccept, Bool.not_true,
      Bool.not_false, Bool.false_eq_true, if_false, if_true, if_neg hret]
    exact h
  | true =>
    obtain ⟨hproto, hpdn⟩ : clntRule.protocol ≠ natInvalidProtocol ∧
        clntRule.pdnIndex.toNat < ipaMaxPdnNum := by
      simp only [NatDriver.acceptsRule, Bool.and_eq_true, decide_eq_true_eq] at haccept
      exact haccept.1
    simp only [step, ipaNATIAddIpv4Rule, validTblHdl_makeTblHdl, tblHdlNmi_makeTblHdl, haccept,
      hready.valid, Bool.not_true, Bool.false_eq_true, if_false]
    generalize hresult : addRuleLocked (s.driver.ruleEnv nmi) (kernel.request s.driver.requests)
      (s.driver.natTable nmi) s.driver.hashToken clntRule = result
    rcases hready.invariant.addRule_outcome _ _ hproto hpdn hresult with
      ⟨hret, hinv, hsame⟩ | ⟨hret, x, links', hhdl, hadded⟩
    · rw [if_neg hret]
      have htable : result.natTable.table = (s.driver.natTable nmi).table := by rw [hsame]
      refine ⟨⟨links, hready.setNatTable (by rw [hsame]) hinv _ _⟩, ?_, ?_⟩
      · intro i hdead
        change (((s.driver.setNatTable nmi result.natTable).natTable nmi).table.records i).dead =
          true at hdead
        rw [NatDriver.natTable_setNatTable, htable] at hdead
        exact h.dead_deleted i hdead
      · intro i hdeleted
        change (((s.driver.setNatTable nmi result.natTable).natTable nmi).table.records i).live =
          false
        rw [NatDriver.natTable_setNatTable, htable]
        exact h.deleted_stale i hdeleted
    · have hslot : s.slot (makeTblHdl 1 nmi) result.ruleHdl = x := by
        rw [slot, tblHdlNmi_makeTblHdl, hhdl]
        exact ruleHdlIndex_makeEntryHdl hready.invariant.dims hadded.lt
      rw [if_pos hret, hslot]
      refine ⟨⟨links', hready.setNatTable hadded.same hadded.invariant _ _⟩, ?_, ?_⟩
      · intro i hdead
        change (((s.driver.setNatTable nmi result.natTable).natTable nmi).table.records i).dead =
          true at hdead
        rw [NatDriver.natTable_setNatTable] at hdead
        by_cases hi : i = x
        · obtain ⟨indxTblEntry, prevIndex, hnew⟩ := hadded.rule
          rw [hi, hnew, newRule_dead _ hproto] at hdead
          cases hdead
        · rw [IpaNatRule.dead_of_content (hadded.others i hi)] at hdead
          simpa [hi] using h.dead_deleted i hdead
      · intro i hdeleted
        change (((s.driver.setNatTable nmi result.natTable).natTable nmi).table.records i).live =
          false
        rw [NatDriver.natTable_setNatTable]
        by_cases hi : i = x
        · simp [hi] at hdeleted
        · rw [IpaNatRule.live_of_content (hadded.others i hi)]
          exact h.deleted_stale i (by simpa [hi] using hdeleted)

variable {ruleHdl : Nat}

theorem Tracked.del_refused (h : s.Tracked nmi)
    (hrefuses : RefusesSlot (kernel.request s.driver.requests) (s.driver.natTable nmi)
      (ruleHdlIndex (s.driver.natTable nmi).conf ruleHdl)) :
    (s.step kernel (makeTblHdl 1 nmi) (.del ruleHdl)).Tracked nmi := by
  obtain ⟨links, hready⟩ := h.ready
  obtain ⟨hret, hsame⟩ := hready.invariant.delRule_refused hrefuses
  have henv : (s.driver.ruleEnv nmi).pdns = s.driver.pdns := rfl
  rw [henv] at hret hsame
  simp only [step, ipaNATIDelIpv4Rule, validTblHdl_makeTblHdl, tblHdlNmi_makeTblHdl, hready.valid,
    Bool.not_true, Bool.or_self, Bool.false_eq_true, if_false, hsame, NatDriver.setNatTable_self,
    if_neg hret]
  exact ⟨⟨links, hready.valid, hready.memory, hready.tableCnt, hready.invariant⟩,
    h.dead_deleted, h.deleted_stale⟩

theorem Tracked.del_live (h : s.Tracked nmi) (hok : kernel.request s.driver.requests = 0)
    (hlive : ((s.driver.natTable nmi).table.records
      (ruleHdlIndex (s.driver.natTable nmi).conf ruleHdl)).live = true) :
    (s.step kernel (makeTblHdl 1 nmi) (.del ruleHdl)).Tracked nmi := by
  obtain ⟨links, hready⟩ := h.ready
  obtain ⟨natTable', hdel, hdeleted⟩ := hready.delRule_live hok hlive
  simp only [step, hdel, if_true, slot, tblHdlNmi_makeTblHdl]
  refine ⟨⟨links, hready.setNatTable hdeleted.same hdeleted.invariant _ _⟩, ?_, ?_⟩
  · intro i hdead
    change (((s.driver.setNatTable nmi natTable').natTable nmi).table.records i).dead = true
      at hdead
    rw [NatDriver.natTable_setNatTable] at hdead
    by_cases hi : i = ruleHdlIndex (s.driver.natTable nmi).conf ruleHdl
    · simp [hi]
    · have hold := (hdeleted.dead i hdead).resolve_left hi
      simpa [hi] using h.dead_deleted i hold
  · intro i hdel
    change (((s.driver.setNatTable nmi natTable').natTable nmi).table.records i).live = false
    rw [NatDriver.natTable_setNatTable, ← Bool.not_eq_true, hdeleted.live]
    rintro ⟨hi, hold⟩
    rw [h.deleted_stale i (by simpa [hi] using hdel)] at hold
    cases hold

theorem Tracked.del (h : s.Tracked nmi)
    (hsafe : s.SafeCall kernel (makeTblHdl 1 nmi) (.del ruleHdl)) :
    (s.step kernel (makeTblHdl 1 nmi) (.del ruleHdl)).Tracked nmi := by
  by_cases hrefuses : RefusesSlot (kernel.request s.driver.requests) (s.driver.natTable nmi)
      (ruleHdlIndex (s.driver.natTable nmi).conf ruleHdl)
  · exact h.del_refused hrefuses
  · simp only [SafeCall, slot, tblHdlNmi_makeTblHdl] at hsafe
    split at hsafe
    · exact absurd hsafe hrefuses
    · next hfresh =>
        have henable : ((s.driver.natTable nmi).table.records
            (ruleHdlIndex (s.driver.natTable nmi).conf ruleHdl)).enable = true := by
          by_contra hfree
          exact hrefuses fun henable => absurd henable hfree
        -- the command goes through, or it would have been refused without a retargeted rule
        have hok : kernel.request s.driver.requests = 0 := by
          by_contra hdma
          refine hrefuses fun _ hocc => ⟨hdma, fun htail => ?_⟩
          exact (hsafe.resolve_left hdma) ⟨henable, hocc, htail⟩
        refine h.del_live hok ?_
        by_contra hnot
        rw [Bool.not_eq_true] at hnot
        exact hfresh (h.dead_deleted _ (IpaNatRule.dead_of_not_live henable hnot))

end

/-- The deletion by a handle returns an error and leaves the other rules alone. -/
def RejectsHandle (kernel : Kernel) (tblHdl : Nat) (s : RuleRun) (ruleHdl : Nat) : Prop :=
  let del := ipaNATIDelIpv4Rule kernel s.driver tblHdl ruleHdl
  del.1 ≠ 0 ∧ KeepsRules (s.driver.natTable (tblHdlNmi tblHdl))
    (del.2.natTable (tblHdlNmi tblHdl)) (s.slot tblHdl ruleHdl)

/-- In every state that safe calls reach, the handle of a deleted rule is rejected exactly where
its slot is free or its old index entry is, or where the DMA command is refused and that entry
heads no longer chain. -/
theorem rejectsHandle_iff {kernel : Kernel} {driver driver' : NatDriver} {nmi : Ipa3NatMemIn}
    {publicIpAddr : UInt32} {numberOfEntries tblHdl : Nat}
    (htbl : ipaNATIAddIpv4Tbl kernel driver nmi publicIpAddr numberOfEntries =
      (0, tblHdl, driver')) {s : RuleRun}
    (hrun : Relation.ReflTransGen (GuardedStep (SafeCall kernel tblHdl) (step kernel tblHdl))
      ⟨driver', fun _ => false⟩ s) {ruleHdl : Nat}
    (hdeleted : s.deleted (s.slot tblHdl ruleHdl) = true) :
    s.RejectsHandle kernel tblHdl ruleHdl ↔
      RefusesSlot (kernel.request s.driver.requests) (s.driver.natTable nmi)
        (s.slot tblHdl ruleHdl) := by
  obtain ⟨rfl, hready, hempty⟩ := tableReady_of_addTbl htbl
  have hstart : Tracked nmi ⟨driver', fun _ => false⟩ := by
    refine ⟨⟨emptyLinks, hready⟩, fun i hdead => ?_, nofun⟩
    simp only [hempty i, default_dead] at hdead
    cases hdead
  have htracked : s.Tracked nmi := by
    refine invariant_of_guarded (fun s call h hsafe => ?_) hstart hrun
    cases call with
    | add clntRule => exact h.add clntRule
    | del ruleHdl => exact h.del hsafe
  obtain ⟨links, hready⟩ := htracked.ready
  have hstale := htracked.deleted_stale _ hdeleted
  rw [slot, tblHdlNmi_makeTblHdl] at hstale ⊢
  have hiff := hready.invariant.delRule_stale_iff (kernel.request s.driver.requests) hstale
  rw [← hiff, RejectsHandle]
  simp only [slot, ipaNATIDelIpv4Rule, validTblHdl_makeTblHdl, tblHdlNmi_makeTblHdl, hready.valid,
    Bool.not_true, Bool.or_self, Bool.false_eq_true, if_false]
  refine and_congr_right fun _ => ?_
  exact iff_of_eq (congrArg (KeepsRules (s.driver.natTable nmi) · _)
    (s.driver.natTable_setNatTable nmi _))

/-- The states of calls that the kernel grants, on the sample table. -/
def sampleCalls (calls : List RuleCall) : RuleRun :=
  calls.foldl (step sampleKernel (makeTblHdl 1 .ddr)) ⟨sampleTbl.2.2, fun _ => false⟩

theorem sampleCalls_reaches : Relation.ReflTransGen
    (GuardedStep (SafeCall sampleKernel (makeTblHdl 1 .ddr))
      (step sampleKernel (makeTblHdl 1 .ddr)))
    ⟨sampleTbl.2.2, fun _ => false⟩ (sampleCalls [.add (sampleRule 1), .del 2]) := by
  have hsafe : (sampleCalls [.add (sampleRule 1)]).SafeCall sampleKernel (makeTblHdl 1 .ddr)
      (.del 2) := by
    simp only [SafeCall]
    rw [if_neg (by decide +kernel)]
    exact .inl rfl
  exact (Relation.ReflTransGen.refl.tail ⟨.add (sampleRule 1), trivial, rfl⟩).tail
    ⟨.del 2, hsafe, rfl⟩

theorem sampleCalls_rejects :
    (sampleCalls [.add (sampleRule 1), .del 2]).RejectsHandle sampleKernel (makeTblHdl 1 .ddr) 2 :=
  (rejectsHandle_iff sampleTbl_eq sampleCalls_reaches (by decide +kernel)).mpr fun henable =>
    absurd henable (by decide +kernel)

/-- Handle 2 names the deleted head of a chain. Deleted again, it takes the index entry of the
other rule, which stays live. -/
theorem second_deletion_takes_entry :
    let s := sampleCalls [.add (sampleRule 1), .add (sampleRule 2), .del 2]
    let del := ipaNATIDelIpv4Rule sampleKernel s.driver (makeTblHdl 1 .ddr) 2
    s.deleted (s.slot (makeTblHdl 1 .ddr) 2) = true ∧ del.1 = 0 ∧
      ((s.driver.natTable .ddr).table.records 2).live = true ∧
      ((s.driver.natTable .ddr).table.records 2).indxTblEntry = 1 ∧
      ((s.driver.natTable .ddr).indexTable.records 1).tblEntry = 2 ∧
      ((del.2.natTable .ddr).indexTable.records 1).tblEntry = 0 := by
  decide +kernel

end RuleRun

end QcomModules.Ipanat
