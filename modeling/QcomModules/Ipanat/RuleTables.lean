import QcomModules.Ipanat.RuleSlots

/-! The NAT table and its index table together: the invariant that adding and deleting
rules keeps. -/

namespace QcomModules.Ipanat

open Library List IpaNatRule

/-! ## Base slots -/

theorem maskHash_pos {size : UInt16} (hsize : 0 < size.toNat) (hash : UInt16) :
    0 < (maskHash hash size).toNat := by
  rw [maskHash]
  split
  · exact hsize
  · next hne => exact Nat.pos_of_ne_zero fun heq => hne (UInt16.toNat.inj heq)

theorem maskHash_le (hash size : UInt16) : (maskHash hash size).toNat ≤ size.toNat := by
  rw [maskHash]
  split
  · exact le_refl _
  · rw [UInt16.toNat_and]
    exact Nat.and_le_right

variable {tableEntries expnTableEntries : Nat} {clntRule : IpaNatIpv4Rule}

theorem tokenSlot_pos_lt (h : 2 ≤ tableEntries) (hash : UInt16) (hashToken : Nat) :
    0 < tokenSlot hash hashToken tableEntries ∧
      tokenSlot hash hashToken tableEntries < tableEntries := by
  rw [tokenSlot]
  have hle : ((hash.toNat + hashToken) % 2 ^ 16 &&& (tableEntries - 1)) ≤ tableEntries - 1 :=
    Nat.and_le_right
  split
  · omega
  · omega

theorem toNat_ofNat_size (h : 2 ≤ tableEntries) (hle : tableEntries ≤ 4096) :
    (UInt16.ofNat (tableEntries - 1)).toNat = tableEntries - 1 :=
  UInt16.toNat_ofNat_of_lt' (by rw [UInt16.size]; omega)

theorem newEntryIndex_pos_lt (h : DimsOk tableEntries expnTableEntries) (env : RuleEnv)
    (hashToken : Nat) (clntRule : IpaNatIpv4Rule) :
    0 < (newEntryIndex env tableEntries hashToken clntRule).1 ∧
      (newEntryIndex env tableEntries hashToken clntRule).1 < tableEntries := by
  have hsize := toNat_ofNat_size h.two_le h.tableEntries_le
  have htwo := h.two_le
  rw [newEntryIndex]
  split
  · exact tokenSlot_pos_lt h.two_le _ _
  · exact ⟨maskHash_pos (by omega) _, lt_of_le_of_lt (maskHash_le _ _) (by omega)⟩

theorem newIndexTblEntryIndex_pos_lt (h : DimsOk tableEntries expnTableEntries) (hashToken : Nat)
    (clntRule : IpaNatIpv4Rule) :
    0 < (newIndexTblEntryIndex tableEntries hashToken clntRule).1 ∧
      (newIndexTblEntryIndex tableEntries hashToken clntRule).1 < tableEntries := by
  have hsize := toNat_ofNat_size h.two_le h.tableEntries_le
  have htwo := h.two_le
  rw [newIndexTblEntryIndex]
  split
  · exact tokenSlot_pos_lt h.two_le _ _
  · exact ⟨maskHash_pos (by omega) _, lt_of_le_of_lt (maskHash_le _ _) (by omega)⟩

/-- The base slot that `dst_hash` gives a rule from its own fields. -/
def IpaNatRule.dstSlot (env : RuleEnv) (tableEntries : Nat) (rule : IpaNatRule) : Nat :=
  (dstHash env.ver (env.pdns rule.pdnIndex) rule.targetIp rule.targetPort rule.publicPort
    rule.protocol (UInt16.ofNat (tableEntries - 1))).toNat

/-- The base slot of the index table that `src_hash` gives a rule. -/
def IpaNatRule.srcSlot (tableEntries : Nat) (rule : IpaNatRule) : Nat :=
  (srcHash rule.privateIp rule.privatePort rule.targetIp rule.targetPort rule.protocol
    (UInt16.ofNat (tableEntries - 1))).toNat

/-- What the client knows of a rule: everything but its place in the two tables. -/
def IpaNatRule.client (rule : IpaNatRule) : IpaNatRule := { rule.content with indxTblEntry := 0 }

section
variable {rule rule' : IpaNatRule}

theorem IpaNatRule.indxTblEntry_of_content (h : rule'.content = rule.content) :
    rule'.indxTblEntry = rule.indxTblEntry := by
  change rule'.content.indxTblEntry = rule.content.indxTblEntry
  rw [h]

theorem IpaNatRule.client_of_content (h : rule'.content = rule.content) :
    rule'.client = rule.client := by
  rw [client, client, h]

theorem IpaNatRule.live_of_client (h : rule'.client = rule.client) : rule'.live = rule.live := by
  change rule'.client.live = rule.client.live
  rw [h]

theorem IpaNatRule.slots_of_client (h : rule'.client = rule.client) (env : RuleEnv)
    (tableEntries : Nat) :
    rule'.srcOnly = rule.srcOnly ∧ rule'.dstOnly = rule.dstOnly ∧
      rule'.dstSlot env tableEntries = rule.dstSlot env tableEntries ∧
      rule'.srcSlot tableEntries = rule.srcSlot tableEntries := by
  change rule'.client.srcOnly = rule.client.srcOnly ∧
    rule'.client.dstOnly = rule.client.dstOnly ∧
    rule'.client.dstSlot env tableEntries = rule.client.dstSlot env tableEntries ∧
    rule'.client.srcSlot tableEntries = rule.client.srcSlot tableEntries
  rw [h]
  exact ⟨rfl, rfl, rfl, rfl⟩

end

/-! ## The invariant -/

/-- Ghost labels of the slots of both tables. -/
structure Links where
  rank : Nat → Nat
  root : Nat → Nat
  indexRank : Nat → Nat
  indexRoot : Nat → Nat

/-- Both tables are linked, and live rules and index entries point at each other. -/
structure NatInvariant (env : RuleEnv) (natTable : IpaNatIp4TableCache) (links : Links) :
    Prop where
  dims : DimsOk natTable.tableEntries natTable.expnTableEntries
  table : TableInvariant (entryInterface env.pdns) natTable.conf natTable.table links.rank
    links.root
  indexTable : TableInvariant indexEntryInterface natTable.indexConf natTable.indexTable
    links.indexRank links.indexRoot
  deadHeads : DeadHeads natTable.conf natTable.table
  live_index : ∀ i, (natTable.table.records i).live = true →
    (natTable.indexTable.records (natTable.table.records i).indxTblEntry).tblEntry = i
  index_live : ∀ j, (natTable.indexTable.records j).tblEntry ≠ 0 →
    (natTable.table.records (natTable.indexTable.records j).tblEntry).live = true ∧
    (natTable.table.records (natTable.indexTable.records j).tblEntry).indxTblEntry = j
  dst : ∀ i, (natTable.table.records i).live = true → (natTable.table.records i).srcOnly = false →
    links.root i = (natTable.table.records i).dstSlot env natTable.tableEntries
  src : ∀ i, (natTable.table.records i).live = true → (natTable.table.records i).dstOnly = false →
    links.indexRoot (natTable.table.records i).indxTblEntry =
      (natTable.table.records i).srcSlot natTable.tableEntries

/-- The state after a rule has been added at the free slot `x`. -/
structure RuleAdded (env : RuleEnv) (natTable : IpaNatIp4TableCache) (clntRule : IpaNatIpv4Rule)
    (x : Nat) (natTable' : IpaNatIp4TableCache) (links' : Links) : Prop where
  free : (natTable.table.records x).enable = false
  lt : x < natTable.conf.totTblEnts
  same : natTable' = { natTable with
    table := natTable'.table
    indexTable := natTable'.indexTable }
  invariant : NatInvariant env natTable' links'
  rule : ∃ indxTblEntry prevIndex,
    natTable'.table.records x = newRule env.pdns clntRule indxTblEntry prevIndex
  others : ∀ i, i ≠ x →
    (natTable'.table.records i).content = (natTable.table.records i).content

theorem newRule_live (pdns : Nat → UInt32) (hproto : clntRule.protocol ≠ natInvalidProtocol)
    (indxTblEntry prevIndex : Nat) :
    (newRule pdns clntRule indxTblEntry prevIndex).live = true := by
  simp [IpaNatRule.live, newRule, tableEntryCopyFromUser, hproto]

theorem newRule_dead (pdns : Nat → UInt32) (hproto : clntRule.protocol ≠ natInvalidProtocol)
    (indxTblEntry prevIndex : Nat) :
    (newRule pdns clntRule indxTblEntry prevIndex).dead = false := by
  simp [IpaNatRule.dead, newRule, tableEntryCopyFromUser, hproto]

theorem newRule_dstSlot {env : RuleEnv} (hpdn : clntRule.pdnIndex.toNat < ipaMaxPdnNum)
    (hsrc : clntRule.srcOnly = false) (tableEntries hashToken indxTblEntry prevIndex : Nat) :
    (newEntryIndex env tableEntries hashToken clntRule).1 =
      (newRule env.pdns clntRule indxTblEntry prevIndex).dstSlot env tableEntries := by
  have hmod : clntRule.pdnIndex.toNat % 16 = clntRule.pdnIndex.toNat :=
    Nat.mod_eq_of_lt hpdn
  simp [newEntryIndex, hsrc, dstSlot, newRule, tableEntryCopyFromUser, hmod]

theorem newRule_srcSlot (hdst : clntRule.dstOnly = false) (pdns : Nat → UInt32)
    (tableEntries hashToken indxTblEntry prevIndex : Nat) :
    (newIndexTblEntryIndex tableEntries hashToken clntRule).1 =
      (newRule pdns clntRule indxTblEntry prevIndex).srcSlot tableEntries := by
  simp [newIndexTblEntryIndex, hdst, srcSlot, newRule, tableEntryCopyFromUser]

/-! ## Adding a rule -/

/-- The base slot and every expansion slot of the NAT table are taken. -/
def NatFull (natTable : IpaNatIp4TableCache) (b : Nat) : Prop :=
  (natTable.table.records b).enable = true ∧
    ∀ x, natTable.tableEntries ≤ x → x < natTable.conf.totTblEnts →
      (natTable.table.records x).enable = true

def IndexFull (natTable : IpaNatIp4TableCache) (b : Nat) : Prop :=
  (natTable.indexTable.records b).tblEntry ≠ 0 ∧
    ∀ x, natTable.tableEntries ≤ x → x < natTable.indexConf.totTblEnts →
      (natTable.indexTable.records x).tblEntry ≠ 0

section
variable {env : RuleEnv} {natTable : IpaNatIp4TableCache} {links : Links}

theorem NatInvariant.ne_zero_of_live (h : NatInvariant env natTable links) {i : Nat}
    (hlive : (natTable.table.records i).live = true) : i ≠ 0 := by
  have henable : (natTable.table.records i).enable = true := by
    simp only [IpaNatRule.live, Bool.and_eq_true] at hlive
    exact hlive.1
  exact h.table.zero_notOcc henable

theorem applyDma_tables (natTable : IpaNatIp4TableCache) (table : IpaTable IpaNatRule)
    (indexTable : IpaTable IpaNatIndxTblRule) (cmd : List IpaIocNatDmaOne) :
    { natTable with table := table, indexTable := indexTable }.applyDma cmd =
      { natTable with
        table := cmd.foldl natTable.dmaTable table
        indexTable := cmd.foldl natTable.dmaIndexTable indexTable } := rfl

variable {clntRule : IpaNatIpv4Rule} {x y b j ruleHdl : Nat} {table : IpaTable IpaNatRule}
  {indexTable : IpaTable IpaNatIndxTblRule} {cmd : List IpaIocNatDmaOne}

theorem NatInvariant.inserted (h : NatInvariant env natTable links)
    (hproto : clntRule.protocol ≠ natInvalidProtocol)
    (hpdn : clntRule.pdnIndex.toNat < ipaMaxPdnNum) {hashToken hashToken' : Nat}
    {cmd' : List IpaIocNatDmaOne} (hnat : NatInserted env.pdns natTable links.root
      (newEntryIndex env natTable.tableEntries hashToken clntRule).1 clntRule table x cmd)
    (hindex : IndexInserted natTable links.indexRoot
      (newIndexTblEntryIndex natTable.tableEntries hashToken' clntRule).1 x indexTable y cmd') :
    ∃ links', RuleAdded env natTable clntRule x
      ({ natTable with
          table := { table with
            records := Function.update table.records x
              (finishRule (table.records x) clntRule y) }
          indexTable := indexTable }.applyDma (cmd ++ cmd')) links' := by
  obtain ⟨table', rank', root', prevIndex, htable, hinv, hroot, hroots, hnew, hothers⟩ :=
    hnat.final y
  obtain ⟨indexTable', irank', iroot', hindexTable, hiinv, hiroot, hiroots, hinew, hiothers⟩ :=
    hindex.final
  refine ⟨⟨rank', root', irank', iroot'⟩, ?_⟩
  have heq : { natTable with
      table := { table with
        records := Function.update table.records x (finishRule (table.records x) clntRule y) }
      indexTable := indexTable }.applyDma (cmd ++ cmd') =
      { natTable with table := table', indexTable := indexTable' } := by
    rw [applyDma_tables, foldl_append, foldl_append, htable, hindex.dmaTable,
      hnat.dmaIndex, hindexTable]
  rw [heq]
  have hlivex := newRule_live env.pdns hproto y prevIndex
  have hnotlive : (natTable.table.records x).live = false := by
    simp [IpaNatRule.live, hnat.free]
  have hlive : ∀ i, i ≠ x → (table'.records i).live = true →
      (natTable.table.records i).live = true := by
    intro i hi hlive
    rwa [live_of_content (hothers i hi).1] at hlive
  have hindx : ∀ i, i ≠ x →
      (table'.records i).indxTblEntry = (natTable.table.records i).indxTblEntry := by
    intro i hi
    exact indxTblEntry_of_content (hothers i hi).1
  -- the index slots of the other rules are not the new one, which was free
  have hney : ∀ i, (natTable.table.records i).live = true →
      (natTable.table.records i).indxTblEntry ≠ y := by
    intro i hi heq
    have hback := h.live_index i hi
    rw [heq, hindex.free] at hback
    exact h.ne_zero_of_live hi hback.symm
  refine ⟨hnat.free, hnat.lt, rfl, ⟨h.dims, hinv, hiinv, ?_, ?_, ?_, ?_, ?_⟩, ⟨y, prevIndex, hnew⟩,
    fun i hi => (hothers i hi).1⟩
  · intro i hdead
    by_cases hi : i = x
    · simp only [hi, hnew, newRule_dead env.pdns hproto] at hdead
      cases hdead
    · simp only [dead_of_content (hothers i hi).1] at hdead
      obtain ⟨hin, hne⟩ := h.deadHeads i hdead
      exact ⟨hin, (hothers i hi).2 hne⟩
  · intro i hlive'
    by_cases hi : i = x
    · simp only [hi, hnew]
      exact hinew
    · have hold := hlive i hi hlive'
      simp only [hindx i hi]
      rw [hiothers _ (hney i hold)]
      exact h.live_index i hold
  · intro j hj
    by_cases hjy : j = y
    · simp only [hjy, hinew, hnew]
      exact ⟨hlivex, rfl⟩
    · simp only [hiothers j hjy] at hj ⊢
      obtain ⟨hold, hback⟩ := h.index_live j hj
      have hi : (natTable.indexTable.records j).tblEntry ≠ x := by
        intro heq
        rw [heq, hnotlive] at hold
        cases hold
      exact ⟨(live_of_content (hothers _ hi).1).trans hold, (hindx _ hi).trans hback⟩
  · intro i hlive' hsrc
    by_cases hi : i = x
    · simp only [hi, hnew] at hsrc ⊢
      rw [hroot]
      exact newRule_dstSlot hpdn hsrc _ _ _ _
    · obtain ⟨hsrcEq, -, hdstSlot, -⟩ :=
        slots_of_client (client_of_content (hothers i hi).1) env
          natTable.tableEntries
      simp only [hsrcEq] at hsrc
      simp only [hroots i hi, h.dst i (hlive i hi hlive') hsrc, hdstSlot]
  · intro i hlive' hdst
    by_cases hi : i = x
    · simp only [hi, hnew] at hdst ⊢
      rw [newRule, hiroot]
      exact newRule_srcSlot hdst env.pdns _ _ _ _
    · obtain ⟨-, hdstEq, -, hsrcSlot⟩ :=
        slots_of_client (client_of_content (hothers i hi).1) env
          natTable.tableEntries
      have hold := hlive i hi hlive'
      simp only [hdstEq] at hdst
      simp only [hindx i hi, hiroots _ (hney i hold), h.src i hold hdst, hsrcSlot]

theorem NatInserted.not_full (h : NatInserted env.pdns natTable links.root b clntRule table x cmd) :
    ¬ NatFull natTable b := by
  rintro ⟨hb, hall⟩
  obtain ⟨table', rank', root', -, -, hinv, hroot, -⟩ := h.final 0
  have hfree := h.free
  by_cases hx : x < natTable.conf.tableEntries
  · rw [hinv.linked.root_head x hx] at hroot
    rw [hroot, hb] at hfree
    cases hfree
  · rw [hall x (not_lt.mp hx) h.lt] at hfree
    cases hfree

theorem IndexInserted.not_full {tblEntry : Nat}
    (h : IndexInserted natTable links.indexRoot b tblEntry indexTable y cmd) :
    ¬ IndexFull natTable b := by
  rintro ⟨hb, hall⟩
  obtain ⟨indexTable', rank', root', -, hinv, hroot, -⟩ := h.final
  by_cases hy : y < natTable.indexConf.tableEntries
  · rw [hinv.linked.root_head y hy] at hroot
    exact hb (hroot ▸ h.free)
  · exact hall y (not_lt.mp hy) h.lt h.free

/-- The base slots that a rule is given in the two tables, and the next `Hash_token`. -/
def ruleSlots (env : RuleEnv) (natTable : IpaNatIp4TableCache) (hashToken : Nat)
    (clntRule : IpaNatIpv4Rule) : Nat × Nat × Nat :=
  let (b, hashToken) := newEntryIndex env natTable.tableEntries hashToken clntRule
  (b, newIndexTblEntryIndex natTable.tableEntries hashToken clntRule)

/-- Both tables have a slot for the rule. -/
def HasRoom (env : RuleEnv) (natTable : IpaNatIp4TableCache) (hashToken : Nat)
    (clntRule : IpaNatIpv4Rule) : Prop :=
  ¬ NatFull natTable (ruleSlots env natTable hashToken clntRule).1 ∧
    ¬ IndexFull natTable (ruleSlots env natTable hashToken clntRule).2.1

/-- Adding a rule fails where there is no room for it, and leaves the tables as they were. Where
there is, what remains is the DMA command. -/
theorem NatInvariant.addRule_cases (h : NatInvariant env natTable links) (dmaRet : Int)
    (hashToken : Nat) (clntRule : IpaNatIpv4Rule) :
    (¬ HasRoom env natTable hashToken clntRule ∧ ∃ hashToken',
      addRuleLocked env dmaRet natTable hashToken clntRule =
        ⟨-1, 0, natTable, hashToken', false⟩) ∨
    (HasRoom env natTable hashToken clntRule ∧ ∃ table x cmd indexTable y cmd',
      NatInserted env.pdns natTable links.root (ruleSlots env natTable hashToken clntRule).1
        clntRule table x cmd ∧
      IndexInserted natTable links.indexRoot (ruleSlots env natTable hashToken clntRule).2.1 x
        indexTable y cmd' ∧
      ipaTableAddEntry indexEntryInterface natTable.indexConf natTable.indexTable x
        (ruleSlots env natTable hashToken clntRule).2.1 cmd = .ok (indexTable, y, cmd ++ cmd') ∧
      addRuleLocked env dmaRet natTable hashToken clntRule =
        if dmaRet ≠ 0 then
          ⟨- EIO, 0,
            { natTable with
              indexTable := ipaTableEraseEntry natTable.indexConf indexTable y },
            (ruleSlots env natTable hashToken clntRule).2.2, true⟩
        else
          ⟨0, makeEntryHdl natTable.conf x,
            { natTable with
              table := { table with
                records := Function.update table.records x
                  (finishRule (table.records x) clntRule y) }
              indexTable := indexTable }.applyDma (cmd ++ cmd'),
            (ruleSlots env natTable hashToken clntRule).2.2, true⟩) := by
  obtain ⟨hb, hbn⟩ := newEntryIndex_pos_lt h.dims env hashToken clntRule
  rcases nat_addEntry h.table h.dims hb.ne' hbn clntRule with
    ⟨table, x, cmd, hadd, hnat⟩ | ⟨hocc, hall, hadd⟩
  · obtain ⟨hib, hibn⟩ := newIndexTblEntryIndex_pos_lt h.dims
      (newEntryIndex env natTable.tableEntries hashToken clntRule).2 clntRule
    have hget : ipaTableGetEntryByIndex natTable.conf table x = some (table.records x) := by
      rw [ipaTableGetEntryByIndex, if_neg]
      rintro (heq | hge)
      · exact hnat.ne_zero heq
      · exact absurd hnat.lt (not_lt.mpr hge)
    rcases index_addEntry h.indexTable h.dims hib.ne' hibn hnat.ne_zero cmd with
      ⟨indexTable, y, cmd', hadd', hindex⟩ | ⟨hocc, hall, hadd'⟩
    · refine .inr ⟨⟨hnat.not_full, hindex.not_full⟩, table, x, cmd, indexTable, y, cmd', hnat,
        hindex, hadd', ?_⟩
      -- erasing the new record undoes the insertion, whatever was written to it
      have herase : ipaTableEraseEntry natTable.conf
          { table with
            records := Function.update table.records x
              (finishRule (table.records x) clntRule y) } x = natTable.table := by
        rw [← hnat.erase, ipaTableEraseEntry, ipaTableEraseEntry]
        simp only [Function.update_idem]
      simp only [addRuleLocked, hadd, hadd', hget, herase, ruleSlots]
    · refine .inl ⟨fun hroom => hroom.2 ⟨hocc, hall⟩, (newIndexTblEntryIndex natTable.tableEntries
        (newEntryIndex env natTable.tableEntries hashToken clntRule).2 clntRule).2, ?_⟩
      simp only [addRuleLocked, hadd, hadd', hnat.erase]
  · refine .inl ⟨fun hroom => hroom.1 ⟨hocc, hall⟩,
      (newEntryIndex env natTable.tableEntries hashToken clntRule).2, ?_⟩
    simp only [addRuleLocked, hadd]

theorem NatInvariant.addRule (h : NatInvariant env natTable links)
    (hproto : clntRule.protocol ≠ natInvalidProtocol)
    (hpdn : clntRule.pdnIndex.toNat < ipaMaxPdnNum) (hashToken : Nat) :
    (∃ x links' hashToken' natTable',
      addRuleLocked env 0 natTable hashToken clntRule =
        ⟨0, makeEntryHdl natTable.conf x, natTable', hashToken', true⟩ ∧
      RuleAdded env natTable clntRule x natTable' links') ∨
    ∃ hashToken',
      addRuleLocked env 0 natTable hashToken clntRule = ⟨-1, 0, natTable, hashToken', false⟩ := by
  rcases h.addRule_cases 0 hashToken clntRule with
    ⟨-, hfail⟩ | ⟨-, table, x, cmd, indexTable, y, cmd', hnat, hindex, -, hadd⟩
  · exact .inr hfail
  · obtain ⟨links', hadded⟩ := h.inserted hproto hpdn hnat hindex
    rw [if_neg (by simp)] at hadd
    exact .inl ⟨x, links', _, _, hadd, hadded⟩

/-! ## Deleting a rule -/

/-- The state after the live rule at slot `x` has been deleted. -/
structure RuleDeleted (env : RuleEnv) (natTable : IpaNatIp4TableCache) (x : Nat)
    (natTable' : IpaNatIp4TableCache) (links : Links) : Prop where
  same : natTable' = { natTable with
    table := natTable'.table
    indexTable := natTable'.indexTable }
  invariant : NatInvariant env natTable' links
  live : ∀ i, (natTable'.table.records i).live = true ↔
    i ≠ x ∧ (natTable.table.records i).live = true
  rule : ∀ i, (natTable'.table.records i).live = true →
    (natTable'.table.records i).client = (natTable.table.records i).client
  dead : ∀ i, (natTable'.table.records i).dead = true →
    i = x ∨ (natTable.table.records i).dead = true

/-- The NAT table once the rule whose index entry is `y` is told that it now is `j`. -/
def IpaNatIp4TableCache.retargeted (natTable : IpaNatIp4TableCache) (y j : Nat) :
    IpaTable IpaNatRule :=
  if y = j then natTable.table
  else (natTable.setIndxTblEntry (natTable.indexTable.records y).tblEntry j).table

theorem IpaNatIp4TableCache.retargeted_cases (natTable : IpaNatIp4TableCache) (y j i : Nat) :
    (natTable.retargeted y j).records i = natTable.table.records i ∧
        (y = j ∨ i ≠ (natTable.indexTable.records y).tblEntry) ∨
      (natTable.retargeted y j).records i =
        { natTable.table.records i with indxTblEntry := j } ∧
        y ≠ j ∧ i = (natTable.indexTable.records y).tblEntry := by
  rw [retargeted]
  split
  · next heq => exact .inl ⟨rfl, .inl heq⟩
  · next hne =>
      by_cases hi : i = (natTable.indexTable.records y).tblEntry
      · exact .inr ⟨by simp [setIndxTblEntry, hi], hne, hi⟩
      · exact .inl ⟨by simp [setIndxTblEntry, hi], .inr hi⟩

theorem IpaNatIp4TableCache.retargeted_same (natTable : IpaNatIp4TableCache) (y j i : Nat) :
    ((natTable.retargeted y j).records i).client = (natTable.table.records i).client ∧
      ((natTable.retargeted y j).records i).nextIndex = (natTable.table.records i).nextIndex ∧
      ((natTable.retargeted y j).records i).prevIndex = (natTable.table.records i).prevIndex := by
  rcases natTable.retargeted_cases y j i with ⟨heq, -⟩ | ⟨heq, -⟩
  · rw [heq]
    exact ⟨rfl, rfl, rfl⟩
  · rw [heq]
    exact ⟨rfl, rfl, rfl⟩

theorem IpaNatRule.enable_of_client {rule rule' : IpaNatRule} (h : rule'.client = rule.client) :
    rule'.enable = rule.enable := by
  change rule'.client.enable = rule.client.enable
  rw [h]

theorem IpaNatRule.dead_of_client {rule rule' : IpaNatRule} (h : rule'.client = rule.client) :
    rule'.dead = rule.dead := by
  change rule'.client.dead = rule.client.dead
  rw [h]

theorem IpaNatRule.enable_of_live {rule : IpaNatRule} (h : rule.live = true) :
    rule.enable = true := by
  simp only [live, Bool.and_eq_true] at h
  exact h.1

theorem IpaNatRule.dead_of_not_live {rule : IpaNatRule} (henable : rule.enable = true)
    (hnot : rule.live = false) : rule.dead = true := by
  simp_all [live, dead]

theorem NatInvariant.retargeted (h : NatInvariant env natTable links)
    (hy : (natTable.indexTable.records y).tblEntry ≠ 0) (j : Nat) :
    TableInvariant (entryInterface env.pdns) natTable.conf (natTable.retargeted y j) links.rank
      links.root ∧ DeadHeads natTable.conf (natTable.retargeted y j) := by
  have hsame := natTable.retargeted_same y j
  have henable : ∀ i, ((natTable.retargeted y j).records i).enable =
      (natTable.table.records i).enable :=
    fun i => enable_of_client (hsame i).1
  constructor
  · refine h.table.congr henable (fun i _ => (hsame i).2.1) (fun i _ => (hsame i).2.2) ?_ ?_ ?_
    · intro i hfree
      have hfree' : (natTable.table.records i).enable = false := (henable i).symm.trans hfree
      rcases natTable.retargeted_cases y j i with ⟨heq, -⟩ | ⟨-, -, hi⟩
      · rw [heq]
        exact h.table.free i hfree'
      · have hlive := enable_of_live (h.index_live y hy).1
        rw [← hi, hfree'] at hlive
        cases hlive
    · rw [IpaNatIp4TableCache.retargeted]
      split <;> rfl
    · rw [IpaNatIp4TableCache.retargeted]
      split <;> rfl
  · intro i hdead
    rw [dead_of_client (hsame i).1] at hdead
    rw [(hsame i).2.1]
    exact h.deadHeads i hdead

theorem NatInvariant.deleted (h : NatInvariant env natTable links)
    (hx : (natTable.table.records x).live = true) {table' : IpaTable IpaNatRule}
    {indexTable' : IpaTable IpaNatIndxTblRule}
    (hindex : IndexDeleted natTable.indexConf links.indexRank links.indexRoot natTable.indexTable
      (natTable.table.records x).indxTblEntry y indexTable')
    (hnat : NatDeleted env.pdns natTable.conf links.rank links.root
      (natTable.retargeted y (natTable.table.records x).indxTblEntry) x table') :
    RuleDeleted env natTable x { natTable with table := table', indexTable := indexTable' }
      links := by
  have hback := h.live_index x hx
  have hsame := natTable.retargeted_same y (natTable.table.records x).indxTblEntry
  have hcases := natTable.retargeted_cases y (natTable.table.records x).indxTblEntry
  have hlive : ∀ i, (table'.records i).live = true ↔
      i ≠ x ∧ (natTable.table.records i).live = true := by
    intro i
    rw [hnat.live i, live_of_client (hsame i).1]
  have hcontent : ∀ i, (table'.records i).live = true → (table'.records i).content =
      ((natTable.retargeted y (natTable.table.records x).indxTblEntry).records i).content :=
    fun i hi => hnat.content i ((hnat.live i).mp hi).1 ((hnat.live i).mp hi).2
  have hclient : ∀ i, (table'.records i).live = true →
      (table'.records i).client = (natTable.table.records i).client :=
    fun i hi => (client_of_content (hcontent i hi)).trans (hsame i).1
  -- the index entry of a remaining rule: its own, unless it was the second entry
  have hentry : ∀ i, (table'.records i).live = true →
      ((table'.records i).indxTblEntry = (natTable.table.records i).indxTblEntry ∧
        (table'.records i).indxTblEntry ≠ (natTable.table.records x).indxTblEntry ∧
        (table'.records i).indxTblEntry ≠ y) ∨
      ((table'.records i).indxTblEntry = (natTable.table.records x).indxTblEntry ∧
        (natTable.table.records i).indxTblEntry = y ∧
        y ≠ (natTable.table.records x).indxTblEntry) := by
    intro i hi
    obtain ⟨hne, hold⟩ := (hlive i).mp hi
    have hbacki := h.live_index i hold
    rw [indxTblEntry_of_content (hcontent i hi)]
    rcases hcases i with ⟨heq, hor⟩ | ⟨heq, hyj, hi'⟩
    · rw [heq]
      refine .inl ⟨rfl, ?_, ?_⟩
      · intro hj
        rw [hj, hback] at hbacki
        exact hne hbacki.symm
      · intro hy
        rw [hy] at hbacki
        rcases hor with hyj | hne'
        · rw [hyj, hback] at hbacki
          exact hne hbacki.symm
        · exact hne' hbacki.symm
    · rw [heq]
      refine .inr ⟨rfl, ?_, hyj⟩
      have hown := (h.index_live y hindex.occ).2
      rwa [← hi'] at hown
  have hremains : ∀ k, (natTable.indexTable.records k).tblEntry ≠ 0 →
      k ≠ (natTable.table.records x).indxTblEntry →
      (table'.records (natTable.indexTable.records k).tblEntry).live = true ∧
        (natTable.table.records (natTable.indexTable.records k).tblEntry).indxTblEntry = k := by
    intro k hk hkj
    obtain ⟨hold, hown⟩ := h.index_live k hk
    refine ⟨(hlive _).mpr ⟨?_, hold⟩, hown⟩
    intro heq
    rw [heq] at hown
    exact hkj hown.symm
  refine ⟨rfl, ⟨h.dims, hnat.invariant, hindex.invariant, hnat.deadHeads, ?_, ?_, ?_, ?_⟩, hlive,
    hclient, ?_⟩
  · intro i hi
    obtain ⟨-, hold⟩ := (hlive i).mp hi
    rcases hentry i hi with ⟨heq, hj, hy⟩ | ⟨heq, hold', hyj⟩
    · change (indexTable'.records (table'.records i).indxTblEntry).tblEntry = i
      rw [hindex.others _ hy hj, heq]
      exact h.live_index i hold
    · simp only [heq, hindex.moved hyj, ← hold']
      exact h.live_index i hold
  · intro k hk
    change (indexTable'.records k).tblEntry ≠ 0 at hk
    change (table'.records (indexTable'.records k).tblEntry).live = true ∧
      (table'.records (indexTable'.records k).tblEntry).indxTblEntry = k
    have hky : k ≠ y := by
      rintro rfl
      exact hk hindex.gone
    by_cases hkj : k = (natTable.table.records x).indxTblEntry
    · have hyj : y ≠ (natTable.table.records x).indxTblEntry := fun heq => hky (hkj.trans heq.symm)
      rw [hkj, hindex.moved hyj]
      obtain ⟨hlive', heq⟩ := hremains y hindex.occ hyj
      refine ⟨hlive', ?_⟩
      rcases hentry _ hlive' with ⟨heq', -, hne⟩ | ⟨heq', -, -⟩
      · exact absurd (heq'.trans heq) hne
      · exact heq'
    · rw [hindex.others k hky hkj] at hk ⊢
      obtain ⟨hlive', heq⟩ := hremains k hk hkj
      refine ⟨hlive', ?_⟩
      rcases hentry _ hlive' with ⟨heq', -, -⟩ | ⟨-, heq', -⟩
      · exact heq'.trans heq
      · exact absurd (heq.symm.trans heq') hky
  · intro i hi hsrc
    obtain ⟨hsrcEq, -, hdstSlot, -⟩ :=
      slots_of_client (hclient i hi) env natTable.tableEntries
    simp only [hsrcEq] at hsrc
    simp only [h.dst i ((hlive i).mp hi).2 hsrc, hdstSlot]
  · intro i hi hdst
    obtain ⟨-, hdstEq, -, hsrcSlot⟩ :=
      slots_of_client (hclient i hi) env natTable.tableEntries
    simp only [hdstEq] at hdst
    have hold := h.src i ((hlive i).mp hi).2 hdst
    rcases hentry i hi with ⟨heq, -, -⟩ | ⟨heq, hold', -⟩
    · simp only [heq, hold, hsrcSlot]
    · simp only [heq, ← hindex.root_eq, ← hold', hold, hsrcSlot]
  · intro i hdead
    rcases hnat.dead i hdead with heq | hold
    · exact .inl heq
    · exact .inr (by rwa [dead_of_client (hsame i).1] at hold)

theorem IpaNatIp4TableCache.retargeted_eq (natTable : IpaNatIp4TableCache) (y j : Nat) :
    (if y = j then natTable
      else natTable.setIndxTblEntry (natTable.indexTable.records y).tblEntry j) =
      { natTable with table := natTable.retargeted y j } := by
  rw [retargeted]
  split <;> rfl

theorem finishDelete_applyDma {dma : IpaIocNatDmaOne}
    (hdma : ∀ table, cmd.foldl natTable.dmaTable table = table)
    (hdmaIndex : ∀ indexTable, natTable.dmaIndexTable indexTable dma = indexTable)
    (pdns : Nat → UInt32) (table : IpaTable IpaNatRule) (iterator iterator' : IpaTableIterator) :
    finishDelete pdns ({ natTable with table := table }.applyDma (cmd ++ [dma])) iterator
        iterator' =
      { natTable with
        table := deleteTableEntry pdns natTable.conf (natTable.dmaTable table dma) iterator
        indexTable := deleteIndexTableEntry natTable.indexConf
          (cmd.foldl natTable.dmaIndexTable natTable.indexTable) iterator' } := by
  have happly : { natTable with table := table }.applyDma (cmd ++ [dma]) =
      { natTable with
        table := natTable.dmaTable table dma
        indexTable := cmd.foldl natTable.dmaIndexTable natTable.indexTable } := by
    rw [applyDma_tables natTable table natTable.indexTable, foldl_append, foldl_append,
      hdma]
    simp only [foldl_cons, foldl_nil, hdmaIndex]
  rw [happly]
  rfl

theorem NatInvariant.emptiedIndex_eq_iff (h : NatInvariant env natTable links)
    (hj : (natTable.indexTable.records j).tblEntry ≠ 0) :
    natTable.emptiedIndex j = j ↔ ¬ natTable.HeadsTail j := by
  have hocc : natTable.indexTable.occ indexEntryInterface j = true := by simpa using hj
  rw [IpaNatIp4TableCache.emptiedIndex]
  split
  · next hheads =>
      refine iff_of_false (fun heq => ?_) (not_not.mpr hheads)
      have hrank := h.indexTable.linked.rank_next hocc hheads.2
      rw [next_indexEntryInterface, heq] at hrank
      omega
  · next hheads => exact iff_of_true rfl hheads

/-- Deleting what an enabled slot holds when its index entry is in use: what remains is the DMA
command, before which the NAT rule of the second index entry may have been changed. -/
theorem NatInvariant.delRule_enabled (h : NatInvariant env natTable links)
    (hx : ruleHdlIndex natTable.conf ruleHdl = x)
    (henable : (natTable.table.records x).enable = true)
    (hj : (natTable.table.records x).indxTblEntry = j)
    (hoccx : (natTable.indexTable.records j).tblEntry ≠ 0) (dmaRet : Int) :
    ∃ table' indexTable',
      IndexDeleted natTable.indexConf links.indexRank links.indexRoot natTable.indexTable j
        (natTable.emptiedIndex j) indexTable' ∧
      NatDeleted env.pdns natTable.conf links.rank links.root
        (natTable.retargeted (natTable.emptiedIndex j) j) x table' ∧
      delRuleLocked env.pdns dmaRet natTable ruleHdl =
        if dmaRet ≠ 0 then
          ⟨- EIO, { natTable with
            table := natTable.retargeted (natTable.emptiedIndex j) j }, true⟩
        else ⟨0, { natTable with table := table', indexTable := indexTable' }, true⟩ := by
  have hoccTable : natTable.table.occ (entryInterface env.pdns) x = true := henable
  have hocc : natTable.indexTable.occ indexEntryInterface j = true := by simpa using hoccx
  obtain ⟨y, natTable₁, iterator, cmd, hy, hprep, hdma, hindex, hnatTable₁⟩ :=
    index_delete h.indexTable hoccx
  subst hy
  rw [natTable.retargeted_eq] at hnatTable₁
  obtain ⟨hinv, hdead⟩ := h.retargeted hindex.occ j
  obtain ⟨hclient, hnext, hprev⟩ := natTable.retargeted_same (natTable.emptiedIndex j) j x
  obtain ⟨dma, hcmd, hdmaIndex, hnat⟩ := nat_delete hinv hdead
    ((enable_of_client hclient).trans henable) cmd
  rw [hnext, hprev] at hcmd hnat
  refine ⟨_, _, hindex, hnat, ?_⟩
  have hiter := h.table.iteratorInit hoccTable
  rw [next_entryInterface, prev_entryInterface] at hiter
  simp only [delRuleLocked, hx, if_neg (not_le.mpr (h.table.lt_tot hoccTable)), hiter, hj,
    h.indexTable.getEntryByIndex hocc, h.indexTable.iteratorInit hocc, hprep, hnatTable₁]
  simp only [Option.isNone_some, Bool.false_eq_true, if_false]
  have hfinish := finishDelete_applyDma hdma hdmaIndex env.pdns
    (natTable.retargeted (natTable.emptiedIndex j) j)
    ⟨(natTable.table.records x).prevIndex, x, (natTable.table.records x).nextIndex⟩ iterator
  rw [← hcmd] at hfinish
  split
  · rfl
  · exact congrArg (fun natTable' => (⟨0, natTable', true⟩ : DelRuleResult)) hfinish

theorem NatInvariant.delRule_live (h : NatInvariant env natTable links)
    (hlive : (natTable.table.records (ruleHdlIndex natTable.conf ruleHdl)).live = true) :
    ∃ natTable', delRuleLocked env.pdns 0 natTable ruleHdl = ⟨0, natTable', true⟩ ∧
      RuleDeleted env natTable (ruleHdlIndex natTable.conf ruleHdl) natTable' links := by
  have hoccx : (natTable.indexTable.records (natTable.table.records
      (ruleHdlIndex natTable.conf ruleHdl)).indxTblEntry).tblEntry ≠ 0 := by
    rw [h.live_index _ hlive]
    exact h.ne_zero_of_live hlive
  obtain ⟨table', indexTable', hindex, hnat, hdel⟩ :=
    h.delRule_enabled rfl (enable_of_live hlive) rfl hoccx 0
  rw [if_neg (by simp)] at hdel
  exact ⟨_, hdel, h.deleted hlive hindex hnat⟩

theorem delRuleLocked_free
    (hfree : (natTable.table.records (ruleHdlIndex natTable.conf ruleHdl)).enable = false)
    (pdns : Nat → UInt32) (dmaRet : Int) :
    delRuleLocked pdns dmaRet natTable ruleHdl = ⟨-EINVAL, natTable, false⟩ := by
  rw [delRuleLocked]
  simp only
  split
  · rfl
  · have hinit : ipaTableIteratorInit (entryInterface pdns) natTable.conf natTable.table
        (ruleHdlIndex natTable.conf ruleHdl) = .error (-EINVAL) := by
      simp [ipaTableIteratorInit, entryInterface, hfree]
    rw [hinit]

/-- An enabled slot whose index entry is not in use cannot be deleted either. -/
theorem delRuleLocked_unindexed (hfree : (natTable.indexTable.records (natTable.table.records
      (ruleHdlIndex natTable.conf ruleHdl)).indxTblEntry).tblEntry = 0) (pdns : Nat → UInt32)
    (dmaRet : Int) :
    ∃ ret, ret ≠ 0 ∧ delRuleLocked pdns dmaRet natTable ruleHdl = ⟨ret, natTable, false⟩ := by
  have hinit : ipaTableIteratorInit indexEntryInterface natTable.indexConf natTable.indexTable
      (natTable.table.records (ruleHdlIndex natTable.conf ruleHdl)).indxTblEntry =
        .error (-EINVAL) := by
    simp [ipaTableIteratorInit, indexEntryInterface, hfree]
  rw [delRuleLocked]
  simp only [hinit]
  split
  · exact ⟨_, by decide, rfl⟩
  · split
    · next ret hiter => exact ⟨ret, TableInvariant.iteratorInit_error hiter, rfl⟩
    · split
      · exact ⟨_, by decide, rfl⟩
      · exact ⟨_, by decide, rfl⟩

end

end QcomModules.Ipanat
