import QcomModules.Ipanat.NatTable
import QcomModules.Ipanat.TableLinks

/-! What adding and deleting a rule does to the slots of the NAT table and of the index
table, once the DMA command has been applied. -/

namespace QcomModules.Ipanat

open Library List Function

/-! ## DMA writes -/

namespace IpaNatIp4TableCache

variable (natTable : IpaNatIp4TableCache)

/-- The byte offset in a NAT rule of the field that a helper writes. -/
def fieldOffset : DmaHelpType → Nat
  | .updateHead => 18
  | .updateEntry => 8
  | .deleteHead => 22

def indexFieldOffset : DmaHelpType → Nat
  | .updateHead => 0
  | .updateEntry => 2
  | .deleteHead => 0

theorem dmaTable_dmaOne (table : IpaTable IpaNatRule) (helpType : DmaHelpType) (i data : Nat) :
    natTable.dmaTable table (dmaOne natTable.conf helpType i data) =
      { table with
        records := Function.update table.records i
          ((table.records i).write (fieldOffset helpType) data) } := by
  by_cases hi : i ≥ natTable.tableEntries
  · have hslot : natTable.tableEntries + (i - natTable.tableEntries) = i := by omega
    cases helpType <;>
      simp [dmaTable, dmaOne, conf, tableDmaHelp, fieldOffset, if_pos hi, Nat.add_assoc,
        Nat.add_mul_div_right, Nat.add_mul_mod_self_right, hslot]
  · cases helpType <;>
      simp [dmaTable, dmaOne, conf, tableDmaHelp, fieldOffset, if_neg hi, Nat.add_assoc,
        Nat.add_mul_div_right, Nat.add_mul_mod_self_right]

theorem dmaIndexTable_dmaOne (indexTable : IpaTable IpaNatIndxTblRule) (helpType : DmaHelpType)
    (i data : Nat) :
    natTable.dmaIndexTable indexTable (dmaOne natTable.indexConf helpType i data) =
      { indexTable with
        records := Function.update indexTable.records i
          ((indexTable.records i).write (indexFieldOffset helpType) data) } := by
  by_cases hi : i ≥ natTable.tableEntries
  · have hslot : natTable.tableEntries + (i - natTable.tableEntries) = i := by omega
    cases helpType <;>
      simp [dmaIndexTable, dmaOne, indexConf, indexTableDmaHelp, indexFieldOffset, if_pos hi,
        Nat.add_assoc, Nat.add_mul_div_right, Nat.add_mul_mod_self_right, hslot]
  · cases helpType <;>
      simp [dmaIndexTable, dmaOne, indexConf, indexTableDmaHelp, indexFieldOffset, if_neg hi,
        Nat.add_assoc, Nat.add_mul_div_right, Nat.add_mul_mod_self_right]

theorem dmaTable_indexOne (table : IpaTable IpaNatRule) (helpType : DmaHelpType) (i data : Nat) :
    natTable.dmaTable table (dmaOne natTable.indexConf helpType i data) = table := by
  by_cases hi : i ≥ natTable.tableEntries <;> cases helpType <;>
    simp [dmaTable, dmaOne, indexConf, indexTableDmaHelp, hi]

theorem dmaIndexTable_natOne (indexTable : IpaTable IpaNatIndxTblRule) (helpType : DmaHelpType)
    (i data : Nat) :
    natTable.dmaIndexTable indexTable (dmaOne natTable.conf helpType i data) = indexTable := by
  by_cases hi : i ≥ natTable.tableEntries <;> cases helpType <;>
    simp [dmaIndexTable, dmaOne, conf, tableDmaHelp, hi]

end IpaNatIp4TableCache

/-! ## Inserting into the NAT table -/

section
variable {pdns : Nat → UInt32} {conf : IpaTableConf} {table : IpaTable IpaNatRule}
  {rank root : Nat → Nat}

@[simp]
theorem occ_entryInterface (i : Nat) :
    table.occ (entryInterface pdns) i = (table.records i).enable := rfl

@[simp]
theorem next_entryInterface (i : Nat) :
    table.next (entryInterface pdns) i = (table.records i).nextIndex := rfl

@[simp]
theorem prev_entryInterface (i : Nat) :
    table.prev (entryInterface pdns) conf i = (table.records i).prevIndex := rfl

@[simp]
theorem default_enable : (default : IpaNatRule).enable = false := rfl

theorem write_natFlags (rule : IpaNatRule) (hidx : rule.ucActivationIndex < 2 ^ 13) :
    rule.write 18 (natFlags true false rule.s rule.ucActivationIndex) =
      { rule with redirect := false, enable := true } := by
  have huc : natFlags true false rule.s rule.ucActivationIndex % 2 ^ 13 =
      rule.ucActivationIndex := by
    cases rule.s <;> simp [natFlags] <;> omega
  have hs : decide (natFlags true false rule.s rule.ucActivationIndex / 2 ^ 13 % 2 = 1) =
      rule.s := by
    cases rule.s <;> simp [natFlags] <;> omega
  have hredirect : decide (natFlags true false rule.s rule.ucActivationIndex / 2 ^ 14 % 2 = 1) =
      false := by
    cases rule.s <;> simp [natFlags] <;> omega
  have henable : decide (natFlags true false rule.s rule.ucActivationIndex / 2 ^ 15 % 2 = 1) =
      true := by
    cases rule.s <;> simp [natFlags] <;> omega
  simp only [IpaNatRule.write, huc, hs, hredirect, henable]

def newRule (pdns : Nat → UInt32) (clntRule : IpaNatIpv4Rule) (indxTblEntry prevIndex : Nat) :
    IpaNatRule :=
  { tableEntryCopyFromUser pdns default clntRule with
    prevIndex := prevIndex
    indxTblEntry := indxTblEntry
    timeStamp := clntRule.timeStamp.toNat % 2 ^ 24
    redirect := false
    enable := true }

theorem finishRule_write (clntRule : IpaNatIpv4Rule) (indxTblEntry prevIndex : Nat) :
    (finishRule { tableEntryCopyFromUser pdns default clntRule with prevIndex := prevIndex }
      clntRule indxTblEntry).write 18
        (tableEntryHeadInsert pdns default clntRule).2 =
      newRule pdns clntRule indxTblEntry prevIndex := by
  have hidx : clntRule.ucActivationIndex.toNat % 2 ^ 13 < 2 ^ 13 :=
    Nat.mod_lt _ (by decide)
  exact write_natFlags (finishRule { tableEntryCopyFromUser pdns default clntRule with
    prevIndex := prevIndex } clntRule indxTblEntry) hidx

end

/-- A rule less its place in a chain. -/
def IpaNatRule.content (rule : IpaNatRule) : IpaNatRule :=
  { rule with nextIndex := 0, prevIndex := 0 }

/-- The NAT half of adding a rule: `table` with the new slot `x` and the writes `cmd`
still to be applied. -/
structure NatInserted (pdns : Nat → UInt32) (natTable : IpaNatIp4TableCache)
    (root : Nat → Nat) (b : Nat) (clntRule : IpaNatIpv4Rule) (table : IpaTable IpaNatRule)
    (x : Nat) (cmd : List IpaIocNatDmaOne) : Prop where
  free : (natTable.table.records x).enable = false
  lt : x < natTable.conf.totTblEnts
  ne_zero : x ≠ 0
  erase : ipaTableEraseEntry natTable.conf table x = natTable.table
  dmaIndex : ∀ indexTable, cmd.foldl natTable.dmaIndexTable indexTable = indexTable
  final : ∀ indxTblEntry, ∃ table' rank' root' prevIndex,
    cmd.foldl natTable.dmaTable
      { table with
        records := Function.update table.records x
          (finishRule (table.records x) clntRule indxTblEntry) } = table' ∧
    TableInvariant (entryInterface pdns) natTable.conf table' rank' root' ∧
    root' x = b ∧ (∀ i, i ≠ x → root' i = root i) ∧
    table'.records x = newRule pdns clntRule indxTblEntry prevIndex ∧
    ∀ i, i ≠ x → (table'.records i).content = (natTable.table.records i).content ∧
      ((natTable.table.records i).nextIndex ≠ 0 → (table'.records i).nextIndex ≠ 0)

section
variable {pdns : Nat → UInt32} {natTable : IpaNatIp4TableCache} {rank root : Nat → Nat}

variable {b : Nat}

theorem natInserted_head
    (h : TableInvariant (entryInterface pdns) natTable.conf natTable.table rank root) (hb : b ≠ 0)
    (hbn : b < natTable.conf.tableEntries) (hfree : (natTable.table.records b).enable = false)
    (clntRule : IpaNatIpv4Rule) :
    NatInserted pdns natTable root b clntRule
      { natTable.table with
        records := Function.update natTable.table.records b
          (tableEntryHeadInsert pdns default clntRule).1
        curTblCnt := natTable.table.curTblCnt + 1 } b
      [dmaOne natTable.conf .updateHead b (tableEntryHeadInsert pdns default clntRule).2] where
  free := hfree
  lt := Nat.lt_add_right _ hbn
  ne_zero := hb
  erase := by
    have hzero : natTable.table.records b = default := h.free b hfree
    rw [ipaTableEraseEntry]
    simp only [if_pos hbn, update_idem, UInt16.add_sub_cancel, ← hzero,
      update_eq_self]
  dmaIndex indexTable := natTable.dmaIndexTable_natOne indexTable _ _ _
  final indxTblEntry := by
    have hwrite : (finishRule (tableEntryHeadInsert pdns default clntRule).1 clntRule
        indxTblEntry).write 18 (tableEntryHeadInsert pdns default clntRule).2 =
        newRule pdns clntRule indxTblEntry 0 := finishRule_write clntRule indxTblEntry 0
    refine ⟨_, rank, root, 0, rfl, ?_, h.linked.root_head b hbn, fun _ _ => rfl, ?_, ?_⟩
    all_goals
      simp only [foldl_cons, foldl_nil, IpaNatIp4TableCache.dmaTable_dmaOne,
        update_self, update_idem, IpaNatIp4TableCache.fieldOffset, hwrite]
    · exact h.insertHead hb hbn hfree rfl rfl rfl
    · intro i hi
      rw [update_of_ne hi]
      exact ⟨rfl, id⟩

theorem natInserted_tail (hn : 0 < natTable.conf.tableEntries)
    (h : TableInvariant (entryInterface pdns) natTable.conf natTable.table rank root) {p x : Nat}
    (hp : (natTable.table.records p).enable = true)
    (hlast : (natTable.table.records p).nextIndex = 0) (hroot : root p = b)
    (hx : natTable.conf.tableEntries ≤ x) (hxN : x < natTable.conf.totTblEnts)
    (hfree : (natTable.table.records x).enable = false) (clntRule : IpaNatIpv4Rule) :
    NatInserted pdns natTable root b clntRule
      { natTable.table with
        records := Function.update natTable.table.records x
          { tableEntryCopyFromUser pdns default clntRule with prevIndex := p }
        curExpnTblCnt := natTable.table.curExpnTblCnt + 1 } x
      [dmaOne natTable.conf .updateHead x (tableEntryHeadInsert pdns default clntRule).2,
        dmaOne natTable.conf .updateEntry p x] where
  free := hfree
  lt := hxN
  ne_zero := by omega
  erase := by
    have hzero : natTable.table.records x = default := h.free x hfree
    rw [ipaTableEraseEntry]
    simp only [if_neg (not_lt.mpr hx), update_idem, UInt16.add_sub_cancel, ← hzero,
      update_eq_self]
  dmaIndex indexTable := by
    simp only [foldl_cons, foldl_nil, IpaNatIp4TableCache.dmaIndexTable_natOne]
  final indxTblEntry := by
    have hpx : p ≠ x := fun heq => by simp [← heq, hp] at hfree
    refine ⟨_, update rank x (rank p + 1), update root x (root p), p, rfl, ?_,
      ?_, ?_, ?_, ?_⟩
    rotate_left 1
    · rw [update_self, hroot]
    · intro i hi
      rw [update_of_ne hi]
    all_goals
      simp only [foldl_cons, foldl_nil, IpaNatIp4TableCache.dmaTable_dmaOne,
        update_self, update_idem, IpaNatIp4TableCache.fieldOffset,
        update_of_ne hpx, update_of_ne hpx.symm, finishRule_write]
    · intro i hi
      by_cases hip : i = p
      · rw [hip, update_self]
        exact ⟨rfl, fun hne => absurd hlast hne⟩
      · rw [update_of_ne hip, update_of_ne hi]
        exact ⟨rfl, id⟩
    · refine h.insertTail hn hp hlast hx hxN hfree rfl rfl rfl hp rfl ?_ rfl rfl
      intro i _
      by_cases hi : i = x
      · simp [hi, hpx.symm, newRule]
      · by_cases hip : i = p
        · simp [hip, hpx]
          rfl
        · simp [hi, hip]

theorem nat_addEntry
    (h : TableInvariant (entryInterface pdns) natTable.conf natTable.table rank root)
    (hdims : DimsOk natTable.tableEntries natTable.expnTableEntries) (hb : b ≠ 0)
    (hbn : b < natTable.tableEntries) (clntRule : IpaNatIpv4Rule) :
    (∃ table x cmd, ipaTableAddEntry (entryInterface pdns) natTable.conf natTable.table clntRule b
        [] = .ok (table, x, cmd) ∧ NatInserted pdns natTable root b clntRule table x cmd) ∨
    ((natTable.table.records b).enable = true ∧
      (∀ x, natTable.tableEntries ≤ x → x < natTable.conf.totTblEnts →
        (natTable.table.records x).enable = true) ∧
      ipaTableAddEntry (entryInterface pdns) natTable.conf natTable.table clntRule b [] =
        .error (-1)) := by
  have hn : 0 < natTable.conf.tableEntries := Nat.lt_of_lt_of_le Nat.zero_lt_two hdims.two_le
  rcases h.addEntry hdims hbn clntRule [] with ⟨hfree, hadd⟩ |
    ⟨_, p, x, hp, hlast, hroot, hx, hxN, hfree, hadd⟩ | hfull
  · have hzero : natTable.table.records b = default := h.free b hfree
    rw [hzero] at hadd
    exact .inl ⟨_, _, _, hadd, natInserted_head h hb hbn hfree clntRule⟩
  · have hzero : natTable.table.records x = default := h.free x hfree
    rw [tailResult, tailEntry, hzero] at hadd
    exact .inl ⟨_, _, _, hadd, natInserted_tail hn h hp hlast hroot hx hxN hfree clntRule⟩
  · exact .inr hfull

end

/-! ## Inserting into the index table -/

section
variable {conf : IpaTableConf} {indexTable : IpaTable IpaNatIndxTblRule} {rank root : Nat → Nat}

@[simp]
theorem occ_indexEntryInterface (i : Nat) : indexTable.occ indexEntryInterface i =
    decide ((indexTable.records i).tblEntry ≠ 0) := rfl

@[simp]
theorem next_indexEntryInterface (i : Nat) : indexTable.next indexEntryInterface i =
    (indexTable.records i).nextIndex := rfl

@[simp]
theorem prev_indexEntryInterface (i : Nat) : indexTable.prev indexEntryInterface conf i =
    if i ≥ conf.tableEntries then indexTable.metaPrev (i - conf.tableEntries) else 0 := rfl

@[simp]
theorem default_tblEntry : (default : IpaNatIndxTblRule).tblEntry = 0 := rfl

@[simp]
theorem default_indexNextIndex : (default : IpaNatIndxTblRule).nextIndex = 0 := rfl

end

/-- The index half of adding a rule. -/
structure IndexInserted (natTable : IpaNatIp4TableCache) (root : Nat → Nat) (b tblEntry : Nat)
    (indexTable : IpaTable IpaNatIndxTblRule) (y : Nat) (cmd : List IpaIocNatDmaOne) : Prop where
  free : (natTable.indexTable.records y).tblEntry = 0
  lt : y < natTable.conf.totTblEnts
  ne_zero : y ≠ 0
  dmaTable : ∀ table, cmd.foldl natTable.dmaTable table = table
  final : ∃ indexTable' rank' root', cmd.foldl natTable.dmaIndexTable indexTable = indexTable' ∧
    TableInvariant indexEntryInterface natTable.indexConf indexTable' rank' root' ∧
    root' y = b ∧ (∀ i, i ≠ y → root' i = root i) ∧
    (indexTable'.records y).tblEntry = tblEntry ∧
    ∀ i, i ≠ y →
      (indexTable'.records i).tblEntry = (natTable.indexTable.records i).tblEntry

section
variable {natTable : IpaNatIp4TableCache} {rank root : Nat → Nat}

variable {b tblEntry : Nat}

theorem indexInserted_head
    (h : TableInvariant indexEntryInterface natTable.indexConf natTable.indexTable rank root)
    (hb : b ≠ 0) (hbn : b < natTable.tableEntries)
    (hfree : (natTable.indexTable.records b).tblEntry = 0) (htbl : tblEntry ≠ 0) :
    IndexInserted natTable root b tblEntry
      { natTable.indexTable with
        records := Function.update natTable.indexTable.records b default
        curTblCnt := natTable.indexTable.curTblCnt + 1 } b
      [dmaOne natTable.indexConf .updateHead b tblEntry] where
  free := hfree
  lt := Nat.lt_add_right _ hbn
  ne_zero := hb
  dmaTable table := natTable.dmaTable_indexOne table _ _ _
  final := by
    refine ⟨_, rank, root, rfl, ?_, h.linked.root_head b hbn, fun _ _ => rfl, ?_, ?_⟩
    all_goals
      simp only [foldl_cons, foldl_nil, IpaNatIp4TableCache.dmaIndexTable_dmaOne,
        update_self, update_idem, IpaNatIp4TableCache.indexFieldOffset,
        IpaNatIndxTblRule.write]
    · exact h.insertHead hb hbn (decide_eq_false (not_not.mpr hfree)) (decide_eq_true htbl) rfl
        (if_neg (not_le.mpr hbn))
    · intro i hi
      rw [update_of_ne hi]

theorem indexInserted_tail (hn : 0 < natTable.tableEntries)
    (h : TableInvariant indexEntryInterface natTable.indexConf natTable.indexTable rank root)
    {p x : Nat} (hp : (natTable.indexTable.records p).tblEntry ≠ 0)
    (hlast : (natTable.indexTable.records p).nextIndex = 0) (hroot : root p = b)
    (hx : natTable.tableEntries ≤ x) (hxN : x < natTable.indexConf.totTblEnts)
    (hfree : (natTable.indexTable.records x).tblEntry = 0) (htbl : tblEntry ≠ 0) :
    IndexInserted natTable root b tblEntry
      { natTable.indexTable with
        records := Function.update natTable.indexTable.records x ⟨tblEntry, 0⟩
        metaPrev := Function.update natTable.indexTable.metaPrev (x - natTable.tableEntries) p
        curExpnTblCnt := natTable.indexTable.curExpnTblCnt + 1 } x
      [dmaOne natTable.indexConf .updateEntry p x] where
  free := hfree
  lt := hxN
  ne_zero := by omega
  dmaTable table := natTable.dmaTable_indexOne table _ _ _
  final := by
    have hpx : p ≠ x := fun heq => by simp [heq, hfree] at hp
    refine ⟨_, update rank x (rank p + 1), update root x (root p), rfl, ?_,
      ?_, ?_, ?_, ?_⟩
    rotate_left 1
    · rw [update_self, hroot]
    · intro i hi
      rw [update_of_ne hi]
    all_goals
      simp only [foldl_cons, foldl_nil, IpaNatIp4TableCache.dmaIndexTable_dmaOne,
        update_self, IpaNatIp4TableCache.indexFieldOffset, IpaNatIndxTblRule.write,
        update_of_ne hpx, update_of_ne hpx.symm]
    · intro i hi
      by_cases hip : i = p
      · rw [hip, update_self]
      · rw [update_of_ne hip, update_of_ne hi]
    · refine h.insertTail hn (decide_eq_true hp) hlast hx hxN (decide_eq_false (not_not.mpr hfree))
        rfl (decide_eq_true htbl) rfl (decide_eq_true hp) rfl ?_ rfl rfl
      intro i _
      simp only [prev_indexEntryInterface, IpaNatIp4TableCache.indexConf]
      by_cases hi : i = x
      · simp [hi, hx]
      · rw [if_neg hi]
        split
        next hin => exact update_of_ne (by omega) _ _
        next => rfl

theorem index_addEntry
    (h : TableInvariant indexEntryInterface natTable.indexConf natTable.indexTable rank root)
    (hdims : DimsOk natTable.tableEntries natTable.expnTableEntries) (hb : b ≠ 0)
    (hbn : b < natTable.tableEntries) (htbl : tblEntry ≠ 0) (cmd : List IpaIocNatDmaOne) :
    (∃ indexTable y cmd', ipaTableAddEntry indexEntryInterface natTable.indexConf
        natTable.indexTable tblEntry b cmd = .ok (indexTable, y, cmd ++ cmd') ∧
      IndexInserted natTable root b tblEntry indexTable y cmd') ∨
    ((natTable.indexTable.records b).tblEntry ≠ 0 ∧
      (∀ x, natTable.tableEntries ≤ x → x < natTable.indexConf.totTblEnts →
        (natTable.indexTable.records x).tblEntry ≠ 0) ∧
      ipaTableAddEntry indexEntryInterface natTable.indexConf natTable.indexTable tblEntry b cmd =
        .error (-1)) := by
  have hn : 0 < natTable.tableEntries := Nat.lt_of_lt_of_le Nat.zero_lt_two hdims.two_le
  rcases h.addEntry hdims hbn tblEntry cmd with ⟨hfree, hadd⟩ |
    ⟨_, p, x, hp, hlast, hroot, hx, hxN, hfree, hadd⟩ | ⟨hocc, hall, hadd⟩
  · have hzero : natTable.indexTable.records b = default := h.free b hfree
    rw [hzero] at hadd
    exact .inl ⟨_, _, _, hadd, indexInserted_head h hb hbn (by simpa using hfree) htbl⟩
  · have hzero : natTable.indexTable.records x = default := h.free x hfree
    rw [tailResult, tailEntry, hzero, append_assoc] at hadd
    refine .inl ⟨_, _, _, hadd, ?_⟩
    have hins := indexInserted_tail hn h (by simpa using hp) hlast hroot hx hxN
      (by simpa using hfree) htbl
    have hx' : natTable.tableEntries ≤ x := hx
    simpa [indexEntryInterface, IpaNatIp4TableCache.indexConf, hx'] using hins
  · exact .inr ⟨by simpa using hocc, fun x hx hxN => by simpa using hall x hx hxN, hadd⟩

end

/-! ## Deleting from the NAT table -/

/-- A rule the IPA uses: enabled, and not a deleted head. -/
def IpaNatRule.live (rule : IpaNatRule) : Bool :=
  rule.enable && rule.protocol != natInvalidProtocol

/-- A head that stays enabled only because it still has a tail. -/
def IpaNatRule.dead (rule : IpaNatRule) : Bool :=
  rule.enable && rule.protocol == natInvalidProtocol

/-- Deleted heads are base slots with a tail. -/
def DeadHeads (conf : IpaTableConf) (table : IpaTable IpaNatRule) : Prop :=
  ∀ i, (table.records i).dead = true → i < conf.tableEntries ∧ (table.records i).nextIndex ≠ 0

/-- What is left of `table` once the live rule `x` is deleted. -/
structure NatDeleted (pdns : Nat → UInt32) (conf : IpaTableConf) (rank root : Nat → Nat)
    (table : IpaTable IpaNatRule) (x : Nat) (table' : IpaTable IpaNatRule) : Prop where
  invariant : TableInvariant (entryInterface pdns) conf table' rank root
  live : ∀ i, (table'.records i).live = true ↔ i ≠ x ∧ (table.records i).live = true
  content : ∀ i, i ≠ x → (table.records i).live = true →
    (table'.records i).content = (table.records i).content
  deadHeads : DeadHeads conf table'
  dead : ∀ i, (table'.records i).dead = true → i = x ∨ (table.records i).dead = true

section
variable {pdns : Nat → UInt32} {conf : IpaTableConf} {table table' : IpaTable IpaNatRule}
  {rank root : Nat → Nat}

variable {rule rule' : IpaNatRule} {x : Nat}

theorem IpaNatRule.live_of_content (h : rule'.content = rule.content) : rule'.live = rule.live := by
  change rule'.content.live = rule.content.live
  rw [h]

theorem IpaNatRule.dead_of_content (h : rule'.content = rule.content) : rule'.dead = rule.dead := by
  change rule'.content.dead = rule.content.dead
  rw [h]

@[simp]
theorem default_live : (default : IpaNatRule).live = false := rfl

@[simp]
theorem default_dead : (default : IpaNatRule).dead = false := rfl

/-- The records once slot `x` has been taken out between `p` and `q`. -/
def unlinkedRecords (records : Nat → IpaNatRule) (p x q : Nat) : Nat → IpaNatRule :=
  Function.update
    (Function.update (Function.update records p { records p with nextIndex := q }) q
      { records q with prevIndex := if q = 0 then (records q).prevIndex else p }) x default

theorem nat_unlink (h : TableInvariant (entryInterface pdns) conf table rank root)
    (hx : (table.records x).enable = true) (hxn : conf.tableEntries ≤ x) :
    TableInvariant (entryInterface pdns) conf
      { table with
        records := unlinkedRecords table.records (table.records x).prevIndex x
          (table.records x).nextIndex
        curExpnTblCnt := table.curExpnTblCnt - 1 } rank root ∧
      (table.records x).prevIndex ≠ x ∧ (table.records x).nextIndex ≠ x ∧
      (table.records x).prevIndex ≠ (table.records x).nextIndex := by
  obtain ⟨hp, hpn⟩ := h.linked.prev_occ x hxn hx
  have hrank := h.linked.rank_prev x hxn hx
  simp only [occ_entryInterface, next_entryInterface, prev_entryInterface] at hp hpn hrank
  have hx0 := h.zero_notOcc hx
  have hp0 : (table.records x).prevIndex ≠ 0 := h.zero_notOcc hp
  have hpx : (table.records x).prevIndex ≠ x := fun heq => by rw [heq] at hrank; omega
  have hqx : (table.records x).nextIndex ≠ x := by
    intro heq
    have hrank' := h.linked.rank_next hx (by simpa [heq] using hx0)
    simp only [next_entryInterface, heq] at hrank'
    omega
  have hpq : (table.records x).prevIndex ≠ (table.records x).nextIndex := by
    intro heq
    have hq0 : (table.records x).nextIndex ≠ 0 := heq ▸ hp0
    have hrank' := h.linked.rank_next hx hq0
    simp only [next_entryInterface, ← heq] at hrank'
    omega
  have hzero : (table.records 0).enable = false := h.linked.zero_free
  refine ⟨h.unlink hxn hx ?_ ?_ ?_ ?_ rfl rfl, hpx, hqx, hpq⟩
  · intro i
    by_cases hi : i = x
    · simp [hi, unlinkedRecords]
    · by_cases hiq : i = (table.records x).nextIndex
      · simp [hiq, hqx, unlinkedRecords]
      · by_cases hip : i = (table.records x).prevIndex
        · simp [hip, hpx, hpq, unlinkedRecords]
        · simp [hi, hiq, hip, unlinkedRecords]
  · intro i hocc
    by_cases hi : i = x
    · simp [hi, unlinkedRecords] at hocc
    · by_cases hiq : i = (table.records x).nextIndex
      · simp [hiq, hqx, hpq.symm, unlinkedRecords]
      · by_cases hip : i = (table.records x).prevIndex
        · simp [hip, hpx, hpq, unlinkedRecords]
        · simp [hi, hiq, hip, unlinkedRecords]
  · intro i hocc
    by_cases hi : i = x
    · simp [hi, unlinkedRecords] at hocc
    · by_cases hiq : i = (table.records x).nextIndex
      · have hq0 : (table.records x).nextIndex ≠ 0 := by
          intro hq0
          simp [hiq, hq0, hx0.symm, unlinkedRecords, hzero] at hocc
        simp [hiq, hqx, hq0, unlinkedRecords]
      · by_cases hip : i = (table.records x).prevIndex
        · simp [hip, hpx, hpq, unlinkedRecords]
        · simp [hi, hiq, hip, unlinkedRecords]
  · intro i hocc
    by_cases hi : i = x
    · simp [hi, unlinkedRecords]
    · by_cases hiq : i = (table.records x).nextIndex
      · by_cases hq0 : (table.records x).nextIndex = 0
        · simpa [hiq, hq0, hx0.symm, unlinkedRecords] using h.free 0 hzero
        · have hq := (h.linked.next_occ x hx hq0).2.1
          simp only [next_entryInterface, occ_entryInterface] at hq
          simp [hiq, hqx, hq, unlinkedRecords] at hocc
      · by_cases hip : i = (table.records x).prevIndex
        · simp [hip, hpx, hpq, hp, unlinkedRecords] at hocc
        · simpa [hi, hiq, hip, unlinkedRecords] using h.free i (by
            simpa [hi, hiq, hip, unlinkedRecords] using hocc)

theorem TableInvariant.createDeleteCommand {ε υ : Type} [Inhabited ε]
    {ei : IpaTableEntryInterface ε υ} {table : IpaTable ε}
    (h : TableInvariant ei conf table rank root) (hx : table.occ ei x = true)
    (cmd : List IpaIocNatDmaOne) :
    ipaTableCreateDeleteCommand ei conf table cmd
        ⟨table.prev ei conf x, x, table.next ei x⟩ =
      cmd ++ [if x < conf.tableEntries then
          if table.next ei x ≠ 0 then
            dmaOne conf .deleteHead x (ei.entryGetDeleteHeadDmaCommandData (table.records x)
              (table.records (table.next ei x)))
          else dmaOne conf .updateHead x 0
        else dmaOne conf .updateEntry (table.prev ei conf x) (table.next ei x)] := by
  rw [ipaTableCreateDeleteCommand]
  by_cases hxn : x < conf.tableEntries
  · simp only [if_pos ((h.prev_eq_zero_iff hx).mpr hxn), if_pos hxn]
    split
    · rw [ipaTableAddDmaCmd_eq (h.lt_tot hx)]
    · rw [ipaTableAddDmaCmd_eq (h.lt_tot hx)]
  · have hp0 : table.prev ei conf x ≠ 0 := fun heq => hxn ((h.prev_eq_zero_iff hx).mp heq)
    simp only [if_neg hp0, if_neg hxn]
    rw [ipaTableAddDmaCmd_eq (h.lt_tot (h.prev_occ hx hp0).2.1)]

end

section
variable {pdns : Nat → UInt32} {natTable : IpaNatIp4TableCache} {table : IpaTable IpaNatRule}
  {rank root : Nat → Nat}

variable {x : Nat}

theorem natDeleted_loneHead (h : TableInvariant (entryInterface pdns) natTable.conf table rank root)
    (hdead : DeadHeads natTable.conf table) (hx : (table.records x).enable = true)
    (hxn : x < natTable.conf.tableEntries) (hnext : (table.records x).nextIndex = 0) :
    NatDeleted pdns natTable.conf rank root table x
      (deleteTableEntry pdns natTable.conf
        (natTable.dmaTable table (dmaOne natTable.conf .updateHead x 0))
        ⟨0, x, 0⟩) := by
  have heq : deleteTableEntry pdns natTable.conf
      (natTable.dmaTable table (dmaOne natTable.conf .updateHead x 0)) ⟨0, x, 0⟩ =
      { table with
        records := update table.records x default
        curTblCnt := table.curTblCnt - 1 } := by
    rw [deleteTableEntry]
    simp [IpaTableIterator.isHeadWithTail, ipaTableDeleteEntry, detachEntry, ipaTableEraseEntry,
      IpaNatIp4TableCache.dmaTable_dmaOne, if_pos hxn]
  rw [heq]
  refine ⟨h.removeHead hx hxn hnext rfl, ?_, ?_, ?_, ?_⟩
  · intro i
    by_cases hi : i = x <;> simp [hi]
  · intro i hi _
    simp [hi]
  · intro i
    by_cases hi : i = x
    · simp [hi]
    · simpa [hi] using hdead i
  · intro i
    by_cases hi : i = x <;> simp [hi]

theorem natDeleted_deadHead (h : TableInvariant (entryInterface pdns) natTable.conf table rank root)
    (hdead : DeadHeads natTable.conf table) (hx : (table.records x).enable = true)
    (hxn : x < natTable.conf.tableEntries) (hnext : (table.records x).nextIndex ≠ 0) :
    NatDeleted pdns natTable.conf rank root table x
      (deleteTableEntry pdns natTable.conf
        (natTable.dmaTable table (dmaOne natTable.conf .deleteHead x natInvalidProtoFieldValue))
        ⟨0, x, (table.records x).nextIndex⟩) := by
  have heq : deleteTableEntry pdns natTable.conf
      (natTable.dmaTable table (dmaOne natTable.conf .deleteHead x natInvalidProtoFieldValue))
        ⟨0, x, (table.records x).nextIndex⟩ =
      { table with
        records := update table.records x
          { table.records x with
            timeStamp := (table.records x).timeStamp % 2 ^ 16
            protocol := natInvalidProtocol } } := by
    rw [deleteTableEntry]
    simp [IpaTableIterator.isHeadWithTail, hnext, IpaNatIp4TableCache.dmaTable_dmaOne,
      IpaNatIp4TableCache.fieldOffset, IpaNatRule.write, natInvalidProtoFieldValue,
      natInvalidProtocol]
  rw [heq]
  refine ⟨h.congr ?_ ?_ ?_ ?_ rfl rfl, ?_, ?_, ?_, ?_⟩
  · intro i
    by_cases hi : i = x <;> simp [hi]
  · intro i _
    by_cases hi : i = x <;> simp [hi]
  · intro i _
    by_cases hi : i = x <;> simp [hi]
  · intro i
    by_cases hi : i = x
    · simp [hi, hx]
    · simpa [hi] using h.free i
  · intro i
    by_cases hi : i = x
    · simp [hi, IpaNatRule.live]
    · simp [hi]
  · intro i hi _
    simp [hi]
  · intro i
    by_cases hi : i = x
    · simp [hi, hxn, hnext]
    · simpa [hi] using hdead i
  · intro i
    by_cases hi : i = x <;> simp [hi]

theorem content_unlinkedRecords (records : Nat → IpaNatRule) (p q : Nat) {i : Nat} (hi : i ≠ x) :
    (unlinkedRecords records p x q i).content = (records i).content := by
  rw [unlinkedRecords, update_of_ne hi]
  by_cases hiq : i = q
  · rw [hiq, update_self]
    rfl
  · rw [update_of_ne hiq]
    by_cases hip : i = p
    · rw [hip, update_self]
      rfl
    · rw [update_of_ne hip]

theorem unlinkedRecords_zero {records : Nat → IpaNatRule} {p : Nat} (hp : p ≠ 0) :
    unlinkedRecords records p x 0 =
      Function.update (Function.update records p { records p with nextIndex := 0 }) x default := by
  have hself : update records p { records p with nextIndex := 0 } 0 = records 0 :=
    update_of_ne hp.symm _ _
  rw [unlinkedRecords]
  congr 1
  rw [← update_eq_self 0 (update records p _), hself]
  simp

theorem natDeleted_unlink (h : TableInvariant (entryInterface pdns) natTable.conf table rank root)
    (hdead : DeadHeads natTable.conf table) (hx : (table.records x).enable = true)
    (hxn : natTable.conf.tableEntries ≤ x) (hkeep : (table.records x).nextIndex ≠ 0 ∨
      (table.records (table.records x).prevIndex).dead = false) :
    NatDeleted pdns natTable.conf rank root table x
      { table with
        records := unlinkedRecords table.records (table.records x).prevIndex x
          (table.records x).nextIndex
        curExpnTblCnt := table.curExpnTblCnt - 1 } := by
  obtain ⟨hinv, hpx, hqx, hpq⟩ := nat_unlink h hx hxn
  have hself : unlinkedRecords table.records (table.records x).prevIndex x
      (table.records x).nextIndex x = default := by simp [unlinkedRecords]
  have hcontent : ∀ i, i ≠ x → (unlinkedRecords table.records (table.records x).prevIndex x
      (table.records x).nextIndex i).content = (table.records i).content :=
    fun i hi => content_unlinkedRecords _ _ _ hi
  refine ⟨hinv, ?_, fun i hi _ => hcontent i hi, ?_, ?_⟩
  · intro i
    by_cases hi : i = x
    · simp [hi, hself]
    · simp [hi, IpaNatRule.live_of_content (hcontent i hi)]
  · intro i hdead'
    have hi : i ≠ x := by
      rintro rfl
      simp [hself] at hdead'
    have hold := hdead'
    simp only [IpaNatRule.dead_of_content (hcontent i hi)] at hold
    obtain ⟨hin, hne⟩ := hdead i hold
    refine ⟨hin, ?_⟩
    by_cases hiq : i = (table.records x).nextIndex
    · simpa [unlinkedRecords, hiq, hqx, hpq.symm] using hiq ▸ hne
    · by_cases hip : i = (table.records x).prevIndex
      · rcases hkeep with hq0 | hlive
        · simpa [unlinkedRecords, hip, hpx, hpq] using hq0
        · rw [hip, hlive] at hold
          cases hold
      · simpa [unlinkedRecords, hi, hiq, hip] using hne
  · intro i hdead'
    by_cases hi : i = x
    · exact .inl hi
    · exact .inr (by simpa [IpaNatRule.dead_of_content (hcontent i hi)] using hdead')

theorem natDeleted_unlinkLast
    (h : TableInvariant (entryInterface pdns) natTable.conf table rank root)
    (hdead : DeadHeads natTable.conf table) (hx : (table.records x).enable = true)
    (hxn : natTable.conf.tableEntries ≤ x) (hnext : (table.records x).nextIndex = 0)
    (hprev : (table.records (table.records x).prevIndex).dead = true) :
    NatDeleted pdns natTable.conf rank root table x
      { table with
        records := Function.update (unlinkedRecords table.records (table.records x).prevIndex x 0)
          (table.records x).prevIndex default
        curTblCnt := table.curTblCnt - 1
        curExpnTblCnt := table.curExpnTblCnt - 1 } := by
  obtain ⟨hinv, hpx, hqx, hpq⟩ := nat_unlink h hx hxn
  rw [hnext] at hinv hqx hpq
  have hself : unlinkedRecords table.records (table.records x).prevIndex x 0 x = default := by
    simp [unlinkedRecords]
  have hcontent : ∀ i, i ≠ x → (unlinkedRecords table.records (table.records x).prevIndex x 0
      i).content = (table.records i).content :=
    fun i hi => content_unlinkedRecords _ _ _ hi
  have hpnot : (table.records (table.records x).prevIndex).live = false := by
    simp only [IpaNatRule.live, IpaNatRule.dead] at hprev ⊢
    simp_all
  have hpenable : (table.records (table.records x).prevIndex).enable = true := by
    simp only [IpaNatRule.dead] at hprev
    simp_all
  refine ⟨hinv.removeHead ?_ (hdead _ hprev).1 ?_ rfl, ?_, ?_, ?_, ?_⟩
  · simpa [unlinkedRecords, hpx, hpq] using hpenable
  · simp [unlinkedRecords, hpx, hpq]
  · intro i
    by_cases hip : i = (table.records x).prevIndex
    · simp [hip, hpnot]
    · by_cases hi : i = x
      · simp [hi, hpx.symm, hself]
      · simp [hip, hi, IpaNatRule.live_of_content (hcontent i hi)]
  · intro i hi hlive
    have hip : i ≠ (table.records x).prevIndex := by
      rintro rfl
      rw [hpnot] at hlive
      cases hlive
    simpa [hip] using hcontent i hi
  · intro i hdead'
    by_cases hip : i = (table.records x).prevIndex
    · simp [hip] at hdead'
    · by_cases hi : i = x
      · simp [hi, hpx.symm, hself] at hdead'
      · have hold := hdead'
        simp only [update_of_ne hip, IpaNatRule.dead_of_content (hcontent i hi)] at hold
        obtain ⟨hin, hne⟩ := hdead i hold
        refine ⟨hin, ?_⟩
        have hi0 : i ≠ 0 := by
          rintro rfl
          have hzero : (table.records 0).enable = false := h.linked.zero_free
          simp [IpaNatRule.dead, hzero] at hold
        simpa [unlinkedRecords, hi, hip, hi0] using hne
  · intro i hdead'
    by_cases hip : i = (table.records x).prevIndex
    · simp [hip] at hdead'
    · by_cases hi : i = x
      · exact .inl hi
      · exact .inr (by simpa [hip, IpaNatRule.dead_of_content (hcontent i hi)] using hdead')

theorem natDeleted_tail (h : TableInvariant (entryInterface pdns) natTable.conf table rank root)
    (hdead : DeadHeads natTable.conf table) (hx : (table.records x).enable = true)
    (hxn : natTable.conf.tableEntries ≤ x) :
    NatDeleted pdns natTable.conf rank root table x
      (deleteTableEntry pdns natTable.conf
        (natTable.dmaTable table (dmaOne natTable.conf .updateEntry (table.records x).prevIndex
          (table.records x).nextIndex))
        ⟨(table.records x).prevIndex, x, (table.records x).nextIndex⟩) := by
  obtain ⟨_, hpx, hqx, hpq⟩ := nat_unlink h hx hxn
  have hp := (h.linked.prev_occ x hxn hx).1
  simp only [prev_entryInterface, occ_entryInterface] at hp
  have hp0 : (table.records x).prevIndex ≠ 0 := h.zero_notOcc hp
  have hx0 := h.zero_notOcc hx
  rw [deleteTableEntry]
  simp only [IpaTableIterator.isHeadWithTail, hp0, decide_false, Bool.and_false,
    Bool.false_eq_true, if_false, IpaNatIp4TableCache.dmaTable_dmaOne, update_self,
    IpaNatIp4TableCache.fieldOffset, IpaNatRule.write, ipaTableDeleteEntry, ne_eq,
      not_false_eq_true,
    decide_true, Bool.true_and, decide_eq_true_eq, and_true, detachEntry]
  by_cases hq0 : (table.records x).nextIndex = 0
  · by_cases hprev : (table.records (table.records x).prevIndex).dead = true
    · have hproto : (table.records (table.records x).prevIndex).protocol = natInvalidProtocol := by
        simp only [IpaNatRule.dead] at hprev
        simp_all
      simp only [hq0, not_true, if_false, hproto, if_true, ipaTableEraseEntry,
        if_neg (not_lt.mpr hxn), update_idem]
      have hdel := natDeleted_unlinkLast h hdead hx hxn hq0 hprev
      rw [unlinkedRecords_zero hp0, update_comm hpx.symm,
        update_idem] at hdel
      exact hdel
    · have hproto : (table.records (table.records x).prevIndex).protocol ≠ natInvalidProtocol := by
        intro heq
        exact hprev (by simp [IpaNatRule.dead, hp, heq])
      have hdel := natDeleted_unlink h hdead hx hxn (.inr (by simpa using hprev))
      simp only [hq0, not_true, if_false, hproto, ipaTableEraseEntry, if_neg (not_lt.mpr hxn)]
      rw [hq0, unlinkedRecords_zero hp0] at hdel
      exact hdel
  · have hdel := natDeleted_unlink h hdead hx hxn (.inl hq0)
    simp only [hq0, not_false_eq_true, if_true, ipaTableEraseEntry, if_neg (not_lt.mpr hxn)]
    simp only [unlinkedRecords, if_neg hq0] at hdel
    simpa [entryInterface, hpq.symm] using hdel

theorem nat_delete (h : TableInvariant (entryInterface pdns) natTable.conf table rank root)
    (hdead : DeadHeads natTable.conf table) (hx : (table.records x).enable = true)
    (cmd : List IpaIocNatDmaOne) :
    ∃ dma, ipaTableCreateDeleteCommand (entryInterface pdns) natTable.conf table cmd
        ⟨(table.records x).prevIndex, x, (table.records x).nextIndex⟩ = cmd ++ [dma] ∧
      (∀ indexTable, natTable.dmaIndexTable indexTable dma = indexTable) ∧
      NatDeleted pdns natTable.conf rank root table x
        (deleteTableEntry pdns natTable.conf (natTable.dmaTable table dma)
          ⟨(table.records x).prevIndex, x, (table.records x).nextIndex⟩) := by
  refine ⟨_, h.createDeleteCommand hx cmd, ?_, ?_⟩
  · intro indexTable
    split
    · split <;> exact natTable.dmaIndexTable_natOne _ _ _ _
    · exact natTable.dmaIndexTable_natOne _ _ _ _
  · by_cases hxn : x < natTable.conf.tableEntries
    · have hp0 : (table.records x).prevIndex = 0 := h.linked.prev_head x hxn hx
      rw [if_pos hxn, hp0]
      by_cases hq0 : (table.records x).nextIndex = 0
      · simp only [next_entryInterface, hq0, ne_eq, not_true, if_false]
        exact natDeleted_loneHead h hdead hx hxn hq0
      · simp only [next_entryInterface, hq0, ne_eq, not_false_eq_true, if_true]
        exact natDeleted_deadHead h hdead hx hxn hq0
    · rw [if_neg hxn]
      exact natDeleted_tail h hdead hx (not_lt.mp hxn)

end

/-! ## Deleting from the index table -/

/-- What is left of the index table once the entry `j` is deleted. The slot `y` is the
one emptied: `j` itself, or the second slot of the chain that `j` heads. -/
structure IndexDeleted (conf : IpaTableConf) (rank root : Nat → Nat)
    (indexTable : IpaTable IpaNatIndxTblRule) (j y : Nat)
    (indexTable' : IpaTable IpaNatIndxTblRule) : Prop where
  invariant : TableInvariant indexEntryInterface conf indexTable' rank root
  occ : (indexTable.records y).tblEntry ≠ 0
  root_eq : root y = root j
  gone : (indexTable'.records y).tblEntry = 0
  moved : y ≠ j → (indexTable'.records j).tblEntry = (indexTable.records y).tblEntry
  others : ∀ i, i ≠ y → i ≠ j →
    (indexTable'.records i).tblEntry = (indexTable.records i).tblEntry

section
variable {conf : IpaTableConf} {indexTable : IpaTable IpaNatIndxTblRule} {rank root : Nat → Nat}

/-- The index table once slot `x` has been taken out behind `p`, whose record becomes
`entry`. -/
def unlinkedIndexTable (conf : IpaTableConf) (indexTable : IpaTable IpaNatIndxTblRule)
    (p x : Nat) (entry : IpaNatIndxTblRule) : IpaTable IpaNatIndxTblRule :=
  { indexTable with
    records := Function.update (Function.update indexTable.records p entry) x default
    metaPrev := Function.update
      (if entry.nextIndex = 0 then indexTable.metaPrev
        else Function.update indexTable.metaPrev (entry.nextIndex - conf.tableEntries) p)
      (x - conf.tableEntries) 0
    curExpnTblCnt := indexTable.curExpnTblCnt - 1 }

theorem index_unlink (h : TableInvariant indexEntryInterface conf indexTable rank root)
    {p x : Nat} (hx : (indexTable.records x).tblEntry ≠ 0) (hxn : conf.tableEntries ≤ x)
    (hp : indexTable.metaPrev (x - conf.tableEntries) = p) {entry : IpaNatIndxTblRule}
    (htbl : entry.tblEntry ≠ 0) (hnext : entry.nextIndex = (indexTable.records x).nextIndex) :
    TableInvariant indexEntryInterface conf (unlinkedIndexTable conf indexTable p x entry)
      rank root ∧ p ≠ x := by
  have hxo : indexTable.occ indexEntryInterface x = true := by simpa using hx
  have hprevx : indexTable.prev indexEntryInterface conf x = p := by simp [hxn, hp]
  obtain ⟨hpo, hpn⟩ := h.linked.prev_occ x hxn hxo
  have hrank := h.linked.rank_prev x hxn hxo
  rw [hprevx] at hpo hpn hrank
  have hp' : (indexTable.records p).tblEntry ≠ 0 := by simpa using hpo
  have hpx : p ≠ x := fun heq => by rw [heq] at hrank; omega
  refine ⟨h.unlink hxn hxo ?_ ?_ ?_ ?_ rfl rfl, hpx⟩
  · intro i
    by_cases hi : i = x
    · simp [hi, unlinkedIndexTable]
    · by_cases hip : i = p <;> simp [hi, hip, htbl, hp', hpx, unlinkedIndexTable]
  · intro i hocc
    by_cases hi : i = x
    · simp [hi, unlinkedIndexTable] at hocc
    · rw [hprevx]
      by_cases hip : i = p <;> simp [hi, hip, hnext, hpx, unlinkedIndexTable]
  · intro i hocc
    have hi : i ≠ x := by
      rintro rfl
      simp [unlinkedIndexTable] at hocc
    have hi0 : i ≠ 0 := by
      rintro rfl
      have hzero : (indexTable.records 0).tblEntry = 0 := by simpa using h.linked.zero_free
      have hp0 : p ≠ 0 := fun heq => hp' (heq ▸ hzero)
      simp [unlinkedIndexTable, hi, hp0.symm, hzero] at hocc
    rw [hprevx]
    by_cases hin : i ≥ conf.tableEntries
    · have hslot : i - conf.tableEntries ≠ x - conf.tableEntries := by omega
      by_cases hiq : i = (indexTable.records x).nextIndex
      · simp [unlinkedIndexTable, hslot, hnext, hi0, hin, ← hiq]
      · by_cases hq0 : (indexTable.records x).nextIndex = 0
        · simp [unlinkedIndexTable, hslot, hnext, hq0, hin, hi0]
        · have hqn := (h.linked.next_occ x hxo hq0).1
          rw [next_indexEntryInterface] at hqn
          have hslot' : i - conf.tableEntries ≠
            (indexTable.records x).nextIndex - conf.tableEntries := by omega
          simp [unlinkedIndexTable, hslot, hslot', hnext, hq0, hin, hiq]
    · have hiq : i ≠ (indexTable.records x).nextIndex := by
        intro hiq
        have hqn := (h.linked.next_occ x hxo (hiq ▸ hi0 : (indexTable.records x).nextIndex ≠ 0)).1
        rw [next_indexEntryInterface] at hqn
        omega
      simp [hin, hiq]
  · intro i
    by_cases hi : i = x
    · simp [hi, unlinkedIndexTable]
    · by_cases hip : i = p
      · simp [hip, hpx, htbl, unlinkedIndexTable]
      · simpa [hi, hip, unlinkedIndexTable] using h.free i

end

section
variable {natTable : IpaNatIp4TableCache} {rank root : Nat → Nat}

variable {j : Nat}

theorem indexDeleted_loneHead
    (h : TableInvariant indexEntryInterface natTable.indexConf natTable.indexTable rank root)
    (hj : (natTable.indexTable.records j).tblEntry ≠ 0) (hjn : j < natTable.tableEntries)
    (hnext : (natTable.indexTable.records j).nextIndex = 0) :
    IndexDeleted natTable.indexConf rank root natTable.indexTable j j
      (deleteIndexTableEntry natTable.indexConf
        (natTable.dmaIndexTable natTable.indexTable (dmaOne natTable.indexConf .updateHead j 0))
        ⟨0, j, 0⟩) := by
  have hjn' : j < natTable.indexConf.tableEntries := hjn
  have heq : deleteIndexTableEntry natTable.indexConf
      (natTable.dmaIndexTable natTable.indexTable (dmaOne natTable.indexConf .updateHead j 0))
        ⟨0, j, 0⟩ =
      { natTable.indexTable with
        records := update natTable.indexTable.records j default
        curTblCnt := natTable.indexTable.curTblCnt - 1 } := by
    rw [deleteIndexTableEntry, if_neg (not_le.mpr hjn')]
    simp [ipaTableDeleteEntry, detachEntry, ipaTableEraseEntry, if_pos hjn',
      IpaNatIp4TableCache.dmaIndexTable_dmaOne]
  rw [heq]
  refine ⟨h.removeHead (decide_eq_true hj) hjn hnext rfl, hj, rfl, by simp, fun h => absurd rfl h,
    ?_⟩
  intro i hi _
  simp [hi]

/-- A slot `x` behind `p` is emptied, whatever the DMA writes made of the record of `p`. -/
theorem deleteIndexTableEntry_eq {conf : IpaTableConf} (indexTable : IpaTable IpaNatIndxTblRule)
    {p x : Nat} (hxn : conf.tableEntries ≤ x) (entry : IpaNatIndxTblRule)
    (hq : entry.nextIndex ≠ 0 → conf.tableEntries ≤ entry.nextIndex) :
    deleteIndexTableEntry conf
      { indexTable with records := Function.update indexTable.records p entry }
        ⟨p, x, entry.nextIndex⟩ = unlinkedIndexTable conf indexTable p x entry := by
  rw [deleteIndexTableEntry, if_pos hxn]
  by_cases hq0 : entry.nextIndex = 0
  · simp [ipaTableDeleteEntry, detachEntry, ipaTableEraseEntry, if_neg (not_lt.mpr hxn), hq0,
      unlinkedIndexTable]
  · simp [ipaTableDeleteEntry, detachEntry, ipaTableEraseEntry, if_neg (not_lt.mpr hxn), hq0,
      hq hq0, unlinkedIndexTable, indexEntryInterface]

theorem indexDeleted_unlink
    (h : TableInvariant indexEntryInterface natTable.indexConf natTable.indexTable rank root)
    (hj : (natTable.indexTable.records j).tblEntry ≠ 0) (hjn : natTable.tableEntries ≤ j) :
    IndexDeleted natTable.indexConf rank root natTable.indexTable j j
      (deleteIndexTableEntry natTable.indexConf
        (natTable.dmaIndexTable natTable.indexTable (dmaOne natTable.indexConf .updateEntry
          (natTable.indexTable.metaPrev (j - natTable.tableEntries))
          (natTable.indexTable.records j).nextIndex))
        ⟨natTable.indexTable.metaPrev (j - natTable.tableEntries), j,
          (natTable.indexTable.records j).nextIndex⟩) := by
  have hjo : natTable.indexTable.occ indexEntryInterface j = true := by simpa using hj
  have hp := (h.linked.prev_occ j hjn hjo).1
  have hjn' : natTable.indexConf.tableEntries ≤ j := hjn
  simp only [prev_indexEntryInterface, ge_iff_le, hjn', if_true, occ_indexEntryInterface,
    decide_eq_true_eq] at hp
  rw [IpaNatIp4TableCache.dmaIndexTable_dmaOne]
  obtain ⟨p, hprev⟩ : ∃ p, natTable.indexTable.metaPrev (j - natTable.tableEntries) = p := ⟨_, rfl⟩
  have hprev' : natTable.indexTable.metaPrev (j - natTable.indexConf.tableEntries) = p := hprev
  rw [hprev'] at hp
  rw [hprev]
  obtain ⟨entry, hentry⟩ : ∃ entry, entry =
      (natTable.indexTable.records p).write 2 (natTable.indexTable.records j).nextIndex :=
    ⟨_, rfl⟩
  have htbl : entry.tblEntry = (natTable.indexTable.records p).tblEntry := by rw [hentry]; rfl
  have hnext : entry.nextIndex = (natTable.indexTable.records j).nextIndex := by rw [hentry]; rfl
  obtain ⟨hinv, hpj⟩ := index_unlink h hj hjn' hprev' (htbl ▸ hp) hnext
  have hq : entry.nextIndex ≠ 0 → natTable.indexConf.tableEntries ≤ entry.nextIndex := by
    rw [hnext]
    exact fun hq0 => (h.linked.next_occ j hjo hq0).1
  have heq := deleteIndexTableEntry_eq (x := j) (p := p) natTable.indexTable hjn' entry hq
  rw [IpaNatIp4TableCache.indexFieldOffset, ← hentry, ← hnext, heq]
  refine ⟨hinv, hj, rfl, ?_, fun hne => absurd rfl hne, ?_⟩
  · simp [unlinkedIndexTable]
  · intro i hi _
    by_cases hip : i = p <;> simp [hi, hip, hpj, htbl, unlinkedIndexTable]

theorem indexDeleted_head
    (h : TableInvariant indexEntryInterface natTable.indexConf natTable.indexTable rank root)
    (hj : (natTable.indexTable.records j).tblEntry ≠ 0) {y : Nat}
    (hnext : (natTable.indexTable.records j).nextIndex = y) (hy : y ≠ 0) :
    IndexDeleted natTable.indexConf rank root natTable.indexTable j y
      (deleteIndexTableEntry natTable.indexConf
        ([dmaOne natTable.indexConf .deleteHead j (natTable.indexTable.records y).tblEntry,
          dmaOne natTable.indexConf .updateEntry j
            (natTable.indexTable.records y).nextIndex].foldl natTable.dmaIndexTable
          natTable.indexTable)
        ⟨j, y, (natTable.indexTable.records y).nextIndex⟩) := by
  have hjo : natTable.indexTable.occ indexEntryInterface j = true := by simpa using hj
  obtain ⟨hyn, hyo, hyp⟩ := h.linked.next_occ j hjo (by simpa [hnext] using hy)
  simp only [next_indexEntryInterface, hnext] at hyn hyo hyp
  have hyt : (natTable.indexTable.records y).tblEntry ≠ 0 := by simpa using hyo
  have hroot := h.linked.root_next hjo (by simpa [hnext] using hy)
  simp only [next_indexEntryInterface, hnext] at hroot
  simp only [prev_indexEntryInterface, ge_iff_le, hyn, if_true] at hyp
  have heq := deleteIndexTableEntry_eq natTable.indexTable (p := j) hyn
    (natTable.indexTable.records y) (fun hq0 => (h.linked.next_occ y hyo hq0).1)
  obtain ⟨hinv, hjy⟩ := index_unlink h (p := j) hyt hyn hyp hyt rfl
  simp only [foldl_cons, foldl_nil, IpaNatIp4TableCache.dmaIndexTable_dmaOne,
    update_self, update_idem, IpaNatIp4TableCache.indexFieldOffset,
    IpaNatIndxTblRule.write, heq]
  refine ⟨hinv, hyt, hroot, by simp [unlinkedIndexTable], ?_, ?_⟩
  · intro _
    simp [hjy, unlinkedIndexTable]
  · intro i hi hij
    simp [hi, hij, unlinkedIndexTable]

/-- The entry `j` of the index table heads a longer chain. -/
def IpaNatIp4TableCache.HeadsTail (natTable : IpaNatIp4TableCache) (j : Nat) : Prop :=
  j < natTable.tableEntries ∧ (natTable.indexTable.records j).nextIndex ≠ 0

instance (natTable : IpaNatIp4TableCache) (j : Nat) : Decidable (natTable.HeadsTail j) :=
  inferInstanceAs (Decidable (_ ∧ _))

/-- The index slot that is emptied when the entry `j` is deleted. -/
def IpaNatIp4TableCache.emptiedIndex (natTable : IpaNatIp4TableCache) (j : Nat) : Nat :=
  if natTable.HeadsTail j then (natTable.indexTable.records j).nextIndex else j

theorem index_delete
    (h : TableInvariant indexEntryInterface natTable.indexConf natTable.indexTable rank root)
    (hj : (natTable.indexTable.records j).tblEntry ≠ 0) :
    ∃ y natTable' iterator cmd, y = natTable.emptiedIndex j ∧
      prepareIndexDelete natTable
        ⟨natTable.indexTable.prev indexEntryInterface natTable.indexConf j, j,
          natTable.indexTable.next indexEntryInterface j⟩ [] = (natTable', .ok iterator, cmd) ∧
      (∀ table, cmd.foldl natTable.dmaTable table = table) ∧
      IndexDeleted natTable.indexConf rank root natTable.indexTable j y
        (deleteIndexTableEntry natTable.indexConf
          (cmd.foldl natTable.dmaIndexTable natTable.indexTable) iterator) ∧
      natTable' = if y = j then natTable
        else natTable.setIndxTblEntry (natTable.indexTable.records y).tblEntry j := by
  have hjo : natTable.indexTable.occ indexEntryInterface j = true := by simpa using hj
  have hcmd := h.createDeleteCommand hjo []
  rw [nil_append] at hcmd
  by_cases hjn : j < natTable.indexConf.tableEntries
  · have hp0 : natTable.indexTable.prev indexEntryInterface natTable.indexConf j = 0 :=
      h.linked.prev_head j hjn hjo
    by_cases hq0 : natTable.indexTable.next indexEntryInterface j = 0
    · refine ⟨j, _, ⟨0, j, 0⟩, [dmaOne natTable.indexConf .updateHead j 0], ?_, ?_, ?_,
        indexDeleted_loneHead h hj hjn hq0, rfl⟩
      · exact (if_neg fun hheads => hheads.2 hq0).symm
      · rw [prepareIndexDelete, hcmd]
        simp [IpaTableIterator.isHeadWithTail, hq0, hp0, hjn]
      · exact fun table => natTable.dmaTable_indexOne table _ _ _
    · have hq0' : (natTable.indexTable.records j).nextIndex ≠ 0 := hq0
      have hjy : (natTable.indexTable.records j).nextIndex ≠ j := by
        intro heq
        have hrank := h.linked.rank_next hjo hq0
        rw [next_indexEntryInterface, heq] at hrank
        omega
      refine ⟨(natTable.indexTable.records j).nextIndex, _, _, _, ?_, ?_, ?_,
        indexDeleted_head h hj rfl hq0', (if_neg hjy).symm⟩
      · exact (if_pos ⟨hjn, hq0'⟩).symm
      · rw [prepareIndexDelete, hcmd]
        simp only [IpaTableIterator.isHeadWithTail, hq0, hp0, ne_eq, not_false_eq_true,
          decide_true, Bool.and_self, if_true, hjn, copySecondIndexEntryToHead]
        have hnext := h.iteratorNext hjo hq0
        rw [hp0] at hnext
        refine Prod.ext rfl (Prod.ext hnext ?_)
        simp only
        rw [ipaTableAddDmaCmd_eq (h.lt_tot hjo)]
        rfl
      · intro table
        simp only [foldl_cons, foldl_nil, IpaNatIp4TableCache.dmaTable_indexOne]
  · have hp0 : natTable.indexTable.prev indexEntryInterface natTable.indexConf j ≠ 0 :=
      fun heq => hjn ((h.prev_eq_zero_iff hjo).mp heq)
    have hjn' : natTable.indexConf.tableEntries ≤ j := not_lt.mp hjn
    have hprev : natTable.indexTable.prev indexEntryInterface natTable.indexConf j =
        natTable.indexTable.metaPrev (j - natTable.tableEntries) := if_pos hjn'
    refine ⟨j, _, _, [dmaOne natTable.indexConf .updateEntry
      (natTable.indexTable.metaPrev (j - natTable.tableEntries))
      (natTable.indexTable.records j).nextIndex], ?_, ?_, ?_, indexDeleted_unlink h hj hjn',
      (if_pos rfl).symm⟩
    · exact (if_neg fun hheads => hjn hheads.1).symm
    · rw [prepareIndexDelete, hcmd, ← hprev]
      simp only [IpaTableIterator.isHeadWithTail, hp0, decide_false, Bool.and_false,
        Bool.false_eq_true, if_false, hjn]
      rfl
    · exact fun table => natTable.dmaTable_indexOne table _ _ _

end

end QcomModules.Ipanat
