import Mathlib

/-! The chained table of `ipa_table.c`, shared by the IPv4 NAT table and its index table.
Records live in base slots, which the hash selects, and in expansion slots, which
extend a chain. Some fields are not written here but by DMA commands collected on
the way. -/

namespace QcomModules.Ipanat

def EPERM : Int := 1
def EIO : Int := 5
def EINVAL : Int := 22

def ipaTableMaxEntries : Nat := 5120

inductive Ipa3NatMemIn where
  | ddr
  | sram
  deriving DecidableEq, Repr

def Ipa3NatMemIn.toNat : Ipa3NatMemIn → Nat
  | .ddr => 0
  | .sram => 1

/-- The regions a NAT DMA command can name. -/
inductive IpaTableDmaType where
  | natBaseTbl
  | natExpnTbl
  | natIndxTbl
  | natIndexExpnTbl
  deriving DecidableEq, Repr

inductive DmaHelpType where
  | updateHead
  | updateEntry
  | deleteHead
  deriving DecidableEq, Repr

structure IpaTableDmaCmdHelper where
  offset : Nat
  tableType : IpaTableDmaType
  expnTableType : IpaTableDmaType
  tableIndx : Nat
  deriving DecidableEq, Repr

/-- `struct ipa_ioc_nat_dma_one`: one 16-bit write. -/
structure IpaIocNatDmaOne where
  tableIndex : Nat
  baseAddr : IpaTableDmaType
  offset : Nat
  data : Nat
  deriving DecidableEq, Repr

/-- `ipa_table_entry_interface`. The `meta` array holds the previous index of the
expansion slots whose records have no room for it. -/
structure IpaTableEntryInterface (ε υ : Type) where
  entryIsValid : ε → Bool
  entryGetNextIndex : ε → Nat
  entryGetPrevIndex : ε → Nat → (Nat → Nat) → Nat → Nat
  entrySetPrevIndex : ε → Nat → Nat → (Nat → Nat) → Nat → ε × (Nat → Nat)
  entryHeadInsert : ε → υ → ε × Nat
  entryTailInsert : ε → υ → ε
  entryGetDeleteHeadDmaCommandData : ε → ε → Nat

/-- The fields of `ipa_table` that stay as `ipa_nati_create_table` sets them. -/
structure IpaTableConf where
  nmi : Ipa3NatMemIn
  entrySize : Nat
  tableEntries : Nat
  expnTableEntries : Nat
  hasMeta : Bool
  dmaHelp : DmaHelpType → IpaTableDmaCmdHelper

def IpaTableConf.totTblEnts (conf : IpaTableConf) : Nat :=
  conf.tableEntries + conf.expnTableEntries

/-- The records, base slots first, the `meta` array and the usage counters. -/
structure IpaTable (ε : Type) where
  records : Nat → ε
  metaPrev : Nat → Nat
  curTblCnt : UInt16
  curExpnTblCnt : UInt16

structure IpaTableIterator where
  prevIndex : Nat
  currIndex : Nat
  nextIndex : Nat
  deriving DecidableEq, Repr

/-! ## Dimensions -/

/-- The loop of `Get2PowerTightUpperBound`, which halves `tmp` down to 1. -/
def twoPowerLoop : Nat → Nat → Nat → Nat → Nat × Nat
  | 0, _, prev, curr => (prev, curr)
  | fuel + 1, tmp, prev, curr =>
    if tmp = 1 then (prev, curr) else twoPowerLoop fuel (tmp / 2) curr (curr * 2)

/-- `Get2PowerTightUpperBound` on a 16-bit argument. -/
def get2PowerTightUpperBound (num : Nat) : Nat :=
  if num = 0 then 2
  else
    let (prev, curr) := twoPowerLoop 16 num 0 2
    if num = prev then prev else curr

def getEvenTightUpperBound (num : Nat) : Nat :=
  if num = 0 then 2 else if num % 2 = 1 then num + 1 else num

/-- `ipa_table_calculate_entries_num`. The percentages .8/.2 and 1.00/0.43 are applied
before truncation to an integer. -/
def ipaTableCalculateEntriesNum (numberOfEntries : Nat) (nmi : Ipa3NatMemIn) :
    Except Int (Nat × Nat) :=
  if numberOfEntries > ipaTableMaxEntries then .error (-EINVAL)
  else
    let tableEntries := get2PowerTightUpperBound <|
      match nmi with
      | .sram => numberOfEntries
      | .ddr => numberOfEntries * 8 / 10
    let expnTableEntries := getEvenTightUpperBound <|
      match nmi with
      | .sram => numberOfEntries * 43 / 100
      | .ddr => numberOfEntries * 2 / 10
    if tableEntries + expnTableEntries > ipaTableMaxEntries then .error (-EINVAL)
    else .ok (tableEntries, expnTableEntries)

/-! ## Handles -/

/-- `MakeEntryHdl`: memory type, index into the base or expansion table, table type. -/
def makeEntryHdl (conf : IpaTableConf) (tblEntry : Nat) : Nat :=
  let entryHdl :=
    if tblEntry ≥ conf.tableEntries then ((tblEntry - conf.tableEntries) <<< 1) ||| 1
    else tblEntry <<< 1
  entryHdl ||| (conf.nmi.toNat <<< 15)

/-- The slot that `BREAK_RULE_HDL` finds in a rule handle. -/
def ruleHdlIndex (conf : IpaTableConf) (hdl : Nat) : Nat :=
  ((hdl >>> 1) &&& 0xFFF) + if hdl &&& 1 = 0 then 0 else conf.tableEntries

section
variable {ε υ σ : Type} [Inhabited ε] (ei : IpaTableEntryInterface ε υ) (conf : IpaTableConf)

/-- Zeroed records. The counters and the `meta` array are left alone. -/
def ipaTableReset (table : IpaTable ε) : IpaTable ε :=
  { table with records := fun _ => default }

def ipaTableGetEntryByIndex (table : IpaTable ε) (recIndex : Nat) : Option ε :=
  if recIndex = 0 ∨ recIndex ≥ conf.totTblEnts then none else some (table.records recIndex)

/-! ## DMA commands -/

def ipaTableDmaCmdGenerate (help : IpaTableDmaCmdHelper) (isExpn : Bool)
    (entryOffset data : Nat) (cmd : List IpaIocNatDmaOne) : List IpaIocNatDmaOne :=
  cmd ++ [{ tableIndex := help.tableIndx
            baseAddr := if isExpn then help.expnTableType else help.tableType
            offset := help.offset + entryOffset
            data := data }]

/-- The record pointer argument of the source is always that of slot `recIndex`. -/
def ipaTableAddDmaCmd (helpType : DmaHelpType) (recIndex data : Nat)
    (cmd : List IpaIocNatDmaOne) : List IpaIocNatDmaOne :=
  if recIndex ≥ conf.totTblEnts then cmd
  else
    let isExpn := decide (recIndex ≥ conf.tableEntries)
    let entryOffset := (recIndex - if isExpn then conf.tableEntries else 0) * conf.entrySize
    ipaTableDmaCmdGenerate (conf.dmaHelp helpType) isExpn entryOffset data cmd

/-! ## Walking -/

inductive When2Callback where
  | whenSlotEmpty
  | whenSlotFilled
  deriving DecidableEq, Repr

/-- The loop of `ipa_table_walk` over the `todo` slots from `i` on. The callback may
change the state `σ` from which the records are read. -/
def ipaTableWalkLoop (record : σ → Nat → ε) (when2cb : When2Callback)
    (walkCb : σ → Nat → ε → Nat → Int × σ) : Nat → Nat → σ → Int × σ
  | 0, _, s => (0, s)
  | todo + 1, i, s =>
    if ei.entryIsValid (record s i) = decide (when2cb = .whenSlotFilled) then
      let (ret, s') := walkCb s (makeEntryHdl conf i) (record s i) i
      if ret ≠ 0 then (ret, s') else ipaTableWalkLoop record when2cb walkCb todo (i + 1) s'
    else ipaTableWalkLoop record when2cb walkCb todo (i + 1) s

def ipaTableWalk (record : σ → Nat → ε) (startIndex : Nat) (when2cb : When2Callback)
    (walkCb : σ → Nat → ε → Nat → Int × σ) (s : σ) : Int × σ :=
  if startIndex ≥ conf.totTblEnts then (-EINVAL, s)
  else ipaTableWalkLoop ei conf record when2cb walkCb (conf.totTblEnts - startIndex) startIndex s

/-- `mt_slot`: stop the walk at the slot found. -/
def mtSlot (s : Unit) (_ruleHdl : Nat) (_record : ε) (recordIndex : Nat) : Int × Unit :=
  (recordIndex, s)

def findExpnTblFreeEntry (table : IpaTable ε) : Except Int Nat :=
  let ret := (ipaTableWalk ei conf (fun _ i => table.records i) conf.tableEntries
    .whenSlotEmpty mtSlot ()).1
  if ret > 0 then .ok ret.toNat else .error (-1)

/-! ## Iterators -/

def ipaTableIteratorInit (table : IpaTable ε) (currIndex : Nat) : Except Int IpaTableIterator :=
  let entry := table.records currIndex
  if !ei.entryIsValid entry then .error (-EINVAL)
  else
    let prevIndex := ei.entryGetPrevIndex entry currIndex table.metaPrev conf.tableEntries
    let nextIndex := ei.entryGetNextIndex entry
    if prevIndex ≠ 0 ∧ (ipaTableGetEntryByIndex conf table prevIndex).isNone then .error (-EPERM)
    else if nextIndex ≠ 0 ∧ (ipaTableGetEntryByIndex conf table nextIndex).isNone then
      .error (-EPERM)
    else .ok ⟨prevIndex, currIndex, nextIndex⟩

def ipaTableIteratorNext (iterator : IpaTableIterator) (table : IpaTable ε) :
    Except Int IpaTableIterator :=
  let nextIndex := ei.entryGetNextIndex (table.records iterator.nextIndex)
  if nextIndex ≠ 0 ∧ (ipaTableGetEntryByIndex conf table nextIndex).isNone then .error (-EPERM)
  else .ok ⟨iterator.currIndex, iterator.nextIndex, nextIndex⟩

def IpaTableIterator.isHeadWithTail (iterator : IpaTableIterator) : Bool :=
  iterator.nextIndex ≠ 0 && iterator.prevIndex = 0

/-- The loop of `ipa_table_iterator_end`: the last slot of the chain through
`prevIndex`. A walk of more steps than there are slots has no end. -/
def ipaTableIteratorEndLoop (table : IpaTable ε) : Nat → Nat → Option Nat
  | 0, _ => none
  | fuel + 1, prevIndex =>
    let nextIndex := ei.entryGetNextIndex (table.records prevIndex)
    if nextIndex = 0 then some prevIndex
    else if nextIndex = prevIndex then none
    else ipaTableIteratorEndLoop table fuel nextIndex

def ipaTableIteratorEnd (table : IpaTable ε) (recIndex : Nat) : Except Int Nat :=
  match ipaTableIteratorEndLoop ei table conf.totTblEnts recIndex with
  | some prevIndex => .ok prevIndex
  | none => .error (-1)

/-! ## Inserting -/

def insertHead (table : IpaTable ε) (recIndex : Nat) (userData : υ)
    (cmd : List IpaIocNatDmaOne) : IpaTable ε × List IpaIocNatDmaOne :=
  let (entry, enableData) := ei.entryHeadInsert (table.records recIndex) userData
  ({ table with
      records := Function.update table.records recIndex entry
      curTblCnt := table.curTblCnt + 1 },
    ipaTableAddDmaCmd conf .updateHead recIndex enableData cmd)

/-- The record of a tail slot before its previous index is set. Only a table without
`meta` needs the enable bit, and takes it from the head inserter. -/
def tailEntry (entry : ε) (userData : υ) : ε × Nat :=
  if conf.hasMeta then (ei.entryTailInsert entry userData, 0)
  else ei.entryHeadInsert entry userData

def insertTail (table : IpaTable ε) (recIndex : Nat) (userData : υ)
    (cmd : List IpaIocNatDmaOne) : Except Int (IpaTable ε × Nat × List IpaIocNatDmaOne) := do
  let prevIndex ← ipaTableIteratorEnd ei conf table recIndex
  let currIndex ← findExpnTblFreeEntry ei conf table
  let (entry, enableData) := tailEntry ei conf (table.records currIndex) userData
  let (entry, metaPrev) :=
    ei.entrySetPrevIndex entry currIndex prevIndex table.metaPrev conf.tableEntries
  let cmd :=
    if conf.hasMeta then cmd else ipaTableAddDmaCmd conf .updateHead currIndex enableData cmd
  let cmd := ipaTableAddDmaCmd conf .updateEntry prevIndex currIndex cmd
  return ({ table with
              records := Function.update table.records currIndex entry
              metaPrev := metaPrev
              curExpnTblCnt := table.curExpnTblCnt + 1 }, currIndex, cmd)

/-- `ipa_table_add_entry`, returning the new slot as well. -/
def ipaTableAddEntry (table : IpaTable ε) (userData : υ) (recIndex : Nat)
    (cmd : List IpaIocNatDmaOne) : Except Int (IpaTable ε × Nat × List IpaIocNatDmaOne) :=
  if !ei.entryIsValid (table.records recIndex) then
    let (table, cmd) := insertHead ei conf table recIndex userData cmd
    .ok (table, recIndex, cmd)
  else insertTail ei conf table recIndex userData cmd

/-! ## Deleting -/

def ipaTableCreateDeleteCommand (table : IpaTable ε) (cmd : List IpaIocNatDmaOne)
    (iterator : IpaTableIterator) : List IpaIocNatDmaOne :=
  if iterator.prevIndex = 0 then
    if iterator.nextIndex ≠ 0 then
      ipaTableAddDmaCmd conf .deleteHead iterator.currIndex
        (ei.entryGetDeleteHeadDmaCommandData (table.records iterator.currIndex)
          (table.records iterator.nextIndex)) cmd
    else ipaTableAddDmaCmd conf .updateHead iterator.currIndex 0 cmd
  else ipaTableAddDmaCmd conf .updateEntry iterator.prevIndex iterator.nextIndex cmd

def ipaTableEraseEntry (table : IpaTable ε) (index : Nat) : IpaTable ε :=
  let records := Function.update table.records index default
  if index < conf.tableEntries then
    { table with records := records, curTblCnt := table.curTblCnt - 1 }
  else { table with records := records, curExpnTblCnt := table.curExpnTblCnt - 1 }

/-- What `ipa_table_delete_entry` does to the neighbours of the deleted entry. -/
def detachEntry (table : IpaTable ε) (iterator : IpaTableIterator) (isPrevEmpty : Bool) :
    IpaTable ε :=
  if iterator.nextIndex ≠ 0 then
    let (entry, metaPrev) := ei.entrySetPrevIndex (table.records iterator.nextIndex)
      iterator.nextIndex iterator.prevIndex table.metaPrev conf.tableEntries
    { table with
      records := Function.update table.records iterator.nextIndex entry
      metaPrev := metaPrev }
  -- an empty head goes once its whole tail is gone
  else if isPrevEmpty ∧ iterator.prevIndex ≠ 0 then
    { table with
      records := Function.update table.records iterator.prevIndex default
      curTblCnt := table.curTblCnt - 1 }
  else table

def ipaTableDeleteEntry (table : IpaTable ε) (iterator : IpaTableIterator)
    (isPrevEmpty : Bool) : IpaTable ε :=
  ipaTableEraseEntry conf (detachEntry ei conf table iterator isPrevEmpty) iterator.currIndex

end

end QcomModules.Ipanat
