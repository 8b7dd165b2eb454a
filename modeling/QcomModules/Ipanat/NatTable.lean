import QcomModules.Ipanat.Table

/-! One IPv4 NAT table of `ipa_nat_drvi.c` with its index table: the two record
layouts, the DMA writes, and adding and deleting a rule under `nat_mutex`. -/

namespace QcomModules.Ipanat

/-- `IPAHAL_NAT_INVALID_PROTOCOL`, also the mark of a deleted head. -/
def natInvalidProtocol : UInt8 := 0xFF

def ipaMaxPdnNum : Nat := 16
def ipaHwV4_0 : Nat := 14
def ipprotoTcp : UInt8 := 6
def ipprotoUdp : UInt8 := 17

/-- `ipa_nat_ipv4_rule`, the rule as the client gives it. -/
structure IpaNatIpv4Rule where
  targetIp : UInt32
  privateIp : UInt32
  targetPort : UInt16
  privatePort : UInt16
  publicPort : UInt16
  protocol : UInt8
  pdnIndex : UInt8
  redirect : UInt8
  enable : UInt8
  timeStamp : UInt32
  ucActivationIndex : UInt16
  s : Bool
  ucp : Bool
  dstOnly : Bool
  srcOnly : Bool
  deriving DecidableEq, Inhabited, Repr

/-- `struct ipa_nat_rule`; the fields without a type of their width are kept in range. -/
structure IpaNatRule where
  privateIp : UInt32
  targetIp : UInt32
  nextIndex : Nat
  publicPort : UInt16
  privatePort : UInt16
  targetPort : UInt16
  ipChksum : UInt16
  ucActivationIndex : Nat
  s : Bool
  redirect : Bool
  enable : Bool
  timeStamp : Nat
  protocol : UInt8
  prevIndex : Nat
  indxTblEntry : Nat
  dstOnly : Bool
  srcOnly : Bool
  ucp : Bool
  pdnIndex : Nat
  tcpUdpChksum : UInt16
  deriving DecidableEq, Inhabited, Repr

structure IpaNatIndxTblRule where
  tblEntry : Nat
  nextIndex : Nat
  deriving DecidableEq, Inhabited, Repr

/-! ## Checksums -/

def foldCarry (cksum : UInt32) : UInt32 :=
  if cksum >>> 16 ≠ 0 then (cksum &&& 0x0000FFFF) + 1 else cksum

def ipaNatiCalcIpCksum (pubIpAddr privIpAddr : UInt32) : UInt16 :=
  let cksum := foldCarry ((pubIpAddr &&& (0xFFFF : UInt32)) + (pubIpAddr >>> 16))
  let privIpAddr := ~~~privIpAddr
  let cksum := foldCarry (cksum + (privIpAddr &&& (0xFFFF : UInt32)))
  (foldCarry (cksum + (privIpAddr >>> 16))).toUInt16

def ipaNatiCalcTcpUdpCksum (pubIpAddr : UInt32) (pubPort : UInt16) (privIpAddr : UInt32)
    (privPort : UInt16) : UInt16 :=
  let cksum := foldCarry ((pubIpAddr &&& (0xFFFF : UInt32)) + (pubIpAddr >>> 16))
  let cksum := foldCarry (cksum + pubPort.toUInt32)
  let privIpAddr := ~~~privIpAddr
  let cksum := foldCarry (cksum + (privIpAddr &&& (0xFFFF : UInt32)))
  let cksum := foldCarry (cksum + (privIpAddr >>> 16))
  (foldCarry (cksum + (~~~privPort).toUInt32)).toUInt16

/-! ## Records of the NAT table -/

/-- `pdns` gives the public address of each PDN. -/
def tableEntryCopyFromUser (pdns : Nat → UInt32) (natEntry : IpaNatRule)
    (userRule : IpaNatIpv4Rule) : IpaNatRule :=
  let pubIpAddr := pdns userRule.pdnIndex.toNat
  { natEntry with
    privateIp := userRule.privateIp
    privatePort := userRule.privatePort
    protocol := userRule.protocol
    publicPort := userRule.publicPort
    targetIp := userRule.targetIp
    targetPort := userRule.targetPort
    pdnIndex := userRule.pdnIndex.toNat % 2 ^ 4
    ucActivationIndex := userRule.ucActivationIndex.toNat % 2 ^ 13
    s := userRule.s
    ucp := userRule.ucp
    dstOnly := userRule.dstOnly
    srcOnly := userRule.srcOnly
    ipChksum := ipaNatiCalcIpCksum pubIpAddr userRule.privateIp
    tcpUdpChksum :=
      if userRule.protocol = ipprotoTcp ∨ userRule.protocol = ipprotoUdp then
        ipaNatiCalcTcpUdpCksum pubIpAddr userRule.publicPort userRule.privateIp
          userRule.privatePort
      else natEntry.tcpUdpChksum }

/-- `ipa_nat_flags` as a 16-bit value: enable, redirect, s, uC activation index. -/
def natFlags (enable redirect s : Bool) (ucActivationIndex : Nat) : Nat :=
  enable.toNat * 2 ^ 15 + redirect.toNat * 2 ^ 14 + s.toNat * 2 ^ 13 + ucActivationIndex

def tableEntryHeadInsert (pdns : Nat → UInt32) (natEntry : IpaNatRule)
    (userRule : IpaNatIpv4Rule) : IpaNatRule × Nat :=
  let natEntry := tableEntryCopyFromUser pdns natEntry userRule
  (natEntry, natFlags true false natEntry.s natEntry.ucActivationIndex)

def tableEntryTailInsert (pdns : Nat → UInt32) (natEntry : IpaNatRule)
    (userRule : IpaNatIpv4Rule) : IpaNatRule :=
  { tableEntryCopyFromUser pdns natEntry userRule with enable := true }

def natInvalidProtoFieldValue : Nat := 0xFF00

def entryInterface (pdns : Nat → UInt32) : IpaTableEntryInterface IpaNatRule IpaNatIpv4Rule where
  entryIsValid rule := rule.enable
  entryGetNextIndex rule := rule.nextIndex
  entryGetPrevIndex rule _ _ _ := rule.prevIndex
  entrySetPrevIndex rule _ prevIndex metaPrev _ := ({ rule with prevIndex := prevIndex }, metaPrev)
  entryHeadInsert := tableEntryHeadInsert pdns
  entryTailInsert := tableEntryTailInsert pdns
  entryGetDeleteHeadDmaCommandData _ _ := natInvalidProtoFieldValue

/-! ## Records of the index table -/

def indexEntryInterface : IpaTableEntryInterface IpaNatIndxTblRule Nat where
  entryIsValid rule := rule.tblEntry ≠ 0
  entryGetNextIndex rule := rule.nextIndex
  entryGetPrevIndex _ entryIndex metaPrev baseTableSize :=
    if entryIndex ≥ baseTableSize then metaPrev (entryIndex - baseTableSize) else 0
  entrySetPrevIndex rule entryIndex prevIndex metaPrev baseTableSize :=
    (rule, if entryIndex ≥ baseTableSize then
      Function.update metaPrev (entryIndex - baseTableSize) prevIndex else metaPrev)
  entryHeadInsert rule userData := (rule, userData)
  entryTailInsert rule userData := { rule with tblEntry := userData }
  entryGetDeleteHeadDmaCommandData _ nextEntry := nextEntry.tblEntry

/-! ## The table cache -/

/-- `struct ipa_nat_ip4_table_cache`. Both tables have the same dimensions. -/
structure IpaNatIp4TableCache where
  valid : Bool
  nmi : Ipa3NatMemIn
  addrOffset : Nat
  publicAddr : UInt32
  tableEntries : Nat
  expnTableEntries : Nat
  table : IpaTable IpaNatRule
  indexTable : IpaTable IpaNatIndxTblRule

/-- The helpers of the NAT table: flags, next index and protocol. -/
def tableDmaHelp (addrOffset : Nat) : DmaHelpType → IpaTableDmaCmdHelper
  | .updateHead => ⟨addrOffset + 18, .natBaseTbl, .natExpnTbl, 0⟩
  | .updateEntry => ⟨addrOffset + 8, .natBaseTbl, .natExpnTbl, 0⟩
  | .deleteHead => ⟨addrOffset + 22, .natBaseTbl, .natExpnTbl, 0⟩

/-- The helpers of the index table: a head is deleted through its NAT index field. -/
def indexTableDmaHelp (addrOffset : Nat) : DmaHelpType → IpaTableDmaCmdHelper
  | .updateHead => ⟨addrOffset + 0, .natIndxTbl, .natIndexExpnTbl, 0⟩
  | .updateEntry => ⟨addrOffset + 2, .natIndxTbl, .natIndexExpnTbl, 0⟩
  | .deleteHead => ⟨addrOffset + 0, .natIndxTbl, .natIndexExpnTbl, 0⟩

namespace IpaNatIp4TableCache

def conf (natTable : IpaNatIp4TableCache) : IpaTableConf where
  nmi := natTable.nmi
  entrySize := 32
  tableEntries := natTable.tableEntries
  expnTableEntries := natTable.expnTableEntries
  hasMeta := false
  dmaHelp := tableDmaHelp natTable.addrOffset

def indexConf (natTable : IpaNatIp4TableCache) : IpaTableConf where
  nmi := natTable.nmi
  entrySize := 4
  tableEntries := natTable.tableEntries
  expnTableEntries := natTable.expnTableEntries
  hasMeta := true
  dmaHelp := indexTableDmaHelp natTable.addrOffset

end IpaNatIp4TableCache

/-! ## What the kernel does with a DMA command -/

/-- A 16-bit write into a NAT rule, by the byte offset of the field. -/
def IpaNatRule.write (rule : IpaNatRule) (fieldOffset data : Nat) : IpaNatRule :=
  match fieldOffset with
  | 8 => { rule with nextIndex := data }
  | 18 => { rule with
      ucActivationIndex := data % 2 ^ 13
      s := data / 2 ^ 13 % 2 = 1
      redirect := data / 2 ^ 14 % 2 = 1
      enable := data / 2 ^ 15 % 2 = 1 }
  -- the last byte of the time stamp and the protocol
  | 22 => { rule with
      timeStamp := rule.timeStamp % 2 ^ 16 + data % 2 ^ 8 * 2 ^ 16
      protocol := UInt8.ofNat (data / 2 ^ 8) }
  | _ => rule

def IpaNatIndxTblRule.write (rule : IpaNatIndxTblRule) (fieldOffset data : Nat) :
    IpaNatIndxTblRule :=
  match fieldOffset with
  | 0 => { rule with tblEntry := data }
  | 2 => { rule with nextIndex := data }
  | _ => rule

/-- The NAT table after one write; the writes to the index table do not concern it. -/
def IpaNatIp4TableCache.dmaTable (natTable : IpaNatIp4TableCache)
    (table : IpaTable IpaNatRule) (dma : IpaIocNatDmaOne) : IpaTable IpaNatRule :=
  let offset := dma.offset - natTable.addrOffset
  let write (slot : Nat) : IpaTable IpaNatRule :=
    { table with
      records := Function.update table.records slot
        ((table.records slot).write (offset % 32) dma.data) }
  match dma.baseAddr with
  | .natBaseTbl => write (offset / 32)
  | .natExpnTbl => write (natTable.tableEntries + offset / 32)
  | _ => table

def IpaNatIp4TableCache.dmaIndexTable (natTable : IpaNatIp4TableCache)
    (indexTable : IpaTable IpaNatIndxTblRule) (dma : IpaIocNatDmaOne) :
    IpaTable IpaNatIndxTblRule :=
  let offset := dma.offset - natTable.addrOffset
  let write (slot : Nat) : IpaTable IpaNatIndxTblRule :=
    { indexTable with
      records := Function.update indexTable.records slot
        ((indexTable.records slot).write (offset % 4) dma.data) }
  match dma.baseAddr with
  | .natIndxTbl => write (offset / 4)
  | .natIndexExpnTbl => write (natTable.tableEntries + offset / 4)
  | _ => indexTable

def IpaNatIp4TableCache.applyDma (natTable : IpaNatIp4TableCache)
    (cmd : List IpaIocNatDmaOne) : IpaNatIp4TableCache :=
  { natTable with
    table := cmd.foldl natTable.dmaTable natTable.table
    indexTable := cmd.foldl natTable.dmaIndexTable natTable.indexTable }

/-! ## Hashes -/

/-- Zero is no slot, so the highest one stands in for it. -/
def maskHash (hash size : UInt16) : UInt16 :=
  if hash &&& size = 0 then size else hash &&& size

def dstHash (ver : Nat) (publicIp trgtIp : UInt32) (trgtPort publicPort : UInt16) (proto : UInt8)
    (size : UInt16) : UInt16 :=
  let hash := trgtIp.toUInt16 ^^^ (trgtIp >>> 16).toUInt16 ^^^ trgtPort ^^^ publicPort ^^^
    proto.toUInt16
  let hash := if ver ≥ ipaHwV4_0 then
    hash ^^^ (publicIp.toUInt16 ^^^ (publicIp >>> 16).toUInt16) else hash
  maskHash hash size

def srcHash (privIp : UInt32) (privPort : UInt16) (trgtIp : UInt32) (trgtPort : UInt16)
    (proto : UInt8) (size : UInt16) : UInt16 :=
  let hash := privIp.toUInt16 ^^^ (privIp >>> 16).toUInt16 ^^^ privPort ^^^ trgtIp.toUInt16 ^^^
    (trgtIp >>> 16).toUInt16 ^^^ trgtPort ^^^ proto.toUInt16
  maskHash hash size

/-- The slot of a rule that is not to be found by its hash: `Hash_token` moves it. -/
def tokenSlot (hash : UInt16) (hashToken tableEntries : Nat) : Nat :=
  let slot := ((hash.toNat + hashToken) % 2 ^ 16) &&& (tableEntries - 1)
  if slot = 0 then tableEntries - 1 else slot

/-- The variables of the driver that adding a rule reads besides the table. -/
structure RuleEnv where
  ver : Nat
  pdns : Nat → UInt32

/-- The base slot of the NAT table for a client rule, and the next `Hash_token`. -/
def newEntryIndex (env : RuleEnv) (tableEntries hashToken : Nat) (clntRule : IpaNatIpv4Rule) :
    Nat × Nat :=
  let hash := dstHash env.ver (env.pdns clntRule.pdnIndex.toNat) clntRule.targetIp
    clntRule.targetPort clntRule.publicPort clntRule.protocol (UInt16.ofNat (tableEntries - 1))
  if clntRule.srcOnly then (tokenSlot hash hashToken tableEntries, hashToken + 1)
  else (hash.toNat, hashToken)

def newIndexTblEntryIndex (tableEntries hashToken : Nat) (clntRule : IpaNatIpv4Rule) : Nat × Nat :=
  let hash := srcHash clntRule.privateIp clntRule.privatePort clntRule.targetIp
    clntRule.targetPort clntRule.protocol (UInt16.ofNat (tableEntries - 1))
  if clntRule.dstOnly then (tokenSlot hash hashToken tableEntries, hashToken + 1)
  else (hash.toNat, hashToken)

/-! ## Adding a rule -/

structure AddRuleResult where
  ret : Int
  ruleHdl : Nat
  natTable : IpaNatIp4TableCache
  hashToken : Nat
  posted : Bool

/-- The fields of a new rule written once its index entry is known. -/
def finishRule (rule : IpaNatRule) (clntRule : IpaNatIpv4Rule) (indxTblEntry : Nat) : IpaNatRule :=
  { rule with
    indxTblEntry := indxTblEntry
    redirect := clntRule.redirect.toNat % 2 = 1
    enable := clntRule.enable.toNat % 2 = 1
    timeStamp := clntRule.timeStamp.toNat % 2 ^ 24 }

/-- `ipa_NATI_add_ipv4_rule` while it holds the mutex; `dmaRet` is what the DMA ioctl
returns if it comes to that. -/
def addRuleLocked (env : RuleEnv) (dmaRet : Int) (natTable : IpaNatIp4TableCache)
    (hashToken : Nat) (clntRule : IpaNatIpv4Rule) : AddRuleResult :=
  let (entryIndex, hashToken) := newEntryIndex env natTable.tableEntries hashToken clntRule
  match ipaTableAddEntry (entryInterface env.pdns) natTable.conf natTable.table clntRule
      entryIndex [] with
  | .error ret => ⟨ret, 0, natTable, hashToken, false⟩
  | .ok (table, entryIndex, cmd) =>
    let newEntryHandle := makeEntryHdl natTable.conf entryIndex
    let (indexEntryIndex, hashToken) :=
      newIndexTblEntryIndex natTable.tableEntries hashToken clntRule
    match ipaTableAddEntry indexEntryInterface natTable.indexConf natTable.indexTable entryIndex
        indexEntryIndex cmd with
    | .error ret =>
      ⟨ret, 0, { natTable with table := ipaTableEraseEntry natTable.conf table entryIndex },
        hashToken, false⟩
    | .ok (indexTable, indexEntryIndex, cmd) =>
      let bail (table : IpaTable IpaNatRule) : IpaNatIp4TableCache :=
        { natTable with
          indexTable := ipaTableEraseEntry natTable.indexConf indexTable indexEntryIndex
          table := ipaTableEraseEntry natTable.conf table entryIndex }
      match ipaTableGetEntryByIndex natTable.conf table entryIndex with
      | none => ⟨-EPERM, 0, bail table, hashToken, false⟩
      | some rule =>
        let table := { table with
          records := Function.update table.records entryIndex
            (finishRule rule clntRule indexEntryIndex) }
        if dmaRet ≠ 0 then ⟨- EIO, 0, bail table, hashToken, true⟩
        else
          ⟨0, newEntryHandle,
            { natTable with table := table, indexTable := indexTable }.applyDma cmd,
            hashToken, true⟩

/-! ## Deleting a rule -/

structure DelRuleResult where
  ret : Int
  natTable : IpaNatIp4TableCache
  posted : Bool

/-- `rule->indx_tbl_entry = indxTblEntry` for the rule at `tblEntry`. -/
def IpaNatIp4TableCache.setIndxTblEntry (natTable : IpaNatIp4TableCache)
    (tblEntry indxTblEntry : Nat) : IpaNatIp4TableCache :=
  { natTable with
    table := { natTable.table with
      records := Function.update natTable.table.records tblEntry
        { natTable.table.records tblEntry with indxTblEntry := indxTblEntry } } }

/-- `ipa_nati_copy_second_index_entry_to_head`. The NAT rule of the second entry is
told where its index entry moves. -/
def copySecondIndexEntryToHead (natTable : IpaNatIp4TableCache) (iterator : IpaTableIterator)
    (cmd : List IpaIocNatDmaOne) : IpaNatIp4TableCache × List IpaIocNatDmaOne :=
  let second := natTable.indexTable.records iterator.nextIndex
  (natTable.setIndxTblEntry second.tblEntry iterator.currIndex,
    ipaTableAddDmaCmd natTable.indexConf .updateEntry iterator.currIndex second.nextIndex cmd)

/-- The index entry that goes: a head with a tail hands its slot to the second entry,
which is the one removed. -/
def prepareIndexDelete (natTable : IpaNatIp4TableCache) (iterator : IpaTableIterator)
    (cmd : List IpaIocNatDmaOne) :
    IpaNatIp4TableCache × Except Int IpaTableIterator × List IpaIocNatDmaOne :=
  let cmd := ipaTableCreateDeleteCommand indexEntryInterface natTable.indexConf
    natTable.indexTable cmd iterator
  if iterator.isHeadWithTail then
    let (natTable, cmd) := copySecondIndexEntryToHead natTable iterator cmd
    (natTable, ipaTableIteratorNext indexEntryInterface natTable.indexConf iterator
      natTable.indexTable, cmd)
  else (natTable, .ok iterator, cmd)

/-- The NAT table after the DMA command: a head with a tail stays, and an empty head
goes with the last of its tail. -/
def deleteTableEntry (pdns : Nat → UInt32) (conf : IpaTableConf) (table : IpaTable IpaNatRule)
    (iterator : IpaTableIterator) : IpaTable IpaNatRule :=
  let isPrevEmpty := iterator.prevIndex ≠ 0 &&
    (table.records iterator.prevIndex).protocol = natInvalidProtocol
  if iterator.isHeadWithTail then table
  else ipaTableDeleteEntry (entryInterface pdns) conf table iterator isPrevEmpty

def deleteIndexTableEntry (conf : IpaTableConf) (indexTable : IpaTable IpaNatIndxTblRule)
    (iterator : IpaTableIterator) : IpaTable IpaNatIndxTblRule :=
  let indexTable := ipaTableDeleteEntry indexEntryInterface conf indexTable iterator false
  if iterator.currIndex ≥ conf.tableEntries then
    { indexTable with
      metaPrev := Function.update indexTable.metaPrev (iterator.currIndex - conf.tableEntries) 0 }
  else indexTable

/-- The writes of `ipa_NATI_del_ipv4_rule` after the DMA command. -/
def finishDelete (pdns : Nat → UInt32) (natTable : IpaNatIp4TableCache)
    (tableIterator indexTableIterator : IpaTableIterator) : IpaNatIp4TableCache :=
  { natTable with
    table := deleteTableEntry pdns natTable.conf natTable.table tableIterator
    indexTable := deleteIndexTableEntry natTable.indexConf natTable.indexTable
      indexTableIterator }

/-- `ipa_NATI_del_ipv4_rule` while it holds the mutex. -/
def delRuleLocked (pdns : Nat → UInt32) (dmaRet : Int) (natTable : IpaNatIp4TableCache)
    (ruleHdl : Nat) : DelRuleResult :=
  let index := ruleHdlIndex natTable.conf ruleHdl
  if index ≥ natTable.conf.totTblEnts then ⟨-EINVAL, natTable, false⟩
  else
    match ipaTableIteratorInit (entryInterface pdns) natTable.conf natTable.table index with
    | .error ret => ⟨ret, natTable, false⟩
    | .ok tableIterator =>
      let indexEntry := (natTable.table.records index).indxTblEntry
      if (ipaTableGetEntryByIndex natTable.indexConf natTable.indexTable indexEntry).isNone then
        ⟨-EPERM, natTable, false⟩
      else
        match ipaTableIteratorInit indexEntryInterface natTable.indexConf natTable.indexTable
            indexEntry with
        | .error ret => ⟨ret, natTable, false⟩
        | .ok indexTableIterator =>
          match prepareIndexDelete natTable indexTableIterator [] with
          | (natTable, .error ret, _) => ⟨ret, natTable, false⟩
          | (natTable, .ok indexTableIterator, cmd) =>
            let cmd := ipaTableCreateDeleteCommand (entryInterface pdns) natTable.conf
              natTable.table cmd tableIterator
            if dmaRet ≠ 0 then ⟨- EIO, natTable, true⟩
            else
              ⟨0, finishDelete pdns (natTable.applyDma cmd) tableIterator
                indexTableIterator, true⟩

end QcomModules.Ipanat
