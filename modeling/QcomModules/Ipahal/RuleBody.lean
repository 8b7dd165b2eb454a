import QcomModules.Ipahal.Attributes

/-! The bodies of rules written directly from their attributes. -/

namespace QcomModules.Ipahal

open Library

/-! ## Operands -/

def htons (w : BitVec 16) : BitVec 16 := word16 ((w >>> 8).setWidth 8) (w.setWidth 8)

def wordsMask (w₀ w₁ w₂ w₃ : BitVec 32) : Vector Byte 16 :=
  ⟨(bytes32 w₀ ++ bytes32 w₁ ++ bytes32 w₂ ++ bytes32 w₃).toArray, rfl⟩

/-- `ipa_fltrt_generate_mac_addr_hw_rule`. -/
def macEq (offset : Byte) (mask addr : Vector Byte 6) : MaskEq128 where
  offset := offset
  mask := #v[0, 0, 0, 0, 0, 0, 0, 0, 0, 0, mask[5], mask[4], mask[3], mask[2], mask[1], mask[0]]
  value := #v[0, 0, 0, 0, 0, 0, 0, 0, 0, 0, addr[5], addr[4], addr[3], addr[2], addr[1], addr[0]]

/-- `ipa_fltrt_generate_mac_hw_rule_bdy`, with `ipa_fltrt_get_mac_data`. -/
def macBlocks (a : RuleAttrib) : List Block :=
  [.take (a.has .macDstAddrEtherII) true
      [.eqn (.meq128 (macEq (-14) a.dstMacAddrMask a.dstMacAddr))],
    .take (a.has .macSrcAddrEtherII) true
      [.eqn (.meq128 (macEq (-8) a.srcMacAddrMask a.srcMacAddr))],
    .take (a.has .macDstAddr802_3) true
      [.eqn (.meq128 (macEq (-22) a.dstMacAddrMask a.dstMacAddr))],
    .take (a.has .macSrcAddr802_3) true
      [.eqn (.meq128 (macEq (-16) a.srcMacAddrMask a.srcMacAddr))],
    .take (a.has .macDstAddr802_1Q) true
      [.eqn (.meq128 (macEq (-18) a.dstMacAddrMask a.dstMacAddr))],
    .take (a.has .macSrcAddr802_1Q) true
      [.eqn (.meq128 (macEq (-10) a.srcMacAddrMask a.srcMacAddr))]]

/-- `ipa_fltrt_generate_vlan_hw_rule_bdy`. -/
def vlanBlock (a : RuleAttrib) : Block :=
  .take (a.has .vlanId) true
    [.eqn (.meq32 {
      offset := -6
      mask := 0xFFFF0FFF
      value := (0x8100 <<< 16) ||| (a.vlanId &&& 0xFFF).setWidth 32 })]

/-- The block for pure acknowledgements, first in all generators. -/
def pureAckBlock (hw : HwType) (a : RuleAttrib) : Block :=
  .fixed (a.has .isPureAck) (hw.eqValid .isPureAck) .isPureAck .pureAck

/-- The two equations for an inner MAC address, its first four bytes and its last two. -/
def innerMacItems (offset : Byte) (a : RuleAttrib) : List Item :=
  let mask := a.dstMacAddrMask
  let addr := a.dstMacAddr
  [.eqn (.ihlMeq32 {
      offset := offset
      mask := word32 mask[3] mask[2] mask[1] mask[0]
      value := word32 addr[3] addr[2] addr[1] addr[0] }),
    .eqn (.ihlMeq32 {
      offset := offset + 4
      mask := word32 0 0 mask[5] mask[4]
      value := word32 0 0 addr[5] addr[4] })]

/-- `ipa_fltrt_generate_hw_rule_bdy_ip4`. -/
def bdyIp4Blocks (hw : HwType) (a : RuleAttrib) : List Block :=
  [pureAckBlock hw a,
    .tosEq (a.has .tos) true a.v4.tos,
    .fixed (a.has .protocol) true .protocolEq (.protocol a.v4.protocol)] ++
  macBlocks a ++
  [.take (a.has .tosMasked) true
      [.eqn (.meq32 {
        offset := 0
        mask := a.tosMask.setWidth 32 <<< 16
        value := a.tosValue.setWidth 32 <<< 16 })],
    .take (a.has .srcAddr) true
      [.eqn (.meq32 { offset := 12, mask := a.v4.srcAddrMask, value := a.v4.srcAddr })],
    .take (a.has .dstAddr) true
      [.eqn (.meq32 { offset := 16, mask := a.v4.dstAddrMask, value := a.v4.dstAddr })],
    -- sixteen zero bits are written before the type
    .take (a.has .macEtherType) true
      [.eqn (.meq32 {
        offset := -2, mask := htons a.etherType ++ 0#16, value := htons a.etherType ++ 0#16 })],
    .tosTake (a.has .tos)
      (.meq32 { offset := 0, mask := 0xFF <<< 16, value := a.v4.tos.setWidth 32 <<< 16 }),
    vlanBlock a,
    .take (a.has .type) true
      [.eqn (.ihlMeq32 { offset := 0, mask := 0xFF, value := a.type.setWidth 32 })],
    .take (a.has .code) true
      [.eqn (.ihlMeq32 { offset := 1, mask := 0xFF, value := a.code.setWidth 32 })],
    .take (a.has .spi) true
      [.eqn (.ihlMeq32 { offset := 0, mask := 0xFFFFFFFF, value := a.spi })],
    .take (a.has .macDstAddrL2tp) true (innerMacItems 8 a),
    .take (a.has .l2tpUdpInnerMacDstAddr) true (innerMacItems 24 a),
    .take (a.hasExt .l2tpUdpInnerEtherType) true
      [.eqn (.meq32 {
        offset := 76, mask := a.etherType ++ 0#16, value := a.etherType ++ 0#16 })],
    .take (a.has .tcpSyn) true
      [.eqn (.ihlMeq32 { offset := 12, mask := 0x20000, value := 0x20000 })],
    .tosTake (a.has .tos)
      (.ihlMeq32 { offset := 0x80, mask := 0xFF <<< 16, value := a.v4.tos.setWidth 32 <<< 16 }),
    .fixed (a.has .metaData) true .metadataCompare (.metadata a.metaDataMask a.metaData),
    .take (a.hasExt .mtu) true
      [.eqn (.range16 { offset := 130, rangeHigh := a.payloadLength, rangeLow := 0 })],
    .take (a.has .srcPortRange) (!(a.srcPortHi < a.srcPortLo))
      [.eqn (.range16 { offset := 0, rangeHigh := a.srcPortHi, rangeLow := a.srcPortLo })],
    .take (a.has .dstPortRange) (!(a.dstPortHi < a.dstPortLo))
      [.eqn (.range16 { offset := 2, rangeHigh := a.dstPortHi, rangeLow := a.dstPortLo })],
    .take (a.has .srcPort) true
      [.eqn (.range16 { offset := 0, rangeHigh := a.srcPort, rangeLow := a.srcPort })],
    .take (a.has .dstPort) true
      [.eqn (.range16 { offset := 2, rangeHigh := a.dstPort, rangeLow := a.dstPort })],
    .fixed (a.has .fragment) true .isFrag .frag,
    .tosFail (a.has .tos)]

def RuleAttrib.innerV4 (a : RuleAttrib) : Bool := a.etherType == 0x0800

/-- `ipa_fltrt_generate_hw_rule_bdy_ip6`. -/
def bdyIp6Blocks (hw : HwType) (a : RuleAttrib) : List Block :=
  [pureAckBlock hw a,
    .fixed (a.has .nextHdr) true .protocolEq (.protocol a.v6.nextHdr),
    -- the next header is written once more, among the extra bytes; the slot is the first one of
    -- its kind and is not checked
    .take (a.hasExt .nextHdr) true
      [.eqn (.ihlMeq32 {
        offset := 134, mask := 0xFF000000, value := a.v6.nextHdr.setWidth 32 <<< 24 }),
      .stray a.v6.nextHdr],
    .fixed (a.has .tc) true .tcEq (.tc a.v6.tc),
    .take (a.has .srcAddr) true
      [.eqn (.meq128 {
        offset := 8
        mask := wordsMask a.v6.srcAddrMask[3] a.v6.srcAddrMask[2] a.v6.srcAddrMask[1]
          a.v6.srcAddrMask[0]
        value := wordsMask a.v6.srcAddr[3] a.v6.srcAddr[2] a.v6.srcAddr[1] a.v6.srcAddr[0] })],
    .take (a.has .dstAddr) true
      [.eqn (.meq128 {
        offset := 24
        mask := wordsMask a.v6.dstAddrMask[3] a.v6.dstAddrMask[2] a.v6.dstAddrMask[1]
          a.v6.dstAddrMask[0]
        value := wordsMask a.v6.dstAddr[3] a.v6.dstAddr[2] a.v6.dstAddr[1] a.v6.dstAddr[0] })],
    .take (a.has .tosMasked) true
      [.eqn (.meq128 {
        offset := 0
        mask := wordsMask 0 0 0 (a.tosMask.setWidth 32 <<< 20)
        value := wordsMask 0 0 0 (a.tosValue.setWidth 32 <<< 20) })]] ++
  macBlocks a ++
  [.take (a.has .macEtherType) true
      [.eqn (.meq32 {
        offset := -2, mask := htons a.etherType ++ 0#16, value := htons a.etherType ++ 0#16 })],
    vlanBlock a,
    .take (a.has .type) true
      [.eqn (.ihlMeq32 { offset := 0, mask := 0xFF, value := a.type.setWidth 32 })],
    .take (a.has .code) true
      [.eqn (.ihlMeq32 { offset := 1, mask := 0xFF, value := a.code.setWidth 32 })],
    .take (a.has .spi) true
      [.eqn (.ihlMeq32 { offset := 0, mask := 0xFFFFFFFF, value := a.spi })],
    .take (a.has .macDstAddrL2tp) true (innerMacItems 8 a),
    .take (a.has .l2tpUdpInnerMacDstAddr) true (innerMacItems 24 a),
    .take (a.hasExt .l2tpUdpInnerEtherType) true
      [.eqn (.meq32 {
        offset := 76, mask := a.etherType ++ 0#16, value := a.etherType ++ 0#16 })],
    .take (a.hasExt .l2tpUdpTcpSyn) true
      [.eqn (.ihlMeq32 (if a.innerV4 then { offset := 46, mask := 0xFF0000, value := 0x60000 }
        else { offset := 42, mask := 0xFF00, value := 0x600 })),
      .eqn (.ihlMeq32 {
        offset := if a.innerV4 then 70 else 90, mask := 0x20000, value := 0x20000 })],
    .take (a.hasExt .l2tpUdpInnerNextHdr) true
      [.eqn (.ihlMeq32 (if a.innerV4 then
          { offset := 46, mask := 0xFF0000, value := a.l2tpUdpNextHdr.setWidth 32 <<< 16 }
        else { offset := 42, mask := 0xFF00, value := a.l2tpUdpNextHdr.setWidth 32 <<< 8 }))],
    .take (a.has .tcpSyn) true
      [.eqn (.ihlMeq32 { offset := 12, mask := 0x20000, value := 0x20000 })],
    .take (a.has .tcpSynL2tp) true
      [.eqn (.ihlMeq32 (if a.innerV4 then { offset := 30, mask := 0xFF0000, value := 0x60000 }
        else { offset := 26, mask := 0xFF00, value := 0x600 })),
      .eqn (.ihlMeq32 {
        offset := if a.innerV4 then 54 else 74, mask := 0x20000, value := 0x20000 })],
    .take (a.has .l2tpInnerIpType) true
      [.eqn (.ihlMeq32 {
        offset := 22
        mask := 0xF0000000
        value := if a.type == 0x40 then 0x40000000 else 0x60000000 })],
    .take (a.has .l2tpInnerIpv4DstAddr) true
      [.eqn (.ihlMeq32 { offset := 38, mask := a.v4.dstAddrMask, value := a.v4.dstAddr })],
    .fixed (a.has .metaData) true .metadataCompare (.metadata a.metaDataMask a.metaData),
    .take (a.has .srcPort) true
      [.eqn (.range16 { offset := 0, rangeHigh := a.srcPort, rangeLow := a.srcPort })],
    .take (a.has .dstPort) true
      [.eqn (.range16 { offset := 2, rangeHigh := a.dstPort, rangeLow := a.dstPort })],
    .take (a.has .srcPortRange) (!(a.srcPortHi < a.srcPortLo))
      [.eqn (.range16 { offset := 0, rangeHigh := a.srcPortHi, rangeLow := a.srcPortLo })],
    .take (a.has .dstPortRange) (!(a.dstPortHi < a.dstPortLo))
      [.eqn (.range16 { offset := 2, rangeHigh := a.dstPortHi, rangeLow := a.dstPortLo })],
    .take (a.has .tcpSynL2tp) true
      [.eqn (.range16 (if a.innerV4 then { offset := 21, rangeHigh := 0x0045, rangeLow := 0x0045 }
        else { offset := 20, rangeHigh := a.etherType, rangeLow := a.etherType }))],
    .fixed (a.has .flowLabel) true .flEq (.fl (a.v6.flowLabel &&& 0xFFFFF)),
    .fixed (a.has .fragment) true .isFrag .frag]

/-! ## The body -/

/-- The default rule: without attributes, an equation that compares nothing. It does not ask for
the next slot but takes the first one. -/
def defaultBlock (a : RuleAttrib) : Block :=
  .fixed (a.attribMask == 0) true .offsetMeq32_0 (.meq32 {})

def bdyBlocks (hw : HwType) (a : RuleAttrib) : IpType → List Block
  | .v4 => bdyIp4Blocks hw a ++ [defaultBlock a]
  | .v6 => bdyIp6Blocks hw a ++ [defaultBlock a]

/-- Blocks that append to the two buffers; none of these generators overwrites. -/
def wordsTarget : Target Words where
  put _ e w := w.put [e]
  stray b w := w.extra8 b
  overwrite _ first second w := w.put [first, second]

/-- What the two buffers hold before they are padded, with the bits of the rule. -/
def generateWords (hw : HwType) (ipt : IpType) (a : RuleAttrib) : Option (BitVec 16 × Words) :=
  if ruleGenerationErrCheck ipt a then none
  else (runBlocks hw wordsTarget (bdyBlocks hw a ipt) { out := {} }).map fun g => (g.enRule, g.out)

/-! ## What attributes ask for -/

/-- The equations in the order in which attributes ask for them. -/
def itemsTarget : Target (List Item) where
  put _ e items := items ++ [.eqn e]
  stray b items := items ++ [.stray b]
  overwrite _ first second items := items ++ [.eqn first, .eqn second]

/-- The equations that attributes ask for, with the bits of their slots. -/
def attribItems (hw : HwType) (ipt : IpType) (a : RuleAttrib) :
    Option (BitVec 16 × List Item) :=
  if ruleGenerationErrCheck ipt a then none
  else (runBlocks hw itemsTarget (bdyBlocks hw a ipt) { out := [] }).map fun g => (g.enRule, g.out)

def Item.equation? : Item → Option Equation
  | .eqn e => some e
  | .stray _ => none

def Item.extra : Item → List Byte
  | .eqn e => e.extra
  | .stray b => [b]

def Item.rest : Item → List Byte
  | .eqn e => e.rest
  | .stray _ => []

def itemWords (items : List Item) : Words where
  extra := items.flatMap Item.extra
  rest := items.flatMap Item.rest

theorem itemWords_append (items items' : List Item) :
    itemWords (items ++ items') =
      { extra := (itemWords items).extra ++ (itemWords items').extra
        rest := (itemWords items).rest ++ (itemWords items').rest } := by
  simp only [itemWords, List.flatMap_append]

theorem itemWords_eqns (es : List Equation) : itemWords (es.map .eqn) = Words.put {} es := by
  simp only [itemWords, Words.put, List.flatMap_map]
  rfl

theorem itemsTarget_maps : itemsTarget.Maps wordsTarget itemWords where
  put _ e items := (itemWords_append items [.eqn e]).symm
  stray b items := by
    rw [itemsTarget, itemWords_append]
    simp [wordsTarget, Words.extra8, itemWords, Item.extra, Item.rest]
  overwrite _ first second items := (itemWords_append items [.eqn first, .eqn second]).symm

theorem generateWords_eq (hw : HwType) (ipt : IpType) (a : RuleAttrib) :
    generateWords hw ipt a =
      (attribItems hw ipt a).map fun asked => (asked.1, itemWords asked.2) := by
  have hrun := runBlocks_map itemsTarget_maps hw (bdyBlocks hw a ipt) { out := [] }
  rw [generateWords, attribItems]
  split
  · rfl
  · rw [show ({ out := {} } : Gen Words) = Gen.map itemWords { out := [] } from rfl, hrun]
    simp only [Option.map_map]
    rfl

/-- The two buffers, which start at a multiple of eight, padded and copied to `*buf` one behind the
other; with the extended header it is `*buf` that is padded in between. -/
def Words.copy (w : Words) (m : Mem) (buf : ℕ) (extHdr : Bool) : Mem × ℕ :=
  let extra := if extHdr then padTo64 buf w.extra else padTo64 0 w.extra
  let rest := padTo64 0 w.rest
  ((m.store buf extra).store (buf + extra.length) rest, buf + extra.length + rest.length)

def generateHwRuleBdy55 (hw : HwType) (ipt : IpType) (a : RuleAttrib) (m : Mem) (buf : ℕ)
    (extHdr : Bool) : Option (BitVec 16 × Mem × ℕ) :=
  (generateWords hw ipt a).map fun (enRule, w) => (enRule, w.copy m buf extHdr)

theorem Words.copy_eq_layOut (w : Words) (m : Mem) {buf : ℕ} {extHdr : Bool}
    (hbuf : buf % 8 = extHdr.toNat * 2) : w.copy m buf extHdr = w.layOut m buf := by
  have hpad {start : ℕ} (hstart : start % 8 = 0) (bs : List Byte) :
      padTo64 0 bs = padTo64 start bs := by
    rw [padTo64, padTo64, Nat.zero_add, Nat.add_mod, hstart, Nat.zero_add, Nat.mod_mod]
  have hextra : (if extHdr then padTo64 buf w.extra else padTo64 0 w.extra) =
      padTo64 buf w.extra := by
    cases extHdr with
    | true => rfl
    | false => exact hpad hbuf _
  have hend := length_padTo64 buf w.extra
  have hrest := hpad (Nat.mul_mod_left ((buf + w.extra.length + 7) / 8) 8) w.rest
  rw [Words.copy, hextra, hend, hrest]
  rfl

end QcomModules.Ipahal
