import QcomModules.Library.OnesComplement
import QcomModules.Rmnet.Coalescing

/-! The checksum trailer of downlink packets: the sum the hardware took of a whole IP packet is
compared with the transport checksum of the packet. -/

namespace QcomModules.Rmnet

open Library List

/-! ## The trailer's checks -/

def ntohs : BitVec 16 → BitVec 16 := swapBytes

def csum16Sub (csum addend : BitVec 16) : BitVec 16 := csum16Add csum (~~~ addend)

def ipprotoTcp : UInt8 := 6

def ipprotoUdp : UInt8 := 17

def eProtoNoSupport : ℤ := -93

def eOpNotSupp : ℤ := -95

def eInval : ℤ := -22

def byteAt (data : List UInt8) (i : ℕ) : UInt8 := data.getD i 0

/-- A 16-bit field as the host reads it. -/
def field16 (data : List UInt8) (i : ℕ) : BitVec 16 :=
  .ofNat 16 ((byteAt data i).toNat + (byteAt data (i + 1)).toNat * 256)

/-- `rmnet_map_get_csum_field`: the offset of the checksum in the transport header. -/
def getCsumField (protocol : UInt8) : Option ℕ :=
  if protocol = ipprotoTcp then some 16 else if protocol = ipprotoUdp then some 6 else none

/-- `ip_fast_csum` and `ip_compute_csum`. -/
def ipCsum (data : List UInt8) : BitVec 16 := ~~~ onesSum (leWords data)

def pseudoHeader4 (addrs : List UInt8) (len : ℕ) (protocol : UInt8) : List UInt8 :=
  addrs ++ [0, protocol, .ofNat (len / 256), .ofNat len]

def pseudoHeader6 (addrs : List UInt8) (len : ℕ) (nexthdr : UInt8) : List UInt8 :=
  addrs ++ [.ofNat (len / 256 ^ 3), .ofNat (len / 256 ^ 2), .ofNat (len / 256), .ofNat len,
    0, 0, 0, nexthdr]

def csumTcpudpMagic (addrs : List UInt8) (len : ℕ) (protocol : UInt8) : BitVec 16 :=
  ipCsum (pseudoHeader4 addrs len protocol)

def csumIpv6Magic (addrs : List UInt8) (len : ℕ) (nexthdr : UInt8) : BitVec 16 :=
  ipCsum (pseudoHeader6 addrs len nexthdr)

/-- The end of both functions: the sum without the checksum field, with the two zeros told apart
as the protocol has it, is compared with the field. -/
def compareField (protocol : UInt8) (csumField pseudoCsum : BitVec 16) : ℤ :=
  let csumTemp := ~~~ csum16Sub pseudoCsum (ntohs csumField)
  let csumValueFinal :=
    if csumTemp = 0#16 then
      if protocol = ipprotoUdp then ~~~ csumTemp
      else if protocol = ipprotoTcp ∧ csumField = 0xFFFF#16 then ~~~ csumTemp
      else csumTemp
    else csumTemp
  if csumValueFinal = ntohs csumField then 0 else eInval

def ihl (data : List UInt8) : ℕ := (byteAt data 0).toNat % 16

/-- `IP_MF` is set or there is a fragment offset. -/
def fragmented (data : List UInt8) : Prop :=
  ntohs (field16 data 6) &&& 0x2000#16 ≠ 0#16 ∨ 0#16 < ntohs (field16 data 6) &&& 0x1FFF#16

instance (data : List UInt8) : Decidable (fragmented data) := inferInstanceAs (Decidable (_ ∨ _))

def mapIpv4DlCsumTrailer (data : List UInt8) (csumValue : BitVec 16) : ℤ :=
  let protocol := byteAt data 9
  let txporthdr := data.drop (ihl data * 4)
  if fragmented data then eOpNotSupp
  else match getCsumField protocol with
    | none => eProtoNoSupport
    | some off =>
      let csumField := field16 txporthdr off
      if csumField = 0#16 ∧ protocol = ipprotoUdp then 0
      else
        let hdrCsum := ~~~ ipCsum (data.take (ihl data * 4))
        let payloadCsum := csum16Sub (~~~ ntohs csumValue) hdrCsum
        let len := (ntohs (field16 data 2)).toNat - ihl data * 4
        let pseudoCsum := ~~~ csumTcpudpMagic ((data.drop 12).take 8) len protocol
        compareField protocol csumField (csum16Add payloadCsum (ntohs pseudoCsum))

def mapIpv6DlCsumTrailer (data : List UInt8) (csumValue : BitVec 16) : ℤ :=
  let nexthdr := byteAt data 6
  let txporthdr := data.drop 40
  match getCsumField nexthdr with
  | none => eProtoNoSupport
  | some off =>
    let csumField := field16 txporthdr off
    let hdrCsum := ~~~ ntohs (ipCsum (data.take 40))
    let payloadCsum := csum16Sub (~~~ ntohs csumValue) hdrCsum
    let len :=
      if nexthdr = ipprotoUdp then ntohs (field16 txporthdr 4) else ntohs (field16 data 4)
    let pseudoCsum := ~~~ csumIpv6Magic ((data.drop 8).take 32) len.toNat nexthdr
    compareField nexthdr csumField (csum16Add payloadCsum (ntohs pseudoCsum))

/-! ## Packets -/

/-- The `csum_value` of a packet whose checksum the hardware took. -/
def internetChecksum (data : List UInt8) : BitVec 16 := ntohs (~~~ onesSum (beWords data))

/-- A transport header with a checksum field, which UDP does not leave 0. -/
structure TransportOk (protocol : UInt8) (transport : List UInt8) (off : ℕ) : Prop where
  field : getCsumField protocol = some off
  udp : protocol = ipprotoUdp → field16 transport off ≠ 0#16

/-- An unfragmented IPv4 packet with consistent lengths and a valid header checksum. -/
structure Ipv4Packet where
  header : List UInt8
  transport : List UInt8
  off : ℕ
  length_header : header.length = ihl header * 4
  five_le : 5 ≤ ihl header
  totLen : (ntohs (field16 header 2)).toNat = header.length + transport.length
  unfragmented : ¬ fragmented header
  transportOk : TransportOk (byteAt header 9) transport off
  header_valid : onesSum (beWords header) = 0xFFFF#16

/-- An IPv6 packet without extension headers and with consistent lengths. -/
structure Ipv6Packet where
  header : List UInt8
  transport : List UInt8
  off : ℕ
  length_header : header.length = 40
  payloadLen : (ntohs (field16 header 4)).toNat = transport.length
  udpLen : byteAt header 6 = ipprotoUdp → (ntohs (field16 transport 4)).toNat = transport.length
  transportOk : TransportOk (byteAt header 6) transport off

def Ipv4Packet.bytes (p : Ipv4Packet) : List UInt8 := p.header ++ p.transport

def Ipv6Packet.bytes (p : Ipv6Packet) : List UInt8 := p.header ++ p.transport

def Ipv4Packet.Valid (p : Ipv4Packet) : Prop :=
  onesSum (beWords (pseudoHeader4 ((p.header.drop 12).take 8) p.transport.length
    (byteAt p.header 9) ++ p.transport)) = 0xFFFF#16

def Ipv6Packet.Valid (p : Ipv6Packet) : Prop :=
  onesSum (beWords (pseudoHeader6 ((p.header.drop 8).take 32) p.transport.length
    (byteAt p.header 6) ++ p.transport)) = 0xFFFF#16

instance (p : Ipv4Packet) : Decidable p.Valid := inferInstanceAs (Decidable (_ = _))

instance (p : Ipv6Packet) : Decidable p.Valid := inferInstanceAs (Decidable (_ = _))

/-! ## The comparison -/

theorem csum16Add_eq (a b : BitVec 16) : csum16Add a b = onesAdd a b := rfl

theorem not_ipCsum (data : List UInt8) : ~~~ ipCsum data = ntohs (onesSum (beWords data)) := by
  rw [ipCsum, BitVec.not_not, leWords, onesSum_map_swapBytes]
  rfl

theorem ntohs_ntohs (a : BitVec 16) : ntohs (ntohs a) = a := swapBytes_swapBytes a

theorem not_ntohs_ipCsum (data : List UInt8) :
    ~~~ ntohs (ipCsum data) = onesSum (beWords data) := by
  rw [ntohs, ← swapBytes_not, not_ipCsum]
  exact ntohs_ntohs _

variable {protocol : UInt8} {off i n : ℕ} {sum : BitVec 16} {header : List UInt8}

theorem getCsumField_some (h : getCsumField protocol = some off) :
    protocol = ipprotoTcp ∧ protocol ≠ ipprotoUdp ∨
      protocol = ipprotoUdp ∧ protocol ≠ ipprotoTcp := by
  rw [getCsumField] at h
  split at h
  case isTrue htcp => exact .inl ⟨htcp, htcp ▸ by decide⟩
  case isFalse =>
    split at h
    case isTrue hudp => exact .inr ⟨hudp, hudp ▸ by decide⟩
    case isFalse => cases h

theorem ntohs_eq_iff {a b : BitVec 16} : ntohs a = ntohs b ↔ a = b :=
  ⟨fun h => swapBytes_swapBytes a ▸ swapBytes_swapBytes b ▸ congrArg swapBytes h, congrArg ntohs⟩

theorem csum16Sub_eq_iff (field : BitVec 16) (hsum : sum ≠ 0#16) :
    (~~~ csum16Sub sum field = 0#16 ↔ sum = field ∨ sum = 0xFFFF#16 ∧ field = 0#16) ∧
      (~~~ csum16Sub sum field = field ↔ sum = 0xFFFF#16 ∧ field ≠ 0xFFFF#16) := by
  have hs := sum.isLt
  have hf := field.isLt
  have hpos : sum.toNat ≠ 0 := fun hzero => hsum (BitVec.eq_of_toNat_eq hzero)
  simp only [← BitVec.toNat_inj, ne_eq, BitVec.toNat_not, csum16Sub, csum16Add_eq, toNat_onesAdd,
    show (0xFFFF#16).toNat = 65535 from rfl, BitVec.toNat_zero]
  split_ifs <;> omega

theorem compareField_iff {transport : List UInt8} (h : TransportOk protocol transport off)
    (hsum : sum ≠ 0#16) :
    compareField protocol (field16 transport off) sum = 0 ↔ sum = 0xFFFF#16 := by
  have hudp := h.udp
  generalize field16 transport off = csumField at hudp
  obtain ⟨hzero, hsame⟩ := csum16Sub_eq_iff (ntohs csumField) hsum
  have hfull : csumField = 0xFFFF#16 ↔ ntohs csumField = 0xFFFF#16 :=
    (ntohs_eq_iff (b := 0xFFFF#16)).symm
  have hnil : csumField = 0#16 ↔ ntohs csumField = 0#16 := (ntohs_eq_iff (b := 0#16)).symm
  have hreturn (c : Prop) [Decidable c] : (if c then (0 : ℤ) else eInval) = 0 ↔ c := by
    split <;> simp_all [eInval]
  rw [compareField]
  simp only [hreturn, hfull]
  rw [ne_eq, hnil] at hudp
  generalize ntohs csumField = field at hzero hsame hudp ⊢
  by_cases htemp : ~~~ csum16Sub sum field = 0#16
  · have hcases := hzero.mp htemp
    rw [if_pos htemp, htemp, show ~~~ (0#16) = 0xFFFF#16 from rfl]
    obtain ⟨rfl, -⟩ | ⟨rfl, -⟩ := getCsumField_some h.field
    · rw [if_neg (show ipprotoTcp ≠ ipprotoUdp by decide)]
      simp only [true_and]
      split
      case isTrue hfield => exact iff_of_true hfield.symm (by grind)
      case isFalse hfield => grind
    · have hne := hudp rfl
      rw [if_pos rfl]
      grind
  · rw [if_neg htemp, hsame]
    grind

/-! ## Whole packets -/

theorem sum_transport (transport pseudo : List UInt8)
    (heven : pseudo.length % 2 = 0) (hne : onesSum (beWords pseudo) ≠ 0#16) :
    onesAdd (onesAdd 0xFFFF#16 (onesSum (beWords transport))) (onesSum (beWords pseudo)) =
      onesSum (beWords (pseudo ++ transport)) := by
  rw [beWords_append heven, onesSum_append, onesAdd_assoc, onesAdd_comm, onesAdd_full,
    onesAdd_comm]
  exact fun hzero => hne (onesAdd_eq_zero_iff.mp hzero).2

theorem not_ntohs_internetChecksum (data : List UInt8) :
    ~~~ ntohs (internetChecksum data) = onesSum (beWords data) := by
  rw [internetChecksum, ntohs, swapBytes_swapBytes, BitVec.not_not]

theorem byteAt_append (hi : i < header.length) (transport : List UInt8) :
    byteAt (header ++ transport) i = byteAt header i :=
  getD_append _ _ _ _ hi

theorem field16_append (hi : i + 1 < header.length) (transport : List UInt8) :
    field16 (header ++ transport) i = field16 header i := by
  rw [field16, byteAt_append (by omega), byteAt_append hi, field16]

theorem length_field (h : i + n ≤ header.length) : ((header.drop i).take n).length = n := by
  rw [length_take, length_drop]
  omega

theorem field_append (h : i + n ≤ header.length) (transport : List UInt8) :
    ((header ++ transport).drop i).take n = (header.drop i).take n := by
  rw [drop_append_of_le_length (by omega), take_append_of_le_length (by rw [length_drop]; omega)]

theorem protocol_ne_zero (h : getCsumField protocol = some off) : protocol.toNat ≠ 0 := by
  obtain ⟨rfl, -⟩ | ⟨rfl, -⟩ := getCsumField_some h <;> decide

theorem pseudo_ne_zero (addrs tail : List UInt8) (heven : addrs.length % 2 = 0) {w : BitVec 16}
    (hw : w ∈ beWords tail) (hne : w ≠ 0#16) : onesSum (beWords (addrs ++ tail)) ≠ 0#16 := by
  rw [beWords_append heven, onesSum_append]
  exact fun hzero => onesSum_ne_zero hw hne (onesAdd_eq_zero_iff.mp hzero).2

theorem ofNat_protocol_ne_zero (h : protocol.toNat ≠ 0) :
    BitVec.ofNat 16 ((0 : UInt8).toNat * 256 + protocol.toNat) ≠ 0#16 := by
  have hlt := protocol.toNat_lt
  intro hzero
  have hnat := congrArg BitVec.toNat hzero
  rw [BitVec.toNat_ofNat, UInt8.toNat_zero, Nat.zero_mul, Nat.zero_add,
    Nat.mod_eq_of_lt (by omega)] at hnat
  exact h hnat

theorem ipv4_trailer_iff (p : Ipv4Packet) :
    mapIpv4DlCsumTrailer p.bytes (internetChecksum p.bytes) = 0 ↔ p.Valid := by
  have hfive := p.five_le
  have hlen := p.length_header
  have hbyte (i : ℕ) (hi : i < 20) : byteAt p.bytes i = byteAt p.header i :=
    byteAt_append (by omega) _
  have hfield (i : ℕ) (hi : i + 1 < 20) : field16 p.bytes i = field16 p.header i :=
    field16_append (by omega) _
  have hihl : ihl p.bytes * 4 = p.header.length := by rw [ihl, hbyte 0 (by omega), ← ihl, hlen]
  have hfrag : ¬ fragmented p.bytes := by
    rw [fragmented, hfield 6 (by omega)]
    exact p.unfragmented
  have haddrs : (p.bytes.drop 12).take 8 = (p.header.drop 12).take 8 := field_append (by omega) _
  have heven : ((p.header.drop 12).take 8).length = 8 := length_field (by omega)
  have hproto := protocol_ne_zero p.transportOk.field
  have hpseudo := pseudo_ne_zero ((p.header.drop 12).take 8)
    [0, byteAt p.header 9, .ofNat (p.transport.length / 256), .ofNat p.transport.length]
    (by omega) mem_cons_self (ofNat_protocol_ne_zero hproto)
  have hsum : onesSum (beWords p.bytes) = onesAdd 0xFFFF#16 (onesSum (beWords p.transport)) := by
    rw [Ipv4Packet.bytes, beWords_append (by omega), onesSum_append, p.header_valid]
  have hkeep : csum16Sub (onesSum (beWords p.bytes)) 0xFFFF#16 = onesSum (beWords p.bytes) := by
    rw [csum16Sub, csum16Add_eq, onesAdd_comm]
    exact zero_onesAdd _
  have hskip : ¬ (field16 p.transport p.off = 0#16 ∧ byteAt p.header 9 = ipprotoUdp) :=
    fun hboth => p.transportOk.udp hboth.2 hboth.1
  rw [mapIpv4DlCsumTrailer]
  simp only [hihl, if_neg hfrag, hbyte 9 (by omega), p.transportOk.field, hfield 2 (by omega),
    p.totLen, Nat.add_sub_cancel_left, haddrs, not_ntohs_internetChecksum]
  rw [show p.bytes.drop p.header.length = p.transport from drop_left, if_neg hskip,
    show p.bytes.take p.header.length = p.header from take_left, not_ipCsum, p.header_valid,
    show ntohs 0xFFFF#16 = 0xFFFF#16 by decide, hkeep, hsum, csumTcpudpMagic, not_ipCsum,
    ntohs_ntohs, csum16Add_eq, pseudoHeader4]
  have htotal := sum_transport p.transport ((p.header.drop 12).take 8 ++
    [0, byteAt p.header 9, .ofNat (p.transport.length / 256), .ofNat p.transport.length])
    (by simp only [length_append, heven, length_cons, length_nil]) hpseudo
  rw [htotal, compareField_iff p.transportOk, Ipv4Packet.Valid, pseudoHeader4]
  rw [← htotal]
  exact fun hzero => hpseudo (onesAdd_eq_zero_iff.mp hzero).2

theorem ipv6_trailer_iff (p : Ipv6Packet) :
    mapIpv6DlCsumTrailer p.bytes (internetChecksum p.bytes) = 0 ↔ p.Valid := by
  have hlen := p.length_header
  have hbyte : byteAt p.bytes 6 = byteAt p.header 6 := byteAt_append (by omega) _
  have hfield : field16 p.bytes 4 = field16 p.header 4 := field16_append (by omega) _
  have haddrs : (p.bytes.drop 8).take 32 = (p.header.drop 8).take 32 := field_append (by omega) _
  have heven : ((p.header.drop 8).take 32).length = 32 := length_field (by omega)
  have hproto := protocol_ne_zero p.transportOk.field
  have htail : BitVec.ofNat 16 ((0 : UInt8).toNat * 256 + (byteAt p.header 6).toNat) ∈
      beWords [.ofNat (p.transport.length / 256 ^ 3), .ofNat (p.transport.length / 256 ^ 2),
        .ofNat (p.transport.length / 256), .ofNat p.transport.length, 0, 0, 0,
        byteAt p.header 6] := by
    simp only [beWords]
    exact mem_cons_of_mem _ (mem_cons_of_mem _ (mem_cons_of_mem _ mem_cons_self))
  have hpseudo := pseudo_ne_zero ((p.header.drop 8).take 32) _ (by omega) htail
    (ofNat_protocol_ne_zero hproto)
  have hlength : (if byteAt p.header 6 = ipprotoUdp then ntohs (field16 p.transport 4)
      else ntohs (field16 p.header 4)).toNat = p.transport.length := by
    split
    case isTrue hudp => exact p.udpLen hudp
    case isFalse => exact p.payloadLen
  have hrest : csum16Sub (onesSum (beWords p.bytes)) (onesSum (beWords p.header)) =
      onesAdd 0xFFFF#16 (onesSum (beWords p.transport)) := by
    rw [csum16Sub, csum16Add_eq, Ipv6Packet.bytes, beWords_append (by omega), onesSum_append,
      onesAdd_comm, ← onesAdd_assoc, onesAdd_comm (~~~ _), onesAdd_not]
  rw [mapIpv6DlCsumTrailer]
  simp only [hbyte, p.transportOk.field, hfield, haddrs, not_ntohs_internetChecksum]
  rw [show p.bytes.drop 40 = p.transport from hlen ▸ drop_left,
    show p.bytes.take 40 = p.header from hlen ▸ take_left, hlength, csumIpv6Magic, not_ipCsum,
    ntohs_ntohs, csum16Add_eq, pseudoHeader6,
    not_ntohs_ipCsum, hrest]
  have htotal := sum_transport p.transport _
    (by simp only [length_append, heven, length_cons, length_nil]) hpseudo
  rw [htotal, compareField_iff p.transportOk, Ipv6Packet.Valid, pseudoHeader6]
  rw [← htotal]
  exact fun hzero => hpseudo (onesAdd_eq_zero_iff.mp hzero).2

/-- With the checksum of the whole packet as its trailer, a packet passes exactly where its
transport checksum is valid. -/
theorem dl_csum_trailer_iff :
    (∀ p : Ipv4Packet, mapIpv4DlCsumTrailer p.bytes (internetChecksum p.bytes) = 0 ↔ p.Valid) ∧
      ∀ p : Ipv6Packet, mapIpv6DlCsumTrailer p.bytes (internetChecksum p.bytes) = 0 ↔ p.Valid :=
  ⟨ipv4_trailer_iff, ipv6_trailer_iff⟩

/-- A UDP packet with one byte of data. -/
def sampleIpv4 : Ipv4Packet where
  header := [0x45, 0, 0, 29, 0, 0, 0, 0, 64, 17, 102, 206, 10, 0, 0, 1, 10, 0, 0, 2]
  transport := [0, 53, 0, 54, 0, 9, 193, 110, 42]
  off := 6
  length_header := rfl
  five_le := by decide
  totLen := by decide
  unfragmented := by decide
  transportOk := ⟨rfl, by decide⟩
  header_valid := by decide

/-- A TCP header whose checksum is wrong. -/
def sampleIpv6 : Ipv6Packet where
  header := [0x60, 0, 0, 0, 0, 20, 6, 64] ++ replicate 32 1
  transport := replicate 20 7
  off := 16
  length_header := rfl
  payloadLen := by decide
  udpLen := by decide
  transportOk := ⟨rfl, by decide⟩

theorem dl_csum_trailer_samples :
    mapIpv4DlCsumTrailer sampleIpv4.bytes (internetChecksum sampleIpv4.bytes) = 0 ∧
      mapIpv6DlCsumTrailer sampleIpv6.bytes (internetChecksum sampleIpv6.bytes) ≠ 0 := by
  have hvalid : sampleIpv4.Valid := by decide
  have hwrong : ¬ sampleIpv6.Valid := by decide +kernel
  exact ⟨(dl_csum_trailer_iff.1 sampleIpv4).2 hvalid,
    mt (dl_csum_trailer_iff.2 sampleIpv6).1 hwrong⟩

end QcomModules.Rmnet
