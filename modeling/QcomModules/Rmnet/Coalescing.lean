import Mathlib
import QcomModules.Library.Slice

/-! Segmentation of coalesced frames: one frame that holds several packets of a flow becomes
segments again, in two copies of the code. -/

namespace QcomModules.Rmnet

open Library

/-! ## Frames -/

inductive IpVersion where
  | v4
  | v6
  deriving DecidableEq, Repr

/-- The fields of an IP header that segmentation reads or writes; `ipLen` is its length with
options or extension headers, `length` the total or the payload length. -/
structure IpHeader where
  version : IpVersion
  ipLen : ℕ
  id : BitVec 16
  length : BitVec 16
  deriving DecidableEq, Repr

/-- The fields of a transport header that segmentation reads or writes, but for the checksum. -/
inductive TransHeader where
  | tcp (transLen : ℕ) (seq : BitVec 32) (fin psh : Bool)
  | udp (length : BitVec 16)
  deriving DecidableEq, Repr

/-- `sizeof(struct udphdr)`. -/
def udpHeaderSize : ℕ := 8

/-- `sizeof(struct ipv6hdr)`. -/
def ipv6HeaderSize : ℕ := 40

/-- `trans_len`. -/
def TransHeader.len : TransHeader → ℕ
  | .tcp transLen _ _ _ => transLen
  | .udp _ => udpHeaderSize

/-- `struct rmnet_map_v5_nl_pair` without the error bits. -/
structure NlPair where
  pktLen : UInt16
  numPackets : UInt8
  deriving DecidableEq, Repr

def maxNlos : ℕ := 6

def maxPackets : ℕ := 48

def NlPair.dataLen (nlo : NlPair) (hlen : ℕ) : ℕ :=
  nlo.pktLen.toNat - hlen

/-- A coalesced TCP or UDP frame with a consistent header: the IP and transport headers with the
transport checksum field, the payload, and the fields of `struct rmnet_map_v5_coal_header`. The
length of a frame has 16 bits in its MAP header. -/
structure CoalFrame where
  ip : IpHeader
  trans : TransHeader
  check : BitVec 16
  payload : List UInt8
  nlos : List NlPair
  csumValid : Bool
  closeType : ℕ
  closeValue : ℕ
  nlos_pos : 0 < nlos.length
  nlos_le : nlos.length ≤ maxNlos
  packets_le : (nlos.map (·.numPackets.toNat)).sum ≤ maxPackets
  pktLen_lt : ∀ nlo ∈ nlos, ip.ipLen + trans.len < nlo.pktLen.toNat
  payload_len : payload.length =
    (nlos.map fun nlo => nlo.numPackets.toNat * nlo.dataLen (ip.ipLen + trans.len)).sum
  len_lt : ip.ipLen + trans.len + payload.length < 2 ^ 16

def CoalFrame.hlen (frame : CoalFrame) : ℕ :=
  frame.ip.ipLen + frame.trans.len

/-- `len` of the frame without the MAP headers. -/
def CoalFrame.len (frame : CoalFrame) : ℕ :=
  frame.hlen + frame.payload.length

/-- The transport checksum is left out, as it may be for UDP over IPv4. -/
def CoalFrame.zeroCsum (frame : CoalFrame) : Bool :=
  match frame.ip.version, frame.trans with
  | .v4, .udp _ => frame.check = 0
  | _, _ => false

def CoalFrame.csumBuggy (frame : CoalFrame) : Bool :=
  match frame.nlos with
  | [nlo] =>
    if nlo.numPackets ≠ 1 then false
    else if frame.closeType = 4 then true
    else frame.closeType = 3 && (frame.closeValue = 1 || frame.closeValue = 2 ||
      frame.closeValue = 3)
  | _ => false

/-- Packets may stay together: the device allows it, and there are no IP options or extension
headers. -/
def CoalFrame.merges (frame : CoalFrame) (gro : Bool) : Bool :=
  gro &&
    match frame.ip.version with
    | .v4 => frame.ip.ipLen = 20
    | .v6 => frame.ip.ipLen ≤ ipv6HeaderSize

/-! ## Segments -/

/-- The transport checksum of a segment: left to be computed from the pseudo header, or a value. -/
inductive Check where
  | partialSum
  | value (check : BitVec 16)
  deriving DecidableEq, Repr

/-- A segment as it is handed to the network stack, with `gso_size` and `gso_segs`. -/
structure Segment where
  ip : IpHeader
  trans : TransHeader
  check : Check
  data : List UInt8
  gso : Option (ℕ × ℕ)
  deriving DecidableEq, Repr

/-- The checksum that fits a segment, which the kernel folds from the pseudo header, the transport
header and the data. -/
abbrev FittingCheck := IpHeader → TransHeader → List UInt8 → BitVec 16

def csum16Add (csum addend : BitVec 16) : BitVec 16 :=
  csum + addend + if csum + addend < addend then 1 else 0

/-- `htons(1)`. -/
def htonsOne : BitVec 16 := 0x0100#16

/-- The part of `struct rmnet_map_coal_metadata` that moves, and of the coalesced descriptor:
`data_len` is `gso_size` there and `pkt_count` is `gso_segs`. -/
structure CoalMeta where
  dataLen : ℕ := 0
  dataOffset : ℕ := 0
  pktCount : ℕ := 0
  pktId : ℕ := 0
  deriving DecidableEq, Repr

def CoalMeta.dlen (coalMeta : CoalMeta) : ℕ :=
  coalMeta.dataLen * coalMeta.pktCount

/-- Data of the frame follows that of the segment. -/
def CoalMeta.endsEarly (coalMeta : CoalMeta) (frame : CoalFrame) : Bool :=
  frame.hlen + coalMeta.dataOffset + coalMeta.dlen < frame.len

/-- The IP header of a segment with `len` bytes. -/
def IpHeader.ofLen (ip : IpHeader) (len : ℕ) : IpHeader :=
  match ip.version with
  | .v4 => { ip with length := BitVec.ofNat 16 len }
  | .v6 => { ip with length := BitVec.ofNat 16 (len - ipv6HeaderSize) }

/-- The segment that `__rmnet_map_segment_coal_skb` makes. -/
def mapSegment (fitting : FittingCheck) (frame : CoalFrame) (coalMeta : CoalMeta)
    (csumValid : Bool) : Segment :=
  let data := slice coalMeta.dataOffset coalMeta.dlen frame.payload
  let trans :=
    match frame.trans with
    | .tcp transLen seq fin psh =>
      let clear := (fin || psh) && coalMeta.endsEarly frame
      .tcp transLen (seq + BitVec.ofNat 32 coalMeta.dataOffset) (fin && !clear) (psh && !clear)
    | .udp _ => .udp (BitVec.ofNat 16 (udpHeaderSize + coalMeta.dlen))
  let ip := frame.ip.ofLen (frame.hlen + coalMeta.dlen)
  let ip :=
    match ip.version with
    | .v4 => { ip with id := ip.id + BitVec.ofNat 16 coalMeta.pktId }
    | .v6 => ip
  { ip
    trans
    data
    check :=
      if csumValid || frame.zeroCsum then .partialSum
      else .value (csum16Add (fitting ip trans data) htonsOne)
    gso := if 1 < coalMeta.pktCount then some (coalMeta.dataLen, coalMeta.pktCount) else none }

/-- A segment as a fragment descriptor: the headers of the frame, and what has to be changed in
them. -/
structure SegmentDesc where
  ip : IpHeader
  trans : TransHeader
  data : List UInt8
  gsoSize : ℕ
  gsoSegs : ℕ
  tcpSeq : Option (BitVec 32)
  clearFlags : Bool
  ipId : Option (BitVec 16)
  csumValid : Bool
  deriving DecidableEq, Repr

/-- The descriptor that `__rmnet_frag_segment_data` makes. -/
def fragSegment (frame : CoalFrame) (coalMeta : CoalMeta) (csumValid : Bool) : SegmentDesc where
  ip := frame.ip
  trans := frame.trans
  data := slice coalMeta.dataOffset coalMeta.dlen frame.payload
  gsoSize := coalMeta.dataLen
  gsoSegs := coalMeta.pktCount
  tcpSeq :=
    match frame.trans with
    | .tcp _ seq _ _ => some (seq + BitVec.ofNat 32 coalMeta.dataOffset)
    | .udp _ => none
  clearFlags :=
    match frame.trans with
    | .tcp _ _ fin psh => (fin || psh) && coalMeta.endsEarly frame
    | .udp _ => false
  ipId :=
    match frame.ip.version with
    | .v4 => some (frame.ip.id + BitVec.ofNat 16 coalMeta.pktId)
    | .v6 => none
  csumValid := csumValid || frame.zeroCsum

/-- `rmnet_alloc_skb` on the descriptor of a segment, whose headers are valid. -/
def allocSkb (fitting : FittingCheck) (desc : SegmentDesc) : Segment :=
  let trans :=
    match desc.trans with
    | .tcp transLen seq fin psh =>
      .tcp transLen (desc.tcpSeq.getD seq) (fin && !desc.clearFlags) (psh && !desc.clearFlags)
    | .udp _ => .udp (BitVec.ofNat 16 (udpHeaderSize + desc.data.length))
  let ip := desc.ip.ofLen (desc.ip.ipLen + desc.trans.len + desc.data.length)
  let ip := { ip with id := desc.ipId.getD ip.id }
  { ip
    trans
    data := desc.data
    check :=
      if desc.csumValid then .partialSum
      else .value (csum16Add (fitting ip trans desc.data) htonsOne)
    gso := if 1 < desc.gsoSegs then some (desc.gsoSize, desc.gsoSegs) else none }

/-! ## The loops -/

/-- The variables of the segmentation loops, with the segments made so far. -/
structure CoalState (Seg : Type) where
  coalMeta : CoalMeta := {}
  out : List Seg := []
  totalPkt : ℕ := 0
  mask : BitVec 64

section Loops

variable {Seg : Type} (emit : CoalMeta → Bool → Seg) (countSize : ℕ) (merges : Bool)

def CoalState.segment (s : CoalState Seg) (pktId : ℕ) (csumValid : Bool) : CoalState Seg :=
  { s with
    out := s.out ++ [emit s.coalMeta csumValid]
    coalMeta := { s.coalMeta with
      dataOffset := (s.coalMeta.dataOffset + s.coalMeta.dlen) % 2 ^ 16
      pktId := (pktId + 1) % 2 ^ 8
      pktCount := 0 } }

def CoalState.setCount (s : CoalState Seg) (pktCount : ℕ) : CoalState Seg :=
  { s with coalMeta := { s.coalMeta with pktCount } }

/-- Make a segment of the good packets gathered, if there are any. -/
def CoalState.flush (s : CoalState Seg) : CoalState Seg :=
  if s.coalMeta.pktCount ≠ 0 then s.segment emit s.totalPkt true else s

/-- The body of the packet loop. -/
def CoalState.packet (s : CoalState Seg) : CoalState Seg :=
  let csumErr := s.mask.getLsbD 0
  let s :=
    if !merges then (s.setCount 1).segment emit s.totalPkt (!csumErr)
    else if csumErr then ((s.flush emit).setCount 1).segment emit s.totalPkt false
    else s.setCount ((s.coalMeta.pktCount + 1) % countSize)
  { s with totalPkt := (s.totalPkt + 1) % 2 ^ 8, mask := s.mask >>> 1 }

def CoalState.packets : ℕ → CoalState Seg → CoalState Seg
  | 0, s => s
  | n + 1, s => CoalState.packets n (s.packet emit countSize merges)

def CoalState.nlos (hlen : ℕ) : List NlPair → CoalState Seg → CoalState Seg
  | [], s => s
  | nlo :: nlos, s =>
    let s := { s with coalMeta := { s.coalMeta with dataLen := nlo.dataLen hlen } }
    let s := s.packets emit countSize merges nlo.numPackets.toNat
    CoalState.nlos hlen nlos (s.flush emit)

end Loops

/-- What becomes of a frame: it stays as it is, or it is segmented. -/
inductive CoalResult (Seg : Type) where
  | whole
  | segments (segs : List Seg)

/-- The path of a frame with valid headers. -/
def segmentCoal {Seg : Type} (emit : CoalMeta → Bool → Seg) (countSize : ℕ) (frame : CoalFrame)
    (gro : Bool) (mask : BitVec 64) : CoalResult Seg :=
  if frame.csumBuggy && !frame.zeroCsum then .whole
  else if frame.merges gro && frame.nlos.length = 1 && frame.csumValid then .whole
  else
    .segments
      (CoalState.nlos emit countSize (frame.merges gro) frame.hlen frame.nlos { mask }).out

/-- `rmnet_map_segment_coal_skb`; `pkt_count` has 8 bits. -/
def mapSegmentCoalSkb (fitting : FittingCheck) (frame : CoalFrame) (gro : Bool)
    (mask : BitVec 64) : CoalResult Segment :=
  segmentCoal (mapSegment fitting frame) (2 ^ 8) frame gro mask

/-- `rmnet_frag_segment_coal_data`; `gso_segs` has 16 bits. -/
def fragSegmentCoalData (frame : CoalFrame) (gro : Bool) (mask : BitVec 64) :
    CoalResult SegmentDesc :=
  segmentCoal (fragSegment frame) (2 ^ 16) frame gro mask

end QcomModules.Rmnet
