import QcomModules.Rmnet.ChecksumTrailer
import QcomModules.Rmnet.Delivery
import QcomModules.Rmnet.LinearFrames

/-! Packets with MAP headers, aggregated on the way out and taken apart on the way in: every frame
holds whole packets, and the payloads come out as they went in. -/

namespace QcomModules.Rmnet

open Library List

def egressMapCksumv4 : BitVec 32 := 1#32 <<< 3

def egressMapCksumv5 : BitVec 32 := 1#32 <<< 6

def ulCsumHeaderSize : ℕ := 4

/-- `htons`, as bytes. -/
def be16 (n : ℕ) : List UInt8 := [UInt8.ofNat (n / 256), UInt8.ofNat n]

/-- The header that `rmnet_map_v5_checksum_uplink_packet` pushes; its flags ask for priority and
for a checksum. -/
def ulCsumHeader (flags : UInt8) : List UInt8 := [headerTypeCsumOffload <<< 1, flags, 0, 0]

/-- `rmnet_map_add_map_header` without padding, as it is called. -/
def addMapHeader (fmt : BitVec 32) (hdrlen : ℕ) (skb : List UInt8) : List UInt8 :=
  (if fmt &&& egressMapCksumv5 ≠ 0 then 0x40 else 0) :: 0 :: be16 (skb.length - hdrlen) ++ skb

/-- An IP packet whose checksum the hardware is to take: what its skb says of the transport
header. -/
structure CsumPartial where
  ipv6 : Bool
  transportOffset : ℕ
  csumOffset : ℕ

/-- `rmnet_map_complement_ipv4_txporthdr_csum_field` and its sibling for IPv6. -/
def complementCsumField (ipv6 : Bool) (packet : List UInt8) : List UInt8 :=
  let txphdr := if ipv6 then 40 else ihl packet * 4
  match getCsumField (byteAt packet (if ipv6 then 6 else 9)) with
  | some off => (packet.modify (txphdr + off) (~~~ ·)).modify (txphdr + off + 1) (~~~ ·)
  | none => packet

/-- `rmnet_map_v4_checksum_uplink_packet`; nothing is asked of the hardware without offload. -/
def v4ChecksumUplinkPacket (packet : List UInt8) : Option CsumPartial → List UInt8
  | none => [0, 0, 0, 0] ++ packet
  | some skb =>
    let udpInd := if byteAt packet (if skb.ipv6 then 6 else 9) = ipprotoUdp then 2 ^ 14 else 0
    be16 skb.transportOffset ++ be16 (skb.csumOffset % 2 ^ 14 + udpInd + 2 ^ 15) ++
      complementCsumField skb.ipv6 packet

/-- The headers that `rmnet_map_egress_handler` puts in front of a packet, without segmentation
offload. -/
def egressFrame (fmt : BitVec 32) (muxId flags : UInt8) (offload : Option CsumPartial)
    (payload : List UInt8) : List UInt8 :=
  (if fmt &&& egressMapCksumv4 ≠ 0 then
    addMapHeader fmt ulCsumHeaderSize (v4ChecksumUplinkPacket payload offload)
  else if fmt &&& (egressMapCksumv5 ||| egressFormatPriority) ≠ 0 then
    addMapHeader fmt v5CsumHeaderSize (ulCsumHeader flags ++ payload)
  else addMapHeader fmt 0 payload).set 1 muxId

/-- `__rmnet_map_ingress_handler`: the endpoint and the bytes delivered to it. Nothing is delivered
of a command, and a coalesced packet is for the segmentation. -/
def ingressPayload (fmt : BitVec 32) (endpoint : UInt8 → Bool) (packet : List UInt8) :
    Option (UInt8 × List UInt8) :=
  let qmap := packet.getD 0 0
  let muxId := packet.getD 1 0
  let len := ((MapHeader.ofBytes packet).pktLen + 2 ^ 16 - (qmap &&& 0x3F).toNat) % 2 ^ 16
  if (MapHeader.ofBytes packet).cdBit then none
  else if 255 ≤ muxId ∨ endpoint muxId = false then none
  else if qmap &&& 0x40 ≠ 0 ∧ fmt &&& (ingressMapCksumv5 ||| ingressCoalesce) ≠ 0 then
    if headerType (packet.getD mapHeaderSize 0) = headerTypeCsumOffload then
      some (muxId, (packet.drop (mapHeaderSize + v5CsumHeaderSize)).take len)
    else none
  else some (muxId, (packet.drop mapHeaderSize).take len)

/-- What the endpoints get of one frame. -/
def received (fmt : BitVec 32) (endpoint : UInt8 → Bool) (frame : List UInt8) :
    List (UInt8 × List UInt8) :=
  (ingressPackets fmt frame).filterMap (ingressPayload fmt endpoint)

/-- A packet to be sent through an endpoint. -/
structure Message where
  muxId : UInt8
  flags : UInt8
  offload : Option CsumPartial
  payload : List UInt8
  muxId_lt : muxId < 255
  payload_pos : 0 < payload.length
  payload_lt : payload.length < 2 ^ 16

/-- Both sides use the checksum headers of version 5, or none. -/
def FormatsMatch (egress ingress : BitVec 32) : Prop :=
  egress &&& egressMapCksumv4 = 0 ∧ ingress &&& ingressMapCksumv4 = 0 ∧
    ((egress &&& egressMapCksumv5 ≠ 0 ∧ ingress &&& ingressMapCksumv5 ≠ 0) ∨
      (egress &&& (egressMapCksumv5 ||| egressFormatPriority) = 0 ∧
        ingress &&& (ingressMapCksumv5 ||| ingressCoalesce) = 0))

namespace Message

variable {egress ingress : BitVec 32} {endpoint : UInt8 → Bool}

def frame (egress : BitVec 32) (m : Message) : List UInt8 :=
  egressFrame egress m.muxId m.flags m.offload m.payload

theorem frame_csum (hv4 : egress &&& egressMapCksumv4 = 0) (h : egress &&& egressMapCksumv5 ≠ 0)
    (m : Message) : m.frame egress =
      0x40 :: m.muxId :: be16 m.payload.length ++ (ulCsumHeader m.flags ++ m.payload) := by
  have hor : egress &&& (egressMapCksumv5 ||| egressFormatPriority) ≠ 0 := fun h0 =>
    h (and_or_eq_zero.1 h0).1
  have hlen : (ulCsumHeader m.flags ++ m.payload).length - v5CsumHeaderSize = m.payload.length := by
    rw [length_append]
    exact Nat.add_sub_cancel_left _ _
  simp only [frame, egressFrame, addMapHeader, if_neg (not_not.2 hv4), if_pos hor, if_pos h, hlen]
  rfl

theorem frame_plain (hv4 : egress &&& egressMapCksumv4 = 0)
    (h : egress &&& (egressMapCksumv5 ||| egressFormatPriority) = 0) (m : Message) :
    m.frame egress = 0 :: m.muxId :: be16 m.payload.length ++ m.payload := by
  have hv5 : ¬ egress &&& egressMapCksumv5 ≠ 0 := not_not.2 (and_or_eq_zero.1 h).1
  simp only [frame, egressFrame, addMapHeader, if_neg (not_not.2 hv4), if_neg (not_not.2 h),
    if_neg hv5]
  rfl

theorem pktLen_be16 {n : ℕ} (hn : n < 2 ^ 16) :
    (UInt8.ofNat (n / 256)).toNat * 256 + (UInt8.ofNat n).toNat = n := by
  rw [UInt8.toNat_ofNat', UInt8.toNat_ofNat']
  omega

theorem ofBytes_header {n : ℕ} (hn : n < 2 ^ 16) (b muxId : UInt8) (rest : List UInt8) :
    MapHeader.ofBytes (b :: muxId :: be16 n ++ rest) = ⟨b >>> 7 = 1, n⟩ := by
  rw [MapHeader.ofBytes, MapHeader.mk.injEq]
  exact ⟨rfl, pktLen_be16 hn⟩

theorem frame_spec (hmatch : FormatsMatch egress ingress) (m : Message) (rest : List UInt8) :
    announcedLen ingress (m.frame egress ++ rest) = some (m.frame egress).length ∧
      SameHeader ingress (m.frame egress ++ rest) ∧
      (endpoint m.muxId = true →
        ingressPayload ingress endpoint (m.frame egress) = some (m.muxId, m.payload)) := by
  have hpos := Nat.ne_of_gt m.payload_pos
  have hlt := m.payload_lt
  have hmod : m.payload.length % 65536 = m.payload.length := Nat.mod_eq_of_lt hlt
  have hmux : ¬ 255 ≤ m.muxId := UInt8.not_le.2 m.muxId_lt
  obtain ⟨hegress4, hv4, ⟨hegress, hv5⟩ | ⟨hegress, hingress⟩⟩ := hmatch
  · have hor : ingress &&& (ingressMapCksumv5 ||| ingressCoalesce) ≠ 0 := fun h0 =>
      hv5 (and_or_eq_zero.1 h0).1
    rw [frame_csum hegress4 hegress]
    refine ⟨?_, .inr (.inr (.inr ⟨hv5, ?_⟩)), fun hep => ?_⟩
    · rw [announcedLen_eq, ofBytes_take _ _ (Nat.le_refl _), append_assoc, ofBytes_header hlt,
        if_pos (by simp [be16, mapHeaderSize])]
      dsimp only
      rw [if_neg hpos, if_neg (not_not.2 hv4), if_pos ⟨hor, by decide⟩]
      have hget (rest : List UInt8) : (0x40 :: m.muxId :: be16 m.payload.length ++
          (ulCsumHeader m.flags ++ m.payload ++ rest))[mapHeaderSize]? =
            some (headerTypeCsumOffload <<< 1) := rfl
      rw [hget, Option.map_some, nextHdrSize_csum rfl]
      simp only [length_append, length_cons, be16, ulCsumHeader, mapHeaderSize, v5CsumHeaderSize,
        length_nil]
      congr 1
      omega
    · rintro type ⟨⟩
      rfl
    · rw [ingressPayload, ofBytes_header hlt]
      have htype : headerType (headerTypeCsumOffload <<< 1) = headerTypeCsumOffload := rfl
      simp [be16, mapHeaderSize, ulCsumHeader, v5CsumHeaderSize, hmux, hep, htype, hmod]
      exact ⟨by decide, fun h0 => absurd h0 hor⟩
  · rw [frame_plain hegress4 hegress]
    refine ⟨?_, .inr (.inl hingress), fun hep => ?_⟩
    · rw [announcedLen_eq, ofBytes_take _ _ (Nat.le_refl _), append_assoc, ofBytes_header hlt,
        if_pos (by simp [be16, mapHeaderSize])]
      dsimp only
      rw [if_neg hpos, if_neg (not_not.2 hv4), if_neg fun h => h.1 hingress]
      simp only [length_append, length_cons, be16, mapHeaderSize, length_nil]
    · rw [ingressPayload, ofBytes_header hlt]
      simp [be16, mapHeaderSize, hmux, hep, hmod]

end Message

section Frames

variable {egress ingress : BitVec 32} {endpoint : UInt8 → Bool} {overhead : Overhead}
  {s s' : AggState overhead}

/-- Packets of known endpoints, one behind the other. -/
def Whole (egress : BitVec 32) (endpoint : UInt8 → Bool) (bytes : List UInt8) : Prop :=
  ∃ msgs : List Message, (∀ m ∈ msgs, endpoint m.muxId = true) ∧
    bytes = msgs.flatMap (Message.frame egress)

theorem Whole.nil : Whole egress endpoint [] := ⟨[], by simp⟩

theorem Whole.append {x y : List UInt8} (hx : Whole egress endpoint x)
    (hy : Whole egress endpoint y) : Whole egress endpoint (x ++ y) := by
  obtain ⟨ms, hms, rfl⟩ := hx
  obtain ⟨ns, hns, rfl⟩ := hy
  exact ⟨ms ++ ns, forall_mem_append.2 ⟨hms, hns⟩, flatMap_append.symm⟩

theorem received_nil : received ingress endpoint [] = [] := by
  rw [received, ingressPackets_nothing (by simp [mapDeaggregate])]
  rfl

theorem received_frames (hmatch : FormatsMatch egress ingress) {msgs : List Message}
    (hmsgs : ∀ m ∈ msgs, endpoint m.muxId = true) (rest : List UInt8) :
    received ingress endpoint (msgs.flatMap (Message.frame egress) ++ rest) =
      msgs.map (fun m => (m.muxId, m.payload)) ++ received ingress endpoint rest := by
  induction msgs with
  | nil => rfl
  | cons m msgs ih =>
    obtain ⟨hlen, hsame, hpayload⟩ := @Message.frame_spec _ _ endpoint hmatch m
      (msgs.flatMap (Message.frame egress) ++ rest)
    have hone := mapDeaggregate_eq hsame
    rw [hlen] at hone
    dsimp only at hone
    rw [if_pos (by simp)] at hone
    rw [flatMap_cons, append_assoc, received, ingressPackets_copied hone, take_left', drop_left',
      filterMap_cons_some (hpayload (hmsgs m mem_cons_self)), map_cons, cons_append]
    · exact congrArg _ (ih fun m' hm' => hmsgs m' (mem_cons_of_mem m hm'))
    · rfl
    · rfl

theorem flatMap_received (hmatch : FormatsMatch egress ingress) {frames : List (List UInt8)}
    (h : ∀ frame ∈ frames, Whole egress endpoint frame) :
    frames.flatMap (received ingress endpoint) = received ingress endpoint frames.flatten := by
  induction frames with
  | nil => exact received_nil.symm
  | cons frame frames ih =>
    obtain ⟨msgs, hmsgs, rfl⟩ := h frame mem_cons_self
    have halone := received_frames hmatch hmsgs []
    rw [append_nil, received_nil, append_nil] at halone
    rw [flatMap_cons, flatten_cons, received_frames hmatch hmsgs, halone,
      ih fun frame hframe => h frame (mem_cons_of_mem _ hframe)]

/-- The frames sent, with nothing in place of a command, and the one that waits. -/
def AggState.frames (s : AggState overhead) : List (List UInt8) :=
  s.sent.map Frame.packetBytes ++ [s.pending]

def AggOp.packet : AggOp → Option (List UInt8)
  | .txAggregate _ skb _ _ => some skb.bytes
  | _ => none

theorem flatMap_log (ops : List AggOp) :
    ops.flatMap (·.log Frame.packetBytes) = (ops.filterMap AggOp.packet).flatten := by
  induction ops with
  | nil => rfl
  | cons op ops ih => cases op <;> rw [flatMap_cons, ih] <;> rfl

def AggState.AllWhole (egress : BitVec 32) (endpoint : UInt8 → Bool) (s : AggState overhead) :
    Prop :=
  (∀ frame ∈ s.sent, Whole egress endpoint frame.packetBytes) ∧ Whole egress endpoint s.pending

namespace AggState.AllWhole

theorem send (h : s.AllWhole egress endpoint) {frame : Frame}
    (hframe : Whole egress endpoint frame.packetBytes) :
    (s.send frame).AllWhole egress endpoint :=
  ⟨forall_mem_append.2 ⟨h.1, forall_mem_singleton.2 hframe⟩, h.2⟩

theorem ship (h : s.AllWhole egress endpoint) {aggSkb : AggSkb overhead}
    (hskb : s.aggSkb = some aggSkb) : (s.ship aggSkb).AllWhole egress endpoint := by
  have hpending := h.2
  rw [AggState.pending, hskb] at hpending
  exact ⟨forall_mem_append.2 ⟨h.1, forall_mem_singleton.2 hpending⟩, .nil⟩

theorem sendAggSkb (h : s.AllWhole egress endpoint) :
    (sendAggSkb s).AllWhole egress endpoint := by
  rw [Rmnet.sendAggSkb]
  split
  · exact h
  · next hskb => exact h.ship hskb

theorem openBuffer (h : s.AllWhole egress endpoint) {last : ℤ} {skb : TxSkb} {pass : Pass}
    (hskb : Whole egress endpoint skb.bytes) (hs : openBuffer s last skb pass = some s') :
    s'.AllWhole egress endpoint := by
  rw [Rmnet.openBuffer] at hs
  split_ifs at hs
  · cases hs
    exact h.send hskb
  · obtain ⟨aggSkb, hput, rfl⟩ := Option.map_eq_some_iff.1 hs
    refine ⟨h.1, show Whole egress endpoint aggSkb.bytes from ?_⟩
    rwa [AggSkb.put_bytes hput]
  · cases hs
    exact ⟨forall_mem_append.2 ⟨h.1, forall_mem_singleton.2 hskb⟩, .nil⟩

/-- A packet is never split between frames. -/
theorem step (h : s.AllWhole egress endpoint) {op : AggOp}
    (hop : ∀ packet ∈ op.packet, Whole egress endpoint packet) (hs : aggStep s op = some s') :
    s'.AllWhole egress endpoint := by
  cases op with
  | updateUlAggConfig =>
    cases hs
    rw [Rmnet.updateUlAggConfig]
    dsimp only
    split <;> exact h
  | flushTxPacketWork =>
    cases hs
    rw [Rmnet.flushTxPacketWork]
    split
    · split
      · exact h
      · next hskb => exact h.ship hskb
    · exact h
  | txQmapCmd =>
    cases hs
    rw [Rmnet.txQmapCmd]
    split
    · exact h.sendAggSkb.send .nil
    · exact h.send .nil
  | txAggregate fmt skb pass again =>
    have hskb : Whole egress endpoint skb.bytes := hop _ rfl
    have hlast : AggState.AllWhole egress endpoint { s with aggLast := pass.now } := h
    rw [aggStep, Rmnet.txAggregate] at hs
    dsimp only at hs
    split at hs
    · cases hs
      exact hlast.sendAggSkb.send hskb
    split at hs
    · exact hlast.openBuffer hskb hs
    next aggSkb haggSkb =>
      split at hs
      · exact openBuffer (show AggState.AllWhole egress endpoint
          { Rmnet.sendAggSkb { s with aggLast := pass.now } with aggLast := again.now } from
            hlast.sendAggSkb) hskb hs
      · obtain ⟨aggSkb', hput, rfl⟩ := Option.map_eq_some_iff.1 hs
        have hpending := h.2
        rw [AggState.pending, show s.aggSkb = some aggSkb from haggSkb] at hpending
        refine ⟨h.1, show Whole egress endpoint aggSkb'.bytes from ?_⟩
        rw [AggSkb.put_bytes hput]
        exact hpending.append hskb

end AggState.AllWhole

end Frames

def sampleMessage (byte : UInt8) : Message :=
  ⟨1, 0x80, none, [byte], by decide, Nat.one_pos, show 1 < 2 ^ 16 by decide⟩

def sampleOp (byte : UInt8) : AggOp :=
  .txAggregate 0x40 ⟨[0x40, 1, 0, 1, 4, 0x80, 0, 0, byte], 0, show 9 < 2 ^ 32 by decide⟩
    ⟨0, 0, true⟩ ⟨0, 0, true⟩

end QcomModules.Rmnet
