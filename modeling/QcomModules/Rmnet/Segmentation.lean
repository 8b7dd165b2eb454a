import QcomModules.Library.Tiles
import QcomModules.Rmnet.Coalescing

/-! The segments of a coalesced frame: they carry its payload and its packets in order, but their
IPv4 identifiers are right only where no good packets are followed by another segment. -/

namespace QcomModules.Rmnet

open Library List

/-! ## The packets of a frame -/

/-- A packet inside a coalesced frame: the number-length object it belongs to, and its payload
length. -/
structure Packet where
  nlo : ℕ
  len : ℕ
  deriving DecidableEq, Repr

def packetsFrom (hlen : ℕ) : ℕ → List NlPair → List Packet
  | _, [] => []
  | i, nlo :: nlos =>
    List.replicate nlo.numPackets.toNat ⟨i, nlo.dataLen hlen⟩ ++ packetsFrom hlen (i + 1) nlos

def CoalFrame.packets (frame : CoalFrame) : List Packet :=
  packetsFrom frame.hlen 0 frame.nlos

def offset (packets : List Packet) (k : ℕ) : ℕ :=
  ((packets.take k).map (·.len)).sum

/-- The checksum of the segment is a value that does not verify, as a number in ones' complement,
and does not say that there is none. -/
def Segment.Invalid (fitting : FittingCheck) (seg : Segment) : Prop :=
  ∃ check, seg.check = .value check ∧ check ≠ 0 ∧
    check.toNat % 65535 ≠ (fitting seg.ip seg.trans seg.data).toNat % 65535

/-- A segment that starts at a packet: its identifier, sequence number and flags. -/
def Segment.StartsAt (frame : CoalFrame) (seg : Segment) (k : ℕ) (last : Bool) : Prop :=
  (frame.ip.version = .v4 → seg.ip.id = frame.ip.id + BitVec.ofNat 16 k) ∧
    ∀ transLen seq fin psh, frame.trans = .tcp transLen seq fin psh →
      seg.trans = .tcp transLen (seq + BitVec.ofNat 32 (offset frame.packets k)) (fin && last)
        (psh && last)

/-- The segments are those of the frame's packets. -/
structure Segmented (fitting : FittingCheck) (frame : CoalFrame) (mask : BitVec 64)
    (segs : List Segment) : Prop where
  payload : segs.flatMap (·.data) = frame.payload
  starts : ∀ front seg back, segs = front ++ seg :: back → ∃ k < frame.packets.length,
    (front.flatMap (·.data)).length = offset frame.packets k ∧ seg.StartsAt frame k back.isEmpty
  errors : ∀ k p, frame.packets[k]? = some p → mask.getLsbD k = true → ∃ front seg back,
    segs = front ++ seg :: back ∧ (front.flatMap (·.data)).length = offset frame.packets k ∧
      seg.data.length = p.len ∧ (frame.zeroCsum = false → seg.Invalid fitting)

/-- A good packet is followed by a bad one, or by one of another number-length object. -/
def CoalFrame.Breaks (frame : CoalFrame) (mask : BitVec 64) : Prop :=
  ∃ k p q, frame.packets[k]? = some p ∧ frame.packets[k + 1]? = some q ∧
    mask.getLsbD k = false ∧ (mask.getLsbD (k + 1) = true ∨ q.nlo ≠ p.nlo)

/-! ## Offsets -/

theorem packets_length (hlen i : ℕ) (nlos : List NlPair) :
    (packetsFrom hlen i nlos).length = (nlos.map (·.numPackets.toNat)).sum := by
  induction nlos generalizing i with
  | nil => rfl
  | cons nlo nlos ih =>
    rw [packetsFrom, length_append, length_replicate, ih, map_cons, sum_cons]

theorem sum_packetsFrom (hlen i : ℕ) (nlos : List NlPair) :
    ((packetsFrom hlen i nlos).map (·.len)).sum =
      (nlos.map fun nlo => nlo.numPackets.toNat * nlo.dataLen hlen).sum := by
  induction nlos generalizing i with
  | nil => rfl
  | cons nlo nlos ih =>
    rw [packetsFrom, map_append, sum_append, ih, map_cons, sum_cons,
      map_replicate, sum_replicate_nat]

theorem CoalFrame.length_packets_le (frame : CoalFrame) : frame.packets.length ≤ maxPackets := by
  rw [CoalFrame.packets, packets_length]
  exact frame.packets_le

variable {p : Packet} {last : Bool}

theorem le_nlo_of_mem {hlen i : ℕ} {nlos : List NlPair} (h : p ∈ packetsFrom hlen i nlos) :
    i ≤ p.nlo := by
  induction nlos generalizing i with
  | nil => cases h
  | cons nlo nlos ih =>
    obtain h | h := mem_append.1 h
    · exact Nat.le_of_eq (congrArg Packet.nlo (mem_replicate.1 h).2).symm
    · exact Nat.le_of_succ_le (ih h)

theorem CoalFrame.packet_len_pos (frame : CoalFrame) (h : p ∈ frame.packets) : 0 < p.len := by
  have hall (nlos : List NlPair) (hnlos : ∀ nlo ∈ nlos, frame.hlen < nlo.pktLen.toNat) (i : ℕ)
      (h : p ∈ packetsFrom frame.hlen i nlos) : 0 < p.len := by
    induction nlos generalizing i with
    | nil => cases h
    | cons nlo nlos ih =>
      obtain h | h := mem_append.1 h
      · have hlt := hnlos nlo mem_cons_self
        rw [(mem_replicate.1 h).2]
        exact Nat.sub_pos_of_lt hlt
      · exact ih (fun nlo hmem => hnlos nlo (mem_cons_of_mem _ hmem)) _ h
  exact hall frame.nlos frame.pktLen_lt 0 h

theorem offset_length (packets : List Packet) :
    offset packets packets.length = (packets.map (·.len)).sum := by
  rw [offset, take_length]

theorem CoalFrame.offset_length (frame : CoalFrame) :
    offset frame.packets frame.packets.length = frame.payload.length := by
  rw [Rmnet.offset_length, CoalFrame.packets, sum_packetsFrom, frame.payload_len]
  rfl

theorem offset_succ {packets : List Packet} {k : ℕ} (h : packets[k]? = some p) :
    offset packets (k + 1) = offset packets k + p.len := by
  rw [offset, offset, take_add_one, h, Option.toList_some, map_append, sum_append,
    map_singleton, sum_singleton]

theorem offset_add {packets : List Packet} {k c len : ℕ}
    (h : ∀ i < c, ∃ nlo, packets[k + i]? = some ⟨nlo, len⟩) :
    offset packets (k + c) = offset packets k + len * c := by
  induction c with
  | zero => rfl
  | succ c ih =>
    obtain ⟨nlo, hp⟩ := h c (Nat.lt_succ_self c)
    rw [← Nat.add_assoc, offset_succ hp, ih fun i hi => h i (Nat.lt_succ_of_lt hi), Nat.mul_succ,
      Nat.add_assoc]

theorem offset_mono (packets : List Packet) {j k : ℕ} (h : j ≤ k) :
    offset packets j ≤ offset packets k := by
  obtain ⟨d, rfl⟩ := Nat.exists_eq_add_of_le h
  rw [offset, offset, take_add, map_append, sum_append]
  exact Nat.le_add_right _ _

theorem CoalFrame.offset_lt (frame : CoalFrame) {j k : ℕ} (h : j < k)
    (hk : k ≤ frame.packets.length) : offset frame.packets j < offset frame.packets k := by
  have hj : frame.packets[j]? = some frame.packets[j] := getElem?_eq_getElem (by omega)
  have hpos := frame.packet_len_pos (getElem_mem (show j < frame.packets.length by omega))
  have hsucc := offset_succ hj
  have hmono := offset_mono frame.packets (show j + 1 ≤ k from h)
  omega

theorem CoalFrame.offset_inj (frame : CoalFrame) {j k : ℕ} (hj : j ≤ frame.packets.length)
    (hk : k ≤ frame.packets.length) (h : offset frame.packets j = offset frame.packets k) :
    j = k := by
  obtain hlt | rfl | hlt := Nat.lt_trichotomy j k
  · exact absurd h (Nat.ne_of_lt (frame.offset_lt hlt hk))
  · rfl
  · exact absurd h.symm (Nat.ne_of_lt (frame.offset_lt hlt hj))

/-! ## The loops -/

section Loops

variable {Seg : Type} (emit : CoalMeta → Bool → Seg)

/-- The identifier is one too high behind good packets that were merged. -/
def bump (merges : Bool) (mask : BitVec 64) (k : ℕ) : ℕ :=
  if merges && 0 < k && !mask.getLsbD (k - 1) then 1 else 0

/-- What `__rmnet_map_segment_coal_skb` or its copy is called with for `c` packets from `k` on. -/
structure Covers (packets : List Packet) (merges : Bool) (mask : BitVec 64) (k c nlo : ℕ)
    (coalMeta : CoalMeta) (csumValid : Bool) : Prop where
  pktCount : coalMeta.pktCount = c
  dataOffset : coalMeta.dataOffset = offset packets k
  pktId : coalMeta.pktId = k + bump merges mask k
  same : ∀ i < c, packets[k + i]? = some ⟨nlo, coalMeta.dataLen⟩
  good : ∀ i < c, mask.getLsbD (k + i) = !csumValid
  alone : (merges && csumValid) = false → c = 1
  maximal : merges = true → csumValid = true → ∀ p, packets[k + c]? = some p →
    mask.getLsbD (k + c) = true ∨ p.nlo ≠ nlo

/-- A segment made for `c` packets from `k` on. -/
def CoveredBy (packets : List Packet) (merges : Bool) (mask : BitVec 64) (k c : ℕ) (seg : Seg) :
    Prop :=
  ∃ nlo coalMeta csumValid, Covers packets merges mask k c nlo coalMeta csumValid ∧
    seg = emit coalMeta csumValid

/-- Segments for the packets below `k` are made. -/
structure Made (packets : List Packet) (merges : Bool) (mask : BitVec 64) (k : ℕ)
    (s : CoalState Seg) : Prop where
  out : Tiles (CoveredBy emit packets merges mask) s.out k
  dataOffset : s.coalMeta.dataOffset = offset packets k
  pktId : s.coalMeta.pktId = k + bump merges mask k

/-- Good packets from `k` on are gathered. -/
structure Gathering (packets : List Packet) (merges : Bool) (mask : BitVec 64) (nlo k : ℕ)
    (s : CoalState Seg) : Prop where
  made : Made emit packets merges mask k s
  total : s.totalPkt = k + s.coalMeta.pktCount
  rest : s.mask = mask >>> s.totalPkt
  gathered : ∀ i < s.coalMeta.pktCount, packets[k + i]? = some ⟨nlo, s.coalMeta.dataLen⟩ ∧
    mask.getLsbD (k + i) = false
  alone : merges = false → s.coalMeta.pktCount = 0

variable {emit} {packets : List Packet} {merges : Bool} {mask : BitVec 64} {nlo k : ℕ}
  {s : CoalState Seg}

variable {i countSize : ℕ}

theorem lt_length_of_getElem? {p : Packet} (h : packets[i]? = some p) : i < packets.length :=
  (List.getElem?_eq_some_iff.1 h).1

theorem Made.segment (h : Made emit packets merges mask k s) {c pktId : ℕ} {csumValid : Bool}
    (hcovers : Covers packets merges mask k c nlo s.coalMeta csumValid) (hpos : 0 < c)
    (hid : pktId + 1 = k + c + bump merges mask (k + c)) (hlen : packets.length ≤ maxPackets)
    (hsize : offset packets packets.length < 2 ^ 16) :
    Made emit packets merges mask (k + c) (s.segment emit pktId csumValid) := by
  have hin : k + c ≤ packets.length := by
    have := lt_length_of_getElem? (hcovers.same (c - 1) (by omega))
    omega
  have hoffset : offset packets (k + c) = offset packets k + s.coalMeta.dlen := by
    rw [offset_add fun i hi => ⟨nlo, hcovers.same i hi⟩, CoalMeta.dlen, hcovers.pktCount]
  have hle := offset_mono packets hin
  have hbump : bump merges mask (k + c) ≤ 1 := by
    rw [bump]
    split <;> decide
  have hmax : maxPackets = 48 := rfl
  constructor
  case out => exact h.out.snoc hpos ⟨nlo, _, _, hcovers, rfl⟩
  case dataOffset =>
    rw [hoffset, ← h.dataOffset]
    exact Nat.mod_eq_of_lt (by rw [h.dataOffset]; omega)
  case pktId =>
    rw [← hid]
    exact Nat.mod_eq_of_lt (by omega)

theorem bump_good {k : ℕ} (hmerges : merges = true) (hk : 0 < k)
    (hgood : mask.getLsbD (k - 1) = false) : bump merges mask k = 1 := by
  rw [bump, hmerges, hgood, decide_eq_true hk]
  rfl

theorem bump_bad {k : ℕ} (hbad : mask.getLsbD (k - 1) = true) : bump merges mask k = 0 := by
  rw [bump, hbad, Bool.not_true, Bool.and_false]
  rfl

theorem bump_zero : bump merges mask 0 = 0 := by
  rw [bump, Bool.and_assoc, decide_eq_false (Nat.lt_irrefl 0), Bool.false_and, Bool.and_false]
  rfl

theorem bump_alone {k : ℕ} (hmerges : merges = false) : bump merges mask k = 0 := by
  rw [bump, hmerges]
  rfl

theorem Gathering.flush (h : Gathering emit packets merges mask nlo k s)
    (hlen : packets.length ≤ maxPackets) (hsize : offset packets packets.length < 2 ^ 16)
    (hstop : ∀ p, packets[s.totalPkt]? = some p →
      mask.getLsbD s.totalPkt = true ∨ p.nlo ≠ nlo) :
    Gathering emit packets merges mask nlo s.totalPkt (s.flush emit) ∧
      (s.flush emit).coalMeta.pktCount = 0 ∧ (s.flush emit).totalPkt = s.totalPkt ∧
      (s.flush emit).coalMeta.dataLen = s.coalMeta.dataLen ∧ (s.flush emit).mask = s.mask := by
  rw [CoalState.flush]
  split
  · rename_i hsome
    have hmerges : merges = true := by
      cases hm : merges with
      | true => rfl
      | false => exact absurd (h.alone hm) hsome
    have hcovers : Covers packets merges mask k s.coalMeta.pktCount nlo s.coalMeta true :=
      { h.made with
        pktCount := rfl
        same := fun i hi => (h.gathered i hi).1
        good := fun i hi => (h.gathered i hi).2
        alone := fun hnot => by rw [hmerges] at hnot; cases hnot
        maximal := fun _ _ p hp => by rw [← h.total] at hp ⊢; exact hstop p hp }
    have hlast := (h.gathered (s.coalMeta.pktCount - 1) (by omega)).2
    have hid : s.totalPkt + 1 =
        k + s.coalMeta.pktCount + bump merges mask (k + s.coalMeta.pktCount) := by
      rw [h.total, bump_good hmerges (by omega)]
      rw [← hlast]
      congr 1
      omega
    refine ⟨?_, rfl, rfl, rfl, rfl⟩
    rw [h.total]
    constructor
    case made =>
      rw [← h.total]
      have hmade := h.made.segment hcovers (Nat.pos_of_ne_zero hsome) hid hlen hsize
      rwa [← h.total] at hmade
    case total => exact h.total
    case rest => exact h.rest
    case gathered => exact fun i hi => absurd hi (Nat.not_lt_zero i)
    case alone => exact fun _ => rfl
  · rename_i hnone
    have hzero : s.coalMeta.pktCount = 0 := Decidable.not_not.1 hnone
    have htotal : s.totalPkt = k := by rw [h.total, hzero, Nat.add_zero]
    rw [htotal]
    exact ⟨h, hzero, rfl, rfl, rfl⟩

theorem Made.setCount (h : Made emit packets merges mask k s) (c : ℕ) :
    Made emit packets merges mask k (s.setCount c) :=
  ⟨h.out, h.dataOffset, h.pktId⟩

theorem Gathering.csumErr (h : Gathering emit packets merges mask nlo k s) :
    s.mask.getLsbD 0 = mask.getLsbD s.totalPkt := by
  rw [h.rest, BitVec.getLsbD_ushiftRight, Nat.add_zero]

theorem Made.packet (h : Made emit packets merges mask k s)
    (hp : packets[k]? = some ⟨nlo, s.coalMeta.dataLen⟩) {csumValid : Bool}
    (hgood : mask.getLsbD k = !csumValid) (halone : (merges && csumValid) = false)
    (hlen : packets.length ≤ maxPackets) (hsize : offset packets packets.length < 2 ^ 16) :
    Made emit packets merges mask (k + 1) ((s.setCount 1).segment emit k csumValid) := by
  have hcovers : Covers packets merges mask k 1 nlo (s.setCount 1).coalMeta csumValid :=
    { h with
      pktCount := rfl
      same := fun i hi => by rwa [Nat.lt_one_iff.1 hi, Nat.add_zero]
      good := fun i hi => by rwa [Nat.lt_one_iff.1 hi, Nat.add_zero]
      alone := fun _ => rfl
      maximal := fun hm hv => by rw [hm, hv] at halone; cases halone }
  refine (h.setCount 1).segment hcovers Nat.one_pos ?_ hlen hsize
  have hbump : bump merges mask (k + 1) = 0 := by
    cases hm : merges with
    | false => exact bump_alone rfl
    | true =>
      rw [hm, Bool.true_and] at halone
      rw [halone] at hgood
      exact bump_bad hgood
  rw [hbump]

theorem Gathering.packet (h : Gathering emit packets merges mask nlo k s)
    (hp : packets[s.totalPkt]? = some ⟨nlo, s.coalMeta.dataLen⟩)
    (hlen : packets.length ≤ maxPackets) (hsize : offset packets packets.length < 2 ^ 16)
    (hcount : maxPackets < countSize) :
    ∃ k', Gathering emit packets merges mask nlo k' (s.packet emit countSize merges) ∧
      (s.packet emit countSize merges).totalPkt = s.totalPkt + 1 ∧
      (s.packet emit countSize merges).coalMeta.dataLen = s.coalMeta.dataLen := by
  have hmax : maxPackets = 48 := rfl
  have hlt := lt_length_of_getElem? hp
  have htotal : (s.totalPkt + 1) % 2 ^ 8 = s.totalPkt + 1 := Nat.mod_eq_of_lt (by omega)
  have hrest : s.mask >>> 1 = mask >>> (s.totalPkt + 1) := by
    rw [h.rest, BitVec.shiftRight_add]
  rw [CoalState.packet, h.csumErr]
  dsimp only
  split
  · -- Every packet becomes a segment.
    rename_i hsingle
    have hmerges : merges = false := by simpa using hsingle
    have hk : s.totalPkt = k := by rw [h.total, h.alone hmerges, Nat.add_zero]
    rw [hk] at hp hrest htotal
    have hmade := h.made.packet hp (show mask.getLsbD k = !!mask.getLsbD k by rw [Bool.not_not])
      (by rw [hmerges, Bool.false_and]) hlen hsize
    rw [hk]
    refine ⟨k + 1, ⟨⟨hmade.out, hmade.dataOffset, hmade.pktId⟩, ?_, ?_, ?_, fun _ => rfl⟩, ?_, rfl⟩
    · exact (congrArg (fun t => (t + 1) % 2 ^ 8) hk).trans htotal
    · exact hrest.trans (congrArg _ (congrArg (fun t => (t + 1) % 2 ^ 8) hk |>.trans htotal).symm)
    · exact fun i hi => absurd hi (Nat.not_lt_zero i)
    · exact (congrArg (fun t => (t + 1) % 2 ^ 8) hk).trans htotal
  split
  · -- The good packets become a segment, and so does the bad one.
    rename_i hmerges herr
    obtain ⟨hflush, hzero, htot, hdata, hmask⟩ := h.flush hlen hsize fun _ _ => .inl herr
    rw [← hdata] at hp
    have hmade := hflush.made.packet hp (show _ = !false from herr) (Bool.and_false _) hlen hsize
    have htotal' : ((s.flush emit).totalPkt + 1) % 2 ^ 8 = s.totalPkt + 1 := by rw [htot, htotal]
    have hshift : (s.flush emit).mask >>> 1 = mask >>> (((s.flush emit).totalPkt + 1) % 2 ^ 8) := by
      rw [hmask, hrest, htotal']
    refine ⟨s.totalPkt + 1, ⟨⟨hmade.out, hmade.dataOffset, hmade.pktId⟩, htotal', ?_, ?_,
      fun _ => rfl⟩, htotal', hdata⟩
    · exact hshift
    · exact fun i hi => absurd hi (Nat.not_lt_zero i)
  · -- The packet is gathered.
    rename_i hmerges hgood
    have hgood : mask.getLsbD s.totalPkt = false := Bool.eq_false_iff.2 hgood
    have htot := h.total
    have hcountEq : (s.coalMeta.pktCount + 1) % countSize = s.coalMeta.pktCount + 1 :=
      Nat.mod_eq_of_lt (by omega)
    rw [hcountEq]
    refine ⟨k, ⟨⟨h.made.out, h.made.dataOffset, h.made.pktId⟩, ?_, ?_, ?_, ?_⟩, htotal, rfl⟩
    · exact htotal.trans (by rw [htot]; rfl)
    · exact hrest.trans (congrArg _ htotal.symm)
    · intro i hi
      obtain hlt | rfl : i < s.coalMeta.pktCount ∨ i = s.coalMeta.pktCount :=
        Nat.lt_succ_iff_lt_or_eq.1 hi
      · exact h.gathered i hlt
      · rw [← h.total]
        exact ⟨hp, hgood⟩
    · intro hm
      exact absurd hm (by simpa using hmerges)

theorem Gathering.packetLoop (h : Gathering emit packets merges mask nlo k s)
    (hlen : packets.length ≤ maxPackets) (hsize : offset packets packets.length < 2 ^ 16)
    (hcount : maxPackets < countSize) {n : ℕ}
    (hp : ∀ i < n, packets[s.totalPkt + i]? = some ⟨nlo, s.coalMeta.dataLen⟩) :
    ∃ k', Gathering emit packets merges mask nlo k' (s.packets emit countSize merges n) ∧
      (s.packets emit countSize merges n).totalPkt = s.totalPkt + n := by
  induction n generalizing k s with
  | zero => exact ⟨k, h, rfl⟩
  | succ n ih =>
    obtain ⟨k', hnext, htotal, hdata⟩ :=
      h.packet (hp 0 (Nat.zero_lt_succ n)) hlen hsize hcount
    obtain ⟨k'', hrest, htotal'⟩ := ih hnext fun i hi => by
      rw [htotal, hdata, Nat.add_assoc, Nat.add_comm 1]
      exact hp (i + 1) (Nat.succ_lt_succ hi)
    refine ⟨k'', hrest, ?_⟩
    rw [CoalState.packets, htotal', htotal]
    omega

theorem Gathering.nlos {hlen : ℕ} {nlos : List NlPair} {done : List Packet}
    (h : Gathering emit packets merges mask nlo k s) (hzero : s.coalMeta.pktCount = 0)
    (hdone : packets = done ++ packetsFrom hlen i nlos) (htotal : s.totalPkt = done.length)
    (hlen' : packets.length ≤ maxPackets) (hsize : offset packets packets.length < 2 ^ 16)
    (hcount : maxPackets < countSize) :
    Tiles (CoveredBy emit packets merges mask)
      (CoalState.nlos emit countSize merges hlen nlos s).out packets.length := by
  induction nlos generalizing i nlo k s done with
  | nil =>
    have hk : k = packets.length := by
      rw [hdone, packetsFrom, append_nil, ← htotal, h.total, hzero, Nat.add_zero]
    rw [CoalState.nlos, ← hk]
    exact h.made.out
  | cons pair nlos ih =>
    rw [CoalState.nlos]
    dsimp only
    have hdata : Gathering emit packets merges mask i k
        { s with coalMeta := { s.coalMeta with dataLen := pair.dataLen hlen } } :=
      ⟨⟨h.made.out, h.made.dataOffset, h.made.pktId⟩, h.total, h.rest,
        fun j hj => absurd (hzero ▸ hj) (Nat.not_lt_zero j), h.alone⟩
    have hsplit : packets =
        (done ++ replicate pair.numPackets.toNat ⟨i, pair.dataLen hlen⟩) ++
          packetsFrom hlen (i + 1) nlos := by
      rw [hdone, packetsFrom, append_assoc]
    have hlength : (done ++ replicate pair.numPackets.toNat
        (⟨i, pair.dataLen hlen⟩ : Packet)).length = s.totalPkt + pair.numPackets.toNat := by
      rw [length_append, length_replicate, htotal]
    obtain ⟨k', hloop, htotal'⟩ := hdata.packetLoop hlen' hsize hcount fun j hj => by
      change packets[s.totalPkt + j]? = some ⟨i, pair.dataLen hlen⟩
      rw [hsplit, getElem?_append_left (by rw [hlength]; exact Nat.add_lt_add_left hj _),
        getElem?_append_right (by rw [← htotal]; exact Nat.le_add_right _ _), ← htotal,
        Nat.add_sub_cancel_left, getElem?_replicate_of_lt hj]
    obtain ⟨hflush, hzero', htotal'', -⟩ := hloop.flush hlen' hsize fun p hp => by
      rw [htotal', hsplit] at hp
      change (_ ++ _)[s.totalPkt + _]? = _ at hp
      rw [getElem?_append_right (Nat.le_of_eq hlength), ← hlength, Nat.sub_self] at hp
      have hle := le_nlo_of_mem (mem_of_getElem? hp)
      exact .inr (by omega)
    exact ih hflush hzero' hsplit (by rw [htotal'', htotal', hlength])

theorem tiles_nlos (frame : CoalFrame) (merges : Bool) (mask : BitVec 64)
    (hcount : maxPackets < countSize) :
    Tiles (CoveredBy emit frame.packets merges mask)
      (CoalState.nlos emit countSize merges frame.hlen frame.nlos { mask }).out
      frame.packets.length := by
  have hinit : Gathering emit frame.packets merges mask 0 0 { mask } :=
    ⟨⟨.nil, rfl, by rw [bump_zero]⟩, rfl, rfl, fun i hi => absurd hi (Nat.not_lt_zero i),
      fun _ => rfl⟩
  have hlen := frame.len_lt
  exact hinit.nlos rfl (nil_append _).symm rfl frame.length_packets_le
    (by rw [frame.offset_length]; omega) hcount

end Loops

/-! ## Single segments -/

theorem csum16Add_htonsOne (csum : BitVec 16) : csum16Add csum htonsOne ≠ 0 ∧
    (csum16Add csum htonsOne).toNat % 65535 ≠ csum.toNat % 65535 := by
  have hlt := csum.isLt
  have hone : htonsOne.toNat = 256 := rfl
  have hcarry : csum + htonsOne < htonsOne ↔ 65536 ≤ csum.toNat + 256 := by
    rw [BitVec.lt_def, BitVec.toNat_add, hone]
    omega
  have hsum : (csum16Add csum htonsOne).toNat =
      if 65536 ≤ csum.toNat + 256 then csum.toNat + 257 - 65536 else csum.toNat + 256 := by
    rw [csum16Add, BitVec.toNat_add, BitVec.toNat_add, hone]
    split
    · rename_i hover
      have hle := hcarry.1 hover
      rw [if_pos hle]
      change ((csum.toNat + 256) % 2 ^ 16 + 1) % 2 ^ 16 = _
      omega
    · rename_i hin
      have hlt' : ¬ 65536 ≤ csum.toNat + 256 := fun hle => hin (hcarry.2 hle)
      rw [if_neg hlt']
      change ((csum.toNat + 256) % 2 ^ 16 + 0) % 2 ^ 16 = _
      omega
  constructor
  · intro hzero
    rw [hzero, show (0 : BitVec 16).toNat = 0 from rfl] at hsum
    split at hsum <;> omega
  · rw [hsum]
    split <;> omega

variable {fitting : FittingCheck} {frame : CoalFrame} {merges : Bool} {mask : BitVec 64}
  {k c nlo : ℕ} {coalMeta : CoalMeta} {csumValid : Bool}

theorem Covers.offset_add (h : Covers frame.packets merges mask k c nlo coalMeta csumValid) :
    offset frame.packets (k + c) = coalMeta.dataOffset + coalMeta.dlen := by
  rw [Rmnet.offset_add fun i hi => ⟨nlo, h.same i hi⟩, CoalMeta.dlen, h.pktCount, h.dataOffset]

theorem offset_le (frame : CoalFrame) {k : ℕ} (h : k ≤ frame.packets.length) :
    offset frame.packets k ≤ frame.payload.length := by
  rw [← frame.offset_length]
  exact offset_mono _ h

theorem length_take_offset (frame : CoalFrame) {k : ℕ} (h : k ≤ frame.packets.length) :
    (frame.payload.take (offset frame.packets k)).length = offset frame.packets k := by
  rw [length_take, Nat.min_eq_left (offset_le frame h)]

theorem Covers.le_length (h : Covers frame.packets merges mask k c nlo coalMeta csumValid)
    (hpos : 0 < c) : k + c ≤ frame.packets.length := by
  have := lt_length_of_getElem? (h.same (c - 1) (by omega))
  omega

theorem Covers.take_payload (h : Covers frame.packets merges mask k c nlo coalMeta csumValid) :
    frame.payload.take (offset frame.packets (k + c)) =
      frame.payload.take (offset frame.packets k) ++
        slice coalMeta.dataOffset coalMeta.dlen frame.payload := by
  rw [h.offset_add, take_add, h.dataOffset, slice]

theorem Covers.length_data (h : Covers frame.packets merges mask k c nlo coalMeta csumValid)
    (hpos : 0 < c) :
    (slice coalMeta.dataOffset coalMeta.dlen frame.payload).length = coalMeta.dlen := by
  have hle := offset_le frame (h.le_length hpos)
  rw [h.offset_add] at hle
  rw [length_slice, Nat.min_eq_left (by omega)]

theorem Covers.endsEarly_eq (h : Covers frame.packets merges mask k c nlo coalMeta csumValid)
    (hpos : 0 < c) (hlast : last = true ↔ k + c = frame.packets.length) :
    coalMeta.endsEarly frame = !last := by
  have hle := h.le_length hpos
  rw [CoalMeta.endsEarly, CoalFrame.len, Nat.add_assoc, ← h.offset_add]
  cases last with
  | true =>
    rw [hlast.1 rfl, frame.offset_length]
    exact decide_eq_false (Nat.lt_irrefl _)
  | false =>
    have hne : k + c ≠ frame.packets.length := fun heq => Bool.noConfusion (hlast.2 heq)
    have hlt := frame.offset_lt (show k + c < frame.packets.length by omega) (Nat.le_refl _)
    rw [frame.offset_length] at hlt
    exact decide_eq_true (Nat.add_lt_add_left hlt _)

theorem bump_le_one (merges : Bool) (mask : BitVec 64) (k : ℕ) : bump merges mask k ≤ 1 := by
  rw [bump]
  split <;> decide

/-- A segment is right at its start, but for the identifier behind merged packets. -/
theorem Covers.startsAt_iff (h : Covers frame.packets merges mask k c nlo coalMeta csumValid)
    (hpos : 0 < c) (hlast : last = true ↔ k + c = frame.packets.length) :
    (mapSegment fitting frame coalMeta csumValid).StartsAt frame k last ↔
      (frame.ip.version = .v4 → bump merges mask k = 0) := by
  have hle := h.le_length hpos
  have hlen := frame.length_packets_le
  have hmax : maxPackets = 48 := rfl
  have hbump := bump_le_one merges mask k
  have hid (hv : frame.ip.version = .v4) :
      (mapSegment fitting frame coalMeta csumValid).ip.id = frame.ip.id + BitVec.ofNat 16 k ↔
        bump merges mask k = 0 := by
    have hmap : (mapSegment fitting frame coalMeta csumValid).ip.id =
        frame.ip.id + BitVec.ofNat 16 (k + bump merges mask k) := by
      rw [← h.pktId]
      simp [mapSegment, IpHeader.ofLen, hv]
    rw [hmap, BitVec.add_right_inj, ← BitVec.toNat_inj, BitVec.toNat_ofNat, BitVec.toNat_ofNat]
    omega
  constructor
  · exact fun hstart hv => (hid hv).1 (hstart.1 hv)
  · refine fun hzero => ⟨fun hv => (hid hv).2 (hzero hv), fun transLen seq fin psh htcp => ?_⟩
    simp only [mapSegment, htcp, h.endsEarly_eq hpos hlast, h.dataOffset]
    cases fin <;> cases psh <;> cases last <;> rfl

theorem invalid_mapSegment (hzero : frame.zeroCsum = false) :
    (mapSegment fitting frame coalMeta false).Invalid fitting := by
  refine ⟨_, ?_, csum16Add_htonsOne _⟩
  rw [mapSegment, hzero]
  rfl

theorem allocSkb_fragSegment
    (hlen : (slice coalMeta.dataOffset coalMeta.dlen frame.payload).length = coalMeta.dlen) :
    allocSkb fitting (fragSegment frame coalMeta csumValid) =
      mapSegment fitting frame coalMeta csumValid := by
  cases hv : frame.ip.version with
  | v4 =>
    cases ht : frame.trans with
    | tcp transLen seq fin psh =>
      simp [allocSkb, fragSegment, mapSegment, IpHeader.ofLen, CoalFrame.hlen, hv, ht, hlen]
    | udp length =>
      simp [allocSkb, fragSegment, mapSegment, IpHeader.ofLen, CoalFrame.hlen, hv, ht, hlen]
  | v6 =>
    cases ht : frame.trans with
    | tcp transLen seq fin psh =>
      simp [allocSkb, fragSegment, mapSegment, IpHeader.ofLen, CoalFrame.hlen, hv, ht, hlen]
    | udp length =>
      simp [allocSkb, fragSegment, mapSegment, IpHeader.ofLen, CoalFrame.hlen, hv, ht, hlen]

/-! ## Whole frames -/

section Frames

variable {segs : List Segment}

theorem flatMap_data (h : Tiles (CoveredBy (mapSegment fitting frame) frame.packets merges mask)
    segs k) : segs.flatMap (·.data) = frame.payload.take (offset frame.packets k) := by
  refine h.flatMap_eq (g := fun k => frame.payload.take (offset frame.packets k)) rfl ?_
  intro k c seg hcovered
  obtain ⟨nlo, coalMeta, csumValid, hcovers, rfl⟩ := hcovered
  exact hcovers.take_payload

theorem tiles_le
    (h : Tiles (CoveredBy (mapSegment fitting frame) frame.packets merges mask) segs k) :
    k ≤ frame.packets.length := by
  cases h with
  | nil => exact Nat.zero_le _
  | snoc _ hpos hcovered =>
    obtain ⟨nlo, coalMeta, csumValid, hcovers, -⟩ := hcovered
    exact hcovers.le_length hpos

theorem tiles_unique {j : ℕ}
    (hj : Tiles (CoveredBy (mapSegment fitting frame) frame.packets merges mask) segs j)
    (hk : Tiles (CoveredBy (mapSegment fitting frame) frame.packets merges mask) segs k) :
    j = k := by
  refine frame.offset_inj (tiles_le hj) (tiles_le hk) ?_
  rw [← length_take_offset frame (tiles_le hj), ← flatMap_data hj, flatMap_data hk,
    length_take_offset frame (tiles_le hk)]

theorem tile_start {front back : List Segment} {seg : Segment}
    (h : Tiles (CoveredBy (mapSegment fitting frame) frame.packets merges mask)
      (front ++ seg :: back) frame.packets.length) :
    ∃ k c nlo coalMeta csumValid,
      Tiles (CoveredBy (mapSegment fitting frame) frame.packets merges mask) front k ∧ 0 < c ∧
        k + c ≤ frame.packets.length ∧
        Covers frame.packets merges mask k c nlo coalMeta csumValid ∧
        seg = mapSegment fitting frame coalMeta csumValid ∧
        (back.isEmpty = true ↔ k + c = frame.packets.length) ∧
        (front.flatMap (·.data)).length = offset frame.packets k := by
  obtain ⟨k, c, hfront, hpos, hcovered, hle, hlast⟩ := h.at_tile rfl
  obtain ⟨nlo, coalMeta, csumValid, hcovers, hseg⟩ := hcovered
  refine ⟨k, c, nlo, coalMeta, csumValid, hfront, hpos, hle, hcovers, hseg,
    List.isEmpty_iff.trans hlast, ?_⟩
  rw [flatMap_data hfront, length_take_offset frame (by omega)]

theorem error_segment
    (h : Tiles (CoveredBy (mapSegment fitting frame) frame.packets merges mask) segs
      frame.packets.length) {p : Packet} (hp : frame.packets[k]? = some p)
    (herr : mask.getLsbD k = true) :
    ∃ front seg back, segs = front ++ seg :: back ∧
      (front.flatMap (·.data)).length = offset frame.packets k ∧ seg.data.length = p.len ∧
      (frame.zeroCsum = false → seg.Invalid fitting) := by
  have hk := lt_length_of_getElem? hp
  obtain ⟨front, seg, back, j, c, rfl, hfront, hcovered, hjk, hkc, hle⟩ := h.exists_at hk
  obtain ⟨nlo, coalMeta, csumValid, hcovers, rfl⟩ := hcovered
  have hgood := hcovers.good (k - j) (by omega)
  rw [Nat.add_sub_cancel' hjk, herr] at hgood
  have hvalid : csumValid = false := by simpa using hgood.symm
  have hc : c = 1 := hcovers.alone (by rw [hvalid, Bool.and_false])
  obtain rfl : j = k := by omega
  have hsame := hcovers.same 0 (by omega)
  rw [Nat.add_zero, hp] at hsame
  have hlen : p.len = coalMeta.dataLen := by
    rw [Option.some.inj hsame]
  refine ⟨front, _, back, rfl, ?_, ?_, fun hzero => hvalid ▸ invalid_mapSegment hzero⟩
  · rw [flatMap_data hfront, length_take_offset frame (Nat.le_of_lt hk)]
  · rw [hlen]
    refine (hcovers.length_data (by omega)).trans ?_
    rw [CoalMeta.dlen, hcovers.pktCount, hc, Nat.mul_one]

theorem segmented_iff_bump
    (h : Tiles (CoveredBy (mapSegment fitting frame) frame.packets merges mask) segs
      frame.packets.length) :
    Segmented fitting frame mask segs ↔ (frame.ip.version = .v4 →
      ∀ front seg back k, segs = front ++ seg :: back →
        Tiles (CoveredBy (mapSegment fitting frame) frame.packets merges mask) front k →
        bump merges mask k = 0) := by
  constructor
  · intro hseg hv front seg back k heq hfront
    subst heq
    obtain ⟨j, c, nlo, coalMeta, csumValid, hfront', hpos, hle, hcovers, rfl, hlast, hlen⟩ :=
      tile_start h
    obtain ⟨i, hi, hlen', hstart⟩ := hseg.starts front _ back rfl
    obtain rfl : j = i := frame.offset_inj (by omega) (by omega) (hlen.symm.trans hlen')
    obtain rfl := tiles_unique hfront hfront'
    exact (hcovers.startsAt_iff hpos hlast).1 hstart hv
  · intro hbump
    constructor
    case payload =>
      rw [flatMap_data h, frame.offset_length, take_length]
    case starts =>
      intro front seg back heq
      subst heq
      obtain ⟨k, c, nlo, coalMeta, csumValid, hfront, hpos, hle, hcovers, rfl, hlast, hlen⟩ :=
        tile_start h
      refine ⟨k, by omega, hlen, (hcovers.startsAt_iff hpos hlast).2 fun hv => ?_⟩
      exact hbump hv front _ back k rfl hfront
    case errors => exact fun k p hp herr => error_segment h hp herr

/-- An identifier is one too high exactly behind good packets that are followed by a segment. -/
theorem bump_iff_breaks
    (h : Tiles (CoveredBy (mapSegment fitting frame) frame.packets merges mask) segs
      frame.packets.length) :
    (∀ front seg back k, segs = front ++ seg :: back →
        Tiles (CoveredBy (mapSegment fitting frame) frame.packets merges mask) front k →
        bump merges mask k = 0) ↔ ¬ (merges = true ∧ frame.Breaks mask) := by
  constructor
  · intro hbump hbreaks
    obtain ⟨hmerges, k, p, q, hp, hq, hgood, hbreak⟩ := hbreaks
    obtain ⟨front, seg, back, j, c, rfl, hfront, hcovered, hjk, hkc, hle⟩ :=
      h.exists_at (lt_length_of_getElem? hq)
    obtain ⟨nlo, coalMeta, csumValid, hcovers, rfl⟩ := hcovered
    obtain rfl | hlt := Nat.eq_or_lt_of_le hjk
    · have hzero := hbump front _ back _ rfl hfront
      rw [bump_good hmerges (Nat.succ_pos k) hgood] at hzero
      cases hzero
    · -- Both packets would be in one segment.
      have hgood₁ := hcovers.good (k - j) (by omega)
      have hgood₂ := hcovers.good (k + 1 - j) (by omega)
      have hsame₁ := hcovers.same (k - j) (by omega)
      have hsame₂ := hcovers.same (k + 1 - j) (by omega)
      rw [Nat.add_sub_cancel' (by omega)] at hgood₁ hgood₂ hsame₁ hsame₂
      rw [hp] at hsame₁
      rw [hq] at hsame₂
      cases hsame₁
      cases hsame₂
      obtain hbad | hne := hbreak
      · rw [← hgood₁, hgood, hbad] at hgood₂
        cases hgood₂
      · exact hne rfl
  · intro hnot front seg back k heq hfront
    subst heq
    obtain ⟨k', c', -, -, -, hfront', hpos', hle', -⟩ := tile_start h
    obtain rfl := tiles_unique hfront hfront'
    obtain rfl | hpos := Nat.eq_zero_or_pos k
    · exact bump_zero
    cases hmerges : merges with
    | false => exact bump_alone rfl
    | true =>
      cases hgood : mask.getLsbD (k - 1) with
      | true => exact bump_bad hgood
      | false =>
        -- The good packets before the segment ended where they could not go on.
        obtain ⟨_, _, _, j, c, -, -, hcovered, hjk, hkc, hle⟩ :=
          hfront.exists_at (Nat.sub_lt hpos Nat.one_pos)
        obtain ⟨nlo, coalMeta, csumValid, hcovers, -⟩ := hcovered
        have hlast := hcovers.good (k - 1 - j) (by omega)
        have hsame := hcovers.same (k - 1 - j) (by omega)
        rw [Nat.add_sub_cancel' hjk] at hlast hsame
        rw [hgood] at hlast
        have hvalid : csumValid = true := by simpa using hlast.symm
        obtain rfl : j + c = k := by omega
        have hnext : frame.packets[j + c]? = some frame.packets[j + c] :=
          getElem?_eq_getElem (by omega)
        have hbreak := hcovers.maximal hmerges hvalid _ hnext
        refine absurd ⟨hmerges, j + c - 1, _, frame.packets[j + c], hsame, ?_, hgood, ?_⟩ hnot
        · rw [Nat.sub_add_cancel hpos]
          exact hnext
        · rw [Nat.sub_add_cancel hpos]
          exact hbreak

end Frames

theorem map_fragSegment {descs : List SegmentDesc} {n : ℕ}
    (h : Tiles (CoveredBy (fragSegment frame) frame.packets merges mask) descs n) :
    Tiles (CoveredBy (mapSegment fitting frame) frame.packets merges mask)
      (descs.map (allocSkb fitting)) n := by
  induction h with
  | nil => exact .nil
  | snoc _ hpos hcovered ih =>
    obtain ⟨nlo, coalMeta, csumValid, hcovers, rfl⟩ := hcovered
    rw [map_append]
    refine ih.snoc hpos ⟨nlo, coalMeta, csumValid, hcovers, ?_⟩
    exact allocSkb_fragSegment (hcovers.length_data hpos)

theorem segmented_iff {segs : List Segment}
    (h : Tiles (CoveredBy (mapSegment fitting frame) frame.packets merges mask) segs
      frame.packets.length) :
    Segmented fitting frame mask segs ↔
      ¬ (merges = true ∧ frame.ip.version = .v4 ∧ frame.Breaks mask) := by
  rw [segmented_iff_bump h, bump_iff_breaks h]
  exact ⟨fun hiff hall => hiff hall.2.1 ⟨hall.1, hall.2.2⟩, fun hnot hv hbreaks =>
    hnot ⟨hbreaks.1, hv, hbreaks.2⟩⟩

theorem segmentCoal_eq {Seg : Type} {emit : CoalMeta → Bool → Seg} {countSize : ℕ} {gro : Bool}
    {segs : List Seg} (h : segmentCoal emit countSize frame gro mask = .segments segs)
    (hcount : maxPackets < countSize) :
    Tiles (CoveredBy emit frame.packets (frame.merges gro) mask) segs frame.packets.length := by
  rw [segmentCoal] at h
  split at h
  · cases h
  split at h
  · cases h
  · cases h
    exact tiles_nlos frame _ mask hcount

/-- On the segmenting path, both copies of the code make the segments of the frame, unless packets
may be merged, the frame is IPv4, and good packets end before its last packet. -/
theorem coalesced_segments (fitting : FittingCheck) (frame : CoalFrame) (gro : Bool)
    (mask : BitVec 64) :
    (∀ segs, mapSegmentCoalSkb fitting frame gro mask = .segments segs →
      (Segmented fitting frame mask segs ↔
        ¬ (frame.merges gro = true ∧ frame.ip.version = .v4 ∧ frame.Breaks mask))) ∧
    ∀ descs, fragSegmentCoalData frame gro mask = .segments descs →
      (Segmented fitting frame mask (descs.map (allocSkb fitting)) ↔
        ¬ (frame.merges gro = true ∧ frame.ip.version = .v4 ∧ frame.Breaks mask)) :=
  ⟨fun _ h => segmented_iff (segmentCoal_eq h (by decide)),
    fun _ h => segmented_iff (map_fragSegment (segmentCoal_eq h (by decide)))⟩

def twoPackets : CoalFrame where
  ip := ⟨.v4, 20, 7, 42⟩
  trans := .tcp 20 1000 false true
  check := 0
  payload := [1, 2]
  nlos := [⟨41, 2⟩]
  csumValid := false
  closeType := 0
  closeValue := 0
  nlos_pos := by decide
  nlos_le := by decide
  packets_le := by decide
  pktLen_lt := by decide
  payload_len := by decide
  len_lt := by decide

theorem coalesced_segments_unmerged :
    ∃ segs, mapSegmentCoalSkb (fun _ _ _ => 0) twoPackets false 2 = .segments segs ∧
      Segmented (fun _ _ _ => 0) twoPackets 2 segs ∧
      ∃ descs, fragSegmentCoalData twoPackets false 2 = .segments descs ∧
        Segmented (fun _ _ _ => 0) twoPackets 2 (descs.map (allocSkb fun _ _ _ => 0)) :=
  have hmerges : ¬ twoPackets.merges false = true := by decide
  ⟨_, rfl, ((coalesced_segments _ twoPackets false 2).1 _ rfl).2 fun h => hmerges h.1,
    _, rfl, ((coalesced_segments _ twoPackets false 2).2 _ rfl).2 fun h => hmerges h.1⟩

/-- Where the second packet is bad, its identifier is that of a third one. -/
theorem not_coalesced_segments : ¬ ∀ (fitting : FittingCheck) (frame : CoalFrame) (gro : Bool)
    (mask : BitVec 64) (segs : List Segment),
    mapSegmentCoalSkb fitting frame gro mask = .segments segs →
      Segmented fitting frame mask segs := by
  intro h
  have hseg := h (fun _ _ _ => 0) twoPackets true 2 _ rfl
  have hiff := segmented_iff (segmentCoal_eq
    (show mapSegmentCoalSkb (fun _ _ _ => 0) twoPackets true 2 = .segments _ from rfl) (by decide))
  exact hiff.1 hseg ⟨rfl, rfl, 0, ⟨0, 1⟩, ⟨0, 1⟩, rfl, rfl, rfl, .inl rfl⟩

end QcomModules.Rmnet
