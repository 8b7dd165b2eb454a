import QcomModules.Rmnet.Deaggregate

/-! Deaggregation of received frames that are linear, against that of page fragments. -/

namespace QcomModules.Rmnet

open Library List

def headerType (type : UInt8) : UInt8 := (type &&& 0xFE) >>> 1

def headerTypeCoalescing : UInt8 := 1

def headerTypeCsumOffload : UInt8 := 2

/-- What a call gives: nothing, a copy of so many bytes, which are pulled, or the frame itself. -/
inductive Deaggregated where
  | nothing
  | copied (packetLen : ℕ)
  | whole
  deriving DecidableEq, Repr

def hasCsumHeader (fmt : BitVec 32) (data : List UInt8) : Prop :=
  fmt &&& ingressMapCksumv4 = 0 ∧ fmt &&& ingressMapCksumv5 ≠ 0 ∧
    (MapHeader.ofBytes data).cdBit = false

instance (fmt : BitVec 32) (data : List UInt8) : Decidable (hasCsumHeader fmt data) :=
  inferInstanceAs (Decidable (_ ∧ _ ∧ _))

/-- `rmnet_map_deaggregate` of a linear skb, where allocations succeed. The header of fewer than
four bytes is read to their end only, and no packet is as short. -/
def mapDeaggregate (fmt : BitVec 32) (data : List UInt8) : Deaggregated :=
  let maph := MapHeader.ofBytes data
  let packetLen := maph.pktLen + mapHeaderSize +
    if fmt &&& ingressMapCksumv4 ≠ 0 then dlCsumTrailerSize
    else if hasCsumHeader fmt data then v5CsumHeaderSize
    else 0
  if data.length = 0 then .nothing
  else if data.length < packetLen then .nothing
  else if maph.pktLen = 0 then .nothing
  else if hasCsumHeader fmt data ∧
      headerType (data.getD mapHeaderSize 0) = headerTypeCoalescing then .whole
  else .copied packetLen

theorem mapDeaggregate_copied {fmt : BitVec 32} {data : List UInt8} {n : ℕ}
    (h : mapDeaggregate fmt data = .copied n) : 0 < n ∧ n ≤ data.length := by
  have hheader : 0 < mapHeaderSize := by decide
  rw [mapDeaggregate] at h
  split_ifs at h <;> cases h <;> omega

/-- The loop of `rmnet_map_ingress_handler` over one skb: the packets handed on. -/
def ingressPackets (fmt : BitVec 32) (data : List UInt8) : List (List UInt8) :=
  match _hone : mapDeaggregate fmt data with
  | .nothing => []
  | .whole => [data]
  | .copied n => data.take n :: ingressPackets fmt (data.drop n)
termination_by data.length
decreasing_by
  have := mapDeaggregate_copied _hone
  rw [length_drop]
  omega

variable {fmt : BitVec 32} {data : List UInt8}

/-- The header behind the MAP header, if the format has one, is the checksum header. -/
def SameHeader (fmt : BitVec 32) (data : List UInt8) : Prop :=
  fmt &&& ingressMapCksumv4 ≠ 0 ∨ fmt &&& (ingressMapCksumv5 ||| ingressCoalesce) = 0 ∨
    (MapHeader.ofBytes data).cdBit = true ∨
    (fmt &&& ingressMapCksumv5 ≠ 0 ∧
      ∀ type ∈ data[mapHeaderSize]?, headerType type = headerTypeCsumOffload)

instance (fmt : BitVec 32) (data : List UInt8) : Decidable (SameHeader fmt data) := by
  unfold SameHeader
  infer_instance

theorem and_or_eq_zero {x y z : BitVec 32} : x &&& (y ||| z) = 0 ↔ x &&& y = 0 ∧ x &&& z = 0 := by
  rw [BitVec.and_or_distrib_left]
  exact BitVec.or_eq_zero_iff

theorem ofBytes_take (n : ℕ) (data : List UInt8) (h : mapHeaderSize ≤ n) :
    MapHeader.ofBytes (data.take n) = MapHeader.ofBytes data := by
  have hget (k : ℕ) (hk : k < mapHeaderSize) : (data.take n).getD k 0 = data.getD k 0 := by
    rw [getD_eq_getElem?_getD, getElem?_take_of_lt (Nat.lt_of_lt_of_le hk h),
      ← getD_eq_getElem?_getD]
  rw [MapHeader.ofBytes, MapHeader.ofBytes, hget 0 (by decide), hget 2 (by decide),
    hget 3 (by decide)]

theorem nextHdrSize_csum {type : UInt8} (h : headerType type = headerTypeCsumOffload) :
    nextHdrSize type = v5CsumHeaderSize := by
  rw [headerType] at h
  rw [nextHdrSize, h]
  rfl

theorem mapDeaggregate_eq (h : SameHeader fmt data) : mapDeaggregate fmt data =
    match announcedLen fmt data with
    | some n => if n ≤ data.length then .copied n else .nothing
    | none => .nothing := by
  have hsize : mapHeaderSize = 4 := rfl
  rw [announcedLen_eq, ofBytes_take _ _ (Nat.le_refl _)]
  by_cases hcut : mapHeaderSize ≤ data.length
  case neg =>
    rw [if_neg hcut, mapDeaggregate]
    split
    · rfl
    · rw [if_pos (by omega)]
  rw [if_pos hcut, mapDeaggregate]
  dsimp only
  rw [if_neg (by omega)]
  by_cases hzero : (MapHeader.ofBytes data).pktLen = 0
  · simp [hzero]
  simp only [if_neg hzero]
  by_cases hv4 : fmt &&& ingressMapCksumv4 = 0
  case neg =>
    have hnone : ¬ hasCsumHeader fmt data := fun hheader => hv4 hheader.1
    simp only [ne_eq, hv4, not_false_eq_true, if_true, hnone, false_and, if_false]
    split <;> split <;> first | rfl | omega | (congr 1; omega)
  simp only [hv4, ne_eq, not_true, if_false]
  by_cases hheader : hasCsumHeader fmt data
  · have hv5 := hheader.2.1
    have hcd := hheader.2.2
    have htype : ∀ type ∈ data[mapHeaderSize]?, headerType type = headerTypeCsumOffload := by
      obtain h | h | h | h := h
      · exact absurd hv4 h
      · exact absurd (and_or_eq_zero.1 h).1 hv5
      · rw [hcd] at h
        cases h
      · exact h.2
    have hor : fmt &&& (ingressMapCksumv5 ||| ingressCoalesce) ≠ 0 := fun h0 =>
      hv5 (and_or_eq_zero.1 h0).1
    simp only [hheader, hor, hcd, if_true, true_and, not_false_eq_true, Bool.not_false]
    cases hget : data[mapHeaderSize]? with
    | none =>
      rw [getElem?_eq_none_iff] at hget
      rw [if_pos (by omega)]
      rfl
    | some type =>
      have hcsum := htype type hget
      have hother : headerType (data.getD mapHeaderSize 0) ≠ headerTypeCoalescing := by
        rw [getD_eq_getElem?_getD, hget, Option.getD_some, hcsum]
        decide
      rw [Option.map_some, nextHdrSize_csum hcsum, if_neg hother]
      dsimp only
      split <;> split <;> first | rfl | omega | (congr 1; omega)
  · have hplain : ¬ (fmt &&& (ingressMapCksumv5 ||| ingressCoalesce) ≠ 0 ∧
        (!(MapHeader.ofBytes data).cdBit) = true) := by
      rintro ⟨hor, hcd⟩
      rw [Bool.not_eq_true'] at hcd
      obtain h | h | h | h := h
      · exact h hv4
      · exact hor h
      · rw [hcd] at h
        cases h
      · exact hheader ⟨hv4, h.1, hcd⟩
    simp only [hheader, false_and, if_false, if_neg hplain]
    split <;> split <;> first | rfl | omega | (congr 1; omega)

theorem ingressPackets_nothing (h : mapDeaggregate fmt data = .nothing) :
    ingressPackets fmt data = [] := by
  rw [ingressPackets]
  split <;> simp_all

theorem ingressPackets_copied {n : ℕ} (h : mapDeaggregate fmt data = .copied n) :
    ingressPackets fmt data = data.take n :: ingressPackets fmt (data.drop n) := by
  rw [ingressPackets]
  split <;> simp_all

theorem SameHeader.of_take {n : ℕ} (hn : mapHeaderSize < n) (h : SameHeader fmt (data.take n)) :
    SameHeader fmt data := by
  rwa [SameHeader, ofBytes_take n data (Nat.le_of_lt hn), getElem?_take_of_lt hn] at h

theorem mapHeaderSize_lt_of_announcedLen {n : ℕ} (h : announcedLen fmt data = some n) :
    mapHeaderSize < n := by
  rw [announcedLen_eq] at h
  dsimp only at h
  split_ifs at h with hcut hzero hv4 hnext
  · cases h
    omega
  · obtain ⟨type, -, rfl⟩ := Option.map_eq_some_iff.1 h
    omega
  · cases h
    omega

theorem Packets.ingressPackets_eq {out : List (List UInt8)} (h : Packets fmt data out)
    (hout : ∀ p ∈ out, SameHeader fmt p)
    (hrest : SameHeader fmt (data.drop out.flatten.length)) : ingressPackets fmt data = out := by
  induction h with
  | @stop data hstop =>
    refine ingressPackets_nothing ?_
    rw [mapDeaggregate_eq (show SameHeader fmt data from hrest)]
    cases hlen : announcedLen fmt data with
    | none => rfl
    | some n => exact if_neg (Nat.not_le_of_lt (hstop n hlen))
  | @packet data n rest hlen hn _ ih =>
    have hsame := (hout _ mem_cons_self).of_take (mapHeaderSize_lt_of_announcedLen hlen)
    rw [ingressPackets_copied (n := n) (by rw [mapDeaggregate_eq hsame, hlen]; exact if_pos hn)]
    refine congrArg _ (ih (fun p hp => hout p (mem_cons_of_mem _ hp)) ?_)
    rwa [flatten_cons, length_append, length_take_of_le hn, ← drop_drop] at hrest

def sampleFrame : List UInt8 := [0x40, 1, 0, 2, 4, 0, 0, 0, 0xAA, 0xBB, 0x80, 1, 0, 1, 0xCC]

end QcomModules.Rmnet
