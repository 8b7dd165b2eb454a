import QcomModules.Rmnet.ByteStrings

/-! Deaggregation of received frames whose bytes lie in page fragments: the packets are those the
headers announce, however the bytes are split. -/

namespace QcomModules.Rmnet

open Library List

/-! ## The driver's deaggregation -/

def ingressMapCksumv4 : BitVec 32 := 1#32 <<< 2

def ingressCoalesce : BitVec 32 := 1#32 <<< 4

def ingressMapCksumv5 : BitVec 32 := 1#32 <<< 5

/-- `sizeof(struct rmnet_map_header)`. -/
def mapHeaderSize : ℕ := 4

/-- `sizeof(struct rmnet_map_dl_csum_trailer)`. -/
def dlCsumTrailerSize : ℕ := 8

/-- `sizeof(struct rmnet_map_v5_coal_header)`. -/
def v5CoalHeaderSize : ℕ := 28

/-- `sizeof(struct rmnet_map_v5_csum_header)`. -/
def v5CsumHeaderSize : ℕ := 4

/-- The fields of `struct rmnet_map_header` that deaggregation reads. -/
structure MapHeader where
  cdBit : Bool
  pktLen : ℕ
  deriving DecidableEq, Repr

def MapHeader.ofBytes (bytes : List UInt8) : MapHeader where
  cdBit := (bytes.getD 0 0) >>> 7 = 1
  pktLen := (bytes.getD 2 0).toNat * 256 + (bytes.getD 3 0).toNat

/-- The size of the header a type byte announces; only the first 7 bits name the type. -/
def nextHdrSize (type : UInt8) : ℕ :=
  if (type &&& 0xFE) >>> 1 = 1 then v5CoalHeaderSize
  else if (type &&& 0xFE) >>> 1 = 2 then v5CsumHeaderSize
  else 0

/-- The page fragments of a received skb without linear data. -/
structure Skb where
  frags : List Frag
  len_lt : fragsSize frags < 2 ^ 32

def Skb.bytes (mem : Memory) (skb : Skb) : List UInt8 :=
  fragsBytes mem skb.frags

/-- `skb_copy_bits` on an skb without linear data. -/
def skbCopyBits (mem : Memory) (frags : List Frag) (off len : ℕ) : Option (List UInt8) :=
  if off + len ≤ fragsSize frags then some (slice off len (fragsBytes mem frags)) else none

/-- The search for the fragment of a byte: that fragment, those behind it, and how many bytes are
before it. -/
def findStart (start : ℕ) : List Frag → ℕ → Option (Frag × List Frag × ℕ)
  | [], _ => none
  | f :: fs, offset =>
    if start < u32 (f.size + offset) then some (f, fs, offset)
    else findStart start fs (u32 (offset + f.size))

/-- The copy loop of `rmnet_frag_deaggregate_one`: how much of the packet is missing, and the
descriptor. The first fragment stands with its starting offset; `none` when the loop goes on. -/
def gatherFrags : ℕ → List Frag → ℕ → ℕ → Descriptor → Option (ℕ × Descriptor)
  | 0, _, _, _, _ => none
  | _ + 1, [], pktLen, _, desc => some (pktLen, desc)
  | fuel + 1, f :: fs, pktLen, copyLen, desc =>
    if pktLen = 0 then some (pktLen, desc)
    else
      let copy := min f.size pktLen
      let desc := desc.addFrag ⟨f.page, f.off, copy⟩
      let copyLen := u32 (copyLen + copy)
      if sub32 f.size copyLen = 0 then gatherFrags fuel fs (sub32 pktLen copy) 0 desc
      else gatherFrags fuel (f :: fs) (sub32 pktLen copy) copyLen desc

/-- How `rmnet_frag_deaggregate_one` ends, if it does. -/
inductive OneResult where
  | packet (desc : Descriptor)
  | failed
  | spins

/-- The length of the packet with its MAP header; `none` where the type byte cannot be read. -/
def packetLen (mem : Memory) (fmt : BitVec 32) (frags : List Frag) (start : ℕ) (first : Frag)
    (maph : MapHeader) : Option ℕ :=
  let pktLen := u32 (maph.pktLen + mapHeaderSize)
  if fmt &&& ingressMapCksumv4 ≠ 0 then some (u32 (pktLen + dlCsumTrailerSize))
  else if fmt &&& (ingressMapCksumv5 ||| ingressCoalesce) ≠ 0 ∧ !maph.cdBit then
    let type :=
      if mapHeaderSize + 1 ≤ first.size then
        some (pageBytes mem first.page (first.off + mapHeaderSize) 1)
      else skbCopyBits mem frags (u32 (start + mapHeaderSize)) 1
    type.map fun type => u32 (pktLen + nextHdrSize (type.getD 0 0))
  else some pktLen

/-- `rmnet_frag_deaggregate_one`, where allocations succeed. -/
def deaggregateOne (mem : Memory) (fmt : BitVec 32) (frags : List Frag) (start : ℕ) : OneResult :=
  match findStart start frags 0 with
  | none => .failed
  | some (f, fs, offset) =>
    let used := sub32 start offset
    let first : Frag := ⟨f.page, f.off + used, sub32 f.size used⟩
    let maph :=
      if mapHeaderSize ≤ first.size then some (pageBytes mem first.page first.off mapHeaderSize)
      else skbCopyBits mem frags start mapHeaderSize
    match maph.map MapHeader.ofBytes with
    | none => .failed
    | some maph =>
      if maph.pktLen = 0 then .failed
      else
        match packetLen mem fmt frags start first maph with
        | none => .failed
        | some pktLen =>
          match gatherFrags (fs.length + 3) (first :: fs) pktLen 0 {} with
          | none => .spins
          | some (missing, desc) => if missing = 0 then .packet desc else .failed

/-- The loop of `rmnet_frag_deaggregate`; `none` when it goes on. -/
def deaggregateFrom (mem : Memory) (fmt : BitVec 32) (frags : List Frag) :
    ℕ → ℕ → Option (List Descriptor)
  | 0, _ => none
  | fuel + 1, start =>
    if start < fragsSize frags then
      match deaggregateOne mem fmt frags start with
      | .packet desc =>
        (deaggregateFrom mem fmt frags fuel (u32 (start + desc.len))).map (desc :: ·)
      | .failed => some []
      | .spins => none
    else some []

def deaggregate (mem : Memory) (fmt : BitVec 32) (skb : Skb) : Option (List Descriptor) :=
  deaggregateFrom mem fmt skb.frags (fragsSize skb.frags + 1) 0

/-! ## Packets of a byte string -/

/-- The length a packet at the start of the bytes announces: the MAP header, the v4 trailer or the
v5 header, and the payload. There is none where the header is cut off or the packet empty. -/
def announcedLen (fmt : BitVec 32) : List UInt8 → Option ℕ
  | b₀ :: b₁ :: b₂ :: b₃ :: rest =>
    let maph := MapHeader.ofBytes [b₀, b₁, b₂, b₃]
    if maph.pktLen = 0 then none
    else if fmt &&& ingressMapCksumv4 ≠ 0 then
      some (mapHeaderSize + maph.pktLen + dlCsumTrailerSize)
    else if fmt &&& (ingressMapCksumv5 ||| ingressCoalesce) ≠ 0 ∧ !maph.cdBit then
      rest.head?.map fun type => mapHeaderSize + nextHdrSize type + maph.pktLen
    else some (mapHeaderSize + maph.pktLen)
  | _ => none

/-- The packets of a byte string, up to the first one that is empty or cut off. -/
inductive Packets (fmt : BitVec 32) : List UInt8 → List (List UInt8) → Prop
  | stop {bytes : List UInt8} (h : ∀ n, announcedLen fmt bytes = some n → bytes.length < n) :
      Packets fmt bytes []
  | packet {bytes : List UInt8} {n : ℕ} {rest : List (List UInt8)}
      (h : announcedLen fmt bytes = some n) (hn : n ≤ bytes.length)
      (hrest : Packets fmt (bytes.drop n) rest) : Packets fmt bytes (bytes.take n :: rest)

theorem Packets.unique {fmt : BitVec 32} {bytes : List UInt8} {out out' : List (List UInt8)}
    (h : Packets fmt bytes out) (h' : Packets fmt bytes out') : out = out' := by
  induction h generalizing out' with
  | stop hstop =>
    cases h' with
    | stop _ => rfl
    | packet hlen hn _ => exact absurd hn (Nat.not_le_of_lt (hstop _ hlen))
  | packet hlen hn _ ih =>
    cases h' with
    | stop hstop => exact absurd hn (Nat.not_le_of_lt (hstop _ hlen))
    | packet hlen' _ hrest =>
      rw [hlen] at hlen'
      cases hlen'
      rw [ih hrest]

/-! ## Refinement -/

variable {mem : Memory} {fmt : BitVec 32}

theorem findStart_spec (mem : Memory) {start : ℕ} {fs : List Frag} {offset : ℕ}
    (hle : offset ≤ start)
    (hstart : start < offset + fragsSize fs) (hlt : offset + fragsSize fs < 2 ^ 32) :
    ∃ f rest offset', findStart start fs offset = some (f, rest, offset') ∧ offset' ≤ start ∧
      start - offset' < f.size ∧ f.size < 2 ^ 32 ∧
      (fragsBytes mem fs).drop (start - offset) =
        pageBytes mem f.page (f.off + (start - offset')) (f.size - (start - offset')) ++
          fragsBytes mem rest := by
  induction fs generalizing offset with
  | nil =>
    rw [fragsSize_nil] at hstart
    omega
  | cons f fs ih =>
    rw [fragsSize_cons] at hstart hlt
    rw [findStart, u32_of_lt (by omega), u32_of_lt (by omega)]
    split
    · rename_i hin
      refine ⟨f, fs, offset, rfl, hle, by omega, by omega, ?_⟩
      rw [fragsBytes_cons, drop_append_of_le_length (by rw [Frag.length_bytes]; omega),
        Frag.bytes, drop_pageBytes (by omega)]
    · rename_i hout
      obtain ⟨g, rest, offset', hfind, hle', hin, hg, hbytes⟩ :=
        @ih (offset + f.size) (by omega) (by omega) (by omega)
      refine ⟨g, rest, offset', hfind, hle', hin, hg, ?_⟩
      have hnil : (f.bytes mem).drop (start - offset) = [] :=
        drop_eq_nil_of_le (by rw [Frag.length_bytes]; omega)
      rw [← hbytes, fragsBytes_cons, drop_append, hnil, nil_append, Frag.length_bytes]
      congr 1
      omega

theorem gatherFrags_spec {fuel : ℕ} {fs : List Frag} {pktLen : ℕ} {desc : Descriptor}
    (hfuel : fs.length + 2 ≤ fuel) (hsize : fragsSize fs < 2 ^ 32)
    (hlt : desc.len + pktLen < 2 ^ 32) :
    ∃ desc', gatherFrags fuel fs pktLen 0 desc = some (pktLen - fragsSize fs, desc') ∧
      desc'.len = desc.len + min pktLen (fragsSize fs) ∧
      desc'.bytes mem = desc.bytes mem ++ (fragsBytes mem fs).take pktLen := by
  induction fs generalizing fuel pktLen desc with
  | nil =>
    obtain ⟨fuel, rfl⟩ := Nat.exists_eq_succ_of_ne_zero (show fuel ≠ 0 by omega)
    refine ⟨desc, rfl, by rw [fragsSize_nil]; omega, ?_⟩
    rw [fragsBytes_nil, take_nil, append_nil]
  | cons f fs ih =>
    rw [length_cons] at hfuel
    rw [fragsSize_cons] at hsize
    obtain ⟨fuel, rfl⟩ := Nat.exists_eq_succ_of_ne_zero (show fuel ≠ 0 by omega)
    rw [gatherFrags, fragsSize_cons]
    split
    · rename_i h0
      subst h0
      refine ⟨desc, by rw [Nat.zero_sub], by omega, ?_⟩
      rw [take_zero, append_nil]
    rename_i hpos
    have hcopy : min f.size pktLen ≤ pktLen := Nat.min_le_right _ _
    have hcopy' : min f.size pktLen ≤ f.size := Nat.min_le_left _ _
    have hbytes : (desc.addFrag ⟨f.page, f.off, min f.size pktLen⟩).bytes mem =
        desc.bytes mem ++ (f.bytes mem).take pktLen := by
      have htake : (f.bytes mem).take pktLen =
          pageBytes mem f.page f.off (min f.size pktLen) := by
        rw [Frag.bytes, ← take_pageBytes hcopy', take_eq_take_iff, length_pageBytes]
        omega
      rw [htake, Descriptor.bytes, Descriptor.addFrag, fragsBytes_append, fragsBytes_cons,
        fragsBytes_nil, append_nil]
      rfl
    have hlen : (desc.addFrag ⟨f.page, f.off, min f.size pktLen⟩).len =
        desc.len + min f.size pktLen :=
      u32_of_lt (by dsimp only; omega)
    dsimp only
    rw [Nat.zero_add, u32_of_lt (show min f.size pktLen < 2 ^ 32 by omega),
      sub32_of_le hcopy (by omega), sub32_of_le hcopy' (by omega)]
    split
    · -- The fragment is used up.
      obtain ⟨desc', hrun, hlen', hbytes'⟩ := @ih fuel
        (pktLen - min f.size pktLen) (desc.addFrag ⟨f.page, f.off, min f.size pktLen⟩) (by omega)
        (by omega) (by omega)
      refine ⟨desc', ?_, by omega, ?_⟩
      · rw [hrun]
        congr 2
        omega
      · rw [hbytes', hbytes, fragsBytes_cons, append_assoc, take_append,
          Frag.length_bytes]
        congr 3
        omega
    · -- Bytes of the fragment are left, so the packet is complete.
      obtain ⟨fuel, rfl⟩ := Nat.exists_eq_succ_of_ne_zero (show fuel ≠ 0 by omega)
      rw [gatherFrags, if_pos (by omega)]
      refine ⟨desc.addFrag ⟨f.page, f.off, min f.size pktLen⟩, ?_, by omega, ?_⟩
      · congr 2
        omega
      · rw [hbytes, fragsBytes_cons, take_append_of_le_length]
        rw [Frag.length_bytes]
        omega

theorem readBytes_spec {frags : List Frag} {start k n : ℕ} {first : Frag} {rest : List UInt8}
    (hbytes : (fragsBytes mem frags).drop start = first.bytes mem ++ rest)
    (hstart : start ≤ fragsSize frags) :
    (if k + n ≤ first.size then some (pageBytes mem first.page (first.off + k) n)
      else skbCopyBits mem frags (start + k) n) =
    if k + n ≤ ((fragsBytes mem frags).drop start).length then
      some (slice k n ((fragsBytes mem frags).drop start)) else none := by
  have hlen : ((fragsBytes mem frags).drop start).length = fragsSize frags - start := by
    rw [length_drop, length_fragsBytes]
  split
  · rename_i hin
    have hle : first.size ≤ fragsSize frags - start := by
      rw [← hlen, hbytes, length_append, Frag.length_bytes]
      omega
    rw [if_pos (by omega), hbytes, slice_append_of_add_le (by rwa [Frag.length_bytes]), Frag.bytes,
      slice_pageBytes hin]
  · rw [skbCopyBits, hlen]
    split
    · rw [if_pos (by omega), slice, slice, drop_drop]
    · rw [if_neg (by omega)]

theorem announcedLen_eq (fmt : BitVec 32) (bytes : List UInt8) : announcedLen fmt bytes =
    if mapHeaderSize ≤ bytes.length then
      let maph := MapHeader.ofBytes (bytes.take mapHeaderSize)
      if maph.pktLen = 0 then none
      else if fmt &&& ingressMapCksumv4 ≠ 0 then
        some (mapHeaderSize + maph.pktLen + dlCsumTrailerSize)
      else if fmt &&& (ingressMapCksumv5 ||| ingressCoalesce) ≠ 0 ∧ !maph.cdBit then
        (bytes[mapHeaderSize]?).map fun type => mapHeaderSize + nextHdrSize type + maph.pktLen
      else some (mapHeaderSize + maph.pktLen)
    else none := by
  match bytes with
  | [] | [_] | [_, _] | [_, _, _] => rfl
  | b₀ :: b₁ :: b₂ :: b₃ :: rest =>
    have hlen : mapHeaderSize ≤ (b₀ :: b₁ :: b₂ :: b₃ :: rest).length := by
      simp [mapHeaderSize]
    rw [if_pos hlen, announcedLen]
    cases rest with
    | nil => rfl
    | cons type rest => rfl

theorem MapHeader.pktLen_lt (bytes : List UInt8) : (MapHeader.ofBytes bytes).pktLen < 2 ^ 16 := by
  have h₂ := (bytes.getD 2 0).toNat_lt
  have h₃ := (bytes.getD 3 0).toNat_lt
  rw [MapHeader.ofBytes]
  dsimp only
  omega

theorem nextHdrSize_le (type : UInt8) : nextHdrSize type ≤ 28 := by
  rw [nextHdrSize, v5CoalHeaderSize, v5CsumHeaderSize]
  split
  · exact Nat.le_refl 28
  split
  · decide
  · decide

theorem slice_one {bytes : List UInt8} {k : ℕ} (h : k < bytes.length) :
    slice k 1 bytes = [bytes[k]] := by
  rw [slice, drop_eq_getElem_cons h, take_succ_cons, take_zero]

theorem packetLen_spec {frags : List Frag} {start : ℕ} {first : Frag} {rest : List UInt8}
    (hbytes : (fragsBytes mem frags).drop start = first.bytes mem ++ rest)
    (hstart : start < fragsSize frags) (hlt : fragsSize frags < 2 ^ 32)
    (hhdr : mapHeaderSize ≤ ((fragsBytes mem frags).drop start).length)
    (hlen : (MapHeader.ofBytes
      (((fragsBytes mem frags).drop start).take mapHeaderSize)).pktLen ≠ 0) :
    packetLen mem fmt frags start first
        (.ofBytes (((fragsBytes mem frags).drop start).take mapHeaderSize)) =
      announcedLen fmt ((fragsBytes mem frags).drop start) := by
  have hpkt := MapHeader.pktLen_lt (((fragsBytes mem frags).drop start).take mapHeaderSize)
  have hsize : ((fragsBytes mem frags).drop start).length = fragsSize frags - start := by
    rw [length_drop, length_fragsBytes]
  have hfour : mapHeaderSize = 4 := rfl
  have hadd : ∀ extra ≤ 28, ∀ pktLen < 2 ^ 16,
      u32 (u32 (pktLen + mapHeaderSize) + extra) = mapHeaderSize + extra + pktLen := by
    intro extra hextra pktLen hpkt
    rw [u32_of_lt (show pktLen + mapHeaderSize < 2 ^ 32 by omega), u32_of_lt (by omega)]
    omega
  rw [announcedLen_eq, if_pos hhdr, packetLen]
  dsimp only
  rw [if_neg hlen]
  split
  · rw [hadd _ (by decide) _ hpkt]
    congr 1
    omega
  split
  · -- The type byte lies behind the header, if the frame goes on.
    have htype := readBytes_spec (k := mapHeaderSize) (n := 1) hbytes (Nat.le_of_lt hstart)
    rw [u32_of_lt (show start + mapHeaderSize < 2 ^ 32 by omega), htype]
    split
    · rename_i hin
      rw [slice_one (by omega), getElem?_eq_getElem (by omega), Option.map_some,
        Option.map_some, hadd _ (nextHdrSize_le _) _ hpkt]
      rfl
    · rename_i hout
      rw [getElem?_eq_none (by omega)]
      rfl
  · rw [u32_of_lt (by omega), Nat.add_comm]

theorem announcedLen_pos {bytes : List UInt8} {n : ℕ} (h : announcedLen fmt bytes = some n) :
    0 < n ∧ n < 2 ^ 17 := by
  have hpkt := MapHeader.pktLen_lt (bytes.take mapHeaderSize)
  have hfour : mapHeaderSize = 4 := rfl
  have height : dlCsumTrailerSize = 8 := rfl
  rw [announcedLen_eq] at h
  dsimp only at h
  split at h
  · split at h
    · cases h
    split at h
    · cases h
      omega
    split at h
    · obtain ⟨type, -, rfl⟩ := Option.map_eq_some_iff.1 h
      have hsize := nextHdrSize_le type
      omega
    · cases h
      omega
  · cases h

theorem deaggregateOne_spec {frags : List Frag} {start : ℕ} (hstart : start < fragsSize frags)
    (hlt : fragsSize frags < 2 ^ 32) :
    (∃ n desc, announcedLen fmt ((fragsBytes mem frags).drop start) = some n ∧ 0 < n ∧
      n ≤ fragsSize frags - start ∧ deaggregateOne mem fmt frags start = .packet desc ∧
      desc.len = n ∧ desc.bytes mem = ((fragsBytes mem frags).drop start).take n) ∨
    ((∀ n, announcedLen fmt ((fragsBytes mem frags).drop start) = some n →
        fragsSize frags - start < n) ∧
      deaggregateOne mem fmt frags start = .failed) := by
  obtain ⟨f, fs, offset, hfind, hle, hin, hf, hbytes⟩ :=
    @findStart_spec mem start frags 0 (Nat.zero_le start) (by omega) (by omega)
  rw [Nat.sub_zero] at hbytes
  have hsize : ((fragsBytes mem frags).drop start).length = fragsSize frags - start := by
    rw [length_drop, length_fragsBytes]
  rw [deaggregateOne, hfind]
  dsimp only
  rw [sub32_of_le hle (by omega), sub32_of_le (Nat.le_of_lt hin) hf]
  have hmaph := @readBytes_spec mem frags start 0 mapHeaderSize
    ⟨f.page, f.off + (start - offset), f.size - (start - offset)⟩ _ hbytes (Nat.le_of_lt hstart)
  rw [Nat.zero_add, Nat.add_zero, Nat.add_zero, slice_zero] at hmaph
  rw [hmaph, hsize]
  by_cases hhdr : mapHeaderSize ≤ fragsSize frags - start
  case neg =>
    rw [if_neg hhdr]
    refine .inr ⟨fun n hn => ?_, rfl⟩
    rw [announcedLen_eq, if_neg (by rwa [hsize])] at hn
    cases hn
  rw [if_pos hhdr, Option.map_some]
  dsimp only
  split
  case isTrue hempty =>
    refine .inr ⟨fun n hn => ?_, rfl⟩
    rw [announcedLen_eq, if_pos (by rwa [hsize])] at hn
    dsimp only at hn
    rw [if_pos hempty] at hn
    cases hn
  rename_i hpkt
  rw [packetLen_spec hbytes hstart hlt (by rwa [hsize]) hpkt]
  cases hlen : announcedLen fmt ((fragsBytes mem frags).drop start) with
  | none => exact .inr ⟨fun n hn => (by cases hn), rfl⟩
  | some n =>
    obtain ⟨hpos, hbound⟩ := announcedLen_pos hlen
    have hrest : fragsSize (⟨f.page, f.off + (start - offset), f.size - (start - offset)⟩ :: fs) =
        fragsSize frags - start := by
      rw [← hsize, hbytes, length_append, length_pageBytes, length_fragsBytes]
      rfl
    obtain ⟨desc, hgather, hdesc, htake⟩ := @gatherFrags_spec mem (fs.length + 3)
      (⟨f.page, f.off + (start - offset), f.size - (start - offset)⟩ :: fs) n {}
      (Nat.le_refl _) (by omega) (by rw [show ({} : Descriptor).len = 0 from rfl]; omega)
    rw [hrest] at hgather hdesc
    dsimp only
    rw [hgather]
    dsimp only
    split
    · rename_i hall
      refine .inl ⟨n, desc, rfl, hpos, by omega, rfl, ?_, ?_⟩
      · rw [hdesc, Nat.min_eq_left (by omega)]
        exact Nat.zero_add n
      · rw [htake, hbytes]
        rfl
    · refine .inr ⟨fun n' hn => ?_, rfl⟩
      cases hn
      omega

theorem deaggregateFrom_spec {frags : List Frag} (hlt : fragsSize frags < 2 ^ 32) {fuel start : ℕ}
    (hfuel : fragsSize frags - start < fuel) (hstart : start ≤ fragsSize frags) :
    ∃ out, deaggregateFrom mem fmt frags fuel start = some out ∧
      Packets fmt ((fragsBytes mem frags).drop start) (out.map (·.bytes mem)) := by
  induction fuel generalizing start with
  | zero => omega
  | succ fuel ih =>
    have hsize : ((fragsBytes mem frags).drop start).length = fragsSize frags - start := by
      rw [length_drop, length_fragsBytes]
    rw [deaggregateFrom]
    split
    case isFalse hend =>
      refine ⟨[], rfl, .stop fun n hn => ?_⟩
      have hpos := (announcedLen_pos hn).1
      omega
    rename_i hin
    obtain ⟨n, desc, hlen, hpos, hle, hone, hdesc, hbytes⟩ | ⟨hcut, hone⟩ :=
      @deaggregateOne_spec mem fmt frags start hin hlt
    · rw [hone]
      dsimp only
      rw [hdesc, u32_of_lt (by omega)]
      obtain ⟨out, hout, hpackets⟩ := @ih (start + n) (by omega) (by omega)
      refine ⟨desc :: out, by rw [hout]; rfl, ?_⟩
      rw [map_cons, hbytes]
      refine .packet hlen (by omega) ?_
      rwa [drop_drop]
    · rw [hone]
      exact ⟨[], rfl, .stop fun n hn => by rw [hsize]; exact hcut n hn⟩

/-- Deaggregation ends with the packets of the received bytes, in whatever fragments they lie. -/
theorem deaggregate_refines (mem : Memory) (fmt : BitVec 32) (skb : Skb) :
    ∃ out, deaggregate mem fmt skb = some out ∧
      Packets fmt (skb.bytes mem) (out.map (·.bytes mem)) ∧
      ∀ (mem' : Memory) (skb' : Skb), skb'.bytes mem' = skb.bytes mem →
        ∃ out', deaggregate mem' fmt skb' = some out' ∧
          out'.map (·.bytes mem') = out.map (·.bytes mem) := by
  have hrun (mem : Memory) (skb : Skb) : ∃ out, deaggregate mem fmt skb = some out ∧
      Packets fmt (skb.bytes mem) (out.map (·.bytes mem)) :=
    deaggregateFrom_spec skb.len_lt (by omega) (Nat.zero_le _)
  obtain ⟨out, hout, hpackets⟩ := hrun mem skb
  refine ⟨out, hout, hpackets, fun mem' skb' hsame => ?_⟩
  obtain ⟨out', hout', hpackets'⟩ := hrun mem' skb'
  rw [hsame] at hpackets'
  exact ⟨out', hout', hpackets'.unique hpackets⟩

end QcomModules.Rmnet
