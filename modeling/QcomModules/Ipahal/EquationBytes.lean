import QcomModules.Ipahal.Equations

/-! The body of a rule written from the structure that holds its equations. -/

namespace QcomModules.Ipahal

open Library
open List hiding Vector

/-! ## Writing -/

/-- The bytes written so far through the pointers `extra` and `rest`. -/
structure Words where
  extra : List Byte := []
  rest : List Byte := []
  deriving DecidableEq, Repr

def Words.extra8 (w : Words) (b : Byte) : Words := { w with extra := w.extra ++ [b] }

def Words.rest8 (w : Words) (bs : List Byte) : Words := { w with rest := w.rest ++ bs }

def Words.rest16 (w : Words) (v : BitVec 16) : Words := { w with rest := w.rest ++ bytes16 v }

def Words.rest32 (w : Words) (v : BitVec 32) : Words := { w with rest := w.rest ++ bytes32 v }

/-- `ipa_pad_to_64` of bytes that start at `start`. -/
def padTo64 (start : ℕ) (bs : List Byte) : List Byte :=
  let i := (start + bs.length) % 8
  if i = 0 then bs else bs ++ List.replicate (8 - i) 0

def calcExtraWrdBytes (attrib : RuleEq) : ℕ :=
  attrib.tosEqPresent.toNat + attrib.protocolEqPresent.toNat + attrib.tcEqPresent.toNat +
    attrib.numOffsetMeq128 + attrib.numOffsetMeq32 + attrib.numIhlOffsetMeq32 +
    attrib.numIhlOffsetRange16 + attrib.ihlOffsetEq32Present.toNat +
    attrib.ihlOffsetEq16Present.toNat

def Words.tosEq (hw : HwType) (attrib : RuleEq) (w : Words) : Option Words :=
  if attrib.tosEqPresent then
    if hw.eqValid .isPureAck then some (w.extra8 0)
    else if hw.eqValid .tosEq then some (w.extra8 attrib.tosEq)
    else none
  else some w

def Words.meq128 (w : Words) (eq : MaskEq128) : Words :=
  ((((w.extra8 eq.offset).rest8 (eq.mask.toList.take 8)).rest8 (eq.value.toList.take 8)).rest8
    (eq.mask.toList.drop 8)).rest8 (eq.value.toList.drop 8)

def Words.meq32 (w : Words) (eq : MaskEq32) : Words :=
  ((w.extra8 eq.offset).rest32 eq.mask).rest32 eq.value

def Words.range16 (w : Words) (eq : RangeEq16) : Words :=
  ((w.extra8 eq.offset).rest16 eq.rangeHigh).rest16 eq.rangeLow

/-- `if (present) ...`. -/
def Words.optional (w : Words) (present : Bool) (write : Words → Words) : Words :=
  if present then write w else w

/-- `if (num) { ... [0] ...; num--; } if (num) { ... [1] ...; num--; }`. -/
def Words.slots {α : Type} (w : Words) (num : ℕ) (slots : Vector α 2)
    (write : Words → α → Words) : Words :=
  (w.optional (0 < num) (write · slots[0])).optional (1 < num) (write · slots[1])

/-- What `ipa_fltrt_generate_hw_rule_bdy_from_eq`, and its IPAv5.5 copy in the same words, write
once the two pointers are set up. -/
def writeEquations (hw : HwType) (attrib : RuleEq) : Option Words :=
  (Words.tosEq hw attrib {}).map fun w =>
    w.optional attrib.protocolEqPresent (·.extra8 attrib.protocolEq)
      |>.optional attrib.tcEqPresent (·.extra8 attrib.tcEq)
      |>.slots attrib.numOffsetMeq128 attrib.offsetMeq128 Words.meq128
      |>.slots attrib.numOffsetMeq32 attrib.offsetMeq32 Words.meq32
      |>.slots attrib.numIhlOffsetMeq32 attrib.ihlOffsetMeq32 Words.meq32
      |>.optional attrib.metadataMeq32Present
        (fun w => (w.rest32 attrib.metadataMeq32.mask).rest32 attrib.metadataMeq32.value)
      |>.slots attrib.numIhlOffsetRange16 attrib.ihlOffsetRange16 Words.range16
      |>.optional attrib.ihlOffsetEq32Present
        (fun w => (w.extra8 attrib.ihlOffsetEq32.offset).rest32 attrib.ihlOffsetEq32.value)
      |>.optional attrib.ihlOffsetEq16Present
        (fun w => ((w.extra8 attrib.ihlOffsetEq16.offset).rest16
          attrib.ihlOffsetEq16.value).rest16 0)
      |>.optional attrib.flEqPresent (·.rest32 (attrib.flEq &&& 0xFFFFF))

/-- The bytes put at the two pointers, of which `extra` may be null, padded, and the address
behind them. -/
def Words.place (w : Words) (m : Mem) (extra : Option ℕ) (rest : ℕ) : Mem × ℕ :=
  let m := match extra with
    | some extra => m.store extra (padTo64 extra w.extra)
    | none => m
  (m.store rest (padTo64 rest w.rest), rest + (padTo64 rest w.rest).length)

/-- `ipa_fltrt_generate_hw_rule_bdy_from_eq`: the memory and the advanced `*buf`. -/
def generateHwRuleBdyFromEq (hw : HwType) (attrib : RuleEq) (m : Mem) (buf : ℕ) :
    Option (Mem × ℕ) :=
  let extraBytes := calcExtraWrdBytes attrib
  if extraBytes > 13 then none
  else
    let (extra, rest) :=
      if extraBytes > 8 then (some buf, buf + 8 * 2)
      else if extraBytes > 0 then (some buf, buf + 8)
      else (none, buf)
    (writeEquations hw attrib).map fun w => w.place m extra rest

def generateHwRuleBdyFromEq55 (hw : HwType) (attrib : RuleEq) (m : Mem) (buf : ℕ)
    (extHdr : Bool) : Option (Mem × ℕ) :=
  let extraBytes := calcExtraWrdBytes attrib
  if extraBytes > 13 then none
  else
    let (extra, rest) :=
      if extraBytes > 8 then (some buf, buf + 8 * 2 - extHdr.toNat * 2)
      else if extraBytes > 0 then
        -- with the extended header two bytes of the word are taken
        if extHdr && extraBytes > 8 - 2 then (some buf, buf + 8 * 2 - extHdr.toNat * 2)
        else (some buf, buf + 8 - extHdr.toNat * 2)
      else (if extHdr then some buf else none, buf - extHdr.toNat * 2 + extHdr.toNat * 8)
    (writeEquations hw attrib).map fun w => w.place m extra rest

/-! ## What is written -/

/-- Each number of equations is at most that of the slots. -/
structure RuleEq.CountsOk (e : RuleEq) : Prop where
  range16 : e.numIhlOffsetRange16 ≤ 2
  meq32 : e.numOffsetMeq32 ≤ 2
  ihlMeq32 : e.numIhlOffsetMeq32 ≤ 2
  meq128 : e.numOffsetMeq128 ≤ 2

def Words.put (w : Words) (es : List Equation) : Words :=
  { extra := w.extra ++ extraBytes es, rest := w.rest ++ restBytes es }

theorem Words.put_nil (w : Words) : w.put [] = w := by
  rw [Words.put, extraBytes, restBytes, flatMap_nil, flatMap_nil, append_nil,
    append_nil]

theorem Words.put_put (w : Words) (es fs : List Equation) :
    (w.put es).put fs = w.put (es ++ fs) := by
  simp only [Words.put, extraBytes_append, restBytes_append, append_assoc]

theorem Words.put_singleton (w : Words) (e : Equation) :
    w.put [e] = { extra := w.extra ++ e.extra, rest := w.rest ++ e.rest } := by
  rw [Words.put, extraBytes, restBytes, flatMap_singleton, flatMap_singleton]

theorem Words.optional_put (w : Words) (present : Bool) {write : Words → Words} {e : Equation}
    (hwrite : ∀ w, write w = { extra := w.extra ++ e.extra, rest := w.rest ++ e.rest }) :
    w.optional present write = w.put (if present then [e] else []) := by
  cases present with
  | true => exact (hwrite w).trans (w.put_singleton e).symm
  | false => exact w.put_nil.symm

variable {α : Type} {num buf : ℕ} {attrib : RuleEq}

theorem Words.slots_put (w : Words) (hnum : num ≤ 2) (slots : Vector α 2)
    {write : Words → α → Words} {eqn : α → Equation} (hwrite : ∀ w a, write w a =
      { extra := w.extra ++ (eqn a).extra, rest := w.rest ++ (eqn a).rest }) :
    w.slots num slots write = w.put ((slots.toList.take num).map eqn) := by
  obtain ⟨⟨slots⟩, hsize⟩ := slots
  match slots, hsize with
  | [a, b], _ =>
    match num, hnum with
    | 0, _ => exact w.put_nil.symm
    | 1, _ => exact (hwrite w a).trans (w.put_singleton (eqn a)).symm
    | 2, _ =>
      show write (write w a) b = w.put ([eqn a] ++ [eqn b])
      rw [hwrite, hwrite, ← Words.put_put, Words.put_singleton, Words.put_singleton]

theorem Words.tosEq_put (hw : HwType) (attrib : RuleEq) (w : Words) :
    w.tosEq hw attrib = some (w.put (attrib.tosPart hw)) := by
  rw [Words.tosEq, RuleEq.tosPart, hw.tos_or_pureAck]
  cases attrib.tosEqPresent with
  | false => exact congrArg some w.put_nil.symm
  | true =>
    cases hw.eqValid .tosEq with
    | true => exact congrArg some ((Words.put_singleton w _).trans (by
        simp only [Equation.rest, append_nil]; rfl)).symm
    | false => exact congrArg some ((Words.put_singleton w _).trans (by
        simp only [Equation.rest, append_nil]; rfl)).symm

theorem Words.extra8_eq (w : Words) (b : Byte) :
    w.extra8 b = { extra := w.extra ++ [b], rest := w.rest ++ [] } := by
  rw [append_nil]
  rfl

theorem Words.meq128_eq (w : Words) (eq : MaskEq128) : w.meq128 eq =
    { extra := w.extra ++ [eq.offset], rest := w.rest ++ (Equation.meq128 eq).rest } := by
  simp only [Words.meq128, Words.extra8, Words.rest8, Equation.rest, append_assoc]

theorem Words.meq32_eq (w : Words) (eq : MaskEq32) : w.meq32 eq =
    { extra := w.extra ++ [eq.offset]
      rest := w.rest ++ (bytes32 eq.mask ++ bytes32 eq.value) } := by
  simp only [Words.meq32, Words.extra8, Words.rest32, append_assoc]

theorem Words.range16_eq (w : Words) (eq : RangeEq16) : w.range16 eq =
    { extra := w.extra ++ [eq.offset]
      rest := w.rest ++ (bytes16 eq.rangeHigh ++ bytes16 eq.rangeLow) } := by
  simp only [Words.range16, Words.extra8, Words.rest16, append_assoc]

theorem writeEquations_put (hw : HwType) (hcounts : attrib.CountsOk) :
    writeEquations hw attrib = some (Words.put {} (attrib.equations hw)) := by
  have hprotocol (w : Words) : w.optional attrib.protocolEqPresent (·.extra8 attrib.protocolEq) =
      w.put attrib.protocolPart := w.optional_put _ fun w => w.extra8_eq _
  have htc (w : Words) : w.optional attrib.tcEqPresent (·.extra8 attrib.tcEq) =
      w.put attrib.tcPart := w.optional_put _ fun w => w.extra8_eq _
  have hmeq128 (w : Words) : w.slots attrib.numOffsetMeq128 attrib.offsetMeq128 Words.meq128 =
      w.put attrib.meq128Part := w.slots_put hcounts.meq128 _ Words.meq128_eq
  have hmeq32 (w : Words) : w.slots attrib.numOffsetMeq32 attrib.offsetMeq32 Words.meq32 =
      w.put attrib.meq32Part := w.slots_put hcounts.meq32 _ Words.meq32_eq
  have hihl (w : Words) : w.slots attrib.numIhlOffsetMeq32 attrib.ihlOffsetMeq32 Words.meq32 =
      w.put attrib.ihlMeq32Part := w.slots_put hcounts.ihlMeq32 _ Words.meq32_eq
  have hmetadata (w : Words) : w.optional attrib.metadataMeq32Present
      (fun w => (w.rest32 attrib.metadataMeq32.mask).rest32 attrib.metadataMeq32.value) =
      w.put attrib.metadataPart := w.optional_put _ fun w => by
    simp only [Words.rest32, Equation.extra, Equation.rest, append_assoc, append_nil]
  have hrange (w : Words) : w.slots attrib.numIhlOffsetRange16 attrib.ihlOffsetRange16
      Words.range16 = w.put attrib.range16Part := w.slots_put hcounts.range16 _ Words.range16_eq
  have heq32 (w : Words) : w.optional attrib.ihlOffsetEq32Present
      (fun w => (w.extra8 attrib.ihlOffsetEq32.offset).rest32 attrib.ihlOffsetEq32.value) =
      w.put attrib.eq32Part := w.optional_put _ fun _ => rfl
  have heq16 (w : Words) : w.optional attrib.ihlOffsetEq16Present
      (fun w => ((w.extra8 attrib.ihlOffsetEq16.offset).rest16
        attrib.ihlOffsetEq16.value).rest16 0) =
      w.put attrib.eq16Part := w.optional_put _ fun w => by
    simp only [Words.extra8, Words.rest16, Equation.extra, Equation.rest, append_assoc]
  have hfl (w : Words) : w.optional attrib.flEqPresent (·.rest32 (attrib.flEq &&& 0xFFFFF)) =
      w.put attrib.flPart := w.optional_put _ fun w => by
    simp only [Words.rest32, Equation.extra, Equation.rest, append_nil]
  -- a fragment equation has no bytes
  have hfrag (w : Words) : w.put attrib.fragPart = w := by
    rw [RuleEq.fragPart]
    cases attrib.ipv4FragEqPresent with
    | true => exact w.put_nil
    | false => exact w.put_nil
  rw [writeEquations, Words.tosEq_put, Option.map_some, Option.some.injEq, hprotocol, htc, hmeq128,
    hmeq32, hihl, hmetadata, hrange, heq32, heq16, hfl]
  rw [RuleEq.equations, ← Words.put_put _ _ attrib.fragPart, hfrag]
  simp only [Words.put_put]

theorem length_extraBytes_if (c : Bool) (e : Equation) :
    (extraBytes (if c then [e] else [])).length = c.toNat * e.extra.length := by
  cases c with
  | true => rw [if_pos rfl, extraBytes, flatMap_singleton, Bool.toNat_true, Nat.one_mul]
  | false => exact (Nat.zero_mul _).symm

theorem length_extraBytes_slots (hnum : num ≤ 2) (slots : Vector α 2) {eqn : α → Equation}
    (h : ∀ a, (eqn a).extra.length = 1) :
    (extraBytes ((slots.toList.take num).map eqn)).length = num := by
  have hone : (fun e : Equation => e.extra.length) ∘ eqn = fun _ => 1 := funext h
  rw [extraBytes, length_flatMap, map_map, hone, map_const', sum_replicate_nat,
    length_take, Vector.length_toList, Nat.mul_one, Nat.min_eq_left hnum]

theorem calcExtraWrdBytes_eq (hw : HwType) (hcounts : attrib.CountsOk) :
    calcExtraWrdBytes attrib = (extraBytes (attrib.equations hw)).length := by
  have htos : (extraBytes (attrib.tosPart hw)).length = attrib.tosEqPresent.toNat := by
    rw [RuleEq.tosPart]
    cases attrib.tosEqPresent with
    | false => rfl
    | true => cases hw.eqValid .isPureAck <;> rfl
  simp only [RuleEq.equations, extraBytes_append, length_append, htos, RuleEq.protocolPart,
    RuleEq.tcPart, RuleEq.metadataPart, RuleEq.eq32Part, RuleEq.eq16Part, RuleEq.flPart,
    RuleEq.fragPart, length_extraBytes_if, RuleEq.meq128Part, RuleEq.meq32Part,
    RuleEq.ihlMeq32Part, RuleEq.range16Part]
  rw [length_extraBytes_slots hcounts.meq128 _ fun _ => rfl,
    length_extraBytes_slots hcounts.meq32 _ fun _ => rfl,
    length_extraBytes_slots hcounts.ihlMeq32 _ fun _ => rfl,
    length_extraBytes_slots hcounts.range16 _ fun _ => rfl]
  simp only [Equation.extra, length_cons, length_nil, calcExtraWrdBytes]
  omega

theorem calcExtraWrdBytes_le (hcounts : attrib.CountsOk) : calcExtraWrdBytes attrib ≤ 13 := by
  obtain ⟨_, _, _, _⟩ := hcounts
  have hbool (b : Bool) : b.toNat ≤ 1 := Bool.toNat_le b
  have := hbool attrib.tosEqPresent
  have := hbool attrib.protocolEqPresent
  have := hbool attrib.tcEqPresent
  have := hbool attrib.ihlOffsetEq32Present
  have := hbool attrib.ihlOffsetEq16Present
  rw [calcExtraWrdBytes]
  omega

/-! ## Where it stands -/

theorem length_padTo64 (start : ℕ) (bs : List Byte) :
    start + (padTo64 start bs).length = (start + bs.length + 7) / 8 * 8 := by
  rw [padTo64]
  by_cases h : (start + bs.length) % 8 = 0
  · rw [if_pos h]
    omega
  · rw [if_neg h, length_append, length_replicate]
    omega

theorem padTo64_eq (start : ℕ) (bs : List Byte) :
    ∃ n, padTo64 start bs = bs ++ List.replicate n 0 := by
  rw [padTo64]
  by_cases h : (start + bs.length) % 8 = 0
  · exact ⟨0, by rw [if_pos h, replicate_zero, append_nil]⟩
  · exact ⟨_, if_neg h⟩

/-- The words of a rule from `buf` on: the operands start at the next multiple of eight behind the
extra bytes. -/
def Words.layOut (w : Words) (m : Mem) (buf : ℕ) : Mem × ℕ :=
  w.place m (some buf) ((buf + w.extra.length + 7) / 8 * 8)

theorem Words.place_none (w : Words) (m : Mem) (hbuf : buf % 8 = 0) (hextra : w.extra = []) :
    w.place m none buf = w.layOut m buf := by
  have hpad : padTo64 buf [] = [] := if_pos hbuf
  have hrest : (buf + ([] : List Byte).length + 7) / 8 * 8 = buf := by
    rw [length_nil]
    omega
  have hstore : m.store buf [] = m := funext fun k => by
    rw [Mem.store, getD_nil, ite_self]
  rw [Words.layOut, Words.place, Words.place, hextra, hrest, hpad, hstore]

theorem generateHwRuleBdyFromEq_eq (hw : HwType) (hcounts : attrib.CountsOk) (m : Mem)
    (hbuf : buf % 8 = 0) :
    generateHwRuleBdyFromEq hw attrib m buf =
      some ((Words.put {} (attrib.equations hw)).layOut m buf) := by
  have hextra := calcExtraWrdBytes_eq hw hcounts
  have hle := calcExtraWrdBytes_le hcounts
  have hput : (Words.put {} (attrib.equations hw)).extra = extraBytes (attrib.equations hw) := rfl
  rw [generateHwRuleBdyFromEq, if_neg (Nat.not_lt.2 hle), writeEquations_put hw hcounts]
  by_cases htwo : calcExtraWrdBytes attrib > 8
  · rw [if_pos htwo, Words.layOut, hput, ← hextra]
    exact congrArg (fun rest => some (Words.place _ m (some buf) rest)) (by omega)
  · rw [if_neg htwo]
    by_cases hone : calcExtraWrdBytes attrib > 0
    · rw [if_pos hone, Words.layOut, hput, ← hextra]
      exact congrArg (fun rest => some (Words.place _ m (some buf) rest)) (by omega)
    · rw [if_neg hone, ← Words.place_none _ m hbuf (length_eq_zero_iff.1 (by
        rw [hput]
        omega))]
      rfl

theorem generateHwRuleBdyFromEq55_eq (hw : HwType) (hcounts : attrib.CountsOk) (m : Mem)
    (extHdr : Bool) (hbuf : buf % 8 = extHdr.toNat * 2) :
    generateHwRuleBdyFromEq55 hw attrib m buf extHdr =
      some ((Words.put {} (attrib.equations hw)).layOut m buf) := by
  cases extHdr with
  | false =>
    rw [← generateHwRuleBdyFromEq_eq hw hcounts m hbuf]
    rfl
  | true =>
    have hextra := calcExtraWrdBytes_eq hw hcounts
    have hle := calcExtraWrdBytes_le hcounts
    have hput : (Words.put {} (attrib.equations hw)).extra = extraBytes (attrib.equations hw) :=
      rfl
    rw [Bool.toNat_true] at hbuf
    rw [generateHwRuleBdyFromEq55, if_neg (Nat.not_lt.2 hle), writeEquations_put hw hcounts,
      Bool.true_and, Bool.toNat_true, Words.layOut, hput, ← hextra]
    by_cases htwo : calcExtraWrdBytes attrib > 8
    · rw [if_pos htwo]
      exact congrArg (fun rest => some (Words.place _ m (some buf) rest)) (by omega)
    · rw [if_neg htwo]
      by_cases hone : calcExtraWrdBytes attrib > 0
      · rw [if_pos hone]
        by_cases hsix : calcExtraWrdBytes attrib > 6
        · rw [if_pos (decide_eq_true hsix)]
          exact congrArg (fun rest => some (Words.place _ m (some buf) rest)) (by omega)
        · rw [if_neg (by rw [decide_eq_true_eq]; exact hsix)]
          exact congrArg (fun rest => some (Words.place _ m (some buf) rest)) (by omega)
      · rw [if_neg hone, if_pos rfl]
        exact congrArg (fun rest => some (Words.place _ m (some buf) rest)) (by omega)

theorem Words.layOut_extra (w : Words) (m : Mem) (buf : ℕ) :
    (w.layOut m buf).1.Holds buf (padTo64 buf w.extra) :=
  (m.holds_store buf (padTo64 buf w.extra)).store_behind
    (Nat.le_of_eq (length_padTo64 buf w.extra)) _

theorem Words.layOut_rest (w : Words) (m : Mem) (buf : ℕ) :
    (w.layOut m buf).1.Holds ((buf + w.extra.length + 7) / 8 * 8)
      (padTo64 ((buf + w.extra.length + 7) / 8 * 8) w.rest) :=
  Mem.holds_store _ _ _

theorem Words.layOut_end (w : Words) (m : Mem) (buf : ℕ) :
    (w.layOut m buf).2 =
      ((buf + w.extra.length + 7) / 8 * 8 + w.rest.length + 7) / 8 * 8 :=
  length_padTo64 _ w.rest

theorem Words.layOut_of_lt (w : Words) (m : Mem) {k : ℕ} (h : k < buf) :
    (w.layOut m buf).1 k = m k := by
  rw [Words.layOut, Words.place]
  exact (Mem.store_of_lt _ _ (by omega)).trans (Mem.store_of_lt _ _ h)

end QcomModules.Ipahal
