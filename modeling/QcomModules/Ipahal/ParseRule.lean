import QcomModules.Ipahal.EquationBytes

/-! The parser of a rule: the equations are read in the order of their bits, the extra bytes and
the operands through a pointer each. -/

namespace QcomModules.Ipahal

open Library
open List hiding Vector

/-! ## The parser -/

/-- The presence flags and counts the parser takes from the bitmap. -/
def RuleEq.presence (hw : HwType) (atrb : RuleEq) : RuleEq :=
  let has := hw.hasEq atrb.ruleEqBitmap
  { atrb with
    -- where pure_ack is valid `tos_eq_present` stands for it
    tosEqPresent := atrb.tosEqPresent || (hw.eqValid .isPureAck && has .isPureAck) ||
      (hw.eqValid .tosEq && has .tosEq)
    protocolEqPresent := atrb.protocolEqPresent || has .protocolEq
    tcEqPresent := atrb.tcEqPresent || has .tcEq
    numOffsetMeq128 := atrb.numOffsetMeq128 + (has .offsetMeq128_0).toNat +
      (has .offsetMeq128_1).toNat
    numOffsetMeq32 := atrb.numOffsetMeq32 + (has .offsetMeq32_0).toNat +
      (has .offsetMeq32_1).toNat
    numIhlOffsetMeq32 := atrb.numIhlOffsetMeq32 + (has .ihlOffsetMeq32_0).toNat +
      (has .ihlOffsetMeq32_1).toNat
    metadataMeq32Present := atrb.metadataMeq32Present || has .metadataCompare
    numIhlOffsetRange16 := atrb.numIhlOffsetRange16 + (has .ihlOffsetRange16_0).toNat +
      (has .ihlOffsetRange16_1).toNat
    ihlOffsetEq32Present := atrb.ihlOffsetEq32Present || has .ihlOffsetEq32
    ihlOffsetEq16Present := atrb.ihlOffsetEq16Present || has .ihlOffsetEq16
    flEqPresent := atrb.flEqPresent || has .flEq
    ipv4FragEqPresent := atrb.ipv4FragEqPresent || has .isFrag }

/-- The pointers `extra` and `rest`. -/
structure Pointers where
  extra : ℕ
  rest : ℕ
  deriving DecidableEq, Repr

/-- `if (present) value = ...`, with what the two pointers advance by. -/
def readIf {α : Type} (present : Bool) (old : α) (read : Pointers → α) (extra rest : ℕ)
    (p : Pointers) : α × Pointers :=
  if present then (read p, { extra := p.extra + extra, rest := p.rest + rest }) else (old, p)

/-- `if (num > 0) slots[0] = ...; if (num > 1) slots[1] = ...`. -/
def readSlots {α : Type} (num : ℕ) (old : Vector α 2) (read : Pointers → α) (rest : ℕ)
    (p : Pointers) : Vector α 2 × Pointers :=
  let first := readIf (0 < num) (old.get 0) read 1 rest p
  let second := readIf (1 < num) (old.get 1) read 1 rest first.2
  (#v[first.1, second.1], second.2)

def readTos (hw : HwType) (m : Mem) (atrb : RuleEq) (p : Pointers) : Byte × Pointers :=
  let tos := readIf (hw.eqValid .tosEq && atrb.tosEqPresent) atrb.tosEq (fun p => m p.extra) 1 0 p
  readIf (hw.eqValid .isPureAck && atrb.tosEqPresent) tos.1 (fun _ => 0) 1 0 tos.2

/-- The loops over the halves of mask and value. -/
def readMeq128 (m : Mem) (p : Pointers) : MaskEq128 where
  offset := m p.extra
  mask := .ofFn fun i => if i.val < 8 then m (p.rest + i) else m (p.rest + 8 + i)
  value := .ofFn fun i => if i.val < 8 then m (p.rest + 8 + i) else m (p.rest + 16 + i)

def readMeq32 (m : Mem) (p : Pointers) : MaskEq32 where
  offset := m p.extra
  mask := m.read32 p.rest
  value := m.read32 (p.rest + 4)

def readRange16 (m : Mem) (p : Pointers) : RangeEq16 where
  offset := m p.extra
  rangeHigh := m.read16 p.rest
  rangeLow := m.read16 (p.rest + 2)

/-- The reads behind the set-up of the two pointers. -/
def readOperands (hw : HwType) (m : Mem) (atrb : RuleEq) (p : Pointers) : RuleEq × Pointers :=
  let tos := readTos hw m atrb p
  let protocol := readIf atrb.protocolEqPresent atrb.protocolEq (fun p => m p.extra) 1 0 tos.2
  let tc := readIf atrb.tcEqPresent atrb.tcEq (fun p => m p.extra) 1 0 protocol.2
  let meq128 := readSlots atrb.numOffsetMeq128 atrb.offsetMeq128 (readMeq128 m) 32 tc.2
  let meq32 := readSlots atrb.numOffsetMeq32 atrb.offsetMeq32 (readMeq32 m) 8 meq128.2
  let ihlMeq32 := readSlots atrb.numIhlOffsetMeq32 atrb.ihlOffsetMeq32 (readMeq32 m) 8 meq32.2
  let metadata := readIf atrb.metadataMeq32Present atrb.metadataMeq32
    (fun p => { atrb.metadataMeq32 with
      mask := m.read32 p.rest, value := m.read32 (p.rest + 4) }) 0 8 ihlMeq32.2
  let range16 := readSlots atrb.numIhlOffsetRange16 atrb.ihlOffsetRange16 (readRange16 m) 4
    metadata.2
  let eq32 := readIf atrb.ihlOffsetEq32Present atrb.ihlOffsetEq32
    (fun p => { offset := m p.extra, value := m.read32 p.rest : Eq32 }) 1 4 range16.2
  let eq16 := readIf atrb.ihlOffsetEq16Present atrb.ihlOffsetEq16
    (fun p => { offset := m p.extra, value := m.read16 p.rest : Eq16 }) 1 4 eq32.2
  let fl := readIf atrb.flEqPresent atrb.flEq (fun p => m.read32 p.rest &&& 0xfffff) 0 4 eq16.2
  ({ atrb with
      tosEq := tos.1
      protocolEq := protocol.1
      tcEq := tc.1
      offsetMeq128 := meq128.1
      offsetMeq32 := meq32.1
      ihlOffsetMeq32 := ihlMeq32.1
      metadataMeq32 := metadata.1
      ihlOffsetRange16 := range16.1
      ihlOffsetEq32 := eq32.1
      ihlOffsetEq16 := eq16.1
      flEq := fl.1 }, fl.2)

/-- `ipa_fltrt_parse_hw_rule_eq`: the filled structure and the size of the rule. -/
def parseHwRuleEq (hw : HwType) (m : Mem) (addr hdrSz : ℕ) (atrb : RuleEq) :
    Option (RuleEq × ℕ) :=
  let atrb := atrb.presence hw
  let extraBytes := calcExtraWrdBytes atrb
  if extraBytes > 13 then none
  else
    let p : Pointers :=
      if extraBytes > 8 then { extra := addr + hdrSz, rest := addr + hdrSz + 8 * 2 }
      else if extraBytes > 0 then { extra := addr + hdrSz, rest := addr + hdrSz + 8 }
      -- no extra word: `extra` points to a dummy that nothing is read from
      else { extra := addr + hdrSz, rest := addr + hdrSz }
    let (atrb, p) := readOperands hw m atrb p
    some (atrb, (p.rest + 7) / 8 * 8 - addr)

/-! ## What is read -/

/-- Between the two places the pointers pass over the bytes of the equations. -/
structure Reads (m : Mem) (p : Pointers) (es : List Equation) (p' : Pointers) : Prop where
  extra : m.readMasked p.extra (extraSigs (es.map Equation.kind)) = extraBytes es
  rest : m.readMasked p.rest (restSigs (es.map Equation.kind)) = restBytes es
  extraEnd : p'.extra = p.extra + (extraBytes es).length
  restEnd : p'.rest = p.rest + (restBytes es).length

theorem extraSigs_append (ks ls : List EquationKind) :
    extraSigs (ks ++ ls) = extraSigs ks ++ extraSigs ls := flatMap_append

theorem restSigs_append (ks ls : List EquationKind) :
    restSigs (ks ++ ls) = restSigs ks ++ restSigs ls := flatMap_append

theorem Reads.nil (m : Mem) (p : Pointers) : Reads m p [] p where
  extra := rfl
  rest := rfl
  extraEnd := rfl
  restEnd := rfl

variable {m : Mem} {p : Pointers} {α : Type}

theorem Reads.append {p' p'' : Pointers} {es fs : List Equation} (h : Reads m p es p')
    (h' : Reads m p' fs p'') : Reads m p (es ++ fs) p'' where
  extra := by
    rw [map_append, extraSigs_append, Mem.readMasked_append, h.extra, extraBytes_append,
      ← length_extraBytes, ← h.extraEnd, h'.extra]
  rest := by
    rw [map_append, restSigs_append, Mem.readMasked_append, h.rest, restBytes_append,
      ← length_restBytes, ← h.restEnd, h'.rest]
  extraEnd := by rw [h'.extraEnd, h.extraEnd, extraBytes_append, length_append, Nat.add_assoc]
  restEnd := by rw [h'.restEnd, h.restEnd, restBytes_append, length_append, Nat.add_assoc]

/-- The bytes at the pointers are those of the equation. -/
structure ReadAt (m : Mem) (p : Pointers) (e : Equation) : Prop where
  extra : m.readMasked p.extra e.kind.extraSig = e.extra
  rest : m.readMasked p.rest e.kind.restSig = e.rest

theorem ReadAt.reads {e : Equation} (h : ReadAt m p e) :
    Reads m p [e] { extra := p.extra + e.extra.length, rest := p.rest + e.rest.length } := by
  have hextra : extraBytes [e] = e.extra := flatMap_singleton _ _
  have hrest : restBytes [e] = e.rest := flatMap_singleton _ _
  have hextraSig : extraSigs [e.kind] = e.kind.extraSig := flatMap_singleton _ _
  have hrestSig : restSigs [e.kind] = e.kind.restSig := flatMap_singleton _ _
  constructor
  · rw [map_singleton, hextraSig, h.extra, hextra]
  · rw [map_singleton, hrestSig, h.rest, hrest]
  · rw [hextra]
  · rw [hrest]

theorem readIf_reads (present : Bool) (old : α) {r : Pointers → α} {f : α → Equation}
    {extra rest : ℕ} (p : Pointers) (h : ReadAt m p (f (r p)))
    (hextra : (f (r p)).extra.length = extra) (hrest : (f (r p)).rest.length = rest) :
    Reads m p (if present then [f (readIf present old r extra rest p).1] else [])
      (readIf present old r extra rest p).2 := by
  cases present with
  | true =>
    subst hextra hrest
    exact h.reads
  | false => exact Reads.nil m p

theorem readSlots_reads {num : ℕ} (hnum : num ≤ 2) (old : Vector α 2) {r : Pointers → α}
    {f : α → Equation} {rest : ℕ} (p : Pointers) (h : ∀ p, ReadAt m p (f (r p)))
    (hextra : ∀ a, (f a).extra.length = 1) (hrest : ∀ a, (f a).rest.length = rest) :
    Reads m p (((readSlots num old r rest p).1.toList.take num).map f)
      (readSlots num old r rest p).2 := by
  have hfirst := readIf_reads (decide (0 < num)) old[0] p (h p) (hextra _) (hrest _)
  have hsecond := readIf_reads (decide (1 < num)) old[1]
    (readIf (0 < num) old[0] r 1 rest p).2 (h _) (hextra _) (hrest _)
  match num, hnum, hfirst, hsecond with
  | 0, _, hfirst, _ => exact hfirst
  | 1, _, hfirst, _ => exact hfirst
  | 2, _, hfirst, hsecond => exact hfirst.append hsecond

/-! ## The bytes of what is read -/

theorem and_ones_byte (b : Byte) : b &&& 0xFF = b := BitVec.and_allOnes

theorem and_zero_byte (b : Byte) : b &&& 0 = 0 := BitVec.and_zero

theorem readMasked_ones (m : Mem) (a n : ℕ) :
    m.readMasked a (List.replicate n 0xFF) = (List.range n).map fun i => m (a + i) := by
  apply ext_getElem?
  intro j
  rw [Mem.getElem?_readMasked, getElem?_map]
  by_cases hj : j < n
  · rw [getElem?_replicate, if_pos hj, getElem?_range hj]
    exact congrArg some (and_ones_byte _)
  · rw [getElem?_eq_none (by rw [length_replicate]; omega),
      getElem?_eq_none (by rw [length_range]; omega)]
    rfl

theorem bytes16_read16 (m : Mem) (a : ℕ) : bytes16 (m.read16 a) = [m a, m (a + 1)] :=
  (bytes16_eq_iff _ _ _).2 rfl

theorem bytes32_read32 (m : Mem) (a : ℕ) :
    bytes32 (m.read32 a) = [m a, m (a + 1), m (a + 2), m (a + 3)] :=
  (bytes32_eq_iff _ _ _ _ _).2 rfl

theorem readAt_tos (m : Mem) (p : Pointers) : ReadAt m p (.tos (m p.extra)) :=
  ⟨readMasked_ones m p.extra 1, rfl⟩

theorem readAt_pureAck (m : Mem) (p : Pointers) : ReadAt m p .pureAck :=
  ⟨congrArg (fun b => [b]) (and_zero_byte _), rfl⟩

theorem readAt_protocol (m : Mem) (p : Pointers) : ReadAt m p (.protocol (m p.extra)) :=
  ⟨readMasked_ones m p.extra 1, rfl⟩

theorem readAt_tc (m : Mem) (p : Pointers) : ReadAt m p (.tc (m p.extra)) :=
  ⟨readMasked_ones m p.extra 1, rfl⟩

theorem readAt_meq128 (m : Mem) (p : Pointers) : ReadAt m p (.meq128 (readMeq128 m p)) := by
  refine ⟨readMasked_ones m p.extra 1, (readMasked_ones m p.rest 32).trans ?_⟩
  rw [Equation.rest, readMeq128, Vector.toList_ofFn, Vector.toList_ofFn]
  rfl

theorem readAt_meq32 (m : Mem) (p : Pointers) : ReadAt m p (.meq32 (readMeq32 m p)) := by
  refine ⟨readMasked_ones m p.extra 1, (readMasked_ones m p.rest 8).trans ?_⟩
  rw [Equation.rest, readMeq32, bytes32_read32, bytes32_read32]
  rfl

theorem readAt_ihlMeq32 (m : Mem) (p : Pointers) : ReadAt m p (.ihlMeq32 (readMeq32 m p)) :=
  ⟨(readAt_meq32 m p).extra, (readAt_meq32 m p).rest⟩

theorem readAt_metadata (m : Mem) (p : Pointers) :
    ReadAt m p (.metadata (m.read32 p.rest) (m.read32 (p.rest + 4))) :=
  ⟨rfl, (readAt_meq32 m p).rest⟩

theorem readAt_range16 (m : Mem) (p : Pointers) : ReadAt m p (.range16 (readRange16 m p)) := by
  refine ⟨readMasked_ones m p.extra 1, (readMasked_ones m p.rest 4).trans ?_⟩
  rw [Equation.rest, readRange16, bytes16_read16, bytes16_read16]
  rfl

theorem readAt_eq32 (m : Mem) (p : Pointers) :
    ReadAt m p (.eq32 { offset := m p.extra, value := m.read32 p.rest }) := by
  refine ⟨readMasked_ones m p.extra 1, (readMasked_ones m p.rest 4).trans ?_⟩
  rw [Equation.rest, bytes32_read32]
  rfl

theorem readAt_eq16 (m : Mem) (p : Pointers) :
    ReadAt m p (.eq16 { offset := m p.extra, value := m.read16 p.rest }) := by
  refine ⟨readMasked_ones m p.extra 1, ?_⟩
  show m.readMasked p.rest ([0xFF, 0xFF] ++ [0, 0]) = bytes16 (m.read16 p.rest) ++ bytes16 0
  rw [Mem.readMasked_append, bytes16_read16]
  congr 1
  · exact readMasked_ones m p.rest 2
  · simp only [Mem.readMasked, and_zero_byte]
    rfl

theorem bytes32_flowLabel (b₀ b₁ b₂ b₃ : Byte) :
    bytes32 (word32 b₀ b₁ b₂ b₃ &&& 0xFFFFF) = [b₀, b₁, b₂ &&& 0x0F, 0] := by
  rw [bytes32_eq_iff, ← BitVec.toNat_inj, BitVec.toNat_and, word32, word32, BitVec.toNat_ofNat,
    BitVec.toNat_ofNat, show (0xFFFFF : BitVec 32).toNat = 2 ^ 20 - 1 from rfl,
    Nat.and_two_pow_sub_one_eq_mod, BitVec.toNat_and,
    show (0x0F : Byte).toNat = 2 ^ 4 - 1 from rfl, Nat.and_two_pow_sub_one_eq_mod]
  have h₀ := b₀.isLt
  have h₁ := b₁.isLt
  have h₂ := b₂.isLt
  have hzero : (0 : Byte).toNat = 0 := rfl
  omega

theorem readAt_fl (m : Mem) (p : Pointers) :
    ReadAt m p (.fl (m.read32 p.rest &&& 0xfffff)) := by
  refine ⟨rfl, ?_⟩
  rw [Equation.rest, BitVec.and_assoc, BitVec.and_self, Mem.read32, bytes32_flowLabel]
  show [m p.rest &&& 0xFF, m (p.rest + 1) &&& 0xFF, m (p.rest + 2) &&& 0x0F,
    m (p.rest + 3) &&& 0] = _
  rw [and_zero_byte, and_ones_byte, and_ones_byte]

/-! ## The equations that come out -/

theorem readTos_reads (hw : HwType) (m : Mem) (atrb : RuleEq) (p : Pointers) :
    Reads m p (if atrb.tosEqPresent then
        if hw.eqValid .isPureAck then [.pureAck] else [.tos (readTos hw m atrb p).1]
      else []) (readTos hw m atrb p).2 := by
  rw [readTos, hw.tos_or_pureAck]
  cases atrb.tosEqPresent with
  | false =>
    rw [Bool.and_false, Bool.and_false]
    exact Reads.nil m p
  | true =>
    cases hw.eqValid .tosEq with
    | true => exact (readAt_tos m p).reads
    | false => exact (readAt_pureAck m p).reads

theorem readOperands_reads (hw : HwType) (m : Mem) {atrb : RuleEq} (hcounts : atrb.CountsOk)
    (p : Pointers) :
    Reads m p ((readOperands hw m atrb p).1.equations hw) (readOperands hw m atrb p).2 := by
  have hfrag (p : Pointers) : Reads m p atrb.fragPart p := by
    rw [RuleEq.fragPart]
    cases atrb.ipv4FragEqPresent with
    | true => exact ⟨rfl, rfl, rfl, rfl⟩
    | false => exact Reads.nil m p
  have hprotocol := (readTos_reads hw m atrb p).append (readIf_reads (f := .protocol)
    (r := fun p => m p.extra) atrb.protocolEqPresent atrb.protocolEq _ (readAt_protocol m _) rfl
    rfl)
  have htc := hprotocol.append (readIf_reads (f := .tc) (r := fun p => m p.extra) atrb.tcEqPresent
    atrb.tcEq _ (readAt_tc m _) rfl rfl)
  have hmeq128 := htc.append (readSlots_reads hcounts.meq128 atrb.offsetMeq128 _ (readAt_meq128 m)
    (fun _ => rfl) fun a => (Equation.meq128 a).length_rest)
  have hmeq32 := hmeq128.append (readSlots_reads hcounts.meq32 atrb.offsetMeq32 _ (readAt_meq32 m)
    (fun _ => rfl) fun a => (Equation.meq32 a).length_rest)
  have hihl := hmeq32.append (readSlots_reads hcounts.ihlMeq32 atrb.ihlOffsetMeq32 _
    (readAt_ihlMeq32 m) (fun _ => rfl) fun a => (Equation.ihlMeq32 a).length_rest)
  have hmetadata := hihl.append (readIf_reads (f := fun e : MaskEq32 => .metadata e.mask e.value)
    (r := fun p => { atrb.metadataMeq32 with
      mask := m.read32 p.rest, value := m.read32 (p.rest + 4) })
    atrb.metadataMeq32Present atrb.metadataMeq32 _ (readAt_metadata m _) rfl rfl)
  have hrange := hmetadata.append (readSlots_reads hcounts.range16 atrb.ihlOffsetRange16 _
    (readAt_range16 m) (fun _ => rfl) fun a => (Equation.range16 a).length_rest)
  have heq32 := hrange.append (readIf_reads (f := .eq32)
    (r := fun p => { offset := m p.extra, value := m.read32 p.rest })
    atrb.ihlOffsetEq32Present atrb.ihlOffsetEq32 _ (readAt_eq32 m _) rfl rfl)
  have heq16 := heq32.append (readIf_reads (f := .eq16)
    (r := fun p => { offset := m p.extra, value := m.read16 p.rest })
    atrb.ihlOffsetEq16Present atrb.ihlOffsetEq16 _ (readAt_eq16 m _) rfl rfl)
  have hfl := heq16.append (readIf_reads (f := .fl) (r := fun p => m.read32 p.rest &&& 0xfffff)
    atrb.flEqPresent atrb.flEq _ (readAt_fl m _) rfl rfl)
  exact hfl.append (hfrag _)

theorem readIf_fl_proper (m : Mem) (present : Bool) (old : BitVec 32) (p : Pointers) :
    ∀ e ∈ (if present then
      [Equation.fl (readIf present old (fun p => m.read32 p.rest &&& 0xfffff) 0 4 p).1] else []),
      e.Proper := by
  cases present with
  | false =>
    intro e he
    cases he
  | true =>
    intro e he
    obtain rfl := mem_singleton.1 he
    show (m.read32 p.rest &&& 0xfffff).toNat < 2 ^ 20
    rw [BitVec.toNat_and, show (0xfffff : BitVec 32).toNat = 2 ^ 20 - 1 from rfl,
      Nat.and_two_pow_sub_one_eq_mod]
    exact Nat.mod_lt _ (by decide)

theorem RuleEq.proper_of_flPart {hw : HwType} {e : RuleEq} (h : ∀ f ∈ e.flPart, f.Proper) :
    ∀ f ∈ e.equations hw, f.Proper := by
  intro f hf
  cases f with
  | fl v =>
    apply h
    have htos : .fl v ∉ e.tosPart hw := by
      rw [RuleEq.tosPart]
      cases e.tosEqPresent <;> cases hw.eqValid .isPureAck <;> simp
    simpa only [RuleEq.equations, mem_append, htos, RuleEq.protocolPart, RuleEq.tcPart,
      RuleEq.meq128Part, RuleEq.meq32Part, RuleEq.ihlMeq32Part, RuleEq.metadataPart,
      RuleEq.range16Part, RuleEq.eq32Part, RuleEq.eq16Part, RuleEq.fragPart, mem_map,
      mem_ite_nil_right, mem_singleton, reduceCtorEq, and_false, exists_false,
      or_false, false_or] using hf
  | _ => trivial

theorem readOperands_proper (hw : HwType) (m : Mem) (atrb : RuleEq) (p : Pointers) :
    ∀ e ∈ (readOperands hw m atrb p).1.equations hw, e.Proper :=
  RuleEq.proper_of_flPart (readIf_fl_proper m atrb.flEqPresent atrb.flEq _)

theorem RuleEq.countsOk_presence (hw : HwType) (bitmap : BitVec 16) :
    (({ ruleEqBitmap := bitmap } : RuleEq).presence hw).CountsOk := by
  have hle (b c : Bool) : 0 + b.toNat + c.toNat ≤ 2 := by
    have := b.toNat_le
    have := c.toNat_le
    omega
  exact ⟨hle _ _, hle _ _, hle _ _, hle _ _⟩

theorem parseHwRuleEq_spec (hw : HwType) (m : Mem) (addr hdrSz : ℕ) (bitmap : BitVec 16) :
    let ks := (({ ruleEqBitmap := bitmap } : RuleEq).presence hw).kinds hw
    let rest := addr + hdrSz + ((extraSigs ks).length + 7) / 8 * 8
    ∃ e p, parseHwRuleEq hw m addr hdrSz { ruleEqBitmap := bitmap } =
        some (e, (rest + (restSigs ks).length + 7) / 8 * 8 - addr) ∧
      e.ruleEqBitmap = bitmap ∧ e.kinds hw = ks ∧ (∀ f ∈ e.equations hw, f.Proper) ∧
      Reads m { extra := addr + hdrSz, rest := rest } (e.equations hw) p := by
  intro ks rest
  have hcounts := RuleEq.countsOk_presence hw bitmap
  generalize hatrb : ({ ruleEqBitmap := bitmap } : RuleEq).presence hw = atrb at hcounts
  have hle := calcExtraWrdBytes_le hcounts
  have hextra : calcExtraWrdBytes atrb = (extraSigs ks).length := by
    rw [calcExtraWrdBytes_eq hw hcounts, length_extraBytes, RuleEq.map_kind_equations, ← hatrb]
  have hreads := readOperands_reads hw m hcounts { extra := addr + hdrSz, rest := rest }
  have hkinds :
      (readOperands hw m atrb { extra := addr + hdrSz, rest := rest }).1.kinds hw = ks := by
    show atrb.kinds hw = ks
    rw [← hatrb]
  have hrest := hreads.restEnd
  rw [length_restBytes, RuleEq.map_kind_equations, hkinds] at hrest
  refine ⟨_, _, ?_, ?_, hkinds, readOperands_proper hw m atrb _, hreads⟩
  · have hp : (if calcExtraWrdBytes atrb > 8 then
          ({ extra := addr + hdrSz, rest := addr + hdrSz + 8 * 2 } : Pointers)
        else if calcExtraWrdBytes atrb > 0 then
          { extra := addr + hdrSz, rest := addr + hdrSz + 8 }
        else { extra := addr + hdrSz, rest := addr + hdrSz }) =
        { extra := addr + hdrSz, rest := rest } := by
      by_cases htwo : calcExtraWrdBytes atrb > 8
      · rw [if_pos htwo, Pointers.mk.injEq]
        exact ⟨rfl, by omega⟩
      · rw [if_neg htwo]
        by_cases hone : calcExtraWrdBytes atrb > 0
        · rw [if_pos hone, Pointers.mk.injEq]
          exact ⟨rfl, by omega⟩
        · rw [if_neg hone, Pointers.mk.injEq]
          exact ⟨rfl, by omega⟩
    rw [← hrest]
    dsimp only [parseHwRuleEq]
    rw [hatrb, if_neg (Nat.not_lt.2 hle), hp]
  · show atrb.ruleEqBitmap = bitmap
    rw [← hatrb]
    rfl

end QcomModules.Ipahal
