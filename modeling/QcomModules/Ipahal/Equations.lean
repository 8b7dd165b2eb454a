import Mathlib
import QcomModules.Library.ByteMemory

/-! The equations of filter and route rules: the bits each hardware version gives them, the
operands each has, and the structure that holds the equations of a rule. -/

namespace QcomModules.Ipahal

open Library
open List hiding Vector

/-! ## Hardware versions -/

/-- `enum ipa_fltrt_equations`. -/
inductive FltrtEquation
  | tosEq | protocolEq | tcEq
  | offsetMeq128_0 | offsetMeq128_1
  | offsetMeq32_0 | offsetMeq32_1
  | ihlOffsetMeq32_0 | ihlOffsetMeq32_1
  | metadataCompare
  | ihlOffsetRange16_0 | ihlOffsetRange16_1
  | ihlOffsetEq32 | ihlOffsetEq16
  | flEq | isFrag | isPureAck
  deriving DecidableEq, Repr

/-- The rows of `ipahal_fltrt_objs`; `ipahal_fltrt_init` copies the row before for the others. -/
inductive HwType
  | v3_0 | v4_0 | v4_2 | v4_5 | v5_0 | v5_5
  deriving DecidableEq, Repr

/-- The bits of the equations from `IPA_PROTOCOL_EQ` to `IPA_IS_FRAG`, the same in all rows. -/
def commonBitfield : FltrtEquation → ℕ
  | .protocolEq => 1
  | .tcEq => 2
  | .offsetMeq128_0 => 3
  | .offsetMeq128_1 => 4
  | .offsetMeq32_0 => 5
  | .offsetMeq32_1 => 6
  | .ihlOffsetMeq32_0 => 7
  | .ihlOffsetMeq32_1 => 8
  | .metadataCompare => 9
  | .ihlOffsetRange16_0 => 10
  | .ihlOffsetRange16_1 => 11
  | .ihlOffsetEq32 => 12
  | .ihlOffsetEq16 => 13
  | .flEq => 14
  | .isFrag => 15
  | .tosEq | .isPureAck => 0xFF

/-- `eq_bitfield`, with `0xFF` for an equation the hardware does not have. -/
def HwType.eqBitfield : HwType → FltrtEquation → ℕ
  | .v3_0, .tosEq | .v4_0, .tosEq | .v4_2, .tosEq => 0
  | .v4_5, .isPureAck | .v5_0, .isPureAck | .v5_5, .isPureAck => 0
  | _, eq => commonBitfield eq

def HwType.eqValid (hw : HwType) (eq : FltrtEquation) : Bool := hw.eqBitfield eq != 0xFF

/-- `IPA_GET_RULE_EQ_BIT_PTRN`, as a 16-bit mask. -/
def HwType.eqBitPtrn (hw : HwType) (eq : FltrtEquation) : BitVec 16 :=
  BitVec.twoPow 16 (hw.eqBitfield eq)

/-- `eq_bitmap & IPA_GET_RULE_EQ_BIT_PTRN(eq)`. -/
def HwType.hasEq (hw : HwType) (bitmap : BitVec 16) (eq : FltrtEquation) : Bool :=
  bitmap.getLsbD (hw.eqBitfield eq)

theorem HwType.tos_or_pureAck (hw : HwType) :
    hw.eqValid .isPureAck = !hw.eqValid .tosEq := by
  cases hw <;> rfl

/-! ## Equations -/

structure MaskEq128 where
  offset : Byte := 0
  mask : Vector Byte 16 := .replicate 16 0
  value : Vector Byte 16 := .replicate 16 0
  deriving DecidableEq, Repr

structure MaskEq32 where
  offset : Byte := 0
  mask : BitVec 32 := 0
  value : BitVec 32 := 0
  deriving DecidableEq, Repr

structure RangeEq16 where
  offset : Byte := 0
  rangeLow : BitVec 16 := 0
  rangeHigh : BitVec 16 := 0
  deriving DecidableEq, Repr

/-- `struct ipa_ipfltr_eq_32`. -/
structure Eq32 where
  offset : Byte := 0
  value : BitVec 32 := 0
  deriving DecidableEq, Repr

/-- `struct ipa_ipfltr_eq_16`. -/
structure Eq16 where
  offset : Byte := 0
  value : BitVec 16 := 0
  deriving DecidableEq, Repr

/-- An equation with its operands. -/
inductive Equation
  | pureAck
  | tos (value : Byte)
  | protocol (value : Byte)
  | tc (value : Byte)
  | meq128 (eq : MaskEq128)
  | meq32 (eq : MaskEq32)
  | ihlMeq32 (eq : MaskEq32)
  | metadata (mask value : BitVec 32)
  | range16 (eq : RangeEq16)
  | eq32 (eq : Eq32)
  | eq16 (eq : Eq16)
  | fl (value : BitVec 32)
  | frag
  deriving DecidableEq, Repr

inductive EquationKind
  | pureAck | tos | protocol | tc | meq128 | meq32 | ihlMeq32 | metadata | range16 | eq32 | eq16
  | fl | frag
  deriving DecidableEq, Repr

def Equation.kind : Equation → EquationKind
  | .pureAck => .pureAck
  | .tos _ => .tos
  | .protocol _ => .protocol
  | .tc _ => .tc
  | .meq128 _ => .meq128
  | .meq32 _ => .meq32
  | .ihlMeq32 _ => .ihlMeq32
  | .metadata _ _ => .metadata
  | .range16 _ => .range16
  | .eq32 _ => .eq32
  | .eq16 _ => .eq16
  | .fl _ => .fl
  | .frag => .frag

def Equation.extra : Equation → List Byte
  | .pureAck => [0]
  | .tos v | .protocol v | .tc v => [v]
  | .meq128 eq => [eq.offset]
  | .meq32 eq | .ihlMeq32 eq => [eq.offset]
  | .range16 eq => [eq.offset]
  | .eq32 eq => [eq.offset]
  | .eq16 eq => [eq.offset]
  | .metadata _ _ | .fl _ | .frag => []

def Equation.rest : Equation → List Byte
  | .pureAck | .tos _ | .protocol _ | .tc _ | .frag => []
  | .meq128 eq =>
    eq.mask.toList.take 8 ++ eq.value.toList.take 8 ++ eq.mask.toList.drop 8 ++
      eq.value.toList.drop 8
  | .meq32 eq | .ihlMeq32 eq => bytes32 eq.mask ++ bytes32 eq.value
  | .metadata mask value => bytes32 mask ++ bytes32 value
  | .range16 eq => bytes16 eq.rangeHigh ++ bytes16 eq.rangeLow
  | .eq32 eq => bytes32 eq.value
  | .eq16 eq => bytes16 eq.value ++ bytes16 0
  | .fl v => bytes32 (v &&& 0xFFFFF)

/-- The bits of an equation's extra byte that mean something. -/
def EquationKind.extraSig : EquationKind → List Byte
  | .pureAck => [0]
  | .metadata | .fl | .frag => []
  | _ => [0xFF]

/-- The bits of an equation's operands that mean something. -/
def EquationKind.restSig : EquationKind → List Byte
  | .pureAck | .tos | .protocol | .tc | .frag => []
  | .meq128 => List.replicate 32 0xFF
  | .meq32 | .ihlMeq32 | .metadata => List.replicate 8 0xFF
  | .range16 | .eq32 => List.replicate 4 0xFF
  | .eq16 => [0xFF, 0xFF, 0, 0]
  | .fl => [0xFF, 0xFF, 0x0F, 0]

/-- A flow label has 20 bits. -/
def Equation.Proper : Equation → Prop
  | .fl v => v.toNat < 2 ^ 20
  | _ => True

theorem Equation.length_extra (e : Equation) : e.extra.length = e.kind.extraSig.length := by
  cases e <;> rfl

theorem Equation.length_rest (e : Equation) : e.rest.length = e.kind.restSig.length := by
  cases e with
  | meq128 eq =>
    simp only [Equation.rest, length_append, length_take, length_drop,
      Vector.length_toList]
    rfl
  | _ => rfl

/-! ## The equations of a rule -/

/-- `struct ipa_ipfltri_rule_eq`, all zero by default. -/
structure RuleEq where
  ruleEqBitmap : BitVec 16 := 0
  tosEqPresent : Bool := false
  tosEq : Byte := 0
  protocolEqPresent : Bool := false
  protocolEq : Byte := 0
  numIhlOffsetRange16 : ℕ := 0
  ihlOffsetRange16 : Vector RangeEq16 2 := .replicate 2 {}
  numOffsetMeq32 : ℕ := 0
  offsetMeq32 : Vector MaskEq32 2 := .replicate 2 {}
  tcEqPresent : Bool := false
  tcEq : Byte := 0
  flEqPresent : Bool := false
  flEq : BitVec 32 := 0
  ihlOffsetEq16Present : Bool := false
  ihlOffsetEq16 : Eq16 := {}
  ihlOffsetEq32Present : Bool := false
  ihlOffsetEq32 : Eq32 := {}
  numIhlOffsetMeq32 : ℕ := 0
  ihlOffsetMeq32 : Vector MaskEq32 2 := .replicate 2 {}
  numOffsetMeq128 : ℕ := 0
  offsetMeq128 : Vector MaskEq128 2 := .replicate 2 {}
  metadataMeq32Present : Bool := false
  metadataMeq32 : MaskEq32 := {}
  ipv4FragEqPresent : Bool := false
  deriving DecidableEq, Repr

/-- The equation for the type of service or, where the hardware has it instead, for pure
acknowledgements: `tos_eq_present` stands for both. -/
def RuleEq.tosPart (hw : HwType) (e : RuleEq) : List Equation :=
  if e.tosEqPresent then
    if hw.eqValid .isPureAck then [.pureAck] else [.tos e.tosEq]
  else []

def RuleEq.protocolPart (e : RuleEq) : List Equation :=
  if e.protocolEqPresent then [.protocol e.protocolEq] else []

def RuleEq.tcPart (e : RuleEq) : List Equation :=
  if e.tcEqPresent then [.tc e.tcEq] else []

def RuleEq.meq128Part (e : RuleEq) : List Equation :=
  (e.offsetMeq128.toList.take e.numOffsetMeq128).map .meq128

def RuleEq.meq32Part (e : RuleEq) : List Equation :=
  (e.offsetMeq32.toList.take e.numOffsetMeq32).map .meq32

def RuleEq.ihlMeq32Part (e : RuleEq) : List Equation :=
  (e.ihlOffsetMeq32.toList.take e.numIhlOffsetMeq32).map .ihlMeq32

def RuleEq.metadataPart (e : RuleEq) : List Equation :=
  if e.metadataMeq32Present then [.metadata e.metadataMeq32.mask e.metadataMeq32.value] else []

def RuleEq.range16Part (e : RuleEq) : List Equation :=
  (e.ihlOffsetRange16.toList.take e.numIhlOffsetRange16).map .range16

def RuleEq.eq32Part (e : RuleEq) : List Equation :=
  if e.ihlOffsetEq32Present then [.eq32 e.ihlOffsetEq32] else []

def RuleEq.eq16Part (e : RuleEq) : List Equation :=
  if e.ihlOffsetEq16Present then [.eq16 e.ihlOffsetEq16] else []

def RuleEq.flPart (e : RuleEq) : List Equation :=
  if e.flEqPresent then [.fl e.flEq] else []

def RuleEq.fragPart (e : RuleEq) : List Equation :=
  if e.ipv4FragEqPresent then [.frag] else []

/-- The equations the structure describes, in the order of their bits. -/
def RuleEq.equations (hw : HwType) (e : RuleEq) : List Equation :=
  e.tosPart hw ++ e.protocolPart ++ e.tcPart ++ e.meq128Part ++ e.meq32Part ++ e.ihlMeq32Part ++
    e.metadataPart ++ e.range16Part ++ e.eq32Part ++ e.eq16Part ++ e.flPart ++ e.fragPart

/-- The kinds of the equations of a rule, by its flags and counts. -/
def RuleEq.kinds (hw : HwType) (e : RuleEq) : List EquationKind :=
  (if e.tosEqPresent then
    if hw.eqValid .isPureAck then [EquationKind.pureAck] else [EquationKind.tos] else []) ++
    (if e.protocolEqPresent then [EquationKind.protocol] else []) ++
    (if e.tcEqPresent then [EquationKind.tc] else []) ++
    List.replicate (min e.numOffsetMeq128 2) EquationKind.meq128 ++
    List.replicate (min e.numOffsetMeq32 2) EquationKind.meq32 ++
    List.replicate (min e.numIhlOffsetMeq32 2) EquationKind.ihlMeq32 ++
    (if e.metadataMeq32Present then [EquationKind.metadata] else []) ++
    List.replicate (min e.numIhlOffsetRange16 2) EquationKind.range16 ++
    (if e.ihlOffsetEq32Present then [EquationKind.eq32] else []) ++
    (if e.ihlOffsetEq16Present then [EquationKind.eq16] else []) ++
    (if e.flEqPresent then [EquationKind.fl] else []) ++
    (if e.ipv4FragEqPresent then [EquationKind.frag] else [])

theorem map_kind_if (c : Bool) (e : Equation) :
    (if c then [e] else []).map Equation.kind = if c then [e.kind] else [] := by
  cases c <;> rfl

theorem map_kind_slots {α : Type} (slots : Vector α 2) (n : ℕ) {f : α → Equation}
    {k : EquationKind} (h : ∀ a, (f a).kind = k) :
    ((slots.toList.take n).map f).map Equation.kind = List.replicate (min n 2) k := by
  have hconst : Equation.kind ∘ f = fun _ => k := funext h
  rw [map_map, hconst, map_const', length_take, Vector.length_toList]

theorem RuleEq.map_kind_equations (hw : HwType) (e : RuleEq) :
    (e.equations hw).map Equation.kind = e.kinds hw := by
  have htos : (e.tosPart hw).map Equation.kind =
      if e.tosEqPresent then if hw.eqValid .isPureAck then [.pureAck] else [.tos] else [] := by
    rw [RuleEq.tosPart]
    cases e.tosEqPresent with
    | false => rfl
    | true => cases hw.eqValid .isPureAck <;> rfl
  simp only [RuleEq.equations, map_append, htos, RuleEq.protocolPart, RuleEq.tcPart,
    RuleEq.metadataPart, RuleEq.eq32Part, RuleEq.eq16Part, RuleEq.flPart, RuleEq.fragPart,
    map_kind_if, RuleEq.meq128Part, RuleEq.meq32Part, RuleEq.ihlMeq32Part, RuleEq.range16Part]
  rw [map_kind_slots (k := .meq128) _ _ fun _ => rfl, map_kind_slots (k := .meq32) _ _ fun _ => rfl,
    map_kind_slots (k := .ihlMeq32) _ _ fun _ => rfl,
    map_kind_slots (k := .range16) _ _ fun _ => rfl]
  rfl

/-! ## Streams of bytes -/

def extraBytes (es : List Equation) : List Byte := es.flatMap Equation.extra

def restBytes (es : List Equation) : List Byte := es.flatMap Equation.rest

def extraSigs (ks : List EquationKind) : List Byte := ks.flatMap EquationKind.extraSig

def restSigs (ks : List EquationKind) : List Byte := ks.flatMap EquationKind.restSig

@[simp] theorem extraBytes_append (es fs : List Equation) :
    extraBytes (es ++ fs) = extraBytes es ++ extraBytes fs := flatMap_append

@[simp] theorem restBytes_append (es fs : List Equation) :
    restBytes (es ++ fs) = restBytes es ++ restBytes fs := flatMap_append

theorem length_extraBytes (es : List Equation) :
    (extraBytes es).length = (extraSigs (es.map Equation.kind)).length := by
  induction es with
  | nil => rfl
  | cons e es ih =>
    rw [extraBytes, flatMap_cons, length_append, Equation.length_extra, map_cons,
      extraSigs, flatMap_cons, length_append]
    exact congrArg _ ih

theorem length_restBytes (es : List Equation) :
    (restBytes es).length = (restSigs (es.map Equation.kind)).length := by
  induction es with
  | nil => rfl
  | cons e es ih =>
    rw [restBytes, flatMap_cons, length_append, Equation.length_rest, map_cons,
      restSigs, flatMap_cons, length_append]
    exact congrArg _ ih

theorem MaskEq128.eq_of_bytes {a b : MaskEq128} (hextra : a.offset = b.offset)
    (hrest : (Equation.meq128 a).rest = (Equation.meq128 b).rest) : a = b := by
  obtain ⟨offset, mask, value⟩ := a
  obtain ⟨offset', mask', value'⟩ := b
  obtain ⟨h, hvalueHigh⟩ := append_inj hrest (by
    simp only [length_append, length_take, length_drop, Vector.length_toList])
  obtain ⟨h, hmaskHigh⟩ := append_inj h (by
    simp only [length_append, length_take, Vector.length_toList])
  obtain ⟨hmaskLow, hvalueLow⟩ := append_inj h (by
    simp only [length_take, Vector.length_toList])
  have hmask : mask.toList = mask'.toList := by
    rw [← take_append_drop 8 mask.toList, ← take_append_drop 8 mask'.toList, hmaskLow,
      hmaskHigh]
  have hvalue : value.toList = value'.toList := by
    rw [← take_append_drop 8 value.toList, ← take_append_drop 8 value'.toList, hvalueLow,
      hvalueHigh]
  rw [Vector.toList_inj.1 hmask, Vector.toList_inj.1 hvalue, show offset = offset' from hextra]

theorem words_inj {v w v' w' : BitVec 32} (h : bytes32 v ++ bytes32 w = bytes32 v' ++ bytes32 w') :
    v = v' ∧ w = w' := by
  obtain ⟨hv, hw⟩ := append_inj h rfl
  exact ⟨bytes32_inj hv, bytes32_inj hw⟩

theorem MaskEq32.eq_of_bytes {a b : MaskEq32} (hextra : a.offset = b.offset)
    (hrest : (Equation.meq32 a).rest = (Equation.meq32 b).rest) : a = b := by
  obtain ⟨offset, mask, value⟩ := a
  obtain ⟨offset', mask', value'⟩ := b
  obtain ⟨rfl, rfl⟩ := words_inj hrest
  rw [show offset = offset' from hextra]

theorem and_flowLabel {v : BitVec 32} (h : v.toNat < 2 ^ 20) : v &&& 0xFFFFF = v := by
  apply BitVec.eq_of_toNat_eq
  rw [BitVec.toNat_and, show (0xFFFFF : BitVec 32).toNat = 2 ^ 20 - 1 from rfl,
    Nat.and_two_pow_sub_one_eq_mod, Nat.mod_eq_of_lt h]

theorem Equation.eq_of_bytes {e f : Equation} (hkind : e.kind = f.kind)
    (hextra : e.extra = f.extra) (hrest : e.rest = f.rest) (he : e.Proper) (hf : f.Proper) :
    e = f := by
  cases e <;> cases f <;> try cases hkind
  case pureAck | frag => rfl
  case tos | protocol | tc => rw [(cons.inj hextra).1]
  case meq128 => rw [MaskEq128.eq_of_bytes (cons.inj hextra).1 hrest]
  case meq32 | ihlMeq32 => rw [MaskEq32.eq_of_bytes (cons.inj hextra).1 hrest]
  case metadata =>
    obtain ⟨rfl, rfl⟩ := words_inj hrest
    rfl
  case range16 a b =>
    obtain ⟨hhigh, hlow⟩ := append_inj hrest rfl
    obtain ⟨offset, low, high⟩ := a
    obtain ⟨offset', low', high'⟩ := b
    rw [show offset = offset' from (cons.inj hextra).1, show low = low' from bytes16_inj hlow,
      show high = high' from bytes16_inj hhigh]
  case eq32 a b =>
    obtain ⟨offset, value⟩ := a
    obtain ⟨offset', value'⟩ := b
    rw [show offset = offset' from (cons.inj hextra).1,
      show value = value' from bytes32_inj hrest]
  case eq16 a b =>
    obtain ⟨offset, value⟩ := a
    obtain ⟨offset', value'⟩ := b
    rw [show offset = offset' from (cons.inj hextra).1,
      show value = value' from bytes16_inj (append_inj hrest rfl).1]
  case fl v w =>
    have h : v &&& 0xFFFFF = w &&& 0xFFFFF := bytes32_inj hrest
    rw [and_flowLabel he, and_flowLabel hf] at h
    rw [h]

theorem eq_of_bytes {es fs : List Equation}
    (hkinds : es.map Equation.kind = fs.map Equation.kind)
    (hextra : extraBytes es = extraBytes fs) (hrest : restBytes es = restBytes fs)
    (hes : ∀ e ∈ es, e.Proper) (hfs : ∀ f ∈ fs, f.Proper) : es = fs := by
  induction es generalizing fs with
  | nil => exact (map_eq_nil_iff.1 hkinds.symm).symm
  | cons e es ih =>
    cases fs with
    | nil => cases hkinds
    | cons f fs =>
      obtain ⟨hkind, hkinds⟩ := cons.inj hkinds
      have hlen : e.extra.length = f.extra.length := by
        rw [e.length_extra, f.length_extra, hkind]
      have hlen' : e.rest.length = f.rest.length := by
        rw [e.length_rest, f.length_rest, hkind]
      obtain ⟨hextra, hextras⟩ := append_inj hextra hlen
      obtain ⟨hrest, hrests⟩ := append_inj hrest hlen'
      rw [Equation.eq_of_bytes hkind hextra hrest (hes e mem_cons_self)
        (hfs f mem_cons_self), ih hkinds hextras hrests
        (fun e he => hes e (mem_cons_of_mem _ he))
        fun f hf => hfs f (mem_cons_of_mem _ hf)]

end QcomModules.Ipahal
