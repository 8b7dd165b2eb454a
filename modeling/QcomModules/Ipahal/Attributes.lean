import QcomModules.Ipahal.EquationBytes

/-! The attributes of a rule, and the blocks the functions that turn them into equations are made
of. -/

namespace QcomModules.Ipahal

open Library

/-! ## Attributes -/

/-- The bits of `attrib_mask`, in their order. -/
inductive FltAttrib
  | tos | protocol | srcAddr | dstAddr | srcPortRange | dstPortRange | type | code | spi | srcPort
  | dstPort | tc | flowLabel | nextHdr | metaData | fragment | tosMasked | macSrcAddrEtherII
  | macDstAddrEtherII | macSrcAddr802_3 | macDstAddr802_3 | macEtherType | macDstAddrL2tp | tcpSyn
  | tcpSynL2tp | l2tpInnerIpType | l2tpInnerIpv4DstAddr | isPureAck | vlanId | macSrcAddr802_1Q
  | macDstAddr802_1Q | l2tpUdpInnerMacDstAddr
  deriving DecidableEq, Repr

/-- The bits of `ext_attrib_mask`, in their order. -/
inductive ExtAttrib
  | l2tpUdpTcpSyn | l2tpUdpInnerEtherType | mtu | l2tpUdpInnerNextHdr | nextHdr
  deriving DecidableEq, Repr

structure AttribV4 where
  tos : Byte := 0
  protocol : Byte := 0
  srcAddr : BitVec 32 := 0
  srcAddrMask : BitVec 32 := 0
  dstAddr : BitVec 32 := 0
  dstAddrMask : BitVec 32 := 0
  deriving DecidableEq, Repr

structure AttribV6 where
  tc : Byte := 0
  flowLabel : BitVec 32 := 0
  nextHdr : Byte := 0
  srcAddr : Vector (BitVec 32) 4 := .replicate 4 0
  srcAddrMask : Vector (BitVec 32) 4 := .replicate 4 0
  dstAddr : Vector (BitVec 32) 4 := .replicate 4 0
  dstAddrMask : Vector (BitVec 32) 4 := .replicate 4 0
  deriving DecidableEq, Repr

/-- `struct ipa_rule_attrib`. The two views of the union are kept side by side: what holds for all
values of both holds for those that share their bytes. -/
structure RuleAttrib where
  attribMask : BitVec 32 := 0
  srcPortLo : BitVec 16 := 0
  srcPortHi : BitVec 16 := 0
  dstPortLo : BitVec 16 := 0
  dstPortHi : BitVec 16 := 0
  type : Byte := 0
  code : Byte := 0
  tosValue : Byte := 0
  tosMask : Byte := 0
  spi : BitVec 32 := 0
  srcPort : BitVec 16 := 0
  dstPort : BitVec 16 := 0
  metaData : BitVec 32 := 0
  metaDataMask : BitVec 32 := 0
  srcMacAddr : Vector Byte 6 := .replicate 6 0
  srcMacAddrMask : Vector Byte 6 := .replicate 6 0
  dstMacAddr : Vector Byte 6 := .replicate 6 0
  dstMacAddrMask : Vector Byte 6 := .replicate 6 0
  etherType : BitVec 16 := 0
  v4 : AttribV4 := {}
  v6 : AttribV6 := {}
  vlanId : BitVec 16 := 0
  payloadLength : BitVec 16 := 0
  extAttribMask : BitVec 32 := 0
  l2tpUdpNextHdr : Byte := 0
  deriving DecidableEq, Repr

/-- `attrib_mask & ...`. -/
def RuleAttrib.has (a : RuleAttrib) (attrib : FltAttrib) : Bool :=
  a.attribMask.getLsbD attrib.ctorIdx

/-- `ext_attrib_mask & ...`. -/
def RuleAttrib.hasExt (a : RuleAttrib) (attrib : ExtAttrib) : Bool :=
  a.extAttribMask.getLsbD attrib.ctorIdx

inductive IpType
  | v4 | v6
  deriving DecidableEq, Repr

def ruleGenerationErrCheck (ipt : IpType) (a : RuleAttrib) : Bool :=
  match ipt with
  | .v4 => a.has .nextHdr || a.has .tc || a.has .flowLabel
  | .v6 => a.has .tos || a.has .protocol

/-! ## Blocks -/

/-- The equations of a kind that the tables `ipa3_0_ofst_meq32` and so on list, or the only one. -/
def EquationKind.slots : EquationKind → List FltrtEquation
  | .pureAck => [.isPureAck]
  | .tos => [.tosEq]
  | .protocol => [.protocolEq]
  | .tc => [.tcEq]
  | .meq128 => [.offsetMeq128_0, .offsetMeq128_1]
  | .meq32 => [.offsetMeq32_0, .offsetMeq32_1]
  | .ihlMeq32 => [.ihlOffsetMeq32_0, .ihlOffsetMeq32_1]
  | .metadata => [.metadataCompare]
  | .range16 => [.ihlOffsetRange16_0, .ihlOffsetRange16_1]
  | .eq32 => [.ihlOffsetEq32]
  | .eq16 => [.ihlOffsetEq16]
  | .fl => [.flEq]
  | .frag => [.isFrag]

/-- What a block adds to a rule: an equation, or a byte among the extra bytes that belongs to
none. -/
inductive Item
  | eqn (e : Equation)
  | stray (b : Byte)
  deriving DecidableEq, Repr

/-- One `if` of a generator, with the condition it is taken under. -/
inductive Block
  /-- an equation with a bit of its own, an error where the hardware does not have it -/
  | fixed (on valid : Bool) (slot : FltrtEquation) (e : Equation)
  /-- equations that take the next slots of their kind: an error when these ran out or the
  parameters are bad -/
  | take (on ok : Bool) (items : List Item)
  /-- the type of service by its own equation, where there is one; `marks`: sets `tos_done` -/
  | tosEq (on marks : Bool) (value : Byte)
  /-- the type of service by a general equation, unless done or ran out -/
  | tosTake (on : Bool) (e : Equation)
  /-- an error when the type of service found no equation -/
  | tosFail (on : Bool)
  /-- two slots taken but both equations written to the first one -/
  | overwrite (on : Bool) (first second : Equation)
  deriving DecidableEq, Repr

/-- What a generator writes to: how it puts an equation into the slot of an index, a byte that
belongs to none, and two equations one over the other. -/
structure Target (σ : Type) where
  put : ℕ → Equation → σ → σ
  stray : Byte → σ → σ
  overwrite : ℕ → Equation → Equation → σ → σ

/-- The locals of a generator: the bits of the rule, the counters of the slots in use. -/
structure Gen (σ : Type) where
  enRule : BitVec 16 := 0
  used : EquationKind → ℕ := fun _ => 0
  tosDone : Bool := false
  out : σ

variable {σ : Type}

def Gen.use (g : Gen σ) (k : EquationKind) : EquationKind → ℕ :=
  fun l => if l = k then g.used l + 1 else g.used l

/-- `if (IPA_IS_RAN_OUT_OF_EQ(...)) goto err; *en_rule |= ...; ...; ofst++`. -/
def Gen.take (hw : HwType) (T : Target σ) (g : Gen σ) : Item → Option (Gen σ)
  | .eqn e => do
    let slot ← e.kind.slots[g.used e.kind]?
    return { g with
      enRule := g.enRule ||| hw.eqBitPtrn slot
      used := g.use e.kind
      out := T.put (g.used e.kind) e g.out }
  | .stray b => some { g with out := T.stray b g.out }

def Block.run (hw : HwType) (T : Target σ) (g : Gen σ) : Block → Option (Gen σ)
  | .fixed on valid slot e =>
    if on then
      if valid then
        some { g with enRule := g.enRule ||| hw.eqBitPtrn slot, out := T.put 0 e g.out }
      else none
    else some g
  | .take on ok items =>
    if on then if ok then items.foldlM (Gen.take hw T) g else none else some g
  | .tosEq on marks value =>
    if on && !g.tosDone && hw.eqValid .tosEq then
      some { g with
        enRule := g.enRule ||| hw.eqBitPtrn .tosEq
        tosDone := marks
        out := T.put 0 (.tos value) g.out }
    else some g
  | .tosTake on e =>
    if on && !g.tosDone then
      match g.take hw T (.eqn e) with
      | some g => some { g with tosDone := true }
      | none => some g
    else some g
  | .tosFail on => if on && !g.tosDone then none else some g
  | .overwrite on first second =>
    if on then do
      let slot ← first.kind.slots[g.used first.kind]?
      let slot' ← first.kind.slots[g.used first.kind + 1]?
      return { g with
        enRule := g.enRule ||| hw.eqBitPtrn slot ||| hw.eqBitPtrn slot'
        used := fun l => if l = first.kind then g.used l + 2 else g.used l
        out := T.overwrite (g.used first.kind) first second g.out }
    else some g

def runBlocks (hw : HwType) (T : Target σ) (blocks : List Block) (g : Gen σ) : Option (Gen σ) :=
  blocks.foldlM (Block.run hw T) g

/-! ## Two targets -/

variable {τ : Type}

/-- What is written to the one target says what is written to the other. -/
structure Target.Maps (T : Target σ) (T' : Target τ) (φ : σ → τ) : Prop where
  put : ∀ i e s, T'.put i e (φ s) = φ (T.put i e s)
  stray : ∀ b s, T'.stray b (φ s) = φ (T.stray b s)
  overwrite : ∀ i e f s, T'.overwrite i e f (φ s) = φ (T.overwrite i e f s)

def Gen.map (φ : σ → τ) (g : Gen σ) : Gen τ where
  enRule := g.enRule
  used := g.used
  tosDone := g.tosDone
  out := φ g.out

theorem foldlM_map {α : Type} {φ : σ → τ} {f : σ → α → Option σ} {f' : τ → α → Option τ}
    (h : ∀ s a, f' (φ s) a = (f s a).map φ) (as : List α) (s : σ) :
    as.foldlM f' (φ s) = (as.foldlM f s).map φ := by
  induction as generalizing s with
  | nil => rfl
  | cons a as ih =>
    rw [List.foldlM_cons, List.foldlM_cons, h]
    cases f s a with
    | none => rfl
    | some s => exact ih s

variable {T : Target σ} {T' : Target τ} {φ : σ → τ}

theorem Gen.take_map (h : T.Maps T' φ) (hw : HwType) (g : Gen σ) (i : Item) :
    (g.map φ).take hw T' i = (g.take hw T i).map (Gen.map φ) := by
  cases i with
  | eqn e =>
    simp only [Gen.take, Gen.map, h.put]
    cases e.kind.slots[g.used e.kind]? <;> rfl
  | stray b => simp only [Gen.take, Gen.map, h.stray, Option.map_some]

theorem Block.run_map (h : T.Maps T' φ) (hw : HwType) (g : Gen σ) (b : Block) :
    b.run hw T' (g.map φ) = (b.run hw T g).map (Gen.map φ) := by
  cases b with
  | fixed on valid slot e =>
    simp only [Block.run, Gen.map, h.put]
    cases on <;> cases valid <;> rfl
  | take on ok items =>
    simp only [Block.run, foldlM_map (Gen.take_map h hw)]
    cases on <;> cases ok <;> rfl
  | tosEq on marks value =>
    simp only [Block.run, Gen.map, h.put]
    cases on && !g.tosDone && hw.eqValid .tosEq <;> rfl
  | tosTake on e =>
    have hdone : (g.map φ).tosDone = g.tosDone := rfl
    simp only [Block.run, Gen.take_map h, hdone]
    cases on && !g.tosDone <;> cases g.take hw T (.eqn e) <;> rfl
  | tosFail on =>
    have hdone : (g.map φ).tosDone = g.tosDone := rfl
    simp only [Block.run, hdone]
    cases on && !g.tosDone <;> rfl
  | overwrite on first second =>
    simp only [Block.run, Gen.map, h.overwrite]
    cases on with
    | false => rfl
    | true =>
      cases first.kind.slots[g.used first.kind]? <;>
        cases first.kind.slots[g.used first.kind + 1]? <;> rfl

theorem runBlocks_map (h : T.Maps T' φ) (hw : HwType) (blocks : List Block) (g : Gen σ) :
    runBlocks hw T' blocks (g.map φ) = (runBlocks hw T blocks g).map (Gen.map φ) :=
  foldlM_map (Block.run_map h hw) blocks g

end QcomModules.Ipahal
