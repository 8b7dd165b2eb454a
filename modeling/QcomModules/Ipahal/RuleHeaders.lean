import QcomModules.Ipahal.EquationLayout
import QcomModules.Ipahal.RuleBody

/-! The headers of IPAv5.5 rules and their parsers, and the round trip of equations through the
rules of all versions. -/

namespace QcomModules.Ipahal

open Library

/-! ## Parsers of IPAv5.5 -/

inductive RtHdrType
  | none | raw | procCtx
  deriving DecidableEq, Repr

structure RtRuleEntry where
  dstPipeIdx : BitVec 8 := 0
  hdrLcl : Bool := false
  hdrOfst : BitVec 32 := 0
  hdrType : RtHdrType := .none
  priority : BitVec 8 := 0
  retainHdr : Bool := false
  id : BitVec 10 := 0
  cntIdx : BitVec 8 := 0
  closeAggrIrqMod : Bool := false
  ttlUpdate : Bool := false
  qosClass : BitVec 6 := 0
  skipIngress : Bool := false
  eqAttrib : RuleEq := {}
  ruleSize : ℕ := 0

/-- `ipa_rt_parse_hw_rule_ipav5_5`, with the bit fields of `ipa5_5_rt_rule_hw_hdr`. -/
def parseRtRule55 (m : Mem) (addr : ℕ) (rule : RtRuleEntry) : Option RtRuleEntry :=
  let word := m.read64 addr
  -- table terminator: empty table
  if word = 0 then some { rule with ruleSize := 0 }
  else
    let procCtx := word.getLsbD 61
    let extHdr := word.getLsbD 40
    let ext := m.read16 (addr + 8)
    let rule := { rule with
      dstPipeIdx := word.extractLsb' 16 8
      hdrType := if procCtx then .procCtx else .raw
      hdrOfst := (word.extractLsb' 52 9).setWidth 32 <<< (if procCtx then 5 else 2)
      hdrLcl := !word.getLsbD 63
      priority := word.extractLsb' 32 8
      retainHdr := word.getLsbD 62
      cntIdx := word.extractLsb' 24 8
      id := word.extractLsb' 42 10
      closeAggrIrqMod := word.getLsbD 41
      ttlUpdate := if extHdr then ext.getLsbD 0 else rule.ttlUpdate
      qosClass := if extHdr then ext.extractLsb' 1 6 else rule.qosClass
      skipIngress := if extHdr then ext.getLsbD 7 else rule.skipIngress }
    (parseHwRuleEq .v5_5 m addr (8 + extHdr.toNat * 2)
      { rule.eqAttrib with ruleEqBitmap := word.extractLsb' 0 16 }).map fun (atrb, size) =>
        { rule with eqAttrib := atrb, ruleSize := size }

/-- `struct ipahal_flt_rule_entry`; an action that is not one of the four is kept as it is. -/
structure FltRuleEntry where
  action : BitVec 5 := 0
  rtTblIdx : BitVec 8 := 0
  retainHdr : Bool := false
  priority : BitVec 8 := 0
  id : BitVec 10 := 0
  pdnIdx : BitVec 4 := 0
  setMetadata : Bool := false
  cntIdx : BitVec 8 := 0
  closeAggrIrqMod : Bool := false
  eqAttribType : Bool := false
  ttlUpdate : Bool := false
  qosClass : BitVec 6 := 0
  eqAttrib : RuleEq := {}
  ruleSize : ℕ := 0

/-- `ipa_flt_parse_hw_rule_ipav5_5`, with the bit fields of `ipa5_5_flt_rule_hw_hdr`. -/
def parseFltRule55 (m : Mem) (addr : ℕ) (rule : FltRuleEntry) : Option FltRuleEntry :=
  let word := m.read64 addr
  -- table terminator: empty table
  if word = 0 then some { rule with ruleSize := 0 }
  else
    let extHdr := word.getLsbD 40
    let ext := m.read16 (addr + 8)
    let rule := { rule with
      action := word.extractLsb' 52 5
      rtTblIdx := word.extractLsb' 16 8
      retainHdr := word.getLsbD 62
      priority := word.extractLsb' 32 8
      id := word.extractLsb' 42 10
      pdnIdx := word.extractLsb' 57 4
      setMetadata := word.getLsbD 61
      cntIdx := word.extractLsb' 24 8
      closeAggrIrqMod := word.getLsbD 41
      eqAttribType := true
      ttlUpdate := if extHdr then ext.getLsbD 0 else rule.ttlUpdate
      qosClass := if extHdr then ext.extractLsb' 1 6 else rule.qosClass }
    (parseHwRuleEq .v5_5 m addr (8 + extHdr.toNat * 2)
      { rule.eqAttrib with ruleEqBitmap := word.extractLsb' 0 16 }).map fun (atrb, size) =>
        { rule with eqAttrib := atrb, ruleSize := size }

/-! ## Round trips -/

/-- What an IPAv5.5 rule is encoded from. -/
inductive Encoder55
  | fromEq
  | fromAttrib (ipt : IpType) (a : RuleAttrib)

inductive Parser55
  | rt | flt

/-- A way from equations to bytes and back: behind an eight-byte header, for each version, or as
an IPAv5.5 rule with or without the extended header. -/
inductive RuleForm
  | eightByte (hw : HwType)
  | v55 (encoder : Encoder55) (parser : Parser55) (extHdr : Bool)

def RuleForm.hw : RuleForm → HwType
  | .eightByte hw => hw
  | .v55 _ _ _ => .v5_5

def RuleForm.extHdr : RuleForm → Bool
  | .eightByte _ => false
  | .v55 _ _ extHdr => extHdr

/-- The bits of the rule, the memory and the end of the rule, for a rule at `addr`. -/
def RuleForm.encode (e : RuleEq) (m : Mem) (addr : ℕ) : RuleForm → Option (BitVec 16 × Mem × ℕ)
  | .eightByte hw =>
    (generateHwRuleBdyFromEq hw e m (addr + 8)).map fun out => (e.ruleEqBitmap, out)
  | .v55 .fromEq _ extHdr =>
    (generateHwRuleBdyFromEq55 .v5_5 e m (addr + (8 + extHdr.toNat * 2)) extHdr).map fun out =>
      (e.ruleEqBitmap, out)
  | .v55 (.fromAttrib ipt a) _ extHdr =>
    generateHwRuleBdy55 .v5_5 ipt a m (addr + (8 + extHdr.toNat * 2)) extHdr

/-- The equations and the size that the parser gets, for the bits of a rule at `addr`. -/
def RuleForm.parse (bitmap : BitVec 16) (m : Mem) (addr : ℕ) : RuleForm → Option (RuleEq × ℕ)
  | .eightByte hw => parseHwRuleEq hw m addr 8 { ruleEqBitmap := bitmap }
  | .v55 _ .rt _ => (parseRtRule55 m addr {}).map fun rule => (rule.eqAttrib, rule.ruleSize)
  | .v55 _ .flt _ => (parseFltRule55 m addr {}).map fun rule => (rule.eqAttrib, rule.ruleSize)

/-- The attributes, where the rule is written from these, ask for the bits and the equations of the
rule, each kind in its order. -/
def RuleForm.Describes (e : RuleEq) : RuleForm → Prop
  | .v55 (.fromAttrib ipt a) _ _ => ∃ items,
    attribItems .v5_5 ipt a = some (e.ruleEqBitmap, items) ∧
      ∀ k : EquationKind, (items.filterMap Item.equation?).filter (fun f => f.kind = k) =
        (e.equations .v5_5).filter fun f => f.kind = k
  | _ => True

/-- The equations in the order in which the rule is written from them. -/
def RuleForm.items (e : RuleEq) : RuleForm → List Item
  | .eightByte hw => (e.equations hw).map .eqn
  | .v55 .fromEq _ _ => (e.equations .v5_5).map .eqn
  | .v55 (.fromAttrib ipt a) _ _ => ((attribItems .v5_5 ipt a).map Prod.snd).getD []

/-- The order in which the rule is written does not show: what stands for the equations in this
order stands for them in the order of their bits. A byte that belongs to none of them may follow
the extra bytes where it takes no further word, but not behind the extended header. -/
def RuleForm.InBitOrder (e : RuleEq) (form : RuleForm) : Prop :=
  if form.extHdr then itemWords (form.items e) = Words.put {} (e.equations form.hw)
  else e.WordsAgree form.hw (itemWords (form.items e))

/-- The extra bytes are those of the equations in the order of their bits. -/
def RuleForm.ExtraInBitOrder (e : RuleEq) (form : RuleForm) : Prop :=
  List.zipWith (· &&& ·) (itemWords (form.items e)).extra (extraSigs (e.kinds form.hw)) =
    extraBytes (e.equations form.hw)

/-- The header of an IPAv5.5 rule holds its bits and the presence of the extended header; it is not
zero, as no rule has the number zero. -/
def RuleForm.HeaderOk (bitmap : BitVec 16) (word : BitVec 64) : RuleForm → Prop
  | .eightByte _ => True
  | .v55 _ _ extHdr => word ≠ 0 ∧ word.extractLsb' 0 16 = bitmap ∧ word.getLsbD 40 = extHdr

/-- Behind a header at any aligned address the rule is encoded, and what the parser makes of it are
the same equations and the number of bytes produced. -/
def RuleForm.RoundTrips (form : RuleForm) (e : RuleEq) : Prop :=
  ∀ (m : Mem) (addr : ℕ), addr % 8 = 0 → form.HeaderOk e.ruleEqBitmap (m.read64 addr) →
    ∃ m' stop, form.encode e m addr = some (e.ruleEqBitmap, m', stop) ∧
      GivesBack form.hw e addr stop (form.parse e.ruleEqBitmap m' addr)

theorem Mem.read64_congr {m m' : Mem} {addr : ℕ} (h : ∀ k < addr + 8, m' k = m k) :
    m'.read64 addr = m.read64 addr := by
  rw [Mem.read64, Mem.read64, Mem.read32, Mem.read32, Mem.read32, Mem.read32]
  repeat rw [h _ (by omega)]

variable {m : Mem} {addr : ℕ} {bitmap : BitVec 16} {form : RuleForm}

theorem parseRtRule55_eq {extHdr : Bool} (hword : m.read64 addr ≠ 0)
    (hbitmap : (m.read64 addr).extractLsb' 0 16 = bitmap)
    (hext : (m.read64 addr).getLsbD 40 = extHdr) :
    (parseRtRule55 m addr {}).map (fun rule => (rule.eqAttrib, rule.ruleSize)) =
      parseHwRuleEq .v5_5 m addr (8 + extHdr.toNat * 2) { ruleEqBitmap := bitmap } := by
  subst hbitmap hext
  rw [parseRtRule55]
  dsimp only
  rw [if_neg hword, Option.map_map]
  exact Option.map_id'

theorem parseFltRule55_eq {extHdr : Bool} (hword : m.read64 addr ≠ 0)
    (hbitmap : (m.read64 addr).extractLsb' 0 16 = bitmap)
    (hext : (m.read64 addr).getLsbD 40 = extHdr) :
    (parseFltRule55 m addr {}).map (fun rule => (rule.eqAttrib, rule.ruleSize)) =
      parseHwRuleEq .v5_5 m addr (8 + extHdr.toNat * 2) { ruleEqBitmap := bitmap } := by
  subst hbitmap hext
  rw [parseFltRule55]
  dsimp only
  rw [if_neg hword, Option.map_map]
  exact Option.map_id'

theorem RuleForm.encode_eq {e : RuleEq} (hagrees : e.BitmapAgrees form.hw)
    (hform : form.Describes e) (m : Mem) (haddr : addr % 8 = 0) :
    form.encode e m addr = some (e.ruleEqBitmap,
      (itemWords (form.items e)).layOut m (addr + (8 + form.extHdr.toNat * 2))) := by
  have hbuf (extHdr : Bool) : (addr + (8 + extHdr.toNat * 2)) % 8 = extHdr.toNat * 2 := by
    cases extHdr with
    | false => rw [Bool.toNat_false]; omega
    | true => rw [Bool.toNat_true]; omega
  cases form with
  | eightByte hw =>
    rw [RuleForm.items, itemWords_eqns]
    exact congrArg (Option.map _) (generateHwRuleBdyFromEq_eq hw hagrees.countsOk m (hbuf false))
  | v55 encoder parser extHdr =>
    cases encoder with
    | fromEq =>
      rw [RuleForm.items, itemWords_eqns]
      exact congrArg (Option.map _)
        (generateHwRuleBdyFromEq55_eq .v5_5 hagrees.countsOk m extHdr (hbuf extHdr))
    | fromAttrib ipt a =>
      obtain ⟨items, hasked, -⟩ := hform
      rw [RuleForm.encode, generateHwRuleBdy55, generateWords_eq, RuleForm.items, hasked]
      simp only [Option.map_some, Option.getD_some]
      rw [Words.copy_eq_layOut _ _ (hbuf extHdr)]
      rfl

theorem RuleForm.parse_eq (hheader : form.HeaderOk bitmap (m.read64 addr)) :
    form.parse bitmap m addr =
      parseHwRuleEq form.hw m addr (8 + form.extHdr.toNat * 2) { ruleEqBitmap := bitmap } := by
  cases form with
  | eightByte hw => rfl
  | v55 encoder parser extHdr =>
    obtain ⟨hword, hbitmap, hext⟩ := hheader
    cases parser with
    | rt => exact parseRtRule55_eq hword hbitmap hext
    | flt => exact parseFltRule55_eq hword hbitmap hext

def headerWord (bitmap : BitVec 16) (extHdr : Bool) : BitVec 64 :=
  (if extHdr then 0x500#32 else 0x400#32) ++ (0#16 ++ bitmap)

def headerMem (bitmap : BitVec 16) (extHdr : Bool) : Mem := fun k =>
  if k < 4 then (bytes32 (0#16 ++ bitmap)).getD k 0
  else (bytes32 (if extHdr then 0x500#32 else 0x400#32)).getD (k - 4) 0

theorem read64_headerMem (bitmap : BitVec 16) (extHdr : Bool) :
    (headerMem bitmap extHdr).read64 0 = headerWord bitmap extHdr := by
  have hlow : (headerMem bitmap extHdr).read32 0 = 0#16 ++ bitmap :=
    ((bytes32_eq_iff (0#16 ++ bitmap) _ _ _ _).1 rfl).symm
  have hhigh : (headerMem bitmap extHdr).read32 (0 + 4) = if extHdr then 0x500#32 else 0x400#32 :=
    ((bytes32_eq_iff (if extHdr then 0x500#32 else 0x400#32) _ _ _ _).1 rfl).symm
  rw [Mem.read64, hlow, hhigh, headerWord]

theorem getLsbD_headerWord (bitmap : BitVec 16) (extHdr : Bool) (i : ℕ) :
    (headerWord bitmap extHdr).getLsbD i =
      if i < 32 then (0#16 ++ bitmap).getLsbD i
      else (if extHdr then 0x500#32 else 0x400#32).getLsbD (i - 32) := BitVec.getLsbD_append

theorem RuleForm.headerOk_headerWord (form : RuleForm) (bitmap : BitVec 16) :
    form.HeaderOk bitmap (headerWord bitmap form.extHdr) := by
  cases form with
  | eightByte hw => trivial
  | v55 encoder parser extHdr =>
    have hid : (headerWord bitmap extHdr).getLsbD 42 = true := by
      rw [getLsbD_headerWord]
      cases extHdr <;> rfl
    refine ⟨fun hzero => ?_, ?_, ?_⟩
    · change headerWord bitmap extHdr = 0 at hzero
      rw [hzero] at hid
      cases hid
    · apply BitVec.eq_of_getLsbD_eq
      intro i hi
      rw [BitVec.getLsbD_extractLsb', Nat.zero_add, getLsbD_headerWord, if_pos (by omega),
        BitVec.getLsbD_append, if_pos hi, decide_eq_true hi, Bool.true_and]
    · exact (getLsbD_headerWord bitmap extHdr 40).trans (by cases extHdr <;> rfl)

/-! ## What is written for the attributes -/

theorem perm_of_filter_kind {es fs : List Equation} (h : ∀ k : EquationKind,
      es.filter (fun f => f.kind = k) = fs.filter fun f => f.kind = k) : es.Perm fs := by
  refine List.perm_iff_count.2 fun f => ?_
  have hcount (l : List Equation) : (l.filter fun x => x.kind = f.kind).count f = l.count f :=
    List.count_filter (decide_eq_true rfl)
  rw [← hcount es, h, hcount]

theorem rest_itemWords (items : List Item) :
    (itemWords items).rest = restBytes (items.filterMap Item.equation?) := by
  induction items with
  | nil => rfl
  | cons item items ih =>
    cases item with
    | eqn f => exact congrArg (f.rest ++ ·) ih
    | stray b => exact ih

theorem length_extra_itemWords (items : List Item) :
    (extraBytes (items.filterMap Item.equation?)).length ≤ (itemWords items).extra.length := by
  induction items with
  | nil => exact Nat.le_refl _
  | cons item items ih =>
    cases item with
    | eqn f =>
      have hwritten : (itemWords (.eqn f :: items)).extra = f.extra ++ (itemWords items).extra := rfl
      have hasked : extraBytes ((.eqn f :: items).filterMap Item.equation?) =
        f.extra ++ extraBytes (items.filterMap Item.equation?) := rfl
      rw [hwritten, hasked, List.length_append, List.length_append]
      omega
    | stray b => exact Nat.le_succ_of_le ih

variable {e : RuleEq}

theorem RuleForm.Describes.length_items (hform : form.Describes e) :
    (extraBytes (e.equations form.hw)).length ≤ (itemWords (form.items e)).extra.length ∧
      (itemWords (form.items e)).rest.length = (restBytes (e.equations form.hw)).length := by
  have heqns (es : List Equation) :
      (extraBytes es).length ≤ (itemWords (es.map .eqn)).extra.length ∧
        (itemWords (es.map .eqn)).rest.length = (restBytes es).length := by
    rw [itemWords_eqns, Words.extra_put, Words.rest_put]
    exact ⟨Nat.le_refl _, rfl⟩
  cases form with
  | eightByte hw => exact heqns _
  | v55 encoder parser extHdr =>
    cases encoder with
    | fromEq => exact heqns _
    | fromAttrib ipt a =>
      obtain ⟨items, hasked, hkinds⟩ := hform
      have hperm := perm_of_filter_kind hkinds
      rw [RuleForm.items, hasked, Option.map_some, Option.getD_some, rest_itemWords]
      refine ⟨?_, (hperm.flatMap_right _).length_eq⟩
      exact (hperm.flatMap_right Equation.extra).length_eq ▸ length_extra_itemWords items

/-! ## Reading back -/

/-- What is read back behind a header of the rule at the address. -/
def RuleForm.ReadsBack (form : RuleForm) (e : RuleEq) (m : Mem) (addr : ℕ) : Prop :=
  let out := (itemWords (form.items e)).layOut m (addr + (8 + form.extHdr.toNat * 2))
  GivesBack form.hw e addr out.2
    (parseHwRuleEq form.hw out.1 addr (8 + form.extHdr.toNat * 2)
      { ruleEqBitmap := e.ruleEqBitmap })

theorem RuleForm.roundTrips_iff (hagrees : e.BitmapAgrees form.hw) (hform : form.Describes e) :
    form.RoundTrips e ↔ ∀ (m : Mem) (addr : ℕ), addr % 8 = 0 →
      form.HeaderOk e.ruleEqBitmap (m.read64 addr) → form.ReadsBack e m addr := by
  have hback (m : Mem) {addr : ℕ} (haddr : addr % 8 = 0)
      (hheader : form.HeaderOk e.ruleEqBitmap (m.read64 addr)) :
      (∃ m' stop, form.encode e m addr = some (e.ruleEqBitmap, m', stop) ∧
        GivesBack form.hw e addr stop (form.parse e.ruleEqBitmap m' addr)) ↔
      form.ReadsBack e m addr := by
    rw [RuleForm.encode_eq hagrees hform m haddr, RuleForm.ReadsBack]
    have hsame := @Mem.read64_congr m ((itemWords (form.items e)).layOut m
      (addr + (8 + form.extHdr.toNat * 2))).1 addr fun k hk => Words.layOut_of_lt _ m (by omega)
    rw [← hsame] at hheader
    rw [← RuleForm.parse_eq hheader]
    constructor
    · rintro ⟨m', stop, heq, hback⟩
      rw [(Prod.mk.inj (Option.some.inj heq)).2]
      exact hback
    · intro hback
      exact ⟨_, _, rfl, hback⟩
  exact forall_congr' fun m => forall_congr' fun addr => forall_congr' fun haddr =>
    forall_congr' fun hheader => hback m haddr hheader

theorem RuleForm.roundTrips_iff_of_forall (hagrees : e.BitmapAgrees form.hw)
    (hform : form.Describes e) {p : Prop}
    (h : ∀ (m : Mem) (addr : ℕ), addr % 8 = 0 → (form.ReadsBack e m addr ↔ p)) :
    form.RoundTrips e ↔ p := by
  rw [RuleForm.roundTrips_iff hagrees hform]
  constructor
  · intro hback
    have hheader := form.headerOk_headerWord e.ruleEqBitmap
    rw [← read64_headerMem] at hheader
    exact (h _ 0 rfl).1 (hback _ 0 rfl hheader)
  · intro hp m addr haddr _
    exact (h m addr haddr).2 hp

section Conditions

variable (hagrees : e.BitmapAgrees form.hw) (hproper : ∀ f ∈ e.equations form.hw, f.Proper)
  (hform : form.Describes e)

include hagrees hproper hform

theorem RuleForm.roundTrips_iff_inBitOrder (hext : form.extHdr = false) :
    form.RoundTrips e ↔ form.InBitOrder e := by
  refine RuleForm.roundTrips_iff_of_forall hagrees hform fun m addr haddr => ?_
  obtain ⟨hextra, hrest⟩ := hform.length_items
  rw [RuleForm.ReadsBack, RuleForm.InBitOrder, hext, if_neg Bool.false_ne_true]
  exact givesBack_words_iff hagrees hproper _ m
    (show (addr + (8 + false.toNat * 2)) % 8 = 0 by rw [Bool.toNat_false]; omega) hextra hrest

theorem RuleForm.roundTrips_iff_foundBehindExtHdr (hext : form.extHdr = true) :
    form.RoundTrips e ↔ e.FoundBehindExtHdr form.hw (itemWords (form.items e)) := by
  refine RuleForm.roundTrips_iff_of_forall hagrees hform fun m addr haddr => ?_
  obtain ⟨hextra, hrest⟩ := hform.length_items
  rw [RuleForm.ReadsBack, hext]
  exact givesBack_extHdr_iff hagrees hproper _ m
    (show (addr + (8 + true.toNat * 2)) % 8 = 2 by rw [Bool.toNat_true]; omega) hextra hrest

theorem RuleForm.RoundTrips.extraInBitOrder (h : form.RoundTrips e) : form.ExtraInBitOrder e := by
  cases hext : form.extHdr with
  | false =>
    have horder := (RuleForm.roundTrips_iff_inBitOrder hagrees hproper hform hext).1 h
    rw [RuleForm.InBitOrder, hext, if_neg Bool.false_ne_true] at horder
    exact horder.extra
  | true => exact ((RuleForm.roundTrips_iff_foundBehindExtHdr hagrees hproper hform hext).1 h).extra

end Conditions

/-- Without the extended header the equations come back exactly where the order in which they are
written does not show. With it they come back where the parser, which rounds differently two bytes
into the word, finds them; equations in the order of their bits it finds exactly where all operands
are zero and the number of their words hides the difference. -/
theorem equations_round_trip_iff (form : RuleForm) (e : RuleEq)
    (hagrees : e.BitmapAgrees form.hw) (hfl : e.flEq.toNat < 2 ^ 20) (hform : form.Describes e) :
    (form.extHdr = false → (form.RoundTrips e ↔ form.InBitOrder e)) ∧
    (form.extHdr = true →
      (form.RoundTrips e ↔ e.FoundBehindExtHdr form.hw (itemWords (form.items e)))) ∧
    (form.InBitOrder e → (form.RoundTrips e ↔
      (form.extHdr = true → e.ZeroOperands form.hw ∧ e.FittingWords form.hw))) := by
  have hproper : ∀ f ∈ e.equations form.hw, f.Proper := RuleEq.proper_of_flPart fun f hf => by
    rw [RuleEq.flPart, List.mem_ite_nil_right, List.mem_singleton] at hf
    rw [hf.2]
    exact hfl
  refine ⟨RuleForm.roundTrips_iff_inBitOrder hagrees hproper hform,
    RuleForm.roundTrips_iff_foundBehindExtHdr hagrees hproper hform, fun horder => ?_⟩
  cases hext : form.extHdr with
  | false =>
    refine iff_of_true ?_ fun h => absurd h Bool.false_ne_true
    exact (RuleForm.roundTrips_iff_inBitOrder hagrees hproper hform hext).2 horder
  | true =>
    rw [RuleForm.InBitOrder, hext, if_pos rfl] at horder
    rw [RuleForm.roundTrips_iff_foundBehindExtHdr hagrees hproper hform hext, horder,
      RuleEq.foundBehindExtHdr_put_iff hagrees]
    exact ⟨fun h _ => h, fun h => h rfl⟩

theorem RuleForm.inBitOrder_of_items {form : RuleForm} {e : RuleEq}
    (hagrees : e.BitmapAgrees form.hw)
    (h : form.items e = (e.equations form.hw).map .eqn) : form.InBitOrder e := by
  rw [RuleForm.InBitOrder, h, itemWords_eqns]
  split
  · rfl
  · exact RuleEq.wordsAgree_put hagrees

def sourceRule : RuleEq :=
  { ruleEqBitmap := 0x20
    numOffsetMeq32 := 1
    offsetMeq32 := #v[{ offset := 12, mask := 0xFFFFFFFF, value := 0xC0A80001 }, {}] }

theorem sourceRule_bitmapAgrees : sourceRule.BitmapAgrees .v5_5 :=
  ⟨rfl, rfl, rfl, rfl, rfl, rfl, rfl, rfl, rfl, rfl, rfl, rfl⟩

def sourceAttrib : RuleAttrib :=
  { attribMask := 0x4, v4 := { srcAddr := 0xC0A80001, srcAddrMask := 0xFFFFFFFF } }

theorem equations_round_trip_iff_sourceRule :
    ((RuleForm.v55 .fromEq .flt true).RoundTrips sourceRule ↔
      (true = true → sourceRule.ZeroOperands .v5_5 ∧ sourceRule.FittingWords .v5_5)) ∧
    ((RuleForm.v55 (.fromAttrib .v4 sourceAttrib) .rt false).RoundTrips sourceRule ↔
      (false = true → sourceRule.ZeroOperands .v5_5 ∧ sourceRule.FittingWords .v5_5)) :=
  ⟨(equations_round_trip_iff (.v55 .fromEq .flt true) sourceRule sourceRule_bitmapAgrees
      (by decide) trivial).2.2 (RuleForm.inBitOrder_of_items sourceRule_bitmapAgrees rfl),
    (equations_round_trip_iff (.v55 (.fromAttrib .v4 sourceAttrib) .rt false) sourceRule
      sourceRule_bitmapAgrees (by decide) ⟨[.eqn (.meq32 sourceRule.offsetMeq32[0])],
        by decide +kernel, fun k => by cases k <;> rfl⟩).2.2
      (RuleForm.inBitOrder_of_items sourceRule_bitmapAgrees (by decide +kernel))⟩

/-- A rule for the inner MAC address and the inner Ethernet type of a UDP tunnel. -/
def innerRule : RuleEq :=
  { ruleEqBitmap := 0x1A0
    numOffsetMeq32 := 1
    offsetMeq32 := #v[{ offset := 76, mask := 0x08000000, value := 0x08000000 }, {}]
    numIhlOffsetMeq32 := 2
    ihlOffsetMeq32 := #v[{ offset := 24 }, { offset := 28 }] }

def innerAttrib : RuleAttrib :=
  { attribMask := 0x80000000, etherType := 0x0800, extAttribMask := 0x2 }

theorem innerAttrib_describes (parser : Parser55) (extHdr : Bool) :
    (RuleForm.v55 (.fromAttrib .v4 innerAttrib) parser extHdr).Describes innerRule :=
  ⟨[.eqn (.ihlMeq32 { offset := 24 }), .eqn (.ihlMeq32 { offset := 28 }),
    .eqn (.meq32 innerRule.offsetMeq32[0])], by decide +kernel,
    fun k => by cases k <;> decide +kernel⟩

/-- The equation for the Ethernet type is written last and read first. -/
theorem innerAttrib_not_roundTrips (parser : Parser55) (extHdr : Bool) :
    ¬ (RuleForm.v55 (.fromAttrib .v4 innerAttrib) parser extHdr).RoundTrips innerRule := by
  have hproper : ∀ f ∈ innerRule.equations .v5_5, f.Proper :=
    RuleEq.proper_of_flPart fun f hf => absurd hf List.not_mem_nil
  have hagrees : innerRule.BitmapAgrees .v5_5 :=
    ⟨rfl, rfl, rfl, rfl, rfl, rfl, rfl, rfl, rfl, rfl, rfl, rfl⟩
  have hswapped : ¬ (RuleForm.v55 (.fromAttrib .v4 innerAttrib) parser extHdr).ExtraInBitOrder
      innerRule := by
    rw [RuleForm.ExtraInBitOrder, RuleForm.items, RuleForm.hw]
    decide +kernel
  exact fun h => hswapped (RuleForm.RoundTrips.extraInBitOrder hagrees hproper
    (innerAttrib_describes parser extHdr) h)

def protocolRule : RuleEq :=
  { ruleEqBitmap := 0x2, protocolEqPresent := true, protocolEq := 6 }

/-- With the extended header the rule has 16 bytes, of which the parser makes 24. -/
theorem not_equations_round_trip :
    ¬ ∀ (form : RuleForm) (e : RuleEq), e.BitmapAgrees form.hw → e.flEq.toNat < 2 ^ 20 →
      form.Describes e → form.RoundTrips e := by
  intro h
  obtain ⟨m', stop, hencode, e', size, hparse, hsize, -, -⟩ :=
    h (.v55 .fromEq .flt true) protocolRule
      ⟨rfl, rfl, rfl, rfl, rfl, rfl, rfl, rfl, rfl, rfl, rfl, rfl⟩ (by decide) trivial
      (headerMem 0x2 true) 0 rfl (by
        rw [read64_headerMem]
        exact RuleForm.headerOk_headerWord (.v55 .fromEq .flt true) 0x2)
  obtain ⟨-, hout⟩ := Prod.mk.inj (Option.some.inj hencode)
  obtain ⟨rfl, rfl⟩ := Prod.mk.inj hout
  have hread := congrArg (Option.map Prod.snd) hparse
  rw [show Option.map Prod.snd _ = some 24 by decide +kernel] at hread
  have hsize24 : size = 24 := (Option.some.inj hread).symm
  rw [hsize24] at hsize
  revert hsize
  decide +kernel

end QcomModules.Ipahal
