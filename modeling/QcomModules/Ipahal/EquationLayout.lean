import QcomModules.Ipahal.ParseRule

/-! The parser on what the encoder has laid out: where the two agree on the place of the operands,
and what is left of the equations where they do not. -/

namespace QcomModules.Ipahal

open Library List

/-! ## Bitmap, flags and counts -/

/-- The bitmap of the rule says what its flags and counts say. -/
structure RuleEq.BitmapAgrees (hw : HwType) (e : RuleEq) : Prop where
  tos : e.tosEqPresent = ((hw.eqValid .isPureAck && hw.hasEq e.ruleEqBitmap .isPureAck) ||
    (hw.eqValid .tosEq && hw.hasEq e.ruleEqBitmap .tosEq))
  protocol : e.protocolEqPresent = hw.hasEq e.ruleEqBitmap .protocolEq
  tc : e.tcEqPresent = hw.hasEq e.ruleEqBitmap .tcEq
  meq128 : e.numOffsetMeq128 = (hw.hasEq e.ruleEqBitmap .offsetMeq128_0).toNat +
    (hw.hasEq e.ruleEqBitmap .offsetMeq128_1).toNat
  meq32 : e.numOffsetMeq32 = (hw.hasEq e.ruleEqBitmap .offsetMeq32_0).toNat +
    (hw.hasEq e.ruleEqBitmap .offsetMeq32_1).toNat
  ihlMeq32 : e.numIhlOffsetMeq32 = (hw.hasEq e.ruleEqBitmap .ihlOffsetMeq32_0).toNat +
    (hw.hasEq e.ruleEqBitmap .ihlOffsetMeq32_1).toNat
  metadata : e.metadataMeq32Present = hw.hasEq e.ruleEqBitmap .metadataCompare
  range16 : e.numIhlOffsetRange16 = (hw.hasEq e.ruleEqBitmap .ihlOffsetRange16_0).toNat +
    (hw.hasEq e.ruleEqBitmap .ihlOffsetRange16_1).toNat
  eq32 : e.ihlOffsetEq32Present = hw.hasEq e.ruleEqBitmap .ihlOffsetEq32
  eq16 : e.ihlOffsetEq16Present = hw.hasEq e.ruleEqBitmap .ihlOffsetEq16
  fl : e.flEqPresent = hw.hasEq e.ruleEqBitmap .flEq
  frag : e.ipv4FragEqPresent = hw.hasEq e.ruleEqBitmap .isFrag

variable {hw : HwType} {e : RuleEq}

theorem RuleEq.BitmapAgrees.countsOk (h : e.BitmapAgrees hw) : e.CountsOk := by
  have hle (b c : Bool) : b.toNat + c.toNat ≤ 2 := by
    have := b.toNat_le
    have := c.toNat_le
    omega
  exact ⟨h.range16 ▸ hle _ _, h.meq32 ▸ hle _ _, h.ihlMeq32 ▸ hle _ _, h.meq128 ▸ hle _ _⟩

theorem RuleEq.BitmapAgrees.kinds (h : e.BitmapAgrees hw) :
    (({ ruleEqBitmap := e.ruleEqBitmap } : RuleEq).presence hw).kinds hw = e.kinds hw := by
  simp only [RuleEq.kinds, RuleEq.presence, Bool.false_or, Nat.zero_add, h.tos, h.protocol, h.tc,
    h.meq128, h.meq32, h.ihlMeq32, h.metadata, h.range16, h.eq32, h.eq16, h.fl, h.frag]

/-! ## Bytes under their masks -/

theorem Equation.extra_masked (f : Equation) :
    List.zipWith (· &&& ·) f.extra f.kind.extraSig = f.extra := by
  cases f with
  | metadata | fl | frag => rfl
  | pureAck => rfl
  | _ => exact congrArg (fun b => [b]) (and_ones_byte _)

theorem zipWith_ones (bs : List Byte) (n : ℕ) (h : bs.length = n) :
    List.zipWith (· &&& ·) bs (List.replicate n 0xFF) = bs := by
  induction bs generalizing n with
  | nil => rfl
  | cons b bs ih =>
    subst h
    rw [length_cons, replicate_succ, zipWith_cons_cons, and_ones_byte, ih _ rfl]

theorem Equation.rest_masked (f : Equation) :
    List.zipWith (· &&& ·) f.rest f.kind.restSig = f.rest := by
  have hlen := f.length_rest
  cases f with
  | eq16 eq =>
    show zipWith (· &&& ·) (bytes16 eq.value ++ bytes16 0) ([0xFF, 0xFF] ++ [0, 0]) = _
    rw [zipWith_append (by rfl)]
    exact congrArg₂ (· ++ ·) (zipWith_ones _ 2 rfl) rfl
  | fl v =>
    obtain ⟨b₀, b₁, b₂, b₃, hv⟩ : ∃ b₀ b₁ b₂ b₃, v = word32 b₀ b₁ b₂ b₃ :=
      ⟨_, _, _, _, (bytes32_eq_iff v _ _ _ _).1 rfl⟩
    rw [hv, Equation.rest, bytes32_flowLabel]
    show [b₀ &&& 0xFF, b₁ &&& 0xFF, b₂ &&& 0x0F &&& 0x0F, 0 &&& 0] = _
    rw [and_ones_byte, and_ones_byte, and_zero_byte, BitVec.and_assoc, BitVec.and_self]
  | pureAck | tos | protocol | tc | frag => rfl
  | meq128 | meq32 | ihlMeq32 | metadata | range16 | eq32 =>
    exact zipWith_ones _ _ (hlen.trans length_replicate)

theorem extraBytes_masked (es : List Equation) :
    List.zipWith (· &&& ·) (extraBytes es) (extraSigs (es.map Equation.kind)) = extraBytes es := by
  induction es with
  | nil => rfl
  | cons f es ih =>
    have h : zipWith (· &&& ·) (f.extra ++ extraBytes es)
        (f.kind.extraSig ++ extraSigs (es.map Equation.kind)) = f.extra ++ extraBytes es := by
      rw [zipWith_append f.length_extra, f.extra_masked, ih]
    exact h

theorem restBytes_masked (es : List Equation) :
    List.zipWith (· &&& ·) (restBytes es) (restSigs (es.map Equation.kind)) = restBytes es := by
  induction es with
  | nil => rfl
  | cons f es ih =>
    have h : zipWith (· &&& ·) (f.rest ++ restBytes es)
        (f.kind.restSig ++ restSigs (es.map Equation.kind)) = f.rest ++ restBytes es := by
      rw [zipWith_append f.length_rest, f.rest_masked, ih]
    exact h

theorem length_restSigs_mod (ks : List EquationKind) : (restSigs ks).length % 4 = 0 := by
  induction ks with
  | nil => rfl
  | cons k ks ih =>
    have hk : k.restSig.length % 4 = 0 := by cases k <;> rfl
    have h : (restSigs (k :: ks)).length = k.restSig.length + (restSigs ks).length :=
      length_append
    omega

/-! ## Giving the equations back -/

/-- The parser's result holds the equations of the rule that ends at `stop`. -/
def GivesBack (hw : HwType) (e : RuleEq) (addr stop : ℕ) (parsed : Option (RuleEq × ℕ)) : Prop :=
  ∃ e' size, parsed = some (e', size) ∧ addr + size = stop ∧
    e'.ruleEqBitmap = e.ruleEqBitmap ∧ e'.equations hw = e.equations hw

variable {addr a : ℕ} {bs sigs : List Byte} {m : Mem}

theorem givesBack_iff (hagrees : e.BitmapAgrees hw) (hproper : ∀ f ∈ e.equations hw, f.Proper)
    (m : Mem) {hdrSz stop : ℕ} :
    GivesBack hw e addr stop (parseHwRuleEq hw m addr hdrSz { ruleEqBitmap := e.ruleEqBitmap }) ↔
      (addr + hdrSz + (calcExtraWrdBytes e + 7) / 8 * 8 +
          (restBytes (e.equations hw)).length + 7) / 8 * 8 = stop ∧
        m.readMasked (addr + hdrSz) (extraSigs (e.kinds hw)) = extraBytes (e.equations hw) ∧
        m.readMasked (addr + hdrSz + (calcExtraWrdBytes e + 7) / 8 * 8) (restSigs (e.kinds hw)) =
          restBytes (e.equations hw) := by
  have hspec := parseHwRuleEq_spec hw m addr hdrSz e.ruleEqBitmap
  rw [hagrees.kinds] at hspec
  have hextra : (extraSigs (e.kinds hw)).length = calcExtraWrdBytes e := by
    rw [calcExtraWrdBytes_eq hw hagrees.countsOk, length_extraBytes, RuleEq.map_kind_equations]
  have hrest : (restSigs (e.kinds hw)).length = (restBytes (e.equations hw)).length := by
    rw [length_restBytes, RuleEq.map_kind_equations]
  dsimp only at hspec
  rw [hextra, hrest] at hspec
  obtain ⟨e', p, hparse, hbitmap, hkinds, hproper', hreads⟩ := hspec
  have hextra' := hreads.extra
  have hrest' := hreads.rest
  rw [RuleEq.map_kind_equations, hkinds] at hextra' hrest'
  rw [GivesBack, hparse]
  constructor
  · rintro ⟨e'', size, heq, hsize, -, hequations⟩
    obtain ⟨rfl, rfl⟩ := Prod.mk.inj (Option.some.inj heq)
    rw [hequations] at hextra' hrest'
    exact ⟨by omega, hextra', hrest'⟩
  · rintro ⟨hstop, hextra, hrest⟩
    refine ⟨e', _, rfl, by omega, hbitmap, eq_of_bytes ?_ ?_ ?_ hproper' hproper⟩
    · rw [RuleEq.map_kind_equations, RuleEq.map_kind_equations, hkinds]
    · rw [← hextra', hextra]
    · rw [← hrest', hrest]

/-! ## Where the operands stand -/

theorem getElem?_padTo64 {start j : ℕ} (h : j < (padTo64 start bs).length) :
    (padTo64 start bs)[j]? = some (bs.getD j 0) := by
  obtain ⟨n, hn⟩ := padTo64_eq start bs
  rw [hn] at h ⊢
  rw [length_append, length_replicate] at h
  by_cases hj : j < bs.length
  · rw [getElem?_append_left hj, getD_eq_getElem?_getD, getElem?_eq_getElem hj,
      Option.getD_some]
  · rw [getElem?_append_right (by omega), getElem?_replicate, if_pos (by omega),
      getD_eq_default _ _ (by omega)]

theorem Words.layOut_readMasked_extra (w : Words) (m : Mem) (buf : ℕ)
    (hlen : sigs.length ≤ w.extra.length) :
    (w.layOut m buf).1.readMasked buf sigs = List.zipWith (· &&& ·) w.extra sigs := by
  have hholds := w.layOut_extra m buf
  obtain ⟨n, hn⟩ := padTo64_eq buf w.extra
  rw [hn] at hholds
  exact hholds.left.readMasked hlen

theorem Words.layOut_readMasked_rest (w : Words) (m : Mem) (buf : ℕ)
    (hlen : sigs.length ≤ w.rest.length) :
    (w.layOut m buf).1.readMasked ((buf + w.extra.length + 7) / 8 * 8) sigs =
      List.zipWith (· &&& ·) w.rest sigs := by
  have hholds := w.layOut_rest m buf
  obtain ⟨n, hn⟩ := padTo64_eq ((buf + w.extra.length + 7) / 8 * 8) w.rest
  rw [hn] at hholds
  exact hholds.left.readMasked hlen

/-- The extra bytes and the operands that a parser finds in the words are those of the equations,
where the extra bytes are as many words. -/
structure RuleEq.WordsAgree (hw : HwType) (e : RuleEq) (w : Words) : Prop where
  extra : List.zipWith (· &&& ·) w.extra (extraSigs (e.kinds hw)) = extraBytes (e.equations hw)
  words : (w.extra.length + 7) / 8 = (calcExtraWrdBytes e + 7) / 8
  rest : List.zipWith (· &&& ·) w.rest (restSigs (e.kinds hw)) = restBytes (e.equations hw)

theorem Words.extra_put (es : List Equation) : (Words.put {} es).extra = extraBytes es := rfl

theorem Words.rest_put (es : List Equation) : (Words.put {} es).rest = restBytes es := rfl

theorem RuleEq.wordsAgree_put (hagrees : e.BitmapAgrees hw) :
    e.WordsAgree hw (Words.put {} (e.equations hw)) := by
  have hextra := extraBytes_masked (e.equations hw)
  have hrest := restBytes_masked (e.equations hw)
  rw [RuleEq.map_kind_equations] at hextra hrest
  constructor
  · rw [Words.extra_put, hextra]
  · rw [Words.extra_put, calcExtraWrdBytes_eq hw hagrees.countsOk]
  · rw [Words.rest_put, hrest]

theorem givesBack_words_iff (hagrees : e.BitmapAgrees hw)
    (hproper : ∀ f ∈ e.equations hw, f.Proper) (w : Words) (m : Mem) {hdrSz : ℕ}
    (hbuf : (addr + hdrSz) % 8 = 0)
    (hextra : (extraBytes (e.equations hw)).length ≤ w.extra.length)
    (hrest : w.rest.length = (restBytes (e.equations hw)).length) :
    GivesBack hw e addr (w.layOut m (addr + hdrSz)).2
        (parseHwRuleEq hw (w.layOut m (addr + hdrSz)).1 addr hdrSz
          { ruleEqBitmap := e.ruleEqBitmap }) ↔
      e.WordsAgree hw w := by
  have hstop := w.layOut_end m (addr + hdrSz)
  have hlen := length_extraBytes (e.equations hw)
  have hlen' := length_restBytes (e.equations hw)
  rw [RuleEq.map_kind_equations] at hlen hlen'
  have hplace (h : (w.extra.length + 7) / 8 = (calcExtraWrdBytes e + 7) / 8) :
      addr + hdrSz + (calcExtraWrdBytes e + 7) / 8 * 8 =
        (addr + hdrSz + w.extra.length + 7) / 8 * 8 := by
    omega
  rw [givesBack_iff hagrees hproper, w.layOut_readMasked_extra m _ (hlen ▸ hextra), hstop, hrest]
  constructor
  · rintro ⟨hsize, hread, hread'⟩
    have hwords : (w.extra.length + 7) / 8 = (calcExtraWrdBytes e + 7) / 8 := by omega
    rw [hplace hwords, w.layOut_readMasked_rest m _ (by omega)] at hread'
    exact ⟨hread, hwords, hread'⟩
  · rintro ⟨hread, hwords, hread'⟩
    rw [hplace hwords, w.layOut_readMasked_rest m _ (by omega)]
    exact ⟨by omega, hread, hread'⟩

/-! ## Behind the extended header -/

/-- What the words leave from a place on that is two bytes into a word: the operands begin with the
next word behind the extra bytes. -/
def Words.behindExtHdr (w : Words) : Mem := fun k =>
  if k < (w.extra.length + 9) / 8 * 8 - 2 then w.extra.getD k 0
  else w.rest.getD (k - ((w.extra.length + 9) / 8 * 8 - 2)) 0

theorem Words.layOut_behindExtHdr (w : Words) (m : Mem) {buf k : ℕ} (hbuf : buf % 8 = 2)
    (hk : buf + k < (w.layOut m buf).2) :
    (w.layOut m buf).1 (buf + k) = w.behindExtHdr k := by
  have hstart : (buf + w.extra.length + 7) / 8 * 8 =
    buf + ((w.extra.length + 9) / 8 * 8 - 2) := by omega
  have hrest := w.layOut_rest m buf
  rw [hstart] at hrest
  rw [Words.layOut_end, hstart] at hk
  rw [Words.behindExtHdr]
  by_cases hlow : k < (w.extra.length + 9) / 8 * 8 - 2
  · have hlen := length_padTo64 buf w.extra
    rw [if_pos hlow]
    exact w.layOut_extra m buf k _ (getElem?_padTo64 (by omega))
  · have hlen := length_padTo64 (buf + ((w.extra.length + 9) / 8 * 8 - 2)) w.rest
    have h := hrest (k - ((w.extra.length + 9) / 8 * 8 - 2)) _ (getElem?_padTo64 (by omega))
    rw [Nat.add_assoc, Nat.add_sub_cancel' (Nat.le_of_not_lt hlow)] at h
    rw [if_neg hlow, h]

/-- A parser that passes over the extra bytes in whole words, two bytes into a word, finds the
equations and the end of the rule. -/
structure RuleEq.FoundBehindExtHdr (hw : HwType) (e : RuleEq) (w : Words) : Prop where
  extra : List.zipWith (· &&& ·) w.extra (extraSigs (e.kinds hw)) = extraBytes (e.equations hw)
  size : (2 + (calcExtraWrdBytes e + 7) / 8 * 8 + w.rest.length + 7) / 8 =
    ((w.extra.length + 9) / 8 * 8 + w.rest.length + 7) / 8
  rest : w.behindExtHdr.readMasked ((calcExtraWrdBytes e + 7) / 8 * 8) (restSigs (e.kinds hw)) =
    restBytes (e.equations hw)

theorem givesBack_extHdr_iff (hagrees : e.BitmapAgrees hw)
    (hproper : ∀ f ∈ e.equations hw, f.Proper) (w : Words) (m : Mem) {hdrSz : ℕ}
    (hbuf : (addr + hdrSz) % 8 = 2)
    (hextra : (extraBytes (e.equations hw)).length ≤ w.extra.length)
    (hrest : w.rest.length = (restBytes (e.equations hw)).length) :
    GivesBack hw e addr (w.layOut m (addr + hdrSz)).2
        (parseHwRuleEq hw (w.layOut m (addr + hdrSz)).1 addr hdrSz
          { ruleEqBitmap := e.ruleEqBitmap }) ↔
      e.FoundBehindExtHdr hw w := by
  have hstop := w.layOut_end m (addr + hdrSz)
  have hlen := length_extraBytes (e.equations hw)
  have hlen' := length_restBytes (e.equations hw)
  rw [RuleEq.map_kind_equations] at hlen hlen'
  have hread (hsize : (2 + (calcExtraWrdBytes e + 7) / 8 * 8 + w.rest.length + 7) / 8 =
        ((w.extra.length + 9) / 8 * 8 + w.rest.length + 7) / 8) :
      (w.layOut m (addr + hdrSz)).1.readMasked
          (addr + hdrSz + (calcExtraWrdBytes e + 7) / 8 * 8) (restSigs (e.kinds hw)) =
        w.behindExtHdr.readMasked ((calcExtraWrdBytes e + 7) / 8 * 8) (restSigs (e.kinds hw)) := by
    refine Mem.readMasked_congr fun j hj => ?_
    rw [Nat.add_assoc]
    exact w.layOut_behindExtHdr m hbuf (by omega)
  rw [givesBack_iff hagrees hproper, w.layOut_readMasked_extra m _ (hlen ▸ hextra), hstop, ← hrest]
  constructor
  · rintro ⟨hend, hfound, hfound'⟩
    have hsize : (2 + (calcExtraWrdBytes e + 7) / 8 * 8 + w.rest.length + 7) / 8 =
      ((w.extra.length + 9) / 8 * 8 + w.rest.length + 7) / 8 := by omega
    rw [hread hsize] at hfound'
    exact ⟨hfound, hsize, hfound'⟩
  · rintro ⟨hfound, hsize, hfound'⟩
    rw [hread hsize]
    exact ⟨by omega, hfound, hfound'⟩

/-! ## Operands of zeros -/

def RuleEq.ZeroOperands (hw : HwType) (e : RuleEq) : Prop :=
  ∀ f ∈ e.equations hw, ∀ b ∈ f.rest, b = 0

/-- The operand words are even in number where the rule has zero, seven or eight extra bytes, and
odd in number otherwise. -/
def RuleEq.FittingWords (hw : HwType) (e : RuleEq) : Prop :=
  (restBytes (e.equations hw)).length / 4 % 2 =
    if calcExtraWrdBytes e = 0 ∨ calcExtraWrdBytes e = 7 ∨ calcExtraWrdBytes e = 8 then 0 else 1

theorem getD_eq_zero_iff (bs : List Byte) : (∀ j, bs.getD j 0 = 0) ↔ ∀ b ∈ bs, b = 0 := by
  constructor
  · intro h b hb
    obtain ⟨j, hj⟩ := mem_iff_getElem?.1 hb
    have hzero := h j
    rwa [getD_eq_getElem?_getD, hj, Option.getD_some] at hzero
  · intro h j
    by_cases hj : j < bs.length
    · rw [getD_eq_getElem _ _ hj]
      exact h _ (getElem_mem hj)
    · exact getD_eq_default _ _ (Nat.le_of_not_lt hj)

theorem RuleEq.zeroOperands_iff (hw : HwType) (e : RuleEq) :
    e.ZeroOperands hw ↔ ∀ j, (restBytes (e.equations hw)).getD j 0 = 0 := by
  rw [getD_eq_zero_iff]
  constructor
  · intro h b hb
    obtain ⟨f, hf, hb⟩ := mem_flatMap.1 hb
    exact h f hf b hb
  · intro h f hf b hb
    exact h b (mem_flatMap.2 ⟨f, hf, hb⟩)

/-- What is read two bytes behind its place, or six before it, with zeros around, is what was
written only where all of it is zero. -/
theorem zero_of_shifted (hlen : bs.length = sigs.length) (hread : m.readMasked a sigs = bs)
    (hshift : (∀ j < bs.length, m (a + j) = bs.getD (j + 2) 0) ∨
      ∀ j < bs.length, m (a + j) = if j < 6 then 0 else bs.getD (j - 6) 0) :
    ∀ j, bs.getD j 0 = 0 := by
  have hbyte (j : ℕ) (hzero : j < bs.length → m (a + j) = 0) : bs.getD j 0 = 0 := by
    by_cases hj : j < bs.length
    · have h := m.getElem?_readMasked a sigs j
      rw [hread, getElem?_eq_getElem (show j < sigs.length from hlen ▸ hj), Option.map_some,
        hzero hj] at h
      rw [getD_eq_getElem?_getD, h, Option.getD_some]
      exact BitVec.zero_and
    · exact getD_eq_default _ _ (Nat.le_of_not_lt hj)
  obtain hshift | hshift := hshift
  · -- from the last byte down
    intro j
    induction hn : bs.length - j using Nat.strongRecOn generalizing j with
    | ind n ih =>
      refine hbyte j fun hj => ?_
      rw [hshift j hj]
      exact ih (bs.length - (j + 2)) (by omega) (j + 2) rfl
  · -- from the first byte up
    intro j
    induction j using Nat.strongRecOn with
    | ind j ih =>
      refine hbyte j fun hj => ?_
      rw [hshift j hj]
      by_cases hsix : j < 6
      · exact if_pos hsix
      · rw [if_neg hsix]
        exact ih (j - 6) (by omega)

theorem readMasked_zero (h : ∀ j < sigs.length, m (a + j) = 0) :
    ∀ j, (m.readMasked a sigs).getD j 0 = 0 := by
  intro j
  rw [getD_eq_getElem?_getD, Mem.getElem?_readMasked]
  by_cases hj : j < sigs.length
  · rw [getElem?_eq_getElem hj, Option.map_some, Option.getD_some, h j hj]
    exact BitVec.zero_and
  · rw [getElem?_eq_none (Nat.le_of_not_lt hj)]
    rfl

theorem eq_of_getD_zero {cs : List Byte} (hlen : bs.length = cs.length) (hbs : ∀ j, bs.getD j 0 = 0)
    (hcs : ∀ j, cs.getD j 0 = 0) : bs = cs :=
  ext_getElem hlen fun j hj hj' => by
    rw [← getD_eq_getElem _ 0 hj, ← getD_eq_getElem _ 0 hj', hbs, hcs]

/-- The parser does not find the operands behind an extended header, but for zeros: they stand in
the word that is reached by rounding up, and it adds whole words. -/
theorem Words.readMasked_behindExtHdr_iff (w : Words) (hn : w.extra.length ≤ 13)
    (hlen : w.rest.length = sigs.length) :
    w.behindExtHdr.readMasked ((w.extra.length + 7) / 8 * 8) sigs = w.rest ↔
      ∀ j, w.rest.getD j 0 = 0 := by
  constructor
  · intro hread
    apply zero_of_shifted hlen hread
    by_cases h : w.extra.length = 0 ∨ w.extra.length = 7 ∨ w.extra.length = 8
    · have hplace : (w.extra.length + 9) / 8 * 8 - 2 = (w.extra.length + 7) / 8 * 8 + 6 := by omega
      refine Or.inr fun j _ => ?_
      rw [Words.behindExtHdr, hplace]
      by_cases hsix : j < 6
      · rw [if_pos hsix, if_pos (by omega), getD_eq_default _ _ (by omega)]
      · rw [if_neg hsix, if_neg (by omega), Nat.add_sub_add_left]
    · have hplace : (w.extra.length + 9) / 8 * 8 - 2 + 2 = (w.extra.length + 7) / 8 * 8 := by omega
      refine Or.inl fun j _ => ?_
      rw [Words.behindExtHdr, if_neg (by omega)]
      congr 1
      omega
  · intro hzero
    apply eq_of_getD_zero ((Mem.length_readMasked _ _ _).trans hlen.symm) _ hzero
    apply readMasked_zero
    intro j _
    rw [Words.behindExtHdr, hzero, getD_eq_default _ _ (by omega), ite_self]

theorem RuleEq.fittingWords_iff (hcounts : e.CountsOk) :
    e.FittingWords hw ↔
      (2 + (calcExtraWrdBytes e + 7) / 8 * 8 + (restBytes (e.equations hw)).length + 7) / 8 =
        ((calcExtraWrdBytes e + 9) / 8 * 8 + (restBytes (e.equations hw)).length + 7) / 8 := by
  have hle := calcExtraWrdBytes_le hcounts
  have hmod := length_restSigs_mod ((e.equations hw).map Equation.kind)
  rw [← length_restBytes] at hmod
  rw [RuleEq.FittingWords]
  by_cases h : calcExtraWrdBytes e = 0 ∨ calcExtraWrdBytes e = 7 ∨ calcExtraWrdBytes e = 8
  · rw [if_pos h]
    omega
  · rw [if_neg h]
    omega

/-- Equations in the order of their bits are found behind an extended header exactly when the
operands are zero and the two roundings agree. -/
theorem RuleEq.foundBehindExtHdr_put_iff (hagrees : e.BitmapAgrees hw) :
    e.FoundBehindExtHdr hw (Words.put {} (e.equations hw)) ↔
      e.ZeroOperands hw ∧ e.FittingWords hw := by
  have hagree := RuleEq.wordsAgree_put hagrees
  have hcount := calcExtraWrdBytes_eq hw hagrees.countsOk
  have hlen := length_restBytes (e.equations hw)
  rw [RuleEq.map_kind_equations] at hlen
  have hzero := (Words.put {} (e.equations hw)).readMasked_behindExtHdr_iff
    (hcount ▸ calcExtraWrdBytes_le hagrees.countsOk) hlen
  have hfit : e.FittingWords hw ↔ _ := RuleEq.fittingWords_iff hagrees.countsOk
  rw [Words.extra_put, Words.rest_put, ← hcount] at hzero
  rw [RuleEq.zeroOperands_iff, ← hzero, hfit]
  constructor
  · rintro ⟨-, hsize, hrest⟩
    rw [Words.extra_put, Words.rest_put, ← hcount] at hsize
    exact ⟨hrest, hsize⟩
  · rintro ⟨hrest, hsize⟩
    refine ⟨hagree.extra, ?_, hrest⟩
    rw [Words.extra_put, Words.rest_put, ← hcount]
    exact hsize

end QcomModules.Ipahal
