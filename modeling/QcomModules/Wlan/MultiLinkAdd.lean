import QcomModules.Wlan.MultiLink

/-! When the Multi-Link element that is added to a link-specific probe response says what the one of
the reporting station says, for the link that was asked for. -/

namespace QcomModules.Wlan.MultiLink

open Library List

/-! ## What is promised -/

/-- The payload has no Link Info, and says the same as the other one with another link ID. -/
structure Carries (payload payload' : List Byte) (linkid : Byte) : Prop where
  parses : utilParseMultiLinkCtrl payload' = .ok []
  basic : getBits (mlControl payload') 0 3 = 0
  presence : presenceBitmap payload' = presenceBitmap payload
  addr : mldMacAddr payload' = mldMacAddr payload
  subfields : ∀ mask, mask ≠ wlanMlBvCtrlPbmLinkidinfoP →
    cinfoSubfield payload' mask = cinfoSubfield payload mask
  linkId : ∃ info, cinfoSubfield payload' wlanMlBvCtrlPbmLinkidinfoP = some [info] ∧
    getBits info 0 4 = linkid

/-- One element has been added, with the payload. -/
structure Extended (frame frame' : LinkFrame) (payload' : List Byte) : Prop where
  written : frame'.written = frame.written ++ ([wlanElemidExtnElem,
    BitVec.ofNat 8 (1 + payload'.length), wlanExtnElemidMultiLink] ++ payload')
  short : 1 + payload'.length < 2 ^ 8
  currlen : frame'.currlen = frame.currlen + BitVec.ofNat 64 (3 + payload'.length)

/-! ## The parts of an element -/

section Element

variable {e : MlElement} {behind : List Byte} {linkid c₀ c₁ n info : Byte} {addr tail : List Byte}

namespace MlElement

/-- The Control field, the length of the Common Info, the MLD address, the Link ID Info and what is
behind it in the first fragment. -/
structure Parts (e : MlElement) (c₀ c₁ n info : Byte) (addr tail : List Byte) : Prop where
  first : e.first = c₀ :: c₁ :: n :: (addr ++ info :: tail)
  addr : addr.length = 6
  linkIdInfo : getBits (word16 c₀ c₁) 4 12 &&& wlanMlBvCtrlPbmLinkidinfoP ≠ 0
  holds : 8 + subfieldsLen (getBits (word16 c₀ c₁) 4 12) cinfoSubfields.tail ≤ n.toNat
  contained : n.toNat ≤ tail.length + 8

theorem length_first (e : MlElement) : 3 ≤ e.first.length := by
  obtain ⟨linkInfo, hparse⟩ := e.accepted
  obtain ⟨hlen, hcinfo, -⟩ := parse_ok_iff.1 hparse
  by_cases hmore : e.more = []
  · rw [hmore, append_nil] at hlen hcinfo
    omega
  · have hfull := e.full hmore
    omega

theorem exists_parts (e : MlElement) :
    ∃ c₀ c₁ n info addr tail, e.Parts c₀ c₁ n info addr tail := by
  obtain ⟨linkInfo, hparse⟩ := e.accepted
  obtain ⟨-, hcinfo, -⟩ := parse_ok_iff.1 hparse
  have hlen := e.length_first
  have hcontained := e.contained
  have hinfo := e.linkIdInfo
  rcases hfirst : e.first with - | ⟨c₀, - | ⟨c₁, - | ⟨n, rest⟩⟩⟩
  iterate 3 simp [hfirst] at hlen
  rw [hfirst] at hcinfo hcontained hinfo
  have hpresent : getBits (word16 c₀ c₁) 4 12 &&& wlanMlBvCtrlPbmLinkidinfoP ≠ 0 := hinfo
  have hholds : 7 + subfieldsLen (getBits (word16 c₀ c₁) 4 12) cinfoSubfields ≤ n.toNat := hcinfo
  have hle : 2 + n.toNat ≤ rest.length + 1 + 1 + 1 := hcontained
  rw [cinfoSubfields, subfieldsLen, if_neg hpresent] at hholds
  have hsplit := take_append_drop 6 rest
  cases hdrop : rest.drop 6 with
  | nil =>
    have hshort := congrArg length hdrop
    simp only [length_drop, length_nil] at hshort
    omega
  | cons info tail =>
    have hlong := congrArg length hdrop
    simp only [length_drop, length_cons] at hlong
    refine ⟨c₀, c₁, n, info, rest.take 6, tail, ?_, ?_, hpresent, ?_, ?_⟩
    · rw [← hdrop, hsplit, hfirst]
    · rw [length_take]
      omega
    · rw [cinfoSubfields, tail_cons]
      omega
    · omega

end MlElement

/-! ## What is built -/

/-- The Control field with the bit that is set. -/
def builtControl (c₀ c₁ : Byte) : BitVec 16 :=
  setBits (word16 c₀ c₁) 4 12 (getBits (word16 c₀ c₁) 4 12 ||| 2)

def builtPayload (c₀ c₁ n info : Byte) (addr tail : List Byte) : List Byte :=
  bytes16 (builtControl c₀ c₁) ++ n :: (addr ++ info :: tail.take (n.toNat - 8))

namespace MlElement.Parts

theorem elemLen_eq (h : e.Parts c₀ c₁ n info addr tail) : e.elemLen = tail.length + 11 := by
  have haddr := h.addr
  rw [elemLen, h.first]
  simp only [length_cons, length_append]
  omega

theorem elemLen_lt (h : e.Parts c₀ c₁ n info addr tail) : tail.length + 11 < 2 ^ 8 := by
  have hshort := e.short
  have hlen := h.elemLen_eq
  rw [elemLen] at hlen
  omega

theorem long (h : e.Parts c₀ c₁ n info addr tail) : 8 ≤ n.toNat := by
  have hholds := h.holds
  omega

theorem bytes_eq (h : e.Parts c₀ c₁ n info addr tail) : e.bytes ++ behind =
    wlanElemidExtnElem :: BitVec.ofNat 8 e.elemLen :: wlanExtnElemidMultiLink :: c₀ :: c₁ :: n ::
      (addr ++ info :: (tail ++ behind)) := by
  rw [MlElement.bytes, h.first]
  simp

theorem mlControl_eq (h : e.Parts c₀ c₁ n info addr tail) :
    mlControl ((e.bytes ++ behind).drop 3) = word16 c₀ c₁ := by
  rw [h.bytes_eq]
  rfl

theorem commonInfoLen_eq (h : e.Parts c₀ c₁ n info addr tail) :
    utilGetMlieCommonInfoLen (e.bytes ++ behind) e.elemLen =
      if tail = [] then .error .eProto else .ok n.toNat := by
  have hbasic : getBits (word16 c₀ c₁) 0 3 = 0 := by
    have hfirst := e.basic
    rw [h.first] at hfirst
    exact hfirst
  have hlen := h.elemLen_eq
  have hsize : sizeofIeMultilink = 5 := rfl
  have hlength : wlanMlBvCinfoLengthSize = 1 := rfl
  have hmac : qdfMacAddrSize = 6 := rfl
  rw [utilGetMlieCommonInfoLen, h.mlControl_eq, h.bytes_eq, if_neg (by omega), if_neg (by omega),
    if_neg (by simp [getD]), if_neg (not_not_intro hbasic)]
  by_cases htail : tail = []
  · subst htail
    rw [if_pos rfl, if_pos (by simp only [length_nil] at hlen; omega)]
  · have hpos := length_pos_iff.2 htail
    rw [if_neg htail, if_neg (by omega)]
    rfl

theorem mlieFrame_eq (h : e.Parts c₀ c₁ n info addr tail) :
    mlieFrame (e.bytes ++ behind) (n.toNat + 5) =
      [wlanElemidExtnElem, BitVec.ofNat 8 (n.toNat + 3), wlanExtnElemidMultiLink] ++
        builtPayload c₀ c₁ n info addr tail := by
  have hlong := h.long
  have htake : (n :: (addr ++ info :: (tail ++ behind))).take n.toNat =
      n :: (addr ++ info :: tail.take (n.toNat - 8)) := by
    rw [take_cons (by omega), take_append, h.addr, take_of_length_le (by rw [h.addr]; omega),
      take_cons (by omega), take_append_of_le_length (by have := h.contained; omega)]
    rfl
  rw [h.bytes_eq, builtPayload, ← htake, ← append_assoc]
  rfl

theorem set_mlieFrame (h : e.Parts c₀ c₁ n info addr tail) :
    (mlieFrame (e.bytes ++ behind) (n.toNat + 5)).set 12
      (putLinkId ((mlieFrame (e.bytes ++ behind) (n.toNat + 5)).getD 12 0) linkid) =
      [wlanElemidExtnElem, BitVec.ofNat 8 (n.toNat + 3), wlanExtnElemidMultiLink] ++
        builtPayload c₀ c₁ n (putLinkId info linkid) addr tail := by
  rw [h.mlieFrame_eq]
  obtain ⟨a₀, a₁, a₂, a₃, a₄, a₅, rfl⟩ : ∃ a₀ a₁ a₂ a₃ a₄ a₅, addr = [a₀, a₁, a₂, a₃, a₄, a₅] := by
    have haddr := h.addr
    match addr, haddr with
    | [a₀, a₁, a₂, a₃, a₄, a₅], _ => exact ⟨a₀, a₁, a₂, a₃, a₄, a₅, rfl⟩
  rfl

theorem add_eq (h : e.Parts c₀ c₁ n info addr tail) (frame : LinkFrame) (maxsize : BitVec 64)
    (memory : Bool) :
    utilAddMlieForPrbRspGen (e.bytes ++ behind) e.elemLen frame maxsize linkid memory =
      if tail = [] then .error .eProto
      else if tail.length + 6 < n.toNat then .ok frame
      else if (maxsize - frame.currlen).toNat < n.toNat + 5 then .error .eNomem
      else if ¬ memory then .error .eNomem
      else if linkid = 0xFF then .error .eInval
      else .ok {
        written := frame.written ++ ([wlanElemidExtnElem, BitVec.ofNat 8 (n.toNat + 3),
          wlanExtnElemidMultiLink] ++ builtPayload c₀ c₁ n (putLinkId info linkid) addr tail)
        currlen := frame.currlen + BitVec.ofNat 64 (n.toNat + 5) } := by
  have hlen := h.elemLen_eq
  have hlt := h.elemLen_lt
  have hlong := h.long
  have hcontained := h.contained
  have hsize : sizeofIeMultilink = 5 := rfl
  have hoffset : sizeofIeMultilink + qdfMacAddrSize + wlanMlBvCinfoLengthSize = 12 := rfl
  rw [utilAddMlieForPrbRspGen, h.commonInfoLen_eq]
  by_cases htail : tail = []
  · rw [if_pos htail, if_pos htail]
    rfl
  · rw [if_neg htail, if_neg htail]
    simp only [bind, Except.bind, pure, Except.pure, throw, throwThe, MonadExceptOf.throw, hoffset]
    by_cases hshort : tail.length + 6 < n.toNat
    · rw [if_pos hshort, if_pos (.inr (by omega))]
    · have hmod : (n.toNat + sizeofIeMultilink) % 2 ^ 8 = n.toNat + 5 := by omega
      rw [if_neg hshort, if_neg (by omega), hmod]
      by_cases hroom : (maxsize - frame.currlen).toNat < n.toNat + 5
      · rw [if_pos hroom, if_pos hroom]
      · rw [if_neg hroom, if_neg hroom]
        cases memory with
        | false => rfl
        | true =>
            by_cases hlinkid : linkid = 0xFF
            · simp [hlinkid]
            · simp only [not_true_eq_false, if_false, hlinkid, false_or, h.set_mlieFrame]
              rw [if_neg (by omega)]

end MlElement.Parts

/-! ## What the payload says -/

theorem mlControl_built : mlControl (builtPayload c₀ c₁ n info addr tail) = builtControl c₀ c₁ :=
  ((bytes16_eq_iff _ _ _).1 rfl).symm

theorem cinfoLength_built : cinfoLength (builtPayload c₀ c₁ n info addr tail) = n.toNat := rfl

theorem or_two_lt : (getBits (word16 c₀ c₁) 4 12 ||| 2).toNat < 2 ^ 12 := by
  rw [BitVec.toNat_or]
  refine Nat.or_lt_two_pow ?_ (by decide)
  rw [getBits, BitVec.toNat_and]
  exact Nat.and_lt_two_pow _ (by decide)

theorem presence_built : presenceBitmap (builtPayload c₀ c₁ n info addr tail) =
    getBits (word16 c₀ c₁) 4 12 ||| 2 := by
  rw [presenceBitmap, mlControl_built, builtControl]
  exact getBits_setBits (by decide) or_two_lt

theorem or_two_eq_iff {presence : BitVec 16} : presence ||| 2 = presence ↔ presence &&& 2 ≠ 0 := by
  have hand : presence &&& 2 = if presence.getLsbD 1 then 2 else 0 := BitVec.and_twoPow presence 1
  have hbit : ∀ i < 16, (2 : BitVec 16).getLsbD i = decide (i = 1) := by decide
  rw [hand]
  by_cases h : presence.getLsbD 1 = true
  · rw [if_pos h]
    refine iff_of_true (BitVec.eq_of_getLsbD_eq fun i hi => ?_) (by decide)
    rw [BitVec.getLsbD_or, hbit i hi]
    by_cases hone : i = 1
    · rw [hone, h, Bool.true_or]
    · rw [decide_eq_false hone, Bool.or_false]
  · rw [if_neg h]
    refine iff_of_false (fun heq => h ?_) (by decide)
    rw [← heq, BitVec.getLsbD_or, hbit 1 (by decide)]
    simp

theorem getBits_putLinkId : getBits (putLinkId info linkid) 0 4 = linkid ↔ linkid.toNat < 16 := by
  have hlow : getBits (putLinkId info linkid) 0 4 = linkid &&& 15 := by
    refine BitVec.eq_of_getLsbD_eq fun i hi => ?_
    have hfifteen : ∀ i < 8, (15 : BitVec 8).getLsbD i = decide (i < 4) := by decide
    rw [getLsbD_getBits, putLinkId, Nat.zero_add, BitVec.getLsbD_or, BitVec.getLsbD_and,
      BitVec.getLsbD_and, BitVec.getLsbD_not, hfifteen i hi]
    by_cases hi4 : i < 4 <;> simp [hi4]
  rw [hlow, ← BitVec.toNat_inj, BitVec.toNat_and]
  have hmod : linkid.toNat &&& (15 : BitVec 8).toNat = linkid.toNat % 16 :=
    Nat.and_two_pow_sub_one_eq_mod linkid.toNat 4
  rw [hmod]
  omega

theorem builtControl_of_mem (h : getBits (word16 c₀ c₁) 4 12 &&& 2 ≠ 0) :
    builtControl c₀ c₁ = word16 c₀ c₁ := by
  rw [builtControl, or_two_eq_iff.2 h, setBits_getBits]

theorem findSubfield_others {presence mask : BitVec 16} {octet : Byte} {bytes : List Byte}
    (hpresent : presence &&& wlanMlBvCtrlPbmLinkidinfoP ≠ 0)
    (hmask : mask ≠ wlanMlBvCtrlPbmLinkidinfoP) :
    findSubfield presence mask cinfoSubfields (octet :: bytes) =
      findSubfield presence mask cinfoSubfields.tail bytes := by
  rw [cinfoSubfields, findSubfield, if_neg hpresent, if_neg hmask.symm]
  rfl

theorem drop_built (haddr : addr.length = 6) :
    (builtPayload c₀ c₁ n info addr tail).drop 9 = info :: tail.take (n.toNat - 8) := by
  have hdrop : (addr ++ info :: tail.take (n.toNat - 8)).drop 6 =
      info :: tail.take (n.toNat - 8) := by
    rw [← haddr]
    exact drop_left
  exact hdrop

theorem length_built (haddr : addr.length = 6) (hlong : 8 ≤ n.toNat)
    (hcontained : n.toNat ≤ tail.length + 8) :
    (builtPayload c₀ c₁ n info addr tail).length = n.toNat + 2 := by
  simp only [builtPayload, length_append, length_cons, length_take, length_bytes16, haddr]
  omega

namespace MlElement.Parts

theorem payload_eq (h : e.Parts c₀ c₁ n info addr tail) :
    e.first ++ e.more = c₀ :: c₁ :: n :: (addr ++ info :: (tail ++ e.more)) := by
  rw [h.first]
  simp

theorem drop_payload (h : e.Parts c₀ c₁ n info addr tail) :
    (e.first ++ e.more).drop 9 = info :: (tail ++ e.more) := by
  have hdrop : (addr ++ info :: (tail ++ e.more)).drop 6 = info :: (tail ++ e.more) := by
    rw [← h.addr]
    exact drop_left
  rw [h.payload_eq]
  exact hdrop

theorem presence_payload (h : e.Parts c₀ c₁ n info addr tail) :
    presenceBitmap (e.first ++ e.more) = getBits (word16 c₀ c₁) 4 12 := by
  rw [h.payload_eq]
  rfl

theorem carries (h : e.Parts c₀ c₁ n info addr tail)
    (hbit : getBits (word16 c₀ c₁) 4 12 &&& 2 ≠ 0) (hlinkid : linkid.toNat < 16) :
    Carries (e.first ++ e.more) (builtPayload c₀ c₁ n (putLinkId info linkid) addr tail)
      linkid := by
  have hlong := h.long
  have hholds := h.holds
  have hcontained := h.contained
  have hpresence : presenceBitmap (builtPayload c₀ c₁ n (putLinkId info linkid) addr tail) =
      getBits (word16 c₀ c₁) 4 12 := by
    rw [presence_built, or_two_eq_iff.2 hbit]
  have hlen := @length_built c₀ c₁ n (putLinkId info linkid) addr tail h.addr hlong hcontained
  refine ⟨?_, ?_, ?_, ?_, ?_, ?_⟩
  · rw [parse_ok_iff, cinfoLength_built, hpresence, hlen, drop_of_length_le (by omega),
      cinfoSubfields, subfieldsLen, if_neg h.linkIdInfo]
    rw [cinfoSubfields, tail_cons] at hholds
    exact ⟨by omega, by omega, rfl⟩
  · rw [mlControl_built, builtControl_of_mem hbit]
    have hbasic := e.basic
    rw [h.first] at hbasic
    exact hbasic
  · rw [hpresence, h.presence_payload]
  · rw [h.payload_eq]
    have htake : ∀ l : List Byte, (addr ++ l).take 6 = addr := by
      intro l
      rw [← h.addr]
      exact take_left
    exact (htake _).trans (htake _).symm
  · intro mask hmask
    rw [cinfoSubfield, cinfoSubfield, hpresence, h.presence_payload]
    change findSubfield _ _ _ ((builtPayload c₀ c₁ n (putLinkId info linkid) addr tail).drop 9) =
      findSubfield _ _ _ ((e.first ++ e.more).drop 9)
    rw [drop_built h.addr, h.drop_payload, findSubfield_others h.linkIdInfo hmask,
      findSubfield_others h.linkIdInfo hmask,
      ← @findSubfield_take (tail ++ e.more) _ _ (n.toNat - 8) _ (by omega),
      take_append_of_le_length (by omega)]
  · refine ⟨putLinkId info linkid, ?_, getBits_putLinkId.2 hlinkid⟩
    rw [cinfoSubfield, hpresence]
    change findSubfield _ _ _ ((builtPayload c₀ c₁ n (putLinkId info linkid) addr tail).drop 9) = _
    rw [drop_built h.addr, cinfoSubfields, findSubfield, if_neg h.linkIdInfo, if_pos rfl]
    rfl

end MlElement.Parts

end Element

/-! ## The promise -/

/-- On success the frame has been extended by an element that carries what the one of the reporting
station does, whatever stands behind that one. -/
def AddsRight (e : MlElement) (behind : List Byte) (frame : LinkFrame) (maxsize : BitVec 64)
    (linkid : Byte) (memory : Bool) : Prop :=
  ∀ frame', utilAddMlieForPrbRspGen (e.bytes ++ behind) e.elemLen frame maxsize linkid memory =
      .ok frame' →
    ∃ payload', Extended frame frame' payload' ∧ Carries (e.first ++ e.more) payload' linkid

/-- The call is refused: the element is too short for its own check, there is no room or no memory,
or the link ID is none. -/
def Refused (e : MlElement) (frame : LinkFrame) (maxsize : BitVec 64) (linkid : Byte)
    (memory : Bool) : Prop :=
  e.elemLen < 12 ∨ cinfoLength e.first + 5 ≤ e.elemLen ∧
    ((maxsize - frame.currlen).toNat < cinfoLength e.first + 5 ∨ memory = false ∨ linkid = 0xFF)

/-- There are two octets of Link Info in the first fragment, the BSS Parameters Change Count is
present, and the link ID has four bits. -/
def Faithful (e : MlElement) (linkid : Byte) : Prop :=
  cinfoLength e.first + 5 ≤ e.elemLen ∧ presenceBitmap e.first &&& 2 ≠ 0 ∧ linkid.toNat < 16

theorem addsRight_iff (e : MlElement) (behind : List Byte) (frame : LinkFrame)
    (maxsize : BitVec 64) (linkid : Byte) (memory : Bool) :
    AddsRight e behind frame maxsize linkid memory ↔
      Refused e frame maxsize linkid memory ∨ Faithful e linkid := by
  obtain ⟨c₀, c₁, n, info, addr, tail, h⟩ := e.exists_parts
  have hlen := h.elemLen_eq
  have hlt := h.elemLen_lt
  have hlong := h.long
  have hcontained := h.contained
  have hcinfo : cinfoLength e.first = n.toNat := by
    rw [h.first]
    rfl
  have hpresence : presenceBitmap e.first = getBits (word16 c₀ c₁) 4 12 := by
    rw [h.first]
    rfl
  simp only [AddsRight, h.add_eq]
  rw [Refused, Faithful, hcinfo, hpresence, hlen]
  by_cases htail : tail = []
  · subst htail
    rw [if_pos rfl]
    exact iff_of_true nofun (.inl (.inl (by decide)))
  have hpos := length_pos_iff.2 htail
  rw [if_neg htail]
  by_cases hshort : tail.length + 6 < n.toNat
  · rw [if_pos hshort]
    refine iff_of_false (fun hright => ?_) (by omega)
    obtain ⟨payload', hextended, -⟩ := hright frame rfl
    have hwritten := congrArg length hextended.written
    simp only [length_append, length_cons] at hwritten
    omega
  rw [if_neg hshort]
  by_cases hroom : (maxsize - frame.currlen).toNat < n.toNat + 5
  · rw [if_pos hroom]
    exact iff_of_true nofun (.inl (.inr ⟨by omega, .inl hroom⟩))
  rw [if_neg hroom]
  cases memory with
  | false => exact iff_of_true nofun (.inl (.inr ⟨by omega, .inr (.inl rfl)⟩))
  | true =>
      rw [if_neg (by simp)]
      by_cases hlinkid : linkid = 0xFF
      · rw [if_pos hlinkid]
        exact iff_of_true nofun (.inl (.inr ⟨by omega, .inr (.inr hlinkid)⟩))
      rw [if_neg hlinkid]
      have hsize := @length_built c₀ c₁ n (putLinkId info linkid) addr tail h.addr hlong hcontained
      constructor
      · intro hright
        obtain ⟨payload', hextended, hcarries⟩ := hright _ rfl
        have hwritten := append_cancel_left hextended.written
        obtain rfl : builtPayload c₀ c₁ n (putLinkId info linkid) addr tail = payload' := by
          simpa using (cons.inj (cons.inj (cons.inj hwritten).2).2).2
        refine .inr ⟨by omega, or_two_eq_iff.1 ?_, ?_⟩
        · rw [← presence_built, hcarries.presence, h.presence_payload]
        · obtain ⟨info', hinfo, hid⟩ := hcarries.linkId
          rw [← hid]
          have hmask : (getBits info' 0 4).toNat ≤ 15 := by
            rw [getBits, BitVec.toNat_and]
            exact Nat.and_le_right
          omega
      · rintro (hrefused | ⟨-, hbit, hid⟩) frame' hframe
        · rcases hrefused with hrefused | ⟨-, hrefused | hrefused | hrefused⟩
          · omega
          · exact absurd hrefused hroom
          · cases hrefused
          · exact absurd hrefused hlinkid
        · obtain rfl := Except.ok.inj hframe
          refine ⟨_, ⟨?_, ?_, ?_⟩, h.carries hbit hid⟩
          · rw [hsize, show 1 + (n.toNat + 2) = n.toNat + 3 by omega]
          · rw [hsize]
            omega
          · rw [hsize, show 3 + (n.toNat + 2) = n.toNat + 5 by omega]

/-- An element with Link ID Info and no other subfield, and two octets of Link Info. -/
def linkIdOnly : MlElement where
  first := [16, 0, 8, 2, 0, 0, 0, 0, 1, 0, 0, 0]
  more := []
  short := by decide
  full := nofun
  accepted := ⟨[0, 0], by decide⟩
  basic := by decide
  linkIdInfo := by decide
  contained := by decide

/-- The element that is added announces a BSS Parameters Change Count that is not there. -/
theorem linkIdOnly_added :
    ¬ AddsRight linkIdOnly [] ⟨[], 0⟩ 2000 1 true := by
  intro h
  have hadd : utilAddMlieForPrbRspGen (linkIdOnly.bytes ++ []) linkIdOnly.elemLen ⟨[], 0⟩ 2000 1
      true = .ok ⟨[255, 11, 107, 48, 0, 8, 2, 0, 0, 0, 0, 1, 1], 13⟩ := by decide
  obtain ⟨payload', hextended, hcarries⟩ := h _ hadd
  have hwritten := hextended.written
  obtain rfl : [48, 0, 8, 2, 0, 0, 0, 0, 1, 1] = payload' :=
    (cons.inj (cons.inj (cons.inj hwritten).2).2).2
  have hpresence := hcarries.presence
  revert hpresence
  decide

end QcomModules.Wlan.MultiLink
