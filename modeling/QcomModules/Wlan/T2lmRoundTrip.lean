import QcomModules.Wlan.T2lmFrames

/-! Parsing back the mapping frames that were written. -/

namespace QcomModules.Wlan

open Library List Function

/-! ## What stands before the parser -/

/-- The octets of the element that are left. -/
structure T2lmCursor.At (c : T2lmCursor) (m : Library.Mem) (ieLen : ℕ) (bs : List Byte) :
    Prop where
  holds : m.Holds c.ptr bs
  len : ieLen = c.parsed + bs.length

namespace T2lmCursor.At

variable {c : T2lmCursor} {m : Library.Mem} {ieLen : ℕ} {xs bs : List Byte}

variable {k : ℕ}

theorem skip (h : c.At m ieLen (xs ++ bs)) (hk : xs.length = k) :
    ∃ next : T2lmCursor, c.skip ieLen k = .ok next ∧ next.At m ieLen bs := by
  subst hk
  have hlen := h.len
  rw [length_append] at hlen
  refine ⟨_, if_neg (by omega), ⟨h.holds.right, ?_⟩⟩
  dsimp only
  omega

theorem skip_short (h : c.At m ieLen bs) (hk : bs.length < k) : c.skip ieLen k = .error .proto := by
  have hlen := h.len
  exact if_pos (by omega)

end T2lmCursor.At

/-! ## Link maps -/

section LinkMaps

variable {t2lm : T2lmInfo} {m : Library.Mem} {ieLen : ℕ}

theorem linkMapSize_pos (oneOctet : Bool) : 0 < linkMapSize oneOctet := by
  cases oneOctet <;> decide

theorem countP_lt_countP {α : Type*} {p q : α → Bool} {l : List α}
    (himp : ∀ x ∈ l, p x = true → q x = true) {a : α} (ha : a ∈ l) (hq : q a = true)
    (hp : ¬p a = true) : l.countP p < l.countP q := by
  obtain ⟨front, back, rfl⟩ := append_of_mem ha
  have hfront : front.countP p ≤ front.countP q :=
    countP_mono_left fun x hx => himp x (mem_append_left _ hx)
  have hback : back.countP p ≤ back.countP q :=
    countP_mono_left fun x hx => himp x (mem_append_right _ (mem_cons_of_mem a hx))
  rw [countP_append, countP_append, countP_cons_of_neg hp,
    countP_cons_of_pos hq]
  omega

theorem length_linkMapBytes (tid : Fin 8) :
    (linkMapBytes t2lm tid).length =
      if t2lm.ieeeLinkMapTid tid = 0 then 0 else linkMapSize t2lm.linkMappingSize := by
  rw [linkMapBytes]
  split
  · rfl
  · cases t2lm.linkMappingSize <;> rfl

theorem length_linkMaps (tids : List (Fin 8)) :
    (tids.flatMap (linkMapBytes t2lm)).length =
      linkMapSize t2lm.linkMappingSize * tids.countP fun tid => t2lm.ieeeLinkMapTid tid ≠ 0 := by
  induction tids with
  | nil => rfl
  | cons tid tids ih =>
    rw [flatMap_cons, length_append, length_linkMapBytes, ih, countP_cons]
    simp [Nat.mul_add, Nat.add_comm]

variable {tid : Fin 8} {tids : List (Fin 8)}

theorem and_twoPow_eq_zero {presence : BitVec 16} :
    presence &&& BitVec.twoPow 16 tid = 0 ↔ presence.getLsbD tid = false := by
  have hne : BitVec.twoPow 16 tid.val ≠ 0 := by
    revert tid
    decide
  rw [BitVec.and_twoPow]
  cases presence.getLsbD tid with
  | false => exact iff_of_true rfl rfl
  | true => exact iff_of_false hne (by decide)

theorem readLinkMap_of_holds {c : T2lmCursor} {bs : List Byte}
    (hfits : t2lm.linkMappingSize = true → (t2lm.ieeeLinkMapTid tid).toNat < 2 ^ 8)
    (hne : t2lm.ieeeLinkMapTid tid ≠ 0) (h : m.Holds c.ptr (linkMapBytes t2lm tid ++ bs)) :
    (if t2lm.linkMappingSize then (m c.ptr).setWidth 16 else m.read16 c.ptr) =
      t2lm.ieeeLinkMapTid tid := by
  have hmap := h.left
  rw [linkMapBytes, if_neg hne] at hmap
  by_cases hone : t2lm.linkMappingSize = true
  · rw [if_pos hone] at hmap ⊢
    have hbyte : m c.ptr = (t2lm.ieeeLinkMapTid tid).setWidth 8 := hmap 0 _ rfl
    have hlt := hfits hone
    rw [hbyte, ← BitVec.toNat_inj, BitVec.toNat_setWidth, BitVec.toNat_setWidth]
    omega
  · rw [if_neg hone] at hmap ⊢
    exact hmap.read16

theorem parseLinkMaps_eq
    (hfits : t2lm.linkMappingSize = true → ∀ tid, (t2lm.ieeeLinkMapTid tid).toNat < 2 ^ 8)
    {presence : BitVec 16}
    (hpresence : ∀ tid ∈ tids, presence.getLsbD tid = true ↔ t2lm.ieeeLinkMapTid tid ≠ 0)
    {c : T2lmCursor} (h : c.At m ieLen (tids.flatMap (linkMapBytes t2lm)))
    {maps : Fin 8 → BitVec 16} (hmaps : ∀ tid ∉ tids, maps tid = t2lm.ieeeLinkMapTid tid)
    (hzero : ∀ tid ∈ tids, t2lm.ieeeLinkMapTid tid = 0 → maps tid = 0) :
    ∃ c' : T2lmCursor, c'.At m ieLen [] ∧
      parseLinkMaps m ieLen t2lm.linkMappingSize presence tids c maps =
        .ok (c', t2lm.ieeeLinkMapTid) := by
  induction tids generalizing c maps with
  | nil =>
    obtain rfl : maps = t2lm.ieeeLinkMapTid := funext fun tid => hmaps tid not_mem_nil
    exact ⟨c, h, rfl⟩
  | cons tid tids ih =>
    have htail : ∀ j ∈ tids, presence.getLsbD j = true ↔ t2lm.ieeeLinkMapTid j ≠ 0 :=
      fun j hj => hpresence j (mem_cons_of_mem tid hj)
    rw [flatMap_cons] at h
    rw [parseLinkMaps]
    by_cases hne : t2lm.ieeeLinkMapTid tid = 0
    · have habsent : presence.getLsbD tid = false :=
        Bool.eq_false_iff.2 fun hbit => (hpresence tid mem_cons_self).1 hbit hne
      rw [if_pos (and_twoPow_eq_zero.2 habsent)]
      rw [linkMapBytes, if_pos hne, nil_append] at h
      refine ih htail h (fun j hj => ?_) fun j hj => hzero j (mem_cons_of_mem tid hj)
      by_cases hjt : j = tid
      · rw [hjt, hne]
        exact hzero tid mem_cons_self hne
      · exact hmaps j (not_mem_cons_of_ne_of_not_mem hjt hj)
    · have hpresent : ¬presence &&& BitVec.twoPow 16 tid = 0 := fun hand => by
        have hbit := (hpresence tid mem_cons_self).2 hne
        rw [and_twoPow_eq_zero.1 hand] at hbit
        exact Bool.false_ne_true hbit
      have hlen : (linkMapBytes t2lm tid).length = linkMapSize t2lm.linkMappingSize := by
        rw [length_linkMapBytes, if_neg hne]
      obtain ⟨next, hskip, hnext⟩ := h.skip hlen
      rw [linkMapSize] at hskip
      rw [if_neg hpresent, hskip]
      dsimp only [bind, Except.bind]
      rw [readLinkMap_of_holds (fun hone => hfits hone tid) hne h.holds]
      refine ih htail hnext (fun j hj => ?_) fun j hj hj0 => ?_
      · by_cases hjt : j = tid
        · rw [hjt, update_self]
        · rw [update_of_ne hjt]
          exact hmaps j (not_mem_cons_of_ne_of_not_mem hjt hj)
      · have hjt : j ≠ tid := fun hjt => hne (hjt ▸ hj0)
        rw [update_of_ne hjt]
        exact hzero j (mem_cons_of_mem tid hj) hj0

theorem parseLinkMaps_short {oneOctet : Bool} {presence : BitVec 16} {c : T2lmCursor}
    {bs : List Byte} (h : c.At m ieLen bs) (hshort : bs.length <
      linkMapSize oneOctet * tids.countP fun tid : Fin 8 => presence.getLsbD tid)
    (maps : Fin 8 → BitVec 16) :
    parseLinkMaps m ieLen oneOctet presence tids c maps = .error .proto := by
  induction tids generalizing c bs maps with
  | nil => exact absurd hshort (Nat.not_lt_zero _)
  | cons tid tids ih =>
    rw [parseLinkMaps]
    rw [countP_cons] at hshort
    by_cases hbit : presence.getLsbD tid = true
    · have hpresent : ¬presence &&& BitVec.twoPow 16 tid = 0 := fun hand => by
        rw [and_twoPow_eq_zero.1 hand] at hbit
        exact Bool.false_ne_true hbit
      rw [if_pos hbit, Nat.mul_add, Nat.mul_one] at hshort
      rw [if_neg hpresent]
      by_cases hfirst : bs.length < linkMapSize oneOctet
      · have hskip := h.skip_short hfirst
        rw [linkMapSize] at hskip
        rw [hskip]
        rfl
      · have hsplit := take_append_drop (linkMapSize oneOctet) bs
        rw [← hsplit] at h
        obtain ⟨next, hskip, hnext⟩ := h.skip (length_take_of_le (Nat.not_lt.1 hfirst))
        rw [linkMapSize] at hskip
        rw [hskip]
        refine ih hnext ?_ _
        rw [length_drop]
        omega
    · rw [if_neg hbit, Nat.add_zero] at hshort
      rw [if_pos (and_twoPow_eq_zero.2 (Bool.eq_false_iff.2 hbit))]
      exact ih h hshort maps

end LinkMaps

/-! ## The control field -/

theorem getLsbD_presence_foldl (t2lm : T2lmInfo) (tids : List (Fin 8)) (presence : BitVec 16)
    (j : ℕ) :
    (tids.foldl (fun presence tid =>
      if t2lm.hwLinkMapTid tid ≠ 0 ∨ t2lm.ieeeLinkMapTid tid ≠ 0 then
        presence ||| BitVec.twoPow 16 tid
      else presence) presence).getLsbD j = true ↔
      presence.getLsbD j = true ∨
        ∃ tid ∈ tids, tid.val = j ∧ (t2lm.hwLinkMapTid tid ≠ 0 ∨ t2lm.ieeeLinkMapTid tid ≠ 0) := by
  induction tids generalizing presence with
  | nil => simp
  | cons tid tids ih =>
    rw [foldl_cons, ih, exists_mem_cons_iff]
    split
    · rename_i hmap
      have hlt : tid.val < 16 := by omega
      rw [BitVec.getLsbD_or, BitVec.getLsbD_twoPow, Bool.or_eq_true, or_assoc]
      simp only [hlt, decide_true, Bool.true_and, decide_eq_true_eq, hmap, and_true]
    · rename_i hmap
      simp only [hmap, and_false, false_or]

theorem getLsbD_linkMappingPresence (t2lm : T2lmInfo) (tid : Fin 8) :
    (linkMappingPresence t2lm).getLsbD tid = true ↔
      t2lm.hwLinkMapTid tid ≠ 0 ∨ t2lm.ieeeLinkMapTid tid ≠ 0 := by
  rw [linkMappingPresence, getLsbD_presence_foldl, show (0 : BitVec 16).getLsbD tid = false from
    BitVec.getLsbD_zero]
  constructor
  · rintro (hfalse | ⟨tid', -, heq, hmap⟩)
    · exact absurd hfalse Bool.false_ne_true
    · rwa [← Fin.ext heq]
  · exact fun hmap => .inr ⟨tid, mem_finRange tid, rfl, hmap⟩

theorem linkMappingPresence_lt (t2lm : T2lmInfo) : (linkMappingPresence t2lm).toNat < 2 ^ 8 := by
  refine Nat.lt_pow_two_of_testBit _ fun j hj => Bool.eq_false_iff.2 fun hbit => ?_
  rcases (getLsbD_presence_foldl t2lm (finRange 8) 0 j).1 hbit with hfalse | ⟨tid, -, heq, -⟩
  · rw [show (0 : BitVec 16).getLsbD j = false from BitVec.getLsbD_zero] at hfalse
    exact absurd hfalse Bool.false_ne_true
  · omega

/-- What the parser reads of a control field, up to the presence indicator. -/
structure ControlOf (control : BitVec 16) (t2lm : T2lmInfo) : Prop where
  direction : getBits control 0 2 = t2lmDirectionValue t2lm.direction
  default : decide (getBits control 2 1 ≠ 0) = t2lm.defaultLinkMapping
  switchTime : decide (getBits control 3 1 ≠ 0) = t2lm.mappingSwitchTimePresent
  duration : decide (getBits control 4 1 ≠ 0) = t2lm.expectedDurationPresent
  size : decide (getBits control 5 1 ≠ 0) = t2lm.linkMappingSize

theorem controlOf_t2lmControl {t2lm : T2lmInfo} (h : t2lm.direction ≠ none) :
    ControlOf (t2lmControl t2lm) t2lm := by
  have hlt : (t2lmDirectionValue t2lm.direction).toNat < 2 ^ 2 := by
    cases hdir : t2lm.direction with
    | none => exact absurd hdir h
    | some dir => cases dir <;> decide
  have hw : 0 < 16 := by decide
  unfold t2lmControl
  constructor
  · repeat rw [getBits_setBits_of_disjoint (by omega)]
    exact getBits_setBits (by omega) hlt
  · repeat rw [getBits_setBits_of_disjoint (by omega)]
    rw [getBits_setBits (by omega) (toNat_flagBit _), flagBit_ne_zero hw]
  · repeat rw [getBits_setBits_of_disjoint (by omega)]
    rw [getBits_setBits (by omega) (toNat_flagBit _), flagBit_ne_zero hw]
  · repeat rw [getBits_setBits_of_disjoint (by omega)]
    rw [getBits_setBits (by omega) (toNat_flagBit _), flagBit_ne_zero hw]
  · rw [getBits_setBits (by omega) (toNat_flagBit _), flagBit_ne_zero hw]

variable {control : BitVec 16} {dir : T2lmDirection} {got : T2lmInfo} {ie : ℕ}

theorem ControlOf.of_setWidth {control' : BitVec 16} {t2lm : T2lmInfo} (h : ControlOf control t2lm)
    (hlow : control'.setWidth 8 = control.setWidth 8) : ControlOf control' t2lm := by
  constructor
  · rw [getBits_of_setWidth (by decide) hlow, h.direction]
  · rw [getBits_of_setWidth (by decide) hlow, h.default]
  · rw [getBits_of_setWidth (by decide) hlow, h.switchTime]
  · rw [getBits_of_setWidth (by decide) hlow, h.duration]
  · rw [getBits_of_setWidth (by decide) hlow, h.size]

theorem readT2lmControl_low (m : Library.Mem) (field ieLen : ℕ) :
    (readT2lmControl m field ieLen).setWidth 8 = m field := by
  rw [readT2lmControl]
  split
  · have hbytes := (bytes16_eq_iff (m.read16 field) _ _).2 rfl
    exact (cons.inj hbytes).1
  · rw [BitVec.setWidth_setWidth_of_le _ (by decide), BitVec.setWidth_eq]

/-! ## Mapping information -/

/-- An entry of a frame: no switch time, and a duration and link maps that fit. -/
structure T2lmInfo.Sendable (t2lm : T2lmInfo) : Prop where
  switchTime : t2lm.mappingSwitchTimePresent = false
  duration : t2lm.expectedDuration.toNat < 2 ^ 24
  fits : t2lm.linkMappingSize = true → ∀ tid, (t2lm.ieeeLinkMapTid tid).toNat < 2 ^ 8

/-- Unless the mapping is the default one, each TID with a hardware link map has an IEEE one. -/
def T2lmInfo.AllMapped (t2lm : T2lmInfo) : Prop :=
  t2lm.defaultLinkMapping = false →
    ∀ tid, t2lm.hwLinkMapTid tid ≠ 0 → t2lm.ieeeLinkMapTid tid ≠ 0

instance (t2lm : T2lmInfo) : Decidable t2lm.AllMapped := inferInstanceAs (Decidable (_ → _))

def T2lmInfo.received (t2lm : T2lmInfo) : T2lmInfo :=
  { T2lmInfo.zero with
    direction := t2lm.direction
    defaultLinkMapping := t2lm.defaultLinkMapping
    expectedDurationPresent := t2lm.expectedDurationPresent
    expectedDuration := if t2lm.expectedDurationPresent then t2lm.expectedDuration else 0
    ieeeLinkMapTid := if t2lm.defaultLinkMapping then fun _ => 0 else t2lm.ieeeLinkMapTid
    linkMappingSize := t2lm.linkMappingSize }

theorem readDuration_eq {m : Library.Mem} {ptr : ℕ} {duration : BitVec 32} {bs : List Byte}
    (hlt : duration.toNat < 2 ^ 24) (h : m.Holds ptr ((bytes32 duration).take 3 ++ bs)) :
    readDuration m ptr = duration := by
  have h₀ : m ptr = duration.setWidth 8 := h 0 _ rfl
  have h₁ : m (ptr + 1) = (duration >>> 8).setWidth 8 := h 1 _ rfl
  have h₂ : m (ptr + 2) = (duration >>> 16).setWidth 8 := h 2 _ rfl
  have h₃ : (duration >>> 24).setWidth 8 = (0 : Byte) := by
    rw [byte_eq_iff, Nat.div_eq_of_lt hlt]
    rfl
  rw [readDuration, h₀, h₁, h₂, ← h₃]
  exact ((bytes32_eq_iff duration _ _ _ _).1 rfl).symm

theorem addT2lmInfoIe_eq {t2lm : T2lmInfo} (h : t2lm.Sendable) :
    addT2lmInfoIe t2lm none =
      [elemidExtnElem, BitVec.ofNat 8 (1 + (t2lmControlBytes t2lm ++ (durationBytes t2lm ++
        linkMapsBytes t2lm)).length), extnElemidT2lm] ++
        (t2lmControlBytes t2lm ++ (durationBytes t2lm ++ linkMapsBytes t2lm)) := by
  rw [addT2lmInfoIe]
  dsimp only
  rw [h.switchTime, append_nil, append_assoc]
  rfl

theorem t2lmDirectionOf_value (dir : T2lmDirection) :
    t2lmDirectionOf (t2lmDirectionValue (some dir)) = some dir := by
  cases dir <;> rfl

theorem t2lmInfoOf_eq {t2lm : T2lmInfo} (h : ControlOf control t2lm) :
    t2lmInfoOf dir control =
      { T2lmInfo.zero with
        direction := some dir
        defaultLinkMapping := t2lm.defaultLinkMapping
        mappingSwitchTimePresent := t2lm.mappingSwitchTimePresent
        expectedDurationPresent := t2lm.expectedDurationPresent
        linkMappingSize := t2lm.linkMappingSize } := by
  rw [t2lmInfoOf, h.default, h.switchTime, h.duration, h.size]

theorem parseDuration_eq {t2lm : T2lmInfo} (h : t2lm.Sendable)
    (hpresent : got.expectedDurationPresent = t2lm.expectedDurationPresent)
    (hzero : got.expectedDuration = 0) {m : Library.Mem} {ieLen : ℕ} {c : T2lmCursor}
    {bs : List Byte} (hat : c.At m ieLen (durationBytes t2lm ++ bs)) :
    ∃ next : T2lmCursor, next.At m ieLen bs ∧
      parseDuration m ieLen got c = .ok ({ got with
        expectedDuration := if t2lm.expectedDurationPresent then t2lm.expectedDuration else 0 },
        next) := by
  rw [parseDuration, hpresent]
  rw [durationBytes] at hat
  by_cases hdur : t2lm.expectedDurationPresent = true
  · rw [if_pos hdur] at hat ⊢
    obtain ⟨next, hskip, hnext⟩ := hat.skip (k := 3) rfl
    refine ⟨next, hnext, ?_⟩
    rw [hskip, if_pos hdur, ← readDuration_eq h.duration hat.holds]
    rfl
  · rw [if_neg hdur] at hat ⊢
    refine ⟨c, hat, ?_⟩
    rw [if_neg hdur, ← hzero, ← hpresent]

theorem parseT2lmMaps_eq {t2lm : T2lmInfo} (h : t2lm.Sendable)
    (hdefault : got.defaultLinkMapping = t2lm.defaultLinkMapping)
    (hsize : got.linkMappingSize = t2lm.linkMappingSize) (hzero : got.ieeeLinkMapTid = fun _ => 0)
    (hpresence : t2lm.defaultLinkMapping = false →
      getBits control 8 8 = linkMappingPresence t2lm) {m : Library.Mem} {ieLen : ℕ} {c : T2lmCursor}
    (hat : c.At m ieLen (linkMapsBytes t2lm)) :
    parseT2lmMaps m ieLen control got c =
      if t2lm.AllMapped then .ok { got with
        ieeeLinkMapTid := if t2lm.defaultLinkMapping then fun _ => 0 else t2lm.ieeeLinkMapTid }
      else .error .proto := by
  rw [parseT2lmMaps, hdefault]
  rw [linkMapsBytes] at hat
  by_cases hdef : t2lm.defaultLinkMapping = true
  · have hmapped : t2lm.AllMapped := fun hfalse => absurd (hdef.symm.trans hfalse) (by decide)
    rw [if_pos hdef] at hat
    have hlen : ieLen = c.parsed := hat.len
    rw [if_pos hdef, if_neg (by omega), if_pos hmapped, if_pos hdef, ← hzero, ← hdefault]
  · rw [if_neg hdef] at hat
    have hdef' := Bool.eq_false_iff.2 hdef
    rw [if_neg hdef, hpresence hdef', hsize, hzero]
    by_cases hmapped : t2lm.AllMapped
    · have hiff : ∀ tid ∈ finRange 8, (linkMappingPresence t2lm).getLsbD tid = true ↔
          t2lm.ieeeLinkMapTid tid ≠ 0 := by
        intro tid _
        rw [getLsbD_linkMappingPresence]
        exact ⟨fun hmap => hmap.elim (hmapped hdef' tid) id, .inr⟩
      obtain ⟨c', hat', hparse⟩ := parseLinkMaps_eq h.fits hiff hat
        (fun tid hnot => absurd (mem_finRange tid) hnot) (fun _ _ _ => rfl)
      have hlen : ieLen = c'.parsed := hat'.len
      rw [if_pos hmapped, if_neg hdef, hparse]
      exact if_neg (by omega)
    · obtain ⟨tid, hhw, hieee⟩ :
          ∃ tid, t2lm.hwLinkMapTid tid ≠ 0 ∧ t2lm.ieeeLinkMapTid tid = 0 := by
        rw [T2lmInfo.AllMapped] at hmapped
        push Not at hmapped
        exact hmapped.2
      have hbit := (getLsbD_linkMappingPresence t2lm tid).2 (.inl hhw)
      have hshort : ((finRange 8).flatMap (linkMapBytes t2lm)).length <
          linkMapSize t2lm.linkMappingSize * (finRange 8).countP
            fun tid : Fin 8 => (linkMappingPresence t2lm).getLsbD tid := by
        rw [length_linkMaps]
        refine Nat.mul_lt_mul_of_pos_left ?_ (linkMapSize_pos _)
        refine countP_lt_countP (fun j _ hj => ?_) (mem_finRange tid) hbit (by simp [hieee])
        exact (getLsbD_linkMappingPresence t2lm j).2 (.inr (of_decide_eq_true hj))
      rw [if_neg hmapped, parseLinkMaps_short hat hshort]
      rfl

theorem parseSwitchTime_eq (h : got.mappingSwitchTimePresent = false) (m : Library.Mem) (ieLen : ℕ)
    (c : T2lmCursor) : parseSwitchTime m ieLen got c = .ok (got, c) := by
  rw [parseSwitchTime, h]
  rfl

theorem length_t2lmControlBytes (t2lm : T2lmInfo) :
    (t2lmControlBytes t2lm).length = if t2lm.defaultLinkMapping then 1 else 2 := by
  rw [t2lmControlBytes]
  cases t2lm.defaultLinkMapping <;> rfl

theorem length_body_lt (t2lm : T2lmInfo) :
    (t2lmControlBytes t2lm ++ (durationBytes t2lm ++ linkMapsBytes t2lm)).length < 255 := by
  have hcontrol : (t2lmControlBytes t2lm).length ≤ 2 := by
    rw [length_t2lmControlBytes]
    split <;> decide
  have hduration : (durationBytes t2lm).length ≤ 3 := by
    rw [durationBytes]
    split
    · exact length_take_le 3 _
    · exact Nat.zero_le 3
  have hmaps : (linkMapsBytes t2lm).length ≤ 2 * 8 := by
    rw [linkMapsBytes]
    split
    · exact Nat.zero_le _
    · rw [length_linkMaps]
      refine Nat.mul_le_mul ?_ countP_le_length
      cases t2lm.linkMappingSize <;> decide
  rw [length_append, length_append]
  omega

theorem readT2lmControl_eq {t2lm : T2lmInfo} (hdir : t2lm.direction ≠ none) {m : Library.Mem}
    {field ieLen : ℕ} {bs : List Byte} (h : m.Holds field (t2lmControlBytes t2lm ++ bs))
    (hlong : t2lm.defaultLinkMapping = false → 2 < ieLen) :
    ControlOf (readT2lmControl m field ieLen) t2lm ∧ (t2lm.defaultLinkMapping = false →
      getBits (readT2lmControl m field ieLen) 8 8 = linkMappingPresence t2lm) := by
  have hcontrol := controlOf_t2lmControl hdir
  have hheld := h.left
  rw [t2lmControlBytes] at hheld
  by_cases hdef : t2lm.defaultLinkMapping = true
  · rw [if_pos hdef] at hheld
    have hbyte : m field = (t2lmControl t2lm).setWidth 8 := hheld 0 _ rfl
    refine ⟨hcontrol.of_setWidth ?_, fun hfalse => absurd (hdef.symm.trans hfalse) (by decide)⟩
    rw [readT2lmControl_low, hbyte]
  · rw [if_neg hdef] at hheld
    rw [readT2lmControl, if_pos (hlong (Bool.eq_false_iff.2 hdef)), hheld.read16]
    exact ⟨hcontrol.of_setWidth (setWidth_setBits (by decide)),
      fun _ => getBits_setBits (by decide) (linkMappingPresence_lt t2lm)⟩

theorem parseT2lmInfo_eq {t2lm : T2lmInfo} (h : t2lm.Sendable) (hdir : t2lm.direction = some dir)
    {m : Library.Mem} (hholds : m.Holds ie (addT2lmInfoIe t2lm none)) :
    parseT2lmInfo m ie = if t2lm.AllMapped then .ok t2lm.received else .error .proto := by
  rw [addT2lmInfoIe_eq h] at hholds
  have hcontrolLen := length_t2lmControlBytes t2lm
  have hlt := length_body_lt t2lm
  have hle : (t2lmControlBytes t2lm).length ≤
      (t2lmControlBytes t2lm ++ (durationBytes t2lm ++ linkMapsBytes t2lm)).length := by
    rw [length_append]
    exact Nat.le_add_right _ _
  generalize hbody : t2lmControlBytes t2lm ++ (durationBytes t2lm ++ linkMapsBytes t2lm) = body
    at hholds hlt hle
  have hieLen : (m (ie + 1)).toNat = 1 + body.length := by
    have hbyte : m (ie + 1) = BitVec.ofNat 8 (1 + body.length) := hholds 1 _ rfl
    rw [hbyte, BitVec.toNat_ofNat]
    omega
  have hheld : m.Holds (ie + 3) body := hholds.right
  rw [← hbody] at hheld
  let start : T2lmCursor := { ptr := ie + 3, parsed := 1 }
  have hstart : start.At m (1 + body.length)
      (t2lmControlBytes t2lm ++ (durationBytes t2lm ++ linkMapsBytes t2lm)) :=
    ⟨hheld, by rw [hbody]⟩
  have hlong : t2lm.defaultLinkMapping = false → 2 < 1 + body.length := by
    intro hdef
    rw [hdef, if_neg Bool.false_ne_true] at hcontrolLen
    omega
  have hmin : ¬1 + body.length < 2 := by
    have hone : 1 ≤ (t2lmControlBytes t2lm).length := by
      rw [hcontrolLen]
      split <;> decide
    omega
  obtain ⟨hcontrol, hpresence⟩ := readT2lmControl_eq (by rw [hdir]; simp) hheld hlong
  generalize hread : readT2lmControl m (ie + 3) (1 + body.length) = control at hcontrol hpresence
  have hfields : t2lmInfoOf dir control = _ := t2lmInfoOf_eq hcontrol
  generalize hgot : t2lmInfoOf dir control = got at hfields
  have hdefault : got.defaultLinkMapping = t2lm.defaultLinkMapping := by rw [hfields]
  have hpresent : got.expectedDurationPresent = t2lm.expectedDurationPresent := by rw [hfields]
  have hsize : got.linkMappingSize = t2lm.linkMappingSize := by rw [hfields]
  have hswitch : got.mappingSwitchTimePresent = false := by rw [hfields, h.switchTime]
  obtain ⟨c₁, hskip, hat₁⟩ := hstart.skip hcontrolLen
  obtain ⟨c₂, hat₂, hduration⟩ := parseDuration_eq h hpresent (by rw [hfields]; rfl) hat₁
  unfold parseT2lmInfo
  dsimp only
  rw [hieLen, hread, if_neg hmin, hcontrol.direction, hdir, t2lmDirectionOf_value]
  dsimp only
  rw [hgot, hdefault, hskip]
  dsimp only [bind, Except.bind]
  rw [parseSwitchTime_eq hswitch]
  dsimp only
  rw [hduration]
  let got' : T2lmInfo := { got with
    expectedDuration := if t2lm.expectedDurationPresent then t2lm.expectedDuration else 0 }
  have hzero : got'.ieeeLinkMapTid = fun _ => 0 := by
    rw [show got'.ieeeLinkMapTid = got.ieeeLinkMapTid from rfl, hfields]
    rfl
  have hgot' : ({ got' with ieeeLinkMapTid :=
      if t2lm.defaultLinkMapping then fun _ => 0 else t2lm.ieeeLinkMapTid } : T2lmInfo) =
        t2lm.received := by
    rw [T2lmInfo.received, hdir]
    dsimp only [got']
    rw [hfields, h.switchTime]
    rfl
  have hdefault' : got'.defaultLinkMapping = t2lm.defaultLinkMapping := hdefault
  have hsize' : got'.linkMappingSize = t2lm.linkMappingSize := hsize
  have hmaps := parseT2lmMaps_eq h hdefault' hsize' hzero hpresence hat₂
  rw [hgot'] at hmaps
  exact hmaps

/-! ## Elements -/

/-- The entries of a frame: one for either direction, or some of the others. -/
structure T2lmNegotiation.Sendable (t2lm : T2lmNegotiation) : Prop where
  direction : ∀ dir, (t2lm.t2lmInfo dir).direction = none ∨
    (t2lm.t2lmInfo dir).direction = some dir
  nonempty : ∃ dir, (t2lm.t2lmInfo dir).direction ≠ none
  alone : ¬t2lm.Clashes
  entry : ∀ dir, (t2lm.t2lmInfo dir).direction ≠ none → (t2lm.t2lmInfo dir).Sendable

def T2lmNegotiation.present (t2lm : T2lmNegotiation) : List T2lmDirection :=
  t2lmDirections.filter fun dir => (t2lm.t2lmInfo dir).direction ≠ none

def T2lmNegotiation.elements (t2lm : T2lmNegotiation) (dirs : List T2lmDirection) : List Byte :=
  dirs.flatMap fun dir => addT2lmInfoIe (t2lm.t2lmInfo dir) none

theorem addT2lmIe_eq {t2lm : T2lmNegotiation} (h : ¬t2lm.Clashes) :
    addT2lmIe t2lm none = some (t2lm.elements t2lm.present) := by
  rw [addT2lmIe, if_neg h, T2lmNegotiation.elements, T2lmNegotiation.present]
  congr 1
  generalize t2lmDirections = dirs
  induction dirs with
  | nil => rfl
  | cons dir dirs ih =>
    rw [flatMap_cons, ih]
    by_cases hdir : (t2lm.t2lmInfo dir).direction ≠ none
    · rw [if_pos hdir, filter_cons, if_pos (decide_eq_true hdir), flatMap_cons]
    · rw [if_neg hdir, filter_cons, if_neg (by simpa using hdir), nil_append]

theorem element_header {t2lm : T2lmInfo} (h : t2lm.Sendable) {m : Library.Mem}
    (hholds : m.Holds ie (addT2lmInfoIe t2lm none)) :
    m ie = elemidExtnElem ∧ m (ie + 2) = extnElemidT2lm ∧
      (m (ie + 1)).toNat + 2 = (addT2lmInfoIe t2lm none).length := by
  have hlt := length_body_lt t2lm
  rw [addT2lmInfoIe_eq h] at hholds ⊢
  generalize t2lmControlBytes t2lm ++ (durationBytes t2lm ++ linkMapsBytes t2lm) = body at *
  have hlen : m (ie + 1) = BitVec.ofNat 8 (1 + body.length) := hholds 1 _ rfl
  refine ⟨hholds 0 _ rfl, hholds 2 _ rfl, ?_⟩
  rw [hlen, BitVec.toNat_ofNat, length_append]
  simp only [length_cons, length_nil]
  omega

theorem parseT2lmIes_element {info : T2lmInfo} (hdir : info.direction = some dir)
    (h : info.Sendable) {m : Library.Mem} {frameLen k parsed : ℕ}
    (hholds : m.Holds ie (addT2lmInfoIe info none))
    (hlen : parsed + (addT2lmInfoIe info none).length ≤ frameLen) (got : T2lmNegotiation) :
    parseT2lmIes m frameLen (k + 1) ie parsed got =
      if info.AllMapped then
        parseT2lmIes m frameLen k (ie + (addT2lmInfoIe info none).length)
          (parsed + (addT2lmInfoIe info none).length)
          { got with t2lmInfo := Function.update got.t2lmInfo dir info.received }
      else (.proto, got) := by
  obtain ⟨hid, hext, hsize⟩ := element_header h hholds
  have hmin : 3 ≤ (addT2lmInfoIe info none).length := by
    rw [addT2lmInfoIe_eq h, length_append]
    exact Nat.le_add_right 3 _
  rw [parseT2lmIes]
  dsimp only
  rw [if_neg (by omega), if_neg (by omega), if_neg (by omega), if_pos ⟨hid, hext⟩, hsize,
    if_neg (by omega), parseT2lmInfo_eq h hdir hholds]
  by_cases hmapped : info.AllMapped
  · rw [if_pos hmapped, if_pos hmapped]
    dsimp only
    rw [show info.received.direction = some dir from hdir]
  · rw [if_neg hmapped, if_neg hmapped]

def T2lmNegotiation.fill (got sent : T2lmNegotiation) (dirs : List T2lmDirection) :
    T2lmNegotiation :=
  { got with t2lmInfo := fun dir =>
      if dir ∈ dirs then (sent.t2lmInfo dir).received else got.t2lmInfo dir }

theorem fill_cons (got sent : T2lmNegotiation) (dir : T2lmDirection) (dirs : List T2lmDirection) :
    ({ got with t2lmInfo := Function.update got.t2lmInfo dir (sent.t2lmInfo dir).received } :
      T2lmNegotiation).fill sent dirs = got.fill sent (dir :: dirs) := by
  rw [T2lmNegotiation.fill, T2lmNegotiation.fill]
  congr 1
  funext j
  dsimp only
  by_cases hj : j ∈ dirs
  · rw [if_pos hj, if_pos (mem_cons_of_mem dir hj)]
  · by_cases hjd : j = dir
    · subst hjd
      rw [if_neg hj, if_pos mem_cons_self, update_self]
    · rw [if_neg hj, if_neg (not_mem_cons_of_ne_of_not_mem hjd hj), update_of_ne hjd]

section Elements

variable {sent : T2lmNegotiation} {m : Library.Mem} {frameLen : ℕ}

variable {dirs : List T2lmDirection} {k ie parsed : ℕ}

theorem parseT2lmIes_eq
    (hentry : ∀ dir ∈ dirs, (sent.t2lmInfo dir).direction = some dir ∧ (sent.t2lmInfo dir).Sendable)
    (hmapped : ∀ dir ∈ dirs, (sent.t2lmInfo dir).AllMapped) (hpos : frameLen ≠ 0)
    (hk : dirs.length < k) (hholds : m.Holds ie (sent.elements dirs))
    (hlen : frameLen = parsed + (sent.elements dirs).length) (got : T2lmNegotiation) :
    parseT2lmIes m frameLen k ie parsed got = (.success, got.fill sent dirs) := by
  induction dirs generalizing k ie parsed got with
  | nil =>
    obtain ⟨k, rfl⟩ := Nat.exists_eq_add_of_lt hk
    have hend : frameLen = parsed := hlen
    rw [length_nil, Nat.zero_add, parseT2lmIes, if_neg hpos, if_pos hend]
    simp [T2lmNegotiation.fill]
  | cons dir dirs ih =>
    obtain ⟨k, rfl⟩ : ∃ k', k = k' + 1 := ⟨k - 1, by omega⟩
    obtain ⟨hdir, hsendable⟩ := hentry dir mem_cons_self
    rw [T2lmNegotiation.elements, flatMap_cons] at hholds hlen
    rw [length_append] at hlen
    rw [parseT2lmIes_element hdir hsendable hholds.left (by omega),
      if_pos (hmapped dir mem_cons_self),
      ih (fun j hj => hentry j (mem_cons_of_mem dir hj))
        (fun j hj => hmapped j (mem_cons_of_mem dir hj)) (Nat.lt_of_succ_lt_succ hk)
        hholds.right (by rw [T2lmNegotiation.elements]; omega), fill_cons]

theorem parseT2lmIes_proto
    (hentry : ∀ dir ∈ dirs, (sent.t2lmInfo dir).direction = some dir ∧ (sent.t2lmInfo dir).Sendable)
    (hmapped : ¬∀ dir ∈ dirs, (sent.t2lmInfo dir).AllMapped) (hk : dirs.length < k)
    (hholds : m.Holds ie (sent.elements dirs))
    (hlen : frameLen = parsed + (sent.elements dirs).length) (got : T2lmNegotiation) :
    (parseT2lmIes m frameLen k ie parsed got).1 = .proto := by
  induction dirs generalizing k ie parsed got with
  | nil => exact absurd (fun dir hdir => absurd hdir not_mem_nil) hmapped
  | cons dir dirs ih =>
    obtain ⟨k, rfl⟩ : ∃ k', k = k' + 1 := ⟨k - 1, by omega⟩
    obtain ⟨hdir, hsendable⟩ := hentry dir mem_cons_self
    rw [T2lmNegotiation.elements, flatMap_cons] at hholds hlen
    rw [length_append] at hlen
    rw [parseT2lmIes_element hdir hsendable hholds.left (by omega)]
    by_cases hfirst : (sent.t2lmInfo dir).AllMapped
    · rw [if_pos hfirst]
      refine ih (fun j hj => hentry j (mem_cons_of_mem dir hj)) (fun hall => ?_)
        (Nat.lt_of_succ_lt_succ hk) hholds.right (by rw [T2lmNegotiation.elements]; omega) _
      exact hmapped (forall_mem_cons.2 ⟨hfirst, hall⟩)
    · rw [if_neg hfirst]

end Elements

/-! ## Frames -/

/-- The entry was received: the direction, the default flag, the expected duration and, unless the
mapping is the default one, the size and the IEEE link maps. -/
structure T2lmInfo.Recovers (sent got : T2lmInfo) : Prop where
  direction : got.direction = sent.direction
  default : got.defaultLinkMapping = sent.defaultLinkMapping
  durationPresent : got.expectedDurationPresent = sent.expectedDurationPresent
  duration : got.expectedDuration =
    if sent.expectedDurationPresent then sent.expectedDuration else 0
  size : sent.defaultLinkMapping = false → got.linkMappingSize = sent.linkMappingSize
  maps : sent.defaultLinkMapping = false → got.ieeeLinkMapTid = sent.ieeeLinkMapTid

/-- Parsing the frame succeeds, with the entries of the sender and no others. -/
structure T2lmNegotiation.Received (sent : T2lmNegotiation)
    (r : T2lmStatus × T2lmNegotiation) : Prop where
  success : r.1 = .success
  entry : ∀ dir, (sent.t2lmInfo dir).direction ≠ none →
    (sent.t2lmInfo dir).Recovers (r.2.t2lmInfo dir)
  absent : ∀ dir, (sent.t2lmInfo dir).direction = none → (r.2.t2lmInfo dir).direction = none

theorem T2lmInfo.recovers_received (sent : T2lmInfo) : sent.Recovers sent.received :=
  { direction := rfl, default := rfl, durationPresent := rfl, duration := rfl
    size := fun _ => rfl
    maps := fun hdef => if_neg (by rw [hdef]; exact Bool.false_ne_true) }

namespace T2lmNegotiation.Sendable

variable {sent : T2lmNegotiation}

theorem mem_present {dir : T2lmDirection} :
    dir ∈ sent.present ↔ (sent.t2lmInfo dir).direction ≠ none := by
  have hmem : dir ∈ t2lmDirections := by cases dir <;> decide
  rw [present, mem_filter, decide_eq_true_eq]
  exact and_iff_right hmem

variable (h : sent.Sendable)
include h

theorem length_present_lt : sent.present.length < t2lmDirections.length := by
  refine (length_filter_le _ _).lt_of_ne fun hall => h.alone ?_
  have hpresent (dir : T2lmDirection) : (sent.t2lmInfo dir).direction = some dir := by
    have hmem : dir ∈ t2lmDirections := by cases dir <;> decide
    have hne := of_decide_eq_true (length_filter_eq_length_iff.1 hall dir hmem)
    exact (h.direction dir).resolve_left hne
  exact ⟨.inl (hpresent .dl), hpresent .bidi⟩

theorem elements_ne_nil : (sent.elements sent.present).length ≠ 0 := by
  obtain ⟨dir, hdir⟩ := h.nonempty
  have hmem := mem_present.2 hdir
  have hheader := addT2lmInfoIe_eq (h.entry dir hdir)
  intro hzero
  have hnil := flatMap_eq_nil_iff.1 (eq_nil_of_length_eq_zero hzero) dir hmem
  rw [hheader] at hnil
  cases hnil

theorem parseT2lmIe_received {m : Library.Mem} {ie frameLen : ℕ}
    (hholds : m.Holds ie (sent.elements sent.present))
    (hlen : frameLen = (sent.elements sent.present).length) (got : T2lmNegotiation) :
    sent.Received (parseT2lmIe m got ie frameLen) ↔
      ∀ dir, (sent.t2lmInfo dir).direction ≠ none → (sent.t2lmInfo dir).AllMapped := by
  have hpos : frameLen ≠ 0 := hlen ▸ h.elements_ne_nil
  have hentry : ∀ dir ∈ sent.present,
      (sent.t2lmInfo dir).direction = some dir ∧ (sent.t2lmInfo dir).Sendable := by
    intro dir hdir
    have hne := mem_present.1 hdir
    exact ⟨(h.direction dir).resolve_left hne, h.entry dir hne⟩
  have hlen' : frameLen = 0 + (sent.elements sent.present).length := by omega
  have hmem : (∀ dir ∈ sent.present, (sent.t2lmInfo dir).AllMapped) ↔
      ∀ dir, (sent.t2lmInfo dir).direction ≠ none → (sent.t2lmInfo dir).AllMapped :=
    forall_congr' fun dir => by rw [mem_present]
  rw [← hmem, parseT2lmIe]
  constructor
  · intro hreceived
    by_contra hnot
    have hproto := parseT2lmIes_proto hentry hnot h.length_present_lt hholds hlen' got.invalidate
    have hsuccess := hreceived.success
    rw [hproto] at hsuccess
    cases hsuccess
  · intro hmapped
    rw [parseT2lmIes_eq hentry hmapped hpos h.length_present_lt hholds hlen']
    refine ⟨rfl, fun dir hdir => ?_, fun dir hdir => ?_⟩
    · have hfill : ((got.invalidate.fill sent sent.present).t2lmInfo dir) =
          (sent.t2lmInfo dir).received := if_pos (mem_present.2 hdir)
      rw [hfill]
      exact (sent.t2lmInfo dir).recovers_received
    · have hnot : dir ∉ sent.present := fun hmem => mem_present.1 hmem hdir
      have hfill : ((got.invalidate.fill sent sent.present).t2lmInfo dir) =
          got.invalidate.t2lmInfo dir := if_neg hnot
      rw [hfill]
      rfl

end T2lmNegotiation.Sendable

/-- A frame with elements: a request, or a response with the preferred mapping. -/
def CarriesMapping (args : ActionFrameArgs) : T2lmCategory → Prop
  | .request => True
  | .response => args.arg2.toNat = respTypePreferred
  | _ => False

/-- The frame that is written for a negotiation is parsed back to its entries exactly where each TID
of an entry that is not the default mapping has an IEEE link map if it has a hardware one. -/
theorem t2lm_round_trip_iff {sent : T2lmNegotiation} (h : sent.Sendable) (args : ActionFrameArgs)
    {category : T2lmCategory} (hcategory : CarriesMapping args category) (m : Library.Mem) (frm : ℕ)
    (got : T2lmNegotiation) :
    (∃ frame, addT2lmActionFrame args sent category = some frame ∧
      sent.Received (parseT2lmActionFrame (m.store frm frame) got frm frame.length category)) ↔
        ∀ dir, (sent.t2lmInfo dir).direction ≠ none → (sent.t2lmInfo dir).AllMapped := by
  cases category with
  | none => exact absurd hcategory not_false
  | teardown => exact absurd hcategory not_false
  | invalid => exact absurd hcategory not_false
  | request =>
    have hframe : addT2lmActionFrame args sent .request =
        some ([args.category, args.action, args.arg1.setWidth 8] ++
          sent.elements sent.present) := by
      rw [addT2lmActionFrame, addT2lmRequestActionFrame, addT2lmIe_eq h.alone]
      rfl
    have hholds := (m.holds_store frm
      ([args.category, args.action, args.arg1.setWidth 8] ++ sent.elements sent.present)).right
    rw [hframe]
    simp only [Option.some.injEq, exists_eq_left']
    rw [parseT2lmActionFrame, parseT2lmRequestActionFrame, length_append]
    refine Iff.trans (iff_of_eq (congrArg sent.Received (if_neg ?_)))
      (h.parseT2lmIe_received hholds ?_ _)
    · simp
    · simp
  | response =>
    have htype : args.arg2.toNat = respTypePreferred := hcategory
    have hframe : addT2lmActionFrame args sent .response =
        some ([args.category, args.action, args.arg1.setWidth 8] ++
          bytes16 (args.arg2.setWidth 16) ++ sent.elements sent.present) := by
      rw [addT2lmActionFrame, addT2lmResponseActionFrame, addT2lmIe_eq h.alone]
      exact if_pos htype
    have hstore := m.holds_store frm ([args.category, args.action, args.arg1.setWidth 8] ++
      bytes16 (args.arg2.setWidth 16) ++ sent.elements sent.present)
    have hread := hstore.left.right.read16
    have hread' : ((m.store frm ([args.category, args.action, args.arg1.setWidth 8] ++
        bytes16 (args.arg2.setWidth 16) ++ sent.elements sent.present)).read16
          (frm + 3)).toNat = respTypePreferred := by
      refine (congrArg BitVec.toNat hread).trans ?_
      rw [BitVec.toNat_setWidth, htype]
      rfl
    rw [hframe]
    simp only [Option.some.injEq, exists_eq_left']
    rw [parseT2lmActionFrame, parseT2lmResponseActionFrame, length_append]
    refine Iff.trans (iff_of_eq (congrArg sent.Received ((if_neg ?_).trans (if_pos hread'))))
      (h.parseT2lmIe_received hstore.right ?_ _)
    · simp
    · simp

def exampleInfo : T2lmDirection → T2lmInfo
  | .dl => { T2lmInfo.zero with
      direction := some .dl, defaultLinkMapping := true, expectedDurationPresent := true
      expectedDuration := 70000, hwLinkMapTid := fun _ => 3 }
  | .ul => { T2lmInfo.zero with
      direction := some .ul
      ieeeLinkMapTid := fun tid => if tid = 2 ∨ tid = 5 then 0x105 else 0
      hwLinkMapTid := fun tid => if tid = 2 then 3 else 0 }
  | .bidi => { T2lmInfo.zero with direction := none }

theorem t2lm_round_trip_dlUl :
    ∃ frame, addT2lmActionFrame ⟨37, 1, 9, 134⟩
        { T2lmNegotiation.zero with t2lmInfo := exampleInfo } .response = some frame ∧
      T2lmNegotiation.Received { T2lmNegotiation.zero with t2lmInfo := exampleInfo }
        (parseT2lmActionFrame (Library.Mem.store (fun _ => 0) 64 frame) .zero 64 frame.length
          .response) := by
  have hentry (dir : T2lmDirection) : (exampleInfo dir).Sendable := by
    cases dir
    · exact ⟨rfl, by decide, by decide⟩
    · exact ⟨rfl, by decide, by decide⟩
    · exact ⟨rfl, by decide, by decide⟩
  have hcarries : CarriesMapping ⟨37, 1, 9, 134⟩ .response := rfl
  refine (t2lm_round_trip_iff ⟨?_, ⟨.dl, by decide⟩, by decide, fun dir _ => hentry dir⟩ _ hcarries
    (fun _ => 0) 64 .zero).2 ?_
  · intro dir
    cases dir <;> decide
  · intro dir _
    cases dir <;> decide

def exampleHostOnly : T2lmNegotiation :=
  { T2lmNegotiation.zero with
    t2lmInfo := fun dir => match dir with
      | .bidi => { T2lmInfo.zero with
          direction := some .bidi, hwLinkMapTid := fun tid => if tid = 0 then 1 else 0 }
      | _ => { T2lmInfo.zero with direction := none } }

/-- The presence indicator names the TID, and there is no link map for it. -/
theorem host_only_refused :
    ¬∀ sent : T2lmNegotiation, sent.Sendable → ∀ (args : ActionFrameArgs) (category : T2lmCategory),
      CarriesMapping args category → ∀ (m : Library.Mem) (frm : ℕ) (got : T2lmNegotiation),
        ∃ frame, addT2lmActionFrame args sent category = some frame ∧
          sent.Received
            (parseT2lmActionFrame (m.store frm frame) got frm frame.length category) := by
  intro hall
  have hsendable : exampleHostOnly.Sendable := by
    refine ⟨fun dir => ?_, ⟨.bidi, by decide⟩, by decide, fun dir _ => ?_⟩
    · cases dir <;> decide
    · cases dir
      · exact ⟨rfl, by decide, by decide⟩
      · exact ⟨rfl, by decide, by decide⟩
      · exact ⟨rfl, by decide, by decide⟩
  obtain ⟨frame, hframe, hreceived⟩ := hall exampleHostOnly hsendable ⟨37, 0, 9, 0⟩ .request trivial
    (fun _ => 0) 0 .zero
  have hwritten : addT2lmActionFrame ⟨37, 0, 9, 0⟩ exampleHostOnly .request =
      some [37, 0, 9, 255, 3, 109, 2, 1] := by decide +kernel
  obtain rfl := Option.some.inj (hwritten.symm.trans hframe)
  have hproto : (parseT2lmActionFrame (Library.Mem.store (fun _ => 0) 0
      [37, 0, 9, 255, 3, 109, 2, 1]) .zero 0 8 .request).1 = .proto := by decide +kernel
  have hsuccess := hreceived.success
  rw [show [37, 0, 9, 255, 3, 109, 2, (1 : Byte)].length = 8 from rfl, hproto] at hsuccess
  cases hsuccess

end QcomModules.Wlan
