import QcomModules.Wlan.Fragment

/-! Inline creation of a fragment sequence. The fragments are placed from the last one down to the
one after the lead, each move reading bytes that the moves before it have left alone. -/

namespace QcomModules.Wlan

open Function

/-! ## Element units -/

@[simp] theorem wlanGetElemunitInfo_hdrlen (sub : Bool) (fragid : UInt8) :
    (wlanGetElemunitInfo sub fragid).hdrlen = 2 := by
  cases sub <;> rfl

@[simp] theorem wlanGetElemunitInfo_maxpayloadlen (sub : Bool) (fragid : UInt8) :
    (wlanGetElemunitInfo sub fragid).maxpayloadlen = 255 := by
  cases sub <;> rfl

@[simp] theorem wlanGetElemunitInfo_idPos (sub : Bool) (fragid : UInt8) :
    (wlanGetElemunitInfo sub fragid).idPos = 0 := by
  cases sub <;> rfl

@[simp] theorem wlanGetElemunitInfo_lenPos (sub : Bool) (fragid : UInt8) :
    (wlanGetElemunitInfo sub fragid).lenPos = 1 := by
  cases sub <;> rfl

theorem wlanGetElemunitInfo_idextPos {sub : Bool} {id : UInt8} (fragid : UInt8)
    (hext : hasIdext sub id = true) : (wlanGetElemunitInfo sub fragid).idextPos = 2 := by
  cases sub with
  | true => simp [hasIdext] at hext
  | false => rfl

/-! ## Layouts -/

/-- Where the fragments go: the lead one and `last` more, of 255 bytes each but the last. The
ID extension is the first `ext` bytes of what is split. -/
structure Layout where
  buff : ℕ
  ext : ℕ
  last : ℕ
  lastLen : ℕ
  trailing : ℕ
  last_pos : 1 ≤ last
  lastLen_pos : 1 ≤ lastLen
  lastLen_le : lastLen ≤ 255
  ext_le : ext ≤ 1

namespace Layout

variable (l : Layout)

def fragLen (i : ℕ) : ℕ := if i < l.last then 255 else l.lastLen

def contentLen : ℕ := 255 * l.last + l.lastLen

def fragseqlen : ℕ := 2 + l.contentLen + 2 * l.last

def maxsize : ℕ := l.fragseqlen + l.trailing

theorem fragLen_of_lt {i : ℕ} (hi : i < l.last) : l.fragLen i = 255 := by
  rw [fragLen, if_pos hi]

theorem fragLen_last : l.fragLen l.last = l.lastLen := by
  rw [fragLen, if_neg (Nat.lt_irrefl _)]

theorem fragLen_le (i : ℕ) : l.fragLen i ≤ 255 := by
  have := l.lastLen_le
  rw [fragLen]
  split <;> omega

theorem fragLen_pos (i : ℕ) : 1 ≤ l.fragLen i := by
  have := l.lastLen_pos
  rw [fragLen]
  split <;> omega

theorem toNat_fragLen (i : ℕ) : (UInt8.ofNat (l.fragLen i)).toNat = l.fragLen i := by
  have := l.fragLen_le i
  rw [UInt8.toNat_ofNat']
  omega

/-- The arguments and parameters that a layout stands for. -/
structure Describes (args : CreateArgs) (params : CreationParams) : Prop where
  inlineFrag : args.inlineFrag = true
  payloadbuff : args.payloadbuff = l.buff
  payloadbuffMaxsize : args.payloadbuffMaxsize = l.maxsize
  prepayloadLeadbytes : params.prepayloadLeadbytes = 2 + l.ext
  payloadlen : l.ext + args.payloadlen = l.contentLen
  extrahdrbytes : params.extrahdrbytes = 2 * l.last
  expectedFragseqlen : params.expectedFragseqlen = l.fragseqlen
  lastFrag : (params.smallerfragSize = l.lastLen ∧ params.numMaxsizefrags = l.last) ∨
    params.smallerfragSize = 0 ∧ l.lastLen = 255 ∧ params.numMaxsizefrags = l.last + 1

/-- Fragments from `j` on have their headers and their bytes of `source`, and what follows the
payload comes after them. -/
structure Placed (fragid : UInt8) (source mem : Mem) (j : ℕ) : Prop where
  fragId : ∀ i, j ≤ i → i ≤ l.last → mem (l.buff + 257 * i) = fragid
  len : ∀ i, j ≤ i → i ≤ l.last → mem (l.buff + 257 * i + 1) = UInt8.ofNat (l.fragLen i)
  content : ∀ i a, j ≤ i → i ≤ l.last → l.buff + 257 * i + 2 ≤ a →
    a < l.buff + 257 * i + 2 + l.fragLen i → mem a = source (a - 2 * i)
  trailing : ∀ a, l.buff + l.fragseqlen ≤ a → a < l.buff + l.maxsize →
    mem a = source (a - 2 * l.last)

/-- In the middle of creation, what precedes fragment `j` is as it was. -/
structure Fragmented (fragid : UInt8) (source mem : Mem) (j : ℕ) : Prop
    extends l.Placed fragid source mem j where
  below : ∀ a, a < l.buff + 2 + 255 * j → mem a = source a

end Layout

/-! ## One fragment -/

variable {l : Layout} {args : CreateArgs} {params : CreationParams} {sub : Bool} {fragid : UInt8}
variable {source mem : Mem}

variable {j ext payloadlen : ℕ} {isLast : Bool}

theorem moveFragment_apply (sub : Bool) (fragid : UInt8) (mem : Mem) (hd : l.Describes args params)
    (hj : 1 ≤ j) (hjl : j ≤ l.last) (hlast : isLast = decide (j = l.last)) (a : ℕ) :
    moveFragment args (wlanGetElemunitInfo sub fragid) params (2 + j * 255) (2 * j)
        (l.fragLen j) isLast mem a =
      if a = l.buff + 257 * j + 1 then UInt8.ofNat (l.fragLen j)
      else if a = l.buff + 257 * j then (wlanGetElemunitInfo sub fragid).fragid
      else if l.buff + 257 * j + 2 ≤ a ∧
          a < l.buff + 257 * j + 2 + l.fragLen j + (if j = l.last then l.trailing else 0) then
        mem (a - 2 * j)
      else mem a := by
  have hmax : params.prepayloadLeadbytes + args.payloadlen < args.payloadbuffMaxsize := by
    rw [hd.prepayloadLeadbytes, hd.payloadbuffMaxsize, Layout.maxsize, Layout.fragseqlen,
      ← hd.payloadlen]
    omega
  have hrest : args.payloadbuffMaxsize - params.prepayloadLeadbytes - args.payloadlen -
      2 * l.last = l.trailing := by
    rw [hd.prepayloadLeadbytes, hd.payloadbuffMaxsize, Layout.maxsize, Layout.fragseqlen,
      ← hd.payloadlen]
    omega
  have hdst : l.buff + (2 + j * 255) + 2 * j = l.buff + 257 * j + 2 := by omega
  have hshift : l.buff + (2 + j * 255) + 2 * j - (l.buff + (2 + j * 255)) = 2 * j := by omega
  have hbytes : (if (isLast && decide (params.prepayloadLeadbytes + args.payloadlen <
        args.payloadbuffMaxsize)) = true then
      l.fragLen j + (args.payloadbuffMaxsize - params.prepayloadLeadbytes - args.payloadlen -
        2 * j) else l.fragLen j) =
      l.fragLen j + if j = l.last then l.trailing else 0 := by
    by_cases heq : j = l.last
    · rw [heq] at hlast ⊢
      simp [hlast, hmax, hrest]
    · simp [hlast, heq]
  have hlt : l.buff + (2 + j * 255) < l.buff + (2 + j * 255) + 2 * j := by omega
  simp only [moveFragment, hd.inlineFrag, hd.payloadbuff, if_true, Bool.true_and, hlt,
    decide_true, hshift, hbytes, wlanGetElemunitInfo_hdrlen, wlanGetElemunitInfo_idPos,
    wlanGetElemunitInfo_lenPos, update_apply]
  rw [hdst, show l.buff + 257 * j + 2 - 2 + 1 = l.buff + 257 * j + 1 by omega,
    show l.buff + 257 * j + 2 - 2 + 0 = l.buff + 257 * j by omega]
  refine if_congr Iff.rfl rfl (if_congr Iff.rfl rfl ?_)
  rw [qdfMemMove]
  by_cases hin : l.buff + 257 * j + 2 ≤ a ∧
      a < l.buff + 257 * j + 2 + (l.fragLen j + if j = l.last then l.trailing else 0)
  · rw [if_pos hin, if_pos (by omega)]
    congr 1
    omega
  · rw [if_neg hin, if_neg (by omega)]

theorem Layout.fragmented_last (sub : Bool) (fragid : UInt8) (source : Mem)
    (hd : l.Describes args params) (hlast : isLast = true) :
    l.Fragmented (wlanGetElemunitInfo sub fragid).fragid source
      (moveFragment args (wlanGetElemunitInfo sub fragid) params (2 + l.last * 255) (2 * l.last)
        (l.fragLen l.last) isLast source) l.last := by
  have hpos := l.last_pos
  have hlen := l.fragLen_last
  have happly := moveFragment_apply sub fragid source hd hpos
    Nat.le.refl (hlast.trans (decide_eq_true rfl).symm)
  rw [if_pos rfl] at happly
  refine ⟨⟨?_, ?_, ?_, ?_⟩, ?_⟩
  · intro i hi hil
    rw [Nat.le_antisymm hil hi, happly, if_neg (by omega), if_pos rfl]
  · intro i hi hil
    rw [Nat.le_antisymm hil hi, happly, if_pos rfl]
  · intro i a hi hil ha ha'
    obtain rfl := Nat.le_antisymm hil hi
    rw [happly, if_neg (by omega), if_neg (by omega), if_pos (by omega)]
  · intro a ha ha'
    rw [Layout.maxsize] at ha'
    rw [Layout.fragseqlen, Layout.contentLen] at ha ha'
    rw [happly, if_neg (by omega), if_neg (by omega), if_pos (by omega)]
  · intro a ha
    rw [happly, if_neg (by omega), if_neg (by omega), if_neg (by omega)]

theorem Layout.Fragmented.move (hd : l.Describes args params) (hj : 1 ≤ j) (hjl : j < l.last)
    (hlast : isLast = false)
    (h : l.Fragmented (wlanGetElemunitInfo sub fragid).fragid source mem (j + 1)) :
    l.Fragmented (wlanGetElemunitInfo sub fragid).fragid source
      (moveFragment args (wlanGetElemunitInfo sub fragid) params (2 + j * 255) (2 * j) 255 isLast
        mem) j := by
  have hlen := l.fragLen_of_lt hjl
  have hne : j ≠ l.last := Nat.ne_of_lt hjl
  have happly := moveFragment_apply sub fragid mem hd hj
    (Nat.le_of_lt hjl) (hlast.trans (decide_eq_false hne).symm)
  rw [if_neg hne, hlen] at happly
  -- nothing above the fragment is touched
  have habove : ∀ a, l.buff + 257 * (j + 1) ≤ a →
      moveFragment args (wlanGetElemunitInfo sub fragid) params (2 + j * 255) (2 * j) 255 isLast
        mem a = mem a := by
    intro a ha
    rw [happly, if_neg (by omega), if_neg (by omega), if_neg (by omega)]
  refine ⟨⟨?_, ?_, ?_, ?_⟩, ?_⟩
  · intro i hi hil
    rcases Nat.eq_or_lt_of_le hi with rfl | hi
    · rw [happly, if_neg (by omega), if_pos rfl]
    · rw [habove _ (by omega), h.fragId i hi hil]
  · intro i hi hil
    rcases Nat.eq_or_lt_of_le hi with rfl | hi
    · rw [happly, if_pos rfl, hlen]
    · rw [habove _ (by omega), h.len i hi hil]
  · intro i a hi hil ha ha'
    rcases Nat.eq_or_lt_of_le hi with rfl | hi
    · rw [hlen] at ha'
      rw [happly, if_neg (by omega), if_neg (by omega), if_pos (by omega), h.below _ (by omega)]
    · rw [habove _ (by omega), h.content i a hi hil ha ha']
  · intro a ha ha'
    rw [habove _ (by rw [Layout.fragseqlen, Layout.contentLen] at ha; omega), h.trailing a ha ha']
  · intro a ha
    rw [happly, if_neg (by omega), if_neg (by omega), if_neg (by omega), h.below a (by omega)]

/-! ## All fragments -/

theorem Layout.Fragmented.moveFragments (hd : l.Describes args params) {i : ℕ} (hi : i < l.last)
    (h : l.Fragmented (wlanGetElemunitInfo sub fragid).fragid source mem (i + 1)) :
    l.Fragmented (wlanGetElemunitInfo sub fragid).fragid source
      (moveFragments args (wlanGetElemunitInfo sub fragid) params (i + 1) (2 * i) mem) 1 := by
  induction i generalizing mem with
  | zero => simpa [Wlan.moveFragments] using h
  | succ i ih =>
    have hlast : (decide (i + 1 + 1 = params.numMaxsizefrags) &&
        decide (params.smallerfragSize = 0)) = false := by
      have := l.lastLen_pos
      rcases hd.lastFrag with ⟨hs, -⟩ | ⟨-, -, hm⟩
      · simp only [hs, Bool.and_eq_false_imp, decide_eq_true_eq, decide_eq_false_iff_not]
        omega
      · simp only [hm, Bool.and_eq_false_imp, decide_eq_true_eq, decide_eq_false_iff_not]
        omega
    have hmove := h.move hd (Nat.le_add_left 1 i) hi hlast
    rw [Wlan.moveFragments, if_neg (by omega)]
    simp only [wlanGetElemunitInfo_hdrlen, wlanGetElemunitInfo_maxpayloadlen]
    exact ih (by omega) hmove

theorem Layout.fragmented (sub : Bool) (fragid : UInt8) (source : Mem)
    (hd : l.Describes args params) (hfew : l.last < 2 ^ 16 - 1) :
    l.Fragmented (wlanGetElemunitInfo sub fragid).fragid source
      (moveFragments args (wlanGetElemunitInfo sub fragid) params (params.numMaxsizefrags % 2 ^ 16)
        (if params.smallerfragSize ≠ 0 then params.extrahdrbytes - 2 else params.extrahdrbytes)
        (if params.smallerfragSize ≠ 0 then
          moveFragment args (wlanGetElemunitInfo sub fragid) params
            (2 + params.numMaxsizefrags * 255) params.extrahdrbytes params.smallerfragSize true
            source
        else source)) 1 := by
  have hpos := l.last_pos
  obtain ⟨k, hk⟩ : ∃ k, l.last = k + 1 := ⟨l.last - 1, by omega⟩
  have hkl : k < l.last := by omega
  rcases hd.lastFrag with ⟨hs, hm⟩ | ⟨hs, hl, hm⟩
  · have hne : params.smallerfragSize ≠ 0 := by
      have := l.lastLen_pos
      omega
    have hfirst := Layout.fragmented_last sub fragid source hd
      (rfl : true = true)
    rw [hk] at hfirst
    have hall := hfirst.moveFragments hd hkl
    rw [if_pos hne, if_pos hne, hm, hs, hd.extrahdrbytes, ← l.fragLen_last,
      Nat.mod_eq_of_lt (by omega), hk, show 2 * (k + 1) - 2 = 2 * k by omega]
    exact hall
  · have hne : ¬ params.smallerfragSize ≠ 0 := by omega
    have hlast : (decide (k + 1 + 1 = params.numMaxsizefrags) &&
        decide (params.smallerfragSize = 0)) = true := by
      simp only [Bool.and_eq_true, decide_eq_true_eq]
      exact ⟨by omega, hs⟩
    have hfirst := Layout.fragmented_last sub fragid source hd
      hlast
    rw [l.fragLen_last, hl, hk] at hfirst
    have hall := hfirst.moveFragments hd hkl
    rw [if_neg hne, if_neg hne, hm, hd.extrahdrbytes, Nat.mod_eq_of_lt (by omega), hk,
      Wlan.moveFragments, if_neg (by omega)]
    simp only [wlanGetElemunitInfo_hdrlen, wlanGetElemunitInfo_maxpayloadlen]
    exact hall

/-! ## The sequence -/

/-- What creation leaves behind. -/
structure Layout.Created (l : Layout) (id fragid : UInt8) (source mem : Mem) : Prop
    extends l.Placed fragid source mem 1 where
  leadId : mem l.buff = id
  leadLen : mem (l.buff + 1) = 255
  lead : ∀ a, l.buff + 2 + l.ext ≤ a → a < l.buff + 257 → mem a = source a

/-- The headers of the lead fragment are below all the others. -/
theorem Layout.Fragmented.created (id idext : UInt8) {ext : Bool} {idextPos : ℕ}
    (hext : l.ext = if ext then 1 else 0) (hpos : ext = true → idextPos = 2)
    (h : l.Fragmented fragid source mem 1) :
    l.Created id fragid source
      (if ext then
        Function.update (Function.update (Function.update mem l.buff id) (l.buff + 1) 255)
          (l.buff + idextPos) idext
      else Function.update (Function.update mem l.buff id) (l.buff + 1) 255) := by
  have hkeep : ∀ a, l.buff + 2 + l.ext ≤ a →
      (if ext then
        update (update (update mem l.buff id) (l.buff + 1) 255)
          (l.buff + idextPos) idext
      else update (update mem l.buff id) (l.buff + 1) 255) a = mem a := by
    intro a ha
    cases ext with
    | true =>
      rw [if_pos rfl] at hext ⊢
      rw [hpos rfl, update_of_ne (by omega), update_of_ne (by omega),
        update_of_ne (by omega)]
    | false =>
      rw [if_neg Bool.false_ne_true, update_of_ne (by omega),
        update_of_ne (by omega)]
  have hle := l.ext_le
  have hlast := l.last_pos
  refine ⟨⟨?_, ?_, ?_, ?_⟩, ?_, ?_, ?_⟩
  · intro i hi hil
    rw [hkeep _ (by omega), h.fragId i hi hil]
  · intro i hi hil
    rw [hkeep _ (by omega), h.len i hi hil]
  · intro i a hi hil ha ha'
    rw [hkeep _ (by omega), h.content i a hi hil ha ha']
  · intro a ha ha'
    rw [hkeep _ (by rw [Layout.fragseqlen, Layout.contentLen] at ha; omega), h.trailing a ha ha']
  · cases ext with
    | true => simp [hpos rfl]
    | false => simp
  · cases ext with
    | true => simp [hpos rfl]
    | false => simp
  · intro a ha ha'
    rw [hkeep _ ha, h.below a (by omega)]

theorem wlanCreateElemsubelemFragseq_created (source : Mem) (hd : l.Describes args params)
    (hparams : wlanGetElemsubelemFragseqCreationparams args.isSubelem args.id args.payloadlen =
      some params)
    (hext : l.ext = if hasIdext args.isSubelem args.id then 1 else 0)
    (hbuff : l.buff ≠ 0) (hfew : l.last < 2 ^ 16 - 1) :
    ∃ mem, wlanCreateElemsubelemFragseq args source = .ok (l.fragseqlen, mem) ∧
      l.Created args.id (wlanGetElemunitInfo args.isSubelem args.subelemfragid).fragid source
        mem := by
  have hpayload := hd.payloadlen
  have hmax := hd.payloadbuffMaxsize
  have hle : l.fragseqlen ≤ args.payloadbuffMaxsize := by
    rw [hmax, Layout.maxsize]
    exact Nat.le_add_right _ _
  have hlt : args.payloadlen < l.fragseqlen := by
    rw [Layout.fragseqlen]
    omega
  have hcreated := (Layout.fragmented args.isSubelem args.subelemfragid source hd hfew).created
    args.id args.idext hext (wlanGetElemunitInfo_idextPos args.subelemfragid)
  refine ⟨_, ?_, hcreated⟩
  rw [wlanCreateElemsubelemFragseq, hparams]
  simp only [hd.inlineFrag, hd.payloadbuff, hd.expectedFragseqlen, Bool.true_and, Bool.not_true,
    Bool.false_and, wlanGetElemunitInfo_hdrlen, wlanGetElemunitInfo_maxpayloadlen,
    wlanGetElemunitInfo_idPos, wlanGetElemunitInfo_lenPos, Nat.add_zero, decide_eq_true_eq]
  rw [if_neg hbuff, if_neg (by omega), if_neg (by omega), if_neg (by omega),
    if_neg Bool.false_ne_true, if_neg Bool.false_ne_true]
  rfl

/-! ## The layout of a payload -/

theorem wlanGetElemsubelemFragseqCreationparams_split {id : UInt8}
    (hext : ext = if hasIdext sub id then 1 else 0) (hlong : 255 < ext + payloadlen) :
    wlanGetElemsubelemFragseqCreationparams sub id payloadlen =
      some
        { expectedFragseqlen := 2 + ext + payloadlen +
            (((ext + payloadlen) / 255 % 2 ^ 32 + (2 ^ 32 - 1)) % 2 ^ 32 * 2 +
              if (ext + payloadlen) % 255 ≠ 0 then 2 else 0)
          prepayloadLeadbytes := 2 + ext
          numMaxsizefrags := (ext + payloadlen) / 255 % 2 ^ 32
          smallerfragSize := (ext + payloadlen) % 255
          extrahdrbytes := ((ext + payloadlen) / 255 % 2 ^ 32 + (2 ^ 32 - 1)) % 2 ^ 32 * 2 +
            if (ext + payloadlen) % 255 ≠ 0 then 2 else 0 } := by
  rw [wlanGetElemsubelemFragseqCreationparams]
  simp only [wlanGetElemunitInfo_maxpayloadlen, wlanGetElemunitInfo_hdrlen]
  cases hidext : hasIdext sub id with
  | true =>
    rw [hidext, if_pos rfl] at hext
    subst hext
    have hsmall : (payloadlen - (255 - 1)) % 255 = (1 + payloadlen) % 255 := by omega
    simp only [if_true]
    rw [if_neg (by omega), Nat.add_comm payloadlen 1, hsmall]
  | false =>
    rw [hidext, if_neg Bool.false_ne_true] at hext
    subst hext
    rw [Nat.zero_add] at hlong ⊢
    simp only [Bool.false_eq_true, if_false]
    rw [if_neg (by omega), Nat.add_zero]

theorem wlanGetElemsubelemFragseqCreationparams_eq {id : UInt8}
    (hext : ext = if hasIdext sub id then 1 else 0) (hlong : 255 < ext + payloadlen)
    (hfew : (ext + payloadlen) / 255 < 2 ^ 32) :
    wlanGetElemsubelemFragseqCreationparams sub id payloadlen =
      some
        { expectedFragseqlen := 2 + ext + payloadlen + (((ext + payloadlen) / 255 - 1) * 2 +
            if (ext + payloadlen) % 255 ≠ 0 then 2 else 0)
          prepayloadLeadbytes := 2 + ext
          numMaxsizefrags := (ext + payloadlen) / 255
          smallerfragSize := (ext + payloadlen) % 255
          extrahdrbytes := ((ext + payloadlen) / 255 - 1) * 2 +
            if (ext + payloadlen) % 255 ≠ 0 then 2 else 0 } := by
  have hmore : ((ext + payloadlen) / 255 + (2 ^ 32 - 1)) % 2 ^ 32 =
      (ext + payloadlen) / 255 - 1 := by
    omega
  rw [wlanGetElemsubelemFragseqCreationparams_split hext hlong, Nat.mod_eq_of_lt hfew, hmore]

theorem exists_layout (args : CreateArgs) {trailing : ℕ}
    (hext : ext = if hasIdext args.isSubelem args.id then 1 else 0)
    (hlong : 255 < ext + args.payloadlen) (hfew : (ext + args.payloadlen) / 255 < 2 ^ 32)
    (hinline : args.inlineFrag = true) (hmax : args.payloadbuffMaxsize =
      2 + ext + args.payloadlen + 2 * ((ext + args.payloadlen - 1) / 255) + trailing) :
    ∃ (l : Layout) (params : CreationParams),
      wlanGetElemsubelemFragseqCreationparams args.isSubelem args.id args.payloadlen =
        some params ∧
      l.Describes args params ∧ l.ext = ext ∧ l.trailing = trailing ∧
      l.last = (ext + args.payloadlen - 1) / 255 := by
  have hle : ext ≤ 1 := by
    rw [hext]
    split <;> omega
  -- whether or not the last fragment is of maximum size
  have hextra : ((ext + args.payloadlen) / 255 - 1) * 2 +
      (if (ext + args.payloadlen) % 255 ≠ 0 then 2 else 0) =
        2 * ((ext + args.payloadlen - 1) / 255) := by
    split <;> omega
  refine ⟨⟨args.payloadbuff, ext, (ext + args.payloadlen - 1) / 255,
    (ext + args.payloadlen - 1) % 255 + 1, trailing, by omega, by omega, by omega, hle⟩, _,
    wlanGetElemsubelemFragseqCreationparams_eq hext hlong hfew,
    ⟨hinline, rfl, ?_, rfl, ?_, hextra, ?_, ?_⟩, rfl, rfl, rfl⟩
  · simp only [Layout.maxsize, Layout.fragseqlen, Layout.contentLen]
    omega
  · simp only [Layout.contentLen]
    omega
  · simp only [Layout.fragseqlen, Layout.contentLen]
    omega
  · simp only
    omega

end QcomModules.Wlan
