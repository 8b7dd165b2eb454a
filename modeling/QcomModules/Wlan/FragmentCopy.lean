import QcomModules.Wlan.FragmentDefrag

/-! Creation of a fragment sequence in another buffer. The offsets into the payload buffer are those
of the inline mode, so that what is split starts behind the place of a header. -/

namespace QcomModules.Wlan

open List

/-! ## One fragment -/

/-- The bytes that are split, as they would stand in the buffer of the sequence. -/
def copySource (args : CreateArgs) (source : Mem) : Mem :=
  fun a => source (args.payloadbuff + (a - args.fragbuff))

/-- The inline call that places its fragments as this one does. -/
def CreateArgs.inlined (args : CreateArgs) (maxsize : ℕ) : CreateArgs :=
  { args with
    inlineFrag := true
    payloadbuff := args.fragbuff
    payloadbuffMaxsize := maxsize }

/-- A layout in the buffer of the sequence, apart from the bytes that are split. -/
structure Layout.DescribesCopy (l : Layout) (args : CreateArgs) (params : CreationParams) :
    Prop where
  inlineFrag : args.inlineFrag = false
  inlined : l.Describes (args.inlined l.maxsize) params
  trailing : l.trailing = 0
  apart : args.payloadbuff + 2 + l.contentLen ≤ l.buff ∨
    l.buff + l.fragseqlen ≤ args.payloadbuff

section
variable {l : Layout} {args : CreateArgs} {params : CreationParams} {sub : Bool} {fragid : UInt8}
variable {source mem : Mem}

theorem Layout.DescribesCopy.fragbuff (h : l.DescribesCopy args params) :
    args.fragbuff = l.buff :=
  h.inlined.payloadbuff

theorem copyFragment_apply (info : ElemunitInfo) (hinline : args.inlineFrag = false)
    (offset remaining len : ℕ) (isLast : Bool) (mem : Mem) (a : ℕ) :
    moveFragment args info params offset remaining len isLast mem a =
      if a = args.fragbuff + offset + remaining - info.hdrlen + info.lenPos then UInt8.ofNat len
      else if a = args.fragbuff + offset + remaining - info.hdrlen + info.idPos then info.fragid
      else if args.fragbuff + offset + remaining ≤ a ∧
          a < args.fragbuff + offset + remaining + len then
        mem (args.payloadbuff + offset + (a - (args.fragbuff + offset + remaining)))
      else mem a := by
  simp only [moveFragment, hinline, Bool.false_eq_true, if_false, Bool.false_and,
    Function.update_apply, qdfMemMove]

/-- In the middle of creation, nothing but the places of the fragments from `j` on has changed. -/
structure Layout.Copied (l : Layout) (args : CreateArgs) (fragid : UInt8) (source mem : Mem)
    (j : ℕ) : Prop extends l.Placed fragid (copySource args source) mem j where
  outside : ∀ a, a < l.buff + 257 * j ∨ l.buff + l.fragseqlen ≤ a → mem a = source a

variable {j : ℕ}

theorem Layout.DescribesCopy.fragment (h : l.DescribesCopy args params) (sub : Bool)
    (fragid : UInt8) (hj : 1 ≤ j) (hjl : j ≤ l.last) (isLast : Bool)
    (hkept : ∀ a, a < l.buff + 257 * (j + 1) ∨ l.buff + l.fragseqlen ≤ a → mem a = source a)
    (a : ℕ) :
    moveFragment args (wlanGetElemunitInfo sub fragid) params (2 + j * 255) (2 * j) (l.fragLen j)
        isLast mem a =
      if a = l.buff + 257 * j + 1 then UInt8.ofNat (l.fragLen j)
      else if a = l.buff + 257 * j then (wlanGetElemunitInfo sub fragid).fragid
      else if l.buff + 257 * j + 2 ≤ a ∧ a < l.buff + 257 * j + 2 + l.fragLen j then
        copySource args source (a - 2 * j)
      else mem a := by
  have hseq := l.fragseqlen_eq
  have hcontent : l.contentLen = 255 * l.last + l.lastLen := rfl
  have hapart := h.apart
  have hend : 255 * j + l.fragLen j ≤ l.contentLen := by
    rw [Layout.fragLen]
    split <;> omega
  rw [copyFragment_apply _ h.inlineFrag, h.fragbuff]
  simp only [wlanGetElemunitInfo_hdrlen, wlanGetElemunitInfo_lenPos, wlanGetElemunitInfo_idPos]
  rw [show l.buff + (2 + j * 255) + 2 * j - 2 + 1 = l.buff + 257 * j + 1 by omega,
    show l.buff + (2 + j * 255) + 2 * j - 2 + 0 = l.buff + 257 * j by omega,
    show l.buff + (2 + j * 255) + 2 * j = l.buff + 257 * j + 2 by omega]
  refine if_congr Iff.rfl rfl (if_congr Iff.rfl rfl ?_)
  by_cases hin : l.buff + 257 * j + 2 ≤ a ∧ a < l.buff + 257 * j + 2 + l.fragLen j
  · rw [if_pos hin, if_pos hin, hkept _ (by omega), copySource, h.fragbuff]
    congr 1
    omega
  · rw [if_neg hin, if_neg hin]

theorem Layout.DescribesCopy.copied (h : l.DescribesCopy args params) (hj : 1 ≤ j)
    (hjl : j ≤ l.last) (isLast : Bool) (hcopied : j < l.last →
      l.Copied args (wlanGetElemunitInfo sub fragid).fragid source mem (j + 1))
    (hfirst : j = l.last → mem = source) :
    l.Copied args (wlanGetElemunitInfo sub fragid).fragid source
      (moveFragment args (wlanGetElemunitInfo sub fragid) params (2 + j * 255) (2 * j)
        (l.fragLen j) isLast mem) j := by
  have hseq := l.fragseqlen_eq
  have hkept : ∀ a, a < l.buff + 257 * (j + 1) ∨ l.buff + l.fragseqlen ≤ a →
      mem a = source a := by
    intro a ha
    rcases Nat.eq_or_lt_of_le hjl with heq | hlt
    · rw [hfirst heq]
    · exact (hcopied hlt).outside a ha
  have hstep := h.fragment sub fragid hj hjl isLast hkept
  have hlen : 257 * j + 2 + l.fragLen j ≤ 257 * (j + 1) := by
    have hle := l.fragLen_le j
    omega
  have hfits : 257 * j + 2 + l.fragLen j ≤ l.fragseqlen := by
    rw [hseq, Layout.fragLen]
    split <;> omega
  -- nothing above the fragment is touched
  have habove : ∀ a, l.buff + 257 * (j + 1) ≤ a →
      moveFragment args (wlanGetElemunitInfo sub fragid) params (2 + j * 255) (2 * j)
        (l.fragLen j) isLast mem a = mem a := by
    intro a ha
    rw [hstep, if_neg (by omega), if_neg (by omega), if_neg (by omega)]
  refine ⟨⟨?_, ?_, ?_, ?_⟩, ?_⟩
  · intro i hi hil
    rcases Nat.eq_or_lt_of_le hi with rfl | hlt
    · rw [hstep, if_neg (by omega), if_pos rfl]
    · rw [habove _ (by omega), (hcopied (by omega)).fragId i hlt hil]
  · intro i hi hil
    rcases Nat.eq_or_lt_of_le hi with rfl | hlt
    · rw [hstep, if_pos rfl]
    · rw [habove _ (by omega), (hcopied (by omega)).len i hlt hil]
  · intro i a hi hil ha ha'
    rcases Nat.eq_or_lt_of_le hi with rfl | hlt
    · rw [hstep, if_neg (by omega), if_neg (by omega), if_pos ⟨ha, ha'⟩]
    · rw [habove _ (by omega), (hcopied (by omega)).content i a hlt hil ha ha']
  · intro a ha ha'
    rw [Layout.maxsize, h.trailing] at ha'
    omega
  · intro a ha
    rw [hstep, if_neg (by omega), if_neg (by omega), if_neg (by omega), hkept a (by omega)]

/-! ## All fragments -/

theorem Layout.DescribesCopy.moveFragments (h : l.DescribesCopy args params) {i : ℕ}
    (hi : i ≤ l.last)
    (hcopied : i < l.last →
      l.Copied args (wlanGetElemunitInfo sub fragid).fragid source mem (i + 1))
    (hfirst : i = l.last → mem = source ∧ l.lastLen = 255) :
    l.Copied args (wlanGetElemunitInfo sub fragid).fragid source
      (moveFragments args (wlanGetElemunitInfo sub fragid) params (i + 1) (2 * i) mem) 1 := by
  induction i generalizing mem with
  | zero => simpa [Wlan.moveFragments] using hcopied l.last_pos
  | succ i ih =>
    have hlen : l.fragLen (i + 1) = 255 := by
      rcases Nat.eq_or_lt_of_le hi with heq | hlt
      · rw [heq, l.fragLen_last]
        exact (hfirst heq).2
      · exact l.fragLen_of_lt hlt
    have hmove := h.copied (Nat.le_add_left 1 i) hi
      (i + 1 + 1 = params.numMaxsizefrags && params.smallerfragSize = 0) hcopied
      (fun heq => (hfirst heq).1)
    rw [hlen] at hmove
    rw [Wlan.moveFragments, if_neg (Nat.succ_ne_zero i)]
    simp only [wlanGetElemunitInfo_hdrlen, wlanGetElemunitInfo_maxpayloadlen]
    exact ih (Nat.le_of_succ_le hi) (fun _ => hmove) (fun heq => absurd heq (by omega))

theorem Layout.DescribesCopy.fragments (h : l.DescribesCopy args params) (sub : Bool)
    (fragid : UInt8) (source : Mem) (hfew : params.numMaxsizefrags < 2 ^ 16) :
    l.Copied args (wlanGetElemunitInfo sub fragid).fragid source
      (Wlan.moveFragments args (wlanGetElemunitInfo sub fragid) params
        (params.numMaxsizefrags % 2 ^ 16)
        (if params.smallerfragSize ≠ 0 then params.extrahdrbytes - 2 else params.extrahdrbytes)
        (if params.smallerfragSize ≠ 0 then
          moveFragment args (wlanGetElemunitInfo sub fragid) params
            (2 + params.numMaxsizefrags * 255) params.extrahdrbytes params.smallerfragSize true
            source
        else source)) 1 := by
  have hpos := l.last_pos
  have hlen := l.lastLen_pos
  have hextra := h.inlined.extrahdrbytes
  rw [Nat.mod_eq_of_lt hfew]
  rcases h.inlined.lastFrag with ⟨hs, hm⟩ | ⟨hs, hl, hm⟩
  · have hne : params.smallerfragSize ≠ 0 := by omega
    have hlast : l.Copied args (wlanGetElemunitInfo sub fragid).fragid source
        (moveFragment args (wlanGetElemunitInfo sub fragid) params (2 + l.last * 255)
          (2 * l.last) (l.fragLen l.last) true source) l.last :=
      h.copied hpos (Nat.le_refl _) true (fun hlt => absurd hlt (Nat.lt_irrefl _)) (fun _ => rfl)
    obtain ⟨k, hk⟩ : ∃ k, l.last = k + 1 := ⟨l.last - 1, by omega⟩
    rw [if_pos hne, if_pos hne, hm, hs, hextra, ← l.fragLen_last]
    rw [hk] at hlast ⊢
    exact h.moveFragments (by omega) (fun _ => hlast) (fun heq => absurd heq (by omega))
  · have hne : ¬ params.smallerfragSize ≠ 0 := by omega
    rw [if_neg hne, if_neg hne, hm, hextra]
    exact h.moveFragments (Nat.le_refl _) (fun hlt => absurd hlt (Nat.lt_irrefl _))
      (fun _ => ⟨rfl, hl⟩)

/-! ## The sequence as elements -/

def Layout.elements (l : Layout) (mem : Mem) (j n : ℕ) : List Element :=
  (List.range' j n).map fun i => elementAt mem (l.buff + 257 * i)

section
variable {id : UInt8}

theorem Layout.elements_succ (l : Layout) (mem : Mem) (j n : ℕ) :
    l.elements mem j (n + 1) =
      elementAt mem (l.buff + 257 * j) :: l.elements mem (j + 1) n := rfl

theorem Layout.Created.length_body (h : l.Created id fragid source mem) {i : ℕ}
    (hi : i ≤ l.last) : (elementAt mem (l.buff + 257 * i)).body.length = l.fragLen i := by
  rw [elementAt, readBytes_length, h.len_eq hi]

variable {j n : ℕ}

theorem Layout.Created.bytes_elements (h : l.Created id fragid source mem)
    (hjn : j + n = l.last + 1) : (l.elements mem j n).flatMap Element.bytes =
      readBytes mem (l.buff + 257 * j) (l.fragseqlen - 257 * j) := by
  have hseq := l.fragseqlen_eq
  have hle := l.lastLen_le
  induction n generalizing j with
  | zero =>
    rw [show l.fragseqlen - 257 * j = 0 by omega]
    rfl
  | succ n ih =>
    rw [l.elements_succ, flatMap_cons, ih (by omega), bytes_elementAt,
      h.len_eq (by omega)]
    cases n with
    | zero =>
      obtain rfl : j = l.last := by omega
      rw [show l.fragseqlen - 257 * (l.last + 1) = 0 by omega, l.fragLen_last, readBytes,
        append_nil]
      congr 1
      omega
    | succ n =>
      rw [l.fragLen_of_lt (by omega), show l.fragseqlen - 257 * j =
        2 + 255 + (l.fragseqlen - 257 * (j + 1)) by omega, readBytes_add mem _ (2 + 255),
        show l.buff + 257 * j + (2 + 255) = l.buff + 257 * (j + 1) by omega]

theorem Layout.Created.bodies_elements (h : l.Created id fragid source mem) (hj : 1 ≤ j)
    (hjn : j + n = l.last + 1) : (l.elements mem j n).flatMap Element.body =
      readBytes source (l.buff + 2 + 255 * j) (l.contentLen - 255 * j) := by
  have hcontent : l.contentLen = 255 * l.last + l.lastLen := rfl
  have hle := l.lastLen_le
  induction n generalizing j with
  | zero =>
    rw [show l.contentLen - 255 * j = 0 by omega]
    rfl
  | succ n ih =>
    have hbody : (elementAt mem (l.buff + 257 * j)).body =
        readBytes source (l.buff + 2 + 255 * j) (l.fragLen j) := by
      rw [body_elementAt, h.len_eq (by omega)]
      refine readBytes_shift fun k hk => ?_
      rw [h.content j _ hj (by omega) (by omega) (by omega)]
      congr 1
      omega
    rw [l.elements_succ, flatMap_cons, ih (by omega) (by omega), hbody]
    cases n with
    | zero =>
      obtain rfl : j = l.last := by omega
      rw [show l.contentLen - 255 * (l.last + 1) = 0 by omega, l.fragLen_last, readBytes,
        append_nil]
      congr 1
      omega
    | succ n =>
      rw [l.fragLen_of_lt (by omega), show l.contentLen - 255 * j =
        255 + (l.contentLen - 255 * (j + 1)) by omega, readBytes_add,
        show l.buff + 2 + 255 * j + 255 = l.buff + 2 + 255 * (j + 1) by omega]

theorem Layout.Created.chained (h : l.Created id fragid source mem) (hjn : j + n = l.last) :
    Chained fragid (elementAt mem (l.buff + 257 * j))
      (l.elements mem (j + 1) n) := by
  induction n generalizing j with
  | zero => trivial
  | succ n ih =>
    refine ⟨?_, h.fragId (j + 1) (by omega) (by omega), ?_, ih (by omega)⟩
    · rw [h.length_body (by omega), l.fragLen_of_lt (by omega)]
    · have hpos := l.fragLen_pos (j + 1)
      rw [h.length_body (by omega)]
      omega

theorem Layout.Created.isFragseq (h : l.Created id fragid source mem) :
    ∃ lead frags, IsFragseq fragid lead frags ∧ lead.id = id ∧
      readBytes mem l.buff l.fragseqlen = (lead :: frags).flatMap Element.bytes ∧
      (lead :: frags).flatMap Element.body = readBytes mem (l.buff + 2) l.ext ++
        readBytes source (l.buff + 2 + l.ext) (l.contentLen - l.ext) := by
  have hpos := l.last_pos
  have hext := l.ext_le
  have hcontent : l.contentLen = 255 * l.last + l.lastLen := rfl
  have hlead := h.bytes_elements (j := 0) (n := l.last + 1) (Nat.zero_add _)
  have hbodies := h.bodies_elements (Nat.le_refl 1) (Nat.add_comm 1 l.last)
  rw [l.elements_succ] at hlead
  refine ⟨elementAt mem (l.buff + 257 * 0), l.elements mem 1 l.last, ?_, h.leadId, hlead.symm, ?_⟩
  · obtain ⟨k, hk⟩ : ∃ k, l.last = k + 1 := ⟨l.last - 1, by omega⟩
    refine isFragseq_iff.mpr ⟨?_, h.chained (Nat.zero_add _)⟩
    rw [hk, l.elements_succ]
    exact cons_ne_nil _ _
  · have hbody : (elementAt mem (l.buff + 257 * 0)).body = readBytes mem (l.buff + 2) l.ext ++
        readBytes source (l.buff + 2 + l.ext) (255 - l.ext) := by
      rw [body_elementAt, h.len_eq (Nat.zero_le _), l.fragLen_of_lt hpos, Nat.mul_zero,
        Nat.add_zero, ← Nat.add_sub_of_le (by omega : l.ext ≤ 255), readBytes_add,
        Nat.add_sub_cancel_left]
      congr 1
      exact readBytes_congr fun a ha ha' => h.lead a ha (by omega)
    rw [flatMap_cons, hbodies, hbody, append_assoc, ← show 255 - l.ext +
      (l.contentLen - 255 * 1) = l.contentLen - l.ext by omega, readBytes_add,
      show l.buff + 2 + l.ext + (255 - l.ext) = l.buff + 2 + 255 * 1 by omega]

end

/-! ## The call -/

def copyLead (args : CreateArgs) (mem : Mem) : Mem :=
  qdfMemMove mem (args.fragbuff + 2) (args.payloadbuff + 2) 255

/-- The bytes that are split, behind what stands in place of the lead header. -/
def leadSource (args : CreateArgs) (source mem : Mem) : Mem :=
  fun a => if a < args.fragbuff + 2 then mem a else copySource args source a

theorem leadSource_of_ge {a : ℕ} (ha : args.fragbuff + 2 ≤ a) :
    leadSource args source mem a = copySource args source a :=
  if_neg (Nat.not_lt.mpr ha)

theorem Layout.DescribesCopy.fragmented (h : l.DescribesCopy args params)
    (hcopied : l.Copied args fragid source mem 1) :
    l.Fragmented fragid (leadSource args source (copyLead args mem)) (copyLead args mem) 1 := by
  have hbuff := h.fragbuff
  have hapart := h.apart
  have hseq := l.fragseqlen_eq
  have hpos := l.last_pos
  have hcontent : l.contentLen = 255 * l.last + l.lastLen := rfl
  have habove : ∀ a, l.buff + 257 ≤ a → copyLead args mem a = mem a := fun a ha =>
    qdfMemMove_of_ge (by omega)
  refine ⟨⟨?_, ?_, ?_, ?_⟩, ?_⟩
  · intro i hi hil
    rw [habove _ (by omega), hcopied.fragId i hi hil]
  · intro i hi hil
    rw [habove _ (by omega), hcopied.len i hi hil]
  · intro i a hi hil ha ha'
    rw [habove _ (by omega), leadSource_of_ge (by omega), hcopied.content i a hi hil ha ha']
  · intro a ha ha'
    rw [Layout.maxsize, h.trailing] at ha'
    omega
  · intro a ha
    by_cases hlt : a < args.fragbuff + 2
    · exact (if_pos hlt).symm
    · rw [leadSource_of_ge (by omega), copyLead, qdfMemMove_of_mem (by omega) (by omega),
        hcopied.outside _ (by omega), copySource]
      congr 1
      omega

theorem Layout.DescribesCopy.created (h : l.DescribesCopy args params) (source : Mem)
    (hparams : wlanGetElemsubelemFragseqCreationparams args.isSubelem args.id args.payloadlen =
      some params)
    (hext : l.ext = if hasIdext args.isSubelem args.id then 1 else 0)
    (hpayload : args.payloadbuff ≠ 0) (hfrag : args.fragbuff ≠ 0)
    (hmax : args.payloadlen ≤ args.payloadbuffMaxsize)
    (hroom : l.fragseqlen ≤ args.fragbuffMaxsize) (hfew : params.numMaxsizefrags < 2 ^ 16) :
    ∃ mem split, wlanCreateElemsubelemFragseq args source = .ok (l.fragseqlen, mem) ∧
      l.Created args.id (wlanGetElemunitInfo args.isSubelem args.subelemfragid).fragid split mem ∧
      (∀ a, l.buff + 2 ≤ a → split a = copySource args source a) ∧
      (l.ext = 1 → mem (l.buff + 2) = args.idext) := by
  have hcopied := h.fragments args.isSubelem args.subelemfragid source hfew
  have hcreated := (h.fragmented hcopied).created args.id args.idext hext
    (wlanGetElemunitInfo_idextPos args.subelemfragid)
  have hbuff := h.fragbuff
  have hseq := l.fragseqlen_eq
  have hpos := l.last_pos
  have hlen : 0 < args.payloadlen := by
    have hsplit := h.inlined.payloadlen
    have hle := l.ext_le
    have hcontent : l.contentLen = 255 * l.last + l.lastLen := rfl
    simp only [CreateArgs.inlined] at hsplit
    omega
  refine ⟨_, _, ?_, hcreated, fun a ha => leadSource_of_ge (by omega), ?_⟩
  · rw [wlanCreateElemsubelemFragseq, hparams]
    simp only [h.inlineFrag, h.inlined.expectedFragseqlen, Bool.false_and, Bool.not_false,
      Bool.true_and, wlanGetElemunitInfo_hdrlen, wlanGetElemunitInfo_maxpayloadlen,
      wlanGetElemunitInfo_idPos, wlanGetElemunitInfo_lenPos, Nat.add_zero, Bool.or_eq_true,
      decide_eq_true_eq]
    rw [if_neg hpayload, if_neg (by omega), if_neg (by omega), if_neg Bool.false_ne_true,
      if_neg hfrag, if_neg (by omega)]
    simp only [copyLead, hbuff, Bool.false_eq_true, if_false]
    rfl
  · intro hone
    have hidext : hasIdext args.isSubelem args.id = true := by
      by_contra hno
      rw [if_neg hno] at hext
      omega
    simp [hidext, wlanGetElemunitInfo_idextPos args.subelemfragid hidext]

end

/-! ## Payloads at the start of a buffer -/

/-- What `moveFragments` reads of the payload buffer, as runs of an offset and a length. -/
def moveFragmentsReads (info : ElemunitInfo) : ℕ → List (ℕ × ℕ)
  | 0 => []
  | i + 1 =>
    if i = 0 then []
    else (info.hdrlen + i * info.maxpayloadlen, info.maxpayloadlen) :: moveFragmentsReads info i

/-- What creation in another buffer reads of the payload buffer. -/
def copyReads (isSubelem : Bool) (id subelemfragid : UInt8) (payloadlen : ℕ) : List (ℕ × ℕ) :=
  let info := wlanGetElemunitInfo isSubelem subelemfragid
  match wlanGetElemsubelemFragseqCreationparams isSubelem id payloadlen with
  | none => []
  | some params =>
    (if params.smallerfragSize ≠ 0 then
      [(info.hdrlen + params.numMaxsizefrags * info.maxpayloadlen, params.smallerfragSize)]
    else []) ++
      moveFragmentsReads info (params.numMaxsizefrags % 2 ^ 16) ++
      [(info.hdrlen, info.maxpayloadlen)]

namespace ElemUnit

def isSubelem : ElemUnit → Bool
  | elem _ _ => false
  | subelem _ _ => true

def id : ElemUnit → UInt8
  | elem elemid _ => elemid
  | subelem subelemid _ => subelemid

def extBytes : ElemUnit → List UInt8
  | elem elemid elemidext => if elemid = wlanElemidExtnElem then [elemidext] else []
  | subelem _ _ => []

def createCopy (unit : ElemUnit) (buff maxsize payloadlen fragbuff fragbuffMaxsize : ℕ)
    (mem : Mem) : Except QdfStatus (ℕ × Mem) :=
  match unit with
  | elem elemid elemidext =>
    wlanCreateElemFragseq false elemid elemidext buff maxsize payloadlen fragbuff
      fragbuffMaxsize mem
  | subelem subelemid subelemfragid =>
    wlanCreateSubelemFragseq false subelemid subelemfragid buff maxsize payloadlen fragbuff
      fragbuffMaxsize mem

def idext : ElemUnit → UInt8
  | elem _ elemidext => elemidext
  | subelem _ _ => 0

def subelemfragid : ElemUnit → UInt8
  | elem _ _ => 0
  | subelem _ subelemfragid => subelemfragid

def copyArgs (unit : ElemUnit) (buff maxsize payloadlen fragbuff fragbuffMaxsize : ℕ) :
    CreateArgs :=
  ⟨false, unit.isSubelem, unit.id, unit.idext, unit.subelemfragid, buff, maxsize, payloadlen,
    fragbuff, fragbuffMaxsize⟩

/-- What creation reads of the payload buffer. -/
def reads (unit : ElemUnit) (payloadlen : ℕ) : List (ℕ × ℕ) :=
  copyReads unit.isSubelem unit.id unit.subelemfragid payloadlen

end ElemUnit

/-- A call with the given bytes as the payload buffer and room for the sequence. -/
structure CopyCall (unit : ElemUnit) (payloadbuff : List UInt8)
    (payloadlen buff fragbuff fragbuffMaxsize : ℕ) (mem : Mem) : Prop where
  payload : readBytes mem buff payloadbuff.length = payloadbuff
  notNull : buff ≠ 0
  fragNotNull : fragbuff ≠ 0
  room : ∀ fragseqlen ∈ unit.requirements payloadlen, fragseqlen ≤ fragbuffMaxsize
  apart : buff + payloadbuff.length ≤ fragbuff ∨ fragbuff + fragbuffMaxsize ≤ buff

/-- A call succeeds with a sequence that carries the given bytes. -/
structure Carries (unit : ElemUnit) (maxsize payloadlen buff fragbuff fragbuffMaxsize : ℕ)
    (mem : Mem) (carried : List UInt8) (fragseqlen : ℕ) (created : Mem) (lead : Element)
    (frags : List Element) : Prop where
  required : unit.requirements payloadlen = some fragseqlen
  succeeds : unit.createCopy buff maxsize payloadlen fragbuff fragbuffMaxsize mem =
    .ok (fragseqlen, created)
  fragseq : IsFragseq unit.fragid lead frags
  leadId : lead.id = unit.id
  bytes : readBytes created fragbuff fragseqlen = (lead :: frags).flatMap Element.bytes
  carries : (lead :: frags).flatMap Element.body = unit.extBytes ++ carried

/-- Creation reads the payload buffer only, and whatever else memory holds the sequence carries the
payload at its start. -/
structure CopiedRight (unit : ElemUnit) (payloadbuff : List UInt8) (payloadlen : ℕ) : Prop where
  reads : ∀ run ∈ unit.reads payloadlen, run.1 + run.2 ≤ payloadbuff.length
  carries : ∀ buff fragbuff fragbuffMaxsize mem,
    CopyCall unit payloadbuff payloadlen buff fragbuff fragbuffMaxsize mem →
      ∃ fragseqlen created lead frags, Carries unit payloadbuff.length payloadlen buff fragbuff
        fragbuffMaxsize mem (payloadbuff.take payloadlen) fragseqlen created lead frags

section
variable {unit : ElemUnit} {payloadbuff : List UInt8}
variable {payloadlen buff maxsize fragbuff fragbuffMaxsize : ℕ} {mem : Mem}

theorem ElemUnit.createCopy_eq : unit.createCopy buff maxsize payloadlen fragbuff fragbuffMaxsize
      mem = wlanCreateElemsubelemFragseq
        (unit.copyArgs buff maxsize payloadlen fragbuff fragbuffMaxsize) mem := by
  cases unit <;> rfl

theorem ElemUnit.requirements_eq : unit.requirements payloadlen =
    (wlanGetElemsubelemFragseqCreationparams unit.isSubelem unit.id payloadlen).map
      (·.expectedFragseqlen) := by
  cases unit <;> rfl

theorem ElemUnit.extLen_eq (unit : ElemUnit) :
    unit.extLen = if hasIdext unit.isSubelem unit.id then 1 else 0 := by
  cases unit with
  | elem elemid elemidext => simp [extLen, isSubelem, id, hasIdext]
  | subelem subelemid subelemfragid => rfl

theorem ElemUnit.extLen_le (unit : ElemUnit) : unit.extLen ≤ 1 := by
  rw [unit.extLen_eq]
  split <;> omega

theorem ElemUnit.fragid_eq (unit : ElemUnit) :
    (wlanGetElemunitInfo unit.isSubelem unit.subelemfragid).fragid = unit.fragid := by
  cases unit <;> rfl

theorem ElemUnit.extBytes_eq (unit : ElemUnit) :
    unit.extBytes = if unit.extLen = 1 then [unit.idext] else [] := by
  cases unit with
  | elem elemid elemidext =>
    by_cases hid : elemid = wlanElemidExtnElem
    · simp [extBytes, extLen, idext, hid]
    · simp [extBytes, extLen, hid]
  | subelem subelemid subelemfragid => rfl

theorem exists_layout_copy (unit : ElemUnit) (maxsize fragbuffMaxsize : ℕ)
    (hlong : 255 < unit.extLen + payloadlen)
    (hfew : (unit.extLen + payloadlen) / 255 < 2 ^ 16)
    (hapart : buff + (2 + unit.extLen + payloadlen) ≤ fragbuff ∨
      ∀ fragseqlen ∈ unit.requirements payloadlen, fragbuff + fragseqlen ≤ buff) :
    ∃ (l : Layout) (params : CreationParams),
      wlanGetElemsubelemFragseqCreationparams unit.isSubelem unit.id payloadlen = some params ∧
      l.DescribesCopy (unit.copyArgs buff maxsize payloadlen fragbuff fragbuffMaxsize) params ∧
      l.ext = unit.extLen ∧ params.numMaxsizefrags = (unit.extLen + payloadlen) / 255 ∧
      unit.requirements payloadlen = some l.fragseqlen := by
  obtain ⟨l, params, hparams, hdescribes, hext, htrailing, -⟩ := exists_layout
    ((unit.copyArgs buff maxsize payloadlen fragbuff fragbuffMaxsize).inlined
      (2 + unit.extLen + payloadlen + 2 * ((unit.extLen + payloadlen - 1) / 255)))
    unit.extLen_eq hlong (Nat.lt_trans hfew (by decide)) rfl (Nat.add_zero _).symm
  change wlanGetElemsubelemFragseqCreationparams unit.isSubelem unit.id payloadlen =
    some params at hparams
  have hmax := hdescribes.payloadbuffMaxsize
  simp only [CreateArgs.inlined] at hmax
  rw [hmax] at hdescribes
  have hparams' := wlanGetElemsubelemFragseqCreationparams_eq unit.extLen_eq hlong
    (Nat.lt_trans hfew (by decide))
  have hreq : unit.requirements payloadlen = some l.fragseqlen := by
    rw [ElemUnit.requirements_eq, hparams, Option.map_some, hdescribes.expectedFragseqlen]
  have hcontent := hdescribes.payloadlen
  have hbuff := hdescribes.payloadbuff
  simp only [CreateArgs.inlined, ElemUnit.copyArgs] at hcontent hbuff
  refine ⟨l, params, hparams, ⟨rfl, hdescribes, htrailing, ?_⟩, hext, ?_, hreq⟩
  · rcases hapart with hbelow | habove
    · left
      simp only [ElemUnit.copyArgs]
      omega
    · right
      have hle := habove _ hreq
      simp only [ElemUnit.copyArgs]
      omega
  · have hsame := Option.some.inj (hparams.symm.trans hparams')
    rw [hsame]

theorem CopyCall.carries (h : CopyCall unit payloadbuff payloadlen buff fragbuff fragbuffMaxsize
      mem) (hlong : 255 < unit.extLen + payloadlen)
    (hroom : 2 + unit.extLen + payloadlen ≤ payloadbuff.length)
    (hfew : (unit.extLen + payloadlen) / 255 < 2 ^ 16) :
    ∃ fragseqlen created lead frags, Carries unit payloadbuff.length payloadlen buff fragbuff
      fragbuffMaxsize mem ((payloadbuff.drop (2 + unit.extLen)).take payloadlen) fragseqlen created
      lead frags := by
  have hapart : buff + (2 + unit.extLen + payloadlen) ≤ fragbuff ∨
      ∀ fragseqlen ∈ unit.requirements payloadlen, fragbuff + fragseqlen ≤ buff := by
    rcases h.apart with hbelow | habove
    · exact .inl (by omega)
    · exact .inr fun fragseqlen hreq => Nat.le_trans (Nat.add_le_add_left (h.room _ hreq) _) habove
  obtain ⟨l, params, hparams, hdescribes, hext, hnum, hreq⟩ :=
    exists_layout_copy unit payloadbuff.length fragbuffMaxsize hlong hfew hapart
  have hcontent := hdescribes.inlined.payloadlen
  have hbuff := hdescribes.fragbuff
  simp only [CreateArgs.inlined, ElemUnit.copyArgs] at hcontent hbuff
  obtain ⟨created, split, hcreate, hcreated, hsplit, hidext⟩ := hdescribes.created mem hparams
    (hext.trans unit.extLen_eq) h.notNull h.fragNotNull (by simp only [ElemUnit.copyArgs]; omega)
    (h.room _ hreq) (by omega)
  obtain ⟨lead, frags, hfragseq, hleadId, hbytes, hbodies⟩ := hcreated.isFragseq
  refine ⟨l.fragseqlen, created, lead, frags, hreq, ?_, ?_, hleadId, ?_, ?_⟩
  · rw [ElemUnit.createCopy_eq]
    exact hcreate
  · rw [← unit.fragid_eq]
    exact hfragseq
  · rw [hbuff]
    exact hbytes
  · have hstart : readBytes created (l.buff + 2) l.ext = unit.extBytes := by
      rw [unit.extBytes_eq]
      by_cases hone : unit.extLen = 1
      · have hextOne := hext.trans hone
        rw [if_pos hone, hextOne, readBytes, readBytes, hidext hextOne]
        rfl
      · have hle := unit.extLen_le
        rw [if_neg hone, hext, show unit.extLen = 0 by omega, readBytes]
    have hread : readBytes split (l.buff + 2 + l.ext) (l.contentLen - l.ext) =
        (payloadbuff.drop (2 + unit.extLen)).take payloadlen := by
      have hlen : l.contentLen - l.ext = payloadlen := by omega
      rw [hlen, ← h.payload, readBytes_drop mem buff (by omega), readBytes_take mem _ (by omega)]
      refine readBytes_shift fun i _ => ?_
      rw [hsplit _ (by omega), copySource]
      simp only [ElemUnit.copyArgs]
      congr 1
      omega
    rw [hbodies, hstart, hread]

/-! ## Too many fragments -/

/-- The loop leaves the header of the first fragment alone when it starts far above. -/
theorem moveFragments_far {args : CreateArgs} (params : CreationParams) (sub : Bool)
    (fragid : UInt8) (hinline : args.inlineFrag = false) {i remaining : ℕ}
    (hfar : 2 * i + 4 ≤ remaining) (mem : Mem) :
    moveFragments args (wlanGetElemunitInfo sub fragid) params i remaining mem
      (args.fragbuff + 258) = mem (args.fragbuff + 258) := by
  induction i generalizing remaining mem with
  | zero => rfl
  | succ i ih =>
    rw [moveFragments]
    split
    · rfl
    · simp only [wlanGetElemunitInfo_hdrlen, wlanGetElemunitInfo_maxpayloadlen]
      rw [ih (by omega), copyFragment_apply _ hinline]
      simp only [wlanGetElemunitInfo_hdrlen, wlanGetElemunitInfo_lenPos,
        wlanGetElemunitInfo_idPos]
      rw [if_neg (by omega), if_neg (by omega), if_neg (by omega)]

/-- So does all of creation. -/
theorem wlanCreateElemsubelemFragseq_far (args : CreateArgs) {params : CreationParams}
    {r : ℕ × Mem} (hinline : args.inlineFrag = false)
    (hparams : wlanGetElemsubelemFragseqCreationparams args.isSubelem args.id args.payloadlen =
      some params)
    (hfar : 2 * (params.numMaxsizefrags % 2 ^ 16) + 259 ≤ params.extrahdrbytes)
    (hok : wlanCreateElemsubelemFragseq args mem = .ok r) :
    r.2 (args.fragbuff + 258) = mem (args.fragbuff + 258) := by
  have hsmall : ∀ (offset len : ℕ) (isLast : Bool), moveFragment args
      (wlanGetElemunitInfo args.isSubelem args.subelemfragid) params (2 + offset)
      params.extrahdrbytes len isLast mem (args.fragbuff + 258) = mem (args.fragbuff + 258) := by
    intro offset len isLast
    rw [copyFragment_apply _ hinline]
    simp only [wlanGetElemunitInfo_hdrlen, wlanGetElemunitInfo_lenPos, wlanGetElemunitInfo_idPos]
    rw [if_neg (by omega), if_neg (by omega), if_neg (by omega)]
  have hlead : ∀ mem' : Mem, mem' (args.fragbuff + 258) = mem (args.fragbuff + 258) →
      qdfMemMove mem' (args.fragbuff + 2) (args.payloadbuff + 2) 255 (args.fragbuff + 258) =
        mem (args.fragbuff + 258) := by
    intro mem' hmem
    rw [qdfMemMove_of_ge (by omega), hmem]
  rw [wlanCreateElemsubelemFragseq, hparams] at hok
  simp only [hinline, Bool.false_and, Bool.not_false, Bool.true_and, Bool.false_eq_true, if_false,
    wlanGetElemunitInfo_hdrlen, wlanGetElemunitInfo_maxpayloadlen, wlanGetElemunitInfo_idPos,
    wlanGetElemunitInfo_lenPos, Nat.add_zero] at hok
  split at hok
  · cases hok
  split at hok
  · cases hok
  split at hok
  · cases hok
  split at hok
  · cases hok
  split at hok
  · cases hok
  obtain rfl := Except.ok.inj hok
  have hloop : ∀ mem' : Mem, moveFragments args
      (wlanGetElemunitInfo args.isSubelem args.subelemfragid) params
      (params.numMaxsizefrags % 2 ^ 16)
      (if params.smallerfragSize ≠ 0 then params.extrahdrbytes - 2 else params.extrahdrbytes)
      mem' (args.fragbuff + 258) = mem' (args.fragbuff + 258) :=
    moveFragments_far params _ _ hinline (by split <;> omega)
  have hheader : ∀ (mem' : Mem) (a : ℕ) (b : UInt8), a < args.fragbuff + 258 →
      Function.update mem' a b (args.fragbuff + 258) = mem' (args.fragbuff + 258) :=
    fun mem' a b ha => Function.update_of_ne (Nat.ne_of_gt ha) b mem'
  have hidextPos : (wlanGetElemunitInfo args.isSubelem args.subelemfragid).idextPos ≤ 2 := by
    cases args.isSubelem <;> simp [wlanGetElemunitInfo]
  simp only []
  split
  · rw [hheader _ _ _ (by omega), hheader _ _ _ (by omega), hheader _ _ _ (by omega)]
    refine hlead _ ?_
    rw [hloop]
    split
    · exact hsmall _ _ _
    · rfl
  · rw [hheader _ _ _ (by omega), hheader _ _ _ (by omega)]
    refine hlead _ ?_
    rw [hloop]
    split
    · exact hsmall _ _ _
    · rfl

variable {n : ℕ}

theorem header_of_fragseq {fragid : UInt8} {lead : Element} {frags : List Element}
    (hfragseq : IsFragseq fragid lead frags)
    (hbytes : readBytes mem fragbuff n = (lead :: frags).flatMap Element.bytes) :
    mem (fragbuff + 258) ≠ 0 := by
  obtain ⟨e, es, rfl⟩ := exists_cons_of_ne_nil hfragseq.nonempty
  have hspells : Spells mem fragbuff (fragbuff + n) (lead.bytes ++ (e.bytes ++
      es.flatMap Element.bytes)) := by
    have hn : n = ((lead :: e :: es).flatMap Element.bytes).length := by
      rw [← hbytes, readBytes_length]
    rw [hn] at hbytes ⊢
    exact ⟨rfl, hbytes⟩
  obtain ⟨-, -, hfrags⟩ := hspells.element
  obtain ⟨-, hlen, -⟩ := hfrags.element
  rw [hfragseq.leadFull] at hlen
  intro hzero
  have hfilled := hfragseq.filled e mem_cons_self
  rw [← hlen, show fragbuff + 2 + 255 + 1 = fragbuff + 258 by omega, hzero] at hfilled
  exact hfilled rfl

theorem length_flatMap_bytes (es : List Element) :
    (es.flatMap Element.bytes).length = 2 * es.length + (es.flatMap Element.body).length := by
  induction es with
  | nil => rfl
  | cons e es ih =>
    simp only [flatMap_cons, length_append, length_cons, Element.length_bytes, ih]
    omega

theorem length_flatMap_body_le (es : List Element) :
    (es.flatMap Element.body).length ≤ 255 * es.length := by
  induction es with
  | nil => exact Nat.le_refl 0
  | cons e es ih =>
    have hfits := e.fits
    rw [flatMap_cons, length_append, length_cons]
    omega

theorem readBytes_getD (xs : List UInt8) (a : ℕ) :
    readBytes (fun k => xs.getD (k - a) 0) a xs.length = xs := by
  induction xs generalizing a with
  | nil => rfl
  | cons x xs ih =>
    have htail := ih (a + 1)
    rw [length_cons, readBytes, Nat.sub_self, getD_cons_zero]
    congr 1
    refine (readBytes_congr fun k hk _ => ?_).trans htail
    rw [show k - a = k - (a + 1) + 1 by omega, getD_cons_succ]

theorem exists_copyCall (unit : ElemUnit) (payloadbuff : List UInt8) (payloadlen : ℕ) :
    ∃ fragbuffMaxsize mem,
      CopyCall unit payloadbuff payloadlen 1 (1 + payloadbuff.length) fragbuffMaxsize mem ∧
        mem (1 + payloadbuff.length + 258) = 0 := by
  refine ⟨(unit.requirements payloadlen).getD 0, fun k => payloadbuff.getD (k - 1) 0,
    ⟨readBytes_getD payloadbuff 1, by omega, by omega, ?_, .inl (Nat.le_refl _)⟩, ?_⟩
  · intro fragseqlen hreq
    exact Nat.le_of_eq (congrArg (·.getD 0) (Option.mem_def.mp hreq)).symm
  · exact getD_eq_default _ _ (by omega)

theorem CopiedRight.few (h : CopiedRight unit payloadbuff payloadlen)
    (hlong : 255 < unit.extLen + payloadlen) (hle : payloadlen ≤ payloadbuff.length) :
    (unit.extLen + payloadlen) / 255 < 2 ^ 16 := by
  obtain ⟨fragbuffMaxsize, mem, hcall, hzero⟩ := exists_copyCall unit payloadbuff payloadlen
  obtain ⟨fragseqlen, created, lead, frags, hcarries⟩ := h.carries _ _ _ _ hcall
  have hparams := wlanGetElemsubelemFragseqCreationparams_split unit.extLen_eq hlong
  have hreq := hcarries.required
  rw [ElemUnit.requirements_eq, hparams, Option.map_some, Option.some.injEq] at hreq
  simp only at hreq
  have hbytes := congrArg length hcarries.bytes
  have hbodies := congrArg length hcarries.carries
  have hmost := length_flatMap_body_le (lead :: frags)
  have hextBytes : unit.extBytes.length = unit.extLen := by
    have hext := unit.extLen_le
    rw [unit.extBytes_eq]
    split
    · next hone => rw [hone, length_singleton]
    · next hone => rw [length_nil]; omega
  rw [readBytes_length, length_flatMap_bytes] at hbytes
  rw [length_append, length_take, Nat.min_eq_left hle, hextBytes] at hbodies
  rw [length_cons] at hbytes hmost
  by_contra hmany
  have hsucceeds := hcarries.succeeds
  rw [ElemUnit.createCopy_eq] at hsucceeds
  -- the header of the first fragment is not written if the loop starts too far above
  have hnear : ¬ 2 * ((unit.extLen + payloadlen) / 255 % 2 ^ 32 % 2 ^ 16) + 259 ≤
      ((unit.extLen + payloadlen) / 255 % 2 ^ 32 + (2 ^ 32 - 1)) % 2 ^ 32 * 2 +
        if (unit.extLen + payloadlen) % 255 ≠ 0 then 2 else 0 := by
    intro hfar
    have hkept := wlanCreateElemsubelemFragseq_far
      (unit.copyArgs 1 payloadbuff.length payloadlen (1 + payloadbuff.length) fragbuffMaxsize) rfl
      hparams hfar hsucceeds
    exact header_of_fragseq hcarries.fragseq hcarries.bytes (hkept.trans hzero)
  -- otherwise the number of fragments has been cut to 32 bits, and they are too few
  split at hnear <;> split at hreq <;> omega

/-! ## When the payload comes out right -/

theorem mem_moveFragmentsReads {sub : Bool} {fragid : UInt8} {run : ℕ × ℕ} :
    run ∈ moveFragmentsReads (wlanGetElemunitInfo sub fragid) n ↔
      ∃ k, 1 ≤ k ∧ k < n ∧ run = (2 + k * 255, 255) := by
  induction n with
  | zero => simp [moveFragmentsReads]
  | succ n ih =>
    rw [moveFragmentsReads]
    split
    · next hzero =>
        subst hzero
        simp only [not_mem_nil, false_iff]
        omega
    · simp only [wlanGetElemunitInfo_hdrlen, wlanGetElemunitInfo_maxpayloadlen, mem_cons,
        ih]
      constructor
      · rintro (rfl | ⟨k, hk, hkn, rfl⟩)
        · exact ⟨n, by omega, by omega, rfl⟩
        · exact ⟨k, hk, by omega, rfl⟩
      · rintro ⟨k, hk, hkn, rfl⟩
        by_cases heq : k = n
        · exact .inl (by rw [heq])
        · exact .inr ⟨k, hk, by omega, rfl⟩

/-- The reads end with what is split, which starts behind the place of the header. -/
theorem ElemUnit.reads_le_iff (hlong : 255 < unit.extLen + payloadlen)
    (hfew : (unit.extLen + payloadlen) / 255 < 2 ^ 16) (maxsize : ℕ) :
    (∀ run ∈ unit.reads payloadlen, run.1 + run.2 ≤ maxsize) ↔
      2 + unit.extLen + payloadlen ≤ maxsize := by
  have hparams := wlanGetElemsubelemFragseqCreationparams_eq unit.extLen_eq hlong
    (Nat.lt_trans hfew (by decide))
  simp only [ElemUnit.reads, copyReads, hparams, wlanGetElemunitInfo_hdrlen,
    wlanGetElemunitInfo_maxpayloadlen, Nat.mod_eq_of_lt hfew, mem_append,
    mem_moveFragmentsReads, mem_singleton]
  constructor
  · intro h
    by_cases hsmall : (unit.extLen + payloadlen) % 255 = 0
    · have hlast := h (2 + ((unit.extLen + payloadlen) / 255 - 1) * 255, 255)
        (.inl (.inr ⟨_, by omega, by omega, rfl⟩))
      simp only at hlast
      omega
    · have hlast := h (2 + (unit.extLen + payloadlen) / 255 * 255,
        (unit.extLen + payloadlen) % 255) (.inl (.inl (by simp [hsmall])))
      simp only at hlast
      omega
  · rintro hmax run ((hrun | ⟨k, hk, hkn, rfl⟩) | rfl)
    · split at hrun
      · rw [mem_singleton.mp hrun]
        simp only
        omega
      · cases hrun
    · simp only
      omega
    · simp only
      omega

theorem bodies_eq_of_bytes {es es' : List Element}
    (h : es.flatMap Element.bytes = es'.flatMap Element.bytes) :
    es.flatMap Element.body = es'.flatMap Element.body := by
  induction es generalizing es' with
  | nil =>
    cases es' with
    | nil => rfl
    | cons e' es' => simp [Element.bytes] at h
  | cons e es ih =>
    cases es' with
    | nil => simp [Element.bytes] at h
    | cons e' es' =>
      simp only [flatMap_cons, Element.bytes, cons_append, cons.injEq] at h
      obtain ⟨-, hlen, hrest⟩ := h
      have hfits := e.fits
      have hfits' := e'.fits
      have hsame : e.body.length = e'.body.length := by
        have htoNat := congrArg UInt8.toNat hlen
        rw [UInt8.toNat_ofNat', UInt8.toNat_ofNat'] at htoNat
        omega
      obtain ⟨hbody, htail⟩ := append_inj hrest hsame
      rw [flatMap_cons, flatMap_cons, hbody, ih htail]

/-- Creation in another buffer carries the payload at the start of the payload buffer only if this
has the bytes of a header more, and if they do not show because the payload repeats itself. -/
theorem copiedRight_iff (unit : ElemUnit) (payloadbuff : List UInt8) (payloadlen : ℕ)
    (hlong : 255 < unit.extLen + payloadlen) (hle : payloadlen ≤ payloadbuff.length) :
    CopiedRight unit payloadbuff payloadlen ↔
      2 + unit.extLen + payloadlen ≤ payloadbuff.length ∧
        (payloadbuff.drop (2 + unit.extLen)).take payloadlen = payloadbuff.take payloadlen ∧
        (unit.extLen + payloadlen) / 255 < 2 ^ 16 := by
  constructor
  · intro h
    have hfew := h.few hlong hle
    have hroom := (ElemUnit.reads_le_iff hlong hfew payloadbuff.length).mp h.reads
    refine ⟨hroom, ?_, hfew⟩
    obtain ⟨fragbuffMaxsize, mem, hcall, -⟩ := exists_copyCall unit payloadbuff payloadlen
    obtain ⟨fragseqlen, created, lead, frags, hright⟩ := h.carries _ _ _ _ hcall
    obtain ⟨fragseqlen', created', lead', frags', hactual⟩ := hcall.carries hlong hroom hfew
    have hsame := hactual.succeeds.symm.trans hright.succeeds
    rw [Except.ok.injEq, Prod.mk.injEq] at hsame
    obtain ⟨rfl, rfl⟩ := hsame
    have hbodies := bodies_eq_of_bytes (hactual.bytes.symm.trans hright.bytes)
    rw [hactual.carries, hright.carries] at hbodies
    exact append_cancel_left hbodies
  · rintro ⟨hroom, hrepeats, hfew⟩
    refine ⟨(ElemUnit.reads_le_iff hlong hfew payloadbuff.length).mpr hroom, ?_⟩
    intro buff fragbuff fragbuffMaxsize mem hcall
    rw [← hrepeats]
    exact hcall.carries hlong hroom hfew

/-- A payload of equal bytes in a buffer that is longer by the bytes of a header. -/
theorem copiedRight_equal_bytes :
    CopiedRight (.subelem 1 254) (List.replicate 302 7) 300 ↔
      2 + (ElemUnit.subelem 1 254).extLen + 300 ≤ (List.replicate 302 (7 : UInt8)).length ∧
        ((List.replicate 302 (7 : UInt8)).drop (2 + (ElemUnit.subelem 1 254).extLen)).take 300 =
          (List.replicate 302 7).take 300 ∧
        ((ElemUnit.subelem 1 254).extLen + 300) / 255 < 2 ^ 16 :=
  copiedRight_iff (.subelem 1 254) (replicate 302 7) 300 (by decide)
    (by rw [length_replicate]; decide)

/-- In a buffer of its own size the payload is read beyond its end. -/
theorem payload_over_read : ¬ CopiedRight (.subelem 1 254) (List.replicate 300 7) 300 := by
  intro h
  have hread := h.reads (257, 45) (by decide)
  rw [length_replicate] at hread
  exact absurd hread (by decide)

end

end QcomModules.Wlan
