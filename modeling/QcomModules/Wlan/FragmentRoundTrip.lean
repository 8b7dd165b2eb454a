import QcomModules.Wlan.FragmentCreate

/-! Inline defragmentation of a created sequence gives back the payload and what followed it. -/

namespace QcomModules.Wlan

open List

section

variable {l : Layout} {sub : Bool} {id fragid : UInt8} {source mem : Mem}

/-! ## Walking a created sequence -/

/-- What follows the sequence does not continue it, and starts with an element that fits. -/
def Layout.Ends (l : Layout) (fragid : UInt8) (mem : Mem) : Prop :=
  l.trailing = 0 ∨
    mem (l.buff + l.fragseqlen) ≠ fragid ∧
      2 + (mem (l.buff + l.fragseqlen + 1)).toNat ≤ l.trailing

theorem Layout.fragseqlen_eq (l : Layout) : l.fragseqlen = 257 * l.last + 2 + l.lastLen := by
  rw [Layout.fragseqlen, Layout.contentLen]
  omega

theorem Layout.maxsize_eq (l : Layout) :
    l.maxsize = 257 * l.last + 2 + l.lastLen + l.trailing := by
  rw [Layout.maxsize, l.fragseqlen_eq]

variable {i fuel dst src n a : ℕ} {s : DefragState}

theorem Layout.Created.len_eq (h : l.Created id fragid source mem) (hi : i ≤ l.last) :
    (mem (l.buff + 257 * i + 1)).toNat = l.fragLen i := by
  rcases Nat.eq_zero_or_pos i with rfl | hpos
  · rw [l.fragLen_of_lt l.last_pos, Nat.mul_zero, Nat.add_zero, h.leadLen]
    rfl
  · rw [h.len i hpos hi, l.toNat_fragLen]

theorem Layout.Created.successorfrag_some
    (h : l.Created id (wlanGetElemunitInfo sub fragid).fragid source mem) (hi : i < l.last) :
    wlanGetElemsubelemSuccessorfrag (wlanGetElemunitInfo sub fragid) mem (l.buff + 257 * i) l.buff
      l.maxsize = .ok (some (l.buff + 257 * (i + 1))) := by
  have hcurr := h.len_eq (Nat.le_of_lt hi)
  have hnext : (mem (l.buff + 257 * (i + 1) + 1)).toNat = l.fragLen (i + 1) := h.len_eq hi
  have hpos := l.fragLen_pos (i + 1)
  have hfits : 257 * (i + 1) + 2 + l.fragLen (i + 1) ≤ l.maxsize := by
    rw [l.maxsize_eq, Layout.fragLen]
    split <;> omega
  rw [l.fragLen_of_lt hi] at hcurr
  simp only [wlanGetElemsubelemSuccessorfrag, wlanGetElemunitInfo_hdrlen,
    wlanGetElemunitInfo_lenPos, wlanGetElemunitInfo_idPos, wlanGetElemunitInfo_maxpayloadlen,
    hcurr]
  rw [show l.buff + 257 * i + 2 + 255 = l.buff + 257 * (i + 1) by omega, hnext, Nat.add_zero,
    h.fragId (i + 1) (by omega) hi]
  rw [if_neg (by omega), if_neg (by omega), if_neg (by omega), if_neg (by omega),
    if_neg (by omega), if_neg (by simp), if_neg (by simp), if_neg (by omega)]

theorem Layout.Created.successorfrag_none
    (h : l.Created id (wlanGetElemunitInfo sub fragid).fragid source mem)
    (hends : l.Ends (wlanGetElemunitInfo sub fragid).fragid mem) :
    wlanGetElemsubelemSuccessorfrag (wlanGetElemunitInfo sub fragid) mem (l.buff + 257 * l.last)
      l.buff l.maxsize = .ok none := by
  have hcurr := h.len_eq (Nat.le_refl l.last)
  have hmax := l.maxsize_eq
  rw [l.fragLen_last] at hcurr
  simp only [wlanGetElemsubelemSuccessorfrag, wlanGetElemunitInfo_hdrlen,
    wlanGetElemunitInfo_lenPos, wlanGetElemunitInfo_idPos, Nat.add_zero, hcurr]
  rw [show l.buff + 257 * l.last + 2 + l.lastLen = l.buff + l.fragseqlen by
    rw [l.fragseqlen_eq]; omega]
  have hseq := l.fragseqlen_eq
  rcases hends with htrailing | ⟨hid, hfits⟩
  · rw [if_neg (by omega), if_neg (by omega), if_pos (by omega)]
  · rw [if_neg (by omega), if_neg (by omega), if_neg (by omega), if_neg (by omega),
      if_neg (by omega), if_pos hid]

theorem Layout.Created.fragseqLoop
    (h : l.Created id (wlanGetElemunitInfo sub fragid).fragid source mem)
    (hends : l.Ends (wlanGetElemunitInfo sub fragid).fragid mem) (hi : i ≤ l.last)
    (hfuel : l.last - i < fuel) (totallen payloadlen : ℕ) :
    fragseqLoop (wlanGetElemunitInfo sub fragid) mem l.buff l.maxsize fuel
        (some (l.buff + 257 * i)) totallen payloadlen =
      .ok (totallen + (l.fragseqlen - 257 * i), payloadlen + (l.contentLen - 255 * i)) := by
  have hcontent : l.contentLen = 255 * l.last + l.lastLen := rfl
  have hseq := l.fragseqlen_eq
  induction fuel generalizing i totallen payloadlen with
  | zero => omega
  | succ fuel ih =>
    rw [Wlan.fragseqLoop]
    simp only [wlanGetElemunitInfo_hdrlen, wlanGetElemunitInfo_lenPos, h.len_eq hi]
    rcases Nat.eq_or_lt_of_le hi with rfl | hlt
    · rw [h.successorfrag_none hends, l.fragLen_last]
      simp only [Wlan.fragseqLoop, Except.ok.injEq, Prod.mk.injEq]
      omega
    · rw [h.successorfrag_some hlt]
      simp only
      rw [ih (Nat.succ_le_of_lt hlt) (by omega), l.fragLen_of_lt hlt]
      simp only [Except.ok.injEq, Prod.mk.injEq]
      omega

theorem Layout.Created.fragseqInfo
    (h : l.Created id (wlanGetElemunitInfo sub fragid).fragid source mem)
    (hends : l.Ends (wlanGetElemunitInfo sub fragid).fragid mem) (hbuff : l.buff ≠ 0)
    (hext : l.ext = if hasIdext sub id then 1 else 0) :
    wlanGetElemsubelemFragseqInfo sub fragid mem l.buff l.maxsize =
      .ok (some (l.fragseqlen, l.contentLen - l.ext)) := by
  have hpos := l.last_pos
  have hmax := l.maxsize_eq
  have hseq := l.fragseqlen_eq
  have hcontent : l.contentLen = 255 * l.last + l.lastLen := rfl
  have hlen := h.len_eq (Nat.zero_le _)
  have hsucc := h.successorfrag_some hpos
  rw [l.fragLen_of_lt hpos] at hlen
  simp only [Nat.mul_zero, Nat.add_zero] at hlen hsucc
  rw [wlanGetElemsubelemFragseqInfo]
  simp only [wlanGetElemunitInfo_hdrlen, wlanGetElemunitInfo_lenPos, wlanGetElemunitInfo_idPos,
    hlen, Nat.add_zero, h.leadId]
  rw [if_neg hbuff, if_neg (by omega), if_neg (by omega), if_neg (by omega), hsucc]
  simp only [Nat.zero_add]
  rw [h.fragseqLoop hends hpos (by omega)]
  simp only [Except.map, Except.ok.injEq, Option.some.injEq, Prod.mk.injEq]
  refine ⟨by omega, ?_⟩
  rw [hext]
  split <;> omega

/-! ## The loop of defragmentation -/

/-- Before fragment `i` is moved: the content below it is back in place, and everything from its
header on is still as created. -/
structure Layout.Defragged (l : Layout) (source created : Mem) (i : ℕ) (s : DefragState) : Prop
    where
  curr : s.curr = l.buff + 257 * i
  dst : s.dst = l.buff + 2 + 255 * i
  currlen : s.currlen + l.ext = 255 * i
  remlen : s.remlen + 257 * i = l.maxsize
  above : ∀ a, l.buff + 257 * i ≤ a → s.mem a = created a
  below : ∀ a, l.buff + 2 + l.ext ≤ a → a < l.buff + 2 + 255 * i → s.mem a = source a

/-- After the loop: all of the content is back, and what is left starts at `curr`. -/
structure Layout.Joined (l : Layout) (source created : Mem) (s : DefragState) : Prop where
  currlen : s.currlen + l.ext = l.contentLen
  remlen : s.remlen = l.trailing
  curr : l.trailing ≠ 0 → s.curr = l.buff + l.fragseqlen
  dst : l.trailing ≠ 0 → s.dst = l.buff + 2 + l.contentLen
  above : ∀ a, l.buff + l.fragseqlen ≤ a → s.mem a = created a
  below : ∀ a, l.buff + 2 + l.ext ≤ a → a < l.buff + 2 + l.contentLen → s.mem a = source a

theorem qdfMemMove_of_mem (hlo : dst ≤ a) (hhi : a < dst + n) :
    qdfMemMove mem dst src n a = mem (src + (a - dst)) := by
  rw [qdfMemMove, if_pos ⟨hlo, hhi⟩]

theorem qdfMemMove_of_lt (ha : a < dst) : qdfMemMove mem dst src n a = mem a := by
  rw [qdfMemMove, if_neg (by omega)]

theorem qdfMemMove_of_ge (ha : dst + n ≤ a) : qdfMemMove mem dst src n a = mem a := by
  rw [qdfMemMove, if_neg (by omega)]

theorem Layout.Defragged.defragLoop_succ {created : Mem}
    (hcreated : l.Created id (wlanGetElemunitInfo sub fragid).fragid source created)
    (h : l.Defragged source created i s) (hpos : 1 ≤ i) (hi : i ≤ l.last) :
    defragLoop (wlanGetElemunitInfo sub fragid) (fuel + 1) s =
      if l.maxsize - 257 * i - (2 + l.fragLen i) = 0 then
        { s with
          mem := qdfMemMove s.mem (l.buff + 2 + 255 * i) (l.buff + 257 * i + 2) (l.fragLen i)
          currlen := s.currlen + l.fragLen i
          remlen := 0 }
      else
        defragLoop (wlanGetElemunitInfo sub fragid) fuel
          { mem := qdfMemMove s.mem (l.buff + 2 + 255 * i) (l.buff + 257 * i + 2) (l.fragLen i)
            curr := l.buff + 257 * i + (2 + l.fragLen i)
            dst := l.buff + 2 + 255 * i + l.fragLen i
            currlen := s.currlen + l.fragLen i
            remlen := l.maxsize - 257 * i - (2 + l.fragLen i) } := by
  have hrem : s.remlen = l.maxsize - 257 * i := by
    have := h.remlen
    omega
  have hid : s.mem (l.buff + 257 * i) = (wlanGetElemunitInfo sub fragid).fragid := by
    rw [h.above _ (Nat.le_refl _), hcreated.fragId i hpos hi]
  have hlen : (s.mem (l.buff + 257 * i + 1)).toNat = l.fragLen i := by
    rw [h.above _ (Nat.le_add_right _ _), hcreated.len_eq hi]
  rw [defragLoop]
  simp only [wlanGetElemunitInfo_hdrlen, wlanGetElemunitInfo_lenPos, wlanGetElemunitInfo_idPos,
    Nat.add_zero, h.curr, h.dst, hid, hlen, hrem, ne_eq, not_true, if_false]
  split
  · rename_i hzero
    rw [hzero]
  · rfl

theorem Layout.Defragged.moved {created : Mem} {i : ℕ} {s : DefragState}
    (hcreated : l.Created id fragid source created) (h : l.Defragged source created i s)
    (hpos : 1 ≤ i) (hi : i ≤ l.last) {a : ℕ} (hlo : l.buff + 2 + l.ext ≤ a)
    (hhi : a < l.buff + 2 + 255 * i + l.fragLen i) :
    qdfMemMove s.mem (l.buff + 2 + 255 * i) (l.buff + 257 * i + 2) (l.fragLen i) a =
      source a := by
  rcases Nat.lt_or_ge a (l.buff + 2 + 255 * i) with hlt | hge
  · rw [qdfMemMove_of_lt hlt, h.below a hlo hlt]
  · rw [qdfMemMove_of_mem hge hhi, h.above _ (by omega),
      hcreated.content i _ hpos hi (by omega) (by omega)]
    congr 1
    omega

theorem Layout.Defragged.kept {created : Mem} (h : l.Defragged source created i s) (hpos : 1 ≤ i)
    (ha : l.buff + 257 * i + 2 + l.fragLen i ≤ a) :
    qdfMemMove s.mem (l.buff + 2 + 255 * i) (l.buff + 257 * i + 2) (l.fragLen i) a =
      created a := by
  rw [qdfMemMove_of_ge (by omega), h.above a (by omega)]

theorem Layout.Defragged.next {created : Mem} (hcreated : l.Created id fragid source created)
    (h : l.Defragged source created i s) (hpos : 1 ≤ i) (hi : i < l.last) :
    l.Defragged source created (i + 1)
      { mem := qdfMemMove s.mem (l.buff + 2 + 255 * i) (l.buff + 257 * i + 2) (l.fragLen i)
        curr := l.buff + 257 * i + (2 + l.fragLen i)
        dst := l.buff + 2 + 255 * i + l.fragLen i
        currlen := s.currlen + l.fragLen i
        remlen := l.maxsize - 257 * i - (2 + l.fragLen i) } := by
  have hlen := l.fragLen_of_lt hi
  have hmax := l.maxsize_eq
  have hcurrlen := h.currlen
  refine ⟨?_, ?_, ?_, ?_, ?_, ?_⟩
  · dsimp only
    omega
  · dsimp only
    omega
  · dsimp only
    omega
  · dsimp only
    omega
  · intro a ha
    exact h.kept hpos (by omega)
  · intro a ha ha'
    exact h.moved hcreated hpos (Nat.le_of_lt hi) ha (by omega)

theorem Layout.Defragged.joined {created : Mem}
    (hcreated : l.Created id (wlanGetElemunitInfo sub fragid).fragid source created)
    (hends : l.Ends (wlanGetElemunitInfo sub fragid).fragid created)
    (h : l.Defragged source created l.last s) :
    l.Joined source created (defragLoop (wlanGetElemunitInfo sub fragid) (fuel + 2) s) := by
  have hmax := l.maxsize_eq
  have hseq := l.fragseqlen_eq
  have hcontent : l.contentLen = 255 * l.last + l.lastLen := rfl
  have hcurrlen := h.currlen
  have hmoved := fun a => h.moved (a := a) hcreated l.last_pos (Nat.le_refl _)
  have hkept := fun a => h.kept (a := a) l.last_pos
  rw [h.defragLoop_succ hcreated l.last_pos (Nat.le_refl _)]
  rw [l.fragLen_last] at hmoved hkept ⊢
  by_cases htrailing : l.trailing = 0
  · rw [if_pos (by omega)]
    refine ⟨?_, htrailing.symm, ?_, ?_, ?_, ?_⟩
    · dsimp only
      omega
    · exact fun hne => (hne htrailing).elim
    · exact fun hne => (hne htrailing).elim
    · intro a ha
      exact hkept a (by omega)
    · intro a ha ha'
      exact hmoved a ha (by omega)
  · obtain ⟨hid, -⟩ := hends.resolve_left htrailing
    have hcurr : l.buff + 257 * l.last + (2 + l.lastLen) = l.buff + l.fragseqlen := by omega
    rw [if_neg (by omega), defragLoop, if_pos]
    · refine ⟨?_, ?_, fun _ => hcurr, fun _ => ?_, ?_, ?_⟩
      · dsimp only
        omega
      · dsimp only
        omega
      · dsimp only
        omega
      · intro a ha
        exact hkept a (by omega)
      · intro a ha ha'
        exact hmoved a ha (by omega)
    · simp only [wlanGetElemunitInfo_idPos, Nat.add_zero, hcurr]
      rw [hkept _ (by omega)]
      exact hid

theorem Layout.Defragged.defragLoop {created : Mem}
    (hcreated : l.Created id (wlanGetElemunitInfo sub fragid).fragid source created)
    (hends : l.Ends (wlanGetElemunitInfo sub fragid).fragid created)
    (h : l.Defragged source created i s) (hpos : 1 ≤ i) (hi : i ≤ l.last)
    (hfuel : l.last - i + 1 < fuel) :
    l.Joined source created (defragLoop (wlanGetElemunitInfo sub fragid) fuel s) := by
  induction fuel generalizing i s with
  | zero => omega
  | succ fuel ih =>
    rcases Nat.eq_or_lt_of_le hi with rfl | hlt
    · obtain ⟨fuel, rfl⟩ : ∃ k, fuel = k + 1 := ⟨fuel - 1, by omega⟩
      exact h.joined hcreated hends
    · have hlen := l.fragLen_of_lt hlt
      have hmax := l.maxsize_eq
      rw [h.defragLoop_succ hcreated hpos hi, if_neg (by omega)]
      exact ih (h.next hcreated hpos hlt) (by omega) hlt (by omega)

theorem Layout.Joined.restored {created : Mem} (hjoined : l.Joined source created s)
    (h : l.Created id fragid source created) (a : ℕ) (ha : l.buff + 2 + l.ext ≤ a)
    (ha' : a < l.buff + 2 + l.contentLen + l.trailing) :
    (if decide (s.remlen ≠ 0) = true then qdfMemMove s.mem s.dst s.curr s.remlen else s.mem) a =
      source a := by
  rw [hjoined.remlen]
  by_cases htrailing : l.trailing = 0
  · rw [if_neg (by simpa using htrailing)]
    exact hjoined.below a ha (by omega)
  · rw [if_pos (by simpa using htrailing), hjoined.curr htrailing, hjoined.dst htrailing]
    rcases Nat.lt_or_ge a (l.buff + 2 + l.contentLen) with hlt | hge
    · rw [qdfMemMove_of_lt hlt, hjoined.below a ha hlt]
    · have hmax : l.maxsize = l.fragseqlen + l.trailing := rfl
      have hseq : l.fragseqlen = 2 + l.contentLen + 2 * l.last := rfl
      rw [qdfMemMove_of_mem hge ha', hjoined.above _ (by omega),
        h.trailing _ (by omega) (by omega)]
      congr 1
      omega

theorem Layout.Created.defrag {created : Mem}
    (h : l.Created id (wlanGetElemunitInfo sub fragid).fragid source created)
    (hends : l.Ends (wlanGetElemunitInfo sub fragid).fragid created) (hbuff : l.buff ≠ 0)
    (hext : l.ext = if hasIdext sub id then 1 else 0) (defragbuff defragbuffMaxsize : ℕ) :
    ∃ mem, wlanDefragElemsubelemFragseq true sub fragid l.buff l.maxsize defragbuff
        defragbuffMaxsize created = .ok (l.contentLen - l.ext, mem) ∧
      ∀ a, l.buff + 2 + l.ext ≤ a → a < l.buff + 2 + l.contentLen + l.trailing →
        mem a = source a := by
  have hpos := l.last_pos
  have hmax := l.maxsize_eq
  have hseq := l.fragseqlen_eq
  have hlen := h.len_eq (Nat.zero_le _)
  rw [l.fragLen_of_lt hpos] at hlen
  simp only [Nat.mul_zero, Nat.add_zero] at hlen
  have hjoined : l.Joined source created (defragLoop (wlanGetElemunitInfo sub fragid) l.maxsize
      { mem := created
        curr := l.buff + (2 + 255)
        dst := l.buff + 2 + l.ext + (255 - l.ext)
        currlen := 255 - l.ext
        remlen := l.maxsize - (2 + 255) }) := by
    have hle := l.ext_le
    refine Layout.Defragged.defragLoop h hends ⟨?_, ?_, ?_, ?_, ?_, ?_⟩ (Nat.le_refl 1) hpos
      (by omega)
    · rfl
    · dsimp only
      omega
    · dsimp only
      omega
    · dsimp only
      omega
    · exact fun a _ => rfl
    · intro a ha ha'
      exact h.lead a ha (by omega)
  have hlead : (if hasIdext sub id then 255 - 1 else 255) = 255 - l.ext := by
    rw [hext]
    split <;> rfl
  rw [wlanDefragElemsubelemFragseq, h.fragseqInfo hends hbuff hext]
  simp only [wlanGetElemunitInfo_hdrlen, wlanGetElemunitInfo_lenPos, wlanGetElemunitInfo_idPos,
    Nat.add_zero, h.leadId, hlen, hlead, ← hext, Bool.not_true, Bool.false_and, Bool.true_and,
    if_true]
  rw [if_neg hbuff, if_neg (by omega), if_neg Bool.false_ne_true, if_neg Bool.false_ne_true,
    if_neg Bool.false_ne_true]
  generalize defragLoop (wlanGetElemunitInfo sub fragid) l.maxsize _ = s at hjoined
  refine ⟨_, ?_, hjoined.restored h⟩
  have hcurrlen := hjoined.currlen
  rw [show s.currlen = l.contentLen - l.ext by omega]

end

/-! ## Bytes -/

def readBytes (mem : Mem) : ℕ → ℕ → List UInt8
  | _, 0 => []
  | a, n + 1 => mem a :: readBytes mem (a + 1) n

@[simp] theorem readBytes_length (mem : Mem) (a n : ℕ) : (readBytes mem a n).length = n := by
  induction n generalizing a with
  | zero => rfl
  | succ n ih => rw [readBytes, length_cons, ih]

theorem readBytes_add (mem : Mem) (a m n : ℕ) :
    readBytes mem a (m + n) = readBytes mem a m ++ readBytes mem (a + m) n := by
  induction m generalizing a with
  | zero => rw [Nat.zero_add, readBytes, nil_append, Nat.add_zero]
  | succ m ih =>
    rw [Nat.add_right_comm, readBytes, readBytes, ih, cons_append,
      Nat.add_assoc a 1 m, Nat.add_comm 1 m]

variable {a : ℕ}

theorem readBytes_congr {mem mem' : Mem} {n : ℕ} (h : ∀ b, a ≤ b → b < a + n → mem' b = mem b) :
    readBytes mem' a n = readBytes mem a n := by
  induction n generalizing a with
  | zero => rfl
  | succ n ih =>
    rw [readBytes, readBytes, h a (Nat.le_refl a) (by omega),
      ih fun b hb hb' => h b (by omega) (by omega)]

theorem readBytes_append {mem : Mem} {xs ys : List UInt8}
    (h : readBytes mem a (xs ++ ys).length = xs ++ ys) :
    readBytes mem a xs.length = xs ∧ readBytes mem (a + xs.length) ys.length = ys := by
  rw [length_append, readBytes_add] at h
  exact append_inj h (readBytes_length mem a xs.length)

/-! ## The round trip -/

/-- An element or a subelement to be fragmented. -/
inductive ElemUnit where
  | elem (elemid elemidext : UInt8)
  | subelem (subelemid subelemfragid : UInt8)
deriving DecidableEq, Repr

namespace ElemUnit

def fragid : ElemUnit → UInt8
  | elem _ _ => wlanElemidFragment
  | subelem _ subelemfragid => subelemfragid

def extLen : ElemUnit → ℕ
  | elem elemid _ => if elemid = wlanElemidExtnElem then 1 else 0
  | subelem _ _ => 0

def numFragments (unit : ElemUnit) (payloadlen : ℕ) : ℕ :=
  (unit.extLen + payloadlen + 254) / 255

def requirements (unit : ElemUnit) (payloadlen : ℕ) : Option ℕ :=
  match unit with
  | elem elemid _ => wlanGetElemFragseqRequirements elemid payloadlen
  | subelem subelemid _ => wlanGetSubelemFragseqRequirements subelemid payloadlen

def create (unit : ElemUnit) (buff maxsize payloadlen fragbuff fragbuffMaxsize : ℕ) (mem : Mem) :
    Except QdfStatus (ℕ × Mem) :=
  match unit with
  | elem elemid elemidext =>
    wlanCreateElemFragseq true elemid elemidext buff maxsize payloadlen fragbuff fragbuffMaxsize
      mem
  | subelem subelemid subelemfragid =>
    wlanCreateSubelemFragseq true subelemid subelemfragid buff maxsize payloadlen fragbuff
      fragbuffMaxsize mem

def defrag (unit : ElemUnit) (buff maxsize defragbuff defragbuffMaxsize : ℕ) (mem : Mem) :
    Except QdfStatus (ℕ × Mem) :=
  match unit with
  | elem _ _ => wlanDefragElemFragseq true buff maxsize defragbuff defragbuffMaxsize mem
  | subelem _ subelemfragid =>
    wlanDefragSubelemFragseq true subelemfragid buff maxsize defragbuff defragbuffMaxsize mem

end ElemUnit

structure Element where
  id : UInt8
  body : List UInt8
  fits : body.length ≤ 255

def Element.bytes (e : Element) : List UInt8 := e.id :: UInt8.ofNat e.body.length :: e.body

theorem Layout.Created.ends {l : Layout} {id fragid : UInt8} {source created : Mem}
    (h : l.Created id fragid source created) (elements : List Element)
    (hread : readBytes source (l.buff + 2 + l.contentLen) (elements.flatMap Element.bytes).length =
      elements.flatMap Element.bytes)
    (hlen : l.trailing = (elements.flatMap Element.bytes).length)
    (hhead : ∀ e ∈ elements.head?, e.id ≠ fragid) : l.Ends fragid created := by
  cases elements with
  | nil => exact Or.inl hlen
  | cons e elements =>
    have hfits := e.fits
    rw [flatMap_cons] at hread hlen
    have hbytes := (readBytes_append hread).1
    simp only [Element.bytes, length_cons, readBytes, cons.injEq] at hbytes
    rw [length_append, Element.bytes, length_cons, length_cons] at hlen
    have hmax : l.maxsize = l.fragseqlen + l.trailing := rfl
    have hseq : l.fragseqlen = 2 + l.contentLen + 2 * l.last := rfl
    have hfirst : created (l.buff + l.fragseqlen) = e.id := by
      rw [h.trailing _ (by omega) (by omega), ← hbytes.1]
      congr 1
      omega
    have hsecond : created (l.buff + l.fragseqlen + 1) = UInt8.ofNat e.body.length := by
      rw [h.trailing _ (by omega) (by omega), ← hbytes.2.1]
      congr 1
      omega
    refine Or.inr ⟨?_, ?_⟩
    · rw [hfirst]
      exact hhead e rfl
    · rw [hsecond, UInt8.toNat_ofNat']
      omega

theorem elemsubelem_round_trip (args : CreateArgs) (lead payload slack : List UInt8)
    (elements : List Element) (mem : Mem) (defragbuff defragbuffMaxsize : ℕ) {ext : ℕ}
    (hext : ext = if hasIdext args.isSubelem args.id then 1 else 0)
    (hinline : args.inlineFrag = true) (hbuff : args.payloadbuff ≠ 0)
    (hpayload : args.payloadlen = payload.length)
    (hmax : args.payloadbuffMaxsize =
      (lead ++ payload ++ elements.flatMap Element.bytes ++ slack).length)
    (hmem : readBytes mem args.payloadbuff args.payloadbuffMaxsize =
      lead ++ payload ++ elements.flatMap Element.bytes ++ slack)
    (hlead : lead.length = 2 + ext) (hlong : 255 < ext + payload.length)
    (hfew : (ext + payload.length + 254) / 255 < 2 ^ 16)
    (hslack : slack.length = 2 * ((ext + payload.length + 254) / 255 - 1))
    (hhead : ∀ e ∈ elements.head?,
      e.id ≠ (wlanGetElemunitInfo args.isSubelem args.subelemfragid).fragid) :
    ∃ fragseqlen created restored,
      (wlanGetElemsubelemFragseqCreationparams args.isSubelem args.id payload.length).map
        (·.expectedFragseqlen) = some fragseqlen ∧
      wlanCreateElemsubelemFragseq args mem = .ok (fragseqlen, created) ∧
      wlanDefragElemsubelemFragseq true args.isSubelem args.subelemfragid args.payloadbuff
        args.payloadbuffMaxsize defragbuff defragbuffMaxsize created =
          .ok (payload.length, restored) ∧
      readBytes restored (args.payloadbuff + lead.length)
        (payload ++ elements.flatMap Element.bytes).length =
          payload ++ elements.flatMap Element.bytes := by
  have hsize : args.payloadbuffMaxsize = 2 + ext + args.payloadlen +
      2 * ((ext + args.payloadlen - 1) / 255) + (elements.flatMap Element.bytes).length := by
    rw [hmax]
    simp only [length_append]
    omega
  obtain ⟨l, params, hparams, hdescribes, hle, htrailing, hlast⟩ :=
    exists_layout args hext (by omega) (by omega) hinline hsize
  have hbuffEq := hdescribes.payloadbuff
  have hcontent := hdescribes.payloadlen
  rw [hle, hpayload] at hcontent
  obtain ⟨created, hcreate, hcreated⟩ := wlanCreateElemsubelemFragseq_created mem hdescribes
    hparams (hle.trans hext) (hbuffEq ▸ hbuff) (by omega)
  -- the bytes of the source, part by part
  rw [hmax, append_assoc, append_assoc] at hmem
  obtain ⟨-, hrest⟩ := readBytes_append hmem
  rw [← append_assoc] at hrest
  obtain ⟨hdata, -⟩ := readBytes_append hrest
  obtain ⟨-, hafter⟩ := readBytes_append hdata
  rw [hbuffEq, hlead] at hafter hdata
  have hends : l.Ends (wlanGetElemunitInfo args.isSubelem args.subelemfragid).fragid created := by
    refine hcreated.ends elements ?_ htrailing hhead
    rw [← hcontent, ← Nat.add_assoc, Nat.add_assoc l.buff 2]
    exact hafter
  obtain ⟨restored, hdefrag, hrestored⟩ := hcreated.defrag hends (hbuffEq ▸ hbuff)
    (hle.trans hext) defragbuff defragbuffMaxsize
  refine ⟨l.fragseqlen, created, restored, ?_, hcreate, ?_, ?_⟩
  · rw [← hpayload, hparams, Option.map_some, hdescribes.expectedFragseqlen]
  · rw [hdescribes.payloadbuffMaxsize, hbuffEq, hdefrag, ← hcontent, hle, Nat.add_sub_cancel_left]
  · rw [hbuffEq, hlead, ← hdata]
    simp only [readBytes_length]
    refine readBytes_congr fun b hb hb' => hrestored b (by omega) ?_
    rw [length_append] at hb'
    omega

/-- Inline fragmentation followed by inline defragmentation gives back the payload and the
elements that follow it, and the length of the fragment sequence is the required one. -/
theorem inline_frag_round_trip (unit : ElemUnit) (buff : ℕ) (lead payload slack : List UInt8)
    (elements : List Element) (mem : Mem)
    (fragbuff fragbuffMaxsize defragbuff defragbuffMaxsize : ℕ) (hbuff : buff ≠ 0)
    (hmem : readBytes mem buff
        (lead ++ payload ++ elements.flatMap Element.bytes ++ slack).length =
      lead ++ payload ++ elements.flatMap Element.bytes ++ slack)
    (hlead : lead.length = 2 + unit.extLen) (hlong : 255 < unit.extLen + payload.length)
    (hfew : unit.numFragments payload.length < 65536)
    (hslack : slack.length = 2 * (unit.numFragments payload.length - 1))
    (hhead : ∀ e ∈ elements.head?, e.id ≠ unit.fragid) :
    ∃ fragseqlen created restored,
      unit.requirements payload.length = some fragseqlen ∧
      unit.create buff (lead ++ payload ++ elements.flatMap Element.bytes ++ slack).length
        payload.length fragbuff fragbuffMaxsize mem = .ok (fragseqlen, created) ∧
      unit.defrag buff (lead ++ payload ++ elements.flatMap Element.bytes ++ slack).length
        defragbuff defragbuffMaxsize created = .ok (payload.length, restored) ∧
      readBytes restored (buff + lead.length)
        (payload ++ elements.flatMap Element.bytes).length =
          payload ++ elements.flatMap Element.bytes := by
  cases unit with
  | elem elemid elemidext =>
    have hext : ElemUnit.extLen (.elem elemid elemidext) =
        if hasIdext false elemid then 1 else 0 := by
      simp [ElemUnit.extLen, hasIdext]
    exact elemsubelem_round_trip
      ⟨true, false, elemid, elemidext, 0, buff, _, payload.length, fragbuff, fragbuffMaxsize⟩
      lead payload slack elements mem defragbuff defragbuffMaxsize hext rfl hbuff rfl rfl hmem
      hlead hlong hfew hslack hhead
  | subelem subelemid subelemfragid =>
    exact elemsubelem_round_trip
      ⟨true, true, subelemid, 0, subelemfragid, buff, _, payload.length, fragbuff,
        fragbuffMaxsize⟩
      lead payload slack elements mem defragbuff defragbuffMaxsize rfl rfl hbuff rfl rfl hmem
      hlead hlong hfew hslack hhead

/-- An element with an ID extension, 300 bytes of payload and an element of two bytes after it. -/
theorem inline_frag_round_trip_extension :
    ∃ fragseqlen created restored,
      (ElemUnit.elem 255 7).requirements (List.replicate 300 (9 : UInt8)).length =
        some fragseqlen ∧
      (ElemUnit.elem 255 7).create 1
        ([255, 0, 7] ++ List.replicate 300 9 ++
          [Element.mk 1 [8, 8] (by decide)].flatMap Element.bytes ++
          [0, 0]).length (List.replicate 300 (9 : UInt8)).length 0 0
        (fun a => if a < 4 then [255, 0, 7].getD (a - 1) 0 else if a < 304 then 9
          else [1, 2, 8, 8].getD (a - 304) 0) = .ok (fragseqlen, created) ∧
      (ElemUnit.elem 255 7).defrag 1
        ([255, 0, 7] ++ List.replicate 300 9 ++
          [Element.mk 1 [8, 8] (by decide)].flatMap Element.bytes ++
          [0, 0]).length 0 0 created = .ok ((List.replicate 300 (9 : UInt8)).length, restored) ∧
      readBytes restored (1 + [255, 0, (7 : UInt8)].length)
        (List.replicate 300 9 ++ [Element.mk 1 [8, 8] (by decide)].flatMap Element.bytes).length =
          List.replicate 300 9 ++ [Element.mk 1 [8, 8] (by decide)].flatMap Element.bytes :=
  inline_frag_round_trip (.elem 255 7) 1 [255, 0, 7] (replicate 300 9) [0, 0]
    [Element.mk 1 [8, 8] (by decide)] _ 0 0 0 0 (by decide) (by decide +kernel) (by decide)
    (by decide +kernel) (by decide +kernel) (by decide +kernel)
    (by simp [ElemUnit.fragid, wlanElemidFragment])

end QcomModules.Wlan
