import QcomModules.Wlan.FragmentSequence

/-! Defragmentation of any sequence that is recognized, inline or into another buffer: the loop
stops where recognition did, and gives the concatenation of the payloads. -/

namespace QcomModules.Wlan

open List

/-! ## Moved bytes -/

section
variable {mem mem' : Mem} {a b n dst src : ℕ}

theorem readBytes_shift (h : ∀ i, i < n → mem' (a + i) = mem (b + i)) :
    readBytes mem' a n = readBytes mem b n := by
  induction n generalizing a b with
  | zero => rfl
  | succ n ih =>
    rw [readBytes, readBytes, show mem' a = mem b from h 0 (Nat.succ_pos n), ih]
    intro i hi
    have hnext := h (i + 1) (Nat.succ_lt_succ hi)
    rwa [Nat.add_comm i 1, ← Nat.add_assoc, ← Nat.add_assoc] at hnext

theorem readBytes_qdfMemMove (mem : Mem) (dst src n : ℕ) :
    readBytes (qdfMemMove mem dst src n) dst n = readBytes mem src n := by
  refine readBytes_shift fun i hi => ?_
  rw [qdfMemMove_of_mem (Nat.le_add_right dst i) (by omega), Nat.add_sub_cancel_left]

theorem readBytes_take (mem : Mem) (a : ℕ) {m n : ℕ} (h : m ≤ n) :
    (readBytes mem a n).take m = readBytes mem a m := by
  obtain ⟨k, rfl⟩ := Nat.exists_eq_add_of_le h
  rw [readBytes_add, take_left' (readBytes_length mem a m)]

theorem readBytes_drop (mem : Mem) (a : ℕ) {m n : ℕ} (h : m ≤ n) :
    (readBytes mem a n).drop m = readBytes mem (a + m) (n - m) := by
  obtain ⟨k, rfl⟩ := Nat.exists_eq_add_of_le h
  rw [readBytes_add, drop_left' (readBytes_length mem a m), Nat.add_sub_cancel_left]

end

/-! ## The loop -/

/-- Before a round at `curr`: what has been joined stands from `start` on, and nothing from `curr`
on has changed. -/
structure DefragRound (source : Mem) (start curr bound : ℕ) (joined : List UInt8)
    (s : DefragState) : Prop where
  position : s.curr = curr
  dst : s.dst = start + joined.length
  currlen : s.currlen = joined.length
  remlen : curr + s.remlen = bound
  content : readBytes s.mem start joined.length = joined
  ahead : ∀ a, curr ≤ a → a < bound → s.mem a = source a
  clear : s.dst ≤ curr ∨ bound ≤ s.dst

/-- After the loop, with so many bytes left behind the sequence. -/
structure DefragEnd (start rest : ℕ) (joined : List UInt8) (s : DefragState) : Prop where
  currlen : s.currlen = joined.length
  remlen : s.remlen = rest
  dst : rest ≠ 0 → s.dst = start + joined.length
  content : readBytes s.mem start joined.length = joined

section
variable {source : Mem} {start curr bound fuel : ℕ} {joined rest : List UInt8} {s : DefragState}
variable {sub : Bool} {fragid : UInt8} {e : Element}

/-- The state after a round in which the element at `curr` is moved. -/
def DefragState.moved (s : DefragState) (len : ℕ) : DefragState where
  mem := qdfMemMove s.mem s.dst (s.curr + 2) len
  curr := s.curr + (2 + len)
  dst := s.dst + len
  currlen := s.currlen + len
  remlen := s.remlen - (2 + len)

theorem DefragRound.moved (h : DefragRound source start curr bound joined s)
    (hspells : Spells source curr bound (e.bytes ++ rest)) :
    DefragRound source start (curr + 2 + e.body.length) bound (joined ++ e.body)
      (s.moved e.body.length) := by
  obtain ⟨-, -, hrest⟩ := hspells.element
  have hbody := (readBytes_element hspells.append.1).2.2
  have hbound := hrest.bound
  have hremlen := h.remlen
  have hclear := h.clear
  refine ⟨?_, ?_, ?_, ?_, ?_, ?_, ?_⟩
  · simp only [DefragState.moved, h.position, Nat.add_assoc]
  · simp only [DefragState.moved, h.dst, length_append, Nat.add_assoc]
  · simp only [DefragState.moved, h.currlen, length_append]
  · simp only [DefragState.moved]
    omega
  · rw [length_append, readBytes_add]
    congr 1
    · rw [← h.content, readBytes_length]
      refine readBytes_congr fun a _ ha => ?_
      exact qdfMemMove_of_lt (by rw [h.dst]; exact ha)
    · rw [← h.dst]
      simp only [DefragState.moved]
      rw [readBytes_qdfMemMove, h.position]
      refine (readBytes_congr fun a ha ha' => ?_).trans hbody
      exact h.ahead a (by omega) (by omega)
  · intro a ha ha'
    simp only [DefragState.moved]
    rcases hclear with hle | hge
    · rw [qdfMemMove_of_ge (by omega), h.ahead a (by omega) ha']
    · rw [qdfMemMove_of_lt (by omega), h.ahead a (by omega) ha']
  · simp only [DefragState.moved]
    omega

theorem DefragRound.defragLoop_succ (h : DefragRound source start curr bound joined s)
    (hspells : Spells source curr bound (e.bytes ++ rest))
    (hid : e.id = (wlanGetElemunitInfo sub fragid).fragid) (fuel : ℕ) :
    defragLoop (wlanGetElemunitInfo sub fragid) (fuel + 1) s =
      if rest = [] then
        { s.moved e.body.length with curr := s.curr, dst := s.dst }
      else defragLoop (wlanGetElemunitInfo sub fragid) fuel (s.moved e.body.length) := by
  obtain ⟨hsourceId, hsourceLen, hrest⟩ := hspells.element
  have hbound := hrest.bound
  have hremlen := h.remlen
  have hmemId : s.mem s.curr = (wlanGetElemunitInfo sub fragid).fragid := by
    rw [h.position, h.ahead curr (Nat.le_refl _) (by omega), hsourceId, hid]
  have hmemLen : (s.mem (s.curr + 1)).toNat = e.body.length := by
    rw [h.position, h.ahead (curr + 1) (Nat.le_succ _) (by omega), hsourceLen]
  rw [defragLoop]
  simp only [wlanGetElemunitInfo_hdrlen, wlanGetElemunitInfo_lenPos, wlanGetElemunitInfo_idPos,
    Nat.add_zero, hmemId, hmemLen, ne_eq, not_true, if_false]
  have hzero : s.remlen - (2 + e.body.length) = 0 ↔ rest = [] := by
    rw [← length_eq_zero_iff]
    omega
  by_cases hnil : rest = []
  · rw [if_pos (hzero.mpr hnil), if_pos hnil]
    rfl
  · rw [if_neg (fun hrem => hnil (hzero.mp hrem)), if_neg hnil]
    rfl

theorem DefragRound.stops (h : DefragRound source start curr bound joined s)
    (hspells : Spells source curr bound rest)
    (hends : EndsFragseq (wlanGetElemunitInfo sub fragid).fragid rest) (hne : rest ≠ [])
    (fuel : ℕ) : defragLoop (wlanGetElemunitInfo sub fragid) fuel s = s := by
  obtain ⟨e, tail, rfl, hid⟩ := hends.resolve_left hne
  obtain ⟨hsourceId, -, htail⟩ := hspells.element
  have hbound := htail.bound
  cases fuel with
  | zero => rfl
  | succ fuel =>
    rw [defragLoop]
    simp only [wlanGetElemunitInfo_idPos, Nat.add_zero]
    rw [h.position, h.ahead curr (Nat.le_refl _) (by omega), hsourceId, if_pos hid]

theorem DefragRound.defragLoop (es : List Element)
    (h : DefragRound source start curr bound joined s)
    (hspells : Spells source curr bound ((e :: es).flatMap Element.bytes ++ rest))
    (hids : ∀ k ∈ e :: es, k.id = (wlanGetElemunitInfo sub fragid).fragid)
    (hends : EndsFragseq (wlanGetElemunitInfo sub fragid).fragid rest)
    (hfuel : es.length < fuel) :
    DefragEnd start rest.length (joined ++ (e :: es).flatMap Element.body)
      (Wlan.defragLoop (wlanGetElemunitInfo sub fragid) fuel s) := by
  induction es generalizing e curr joined s fuel with
  | nil =>
    obtain ⟨fuel, rfl⟩ : ∃ k, fuel = k + 1 := ⟨fuel - 1, by omega⟩
    rw [flatMap_singleton] at hspells
    have hmoved := h.moved hspells
    have hremlen := hmoved.remlen
    obtain ⟨-, -, hrest⟩ := hspells.element
    have hbound := hrest.bound
    rw [h.defragLoop_succ hspells (hids e mem_cons_self), flatMap_singleton]
    by_cases hnil : rest = []
    · subst hnil
      rw [if_pos rfl]
      refine ⟨hmoved.currlen, ?_, fun hne => absurd rfl hne, hmoved.content⟩
      simp only [length_nil]
      rw [length_nil] at hbound
      omega
    · rw [if_neg hnil, hmoved.stops hrest hends hnil]
      exact ⟨hmoved.currlen, by omega, fun _ => hmoved.dst, hmoved.content⟩
  | cons next es ih =>
    obtain ⟨fuel, rfl⟩ : ∃ k, fuel = k + 1 := ⟨fuel - 1, by omega⟩
    rw [flatMap_cons, append_assoc] at hspells
    have hmoved := h.moved hspells
    obtain ⟨-, -, hrest⟩ := hspells.element
    rw [h.defragLoop_succ hspells (hids e mem_cons_self), if_neg (by simp [Element.bytes])]
    have hend := ih hmoved hrest (fun k hk => hids k (mem_cons_of_mem e hk))
      (Nat.lt_of_succ_lt_succ hfuel)
    rwa [append_assoc, ← flatMap_cons] at hend

end

/-! ## Both modes -/

def leadExt (sub : Bool) (lead : Element) : ℕ := if hasIdext sub lead.id then 1 else 0

def defragStart (inlineDefrag sub : Bool) (lead : Element) (fragbuff defragbuff : ℕ) : ℕ :=
  if inlineDefrag then fragbuff + 2 + leadExt sub lead else defragbuff

/-- Another buffer that has room for the payload and does not overlap the source. -/
structure DefragBuffer (fragbuff fragbuffMaxsize defragbuff defragbuffMaxsize len : ℕ) : Prop where
  notNull : defragbuff ≠ 0
  fits : len ≤ defragbuffMaxsize
  apart : defragbuff + len ≤ fragbuff ∨ fragbuff + fragbuffMaxsize ≤ defragbuff

section
variable {mem : Mem} {buff buffMaxsize defragbuff defragbuffMaxsize : ℕ} {sub inlineDefrag : Bool}
variable {fragid : UInt8} {lead : Element} {frags : List Element} {rest tail : List UInt8}

theorem leadExt_le (sub : Bool) (lead : Element) : leadExt sub lead ≤ 1 := by
  rw [leadExt]
  split <;> omega

def leadJoined (inlineDefrag sub : Bool) (lead : Element) (mem : Mem)
    (buff buffMaxsize defragbuff : ℕ) : DefragState where
  mem := if inlineDefrag then mem
    else qdfMemMove mem defragbuff (buff + 2 + leadExt sub lead) (255 - leadExt sub lead)
  curr := buff + (2 + 255)
  dst := defragStart inlineDefrag sub lead buff defragbuff + (255 - leadExt sub lead)
  currlen := 255 - leadExt sub lead
  remlen := buffMaxsize - (2 + 255)

theorem leadJoined_round (hspells : Spells mem buff (buff + buffMaxsize) (lead.bytes ++ tail))
    (hfull : lead.body.length = 255)
    (hapart : inlineDefrag = false →
      defragbuff + (255 - leadExt sub lead) ≤ buff ∨ buff + buffMaxsize ≤ defragbuff) :
    DefragRound mem (defragStart inlineDefrag sub lead buff defragbuff) (buff + 2 + 255)
      (buff + buffMaxsize) (lead.body.drop (leadExt sub lead))
      (leadJoined inlineDefrag sub lead mem buff buffMaxsize defragbuff) := by
  have hle := leadExt_le sub lead
  obtain ⟨-, -, htail⟩ := hspells.element
  have hbound := htail.bound
  have hlen : (lead.body.drop (leadExt sub lead)).length = 255 - leadExt sub lead := by
    rw [length_drop, hfull]
  have hbody : readBytes mem (buff + 2 + leadExt sub lead) (255 - leadExt sub lead) =
      lead.body.drop (leadExt sub lead) := by
    rw [← readBytes_drop mem (buff + 2) (by omega : leadExt sub lead ≤ 255), ← hfull,
      (readBytes_element hspells.append.1).2.2]
  cases inlineDefrag with
  | true =>
    refine ⟨rfl, by rw [hlen]; rfl, by rw [hlen]; rfl, ?_, by rw [hlen]; exact hbody,
      fun _ _ _ => rfl, ?_⟩
    · simp only [leadJoined]
      omega
    · simp only [leadJoined, defragStart, if_true]
      omega
  | false =>
    have hapart := hapart rfl
    refine ⟨rfl, by rw [hlen]; rfl, by rw [hlen]; rfl, ?_, ?_, ?_, ?_⟩
    · simp only [leadJoined]
      omega
    · rw [hlen]
      exact (readBytes_qdfMemMove mem defragbuff _ _).trans hbody
    · intro a ha ha'
      simp only [leadJoined, Bool.false_eq_true, if_false]
      rcases hapart with hbelow | habove
      · rw [qdfMemMove_of_ge (by omega)]
      · rw [qdfMemMove_of_lt (by omega)]
    · simp only [leadJoined, defragStart, Bool.false_eq_true, if_false]
      omega

theorem fragseqPayload_eq (hfull : lead.body.length = 255) :
    fragseqPayload sub lead frags =
      lead.body.drop (leadExt sub lead) ++ frags.flatMap Element.body := by
  have hle := leadExt_le sub lead
  rw [fragseqPayload, flatMap_cons, ← leadExt, drop_append_of_le_length (by omega)]

theorem length_le_flatMap_bytes (es : List Element) :
    es.length ≤ (es.flatMap Element.bytes).length := by
  induction es with
  | nil => exact Nat.le_refl 0
  | cons e es ih =>
    rw [flatMap_cons, length_append, length_cons, Element.length_bytes]
    omega

theorem DefragEnd.payload_kept {start : ℕ} {joined : List UInt8} {s : DefragState}
    (h : DefragEnd start rest.length joined s) (residual : Bool) :
    readBytes (if (residual && decide (s.remlen ≠ 0)) = true then
      qdfMemMove s.mem s.dst s.curr s.remlen else s.mem) start joined.length = joined := by
  split
  · next hmove =>
      have hne : rest.length ≠ 0 := by
        rw [← h.remlen]
        simp only [Bool.and_eq_true, decide_eq_true_eq] at hmove
        exact hmove.2
      refine (readBytes_congr fun a _ ha => ?_).trans h.content
      exact qdfMemMove_of_lt (by rw [h.dst hne]; exact ha)
  · exact h.content

/-- The loop ends with the payload of the sequence joined. -/
theorem defragLoop_of_starts
    (hstarts : StartsFragseq (wlanGetElemunitInfo sub fragid).fragid mem buff buffMaxsize lead
      frags rest)
    (hapart : inlineDefrag = false →
      defragbuff + (fragseqPayload sub lead frags).length ≤ buff ∨
        buff + buffMaxsize ≤ defragbuff) :
    DefragEnd (defragStart inlineDefrag sub lead buff defragbuff) rest.length
      (fragseqPayload sub lead frags)
      (defragLoop (wlanGetElemunitInfo sub fragid) buffMaxsize
        (leadJoined inlineDefrag sub lead mem buff buffMaxsize defragbuff)) := by
  have hfull := hstarts.fragseq.leadFull
  have hspells := hstarts.spells
  rw [flatMap_cons, append_assoc] at hspells
  obtain ⟨-, -, hfrags⟩ := hspells.element
  have hbound := hfrags.bound
  have hmany := length_le_flatMap_bytes frags
  rw [length_append] at hbound
  rw [hfull] at hfrags
  have hpayload : fragseqPayload sub lead frags =
      lead.body.drop (leadExt sub lead) ++ frags.flatMap Element.body := fragseqPayload_eq hfull
  have hlead : inlineDefrag = false → defragbuff + (255 - leadExt sub lead) ≤ buff ∨
      buff + buffMaxsize ≤ defragbuff := by
    intro hinline
    have hpart := hapart hinline
    rw [hpayload, length_append, length_drop, hfull] at hpart
    omega
  have hround := leadJoined_round hspells hfull hlead
  rw [hpayload]
  obtain ⟨e, es, rfl⟩ := exists_cons_of_ne_nil hstarts.fragseq.nonempty
  rw [length_cons] at hmany
  have hfuel : es.length < buffMaxsize := by omega
  exact hround.defragLoop es hfrags hstarts.fragseq.ids hstarts.ends hfuel

theorem wlanDefragElemsubelemFragseq_of_starts (hbuff : buff ≠ 0)
    (hstarts : StartsFragseq (wlanGetElemunitInfo sub fragid).fragid mem buff buffMaxsize lead
      frags rest)
    (hdefrag : inlineDefrag = false → DefragBuffer buff buffMaxsize defragbuff defragbuffMaxsize
      (fragseqPayload sub lead frags).length) :
    ∃ mem', wlanDefragElemsubelemFragseq inlineDefrag sub fragid buff buffMaxsize defragbuff
        defragbuffMaxsize mem = .ok ((fragseqPayload sub lead frags).length, mem') ∧
      readBytes mem' (defragStart inlineDefrag sub lead buff defragbuff)
        (fragseqPayload sub lead frags).length = fragseqPayload sub lead frags := by
  have hfull := hstarts.fragseq.leadFull
  have hend := defragLoop_of_starts hstarts fun hinline => (hdefrag hinline).apart
  have hinfo := fragseqInfo_of_starts hbuff hstarts
  have hlength : (fragseqPayload sub lead frags).length =
      (if hasIdext sub lead.id then 255 - 1 else 255) + (frags.flatMap Element.body).length :=
    length_fragseqPayload hfull
  have hspells := hstarts.spells
  rw [flatMap_cons, append_assoc] at hspells
  obtain ⟨hid, hlen, hfrags⟩ := hspells.element
  have hbound := hfrags.bound
  have hlead : (if hasIdext sub lead.id then 255 - 1 else 255) = 255 - leadExt sub lead := by
    rw [leadExt]
    split <;> rfl
  have hnotNull : ¬ (!inlineDefrag && decide (defragbuff = 0)) = true := by
    cases inlineDefrag with
    | true => simp
    | false => simpa using (hdefrag rfl).notNull
  have hfits : ¬ (!inlineDefrag && decide (defragbuffMaxsize <
      (fragseqPayload sub lead frags).length)) = true := by
    cases inlineDefrag with
    | true => simp
    | false => simpa using (hdefrag rfl).fits
  have hroom : ¬ (!inlineDefrag && decide (defragbuffMaxsize = 0)) = true := by
    cases inlineDefrag with
    | true => simp
    | false =>
      have hle := (hdefrag rfl).fits
      have hext := leadExt_le sub lead
      simp only [Bool.not_false, Bool.true_and, decide_eq_true_eq]
      omega
  rw [wlanDefragElemsubelemFragseq, hinfo]
  simp only [wlanGetElemunitInfo_hdrlen, wlanGetElemunitInfo_lenPos, wlanGetElemunitInfo_idPos,
    Nat.add_zero, hid, hlen, hfull, hlead]
  rw [if_neg hbuff, if_neg (by omega), if_neg hnotNull, if_neg hroom, if_neg hfits]
  exact ⟨_, by rw [← hend.currlen]; rfl, hend.payload_kept inlineDefrag⟩

end

/-! ## Elements and subelements -/

def wlanGetElemFragseqInfo (mem : Mem) (elembuff elembuffMaxsize : ℕ) :
    Except QdfStatus (Option (ℕ × ℕ)) :=
  wlanGetElemsubelemFragseqInfo false 0 mem elembuff elembuffMaxsize

def wlanGetSubelemFragseqInfo (subelemfragid : UInt8) (mem : Mem)
    (subelembuff subelembuffMaxsize : ℕ) : Except QdfStatus (Option (ℕ × ℕ)) :=
  wlanGetElemsubelemFragseqInfo true subelemfragid mem subelembuff subelembuffMaxsize

/-- What a buffer holds: elements, or subelements with the given fragment ID. -/
inductive FragseqKind where
  | elem
  | subelem (subelemfragid : UInt8)
deriving DecidableEq, Repr

namespace FragseqKind

def isSubelem : FragseqKind → Bool
  | elem => false
  | subelem _ => true

def fragid : FragseqKind → UInt8
  | elem => wlanElemidFragment
  | subelem subelemfragid => subelemfragid

def info : FragseqKind → Mem → ℕ → ℕ → Except QdfStatus (Option (ℕ × ℕ))
  | elem => wlanGetElemFragseqInfo
  | subelem subelemfragid => wlanGetSubelemFragseqInfo subelemfragid

def infoReads : FragseqKind → Mem → ℕ → ℕ → List ℕ
  | elem => fragseqInfoReads false 0
  | subelem subelemfragid => fragseqInfoReads true subelemfragid

def defrag (kind : FragseqKind) (inlineDefrag : Bool) :
    ℕ → ℕ → ℕ → ℕ → Mem → Except QdfStatus (ℕ × Mem) :=
  match kind with
  | elem => wlanDefragElemFragseq inlineDefrag
  | subelem subelemfragid => wlanDefragSubelemFragseq inlineDefrag subelemfragid

end FragseqKind

/-- Recognition stays inside of the buffer and ends, it finds what stands at its start, and both
modes of defragmentation join what it finds. -/
structure RecognizedRight (kind : FragseqKind) (mem : Mem) (buff buffMaxsize : ℕ) : Prop where
  reads : ∀ a ∈ kind.infoReads mem buff buffMaxsize, buff ≤ a ∧ a < buff + buffMaxsize
  readsAll : ∀ mem', (∀ a ∈ kind.infoReads mem buff buffMaxsize, mem' a = mem a) →
    kind.info mem' buff buffMaxsize = kind.info mem buff buffMaxsize
  terminates : kind.info mem buff buffMaxsize ≠ .error .eFailure
  found : ∀ totallen payloadlen,
    kind.info mem buff buffMaxsize = .ok (some (totallen, payloadlen)) ↔
      ∃ lead frags rest, StartsFragseq kind.fragid mem buff buffMaxsize lead frags rest ∧
        totallen = ((lead :: frags).flatMap Element.bytes).length ∧
        payloadlen = (fragseqPayload kind.isSubelem lead frags).length
  joinedInline : ∀ lead frags rest,
    StartsFragseq kind.fragid mem buff buffMaxsize lead frags rest →
    ∀ defragbuff defragbuffMaxsize, ∃ mem',
      kind.defrag true buff buffMaxsize defragbuff defragbuffMaxsize mem =
          .ok ((fragseqPayload kind.isSubelem lead frags).length, mem') ∧
        readBytes mem' (buff + 2 + leadExt kind.isSubelem lead)
          (fragseqPayload kind.isSubelem lead frags).length =
            fragseqPayload kind.isSubelem lead frags
  joinedCopy : ∀ lead frags rest,
    StartsFragseq kind.fragid mem buff buffMaxsize lead frags rest →
    ∀ defragbuff defragbuffMaxsize, DefragBuffer buff buffMaxsize defragbuff defragbuffMaxsize
        (fragseqPayload kind.isSubelem lead frags).length →
      ∃ mem', kind.defrag false buff buffMaxsize defragbuff defragbuffMaxsize mem =
          .ok ((fragseqPayload kind.isSubelem lead frags).length, mem') ∧
        readBytes mem' defragbuff (fragseqPayload kind.isSubelem lead frags).length =
          fragseqPayload kind.isSubelem lead frags

theorem recognizedRight (kind : FragseqKind) (mem : Mem) (buff buffMaxsize : ℕ)
    (hbuff : buff ≠ 0) : RecognizedRight kind mem buff buffMaxsize := by
  obtain ⟨sub, fragid, hinfo, hreads, hdefrag, hsub, hfragid⟩ : ∃ sub fragid,
      kind.info = wlanGetElemsubelemFragseqInfo sub fragid ∧
      kind.infoReads = fragseqInfoReads sub fragid ∧
      (∀ inlineDefrag, kind.defrag inlineDefrag =
        wlanDefragElemsubelemFragseq inlineDefrag sub fragid) ∧
      kind.isSubelem = sub ∧ kind.fragid = (wlanGetElemunitInfo sub fragid).fragid := by
    cases kind with
    | elem => exact ⟨false, 0, rfl, rfl, fun _ => rfl, rfl, rfl⟩
    | subelem subelemfragid => exact ⟨true, subelemfragid, rfl, rfl, fun _ => rfl, rfl, rfl⟩
  refine ⟨?_, ?_, ?_, ?_, ?_, ?_⟩
  · intro a ha
    rw [hreads] at ha
    exact mem_fragseqInfoReads ha
  · intro mem' hsame
    rw [hreads] at hsame
    rw [hinfo, fragseqInfo_congr hsame]
  · rw [hinfo]
    exact fragseqInfo_ne_failure sub fragid mem buff buffMaxsize
  · rw [hinfo, hsub, hfragid]
    exact fragseqInfo_some_iff sub fragid mem buffMaxsize hbuff
  · intro lead frags rest hstarts defragbuff defragbuffMaxsize
    rw [hfragid] at hstarts
    rw [hdefrag, hsub]
    exact wlanDefragElemsubelemFragseq_of_starts hbuff hstarts (by simp)
  · intro lead frags rest hstarts defragbuff defragbuffMaxsize hother
    rw [hfragid] at hstarts
    rw [hsub] at hother ⊢
    rw [hdefrag]
    exact wlanDefragElemsubelemFragseq_of_starts hbuff hstarts (fun _ => hother)

/-- An element of 255 bytes and a fragment of one, in front of an element without a body. -/
theorem recognizedRight_elem :
    RecognizedRight .elem (fun a => if a = 1 then 7 else if a = 2 then 255 else if a = 258 then 242
      else if a = 259 then 1 else if a = 261 then 9 else 0) 1 262 :=
  recognizedRight .elem _ 1 262 (by decide)

end QcomModules.Wlan
