import QcomModules.Wlan.FragmentRoundTrip

/-! Recognition of a fragment sequence. What `wlan_get_elemsubelem_fragseq_info` finds at the start
of a buffer is compared with the elements that the bytes of the buffer spell. -/

namespace QcomModules.Wlan

open List

/-! ## Fragment sequences -/

/-- A full lead element and one or more fragments, none of them empty and all but the last full. -/
structure IsFragseq (fragid : UInt8) (lead : Element) (frags : List Element) : Prop where
  leadFull : lead.body.length = 255
  nonempty : frags ≠ []
  ids : ∀ e ∈ frags, e.id = fragid
  full : ∀ e ∈ frags.dropLast, e.body.length = 255
  filled : ∀ e ∈ frags, e.body.length ≠ 0

/-- Nothing, or a complete element that is no fragment and what is behind it. -/
def EndsFragseq (fragid : UInt8) (rest : List UInt8) : Prop :=
  rest = [] ∨ ∃ e tail, rest = Element.bytes e ++ tail ∧ e.id ≠ fragid

/-- Each of the elements is a fragment that may follow the one before it. -/
def Chained (fragid : UInt8) : Element → List Element → Prop
  | _, [] => True
  | e, next :: es =>
    e.body.length = 255 ∧ next.id = fragid ∧ next.body.length ≠ 0 ∧ Chained fragid next es

theorem isFragseq_iff {fragid : UInt8} {lead : Element} {frags : List Element} :
    IsFragseq fragid lead frags ↔ frags ≠ [] ∧ Chained fragid lead frags := by
  induction frags generalizing lead with
  | nil => exact ⟨fun h => absurd rfl h.nonempty, fun h => absurd rfl h.1⟩
  | cons e es ih =>
    constructor
    · intro h
      have hid := h.ids e mem_cons_self
      have hfilled := h.filled e mem_cons_self
      refine ⟨cons_ne_nil e es, h.leadFull, hid, hfilled, ?_⟩
      cases es with
      | nil => trivial
      | cons next es =>
        refine (ih.mp ⟨h.full e (by simp), cons_ne_nil next es, ?_, ?_, ?_⟩).2
        · exact fun k hk => h.ids k (mem_cons_of_mem e hk)
        · exact fun k hk => h.full k (by
            rw [dropLast_cons_of_ne_nil (cons_ne_nil next es)]
            exact mem_cons_of_mem e hk)
        · exact fun k hk => h.filled k (mem_cons_of_mem e hk)
    · rintro ⟨-, hlead, hid, hfilled, hchained⟩
      cases es with
      | nil => exact ⟨hlead, by simp, by simpa using hid, by simp, by simpa using hfilled⟩
      | cons next es =>
        have hrest := ih.mpr ⟨cons_ne_nil next es, hchained⟩
        refine ⟨hlead, cons_ne_nil _ _, ?_, ?_, ?_⟩
        · exact forall_mem_cons.mpr ⟨hid, hrest.ids⟩
        · rw [dropLast_cons_of_ne_nil (cons_ne_nil next es)]
          exact forall_mem_cons.mpr ⟨hrest.leadFull, hrest.full⟩
        · exact forall_mem_cons.mpr ⟨hfilled, hrest.filled⟩

/-! ## The bytes of a buffer -/

@[simp] theorem Element.length_bytes (e : Element) : e.bytes.length = 2 + e.body.length := by
  rw [Element.bytes, length_cons, length_cons, Nat.add_comm 2]

/-- The bytes from an address up to the end of a buffer. -/
structure Spells (mem : Mem) (a bound : ℕ) (bytes : List UInt8) : Prop where
  bound : a + bytes.length = bound
  read : readBytes mem a bytes.length = bytes

section
variable {mem : Mem} {a bound : ℕ} {xs ys tail : List UInt8} {e : Element}

theorem spells_readBytes (mem : Mem) (a n : ℕ) : Spells mem a (a + n) (readBytes mem a n) :=
  ⟨by rw [readBytes_length], by rw [readBytes_length]⟩

theorem Spells.append (h : Spells mem a bound (xs ++ ys)) :
    readBytes mem a xs.length = xs ∧ Spells mem (a + xs.length) bound ys := by
  obtain ⟨hxs, hys⟩ := readBytes_append h.read
  have hbound := h.bound
  rw [length_append, ← Nat.add_assoc] at hbound
  exact ⟨hxs, hbound, hys⟩

theorem readBytes_element (h : readBytes mem a e.bytes.length = e.bytes) :
    mem a = e.id ∧ (mem (a + 1)).toNat = e.body.length ∧
      readBytes mem (a + 2) e.body.length = e.body := by
  have hlen : e.bytes.length = e.body.length + 1 + 1 := rfl
  rw [hlen, readBytes, readBytes, Element.bytes, cons.injEq, cons.injEq] at h
  have hfits := e.fits
  refine ⟨h.1, ?_, h.2.2⟩
  rw [h.2.1, UInt8.toNat_ofNat']
  omega

def elementAt (mem : Mem) (a : ℕ) : Element where
  id := mem a
  body := readBytes mem (a + 2) (mem (a + 1)).toNat
  fits := by
    rw [readBytes_length]
    exact Nat.le_of_lt_succ (mem (a + 1)).toNat_lt

theorem body_elementAt (mem : Mem) (a : ℕ) :
    (elementAt mem a).body = readBytes mem (a + 2) (mem (a + 1)).toNat := rfl

theorem bytes_elementAt (mem : Mem) (a : ℕ) :
    (elementAt mem a).bytes = readBytes mem a (2 + (mem (a + 1)).toNat) := by
  rw [Nat.add_comm 2, readBytes, readBytes, Element.bytes, elementAt, readBytes_length]
  simp

theorem Spells.element (h : Spells mem a bound (e.bytes ++ tail)) :
    mem a = e.id ∧ (mem (a + 1)).toNat = e.body.length ∧
      Spells mem (a + 2 + e.body.length) bound tail := by
  obtain ⟨hread, hrest⟩ := h.append
  obtain ⟨hid, hlen, -⟩ := readBytes_element hread
  rw [Element.length_bytes, ← Nat.add_assoc] at hrest
  exact ⟨hid, hlen, hrest⟩

end

/-! ## Successors -/

section
variable {mem : Mem} {buff buffMaxsize curr : ℕ} {sub : Bool} {fragid : UInt8}
variable {e : Element} {rest : List UInt8}

def nextElement (mem : Mem) (curr : ℕ) : ℕ := curr + 2 + (mem (curr + 1)).toNat

theorem add_two_le_nextElement (mem : Mem) (curr : ℕ) : curr + 2 ≤ nextElement mem curr :=
  Nat.le_add_right _ _

theorem successorfrag_eq (sub : Bool) (fragid : UInt8) (mem : Mem)
    (curr buff buffMaxsize : ℕ) :
    wlanGetElemsubelemSuccessorfrag (wlanGetElemunitInfo sub fragid) mem curr buff buffMaxsize =
      if buff + buffMaxsize < nextElement mem curr then .error .eProto
      else if buff + buffMaxsize = nextElement mem curr then .ok none
      else if buff + buffMaxsize < nextElement mem (nextElement mem curr) then .error .eProto
      else if mem (nextElement mem curr) ≠ (wlanGetElemunitInfo sub fragid).fragid then .ok none
      else if (mem (curr + 1)).toNat ≠ 255 then .error .eProto
      else if (mem (nextElement mem curr + 1)).toNat = 0 then .error .eProto
      else .ok (some (nextElement mem curr)) := by
  have hfold : ∀ a, a + 2 + (mem (a + 1)).toNat = nextElement mem a := fun _ => rfl
  simp only [wlanGetElemsubelemSuccessorfrag, wlanGetElemunitInfo_hdrlen,
    wlanGetElemunitInfo_lenPos, wlanGetElemunitInfo_idPos, wlanGetElemunitInfo_maxpayloadlen,
    Nat.add_zero, hfold]
  by_cases hhdr : buff + buffMaxsize < curr + 2
  · have hlt : buff + buffMaxsize < nextElement mem curr :=
      Nat.lt_of_lt_of_le hhdr (add_two_le_nextElement mem curr)
    rw [if_pos hhdr, if_pos hlt]
  · rw [if_neg hhdr]
    by_cases hnext : buff + buffMaxsize < nextElement mem curr + 2
    · have hlt : buff + buffMaxsize < nextElement mem (nextElement mem curr) :=
        Nat.lt_of_lt_of_le hnext (add_two_le_nextElement mem _)
      simp only [hnext, hlt, if_true]
    · simp only [hnext, if_false]

theorem successorfrag_none_iff : wlanGetElemsubelemSuccessorfrag (wlanGetElemunitInfo sub fragid)
      mem curr buff buffMaxsize = .ok none ↔
    buff + buffMaxsize = nextElement mem curr ∨
      nextElement mem (nextElement mem curr) ≤ buff + buffMaxsize ∧
        mem (nextElement mem curr) ≠ (wlanGetElemunitInfo sub fragid).fragid := by
  have hle := add_two_le_nextElement mem (nextElement mem curr)
  rw [successorfrag_eq]
  grind

theorem successorfrag_some_iff {next : ℕ} :
    wlanGetElemsubelemSuccessorfrag (wlanGetElemunitInfo sub fragid) mem curr buff
        buffMaxsize = .ok (some next) ↔
      next = nextElement mem curr ∧ nextElement mem next ≤ buff + buffMaxsize ∧
        mem next = (wlanGetElemunitInfo sub fragid).fragid ∧ (mem (curr + 1)).toNat = 255 ∧
        (mem (next + 1)).toNat ≠ 0 := by
  have hle := add_two_le_nextElement mem (nextElement mem curr)
  rw [successorfrag_eq]
  grind

theorem successorfrag_error {status : QdfStatus}
    (h : wlanGetElemsubelemSuccessorfrag (wlanGetElemunitInfo sub fragid) mem curr buff
      buffMaxsize = .error status) : status = .eProto := by
  rw [successorfrag_eq] at h
  grind

theorem Spells.cons {bound : ℕ} {tail : List UInt8}
    (h : Spells mem (nextElement mem curr) bound tail) :
    Spells mem curr bound ((elementAt mem curr).bytes ++ tail) := by
  have hbound := h.bound
  have hlen : ((elementAt mem curr).bytes ++ tail).length =
      2 + (mem (curr + 1)).toNat + tail.length := by
    rw [length_append, bytes_elementAt, readBytes_length]
  refine ⟨?_, ?_⟩
  · rw [hlen, ← hbound, nextElement]
    omega
  · rw [hlen, readBytes_add, ← bytes_elementAt, ← Nat.add_assoc, ← nextElement, h.read]

theorem successorfrag_last (h : Spells mem curr (buff + buffMaxsize) (e.bytes ++ rest))
    (hends : EndsFragseq (wlanGetElemunitInfo sub fragid).fragid rest) :
    wlanGetElemsubelemSuccessorfrag (wlanGetElemunitInfo sub fragid) mem curr buff buffMaxsize =
      .ok none := by
  obtain ⟨-, hlen, hrest⟩ := h.element
  rw [← hlen, ← nextElement] at hrest
  rw [successorfrag_none_iff]
  rcases hends with rfl | ⟨next, tail, rfl, hid⟩
  · exact .inl hrest.bound.symm
  · obtain ⟨hnextId, hnextLen, htail⟩ := hrest.element
    rw [← hnextLen, ← nextElement] at htail
    have hbound := htail.bound
    exact .inr ⟨by omega, by rwa [hnextId]⟩

theorem successorfrag_chained {next : Element}
    (h : Spells mem curr (buff + buffMaxsize) (e.bytes ++ (next.bytes ++ rest)))
    (hfull : e.body.length = 255) (hid : next.id = (wlanGetElemunitInfo sub fragid).fragid)
    (hfilled : next.body.length ≠ 0) :
    wlanGetElemsubelemSuccessorfrag (wlanGetElemunitInfo sub fragid) mem curr buff buffMaxsize =
      .ok (some (nextElement mem curr)) := by
  obtain ⟨-, hlen, hrest⟩ := h.element
  rw [← hlen, ← nextElement] at hrest
  obtain ⟨hnextId, hnextLen, htail⟩ := hrest.element
  rw [← hnextLen, ← nextElement] at htail
  have hbound := htail.bound
  rw [successorfrag_some_iff]
  exact ⟨rfl, by omega, by rw [hnextId, hid], by rw [hlen, hfull], by rwa [hnextLen]⟩

/-! ## The loop over the successors -/

variable {fuel : ℕ} {r : ℕ × ℕ} {lead : Element}

theorem fragseqLoop_chained (es : List Element)
    (h : Spells mem curr (buff + buffMaxsize) (e.bytes ++ (es.flatMap Element.bytes ++ rest)))
    (hchained : Chained (wlanGetElemunitInfo sub fragid).fragid e es)
    (hends : EndsFragseq (wlanGetElemunitInfo sub fragid).fragid rest)
    (hfuel : buff + buffMaxsize ≤ curr + fuel) (totallen payloadlen : ℕ) :
    fragseqLoop (wlanGetElemunitInfo sub fragid) mem buff buffMaxsize fuel (some curr) totallen
        payloadlen =
      .ok (totallen + ((e :: es).flatMap Element.bytes).length,
        payloadlen + ((e :: es).flatMap Element.body).length) := by
  induction es generalizing e curr fuel totallen payloadlen with
  | nil =>
    obtain ⟨-, hlen, hrest⟩ := h.element
    have hbound := hrest.bound
    obtain ⟨fuel, rfl⟩ : ∃ k, fuel = k + 1 := ⟨fuel - 1, by omega⟩
    rw [fragseqLoop, successorfrag_last h hends]
    simp [fragseqLoop, hlen]
  | cons next es ih =>
    obtain ⟨hfull, hid, hfilled, hchained⟩ := hchained
    rw [flatMap_cons, append_assoc] at h
    have hsucc := successorfrag_chained h hfull hid hfilled
    obtain ⟨-, hlen, hrest⟩ := h.element
    have hbound := hrest.bound
    obtain ⟨fuel, rfl⟩ : ∃ k, fuel = k + 1 := ⟨fuel - 1, by omega⟩
    rw [← hlen, ← nextElement] at hrest
    have hnext := add_two_le_nextElement mem curr
    rw [fragseqLoop, hsucc]
    simp only
    rw [ih hrest hchained (by omega)]
    simp [hlen, Nat.add_assoc]

theorem exists_chained_of_fragseqLoop {totallen payloadlen : ℕ}
    (h : fragseqLoop (wlanGetElemunitInfo sub fragid) mem buff buffMaxsize fuel (some curr)
      totallen payloadlen = .ok r) :
    ∃ es rest, Spells mem curr (buff + buffMaxsize)
        ((elementAt mem curr).bytes ++ (es.flatMap Element.bytes ++ rest)) ∧
      Chained (wlanGetElemunitInfo sub fragid).fragid (elementAt mem curr) es ∧
      EndsFragseq (wlanGetElemunitInfo sub fragid).fragid rest := by
  induction fuel generalizing curr totallen payloadlen with
  | zero => simp [fragseqLoop] at h
  | succ fuel ih =>
    rw [fragseqLoop] at h
    rcases hsucc : wlanGetElemsubelemSuccessorfrag (wlanGetElemunitInfo sub fragid) mem curr buff
      buffMaxsize with status | next
    · simp [hsucc] at h
    · rw [hsucc] at h
      cases next with
      | none =>
        rcases successorfrag_none_iff.mp hsucc with hend | ⟨hle, hid⟩
        · exact ⟨[], [], Spells.cons ⟨hend.symm, rfl⟩, trivial, .inl rfl⟩
        · obtain ⟨n, hn⟩ := Nat.exists_eq_add_of_le hle
          refine ⟨[], _, Spells.cons (Spells.cons (hn ▸ spells_readBytes mem _ n)), trivial,
            .inr ⟨_, _, rfl, hid⟩⟩
      | some next =>
        obtain ⟨rfl, -, hid, hfull, hfilled⟩ := successorfrag_some_iff.mp hsucc
        obtain ⟨es, rest, hspells, hchained, hends⟩ := ih h
        refine ⟨elementAt mem (nextElement mem curr) :: es, rest, ?_, ⟨?_, hid, ?_, hchained⟩,
          hends⟩
        · rw [flatMap_cons, append_assoc]
          exact hspells.cons
        · rw [elementAt, readBytes_length, hfull]
        · rwa [elementAt, readBytes_length]

/-- The loop ends before its fuel does. -/
theorem fragseqLoop_ne_failure (hcurr : curr < buff + buffMaxsize)
    (hfuel : buff + buffMaxsize ≤ curr + fuel) (totallen payloadlen : ℕ) :
    fragseqLoop (wlanGetElemunitInfo sub fragid) mem buff buffMaxsize fuel (some curr) totallen
      payloadlen ≠ .error .eFailure := by
  induction fuel generalizing curr totallen payloadlen with
  | zero => omega
  | succ fuel ih =>
    rw [fragseqLoop]
    rcases hsucc : wlanGetElemsubelemSuccessorfrag (wlanGetElemunitInfo sub fragid) mem curr buff
      buffMaxsize with status | next
    · simp [successorfrag_error hsucc]
    · cases next with
      | none => simp [fragseqLoop]
      | some next =>
        obtain ⟨rfl, hle, -, -, -⟩ := successorfrag_some_iff.mp hsucc
        have hcurr' := add_two_le_nextElement mem curr
        have hnext := add_two_le_nextElement mem (nextElement mem curr)
        exact ih (by omega) (by omega) _ _

/-! ## Recognition -/

/-- A fragment sequence stands at the start of the buffer, and what follows ends it. -/
structure StartsFragseq (fragid : UInt8) (mem : Mem) (buff buffMaxsize : ℕ) (lead : Element)
    (frags : List Element) (rest : List UInt8) : Prop where
  spells : Spells mem buff (buff + buffMaxsize)
    ((lead :: frags).flatMap Element.bytes ++ rest)
  fragseq : IsFragseq fragid lead frags
  ends : EndsFragseq fragid rest

/-- What the elements of a sequence carry, without the ID extension. -/
def fragseqPayload (sub : Bool) (lead : Element) (frags : List Element) : List UInt8 :=
  ((lead :: frags).flatMap Element.body).drop (if hasIdext sub lead.id then 1 else 0)

theorem length_fragseqPayload {frags : List Element} (hlead : lead.body.length = 255) :
    (fragseqPayload sub lead frags).length =
      (if hasIdext sub lead.id then 255 - 1 else 255) + (frags.flatMap Element.body).length := by
  rw [fragseqPayload, length_drop, flatMap_cons, length_append, hlead]
  split <;> omega

theorem fragseqInfo_of_starts {frags : List Element} (hbuff : buff ≠ 0)
    (h : StartsFragseq (wlanGetElemunitInfo sub fragid).fragid mem buff buffMaxsize lead frags
      rest) :
    wlanGetElemsubelemFragseqInfo sub fragid mem buff buffMaxsize =
      .ok (some (((lead :: frags).flatMap Element.bytes).length,
        (fragseqPayload sub lead frags).length)) := by
  obtain ⟨hnonempty, hchained⟩ := isFragseq_iff.mp h.fragseq
  have hspells := h.spells
  cases frags with
  | nil => exact absurd rfl hnonempty
  | cons e es =>
    obtain ⟨hfull, hid, hfilled, hchained⟩ := hchained
    rw [flatMap_cons, flatMap_cons, append_assoc, append_assoc] at hspells
    have hsucc := successorfrag_chained hspells hfull hid hfilled
    obtain ⟨hleadId, hleadLen, hfrags⟩ := hspells.element
    have hbound := hfrags.bound
    rw [← hleadLen, ← nextElement] at hfrags
    have hnext := add_two_le_nextElement mem buff
    rw [wlanGetElemsubelemFragseqInfo]
    simp only [wlanGetElemunitInfo_hdrlen, wlanGetElemunitInfo_lenPos,
      wlanGetElemunitInfo_idPos, Nat.add_zero, hleadId, hleadLen]
    rw [if_neg hbuff, if_neg (by omega), if_neg (by omega), if_neg (by omega), hsucc]
    simp only
    rw [fragseqLoop_chained es hfrags hchained h.ends (by omega), hfull,
      length_fragseqPayload hfull]
    simp [Except.map, hfull]

theorem fragseqInfo_cases (sub : Bool) (fragid : UInt8) (mem : Mem) (buff buffMaxsize : ℕ) :
    (∃ status, status ≠ .eFailure ∧
      wlanGetElemsubelemFragseqInfo sub fragid mem buff buffMaxsize = .error status) ∨
    wlanGetElemsubelemFragseqInfo sub fragid mem buff buffMaxsize = .ok none ∨
    wlanGetElemsubelemSuccessorfrag (wlanGetElemunitInfo sub fragid) mem buff buff buffMaxsize =
        .ok (some (nextElement mem buff)) ∧
      ∃ totallen payloadlen,
        wlanGetElemsubelemFragseqInfo sub fragid mem buff buffMaxsize =
          (fragseqLoop (wlanGetElemunitInfo sub fragid) mem buff buffMaxsize buffMaxsize
            (some (nextElement mem buff)) totallen payloadlen).map some := by
  rw [wlanGetElemsubelemFragseqInfo]
  simp only
  split
  · exact .inl ⟨_, by decide, rfl⟩
  split
  · exact .inl ⟨_, by decide, rfl⟩
  split
  · exact .inl ⟨_, by decide, rfl⟩
  split
  · exact .inl ⟨_, by decide, rfl⟩
  split
  · next hsucc =>
      rw [successorfrag_error hsucc]
      exact .inl ⟨_, by decide, rfl⟩
  · exact .inr (.inl rfl)
  · next hsucc =>
      obtain ⟨rfl, -⟩ := successorfrag_some_iff.mp hsucc
      exact .inr (.inr ⟨hsucc, _, _, rfl⟩)

theorem starts_of_fragseqInfo
    (h : wlanGetElemsubelemFragseqInfo sub fragid mem buff buffMaxsize = .ok (some r)) :
    ∃ lead frags rest, StartsFragseq (wlanGetElemunitInfo sub fragid).fragid mem buff buffMaxsize
      lead frags rest := by
  rcases fragseqInfo_cases sub fragid mem buff buffMaxsize with
    ⟨status, -, heq⟩ | heq | ⟨hsucc, totallen, payloadlen, heq⟩
  · rw [heq] at h
    cases h
  · rw [heq] at h
    cases h
  · rw [heq] at h
    rcases hloop : fragseqLoop (wlanGetElemunitInfo sub fragid) mem buff buffMaxsize buffMaxsize
      (some (nextElement mem buff)) totallen payloadlen with status | lengths
    · rw [hloop] at h
      cases h
    · obtain ⟨-, -, hid, hfull, hfilled⟩ := successorfrag_some_iff.mp hsucc
      obtain ⟨es, rest, hspells, hchained, hends⟩ := exists_chained_of_fragseqLoop hloop
      refine ⟨elementAt mem buff, elementAt mem (nextElement mem buff) :: es, rest, ?_, ?_,
        hends⟩
      · rw [flatMap_cons, flatMap_cons, append_assoc, append_assoc]
        exact hspells.cons
      · refine isFragseq_iff.mpr ⟨cons_ne_nil _ _, ?_, hid, ?_, hchained⟩
        · rw [elementAt, readBytes_length, hfull]
        · rwa [elementAt, readBytes_length]

theorem fragseqInfo_ne_failure (sub : Bool) (fragid : UInt8) (mem : Mem)
    (buff buffMaxsize : ℕ) :
    wlanGetElemsubelemFragseqInfo sub fragid mem buff buffMaxsize ≠ .error .eFailure := by
  rcases fragseqInfo_cases sub fragid mem buff buffMaxsize with
    ⟨status, hne, heq⟩ | heq | ⟨hsucc, totallen, payloadlen, heq⟩
  · rw [heq]
    simpa using hne
  · simp [heq]
  · obtain ⟨-, hle, -⟩ := successorfrag_some_iff.mp hsucc
    have hnext := add_two_le_nextElement mem buff
    have hnext' := add_two_le_nextElement mem (nextElement mem buff)
    have hloop : fragseqLoop (wlanGetElemunitInfo sub fragid) mem buff buffMaxsize buffMaxsize
        (some (nextElement mem buff)) totallen payloadlen ≠ .error .eFailure :=
      fragseqLoop_ne_failure (by omega) (by omega) totallen payloadlen
    rw [heq]
    generalize fragseqLoop _ _ _ _ _ _ _ _ = result at hloop
    cases result with
    | error status => simpa [Except.map] using hloop
    | ok lengths => simp [Except.map]

/-- A sequence is found if and only if the buffer starts with one, and with its lengths. -/
theorem fragseqInfo_some_iff (sub : Bool) (fragid : UInt8) (mem : Mem) (buffMaxsize : ℕ)
    (hbuff : buff ≠ 0) (totallen payloadlen : ℕ) :
    wlanGetElemsubelemFragseqInfo sub fragid mem buff buffMaxsize =
        .ok (some (totallen, payloadlen)) ↔
      ∃ lead frags rest, StartsFragseq (wlanGetElemunitInfo sub fragid).fragid mem buff
          buffMaxsize lead frags rest ∧
        totallen = ((lead :: frags).flatMap Element.bytes).length ∧
        payloadlen = (fragseqPayload sub lead frags).length := by
  constructor
  · intro h
    obtain ⟨lead, frags, rest, hstarts⟩ := starts_of_fragseqInfo h
    have hinfo := fragseqInfo_of_starts hbuff hstarts
    rw [h, Except.ok.injEq, Option.some.injEq, Prod.mk.injEq] at hinfo
    exact ⟨lead, frags, rest, hstarts, hinfo⟩
  · rintro ⟨lead, frags, rest, hstarts, rfl, rfl⟩
    exact fragseqInfo_of_starts hbuff hstarts

end

/-! ## What recognition reads -/

/-- The addresses that `wlan_get_elemsubelem_successorfrag` reads. -/
def successorfragReads (info : ElemunitInfo) (mem : Mem) (curr buff buffMaxsize : ℕ) : List ℕ :=
  let bound := buff + buffMaxsize
  if bound < curr + info.hdrlen then []
  else
    let next := curr + info.hdrlen + (mem (curr + info.lenPos)).toNat
    if bound ≤ next then [curr + info.lenPos]
    else if bound < next + info.hdrlen then [curr + info.lenPos]
    else if bound < next + info.hdrlen + (mem (next + info.lenPos)).toNat then
      [curr + info.lenPos, next + info.lenPos]
    else [curr + info.lenPos, next + info.lenPos, next + info.idPos]

/-- The addresses that the loop of `wlan_get_elemsubelem_fragseq_info` reads. -/
def fragseqLoopReads (info : ElemunitInfo) (mem : Mem) (buff buffMaxsize : ℕ) :
    ℕ → Option ℕ → List ℕ
  | _, none => []
  | 0, some _ => []
  | fuel + 1, some curr =>
    successorfragReads info mem curr buff buffMaxsize ++
      match wlanGetElemsubelemSuccessorfrag info mem curr buff buffMaxsize with
      | .error _ => []
      | .ok next => fragseqLoopReads info mem buff buffMaxsize fuel next

/-- The addresses that `wlan_get_elemsubelem_fragseq_info` reads. -/
def fragseqInfoReads (sub : Bool) (fragid : UInt8) (mem : Mem) (buff buffMaxsize : ℕ) : List ℕ :=
  let info := wlanGetElemunitInfo sub fragid
  if buff = 0 then []
  else if buffMaxsize < info.hdrlen then []
  else if buffMaxsize < info.hdrlen + (mem (buff + info.lenPos)).toNat then [buff + info.lenPos]
  else
    [buff + info.lenPos] ++ successorfragReads info mem buff buff buffMaxsize ++
      match wlanGetElemsubelemSuccessorfrag info mem buff buff buffMaxsize with
      | .ok (some next) =>
        [buff + info.idPos] ++ fragseqLoopReads info mem buff buffMaxsize buffMaxsize (some next)
      | _ => []

section
variable {mem mem' : Mem} {buff buffMaxsize curr : ℕ} {sub : Bool} {fragid : UInt8}

theorem mem_successorfragReads {a : ℕ} (hcurr : buff ≤ curr) (h : a ∈
      successorfragReads (wlanGetElemunitInfo sub fragid) mem curr buff buffMaxsize) :
    buff ≤ a ∧ a < buff + buffMaxsize := by
  simp only [successorfragReads, wlanGetElemunitInfo_hdrlen, wlanGetElemunitInfo_lenPos,
    wlanGetElemunitInfo_idPos, Nat.add_zero] at h
  grind

variable {fuel : ℕ}

theorem mem_fragseqLoopReads {a : ℕ} {next : Option ℕ} (hnext : ∀ k ∈ next, buff ≤ k)
    (h : a ∈ fragseqLoopReads (wlanGetElemunitInfo sub fragid) mem buff buffMaxsize fuel next) :
    buff ≤ a ∧ a < buff + buffMaxsize := by
  induction fuel generalizing next with
  | zero =>
    cases next with
    | none => simp [fragseqLoopReads] at h
    | some curr => simp [fragseqLoopReads] at h
  | succ fuel ih =>
    cases next with
    | none => simp [fragseqLoopReads] at h
    | some curr =>
      rw [fragseqLoopReads, mem_append] at h
      rcases h with h | h
      · exact mem_successorfragReads (hnext curr rfl) h
      · split at h
        · cases h
        · next next hsucc =>
            refine ih (fun k hk => ?_) h
            obtain rfl := Option.mem_def.mp hk
            obtain ⟨rfl, -⟩ := successorfrag_some_iff.mp hsucc
            have hle := add_two_le_nextElement mem curr
            have hcurr := hnext curr rfl
            omega

theorem mem_fragseqInfoReads {a : ℕ}
    (h : a ∈ fragseqInfoReads sub fragid mem buff buffMaxsize) :
    buff ≤ a ∧ a < buff + buffMaxsize := by
  simp only [fragseqInfoReads, wlanGetElemunitInfo_hdrlen, wlanGetElemunitInfo_lenPos,
    wlanGetElemunitInfo_idPos, Nat.add_zero] at h
  split at h
  · cases h
  split at h
  · cases h
  split at h
  · have ha := mem_singleton.mp h
    omega
  · rw [mem_append, mem_append] at h
    rcases h with (h | h) | h
    · have ha := mem_singleton.mp h
      omega
    · exact mem_successorfragReads (Nat.le_refl buff) h
    · split at h
      · next next hsucc =>
          rw [mem_append] at h
          rcases h with h | h
          · have ha := mem_singleton.mp h
            omega
          · obtain ⟨rfl, -⟩ := successorfrag_some_iff.mp hsucc
            have hle := add_two_le_nextElement mem buff
            refine mem_fragseqLoopReads (fun k hk => ?_) h
            rw [Option.mem_some] at hk
            omega
      · cases h

theorem successorfrag_congr (h : ∀ a ∈ successorfragReads (wlanGetElemunitInfo sub fragid) mem curr
      buff buffMaxsize, mem' a = mem a) :
    wlanGetElemsubelemSuccessorfrag (wlanGetElemunitInfo sub fragid) mem' curr buff buffMaxsize =
      wlanGetElemsubelemSuccessorfrag (wlanGetElemunitInfo sub fragid) mem curr buff
        buffMaxsize := by
  simp only [successorfragReads, wlanGetElemsubelemSuccessorfrag, wlanGetElemunitInfo_hdrlen,
    wlanGetElemunitInfo_lenPos, wlanGetElemunitInfo_idPos, Nat.add_zero] at h ⊢
  grind

theorem curr_mem_successorfragReads {next : Option ℕ}
    (h : wlanGetElemsubelemSuccessorfrag (wlanGetElemunitInfo sub fragid) mem curr buff
      buffMaxsize = .ok next) :
    curr + 1 ∈
      successorfragReads (wlanGetElemunitInfo sub fragid) mem curr buff buffMaxsize := by
  have hle := add_two_le_nextElement mem curr
  rw [successorfrag_eq] at h
  simp only [successorfragReads, wlanGetElemunitInfo_hdrlen, wlanGetElemunitInfo_lenPos,
    wlanGetElemunitInfo_idPos, Nat.add_zero]
  grind

theorem fragseqLoop_congr {next : Option ℕ} (h : ∀ a ∈ fragseqLoopReads
      (wlanGetElemunitInfo sub fragid) mem buff buffMaxsize fuel next, mem' a = mem a)
    (totallen payloadlen : ℕ) :
    fragseqLoop (wlanGetElemunitInfo sub fragid) mem' buff buffMaxsize fuel next totallen
        payloadlen =
      fragseqLoop (wlanGetElemunitInfo sub fragid) mem buff buffMaxsize fuel next totallen
        payloadlen := by
  induction fuel generalizing next totallen payloadlen with
  | zero => cases next <;> rfl
  | succ fuel ih =>
    cases next with
    | none => rfl
    | some curr =>
      rw [fragseqLoopReads] at h
      have hsame := successorfrag_congr fun a ha => h a (mem_append_left _ ha)
      rw [fragseqLoop, fragseqLoop, hsame]
      rcases hsucc : wlanGetElemsubelemSuccessorfrag (wlanGetElemunitInfo sub fragid) mem curr
        buff buffMaxsize with status | next
      · rfl
      · have hlen := h _ (mem_append_left _ (curr_mem_successorfragReads hsucc))
        rw [hsucc] at h
        simp only [wlanGetElemunitInfo_lenPos, hlen]
        exact ih (fun a ha => h a (mem_append_right _ ha)) _ _

theorem fragseqInfo_congr
    (h : ∀ a ∈ fragseqInfoReads sub fragid mem buff buffMaxsize, mem' a = mem a) :
    wlanGetElemsubelemFragseqInfo sub fragid mem' buff buffMaxsize =
      wlanGetElemsubelemFragseqInfo sub fragid mem buff buffMaxsize := by
  simp only [fragseqInfoReads, wlanGetElemunitInfo_hdrlen, wlanGetElemunitInfo_lenPos,
    wlanGetElemunitInfo_idPos, Nat.add_zero] at h
  simp only [wlanGetElemsubelemFragseqInfo, wlanGetElemunitInfo_hdrlen,
    wlanGetElemunitInfo_lenPos, wlanGetElemunitInfo_idPos, Nat.add_zero]
  by_cases hbuff : buff = 0
  · rw [if_pos hbuff, if_pos hbuff]
  by_cases hmax : buffMaxsize = 0
  · rw [if_neg hbuff, if_neg hbuff, if_pos hmax, if_pos hmax]
  by_cases hhdr : buffMaxsize < 2
  · simp only [hhdr, if_true]
  simp only [hbuff, hmax, hhdr, if_false] at h ⊢
  by_cases hfits : buffMaxsize < 2 + (mem (buff + 1)).toNat
  · rw [if_pos hfits] at h
    rw [h (buff + 1) (mem_singleton_self _)]
    simp only [hfits, if_true]
  rw [if_neg hfits] at h
  have hlen := h (buff + 1) (by simp)
  have hsame := successorfrag_congr fun a ha =>
    h a (mem_append_left _ (mem_append_right _ ha))
  rw [hlen, hsame, if_neg hfits, if_neg hfits]
  rcases hsucc : wlanGetElemsubelemSuccessorfrag (wlanGetElemunitInfo sub fragid) mem buff buff
    buffMaxsize with status | next
  · rfl
  · cases next with
    | none => rfl
    | some next =>
      rw [hsucc] at h
      have hid := h buff (by simp)
      have hloop := fragseqLoop_congr fun a ha =>
        h a (mem_append_right _ (mem_append_right _ ha))
      simp only [hid, hloop]

end

end QcomModules.Wlan
