import QcomModules.Library.Fifo

/-! The Adreno ringbuffer: space allocation against the read pointer of the GPU. -/

namespace QcomModules.Kgsl

open Library List

/-! ## Packet headers -/

/-- `KGSL_RB_DWORDS`: 32 KiB in dwords. -/
def kgslRbDwords : ℕ := 8192

def cpType7Pkt : UInt32 := 0x70000000

def cpNop : UInt32 := 0x10

def pm4CalcOddParityBit (val : UInt32) : UInt32 :=
  ((0x9669 : UInt32) >>> ((0xf : UInt32) &&& (val ^^^ (val >>> 4) ^^^ (val >>> 8) ^^^
    (val >>> 12) ^^^ (val >>> 16) ^^^ (val >>> 20) ^^^ (val >>> 24) ^^^ (val >>> 28)))) &&& 1

def cpType7Packet (opcode cnt : UInt32) : UInt32 :=
  cpType7Pkt ||| cnt ||| (pm4CalcOddParityBit cnt <<< 15) ||| ((opcode &&& 0x7F) <<< 16) |||
    (pm4CalcOddParityBit opcode <<< 23)

def cpPacket (opcode size : UInt32) : UInt32 := cpType7Packet opcode size

def type7PktSize (pkt : UInt32) : UInt32 := pkt &&& 0x3FFF

theorem parity_eq (val : UInt32) : pm4CalcOddParityBit val = 0 ∨ pm4CalcOddParityBit val = 1 := by
  rw [pm4CalcOddParityBit]
  generalize ((0x9669 : UInt32) >>> _) = bits
  have hbit : (bits &&& 1).toNat < 2 := by
    rw [UInt32.toNat_and]
    exact Nat.lt_of_le_of_lt Nat.and_le_right (by decide)
  rcases Nat.lt_succ_iff_lt_or_eq.mp hbit with h | h
  · exact Or.inl (UInt32.toNat.inj (by simpa using h))
  · exact Or.inr (UInt32.toNat.inj (by simpa using h))

private theorem size_or (a b : UInt32) :
    (type7PktSize (a ||| b)).toNat = (type7PktSize a).toNat ||| (type7PktSize b).toNat := by
  have hmask : (0x3FFF : UInt32).toNat = 2 ^ 14 - 1 := rfl
  simp only [type7PktSize, UInt32.toNat_and, UInt32.toNat_or, hmask,
    Nat.and_two_pow_sub_one_eq_mod, Nat.or_mod_two_pow]

theorem type7PktSize_cpPacket (cnt : ℕ) (hcnt : cnt < 2 ^ 14) :
    (type7PktSize (cpPacket cpNop (UInt32.ofNat cnt))).toNat = cnt := by
  have hparity : (type7PktSize (pm4CalcOddParityBit (UInt32.ofNat cnt) <<< 15)).toNat = 0 := by
    rcases parity_eq (UInt32.ofNat cnt) with h | h <;> rw [h] <;> decide
  have hsize : (type7PktSize (UInt32.ofNat cnt)).toNat = cnt := by
    have hmask : (0x3FFF : UInt32).toNat = 2 ^ 14 - 1 := rfl
    rw [type7PktSize, UInt32.toNat_and, hmask, Nat.and_two_pow_sub_one_eq_mod,
      UInt32.toNat_ofNat_of_lt' (hcnt.trans (by decide)), Nat.mod_eq_of_lt hcnt]
  have htype : (type7PktSize cpType7Pkt).toNat = 0 := by decide
  have hop : (type7PktSize ((cpNop &&& 0x7F) <<< 16)).toNat = 0 := by decide
  have hopParity : (type7PktSize (pm4CalcOddParityBit cpNop <<< 23)).toNat = 0 := by decide
  rw [cpPacket, cpType7Packet, size_or, size_or, size_or, size_or, hparity, hsize, htype, hop,
    hopParity]
  simp

/-! ## Space allocation -/

structure AdrenoRingbuffer where
  wptr : ℕ
  hostptr : ℕ → UInt32

/-- `adreno_ringbuffer_allocspace`: the offset of the space found, if any. Offsets and
lengths stay far below the 32-bit limit, so their sums do not wrap. -/
def allocspace (rb : AdrenoRingbuffer) (rptr dwords : ℕ) : AdrenoRingbuffer × Option ℕ :=
  if rptr ≤ rb.wptr ∧ rb.wptr + dwords ≤ kgslRbDwords - 2 then
    ({ rb with wptr := (rb.wptr + dwords) % kgslRbDwords }, some rb.wptr)
  else if rptr ≤ rb.wptr ∧ dwords < rptr then
    ({ wptr := dwords
       hostptr := Function.update rb.hostptr rb.wptr
        (cpPacket cpNop (UInt32.ofNat (kgslRbDwords - rb.wptr - 1))) }, some 0)
  else if rb.wptr + dwords < rptr then
    ({ rb with wptr := (rb.wptr + dwords) % kgslRbDwords }, some rb.wptr)
  else
    (rb, none)

/-- What is written and not yet read: a command dword with its offset, or a padding
packet with its offset and its length in dwords. -/
inductive RbItem where
  | word (pos : ℕ) (x : UInt32)
  | nop (pos dwords : ℕ)

def RbItem.positions : RbItem → List ℕ
  | .word pos _ => [pos]
  | .nop pos dwords => List.range' pos dwords

/-- The ringbuffer, the read pointer of the GPU and the journal of what it has still to
read. -/
structure RbSystem where
  rb : AdrenoRingbuffer
  rptr : ℕ
  unread : List RbItem

def wordItems (pos : ℕ) : List UInt32 → List RbItem
  | [] => []
  | x :: xs => .word pos x :: wordItems (pos + 1) xs

/-- The padding an allocation leaves behind: the tail it went around. -/
def padding (rb : AdrenoRingbuffer) (ret : ℕ) : List RbItem :=
  if ret = rb.wptr then [] else [.nop rb.wptr (kgslRbDwords - rb.wptr)]

inductive RbOp where
  | alloc (cmds : List UInt32)
  | gpuRead

/-- One allocation whose caller fills the space it got, or the GPU reading one dword or
skipping one padding packet by the count in its header. -/
def rbStep (s : RbSystem) : RbOp → RbSystem
  | .alloc cmds =>
    match allocspace s.rb s.rptr cmds.length with
    | (_, none) => s
    | (rb, some ret) =>
      { s with
        rb := { rb with hostptr := fillSlots rb.hostptr ret cmds }
        unread := s.unread ++ padding s.rb ret ++ wordItems ret cmds }
  | .gpuRead =>
    match s.unread with
    | [] => s
    | .word _ _ :: rest => { s with rptr := (s.rptr + 1) % kgslRbDwords, unread := rest }
    | .nop _ _ :: rest =>
      { s with
        rptr := (s.rptr + 1 + (type7PktSize (s.rb.hostptr s.rptr)).toNat) % kgslRbDwords
        unread := rest }

def rbStart (hostptr : ℕ → UInt32) : RbSystem :=
  { rb := { wptr := 0, hostptr := hostptr }, rptr := 0, unread := [] }

/-! ## The unread offsets form a ring -/

/-- An unread word is in the buffer where it was written, and an unread padding packet
reaches to the end of the buffer. -/
def RbItem.InMemory (hostptr : ℕ → UInt32) : RbItem → Prop
  | .word pos x => hostptr pos = x
  | .nop pos dwords =>
    pos + dwords = kgslRbDwords ∧ (type7PktSize (hostptr pos)).toNat + 1 = dwords

def unreadPositions (items : List RbItem) : List ℕ := items.flatMap RbItem.positions

structure RbInv (s : RbSystem) : Prop where
  ring : RingHolds kgslRbDwords (fun i => i) s.rptr s.rb.wptr (unreadPositions s.unread)
  reserve : s.rb.wptr + 2 ≤ kgslRbDwords
  memory : ∀ item ∈ s.unread, item.InMemory s.rb.hostptr

theorem unreadPositions_append (xs ys : List RbItem) :
    unreadPositions (xs ++ ys) = unreadPositions xs ++ unreadPositions ys :=
  flatMap_append

theorem positions_wordItems (pos : ℕ) (cmds : List UInt32) :
    unreadPositions (wordItems pos cmds) = List.range' pos cmds.length := by
  induction cmds generalizing pos with
  | nil => rfl
  | cons x xs ih =>
    have htail := ih (pos + 1)
    rw [unreadPositions] at htail ⊢
    rw [wordItems, flatMap_cons, htail]
    rfl

theorem inMemory_wordItems {hostptr : ℕ → UInt32} {pos : ℕ} {cmds : List UInt32}
    (hmem : ∀ k (hk : k < cmds.length), hostptr (pos + k) = cmds[k]) :
    ∀ item ∈ wordItems pos cmds, item.InMemory hostptr := by
  induction cmds generalizing pos with
  | nil => simp [wordItems]
  | cons x xs ih =>
    intro item hitem
    rw [wordItems, mem_cons] at hitem
    rcases hitem with h | h
    · subst h
      exact hmem 0 (by simp)
    · refine ih ?_ item h
      intro k hk
      have hword := hmem (k + 1) (by simpa using hk)
      rwa [← Nat.add_assoc, Nat.add_right_comm] at hword

theorem pushRange {r w d : ℕ} {ps : List ℕ}
    (h : RingHolds kgslRbDwords (fun i => i) r w ps) (hend : w + d ≤ kgslRbDwords)
    (hroom : ps.length + d < kgslRbDwords) :
    RingHolds kgslRbDwords (fun i => i) r ((w + d) % kgslRbDwords) (ps ++ List.range' w d) := by
  have hpush : RingHolds kgslRbDwords (fun i => i) r
      ((w + (range' w d).length) % kgslRbDwords) (ps ++ range' w d) := by
    refine h.pushAll ?_ ?_ (fun _ _ _ => rfl)
    · rwa [length_range']
    · intro k hk
      rw [length_range'] at hk
      rw [Nat.mod_eq_of_lt (by omega), getElem_range', Nat.one_mul]
  rwa [length_range'] at hpush

theorem allocspace_cases {rb : AdrenoRingbuffer} {rptr d : ℕ} {r : AdrenoRingbuffer × Option ℕ}
    (halloc : allocspace rb rptr d = r) :
    (r = ({ rb with wptr := (rb.wptr + d) % kgslRbDwords }, some rb.wptr) ∧
      (rptr ≤ rb.wptr ∧ rb.wptr + d ≤ kgslRbDwords - 2 ∨ rb.wptr + d < rptr)) ∨
    (r = ({ wptr := d
            hostptr := Function.update rb.hostptr rb.wptr
              (cpPacket cpNop (UInt32.ofNat (kgslRbDwords - rb.wptr - 1))) }, some 0) ∧
      rptr ≤ rb.wptr ∧ d < rptr) ∨
    r = (rb, none) := by
  rw [allocspace] at halloc
  split at halloc
  case isTrue h => exact Or.inl ⟨halloc.symm, Or.inl h⟩
  case isFalse =>
    split at halloc
    case isTrue h => exact Or.inr (Or.inl ⟨halloc.symm, h⟩)
    case isFalse =>
      split at halloc
      case isTrue h => exact Or.inl ⟨halloc.symm, Or.inr h⟩
      case isFalse => exact Or.inr (Or.inr halloc.symm)

namespace RbItem

theorem InMemory.congr {item : RbItem} {m m' : ℕ → UInt32} (h : item.InMemory m)
    (hsame : ∀ p ∈ item.positions, m' p = m p) : item.InMemory m' := by
  cases item with
  | word pos x =>
    have hpos : m' pos = m pos := hsame pos (by simp [positions])
    rw [InMemory, hpos]
    exact h
  | nop pos dwords =>
    have hpos : m' pos = m pos := hsame pos (by
      rw [positions, mem_range'_1]
      exact ⟨le_rfl, by have := h.2; omega⟩)
    rw [InMemory, hpos]
    exact h

end RbItem

variable {m : ℕ → UInt32} {item : RbItem}

theorem inMemory_padding {rb : AdrenoRingbuffer} (hw : rb.wptr + 2 ≤ kgslRbDwords)
    (hm : m rb.wptr = cpPacket cpNop (UInt32.ofNat (kgslRbDwords - rb.wptr - 1))) :
    (RbItem.nop rb.wptr (kgslRbDwords - rb.wptr)).InMemory m := by
  have hcount : kgslRbDwords - rb.wptr - 1 < 2 ^ 14 :=
    Nat.lt_of_le_of_lt (by omega) (show kgslRbDwords < 2 ^ 14 by decide)
  rw [RbItem.InMemory, hm, type7PktSize_cpPacket _ hcount]
  omega

section Allocation

variable {s : RbSystem} {rb : AdrenoRingbuffer} {ret d : ℕ}

/-- An allocation appends its padding and its space to the unread offsets. -/
theorem RbInv.alloc_ring (h : RbInv s) (halloc : allocspace s.rb s.rptr d = (rb, some ret)) :
    RingHolds kgslRbDwords (fun i => i) s.rptr rb.wptr
        (unreadPositions s.unread ++ unreadPositions (padding s.rb ret) ++ List.range' ret d) ∧
      ret + d ≤ kgslRbDwords ∧ rb.wptr + 2 ≤ kgslRbDwords := by
  have hlen := h.ring.length_eq
  have hr := h.ring.read_lt
  have hw := h.reserve
  rcases allocspace_cases halloc with ⟨heq, hfit⟩ | ⟨heq, hle, hd⟩ | heq
  · obtain ⟨hrb, hret⟩ := Prod.mk.inj heq
    have hret := Option.some.inj hret
    subst hrb hret
    have hend : s.rb.wptr + d ≤ kgslRbDwords - 2 := by omega
    have hroom : (unreadPositions s.unread).length + d < kgslRbDwords := by
      rw [hlen]
      split <;> omega
    have hpadding : unreadPositions (padding s.rb s.rb.wptr) = [] := by
      rw [padding, if_pos rfl]
      rfl
    refine ⟨?_, by omega, ?_⟩
    · rw [hpadding, append_nil]
      exact pushRange h.ring (by omega) hroom
    · simp only [Nat.mod_eq_of_lt (show s.rb.wptr + d < kgslRbDwords by omega)]
      omega
  · obtain ⟨hrb, hret⟩ := Prod.mk.inj heq
    have hret := Option.some.inj hret
    subst hrb hret
    have hpadding : unreadPositions (padding s.rb 0) =
        range' s.rb.wptr (kgslRbDwords - s.rb.wptr) := by
      rw [padding, if_neg (by omega)]
      simp [unreadPositions, RbItem.positions]
    rw [if_pos hle] at hlen
    have htail := pushRange h.ring
      (show s.rb.wptr + (kgslRbDwords - s.rb.wptr) ≤ kgslRbDwords by omega) (by omega)
    rw [Nat.add_sub_of_le (by omega), Nat.mod_self] at htail
    have hspace := pushRange (d := d) htail (by omega) (by
      rw [length_append, length_range']
      omega)
    rw [Nat.zero_add, Nat.mod_eq_of_lt (by omega)] at hspace
    rw [hpadding]
    exact ⟨hspace, by omega, by show d + 2 ≤ kgslRbDwords; omega⟩
  · cases (Prod.mk.inj heq).2

theorem RbInv.alloc_fresh (h : RbInv s) (halloc : allocspace s.rb s.rptr d = (rb, some ret)) :
    ∀ p ∈ unreadPositions s.unread, (p < ret ∨ ret + d ≤ p) ∧
      p ∉ unreadPositions (padding s.rb ret) := by
  obtain ⟨hring, -⟩ := h.alloc_ring halloc
  have hnodup := hring.nodup (fun _ _ _ _ heq => heq)
  rw [append_assoc, nodup_append] at hnodup
  intro p hp
  constructor
  · by_contra hin
    exact hnodup.2.2 p hp p (mem_append_right _ (mem_range'_1.mpr (by omega))) rfl
  · intro hpad
    exact hnodup.2.2 p hp p (mem_append_left _ hpad) rfl

theorem alloc_hostptr (halloc : allocspace s.rb s.rptr d = (rb, some ret)) :
    (∀ p, p ≠ s.rb.wptr ∨ ret = s.rb.wptr → rb.hostptr p = s.rb.hostptr p) ∧
      (ret ≠ s.rb.wptr → ret = 0 ∧
        rb.hostptr s.rb.wptr = cpPacket cpNop (UInt32.ofNat (kgslRbDwords - s.rb.wptr - 1))) := by
  rcases allocspace_cases halloc with ⟨heq, -⟩ | ⟨heq, hle, hd⟩ | heq
  · obtain ⟨hrb, hret⟩ := Prod.mk.inj heq
    have hret := Option.some.inj hret
    subst hrb hret
    exact ⟨fun _ _ => rfl, fun hne => absurd rfl hne⟩
  · obtain ⟨hrb, hret⟩ := Prod.mk.inj heq
    have hret := Option.some.inj hret
    subst hrb hret
    refine ⟨?_, fun _ => ⟨rfl, Function.update_self ..⟩⟩
    intro p hp
    rcases hp with hne | hzero
    · exact Function.update_of_ne hne _ _
    · omega
  · cases (Prod.mk.inj heq).2

theorem mem_padding {item : RbItem} (h : item ∈ padding s.rb ret) :
    ret ≠ s.rb.wptr ∧ item = .nop s.rb.wptr (kgslRbDwords - s.rb.wptr) := by
  rw [padding] at h
  split at h
  case isTrue => cases h
  case isFalse hne => exact ⟨hne, mem_singleton.mp h⟩

theorem wptr_mem_padding (hw : s.rb.wptr < kgslRbDwords) (hne : ret ≠ s.rb.wptr) :
    s.rb.wptr ∈ unreadPositions (padding s.rb ret) := by
  rw [padding, if_neg hne]
  simp only [unreadPositions, RbItem.positions, flatMap_cons, flatMap_nil,
    append_nil, mem_range'_1]
  omega

theorem RbInv.alloc_memory {cmds : List UInt32} (h : RbInv s)
    (halloc : allocspace s.rb s.rptr cmds.length = (rb, some ret)) :
    ∀ item ∈ s.unread ++ padding s.rb ret ++ wordItems ret cmds,
      item.InMemory (fillSlots rb.hostptr ret cmds) := by
  have hw : s.rb.wptr < kgslRbDwords := by
    have := h.reserve
    omega
  obtain ⟨hkept, hheader⟩ := alloc_hostptr halloc
  obtain ⟨hring, -⟩ := h.alloc_ring halloc
  intro item hitem
  rw [mem_append, mem_append] at hitem
  rcases hitem with (hold | hpad) | hnew
  · refine (h.memory item hold).congr ?_
    intro p hp
    have hpos : p ∈ unreadPositions s.unread := mem_flatMap.mpr ⟨item, hold, hp⟩
    obtain ⟨hspace, htail⟩ := h.alloc_fresh halloc p hpos
    rw [fillSlots_of_out hspace]
    refine hkept p ?_
    by_contra hnot
    obtain ⟨hpw, hne⟩ := not_or.mp hnot
    rw [not_not.mp hpw] at htail
    exact htail (wptr_mem_padding hw hne)
  · obtain ⟨hne, hitem⟩ := mem_padding hpad
    subst hitem
    refine inMemory_padding h.reserve ?_
    have hnodup := hring.nodup (fun _ _ _ _ heq => heq)
    rw [nodup_append] at hnodup
    have hout : s.rb.wptr < ret ∨ ret + cmds.length ≤ s.rb.wptr := by
      by_contra hin
      have hspace : s.rb.wptr ∈ range' ret cmds.length :=
        mem_range'_1.mpr (by omega)
      exact hnodup.2.2 _ (mem_append_right _ (wptr_mem_padding hw hne)) _ hspace rfl
    rw [fillSlots_of_out hout]
    exact (hheader hne).2
  · refine inMemory_wordItems ?_ item hnew
    intro k hk
    exact fillSlots_add hk

end Allocation

/-! ## Runs -/

theorem RbInv.start (hostptr : ℕ → UInt32) : RbInv (rbStart hostptr) where
  ring := RingHolds.nil _ (show 0 < kgslRbDwords by decide)
  reserve := by show 0 + 2 ≤ kgslRbDwords; decide
  memory := by
    intro item hitem
    cases hitem

theorem RbInv.alloc {s : RbSystem} (h : RbInv s) (cmds : List UInt32) :
    RbInv (rbStep s (.alloc cmds)) := by
  rw [rbStep]
  split
  · exact h
  · rename_i rb ret halloc
    obtain ⟨hring, hend, hreserve⟩ := h.alloc_ring halloc
    exact
      { ring := by
          simp only [unreadPositions_append, positions_wordItems]
          exact hring
        reserve := hreserve
        memory := h.alloc_memory halloc }

theorem RbItem.InMemory.positions_pos (h : item.InMemory m) : 0 < item.positions.length := by
  cases item with
  | word pos x => exact Nat.one_pos
  | nop pos dwords =>
    rw [positions, length_range']
    have hcount := h.2
    omega

theorem RbInv.position_lt {s : RbSystem} {p : ℕ} (h : RbInv s)
    (hp : p ∈ unreadPositions s.unread) : p < kgslRbDwords := by
  obtain ⟨k, hk, hkp⟩ := mem_iff_getElem.mp hp
  rw [← hkp, ← h.ring.contents k hk]
  exact Nat.mod_lt _ (by decide)

theorem RbInv.head_pos {s : RbSystem} {rest : List RbItem} (h : RbInv s)
    (hitems : s.unread = item :: rest) : item.positions.head? = some s.rptr := by
  have hpos := (h.memory item (by simp [hitems])).positions_pos
  have hring := h.ring
  rw [hitems, unreadPositions, flatMap_cons] at hring
  have hfirst := hring.popAll.1 0 hpos
  simp only [Nat.add_zero, Nat.mod_eq_of_lt h.ring.read_lt] at hfirst
  rw [head?_eq_getElem?, getElem?_eq_getElem hpos, ← hfirst]

theorem RbInv.read_rptr {s : RbSystem} {rest : List RbItem} (h : RbInv s)
    (hitems : s.unread = item :: rest) :
    rbStep s .gpuRead =
      { s with rptr := (s.rptr + item.positions.length) % kgslRbDwords, unread := rest } := by
  have hhead := h.head_pos hitems
  have hmem := h.memory item (by simp [hitems])
  rw [rbStep, hitems]
  cases item with
  | word pos x => rfl
  | nop pos dwords =>
    have hpos := hmem.positions_pos
    rw [RbItem.positions, length_range'] at hpos
    rw [RbItem.positions, head?_range', if_neg (by omega)] at hhead
    have hcount := hmem.2
    rw [Option.some.inj hhead] at hcount
    simp only [RbItem.positions, length_range']
    rw [Nat.add_assoc, Nat.add_comm 1, hcount]

theorem RbInv.gpuRead {s : RbSystem} (h : RbInv s) : RbInv (rbStep s .gpuRead) := by
  cases hitems : s.unread with
  | nil =>
    rw [rbStep, hitems]
    exact h
  | cons item rest =>
    rw [h.read_rptr hitems]
    have hring := h.ring
    rw [hitems, unreadPositions, flatMap_cons] at hring
    exact
      { ring := hring.popAll.2
        reserve := h.reserve
        memory := fun other hother => h.memory other (by simp [hitems, hother]) }

theorem RbInv.run {s : RbSystem} (h : RbInv s) (ops : List RbOp) : RbInv (ops.foldl rbStep s) := by
  induction ops generalizing s with
  | nil => exact h
  | cons op ops ih =>
    cases op with
    | alloc cmds => exact ih (h.alloc cmds)
    | gpuRead => exact ih h.gpuRead

theorem RbInv.empty_iff {s : RbSystem} (h : RbInv s) : s.rptr = s.rb.wptr ↔ s.unread = [] := by
  rw [← h.ring.eq_nil_iff]
  constructor
  · intro hnil
    cases hitems : s.unread with
    | nil => rfl
    | cons item rest =>
      have hpos := (h.memory item (by simp [hitems])).positions_pos
      rw [hitems, unreadPositions, flatMap_cons, append_eq_nil_iff] at hnil
      rw [hnil.1] at hpos
      cases hpos
  · intro hnil
    rw [hnil]
    rfl

/-- In every state reached, a successful allocation is a contiguous part of the buffer
away from everything unread, and its padding covers the tail it goes around; what is unread
is still in the buffer, the read pointer is at the next item, a padding packet leads to
the start of the buffer, and equal pointers mean that everything has been read. -/
theorem ringbuffer_keeps_unread (hostptr : ℕ → UInt32) (ops : List RbOp) :
    let s := ops.foldl rbStep (rbStart hostptr)
    (∀ dwords rb ret, allocspace s.rb s.rptr dwords = (rb, some ret) →
      ret + dwords ≤ kgslRbDwords ∧
      (∀ p ∈ unreadPositions s.unread, p < ret ∨ ret + dwords ≤ p) ∧
      (ret ≠ s.rb.wptr → ret = 0 ∧
        s.rb.wptr + 1 + (type7PktSize (rb.hostptr s.rb.wptr)).toNat = kgslRbDwords ∧
        ∀ p ∈ unreadPositions s.unread, p < s.rb.wptr)) ∧
    (∀ item ∈ s.unread, item.InMemory s.rb.hostptr) ∧
    (∀ item rest, s.unread = item :: rest → item.positions.head? = some s.rptr) ∧
    (∀ pos dwords rest, s.unread = .nop pos dwords :: rest → (rbStep s .gpuRead).rptr = 0) ∧
    (s.rptr = s.rb.wptr ↔ s.unread = []) := by
  intro s
  have hinv : RbInv s := (RbInv.start hostptr).run ops
  refine ⟨?_, hinv.memory, fun item rest => hinv.head_pos, ?_, hinv.empty_iff⟩
  · intro dwords rb ret halloc
    have hfresh := hinv.alloc_fresh halloc
    have hw := hinv.reserve
    refine ⟨(hinv.alloc_ring halloc).2.1, fun p hp => (hfresh p hp).1, ?_⟩
    intro hne
    obtain ⟨hret, hheader⟩ := (alloc_hostptr halloc).2 hne
    refine ⟨hret, ?_, ?_⟩
    · have hnop := (inMemory_padding hw hheader).2
      omega
    · intro p hp
      have hlt : p < kgslRbDwords := hinv.position_lt hp
      have hout := (hfresh p hp).2
      rw [padding, if_neg hne] at hout
      simp only [unreadPositions, RbItem.positions, flatMap_cons, flatMap_nil,
        append_nil, mem_range'_1] at hout
      omega
  · intro pos dwords rest hitems
    have hhead := hinv.head_pos hitems
    have hmem := hinv.memory _ (by rw [hitems]; exact mem_cons_self)
    have hpos := hmem.positions_pos
    rw [RbItem.positions, length_range'] at hpos
    rw [RbItem.positions, head?_range', if_neg (by omega)] at hhead
    rw [hinv.read_rptr hitems]
    simp only [RbItem.positions, length_range']
    rw [← Option.some.inj hhead, hmem.1, Nat.mod_self]

end QcomModules.Kgsl
