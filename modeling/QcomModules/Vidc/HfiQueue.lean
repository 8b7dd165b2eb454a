import QcomModules.Library.Fifo

/-! The interface queues between the video driver and the Venus firmware: packets of words
in a ring, written and read with their sizes in front. -/

namespace QcomModules.Vidc

open Library List

/-! ## The queue -/

def eNoData : ℤ := -61

def eNotEmpty : ℤ := -39

/-- `VIDC_IFACEQ_VAR_HUGE_PKT_SIZE`, in bytes. -/
def vidcIfaceqVarHugePktSize : ℕ := 1024 * 4

def hfiQIdCtrlToHostMsgQ : UInt32 := 1

structure HfiQueueHeader where
  qhdrType : UInt32
  qhdrRxReq : ℕ
  qhdrTxReq : ℕ
  qhdrReadIdx : ℕ
  qhdrWriteIdx : ℕ

/-- `struct msm_vidc_iface_q_info`: the queue memory of `memSize` bytes, in words, and its
header. Indexes are below `2 ^ 30`, so that their sums do not wrap. -/
structure MsmVidcIfaceQInfo where
  memSize : ℕ
  qArray : ℕ → UInt32
  qHdr : HfiQueueHeader

def MsmVidcIfaceQInfo.words (q : MsmVidcIfaceQInfo) : ℕ := q.memSize >>> 2

/-- The copies of `__write_queue`, around the end of the queue where needed. -/
def copyPacketIn (q : MsmVidcIfaceQInfo) (packet : List UInt32) (size : ℕ) :
    MsmVidcIfaceQInfo :=
  let newWriteIdx := q.qHdr.qhdrWriteIdx + size
  if newWriteIdx < q.words then
    { q with
      qArray := fillSlots q.qArray q.qHdr.qhdrWriteIdx (packet.take size)
      qHdr := { q.qHdr with qhdrWriteIdx := newWriteIdx } }
  else
    let rest := newWriteIdx - q.words
    { q with
      qArray := fillSlots
        (fillSlots q.qArray q.qHdr.qhdrWriteIdx (packet.take (size - rest)))
        0 ((packet.drop (size - rest)).take rest)
      qHdr := { q.qHdr with qhdrWriteIdx := rest } }

/-- `__write_queue`: the return value and whether `rx_req_is_set` is raised. -/
def writeQueue (q : MsmVidcIfaceQInfo) (packet : List UInt32) : MsmVidcIfaceQInfo × ℤ × Bool :=
  let size := (packet.headD 0).toNat >>> 2
  let readIdx := q.qHdr.qhdrReadIdx
  let writeIdx := q.qHdr.qhdrWriteIdx
  if size = 0 ∨ q.words < size then
    (q, eNoData, false)
  else if (if readIdx ≤ writeIdx then q.words - (writeIdx - readIdx) else readIdx - writeIdx)
      ≤ size then
    ({ q with qHdr := { q.qHdr with qhdrTxReq := 1 } }, eNotEmpty, false)
  else if q.memSize < writeIdx * 4 then
    ({ q with qHdr := { q.qHdr with qhdrTxReq := 0 } }, eNoData, false)
  else
    (copyPacketIn { q with qHdr := { q.qHdr with qhdrTxReq := 0 } } packet size, 0, true)

/-- The copies of `__read_queue` and the index behind the packet. -/
def copyPacketOut (q : MsmVidcIfaceQInfo) (size : ℕ) : List UInt32 × ℕ :=
  let newReadIdx := q.qHdr.qhdrReadIdx + size
  if newReadIdx < q.words then
    (readSlots q.qArray q.qHdr.qhdrReadIdx size, newReadIdx)
  else
    let rest := newReadIdx - q.words
    (readSlots q.qArray q.qHdr.qhdrReadIdx (size - rest) ++ readSlots q.qArray 0 rest, rest)

/-- What `__read_queue` gives back: its return value, the packet where it copied one, and
`pb_tx_req_is_set` where it set it. -/
structure ReadReply where
  rc : ℤ
  packet : List UInt32
  txReqIsSet : Option ℕ

def receiveRequest (hdr : HfiQueueHeader) : ℕ :=
  if hdr.qhdrType &&& hfiQIdCtrlToHostMsgQ ≠ 0 then 1 else 0

def readQueue (q : MsmVidcIfaceQInfo) : MsmVidcIfaceQInfo × ReadReply :=
  let readIdx := q.qHdr.qhdrReadIdx
  let writeIdx := q.qHdr.qhdrWriteIdx
  let size := (q.qArray readIdx).toNat >>> 2
  let txReqIsSet := if q.qHdr.qhdrTxReq = 1 then 1 else 0
  if readIdx = writeIdx then
    ({ q with qHdr := { q.qHdr with qhdrRxReq := receiveRequest q.qHdr } },
      { rc := eNoData, packet := [], txReqIsSet := some 0 })
  else if q.memSize < readIdx * 4 + 4 then
    (q, { rc := eNoData, packet := [], txReqIsSet := none })
  else if size = 0 then
    (q, { rc := eNoData, packet := [], txReqIsSet := none })
  else if size <<< 2 ≤ vidcIfaceqVarHugePktSize ∧ readIdx ≤ q.words then
    ({ q with
        qHdr := { q.qHdr with
          qhdrRxReq := receiveRequest q.qHdr
          qhdrReadIdx := (copyPacketOut q size).2 } },
      { rc := 0, packet := (copyPacketOut q size).1, txReqIsSet := some txReqIsSet })
  else
    ({ q with
        qHdr := { q.qHdr with
          qhdrRxReq := receiveRequest q.qHdr
          qhdrReadIdx := writeIdx } },
      { rc := eNoData, packet := [], txReqIsSet := some txReqIsSet })

/-! ## Packets -/

/-- A packet: its first word is its size in bytes, which is that of its words and not
above the largest packet. -/
structure HfiPacket where
  size : UInt32
  payload : List UInt32
  size_eq : size.toNat = 4 * (payload.length + 1)
  size_le : size.toNat ≤ vidcIfaceqVarHugePktSize

def HfiPacket.words (p : HfiPacket) : List UInt32 := p.size :: p.payload

/-- The words pending in a queue of packets. -/
def pendingWords (ps : List HfiPacket) : List UInt32 := ps.flatMap HfiPacket.words

/-- One operation of a first-in first-out queue of packets in `q` words, one of which
stays free. -/
def packetFifoStep (q : ℕ) :
    List HfiPacket → FifoOp HfiPacket → List HfiPacket × FifoOut (List UInt32)
  | ps, .write p =>
    if (pendingWords ps).length + p.words.length < q then (ps ++ [p], .written) else (ps, .full)
  | [], .read => ([], .empty)
  | p :: ps, .read => (ps, .got p.words)

theorem HfiPacket.length_words (p : HfiPacket) : p.words.length = p.size.toNat >>> 2 := by
  rw [words, length_cons, Nat.shiftRight_eq_div_pow, p.size_eq]
  omega

theorem HfiPacket.length_le (p : HfiPacket) :
    p.words.length <<< 2 ≤ vidcIfaceqVarHugePktSize := by
  have hsize := p.size_le
  rw [p.size_eq] at hsize
  rw [words, length_cons, Nat.shiftLeft_eq]
  omega

theorem HfiPacket.length_pos (p : HfiPacket) : 0 < p.words.length := by
  rw [words, length_cons]
  omega

theorem pendingWords_append (ps : List HfiPacket) (p : HfiPacket) :
    pendingWords (ps ++ [p]) = pendingWords ps ++ p.words := by
  simp [pendingWords]

/-! ## Operations -/

def MsmVidcIfaceQInfo.Holds (q : MsmVidcIfaceQInfo) (ps : List HfiPacket) : Prop :=
  RingHolds q.words q.qArray q.qHdr.qhdrReadIdx q.qHdr.qhdrWriteIdx (pendingWords ps)

section Operations

variable {q : MsmVidcIfaceQInfo} {ps : List HfiPacket}

theorem words_le (q : MsmVidcIfaceQInfo) : q.words * 4 ≤ q.memSize := by
  rw [MsmVidcIfaceQInfo.words, Nat.shiftRight_eq_div_pow]
  exact Nat.div_mul_le_self _ _

theorem empty_space_eq (h : q.Holds ps) :
    (if q.qHdr.qhdrReadIdx ≤ q.qHdr.qhdrWriteIdx then
      q.words - (q.qHdr.qhdrWriteIdx - q.qHdr.qhdrReadIdx)
    else q.qHdr.qhdrReadIdx - q.qHdr.qhdrWriteIdx) = q.words - (pendingWords ps).length := by
  have hlen := h.length_eq
  have hr := h.read_lt
  have hw := h.write_lt
  split
  case isTrue hle => rw [hlen, if_pos hle]
  case isFalse hlt =>
    rw [hlen, if_neg hlt]
    omega

theorem copyPacketIn_holds (h : q.Holds ps) (p : HfiPacket)
    (hroom : (pendingWords ps).length + p.words.length < q.words) :
    (copyPacketIn q p.words p.words.length).Holds (ps ++ [p]) := by
  rw [copyPacketIn, MsmVidcIfaceQInfo.Holds, pendingWords_append]
  simp only
  split
  case isTrue hfit =>
    rw [take_length]
    exact h.fill hroom hfit
  case isFalse hwrap =>
    have hw := h.write_lt
    have hrest : (p.words.drop (p.words.length -
        (q.qHdr.qhdrWriteIdx + p.words.length - q.words))).length =
        q.qHdr.qhdrWriteIdx + p.words.length - q.words := by
      rw [length_drop]
      omega
    rw [take_of_length_le hrest.le]
    exact h.fillWrapped hroom (by omega)

/-- The contents of a queue: its memory, its size and its indexes. -/
structure SameContents (q q' : MsmVidcIfaceQInfo) : Prop where
  memSize : q'.memSize = q.memSize
  qArray : q'.qArray = q.qArray
  readIdx : q'.qHdr.qhdrReadIdx = q.qHdr.qhdrReadIdx
  writeIdx : q'.qHdr.qhdrWriteIdx = q.qHdr.qhdrWriteIdx

theorem SameContents.holds {q' : MsmVidcIfaceQInfo} (hsame : SameContents q q')
    (h : q.Holds ps) : q'.Holds ps := by
  rw [MsmVidcIfaceQInfo.Holds, MsmVidcIfaceQInfo.words, hsame.memSize, hsame.qArray,
    hsame.readIdx, hsame.writeIdx]
  exact h

theorem writeQueue_cases (h : q.Holds ps) (p : HfiPacket) :
    ((pendingWords ps).length + p.words.length < q.words ∧
      (writeQueue q p.words).2.1 = 0 ∧ (writeQueue q p.words).1.words = q.words ∧
      (writeQueue q p.words).1.Holds (ps ++ [p])) ∨
    (q.words ≤ (pendingWords ps).length + p.words.length ∧
      (writeQueue q p.words).2.1 ≠ 0 ∧ SameContents q (writeQueue q p.words).1) := by
  have hlen := h.length_lt
  have hw := h.write_lt
  have hbytes := words_le q
  have hsize : (p.words.headD 0).toNat >>> 2 = p.words.length := p.length_words.symm
  have hpos := p.length_pos
  have hspace := empty_space_eq h
  rw [writeQueue]
  simp only [hsize, hspace]
  by_cases hbig : q.words < p.words.length
  · rw [if_pos (Or.inr hbig)]
    exact Or.inr ⟨by omega, show eNoData ≠ 0 by decide, ⟨rfl, rfl, rfl, rfl⟩⟩
  · rw [if_neg (by omega)]
    by_cases hfull : q.words - (pendingWords ps).length ≤ p.words.length
    · rw [if_pos hfull]
      exact Or.inr ⟨by omega, show eNotEmpty ≠ 0 by decide, ⟨rfl, rfl, rfl, rfl⟩⟩
    · rw [if_neg hfull, if_neg (by omega)]
      have hroom : (pendingWords ps).length + p.words.length < q.words := by omega
      refine Or.inl ⟨hroom, rfl, ?_, ?_⟩
      · rw [copyPacketIn]
        simp only
        split <;> rfl
      · refine copyPacketIn_holds ?_ p hroom
        exact SameContents.holds ⟨rfl, rfl, rfl, rfl⟩ h

variable {p : HfiPacket}

theorem copyPacketOut_eq (h : q.Holds (p :: ps)) :
    (copyPacketOut q p.words.length).1 = p.words ∧
      RingHolds q.words q.qArray (copyPacketOut q p.words.length).2 q.qHdr.qhdrWriteIdx
        (pendingWords ps) := by
  have hring : RingHolds q.words q.qArray q.qHdr.qhdrReadIdx q.qHdr.qhdrWriteIdx
      (p.words ++ pendingWords ps) := h
  have hr := hring.read_lt
  have hl := hring.length_lt
  rw [length_append] at hl
  have hpop := hring.popAll.2
  rw [copyPacketOut]
  simp only
  split
  case isTrue hfit =>
    rw [Nat.mod_eq_of_lt hfit] at hpop
    exact ⟨hring.read_eq hfit.le, hpop⟩
  case isFalse hwrap =>
    rw [Nat.mod_eq_sub_mod (by omega), Nat.mod_eq_of_lt (by omega)] at hpop
    exact ⟨hring.readWrapped_eq (by omega), hpop⟩

theorem readQueue_cons (h : q.Holds (p :: ps)) :
    (readQueue q).2.rc = 0 ∧ (readQueue q).2.packet = p.words ∧
      (readQueue q).1.words = q.words ∧ (readQueue q).1.Holds ps := by
  have hring : RingHolds q.words q.qArray q.qHdr.qhdrReadIdx q.qHdr.qhdrWriteIdx
      (p.words ++ pendingWords ps) := h
  have hr := hring.read_lt
  have hbytes := words_le q
  have hpos := p.length_pos
  have hne : q.qHdr.qhdrReadIdx ≠ q.qHdr.qhdrWriteIdx := by
    intro heq
    have hnil := hring.eq_nil_iff.mpr heq
    rw [append_eq_nil_iff] at hnil
    rw [hnil.1] at hpos
    cases hpos
  have hfirst : q.qArray q.qHdr.qhdrReadIdx = p.size := by
    have hslot := hring.popAll.1 0 hpos
    rwa [Nat.add_zero, Nat.mod_eq_of_lt hr] at hslot
  have hsize : (q.qArray q.qHdr.qhdrReadIdx).toNat >>> 2 = p.words.length := by
    rw [hfirst, p.length_words]
  obtain ⟨hpacket, hrest⟩ := copyPacketOut_eq h
  rw [readQueue]
  simp only [hsize]
  rw [if_neg hne, if_neg (by omega), if_neg (by omega), if_pos ⟨p.length_le, by omega⟩]
  exact ⟨rfl, hpacket, rfl, hrest⟩

theorem readQueue_nil (h : q.Holds []) :
    (readQueue q).2.rc = eNoData ∧ (readQueue q).1.words = q.words ∧
      SameContents q (readQueue q).1 := by
  have heq : q.qHdr.qhdrReadIdx = q.qHdr.qhdrWriteIdx := h.eq_nil_iff.mp rfl
  rw [readQueue]
  rw [if_pos heq]
  exact ⟨rfl, rfl, ⟨rfl, rfl, rfl, rfl⟩⟩

end Operations

/-! ## Runs -/

/-- One operation on the queue, answered by its return value and by the packet read. -/
def hfiStep (q : MsmVidcIfaceQInfo) :
    FifoOp HfiPacket → MsmVidcIfaceQInfo × FifoOut (List UInt32)
  | .write p =>
    let r := writeQueue q p.words
    (r.1, if r.2.1 = 0 then .written else .full)
  | .read =>
    let r := readQueue q
    (r.1, if r.2.rc = 0 then .got r.2.packet else .empty)

/-- A queue of `n` words whose pending packets are `ps`. -/
def Pending (n : ℕ) (q : MsmVidcIfaceQInfo) (ps : List HfiPacket) : Prop :=
  q.words = n ∧ q.Holds ps

theorem hfiStep_refines {n : ℕ} (q : MsmVidcIfaceQInfo) (ps : List HfiPacket)
    (op : FifoOp HfiPacket) (h : Pending n q ps) :
    Pending n (hfiStep q op).1 (packetFifoStep n ps op).1 ∧
      (hfiStep q op).2 = (packetFifoStep n ps op).2 := by
  obtain ⟨hn, hq⟩ := h
  cases op with
  | write p =>
    rcases writeQueue_cases hq p with ⟨hroom, hrc, hwords, hholds⟩ | ⟨hfull, hrc, hsame⟩
    · rw [hn] at hroom
      rw [hfiStep, packetFifoStep, if_pos hroom]
      simp only [if_pos hrc]
      exact ⟨⟨hwords.trans hn, hholds⟩, trivial⟩
    · rw [hn] at hfull
      have hnot : ¬ (pendingWords ps).length + p.words.length < n := by omega
      rw [hfiStep, packetFifoStep, if_neg hnot]
      simp only [if_neg hrc]
      have hwords : (writeQueue q p.words).1.words = q.words := by
        rw [MsmVidcIfaceQInfo.words, hsame.memSize, MsmVidcIfaceQInfo.words]
      exact ⟨⟨hwords.trans hn, hsame.holds hq⟩, trivial⟩
  | read =>
    cases ps with
    | nil =>
      obtain ⟨hrc, hwords, hsame⟩ := readQueue_nil hq
      have hne : (readQueue q).2.rc ≠ 0 := by
        rw [hrc]
        decide
      rw [hfiStep, packetFifoStep]
      simp only [if_neg hne]
      exact ⟨⟨hwords.trans hn, hsame.holds hq⟩, trivial⟩
    | cons p ps =>
      obtain ⟨hrc, hpacket, hwords, hholds⟩ := readQueue_cons hq
      rw [hfiStep, packetFifoStep]
      simp only [if_pos hrc]
      exact ⟨⟨hwords.trans hn, hholds⟩, by rw [hpacket]⟩

/-- A queue of at least two words whose indexes were reset. -/
structure MsmVidcIfaceQInfo.Reset (q : MsmVidcIfaceQInfo) : Prop where
  two_le : 2 ≤ q.words
  readIdx : q.qHdr.qhdrReadIdx = 0
  writeIdx : q.qHdr.qhdrWriteIdx = 0

theorem MsmVidcIfaceQInfo.Reset.pending {q : MsmVidcIfaceQInfo} (h : q.Reset) :
    Pending q.words q [] := by
  refine ⟨rfl, ?_⟩
  rw [Holds, h.readIdx, h.writeIdx]
  exact RingHolds.nil _ (by have := h.two_le; omega)

/-- Every run on a reset queue gives the answers of a first-in first-out queue of packets:
reads return the written packets in order, word for word. In the state reached a write is
refused, with the contents and the indexes as they were, exactly when fewer words are free
than the packet has and one more, and a read reports `-ENODATA` exactly when no packet is
pending. -/
theorem hfiQueue_refines_fifo {q : MsmVidcIfaceQInfo} (hreset : q.Reset)
    (ops : List (FifoOp HfiPacket)) :
    let reached := (runOutputs hfiStep q ops).1
    let pending := (runOutputs (packetFifoStep q.words) [] ops).1
    (runOutputs hfiStep q ops).2 = (runOutputs (packetFifoStep q.words) [] ops).2 ∧
      (∀ p : HfiPacket, (writeQueue reached p.words).2.1 ≠ 0 ↔
        q.words - (pendingWords pending).length < p.words.length + 1) ∧
      (∀ p : HfiPacket, (writeQueue reached p.words).2.1 ≠ 0 →
        SameContents reached (writeQueue reached p.words).1) ∧
      ((readQueue reached).2.rc = eNoData ↔ pending = []) := by
  intro reached pending
  have hrun := runOutputs_simulates (R := Pending q.words) hfiStep_refines hreset.pending ops
  have hn : reached.words = q.words := hrun.1.1
  have hholds : reached.Holds pending := hrun.1.2
  refine ⟨hrun.2, ?_, ?_, ?_⟩
  · intro p
    rcases writeQueue_cases hholds p with ⟨hroom, hrc, -⟩ | ⟨hfull, hrc, -⟩
    · rw [hn] at hroom
      exact iff_of_false (fun hne => hne hrc) (by omega)
    · rw [hn] at hfull
      exact iff_of_true hrc (by omega)
  · intro p hfail
    rcases writeQueue_cases hholds p with ⟨-, hrc, -⟩ | ⟨-, -, hsame⟩
    · exact absurd hrc hfail
    · exact hsame
  · cases hpending : pending with
    | nil =>
      rw [hpending] at hholds
      exact iff_of_true (readQueue_nil hholds).1 rfl
    | cons p ps =>
      rw [hpending] at hholds
      obtain ⟨hrc, -⟩ := readQueue_cons hholds
      refine iff_of_false ?_ (by simp)
      rw [hrc]
      decide

def sampleIfaceQ : MsmVidcIfaceQInfo where
  memSize := 20
  qArray := fun _ => 0
  qHdr :=
    { qhdrType := 1, qhdrRxReq := 1, qhdrTxReq := 0, qhdrReadIdx := 0, qhdrWriteIdx := 0 }

def samplePacket (x y : UInt32) : HfiPacket where
  size := 12
  payload := [x, y]
  size_eq := by simp
  size_le := by decide

/-- The second packet goes around the end of the queue. -/
theorem hfiQueue_refines_fifo_sample :
    (runOutputs hfiStep sampleIfaceQ [.write (samplePacket 1 2), .write (samplePacket 3 4), .read,
        .write (samplePacket 5 6), .read, .read]).2 =
      [.written, .full, .got [12, 1, 2], .written, .got [12, 5, 6], .empty] :=
  (hfiQueue_refines_fifo (q := sampleIfaceQ) ⟨by decide, rfl, rfl⟩ _).1

end QcomModules.Vidc
