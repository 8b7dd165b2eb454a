import QcomModules.Library.Runs
import QcomModules.Wlan.Mmie

/-! Broadcast management frames over one IGTK: the sender's frames go through a channel that drops,
repeats, delays and reorders them, and brings frames that the key has not made. -/

namespace QcomModules.Wlan

open Library Relation List

variable {Mic : Type}

/-! ## The shared key -/

structure Igtk where
  cipher : CipherType
  keyval : List Byte
  keylen : Byte
  slot : Fin 2

def Igtk.key (K : Igtk) (tsc rsc : PacketNumber) : WlanCryptoKey :=
  { keylen := K.keylen, keyix := maxKeyidx + BitVec.ofNat 16 K.slot, keyval := K.keyval,
    keytsc := tsc, keyrsc := rsc }

/-- The keys of a device that has the IGTK, at the given counters. -/
def Igtk.keys (K : Igtk) (tsc rsc : PacketNumber) : WlanCryptoKeys :=
  { igtkKey := fun slot => if slot = K.slot then some (K.key tsc rsc) else none,
    igtkKeyType := K.cipher, defIgtkTxKeyid := BitVec.ofNat 8 K.slot }

def Igtk.mic (K : Igtk) (F : MicFunctions Mic) (nonce buf : List Byte) : Option Mic :=
  F.mic K.cipher K.keyval K.keylen nonce buf

def Igtk.mmie (K : Igtk) (pn : PacketNumber) : Mmie :=
  { elementId := elemidMmie, length := if K.cipher.micLen = 8 then 24 - 8 else 24,
    keyId := maxKeyidx + BitVec.ofNat 16 K.slot, sequenceNumber := pn }

theorem Igtk.setIgtk_keys (K : Igtk) (tsc rsc tsc' rsc' : PacketNumber) :
    (K.keys tsc rsc).setIgtk K.slot (K.key tsc' rsc') = K.keys tsc' rsc' := by
  rw [WlanCryptoKeys.setIgtk, Igtk.keys, Igtk.keys]
  congr 1
  funext slot
  by_cases hslot : slot = K.slot
  · rw [hslot, Function.update_self, if_pos rfl]
  · rw [Function.update_of_ne hslot, if_neg hslot]
    exact if_neg hslot

/-! ## The link -/

/-- The two ends, how many frames the sender was given, the frames it made, and the frames that the
receiver was given with its verdicts. -/
structure Link (Mic : Type) where
  sender : WlanCryptoKeys
  receiver : WlanCryptoKeys
  count : ℕ
  sent : List (MgmtFrame Mic)
  heard : List (MgmtFrame Mic × Bool)

/-- Both ends have installed the key with the same counter. -/
def Igtk.link (K : Igtk) (start : PacketNumber) : Link Mic :=
  { sender := K.keys start start, receiver := K.keys start start, count := 0, sent := [],
    heard := [] }

/-- The sender is given a frame, or the channel brings one to the receiver. -/
inductive LinkOp (Mic : Type) where
  | send (bfrm : List Byte)
  | deliver (f : MgmtFrame Mic)

section

variable [DecidableEq Mic]

def Link.step (F : MicFunctions Mic) (l : Link Mic) : LinkOp Mic → Link Mic
  | .send bfrm =>
    let (keys, f) := addMmie F l.sender bfrm
    { l with sender := keys, count := l.count + 1, sent := l.sent ++ f.toList }
  | .deliver f =>
    match isMmieValid F l.receiver f with
    | none => l
    | some (keys, valid) => { l with receiver := keys, heard := l.heard ++ [(f, valid)] }

end

def acceptedOf (heard : List (MgmtFrame Mic × Bool)) : List (MgmtFrame Mic) :=
  (heard.filter Prod.snd).map Prod.fst

def Link.accepted (l : Link Mic) : List (MgmtFrame Mic) := acceptedOf l.heard

def MgmtFrame.covered (type : CipherType) (f : MgmtFrame Mic) : List Byte :=
  heardBuf type f.bytes (f.size type)

/-- A frame made without the key: it has no MIC of the key but that of a sent frame, from which it
differs in what the MIC covers. -/
def Link.Foreign (F : MicFunctions Mic) (K : Igtk) (l : Link Mic) (f : MgmtFrame Mic) : Prop :=
  (∀ nonce buf, K.mic F nonce buf = some f.mic → ∃ g ∈ l.sent, g.mic = f.mic) ∧
    ∀ g ∈ l.sent, g.mic = f.mic → g.covered K.cipher ≠ f.covered K.cipher

/-- The sender is given management frames, fewer than there are numbers, and the channel brings
frames that were sent, any number of times and in any order, or frames made without the key. -/
def Link.Lawful (F : MicFunctions Mic) (K : Igtk) (start : PacketNumber) (l : Link Mic) :
    LinkOp Mic → Prop
  | .send bfrm => hdrlen ≤ bfrm.length ∧ leNum start.1 + l.count + 1 < 2 ^ 48
  | .deliver f => f ∈ l.sent ∨ l.Foreign F K f

/-- Frames are at most 65535 bytes long, and the number of a sent frame and that of the receiver
compare as byte strings like they compare as numbers. -/
def Link.Ordered (K : Igtk) (l : Link Mic) : LinkOp Mic → Prop
  | .send bfrm => bfrm.length + 10 + K.cipher.micLen < 2 ^ 16
  | .deliver f => f.size K.cipher < 2 ^ 16 ∧
      (f ∈ l.sent → ∀ mmie ∈ Mmie.read f.bytes, ∀ key ∈ l.receiver.igtkKey K.slot,
        (memCmp mmie.sequenceNumber.1 key.keyrsc.1 ≤ 0 ↔
          leNum mmie.sequenceNumber.1 ≤ leNum key.keyrsc.1))

/-- Broadcast management frames are accepted once and in order. -/
structure Link.Protected (l : Link Mic) : Prop where
  produced : ∀ f ∈ l.accepted, f ∈ l.sent
  /-- The numbers are in the order in which the frames were sent. -/
  counted : (l.sent.map MgmtFrame.ipn).Pairwise (· < ·)
  increasing : (l.accepted.map MgmtFrame.ipn).Pairwise (· < ·)
  once : l.accepted.Nodup
  /-- A sent frame with a number above those of all frames accepted before it is accepted. -/
  fresh : ∀ before f valid after, l.heard = before ++ (f, valid) :: after → f ∈ l.sent →
    (∀ g ∈ acceptedOf before, g.ipn < f.ipn) → valid = true

/-! ## One frame -/

/-- A frame that the sender has made of a management frame, with the given number. -/
structure Igtk.Made (K : Igtk) (F : MicFunctions Mic) (f : MgmtFrame Mic) (bfrm : List Byte)
    (pn : PacketNumber) : Prop where
  header : hdrlen ≤ bfrm.length
  size : f.size K.cipher < 2 ^ 16
  bytes : f.bytes = bfrm ++ (K.mmie pn).bytes
  mic : K.mic F (gmacNonce bfrm pn) (sentBuf K.cipher bfrm f.bytes) = some f.mic

def Igtk.Valid (K : Igtk) (F : MicFunctions Mic) (f : MgmtFrame Mic) : Prop :=
  ∃ nonce, K.mic F nonce (f.covered K.cipher) = some f.mic

theorem addMmie_keys (F : MicFunctions Mic) (K : Igtk) (tsc rsc : PacketNumber)
    (bfrm : List Byte) :
    addMmie F (K.keys tsc rsc) bfrm =
      (K.keys tsc.next rsc,
        (K.mic F (gmacNonce bfrm tsc.next)
          (sentBuf K.cipher bfrm (bfrm ++ (K.mmie tsc.next).bytes))).map
            fun mic => ⟨bfrm ++ (K.mmie tsc.next).bytes, mic⟩) := by
  have hslot : (BitVec.ofNat 8 K.slot).toNat = K.slot := by
    rw [BitVec.toNat_ofNat]
    exact Nat.mod_eq_of_lt (by omega)
  have hid : (K.keys tsc rsc).defIgtkTxKeyid.toNat < 2 := by
    rw [Igtk.keys, hslot]
    exact K.slot.isLt
  have hfin : (⟨(K.keys tsc rsc).defIgtkTxKeyid.toNat, hid⟩ : Fin 2) = K.slot := Fin.ext hslot
  have hkey : (K.keys tsc rsc).igtkKey K.slot = some (K.key tsc rsc) := if_pos rfl
  rw [addMmie, dif_pos hid]
  dsimp only
  rw [hfin, hkey]
  dsimp only
  exact Prod.ext (K.setIgtk_keys tsc rsc tsc.next rsc) rfl

theorem keyId_slot (slot : Fin 2) :
    ¬(maxKeyidx + maxIgtkKeyidx ≤ maxKeyidx + BitVec.ofNat 16 slot ∨
        maxKeyidx + BitVec.ofNat 16 slot < maxKeyidx) ∧
      Fin.ofNat 2 (maxKeyidx + BitVec.ofNat 16 slot - maxKeyidx).toNat = slot := by
  revert slot
  decide

namespace Igtk.Made

variable {F : MicFunctions Mic} {K : Igtk} {f : MgmtFrame Mic} {bfrm : List Byte}
  {pn : PacketNumber}

theorem read (h : K.Made F f bfrm pn) : Mmie.read f.bytes = some (K.mmie pn) := by
  rw [h.bytes]
  exact Mmie.read_append ..

theorem ipn (h : K.Made F f bfrm pn) : f.ipn = leNum pn.1 := by
  rw [MgmtFrame.ipn, h.read]
  rfl

theorem covered (h : K.Made F f bfrm pn) : f.covered K.cipher = sentBuf K.cipher bfrm f.bytes := by
  rw [MgmtFrame.covered, MgmtFrame.size, h.bytes]
  exact heardBuf_append _ h.header _

theorem nonce (h : K.Made F f bfrm pn) : gmacNonce f.bytes pn = gmacNonce bfrm pn := by
  have hlen := h.header
  rw [hdrlen] at hlen
  rw [gmacNonce, gmacNonce, iAddr2, iAddr2, h.bytes, drop_append_of_le_length (by omega),
    take_append_of_le_length (by rw [length_drop]; omega)]

theorem valid (h : K.Made F f bfrm pn) : K.Valid F f := by
  refine ⟨gmacNonce bfrm pn, ?_⟩
  rw [h.covered]
  exact h.mic

theorem isMmieValid_eq [DecidableEq Mic] (h : K.Made F f bfrm pn) (tsc rsc : PacketNumber) :
    isMmieValid F (K.keys tsc rsc) f =
      if memCmp pn.1 rsc.1 ≤ 0 then some (K.keys tsc rsc, false)
      else some (K.keys tsc pn, true) := by
  have hhdr : hdrlen ≤ f.size K.cipher := by
    rw [MgmtFrame.size, h.bytes, length_append]
    have := h.header
    omega
  have hmod : f.size K.cipher % 2 ^ 16 = f.size K.cipher := Nat.mod_eq_of_lt h.size
  obtain ⟨hrange, hslot⟩ := keyId_slot K.slot
  have hkey : (K.keys tsc rsc).igtkKey K.slot = some (K.key tsc rsc) := if_pos rfl
  have hbuf : heardBuf K.cipher f.bytes (f.size K.cipher) = sentBuf K.cipher bfrm f.bytes :=
    h.covered
  have hmic : F.mic K.cipher K.keyval K.keylen (gmacNonce f.bytes pn)
      (heardBuf K.cipher f.bytes (f.size K.cipher)) = some f.mic := by
    rw [hbuf, h.nonce]
    exact h.mic
  have htype : (K.keys tsc rsc).igtkKeyType = K.cipher := rfl
  have hid : (K.mmie pn).keyId = maxKeyidx + BitVec.ofNat 16 K.slot := rfl
  have helem : (K.mmie pn).elementId = elemidMmie := rfl
  have hseq : (K.mmie pn).sequenceNumber = pn := rfl
  have hrsc : (K.key tsc rsc).keyrsc = rsc := rfl
  rw [isMmieValid]
  dsimp only
  rw [htype, if_neg (Nat.not_lt.2 hhdr), h.read, hmod]
  dsimp only
  rw [hid, if_neg (not_not.2 helem), if_neg hrange, hslot, hkey]
  dsimp only
  rw [hseq, hrsc]
  by_cases hcmp : memCmp pn.1 rsc.1 ≤ 0
  · rw [if_pos hcmp, if_pos hcmp]
  · rw [if_neg hcmp, if_neg hcmp, if_neg (Nat.not_lt.2 hhdr)]
    dsimp only [Igtk.key]
    rw [hmic]
    dsimp only
    rw [if_neg (not_not.2 rfl)]
    exact congrArg (fun keys => some (keys, true)) (K.setIgtk_keys tsc rsc tsc pn)

end Igtk.Made

/-! ## What a run keeps -/

theorem acceptedOf_append (heard heard' : List (MgmtFrame Mic × Bool)) :
    acceptedOf (heard ++ heard') = acceptedOf heard ++ acceptedOf heard' := by
  rw [acceptedOf, acceptedOf, acceptedOf, filter_append, map_append]

/-- The counters of the two ends are the numbers of the last sent and of the last accepted frame,
and what is known of the log. -/
structure Link.Sound (F : MicFunctions Mic) (K : Igtk) (start : PacketNumber) (l : Link Mic)
    (tsc rsc : PacketNumber) : Prop where
  sender : l.sender = K.keys tsc start
  receiver : l.receiver = K.keys start rsc
  count : leNum tsc.1 = leNum start.1 + l.count
  made : ∀ f ∈ l.sent, ∃ bfrm pn, K.Made F f bfrm pn ∧ leNum start.1 < leNum pn.1 ∧
    leNum pn.1 ≤ leNum tsc.1
  counted : (l.sent.map MgmtFrame.ipn).Pairwise (· < ·)
  /-- The receiver has heard no frame with a MIC that holds before it was sent. -/
  genuine : ∀ f valid, (f, valid) ∈ l.heard → K.Valid F f → f ∈ l.sent
  produced : ∀ f ∈ l.accepted, f ∈ l.sent
  increasing : (l.accepted.map MgmtFrame.ipn).Pairwise (· < ·)
  last : ∀ f ∈ l.accepted, f.ipn ≤ leNum rsc.1
  reached : leNum rsc.1 = leNum start.1 ∨ ∃ f ∈ l.accepted, f.ipn = leNum rsc.1
  fresh : ∀ before f valid after, l.heard = before ++ (f, valid) :: after → f ∈ l.sent →
    (∀ g ∈ acceptedOf before, g.ipn < f.ipn) → valid = true

theorem Link.Sound.isProtected {F : MicFunctions Mic} {K : Igtk} {start tsc rsc : PacketNumber}
    {l : Link Mic} (h : l.Sound F K start tsc rsc) : l.Protected where
  produced := h.produced
  counted := h.counted
  increasing := h.increasing
  once := Nodup.of_map _ (h.increasing.imp Nat.ne_of_lt)
  fresh := h.fresh

theorem Igtk.sound_link (F : MicFunctions Mic) (K : Igtk) (start : PacketNumber) :
    (K.link start : Link Mic).Sound F K start start start where
  sender := rfl
  receiver := rfl
  count := rfl
  made _ hf := absurd hf not_mem_nil
  counted := .nil
  genuine _ _ hf := absurd hf not_mem_nil
  produced _ hf := absurd hf not_mem_nil
  increasing := .nil
  last _ hf := absurd hf not_mem_nil
  reached := .inl rfl
  fresh _ _ _ _ h := absurd h (append_ne_nil_of_right_ne_nil _ (cons_ne_nil _ _)).symm

theorem entry_of_append {α : Type} {log before after : List α} {d e : α}
    (h : log ++ [d] = before ++ e :: after) :
    (before = log ∧ e = d) ∨ ∃ after', log = before ++ e :: after' := by
  rcases eq_nil_or_concat after with rfl | ⟨after', x, rfl⟩
  · obtain ⟨rfl, hlast⟩ := append_inj' h rfl
    exact .inl ⟨rfl, (singleton_inj.1 hlast).symm⟩
  · rw [concat_eq_append, ← cons_append, ← append_assoc] at h
    exact .inr ⟨after', (append_inj' h rfl).1⟩

namespace Link.Sound

variable {F : MicFunctions Mic} {K : Igtk} {start tsc rsc : PacketNumber} {l : Link Mic}

theorem not_valid (h : l.Sound F K start tsc rsc) (hF : F.Injective) {f : MgmtFrame Mic}
    (hforeign : l.Foreign F K f) : ¬K.Valid F f := by
  rintro ⟨nonce, hmic⟩
  obtain ⟨g, hg, hsame⟩ := hforeign.1 _ _ hmic
  obtain ⟨bfrm, pn, hmade, -, -⟩ := h.made g hg
  obtain ⟨nonce', hmic'⟩ := hmade.valid
  rw [hsame] at hmic'
  exact hforeign.2 g hg hsame (hF.buf_eq hmic' hmic)

theorem refuse (h : l.Sound F K start tsc rsc) {f : MgmtFrame Mic}
    (hgenuine : K.Valid F f → f ∈ l.sent)
    (hstale : f ∈ l.sent → ∃ g ∈ l.accepted, f.ipn ≤ g.ipn) :
    { l with receiver := K.keys start rsc, heard := l.heard ++ [(f, false)] }.Sound F K start tsc
      rsc := by
  have haccepted : acceptedOf (l.heard ++ [(f, false)]) = l.accepted := by
    rw [acceptedOf_append]
    exact append_nil _
  refine
    { sender := h.sender, receiver := rfl, count := h.count, made := h.made,
      counted := h.counted, genuine := ?_, produced := ?_, increasing := ?_, last := ?_,
      reached := ?_, fresh := ?_ }
  · intro g valid hg hvalid
    rcases mem_append.1 hg with hg | hg
    · exact h.genuine g valid hg hvalid
    · obtain ⟨rfl, -⟩ := Prod.mk.inj (mem_singleton.1 hg)
      exact hgenuine hvalid
  · rw [Link.accepted, haccepted]
    exact h.produced
  · rw [Link.accepted, haccepted]
    exact h.increasing
  · rw [Link.accepted, haccepted]
    exact h.last
  · rw [Link.accepted, haccepted]
    exact h.reached
  · intro before g valid after hheard hg hnewer
    rcases entry_of_append hheard with ⟨rfl, hlast⟩ | ⟨after', hheard⟩
    · obtain ⟨rfl, -⟩ := Prod.mk.inj hlast
      obtain ⟨g', hg', hle⟩ := hstale hg
      exact absurd (hnewer g' hg') (Nat.not_lt.2 hle)
    · exact h.fresh before g valid after' hheard hg hnewer

theorem accept (h : l.Sound F K start tsc rsc) {f : MgmtFrame Mic} {pn : PacketNumber}
    (hsent : f ∈ l.sent) (hipn : f.ipn = leNum pn.1) (hlt : leNum rsc.1 < leNum pn.1) :
    { l with receiver := K.keys start pn, heard := l.heard ++ [(f, true)] }.Sound F K start tsc
      pn := by
  have haccepted : acceptedOf (l.heard ++ [(f, true)]) = l.accepted ++ [f] := acceptedOf_append ..
  have hbelow (g : MgmtFrame Mic) (hg : g ∈ l.accepted) : g.ipn < f.ipn := by
    rw [hipn]
    exact Nat.lt_of_le_of_lt (h.last g hg) hlt
  refine
    { sender := h.sender, receiver := rfl, count := h.count, made := h.made,
      counted := h.counted, genuine := ?_, produced := ?_, increasing := ?_, last := ?_,
      reached := .inr ⟨f, ?_, hipn⟩, fresh := ?_ }
  · intro g valid hg hvalid
    rcases mem_append.1 hg with hg | hg
    · exact h.genuine g valid hg hvalid
    · obtain ⟨rfl, -⟩ := Prod.mk.inj (mem_singleton.1 hg)
      exact hsent
  · rw [Link.accepted, haccepted]
    intro g hg
    rcases mem_append.1 hg with hg | hg
    · exact h.produced g hg
    · rw [mem_singleton.1 hg]
      exact hsent
  · rw [Link.accepted, haccepted, map_append, pairwise_append]
    refine ⟨h.increasing, pairwise_singleton .., ?_⟩
    intro x hx y hy
    obtain ⟨g, hg, rfl⟩ := mem_map.1 hx
    rw [mem_singleton.1 hy]
    exact hbelow g hg
  · rw [Link.accepted, haccepted]
    intro g hg
    rcases mem_append.1 hg with hg | hg
    · exact Nat.le_trans (h.last g hg) (Nat.le_of_lt hlt)
    · rw [mem_singleton.1 hg, hipn]
  · rw [Link.accepted, haccepted]
    exact mem_append_right _ (mem_singleton_self f)
  · intro before g valid after hheard hg hnewer
    rcases entry_of_append hheard with ⟨rfl, hlast⟩ | ⟨after', hheard⟩
    · exact (Prod.mk.inj hlast).2
    · exact h.fresh before g valid after' hheard hg hnewer

theorem make (h : l.Sound F K start tsc rsc) {f : MgmtFrame Mic} {bfrm : List Byte}
    (hmade : K.Made F f bfrm tsc.next) (hnext : leNum tsc.next.1 = leNum tsc.1 + 1) :
    { l with sender := K.keys tsc.next start, count := l.count + 1, sent := l.sent ++ [f] }.Sound
      F K start tsc.next rsc := by
  have hcount := h.count
  refine
    { sender := rfl, receiver := h.receiver, count := ?_, made := ?_, counted := ?_,
      genuine := ?_, produced := ?_, increasing := h.increasing, last := h.last,
      reached := h.reached, fresh := ?_ }
  · rw [hnext, hcount, Nat.add_assoc]
  · intro g hg
    rcases mem_append.1 hg with hg | hg
    · obtain ⟨bfrm', pn, hmade', hlo, hhi⟩ := h.made g hg
      exact ⟨bfrm', pn, hmade', hlo, by omega⟩
    · rw [mem_singleton.1 hg]
      exact ⟨bfrm, tsc.next, hmade, by omega, Nat.le_refl _⟩
  · rw [map_append, pairwise_append]
    refine ⟨h.counted, pairwise_singleton .., ?_⟩
    intro x hx y hy
    obtain ⟨g, hg, rfl⟩ := mem_map.1 hx
    obtain ⟨bfrm', pn, hmade', -, hhi⟩ := h.made g hg
    rw [mem_singleton.1 hy, hmade'.ipn, hmade.ipn]
    omega
  · exact fun g valid hg hvalid => mem_append_left _ (h.genuine g valid hg hvalid)
  · exact fun g hg => mem_append_left _ (h.produced g hg)
  · intro before g valid after hheard hg hnewer
    refine h.fresh before g valid after hheard ?_ hnewer
    rcases mem_append.1 hg with hg | hg
    · exact hg
    · rw [mem_singleton.1 hg] at hheard ⊢
      refine h.genuine f valid ?_ hmade.valid
      rw [hheard]
      exact mem_append_right _ mem_cons_self

theorem pass (h : l.Sound F K start tsc rsc) (hnext : leNum tsc.next.1 = leNum tsc.1 + 1) :
    { l with sender := K.keys tsc.next start, count := l.count + 1 }.Sound F K start tsc.next
      rsc := by
  have hcount := h.count
  refine { h with sender := rfl, count := ?_, made := ?_ }
  · rw [hnext, hcount, Nat.add_assoc]
  · intro g hg
    obtain ⟨bfrm, pn, hmade, hlo, hhi⟩ := h.made g hg
    exact ⟨bfrm, pn, hmade, hlo, by omega⟩

variable [DecidableEq Mic]

theorem send (h : l.Sound F K start tsc rsc) {bfrm : List Byte}
    (hlawful : l.Lawful F K start (.send bfrm)) (hordered : l.Ordered K (.send bfrm)) :
    (l.step F (.send bfrm)).Sound F K start tsc.next rsc := by
  have hlast := hlawful.2
  have hcount := h.count
  have hnext : leNum tsc.next.1 = leNum tsc.1 + 1 := by
    refine leNum_incBytes ?_
    rw [tsc.2]
    omega
  rw [Link.step, h.sender, addMmie_keys]
  dsimp only
  cases hmic : K.mic F (gmacNonce bfrm tsc.next)
      (sentBuf K.cipher bfrm (bfrm ++ (K.mmie tsc.next).bytes)) with
  | none =>
    rw [Option.map_none, Option.toList_none, append_nil]
    exact h.pass hnext
  | some mic =>
    refine h.make ⟨hlawful.1, ?_, rfl, hmic⟩ hnext
    rw [MgmtFrame.size, length_append, Mmie.length_bytes]
    exact hordered

theorem deliver (h : l.Sound F K start tsc rsc) (hF : F.Injective) {f : MgmtFrame Mic}
    (hlawful : l.Lawful F K start (.deliver f)) (hordered : l.Ordered K (.deliver f)) :
    ∃ rsc', (l.step F (.deliver f)).Sound F K start tsc rsc' := by
  have hkey : (K.keys start rsc).igtkKey K.slot = some (K.key start rsc) := if_pos rfl
  rw [Link.step, h.receiver]
  by_cases hsent : f ∈ l.sent
  · obtain ⟨bfrm, pn, hmade, hstart, -⟩ := h.made f hsent
    have hcmp : memCmp pn.1 rsc.1 ≤ 0 ↔ leNum pn.1 ≤ leNum rsc.1 := by
      refine hordered.2 hsent _ hmade.read (K.key start rsc) ?_
      rw [h.receiver]
      exact hkey
    rw [hmade.isMmieValid_eq]
    by_cases hle : leNum pn.1 ≤ leNum rsc.1
    · rw [if_pos (hcmp.2 hle)]
      refine ⟨rsc, h.refuse (fun _ => hsent) fun _ => ?_⟩
      rw [hmade.ipn]
      rcases h.reached with hreached | ⟨g, hg, hreached⟩
      · omega
      · exact ⟨g, hg, by omega⟩
    · rw [if_neg (mt hcmp.1 hle)]
      exact ⟨pn, h.accept hsent hmade.ipn (Nat.lt_of_not_le hle)⟩
  · have hinvalid := h.not_valid hF (hlawful.resolve_left hsent)
    cases hres : isMmieValid F (K.keys start rsc) f with
    | none => exact ⟨rsc, h⟩
    | some res =>
      obtain ⟨keys, valid⟩ := res
      rcases isMmieValid_cases hres with ⟨rfl, rfl⟩ | ⟨-, mmie, slot, key, -, hslot, -, hmic, -⟩
      · exact ⟨rsc, h.refuse (absurd · hinvalid) (absurd · hsent)⟩
      · refine absurd ⟨gmacNonce f.bytes mmie.sequenceNumber, ?_⟩ hinvalid
        have hsize : f.size K.cipher % 2 ^ 16 = f.size K.cipher := Nat.mod_eq_of_lt hordered.1
        obtain rfl : K.key start rsc = key := by
          by_cases heq : slot = K.slot
          · rw [heq, hkey] at hslot
            exact Option.some.inj hslot
          · cases (if_neg heq).symm.trans hslot
        rw [MgmtFrame.covered, ← hsize]
        exact hmic

end Link.Sound

/-! ## Runs -/

/-- In every run with frames of at most 65535 bytes in which numbers compare as byte strings like
they compare as numbers, broadcast management frames are accepted once and in order. -/
theorem broadcast_accepted_in_order [DecidableEq Mic] {F : MicFunctions Mic} (hF : F.Injective)
    (K : Igtk) (start : PacketNumber) {l : Link Mic}
    (hrun : ReflTransGen (GuardedStep (fun l op => Link.Lawful F K start l op ∧ l.Ordered K op)
      (Link.step F)) (K.link start) l) : l.Protected := by
  have hstep (l : Link Mic) (op : LinkOp Mic) (h : ∃ tsc rsc, l.Sound F K start tsc rsc)
      (hok : Link.Lawful F K start l op ∧ l.Ordered K op) :
      ∃ tsc rsc, (l.step F op).Sound F K start tsc rsc := by
    obtain ⟨tsc, rsc, h⟩ := h
    cases op with
    | send bfrm => exact ⟨_, _, h.send hok.1 hok.2⟩
    | deliver f => exact ⟨tsc, h.deliver hF hok.1 hok.2⟩
  obtain ⟨tsc, rsc, hsound⟩ :=
    invariant_of_guarded hstep ⟨start, start, K.sound_link F start⟩ hrun
  exact hsound.isProtected

/-! ## Runs on given inputs -/

/-- The channel brings nothing but frames that were sent. -/
def Link.Forwarded (start : PacketNumber) (l : Link Mic) : LinkOp Mic → Prop
  | .send bfrm => hdrlen ≤ bfrm.length ∧ leNum start.1 + l.count + 1 < 2 ^ 48
  | .deliver f => f ∈ l.sent

instance [DecidableEq Mic] (start : PacketNumber) (l : Link Mic) :
    (op : LinkOp Mic) → Decidable (l.Forwarded start op)
  | .send bfrm =>
    inferInstanceAs (Decidable (hdrlen ≤ bfrm.length ∧ leNum start.1 + l.count + 1 < 2 ^ 48))
  | .deliver f => inferInstanceAs (Decidable (f ∈ l.sent))

instance [DecidableEq Mic] (K : Igtk) (l : Link Mic) :
    (op : LinkOp Mic) → Decidable (l.Ordered K op)
  | .send bfrm => inferInstanceAs (Decidable (bfrm.length + 10 + K.cipher.micLen < 2 ^ 16))
  | .deliver f => inferInstanceAs (Decidable (f.size K.cipher < 2 ^ 16 ∧
      (f ∈ l.sent → ∀ mmie ∈ Mmie.read f.bytes, ∀ key ∈ l.receiver.igtkKey K.slot,
        (memCmp mmie.sequenceNumber.1 key.keyrsc.1 ≤ 0 ↔
          leNum mmie.sequenceNumber.1 ≤ leNum key.keyrsc.1))))

theorem Link.Forwarded.lawful {F : MicFunctions Mic} {K : Igtk} {start : PacketNumber}
    {l : Link Mic} {op : LinkOp Mic} (h : l.Forwarded start op) : l.Lawful F K start op := by
  cases op with
  | send bfrm => exact h
  | deliver f => exact .inl h

def symbolicMic : MicFunctions (List Byte × List Byte × List Byte) :=
  { omac1Aes128 := fun keyval buf => (keyval, [], buf)
    omac1Aes256 := fun keyval buf => (keyval, [], buf)
    aesGmac := fun keyval _ nonce buf => (keyval, nonce, buf) }

theorem symbolicMic_injective : symbolicMic.Injective where
  omac1Aes128 _ _ _ h := (Prod.mk.inj (Prod.mk.inj h).2).2
  omac1Aes256 _ _ _ h := (Prod.mk.inj (Prod.mk.inj h).2).2
  aesGmac _ _ _ _ _ _ h := Prod.mk.inj (Prod.mk.inj h).2

def zeroNumber : PacketNumber := ⟨[0, 0, 0, 0, 0, 0], rfl⟩

def exampleIgtk : Igtk :=
  { cipher := .aesCmac, keyval := List.replicate 16 7, keylen := 16, slot := 0 }

def exampleFrame (pn : PacketNumber) : MgmtFrame (List Byte × List Byte × List Byte) :=
  let bfrm := List.replicate hdrlen 0
  let bytes := bfrm ++ (exampleIgtk.mmie pn).bytes
  { bytes := bytes, mic := (exampleIgtk.keyval, [], sentBuf exampleIgtk.cipher bfrm bytes) }

/-- Two frames are sent; the second one is delivered twice, and the first one behind it. -/
def exampleOps : List (LinkOp (List Byte × List Byte × List Byte)) :=
  List.replicate 2 (.send (List.replicate hdrlen 0)) ++
    [.deliver (exampleFrame zeroNumber.next.next), .deliver (exampleFrame zeroNumber.next.next),
      .deliver (exampleFrame zeroNumber.next)]

theorem exampleOps_ordered :
    allGuarded (fun l op => Link.Forwarded zeroNumber l op ∧ Link.Ordered exampleIgtk l op)
      (Link.step symbolicMic) (exampleIgtk.link zeroNumber) exampleOps = true := by
  decide +kernel

theorem broadcast_accepted_in_order_twoFrames :
    (exampleOps.foldl (Link.step symbolicMic) (exampleIgtk.link zeroNumber)).Protected :=
  broadcast_accepted_in_order symbolicMic_injective exampleIgtk zeroNumber
    (guarded_imp (fun _ _ hok => ⟨hok.1.lawful, hok.2⟩) (guarded_foldl exampleOps_ordered))

/-- The last number but one before the carry. -/
def lateNumber : PacketNumber := ⟨[254, 0, 0, 0, 0, 0], rfl⟩

def carriedOps : List (LinkOp (List Byte × List Byte × List Byte)) :=
  List.replicate 2 (.send (List.replicate hdrlen 0)) ++
    [.deliver (exampleFrame ⟨[255, 0, 0, 0, 0, 0], rfl⟩),
      .deliver (exampleFrame ⟨[0, 1, 0, 0, 0, 0], rfl⟩)]

theorem carriedOps_forwarded :
    allGuarded (fun l op => Link.Forwarded lateNumber l op) (Link.step symbolicMic)
      (exampleIgtk.link lateNumber) carriedOps = true := by
  decide +kernel

theorem carriedOps_heard :
    (carriedOps.foldl (Link.step symbolicMic) (exampleIgtk.link lateNumber)).heard =
      [(exampleFrame ⟨[255, 0, 0, 0, 0, 0], rfl⟩, true),
        (exampleFrame ⟨[0, 1, 0, 0, 0, 0], rfl⟩, false)] := by
  decide +kernel

theorem carriedOps_sent :
    exampleFrame ⟨[0, 1, 0, 0, 0, 0], rfl⟩ ∈
      (carriedOps.foldl (Link.step symbolicMic) (exampleIgtk.link lateNumber)).sent := by
  decide +kernel

/-- Where the number carries into its second byte, the next frame is refused. -/
theorem carried_number_refused :
    ¬∀ {Mic : Type} [DecidableEq Mic] {F : MicFunctions Mic}, F.Injective →
      ∀ (K : Igtk) (start : PacketNumber) {l : Link Mic},
        ReflTransGen (GuardedStep (Link.Lawful F K start) (Link.step F)) (K.link start) l →
          l.Protected := by
  intro hall
  have hrun := guarded_imp (fun _ _ => @Link.Forwarded.lawful _ symbolicMic exampleIgtk _ _ _)
    (guarded_foldl carriedOps_forwarded)
  have hfresh := (hall symbolicMic_injective exampleIgtk lateNumber hrun).fresh
    [(exampleFrame ⟨[255, 0, 0, 0, 0, 0], rfl⟩, true)] _ _ [] carriedOps_heard carriedOps_sent
    (by decide +kernel)
  cases hfresh

end QcomModules.Wlan
