import QcomModules.Library.LittleEndian
import QcomModules.Wlan.CryptoParams

/-! The management MIC element of broadcast management frames: `wlan_crypto_add_mmie` appends it
with the next packet number of the IGTK, and `wlan_crypto_is_mmie_valid` checks it and remembers
the number. -/

namespace QcomModules.Wlan

open Library List

variable {Mic : Type}

/-! ## Keys -/

/-- The six bytes of a packet number, least significant byte first. -/
abbrev PacketNumber := {bytes : List Byte // bytes.length = 6}

/-- `PN = PN + 1` -/
def PacketNumber.next (pn : PacketNumber) : PacketNumber :=
  ⟨incBytes pn.1, (length_incBytes pn.1).trans pn.2⟩

structure WlanCryptoKey where
  keylen : Byte
  keyix : BitVec 16
  keyval : List Byte
  /-- The low six bytes of `keytsc`. -/
  keytsc : PacketNumber
  /-- The first six bytes of `keyrsc`. -/
  keyrsc : PacketNumber

scoped instance neZero_igtkKeys : NeZero 2 := ⟨by decide⟩

structure WlanCryptoKeys where
  igtkKey : Fin 2 → Option WlanCryptoKey
  igtkKeyType : CipherType
  defIgtkTxKeyid : BitVec 8

def WlanCryptoKeys.setIgtk (keys : WlanCryptoKeys) (slot : Fin 2) (key : WlanCryptoKey) :
    WlanCryptoKeys :=
  { keys with igtkKey := Function.update keys.igtkKey slot (some key) }

/-- The MIC functions: `omac1_aes_128`, of which eight bytes are used, `omac1_aes_256` and
`wlan_crypto_aes_gmac`. -/
structure MicFunctions (Mic : Type) where
  omac1Aes128 : (keyval buf : List Byte) → Mic
  omac1Aes256 : (keyval buf : List Byte) → Mic
  aesGmac : (keyval : List Byte) → (keylen : Byte) → (nonce buf : List Byte) → Mic

/-- With a key, different inputs have different MICs. -/
structure MicFunctions.Injective (F : MicFunctions Mic) : Prop where
  omac1Aes128 (keyval : List Byte) : (F.omac1Aes128 keyval).Injective
  omac1Aes256 (keyval : List Byte) : (F.omac1Aes256 keyval).Injective
  aesGmac (keyval : List Byte) (keylen : Byte) : (F.aesGmac keyval keylen).Injective2

def MicFunctions.mic (F : MicFunctions Mic) (type : CipherType) (keyval : List Byte)
    (keylen : Byte) (nonce buf : List Byte) : Option Mic :=
  match type with
  | .aesCmac => some (F.omac1Aes128 keyval buf)
  | .aesCmac256 => some (F.omac1Aes256 keyval buf)
  | .aesGmac | .aesGmac256 => some (F.aesGmac keyval keylen nonce buf)
  | _ => none

theorem MicFunctions.Injective.buf_eq {F : MicFunctions Mic} (hF : F.Injective) {type : CipherType}
    {keyval : List Byte} {keylen : Byte} {nonce nonce' buf buf' : List Byte} {mic : Mic}
    (h : F.mic type keyval keylen nonce buf = some mic)
    (h' : F.mic type keyval keylen nonce' buf' = some mic) : buf = buf' := by
  have hmics := h.trans h'.symm
  cases type with
  | aesCmac => exact hF.omac1Aes128 _ (Option.some.inj hmics)
  | aesCmac256 => exact hF.omac1Aes256 _ (Option.some.inj hmics)
  | aesGmac => exact (hF.aesGmac _ _ (Option.some.inj hmics)).2
  | aesGmac256 => exact (hF.aesGmac _ _ (Option.some.inj hmics)).2
  | _ => cases h

/-! ## Frames -/

def CipherType.micLen (type : CipherType) : ℕ := if type = .aesCmac then 8 else 16

/-- `sizeof(struct wlan_frame_hdr)` -/
def hdrlen : ℕ := 24

/-- A frame on the air: all bytes before the MIC, and the MIC at its end. -/
structure MgmtFrame (Mic : Type) where
  bytes : List Byte
  mic : Mic
  deriving DecidableEq

def MgmtFrame.size (type : CipherType) (f : MgmtFrame Mic) : ℕ := f.bytes.length + type.micLen

def iAddr1 (frm : List Byte) : List Byte := (frm.drop 4).take 6

def iAddr2 (frm : List Byte) : List Byte := (frm.drop 10).take 6

def iAddr3 (frm : List Byte) : List Byte := (frm.drop 16).take 6

/-- `WLAN_FC1_RETRY | WLAN_FC1_PWRMGT | WLAN_FC1_MOREDATA` -/
def maskedFc1 : Byte := 0x08 ||| 0x10 ||| 0x20

/-- The additional data of a frame: the frame control without the flags that may change, and the
three addresses. -/
def bipAad (frm : List Byte) : List Byte :=
  [frm.getD 0 0, frm.getD 1 0 &&& ~~~maskedFc1] ++ iAddr1 frm ++ iAddr2 frm ++ iAddr3 frm

/-- The second address and the packet number with its most significant byte first. -/
def gmacNonce (frm : List Byte) (pn : PacketNumber) : List Byte := iAddr2 frm ++ pn.1.reverse

/-- `struct wlan_crypto_mmie` before its MIC. -/
structure Mmie where
  elementId : Byte
  length : Byte
  keyId : BitVec 16
  sequenceNumber : PacketNumber

def Mmie.bytes (m : Mmie) : List Byte :=
  [m.elementId, m.length] ++ bytes16 m.keyId ++ m.sequenceNumber.1

/-- The element at the end of a frame. -/
def Mmie.read (frm : List Byte) : Option Mmie :=
  match frm.drop (frm.length - 10) with
  | [e, l, k₀, k₁, p₀, p₁, p₂, p₃, p₄, p₅] =>
    some ⟨e, l, word16 k₀ k₁, [p₀, p₁, p₂, p₃, p₄, p₅], rfl⟩
  | _ => none

@[simp] theorem Mmie.length_bytes (m : Mmie) : m.bytes.length = 10 := by
  rw [Mmie.bytes, length_append, length_append, m.sequenceNumber.2]
  rfl

theorem Mmie.read_append (frm : List Byte) (m : Mmie) : Mmie.read (frm ++ m.bytes) = some m := by
  have hend : (frm ++ m.bytes).length - 10 = frm.length := by
    rw [length_append, m.length_bytes, Nat.add_sub_cancel]
  rw [Mmie.read, hend, drop_left]
  obtain ⟨e, l, keyId, bytes, hlen⟩ := m
  obtain ⟨p₀, p₁, p₂, p₃, p₄, p₅, rfl⟩ : ∃ p₀ p₁ p₂ p₃ p₄ p₅, bytes = [p₀, p₁, p₂, p₃, p₄, p₅] := by
    match bytes, hlen with
    | [p₀, p₁, p₂, p₃, p₄, p₅], _ => exact ⟨p₀, p₁, p₂, p₃, p₄, p₅, rfl⟩
  have hkey := (bytes16_eq_iff keyId _ _).1 rfl
  simp only [Mmie.bytes, bytes16, cons_append, nil_append, ← hkey]

def MgmtFrame.ipn (f : MgmtFrame Mic) : ℕ :=
  match Mmie.read f.bytes with
  | some mmie => leNum mmie.sequenceNumber.1
  | none => 0

/-! ## Sending -/

def elemidMmie : Byte := 76

def maxKeyidx : BitVec 16 := 4

def maxIgtkKeyidx : BitVec 16 := 2

/-- The buffer the sender computes the MIC of: the additional data, the frame behind its header and
the element with a MIC of zeros. -/
def sentBuf (type : CipherType) (bfrm frm : List Byte) : List Byte :=
  bipAad bfrm ++ (frm.drop hdrlen ++ List.replicate type.micLen 0)

/-- Append the element to a frame, with the next packet number of the default IGTK. -/
def addMmie (F : MicFunctions Mic) (keys : WlanCryptoKeys) (bfrm : List Byte) :
    WlanCryptoKeys × Option (MgmtFrame Mic) :=
  if hid : keys.defIgtkTxKeyid.toNat < 2 then
    let slot : Fin 2 := ⟨keys.defIgtkTxKeyid.toNat, hid⟩
    match keys.igtkKey slot with
    | none => (keys, none)
    | some key =>
      let type := keys.igtkKeyType
      let pn := key.keytsc.next
      let mmie : Mmie :=
        { elementId := elemidMmie, length := if type.micLen = 8 then 24 - 8 else 24,
          keyId := key.keyix, sequenceNumber := pn }
      let frm := bfrm ++ mmie.bytes
      let nonce := gmacNonce bfrm pn
      let mic := F.mic type key.keyval key.keylen nonce (sentBuf type bfrm frm)
      (keys.setIgtk slot { key with keytsc := pn }, mic.map fun mic => ⟨frm, mic⟩)
  else
    (keys, none)

/-! ## Receiving -/

variable [DecidableEq Mic]

def zeroTail (n : ℕ) (buf : List Byte) : List Byte :=
  buf.take (buf.length - n) ++ List.replicate n 0

/-- The buffer the receiver computes the MIC of, for a frame of the given length. -/
def heardBuf (type : CipherType) (frm : List Byte) (len : ℕ) : List Byte :=
  let raw := frm ++ List.replicate type.micLen 0
  zeroTail type.micLen (bipAad frm ++ (raw.drop hdrlen).take (len - hdrlen))

/-- Check the element of a frame: its key, its number against the last one, and its MIC. There is
no result where bytes outside of the frame are read or written. -/
def isMmieValid (F : MicFunctions Mic) (keys : WlanCryptoKeys) (f : MgmtFrame Mic) :
    Option (WlanCryptoKeys × Bool) :=
  let type := keys.igtkKeyType
  if f.size type < hdrlen then
    some (keys, false)
  else
    -- `len` is an `uint16_t`
    let len := f.size type % 2 ^ 16
    match Mmie.read f.bytes with
    | none => none
    | some mmie =>
      if mmie.elementId ≠ elemidMmie then
        some (keys, false)
      else if maxKeyidx + maxIgtkKeyidx ≤ mmie.keyId ∨ mmie.keyId < maxKeyidx then
        some (keys, false)
      else
        let slot := Fin.ofNat 2 (mmie.keyId - maxKeyidx).toNat
        match keys.igtkKey slot with
        | none => some (keys, false)
        | some key =>
          let ipn := mmie.sequenceNumber
          if memCmp ipn.1 key.keyrsc.1 ≤ 0 then
            some (keys, false)
          else if len < hdrlen then
            none
          else
            let nonce := gmacNonce f.bytes ipn
            let buf := heardBuf type f.bytes len
            match F.mic type key.keyval key.keylen nonce buf with
            | none => some (keys, false)
            | some mic =>
              if mic ≠ f.mic then
                some (keys, false)
              else
                some (keys.setIgtk slot { key with keyrsc := ipn }, true)

/-- A call keeps the keys and refuses the frame, or accepts it with a number behind the last one
and a MIC that holds. -/
theorem isMmieValid_cases {F : MicFunctions Mic} {keys keys' : WlanCryptoKeys} {f : MgmtFrame Mic}
    {valid : Bool} (h : isMmieValid F keys f = some (keys', valid)) :
    (valid = false ∧ keys' = keys) ∨
      (valid = true ∧ ∃ mmie slot key, Mmie.read f.bytes = some mmie ∧
        keys.igtkKey slot = some key ∧ 0 < memCmp mmie.sequenceNumber.1 key.keyrsc.1 ∧
        F.mic keys.igtkKeyType key.keyval key.keylen (gmacNonce f.bytes mmie.sequenceNumber)
          (heardBuf keys.igtkKeyType f.bytes (f.size keys.igtkKeyType % 2 ^ 16)) = some f.mic ∧
        keys' = keys.setIgtk slot { key with keyrsc := mmie.sequenceNumber }) := by
  have refused {keys' : WlanCryptoKeys} {valid : Bool}
      (h : some (keys, false) = some (keys', valid)) : valid = false ∧ keys' = keys := by
    cases h
    exact ⟨rfl, rfl⟩
  rw [isMmieValid] at h
  dsimp only at h
  split at h
  · exact .inl (refused h)
  · cases hread : Mmie.read f.bytes with
    | none =>
      rw [hread] at h
      cases h
    | some mmie =>
      rw [hread] at h
      dsimp only at h
      split at h
      · exact .inl (refused h)
      · split at h
        · exact .inl (refused h)
        · split at h
          · exact .inl (refused h)
          · rename_i key hkey
            split at h
            · exact .inl (refused h)
            · rename_i hnewer
              split at h
              · cases h
              · split at h
                · exact .inl (refused h)
                · rename_i mic hmic
                  split at h
                  · exact .inl (refused h)
                  · rename_i hsame
                    cases h
                    rw [not_not.mp hsame] at hmic
                    exact .inr ⟨rfl, mmie, _, key, rfl, hkey, not_le.mp hnewer, hmic, rfl⟩

variable {bfrm : List Byte}

theorem bipAad_append (h : hdrlen ≤ bfrm.length) (bs : List Byte) :
    bipAad (bfrm ++ bs) = bipAad bfrm := by
  have hfield (i : ℕ) (hi : i + 6 ≤ hdrlen) :
      ((bfrm ++ bs).drop i).take 6 = (bfrm.drop i).take 6 := by
    rw [drop_append_of_le_length (by omega),
      take_append_of_le_length (by rw [length_drop]; omega)]
  have hbyte (i : ℕ) (hi : i < hdrlen) : (bfrm ++ bs).getD i 0 = bfrm.getD i 0 :=
    getD_append _ _ _ _ (Nat.lt_of_lt_of_le hi h)
  rw [bipAad, bipAad, iAddr1, iAddr1, iAddr2, iAddr2, iAddr3, iAddr3, hfield 4 (by decide),
    hfield 10 (by decide), hfield 16 (by decide), hbyte 0 (by decide), hbyte 1 (by decide)]

theorem zeroTail_append (buf : List Byte) (n : ℕ) :
    zeroTail n (buf ++ List.replicate n 0) = buf ++ List.replicate n 0 := by
  rw [zeroTail, length_append, length_replicate, Nat.add_sub_cancel, take_left]

theorem heardBuf_append (type : CipherType) (h : hdrlen ≤ bfrm.length) (bs : List Byte) :
    heardBuf type (bfrm ++ bs) ((bfrm ++ bs).length + type.micLen) =
      sentBuf type bfrm (bfrm ++ bs) := by
  have hhdr : hdrlen ≤ (bfrm ++ bs).length := by
    rw [length_append]
    omega
  rw [heardBuf, sentBuf, drop_append_of_le_length hhdr, take_of_length_le,
    bipAad_append h, ← append_assoc, zeroTail_append, append_assoc]
  rw [length_append, length_drop, length_replicate]
  omega

end QcomModules.Wlan
