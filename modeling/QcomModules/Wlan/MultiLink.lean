import Mathlib
import QcomModules.Library.BitFields
import QcomModules.Library.ByteMemory

/-! The Multi-Link element of a link-specific probe response: how `utils_mlo.c` parses the Common
Info field, and how it builds the element from the one of the reporting station. -/

namespace QcomModules.Wlan.MultiLink

open Library List

inductive QdfStatus where
  | eNullValue
  | eInval
  | eProto
  | eNomem
deriving DecidableEq, Repr

/-! ## Parsing -/

/-- `sizeof(struct wlan_ie_multilink)`: the element header, the extension and the Control field. -/
def sizeofIeMultilink : ℕ := 5

def sizeofIeHeader : ℕ := 2

def wlanMlCtrlSize : ℕ := 2

def wlanMlBvCinfoLengthSize : ℕ := 1

def qdfMacAddrSize : ℕ := 6

def wlanElemidExtnElem : Byte := 255

def wlanExtnElemidMultiLink : Byte := 107

/-- `BIT(0)` -/
def wlanMlBvCtrlPbmLinkidinfoP : BitVec 16 := 1

/-- The masks of the presence bitmap, and the sizes of the subfields that they announce: Link ID
Info, BSS Parameters Change Count, Medium Synchronization Delay, EML Capabilities, MLD
Capabilities, MLD ID and Extended MLD Capabilities. -/
def cinfoSubfields : List (BitVec 16 × ℕ) :=
  [(wlanMlBvCtrlPbmLinkidinfoP, 1), (2, 1), (4, 2), (8, 2), (16, 2), (32, 1), (64, 2)]

def mlControl (payload : List Byte) : BitVec 16 := word16 (payload.getD 0 0) (payload.getD 1 0)

def presenceBitmap (payload : List Byte) : BitVec 16 := getBits (mlControl payload) 4 12

def cinfoLength (payload : List Byte) : ℕ := (payload.getD wlanMlCtrlSize 0).toNat

/-- The length that has been parsed behind the subfields that are present. -/
def skipSubfields (payloadLen : ℕ) (presence : BitVec 16) :
    List (BitVec 16 × ℕ) → ℕ → Except QdfStatus ℕ
  | [], parsed => .ok parsed
  | (mask, size) :: fields, parsed =>
    if presence &&& mask = 0 then skipSubfields payloadLen presence fields parsed
    else if payloadLen < parsed + size then .error .eProto
    else skipSubfields payloadLen presence fields (parsed + size)

/-- The Link Info, behind the payload's Control field and Common Info. -/
def utilParseMultiLinkCtrl (payload : List Byte) : Except QdfStatus (List Byte) :=
  if payload.length = 0 then .error .eInval
  else if payload.length < wlanMlCtrlSize then .error .eProto
  else if payload.length < wlanMlCtrlSize + wlanMlBvCinfoLengthSize then .error .eProto
  else if payload.length - wlanMlCtrlSize < cinfoLength payload then .error .eProto
  else if payload.length < wlanMlCtrlSize + wlanMlBvCinfoLengthSize + qdfMacAddrSize then
    .error .eProto
  else do
    let parsed ← skipSubfields payload.length (presenceBitmap payload) cinfoSubfields
      (wlanMlCtrlSize + wlanMlBvCinfoLengthSize + qdfMacAddrSize)
    let expCinfoLen := parsed - wlanMlCtrlSize
    if cinfoLength payload < expCinfoLen then .error .eProto
    else .ok (payload.drop (parsed + (cinfoLength payload - expCinfoLen)))

/-- The length of the Common Info of a basic Multi-Link element. -/
def utilGetMlieCommonInfoLen (mlieseq : List Byte) (mlieseqlen : ℕ) : Except QdfStatus ℕ :=
  if mlieseqlen = 0 then .error .eNullValue
  else if mlieseqlen < sizeofIeMultilink then .error .eInval
  else if mlieseq.getD 0 0 ≠ wlanElemidExtnElem ∨ mlieseq.getD 2 0 ≠ wlanExtnElemidMultiLink then
    .error .eInval
  else if getBits (mlControl (mlieseq.drop 3)) 0 3 ≠ 0 then .error .eInval
  else if sizeofIeMultilink + wlanMlBvCinfoLengthSize + qdfMacAddrSize > mlieseqlen then
    .error .eProto
  else .ok (mlieseq.getD sizeofIeMultilink 0).toNat

/-! ## Building -/

/-- The frame that is generated: what has been written of it, and its length so far. -/
structure LinkFrame where
  written : List Byte
  currlen : BitVec 64
deriving DecidableEq

/-- The element that is added, of `mlieLen` octets, before the link ID goes into it. -/
def mlieFrame (reportingstaIe : List Byte) (mlieLen : ℕ) : List Byte :=
  let mlcontrol := mlControl (reportingstaIe.drop 3)
  -- `qdf_set_bit` takes the number of a bit, and is given the mask
  let presencebm := getBits mlcontrol 4 12 ||| BitVec.twoPow 16 wlanMlBvCtrlPbmLinkidinfoP.toNat
  [reportingstaIe.getD 0 0, BitVec.ofNat 8 (mlieLen - sizeofIeHeader), reportingstaIe.getD 2 0] ++
    bytes16 (setBits mlcontrol 4 12 presencebm) ++
      (reportingstaIe.drop sizeofIeMultilink).take (mlieLen - sizeofIeMultilink)

def putLinkId (octet linkid : Byte) : Byte := (octet &&& ~~~15) ||| (linkid &&& 15)

/-- The length of the element is an octet; there may be no memory for it. -/
def utilAddMlieForPrbRspGen (reportingstaIe : List Byte) (reportingstaIeLen : ℕ)
    (frame : LinkFrame) (linkFrameMaxsize : BitVec 64) (linkid : Byte) (memory : Bool) :
    Except QdfStatus LinkFrame := do
  let linkIdOffset := sizeofIeMultilink + qdfMacAddrSize + wlanMlBvCinfoLengthSize
  let commonInfoLen ← utilGetMlieCommonInfoLen reportingstaIe reportingstaIeLen
  if commonInfoLen > reportingstaIeLen ∨ reportingstaIeLen - commonInfoLen < sizeofIeMultilink then
    -- the status is that of the call above
    return frame
  let mlieLen := (commonInfoLen + sizeofIeMultilink) % 2 ^ 8
  if (linkFrameMaxsize - frame.currlen).toNat < mlieLen then throw .eNomem
  if ¬ memory then throw .eNomem
  let mlie := mlieFrame reportingstaIe mlieLen
  if linkid = 0xFF ∨ mlieLen ≤ linkIdOffset then throw .eInval
  let mlie := mlie.set linkIdOffset (putLinkId (mlie.getD linkIdOffset 0) linkid)
  return { written := frame.written ++ mlie, currlen := frame.currlen + BitVec.ofNat 64 mlieLen }

/-! ## Elements -/

/-- A basic Multi-Link element with Link ID Info: the payload behind the element ID extension, which
begins in the first fragment, with all of the Common Info there. -/
structure MlElement where
  first : List Byte
  more : List Byte
  short : first.length ≤ 254
  full : more ≠ [] → first.length = 254
  accepted : ∃ linkInfo, utilParseMultiLinkCtrl (first ++ more) = .ok linkInfo
  basic : getBits (mlControl first) 0 3 = 0
  linkIdInfo : presenceBitmap first &&& wlanMlBvCtrlPbmLinkidinfoP ≠ 0
  contained : wlanMlCtrlSize + cinfoLength first ≤ first.length

namespace MlElement

def elemLen (e : MlElement) : ℕ := 1 + e.first.length

def bytes (e : MlElement) : List Byte :=
  [wlanElemidExtnElem, BitVec.ofNat 8 e.elemLen, wlanExtnElemidMultiLink] ++ e.first

end MlElement

def findSubfield (presence mask : BitVec 16) :
    List (BitVec 16 × ℕ) → List Byte → Option (List Byte)
  | [], _ => none
  | (m, size) :: fields, bytes =>
    if presence &&& m = 0 then findSubfield presence mask fields bytes
    else if m = mask then some (bytes.take size)
    else findSubfield presence mask fields (bytes.drop size)

def mldMacAddr (payload : List Byte) : List Byte :=
  (payload.drop (wlanMlCtrlSize + wlanMlBvCinfoLengthSize)).take qdfMacAddrSize

def cinfoSubfield (payload : List Byte) (mask : BitVec 16) : Option (List Byte) :=
  findSubfield (presenceBitmap payload) mask cinfoSubfields
    (payload.drop (wlanMlCtrlSize + wlanMlBvCinfoLengthSize + qdfMacAddrSize))

/-! ## What is parsed -/

def subfieldsLen (presence : BitVec 16) : List (BitVec 16 × ℕ) → ℕ
  | [] => 0
  | (mask, size) :: fields =>
    (if presence &&& mask = 0 then 0 else size) + subfieldsLen presence fields

section Parse

variable {payload linkInfo bytes : List Byte} {presence mask : BitVec 16} {len parsed m : ℕ}
  {fields : List (BitVec 16 × ℕ)}

theorem skipSubfields_eq (h : parsed ≤ len) :
    skipSubfields len presence fields parsed =
      if len < parsed + subfieldsLen presence fields then .error .eProto
      else .ok (parsed + subfieldsLen presence fields) := by
  induction fields generalizing parsed with
  | nil => rw [skipSubfields, subfieldsLen, Nat.add_zero, if_neg (by omega)]
  | cons field fields ih =>
      obtain ⟨mask, size⟩ := field
      rw [skipSubfields, subfieldsLen]
      by_cases hmask : presence &&& mask = 0
      · rw [if_pos hmask, if_pos hmask, ih h, Nat.zero_add]
      · rw [if_neg hmask, if_neg hmask]
        by_cases hsize : len < parsed + size
        · rw [if_pos hsize, if_pos (by omega)]
        · rw [if_neg hsize, ih (by omega), Nat.add_assoc]

theorem parse_ok_iff : utilParseMultiLinkCtrl payload = .ok linkInfo ↔
    2 + cinfoLength payload ≤ payload.length ∧
      7 + subfieldsLen (presenceBitmap payload) cinfoSubfields ≤ cinfoLength payload ∧
      linkInfo = payload.drop (2 + cinfoLength payload) := by
  have hctrl : wlanMlCtrlSize = 2 := rfl
  have hlength : wlanMlBvCinfoLengthSize = 1 := rfl
  have hmac : qdfMacAddrSize = 6 := rfl
  rw [utilParseMultiLinkCtrl]
  by_cases hempty : payload.length = 0
  · rw [if_pos hempty]
    exact iff_of_false nofun (by omega)
  by_cases hcontrol : payload.length < wlanMlCtrlSize
  · rw [if_neg hempty, if_pos hcontrol]
    exact iff_of_false nofun (by omega)
  by_cases hcinfo : payload.length < wlanMlCtrlSize + wlanMlBvCinfoLengthSize
  · rw [if_neg hempty, if_neg hcontrol, if_pos hcinfo]
    exact iff_of_false nofun (by omega)
  by_cases hheld : payload.length - wlanMlCtrlSize < cinfoLength payload
  · rw [if_neg hempty, if_neg hcontrol, if_neg hcinfo, if_pos hheld]
    exact iff_of_false nofun (by omega)
  by_cases haddr : payload.length < wlanMlCtrlSize + wlanMlBvCinfoLengthSize + qdfMacAddrSize
  · rw [if_neg hempty, if_neg hcontrol, if_neg hcinfo, if_neg hheld, if_pos haddr]
    exact iff_of_false nofun (by omega)
  rw [if_neg hempty, if_neg hcontrol, if_neg hcinfo, if_neg hheld, if_neg haddr,
    skipSubfields_eq (by omega)]
  split
  · exact iff_of_false nofun (by omega)
  · simp only [bind, Except.bind]
    split
    · exact iff_of_false nofun (by omega)
    · rw [Except.ok.injEq, eq_comm, show wlanMlCtrlSize + wlanMlBvCinfoLengthSize +
        qdfMacAddrSize + subfieldsLen (presenceBitmap payload) cinfoSubfields +
          (cinfoLength payload - (wlanMlCtrlSize + wlanMlBvCinfoLengthSize + qdfMacAddrSize +
            subfieldsLen (presenceBitmap payload) cinfoSubfields - wlanMlCtrlSize)) =
        2 + cinfoLength payload by omega]
      exact ⟨fun h => ⟨by omega, by omega, h⟩, fun h => h.2.2⟩

theorem findSubfield_take (h : subfieldsLen presence fields ≤ m) :
    findSubfield presence mask fields (bytes.take m) = findSubfield presence mask fields bytes := by
  induction fields generalizing bytes m with
  | nil => rfl
  | cons field fields ih =>
      obtain ⟨mask', size⟩ := field
      rw [subfieldsLen] at h
      rw [findSubfield, findSubfield]
      by_cases hmask : presence &&& mask' = 0
      · rw [if_pos hmask] at h
        rw [if_pos hmask, if_pos hmask, ih (by omega)]
      · rw [if_neg hmask] at h
        rw [if_neg hmask, if_neg hmask]
        by_cases heq : mask' = mask
        · rw [if_pos heq, if_pos heq, take_take, Nat.min_eq_left (by omega)]
        · rw [if_neg heq, if_neg heq, drop_take, ih (by omega)]

end Parse

end QcomModules.Wlan.MultiLink
