import Mathlib
import QcomModules.Library.BitFields
import QcomModules.Library.ByteMemory

/-! TID-to-link mapping action frames, as they are written and as they are parsed. -/

namespace QcomModules.Wlan

open Library

/-! ## Mapping information -/

/-- `enum wlan_t2lm_direction`. No direction stands for `WLAN_T2LM_INVALID_DIRECTION`. -/
inductive T2lmDirection where
  | dl
  | ul
  | bidi
  deriving DecidableEq

/-- The directions in the order of the loops over them. -/
def t2lmDirections : List T2lmDirection := [.dl, .ul, .bidi]

def t2lmDirectionValue : Option T2lmDirection → BitVec 16
  | some .dl => 0
  | some .ul => 1
  | some .bidi => 2
  | none => 4

structure T2lmInfo where
  direction : Option T2lmDirection
  defaultLinkMapping : Bool
  mappingSwitchTimePresent : Bool
  expectedDurationPresent : Bool
  mappingSwitchTime : BitVec 16
  expectedDuration : BitVec 32
  ieeeLinkMapTid : Fin 8 → BitVec 16
  hwLinkMapTid : Fin 8 → BitVec 16
  /-- One octet for each link map, not two. -/
  linkMappingSize : Bool

/-- `qdf_mem_zero` -/
def T2lmInfo.zero : T2lmInfo where
  direction := some .dl
  defaultLinkMapping := false
  mappingSwitchTimePresent := false
  expectedDurationPresent := false
  mappingSwitchTime := 0
  expectedDuration := 0
  ieeeLinkMapTid := fun _ => 0
  hwLinkMapTid := fun _ => 0
  linkMappingSize := false

inductive T2lmCategory where
  | none
  | request
  | response
  | teardown
  | invalid
  deriving DecidableEq

/-- `struct wlan_t2lm_onging_negotiation_info` -/
structure T2lmNegotiation where
  category : T2lmCategory
  dialogToken : Byte
  t2lmInfo : T2lmDirection → T2lmInfo
  t2lmRespType : BitVec 16

def T2lmNegotiation.zero : T2lmNegotiation where
  category := .none
  dialogToken := 0
  t2lmInfo := fun _ => .zero
  t2lmRespType := 0

/-- `t2lm_info[dir].direction = WLAN_T2LM_INVALID_DIRECTION`, for every direction. -/
def T2lmNegotiation.invalidate (t2lm : T2lmNegotiation) : T2lmNegotiation :=
  { t2lm with t2lmInfo := fun dir => { t2lm.t2lmInfo dir with direction := none } }

/-- There is an entry for both directions and one for either. -/
def T2lmNegotiation.Clashes (t2lm : T2lmNegotiation) : Prop :=
  ((t2lm.t2lmInfo .dl).direction = some .dl ∨ (t2lm.t2lmInfo .ul).direction = some .ul) ∧
    (t2lm.t2lmInfo .bidi).direction = some .bidi

instance (t2lm : T2lmNegotiation) : Decidable t2lm.Clashes := inferInstanceAs (Decidable (_ ∧ _))

/-! ## Writing -/

def elemidExtnElem : Byte := 255

def extnElemidT2lm : Byte := 109

/-- `WLAN_T2LM_RESP_TYPE_PREFERRED_TID_TO_LINK_MAPPING` -/
def respTypePreferred : ℕ := 134

/-- The control field, up to the presence indicator. -/
def t2lmControl (t2lm : T2lmInfo) : BitVec 16 :=
  let control := setBits 0 0 2 (t2lmDirectionValue t2lm.direction)
  let control := setBits control 2 1 (flagBit 16 t2lm.defaultLinkMapping)
  let control := setBits control 3 1 (flagBit 16 t2lm.mappingSwitchTimePresent)
  let control := setBits control 4 1 (flagBit 16 t2lm.expectedDurationPresent)
  setBits control 5 1 (flagBit 16 t2lm.linkMappingSize)

/-- The TIDs that the presence indicator names: those with a hardware or an IEEE link map. -/
def linkMappingPresence (t2lm : T2lmInfo) : BitVec 16 :=
  (List.finRange 8).foldl (fun presence tid =>
    if t2lm.hwLinkMapTid tid ≠ 0 ∨ t2lm.ieeeLinkMapTid tid ≠ 0 then
      presence ||| BitVec.twoPow 16 tid
    else presence) 0

def linkMapSize (oneOctet : Bool) : ℕ := if oneOctet then 1 else 2

/-- The link map of a TID, which is written only if there is an IEEE one. -/
def linkMapBytes (t2lm : T2lmInfo) (tid : Fin 8) : List Byte :=
  if t2lm.ieeeLinkMapTid tid = 0 then []
  else if t2lm.linkMappingSize then [(t2lm.ieeeLinkMapTid tid).setWidth 8]
  else bytes16 (t2lm.ieeeLinkMapTid tid)

/-- The control field is one octet when the default mapping is set. -/
def t2lmControlBytes (t2lm : T2lmInfo) : List Byte :=
  if t2lm.defaultLinkMapping then [(t2lmControl t2lm).setWidth 8]
  else bytes16 (setBits (t2lmControl t2lm) 8 8 (linkMappingPresence t2lm))

def durationBytes (t2lm : T2lmInfo) : List Byte :=
  if t2lm.expectedDurationPresent then (bytes32 t2lm.expectedDuration).take 3 else []

def linkMapsBytes (t2lm : T2lmInfo) : List Byte :=
  if t2lm.defaultLinkMapping then [] else (List.finRange 8).flatMap (linkMapBytes t2lm)

/-- `wlan_mlo_add_t2lm_info_ie`. The switch time is that of the vdev, if there is one. -/
def addT2lmInfoIe (t2lm : T2lmInfo) (vdevSwitchTime : Option (BitVec 16)) : List Byte :=
  let body (switchTime : List Byte) : List Byte :=
    t2lmControlBytes t2lm ++ switchTime ++ durationBytes t2lm ++ linkMapsBytes t2lm
  let element (body : List Byte) : List Byte :=
    [elemidExtnElem, BitVec.ofNat 8 (1 + body.length), extnElemidT2lm] ++ body
  if t2lm.mappingSwitchTimePresent then
    match vdevSwitchTime with
    | none => []
    | some time => element (body (bytes16 time))
  else element (body [])

/-- The entries with a direction, in the order of the directions. -/
def addT2lmIe (t2lm : T2lmNegotiation) (vdevSwitchTime : Option (BitVec 16)) :
    Option (List Byte) :=
  if t2lm.Clashes then none
  else some <| t2lmDirections.flatMap fun dir =>
    if (t2lm.t2lmInfo dir).direction ≠ none then addT2lmInfoIe (t2lm.t2lmInfo dir) vdevSwitchTime
    else []

structure ActionFrameArgs where
  category : Byte
  action : Byte
  arg1 : BitVec 32
  arg2 : BitVec 32

def addT2lmRequestActionFrame (args : ActionFrameArgs) (t2lm : T2lmNegotiation) :
    Option (List Byte) :=
  (addT2lmIe t2lm none).map fun ie => [args.category, args.action, args.arg1.setWidth 8] ++ ie

def addT2lmResponseActionFrame (args : ActionFrameArgs) (t2lm : T2lmNegotiation) :
    Option (List Byte) :=
  let frm := [args.category, args.action, args.arg1.setWidth 8] ++ bytes16 (args.arg2.setWidth 16)
  if args.arg2.toNat = respTypePreferred then (addT2lmIe t2lm none).map fun ie => frm ++ ie
  else some frm

def addT2lmActionFrame (args : ActionFrameArgs) (t2lm : T2lmNegotiation) :
    T2lmCategory → Option (List Byte)
  | .request => addT2lmRequestActionFrame args t2lm
  | .response => addT2lmResponseActionFrame args t2lm
  | .teardown => some [args.category, args.action]
  | _ => some []

/-! ## Parsing -/

inductive T2lmStatus where
  | success
  | nullValue
  | proto
  | failure
  deriving DecidableEq

/-- Where the parser is, and how much of the element it has parsed. -/
structure T2lmCursor where
  ptr : ℕ
  parsed : ℕ

def T2lmCursor.skip (c : T2lmCursor) (ieLen size : ℕ) : Except T2lmStatus T2lmCursor :=
  if ieLen < c.parsed + size then .error .proto
  else .ok { ptr := c.ptr + size, parsed := c.parsed + size }

def readDuration (m : Library.Mem) (ptr : ℕ) : BitVec 32 :=
  word32 (m ptr) (m (ptr + 1)) (m (ptr + 2)) 0

def t2lmDirectionOf (value : BitVec 16) : Option T2lmDirection :=
  if value = 0 then some .dl
  else if value = 1 then some .ul
  else if value = 2 then some .bidi
  else none

/-- The control field, with one octet if the element has no more. -/
def readT2lmControl (m : Library.Mem) (field ieLen : ℕ) : BitVec 16 :=
  if 2 < ieLen then m.read16 field else (m field).setWidth 16

/-- The loop over the TIDs. -/
def parseLinkMaps (m : Library.Mem) (ieLen : ℕ) (oneOctet : Bool) (presence : BitVec 16) :
    List (Fin 8) → T2lmCursor → (Fin 8 → BitVec 16) →
      Except T2lmStatus (T2lmCursor × (Fin 8 → BitVec 16))
  | [], c, maps => .ok (c, maps)
  | tid :: tids, c, maps =>
    if presence &&& BitVec.twoPow 16 tid = 0 then
      parseLinkMaps m ieLen oneOctet presence tids c maps
    else do
      let next ← c.skip ieLen (if oneOctet then 1 else 2)
      let map := if oneOctet then (m c.ptr).setWidth 16 else m.read16 c.ptr
      parseLinkMaps m ieLen oneOctet presence tids next (Function.update maps tid map)

/-- What the control field says, with nothing else known. -/
def t2lmInfoOf (dir : T2lmDirection) (control : BitVec 16) : T2lmInfo :=
  { T2lmInfo.zero with
    direction := some dir
    defaultLinkMapping := getBits control 2 1 ≠ 0
    mappingSwitchTimePresent := getBits control 3 1 ≠ 0
    expectedDurationPresent := getBits control 4 1 ≠ 0
    linkMappingSize := getBits control 5 1 ≠ 0 }

def parseSwitchTime (m : Library.Mem) (ieLen : ℕ) (t2lm : T2lmInfo) (c : T2lmCursor) :
    Except T2lmStatus (T2lmInfo × T2lmCursor) :=
  if t2lm.mappingSwitchTimePresent then do
    let next ← c.skip ieLen 2
    .ok ({ t2lm with mappingSwitchTime := m.read16 c.ptr }, next)
  else .ok (t2lm, c)

def parseDuration (m : Library.Mem) (ieLen : ℕ) (t2lm : T2lmInfo) (c : T2lmCursor) :
    Except T2lmStatus (T2lmInfo × T2lmCursor) :=
  if t2lm.expectedDurationPresent then do
    let next ← c.skip ieLen 3
    .ok ({ t2lm with expectedDuration := readDuration m c.ptr }, next)
  else .ok (t2lm, c)

/-- The link maps, and nothing behind them. -/
def parseT2lmMaps (m : Library.Mem) (ieLen : ℕ) (control : BitVec 16) (t2lm : T2lmInfo)
    (c : T2lmCursor) : Except T2lmStatus T2lmInfo :=
  if t2lm.defaultLinkMapping then
    if c.parsed < ieLen then .error .proto else .ok t2lm
  else do
    let (c, maps) ← parseLinkMaps m ieLen t2lm.linkMappingSize (getBits control 8 8)
      (List.finRange 8) c t2lm.ieeeLinkMapTid
    if c.parsed < ieLen then .error .proto else .ok { t2lm with ieeeLinkMapTid := maps }

/-- `wlan_mlo_parse_t2lm_info`, into mapping information that is zero. -/
def parseT2lmInfo (m : Library.Mem) (ie : ℕ) : Except T2lmStatus T2lmInfo :=
  let ieLen := (m (ie + 1)).toNat
  let control := readT2lmControl m (ie + 3) ieLen
  if ieLen < 2 then .error .proto
  else match t2lmDirectionOf (getBits control 0 2) with
    | none => .error .nullValue
    | some dir => do
      let t2lm := t2lmInfoOf dir control
      let start : T2lmCursor := { ptr := ie + 3, parsed := 1 }
      let c ← start.skip ieLen (if t2lm.defaultLinkMapping then 1 else 2)
      let (t2lm, c) ← parseSwitchTime m ieLen t2lm c
      let (t2lm, c) ← parseDuration m ieLen t2lm c
      parseT2lmMaps m ieLen control t2lm c

/-- The loop of `wlan_mlo_parse_t2lm_ie` for the iterations left, and the check behind it. -/
def parseT2lmIes (m : Library.Mem) (frameLen : ℕ) :
    ℕ → ℕ → ℕ → T2lmNegotiation → T2lmStatus × T2lmNegotiation
  | 0, _, _, t2lm => if t2lm.Clashes then (.failure, T2lmNegotiation.zero.invalidate)
      else (.success, t2lm)
  | k + 1, ie, parsed, t2lm =>
    if frameLen = 0 then (.nullValue, t2lm)
    else if frameLen = parsed then (.success, t2lm)
    else if frameLen < parsed + 3 then (.proto, t2lm)
    else if m ie = elemidExtnElem ∧ m (ie + 2) = extnElemidT2lm then
      let size := (m (ie + 1)).toNat + 2
      if frameLen < parsed + size then (.proto, t2lm)
      else match parseT2lmInfo m ie with
        | .error status => (status, t2lm)
        | .ok info =>
          match info.direction with
          | none => (.success, t2lm)
          | some dir => parseT2lmIes m frameLen k (ie + size) (parsed + size)
              { t2lm with t2lmInfo := Function.update t2lm.t2lmInfo dir info }
    else parseT2lmIes m frameLen k ie parsed t2lm

def parseT2lmIe (m : Library.Mem) (t2lm : T2lmNegotiation) (ie frameLen : ℕ) :
    T2lmStatus × T2lmNegotiation :=
  parseT2lmIes m frameLen t2lmDirections.length ie 0 t2lm.invalidate

def parseT2lmRequestActionFrame (m : Library.Mem) (t2lm : T2lmNegotiation) (frm frameLen : ℕ) :
    T2lmStatus × T2lmNegotiation :=
  let t2lm := { t2lm with category := .request }
  if frameLen < 3 then (.failure, t2lm)
  else parseT2lmIe m { t2lm with dialogToken := m (frm + 2) } (frm + 3) (frameLen - 3)

def parseT2lmResponseActionFrame (m : Library.Mem) (t2lm : T2lmNegotiation) (frm frameLen : ℕ) :
    T2lmStatus × T2lmNegotiation :=
  let t2lm := { t2lm with category := .response }
  if frameLen < 5 then (.failure, t2lm)
  else
    let t2lm := { t2lm with dialogToken := m (frm + 2), t2lmRespType := m.read16 (frm + 3) }
    if t2lm.t2lmRespType.toNat = respTypePreferred then
      parseT2lmIe m t2lm (frm + 5) (frameLen - 5)
    else (.success, t2lm)

def parseT2lmActionFrame (m : Library.Mem) (t2lm : T2lmNegotiation) (frm frameLen : ℕ) :
    T2lmCategory → T2lmStatus × T2lmNegotiation
  | .request => parseT2lmRequestActionFrame m t2lm frm frameLen
  | .response => parseT2lmResponseActionFrame m t2lm frm frameLen
  | _ => (.success, t2lm)

end QcomModules.Wlan
