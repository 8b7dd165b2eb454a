import Mathlib

/-! Fragmentation of 802.11 elements and subelements, from `wlan_utility.c`. Memory is a function
from addresses to bytes and 0 is the null pointer; output parameters are results. An element unit
is an element or a subelement. -/

namespace QcomModules.Wlan

abbrev Mem : Type := ℕ → UInt8

/-- `qdf_mem_move`; `qdf_mem_copy` is the same on buffers that do not overlap. -/
def qdfMemMove (mem : Mem) (dst src n : ℕ) : Mem :=
  fun a => if dst ≤ a ∧ a < dst + n then mem (src + (a - dst)) else mem a

inductive QdfStatus where
  | eInval
  | eNullValue
  | eProto
  | eFailure
deriving DecidableEq, Repr

/-! ## Element units -/

def wlanElemidFragment : UInt8 := 242
def wlanElemidExtnElem : UInt8 := 255
def wlanMaxIeLen : ℕ := 255
def wlanMaxSubelemLen : ℕ := 255

structure ElemunitInfo where
  fragid : UInt8
  hdrlen : ℕ
  maxpayloadlen : ℕ
  idPos : ℕ
  lenPos : ℕ
  idextPos : ℕ
deriving DecidableEq, Repr

/-- `wlan_get_elemunit_info`; the position of the ID extension is used for elements only. -/
def wlanGetElemunitInfo (isSubelem : Bool) (subelemfragid : UInt8) : ElemunitInfo :=
  if isSubelem then
    { fragid := subelemfragid, hdrlen := 2, maxpayloadlen := wlanMaxSubelemLen, idPos := 0,
      lenPos := 1, idextPos := 0 }
  else
    { fragid := wlanElemidFragment, hdrlen := 2, maxpayloadlen := wlanMaxIeLen, idPos := 0,
      lenPos := 1, idextPos := 2 }

def hasIdext (isSubelem : Bool) (id : UInt8) : Bool := !isSubelem && id == wlanElemidExtnElem

/-! ## Creation -/

structure CreationParams where
  expectedFragseqlen : ℕ
  prepayloadLeadbytes : ℕ
  numMaxsizefrags : ℕ
  smallerfragSize : ℕ
  extrahdrbytes : ℕ
deriving DecidableEq, Repr

/-- `wlan_get_elemsubelem_fragseq_creationparams`; nothing when no fragmentation is required. -/
def wlanGetElemsubelemFragseqCreationparams (isSubelem : Bool) (id : UInt8) (payloadlen : ℕ) :
    Option CreationParams :=
  let info := wlanGetElemunitInfo isSubelem 0
  let ext := hasIdext isSubelem id
  if payloadlen ≤ (if ext then info.maxpayloadlen - 1 else info.maxpayloadlen) then none
  else
    let numMaxsizefrags :=
      (if ext then payloadlen + 1 else payloadlen) / info.maxpayloadlen % 2 ^ 32
    let smallerfragSize :=
      (if ext then payloadlen - (info.maxpayloadlen - 1) else payloadlen) % info.maxpayloadlen
    let extrahdrbytes := (numMaxsizefrags + (2 ^ 32 - 1)) % 2 ^ 32 * info.hdrlen +
      if smallerfragSize ≠ 0 then info.hdrlen else 0
    let prepayloadLeadbytes := if ext then info.hdrlen + 1 else info.hdrlen
    some
      { expectedFragseqlen := prepayloadLeadbytes + payloadlen + extrahdrbytes
        prepayloadLeadbytes := prepayloadLeadbytes
        numMaxsizefrags := numMaxsizefrags
        smallerfragSize := smallerfragSize
        extrahdrbytes := extrahdrbytes }

/-- The arguments of `wlan_create_elemsubelem_fragseq`. -/
structure CreateArgs where
  inlineFrag : Bool
  isSubelem : Bool
  id : UInt8
  idext : UInt8
  subelemfragid : UInt8
  payloadbuff : ℕ
  payloadbuffMaxsize : ℕ
  payloadlen : ℕ
  fragbuff : ℕ
  fragbuffMaxsize : ℕ
deriving DecidableEq, Repr

/-- Moves a fragment that is not the lead one up by the header bytes that remain, with what
follows the payload if it is the last fragment, and writes its header. -/
def moveFragment (args : CreateArgs) (info : ElemunitInfo) (params : CreationParams)
    (offset remaining len : ℕ) (isLast : Bool) (mem : Mem) : Mem :=
  let src := args.payloadbuff + offset
  let dst := if args.inlineFrag then src + remaining else args.fragbuff + offset + remaining
  let shiftsize := if args.inlineFrag && src < dst then dst - src else 0
  let rest := args.payloadbuffMaxsize - params.prepayloadLeadbytes - args.payloadlen - shiftsize
  let bytesToTransfer :=
    if args.inlineFrag && isLast &&
      params.prepayloadLeadbytes + args.payloadlen < args.payloadbuffMaxsize then len + rest
    else len
  let mem := qdfMemMove mem dst src bytesToTransfer
  let mem := Function.update mem (dst - info.hdrlen + info.idPos) info.fragid
  Function.update mem (dst - info.hdrlen + info.lenPos) (UInt8.ofNat len)

/-- The loop over the other fragments of maximum size, last one first. -/
def moveFragments (args : CreateArgs) (info : ElemunitInfo) (params : CreationParams) :
    ℕ → ℕ → Mem → Mem
  | 0, _, mem => mem
  | i + 1, remaining, mem =>
    if i = 0 then mem
    else
      moveFragments args info params i (remaining - info.hdrlen)
        (moveFragment args info params (info.hdrlen + i * info.maxpayloadlen) remaining
          info.maxpayloadlen
          (i + 1 = params.numMaxsizefrags && params.smallerfragSize = 0) mem)

/-- `wlan_create_elemsubelem_fragseq`: the length of the fragment sequence, and the memory. -/
def wlanCreateElemsubelemFragseq (args : CreateArgs) (mem : Mem) : Except QdfStatus (ℕ × Mem) :=
  let info := wlanGetElemunitInfo args.isSubelem args.subelemfragid
  match wlanGetElemsubelemFragseqCreationparams args.isSubelem args.id args.payloadlen with
  | none => .error .eInval
  | some params =>
    if args.payloadbuff = 0 then .error .eNullValue
    else if args.payloadbuffMaxsize = 0 then .error .eInval
    else if args.payloadbuffMaxsize < args.payloadlen then .error .eInval
    else if args.inlineFrag && args.payloadbuffMaxsize < params.expectedFragseqlen then
      .error .eInval
    else if !args.inlineFrag && args.fragbuff = 0 then .error .eNullValue
    else if !args.inlineFrag &&
        (args.fragbuffMaxsize = 0 || args.fragbuffMaxsize < params.expectedFragseqlen) then
      .error .eInval
    else
      let smaller := params.smallerfragSize ≠ 0
      let mem := if smaller then
          moveFragment args info params
            (info.hdrlen + params.numMaxsizefrags * info.maxpayloadlen) params.extrahdrbytes
            params.smallerfragSize true mem
        else mem
      let remaining := if smaller then params.extrahdrbytes - info.hdrlen
        else params.extrahdrbytes
      -- the loop counter has 16 bits
      let mem := moveFragments args info params (params.numMaxsizefrags % 2 ^ 16) remaining mem
      let mem := if args.inlineFrag then mem
        else qdfMemMove mem (args.fragbuff + info.hdrlen) (args.payloadbuff + info.hdrlen)
          info.maxpayloadlen
      let lead := if args.inlineFrag then args.payloadbuff else args.fragbuff
      let mem := Function.update mem (lead + info.idPos) args.id
      let mem := Function.update mem (lead + info.lenPos) (UInt8.ofNat info.maxpayloadlen)
      let mem := if hasIdext args.isSubelem args.id then
          Function.update mem (lead + info.idextPos) args.idext
        else mem
      .ok (params.expectedFragseqlen, mem)

/-! ## Fragment sequences -/

/-- `wlan_get_elemsubelem_successorfrag`: the fragment right after an element unit. -/
def wlanGetElemsubelemSuccessorfrag (info : ElemunitInfo) (mem : Mem)
    (curr buff buffMaxsize : ℕ) : Except QdfStatus (Option ℕ) :=
  let bound := buff + buffMaxsize
  if bound < curr + info.hdrlen then .error .eProto
  else
    let next := curr + info.hdrlen + (mem (curr + info.lenPos)).toNat
    if bound < next then .error .eProto
    else if bound = next then .ok none
    else if bound < next + info.hdrlen then .error .eProto
    else if bound < next + info.hdrlen + (mem (next + info.lenPos)).toNat then .error .eProto
    else if mem (next + info.idPos) ≠ info.fragid then .ok none
    else if (mem (curr + info.lenPos)).toNat ≠ info.maxpayloadlen then .error .eProto
    else if (mem (next + info.lenPos)).toNat = 0 then .error .eProto
    else .ok (some next)

/-- The loop of `wlan_get_elemsubelem_fragseq_info` over the successors, with the lengths so
far. A round takes at least a header of the buffer. -/
def fragseqLoop (info : ElemunitInfo) (mem : Mem) (buff buffMaxsize : ℕ) :
    ℕ → Option ℕ → ℕ → ℕ → Except QdfStatus (ℕ × ℕ)
  | _, none, totallen, payloadlen => .ok (totallen, payloadlen)
  | 0, some _, _, _ => .error .eFailure
  | fuel + 1, some curr, totallen, payloadlen =>
    match wlanGetElemsubelemSuccessorfrag info mem curr buff buffMaxsize with
    | .error status => .error status
    | .ok next =>
      fragseqLoop info mem buff buffMaxsize fuel next
        (totallen + (info.hdrlen + (mem (curr + info.lenPos)).toNat))
        (payloadlen + (mem (curr + info.lenPos)).toNat)

/-- `wlan_get_elemsubelem_fragseq_info`: the total length and the length of the payload if there
is a fragment sequence. -/
def wlanGetElemsubelemFragseqInfo (isSubelem : Bool) (subelemfragid : UInt8) (mem : Mem)
    (buff buffMaxsize : ℕ) : Except QdfStatus (Option (ℕ × ℕ)) :=
  let info := wlanGetElemunitInfo isSubelem subelemfragid
  if buff = 0 then .error .eNullValue
  else if buffMaxsize = 0 then .error .eInval
  else if buffMaxsize < info.hdrlen then .error .eProto
  else
    let len := (mem (buff + info.lenPos)).toNat
    if buffMaxsize < info.hdrlen + len then .error .eProto
    else
      match wlanGetElemsubelemSuccessorfrag info mem buff buff buffMaxsize with
      | .error status => .error status
      | .ok none => .ok none
      | .ok (some next) =>
        (fragseqLoop info mem buff buffMaxsize buffMaxsize (some next) (info.hdrlen + len)
          (if hasIdext isSubelem (mem (buff + info.idPos)) then len - 1 else len)).map some

/-! ## Defragmentation -/

/-- What the loop of `wlan_defrag_elemsubelem_fragseq` carries. -/
structure DefragState where
  mem : Mem
  curr : ℕ
  dst : ℕ
  currlen : ℕ
  remlen : ℕ

def defragLoop (info : ElemunitInfo) : ℕ → DefragState → DefragState
  | 0, s => s
  | fuel + 1, s =>
    if s.mem (s.curr + info.idPos) ≠ info.fragid then s
    else
      let len := (s.mem (s.curr + info.lenPos)).toNat
      let mem := qdfMemMove s.mem s.dst (s.curr + info.hdrlen) len
      let remlen := s.remlen - (info.hdrlen + len)
      if remlen = 0 then { s with mem := mem, currlen := s.currlen + len, remlen := remlen }
      else
        defragLoop info fuel
          { mem := mem
            curr := s.curr + (info.hdrlen + len)
            dst := s.dst + len
            currlen := s.currlen + len
            remlen := remlen }

/-- `wlan_defrag_elemsubelem_fragseq`: the length of the payload, and the memory. -/
def wlanDefragElemsubelemFragseq (inlineDefrag isSubelem : Bool) (subelemfragid : UInt8)
    (fragbuff fragbuffMaxsize defragbuff defragbuffMaxsize : ℕ) (mem : Mem) :
    Except QdfStatus (ℕ × Mem) :=
  let info := wlanGetElemunitInfo isSubelem subelemfragid
  if fragbuff = 0 then .error .eNullValue
  else if fragbuffMaxsize = 0 then .error .eInval
  else if !inlineDefrag && defragbuff = 0 then .error .eNullValue
  else if !inlineDefrag && defragbuffMaxsize = 0 then .error .eInval
  else
    match wlanGetElemsubelemFragseqInfo isSubelem subelemfragid mem fragbuff fragbuffMaxsize with
    | .error status => .error status
    | .ok none => .error .eInval
    | .ok (some (_, payloadlen)) =>
      if !inlineDefrag && defragbuffMaxsize < payloadlen then .error .eInval
      else
        let ext := hasIdext isSubelem (mem (fragbuff + info.idPos))
        let len := (mem (fragbuff + info.lenPos)).toNat
        let leadlen := if ext then len - 1 else len
        let src := fragbuff + info.hdrlen + if ext then 1 else 0
        let s := defragLoop info fragbuffMaxsize
          { mem := if inlineDefrag then mem else qdfMemMove mem defragbuff src leadlen
            curr := fragbuff + (info.hdrlen + len)
            dst := (if inlineDefrag then src else defragbuff) + leadlen
            currlen := leadlen
            remlen := fragbuffMaxsize - (info.hdrlen + len) }
        .ok (s.currlen, if inlineDefrag && s.remlen ≠ 0 then
          qdfMemMove s.mem s.dst s.curr s.remlen else s.mem)

/-! ## Elements and subelements -/

def wlanGetElemFragseqRequirements (elemid : UInt8) (payloadlen : ℕ) : Option ℕ :=
  (wlanGetElemsubelemFragseqCreationparams false elemid payloadlen).map (·.expectedFragseqlen)

def wlanGetSubelemFragseqRequirements (subelemid : UInt8) (payloadlen : ℕ) : Option ℕ :=
  (wlanGetElemsubelemFragseqCreationparams true subelemid payloadlen).map (·.expectedFragseqlen)

def wlanCreateElemFragseq (inlineFrag : Bool) (elemid elemidext : UInt8)
    (payloadbuff payloadbuffMaxsize payloadlen fragbuff fragbuffMaxsize : ℕ) (mem : Mem) :
    Except QdfStatus (ℕ × Mem) :=
  wlanCreateElemsubelemFragseq
    ⟨inlineFrag, false, elemid, elemidext, 0, payloadbuff, payloadbuffMaxsize, payloadlen, fragbuff,
      fragbuffMaxsize⟩ mem

def wlanCreateSubelemFragseq (inlineFrag : Bool) (subelemid subelemfragid : UInt8)
    (payloadbuff payloadbuffMaxsize payloadlen fragbuff fragbuffMaxsize : ℕ) (mem : Mem) :
    Except QdfStatus (ℕ × Mem) :=
  wlanCreateElemsubelemFragseq
    ⟨inlineFrag, true, subelemid, 0, subelemfragid, payloadbuff, payloadbuffMaxsize, payloadlen,
      fragbuff, fragbuffMaxsize⟩ mem

def wlanDefragElemFragseq (inlineDefrag : Bool)
    (fragbuff fragbuffMaxsize defragbuff defragbuffMaxsize : ℕ) (mem : Mem) :
    Except QdfStatus (ℕ × Mem) :=
  wlanDefragElemsubelemFragseq inlineDefrag false 0 fragbuff fragbuffMaxsize defragbuff
    defragbuffMaxsize mem

def wlanDefragSubelemFragseq (inlineDefrag : Bool) (subelemfragid : UInt8)
    (fragbuff fragbuffMaxsize defragbuff defragbuffMaxsize : ℕ) (mem : Mem) :
    Except QdfStatus (ℕ × Mem) :=
  wlanDefragElemsubelemFragseq inlineDefrag true subelemfragid fragbuff fragbuffMaxsize defragbuff
    defragbuffMaxsize mem

end QcomModules.Wlan
