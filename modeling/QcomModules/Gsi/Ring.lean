import Mathlib.Data.Nat.Size
import Mathlib.Tactic.Ring
import QcomModules.Library.Fifo

/-! The rings of the GSI driver: the checks on the properties of a channel, the ring set up from
them, and the arithmetic that takes addresses to element numbers and back. -/

namespace QcomModules.Gsi

open Library

def GSI_STATUS_RING_INSUFFICIENT_SPACE : ℤ := 2
def GSI_STATUS_INVALID_PARAMS : ℤ := 6
def GSI_STATUS_UNSUPPORTED_OP : ℤ := 7

/-! ## Properties of a channel -/

inductive GsiChanProt
  | mhi | xhci | gpi | xdci | wdi2 | gci | wdi3 | mhip | aqc | p11ad | mhic | qdss | rtk | ntn
  | wdi3V2
  deriving DecidableEq

inductive GsiChanDir
  | fromGsi
  | toGsi
  deriving DecidableEq

inductive GsiChanRingElemSize
  | re4B | re8B | re16B | re32B | re64B
  deriving DecidableEq

def GsiChanRingElemSize.bytes : GsiChanRingElemSize → UInt8
  | re4B => 4
  | re8B => 8
  | re16B => 16
  | re32B => 32
  | re64B => 64

theorem GsiChanRingElemSize.bytes_pos (size : GsiChanRingElemSize) : 0 < size.bytes.toNat := by
  cases size <;> decide

/-- `struct gsi_chan_props`, as far as the checks and the transfers read it. A callback is whether
it was provided. -/
structure GsiChanProps where
  prot : GsiChanProt
  dir : GsiChanDir
  chId : UInt8
  reSize : GsiChanRingElemSize
  ringLen : UInt32
  ringBaseAddr : UInt64
  ringBaseVaddr : UInt64
  lowWeight : UInt8
  txPoll : Bool
  xferCb : Bool
  errCb : Bool
  chanUserData : UInt64

/-- What the checks read of the driver and the hardware. -/
structure GsiCtx where
  maxCh : UInt32
  ver : ℕ

def GSI_VER_2_9 : ℕ := 8
def GSI_VER_3_0 : ℕ := 10
def GSI_V3_0_MAX_ELEMENTS_PER_RING : UInt32 := 65536
def GSI_MAX_CH_LOW_WEIGHT : UInt8 := 15

def gsihalCheckRingLengthValid (ver : ℕ) (rLen elemSize : UInt32) : Bool :=
  if GSI_VER_3_0 ≤ ver then
    rLen &&& ~~~0xffffff = 0 ∧ rLen / elemSize < GSI_V3_0_MAX_ELEMENTS_PER_RING
  else if GSI_VER_2_9 ≤ ver then rLen &&& ~~~0xfffff = 0
  else rLen &&& ~~~0xffff = 0

def roundupPowOfTwo (n : UInt32) : UInt64 := 1 <<< (Nat.size (n.toNat - 1)).toUInt64

def gsiValidateChannelProps (gsi : GsiCtx) (props : GsiChanProps) : ℤ :=
  let last := props.ringBaseAddr + props.ringLen.toUInt64 - props.reSize.bytes.toUInt64
  if gsi.maxCh ≤ props.chId.toUInt32 then -GSI_STATUS_INVALID_PARAMS
  else if props.ringLen % props.reSize.bytes.toUInt32 ≠ 0 then -GSI_STATUS_INVALID_PARAMS
  else if ¬ gsihalCheckRingLengthValid gsi.ver props.ringLen props.reSize.bytes.toUInt32 then
    -GSI_STATUS_INVALID_PARAMS
  else if props.ringBaseAddr ≠
      props.ringBaseAddr / roundupPowOfTwo props.ringLen * roundupPowOfTwo props.ringLen then
    -GSI_STATUS_INVALID_PARAMS
  else if props.ringBaseAddr &&& 0xFFFFFFFF00000000 ≠ last &&& 0xFFFFFFFF00000000 then
    -GSI_STATUS_INVALID_PARAMS
  else if props.prot = .gpi ∧ props.ringBaseVaddr = 0 then -GSI_STATUS_INVALID_PARAMS
  else if GSI_MAX_CH_LOW_WEIGHT < props.lowWeight then -GSI_STATUS_INVALID_PARAMS
  else if props.prot = .gpi ∧ !props.xferCb then -GSI_STATUS_INVALID_PARAMS
  else if !props.errCb then -GSI_STATUS_INVALID_PARAMS
  else 0

/-! ## Rings -/

/-- `struct gsi_ring_ctx`, with offsets into the ring in place of its virtual address. -/
structure GsiRingCtx where
  base : UInt64
  wp : UInt64
  rp : UInt64
  wpLocal : UInt64
  rpLocal : UInt64
  len : UInt32
  elemSz : UInt8
  maxNumElem : UInt16
  ringEnd : UInt64

def gsiInitChanRing (props : GsiChanProps) : GsiRingCtx :=
  let elemSz := props.reSize.bytes
  let maxNumElem := (props.ringLen / elemSz.toUInt32 - 1).toUInt16
  { base := props.ringBaseAddr
    wp := props.ringBaseAddr
    rp := props.ringBaseAddr
    wpLocal := props.ringBaseAddr
    rpLocal := props.ringBaseAddr
    len := props.ringLen
    elemSz := elemSz
    maxNumElem := maxNumElem
    ringEnd := props.ringBaseAddr + (maxNumElem.toUInt64 + 1) * elemSz.toUInt64 }

def GsiRingCtx.nextAddr (ctx : GsiRingCtx) (addr : UInt64) : UInt64 :=
  if addr + ctx.elemSz.toUInt64 = ctx.ringEnd then ctx.base else addr + ctx.elemSz.toUInt64

def gsiIncrRingWp (ctx : GsiRingCtx) : GsiRingCtx :=
  { ctx with wpLocal := ctx.nextAddr ctx.wpLocal }

def gsiIncrRingRp (ctx : GsiRingCtx) : GsiRingCtx :=
  { ctx with rpLocal := ctx.nextAddr ctx.rpLocal }

def gsiFindIdxFromAddr (ctx : GsiRingCtx) (addr : UInt64) : UInt16 :=
  ((addr - ctx.base).toUInt32 / ctx.elemSz.toUInt32).toUInt16

/-- `gsi_get_complete_num`; there is no result where the kernel stops at an address that is not
in the ring. -/
def gsiGetCompleteNum (ctx : GsiRingCtx) (addr1 addr2 : UInt64) : Option UInt16 :=
  if addr1 < ctx.base ∨ ctx.ringEnd ≤ addr1 then none
  else if addr2 < ctx.base ∨ ctx.ringEnd ≤ addr2 then none
  else
    let addrDiff := (addr2 - addr1).toUInt32
    if addr1 < addr2 then some (addrDiff / ctx.elemSz.toUInt32).toUInt16
    else some ((addrDiff + ctx.len) / ctx.elemSz.toUInt32).toUInt16

/-! ## Element numbers -/

/-- A ring of `n` elements. -/
structure GsiRingCtx.Shaped (ctx : GsiRingCtx) (n : ℕ) : Prop where
  elemSz_pos : 0 < ctx.elemSz.toNat
  numElem : ctx.maxNumElem.toNat + 1 = n
  ringEnd_eq : ctx.ringEnd = ctx.base + UInt64.ofNat (n * ctx.elemSz.toNat)

theorem gsiInitChanRing_shaped (props : GsiChanProps) :
    (gsiInitChanRing props).Shaped ((gsiInitChanRing props).maxNumElem.toNat + 1) where
  elemSz_pos := props.reSize.bytes_pos
  numElem := rfl
  ringEnd_eq := by
    have hmax := UInt16.toNat_lt (gsiInitChanRing props).maxNumElem
    have hsz := UInt8.toNat_lt (gsiInitChanRing props).elemSz
    have hmul := Nat.mul_le_mul (Nat.succ_le_of_lt hmax) hsz.le
    have hnum : ((gsiInitChanRing props).maxNumElem.toUInt64 + 1).toNat =
        (gsiInitChanRing props).maxNumElem.toNat + 1 := by
      rw [UInt64.toNat_add, UInt16.toNat_toUInt64, UInt64.toNat_one, Nat.mod_eq_of_lt (by omega)]
    have hbytes : ((gsiInitChanRing props).maxNumElem.toUInt64 + 1) *
          (gsiInitChanRing props).elemSz.toUInt64 =
        UInt64.ofNat (((gsiInitChanRing props).maxNumElem.toNat + 1) *
          (gsiInitChanRing props).elemSz.toNat) := by
      rw [← UInt64.toNat_inj, UInt64.toNat_mul, hnum, UInt8.toNat_toUInt64, UInt64.toNat_ofNat']
    exact congrArg (props.ringBaseAddr + ·) hbytes

def GsiRingCtx.elemAddr (ctx : GsiRingCtx) (i : ℕ) : UInt64 :=
  ctx.base + UInt64.ofNat (i * ctx.elemSz.toNat)

namespace GsiRingCtx.Shaped

variable {ctx : GsiRingCtx} {n i j : ℕ}

theorem pos (h : ctx.Shaped n) : 0 < n := by
  rw [← h.numElem]
  exact Nat.succ_pos _

theorem le (h : ctx.Shaped n) : n ≤ 2 ^ 16 := by
  rw [← h.numElem]
  exact UInt16.toNat_lt _

theorem offset_le (h : ctx.Shaped n) (hi : i ≤ n) : i * ctx.elemSz.toNat ≤ 2 ^ 24 := by
  have hmul := Nat.mul_le_mul (hi.trans h.le) (UInt8.toNat_lt ctx.elemSz).le
  exact hmul

theorem toNat_offset (h : ctx.Shaped n) (hi : i ≤ n) :
    (UInt64.ofNat (i * ctx.elemSz.toNat)).toNat = i * ctx.elemSz.toNat := by
  have hoff := h.offset_le hi
  rw [UInt64.toNat_ofNat', Nat.mod_eq_of_lt (by omega)]

theorem elemAddr_inj (h : ctx.Shaped n) (hi : i ≤ n) (hj : j ≤ n) :
    ctx.elemAddr i = ctx.elemAddr j ↔ i = j := by
  refine ⟨fun heq => ?_, fun heq => heq ▸ rfl⟩
  have hoff := UInt64.toNat_inj.2 ((UInt64.add_right_inj _).1 heq)
  rw [h.toNat_offset hi, h.toNat_offset hj] at hoff
  exact Nat.eq_of_mul_eq_mul_right h.elemSz_pos hoff

theorem elemAddr_succ (ctx : GsiRingCtx) (i : ℕ) :
    ctx.elemAddr i + ctx.elemSz.toUInt64 = ctx.elemAddr (i + 1) := by
  have hone : ctx.elemSz.toUInt64 = UInt64.ofNat ctx.elemSz.toNat := by
    have hlt := UInt8.toNat_lt ctx.elemSz
    rw [← UInt64.toNat_inj, UInt64.toNat_ofNat', UInt8.toNat_toUInt64,
      Nat.mod_eq_of_lt (by omega)]
  rw [elemAddr, elemAddr, hone, UInt64.add_assoc, ← UInt64.ofNat_add, Nat.succ_mul]

theorem nextAddr_elemAddr (h : ctx.Shaped n) (hi : i < n) :
    ctx.nextAddr (ctx.elemAddr i) = ctx.elemAddr (ringNext n i) := by
  have hend : ctx.ringEnd = ctx.elemAddr n := h.ringEnd_eq
  have hiff := h.elemAddr_inj (Nat.succ_le_of_lt hi) le_rfl
  rw [nextAddr, elemAddr_succ, hend, ringNext]
  by_cases hlast : i + 1 = n
  · rw [if_pos (hiff.2 hlast), if_neg (by omega), elemAddr, Nat.zero_mul]
    exact (UInt64.add_zero _).symm
  · rw [if_neg (mt hiff.1 hlast), if_pos (by omega)]

theorem findIdx_elemAddr (h : ctx.Shaped n) (hi : i < n) :
    (gsiFindIdxFromAddr ctx (ctx.elemAddr i)).toNat = i := by
  have hoff := h.offset_le hi.le
  have hn := h.le
  have hdiff : (ctx.elemAddr i - ctx.base).toUInt32.toNat = i * ctx.elemSz.toNat := by
    rw [elemAddr, UInt64.add_comm, UInt64.add_sub_cancel, UInt64.toNat_toUInt32,
      h.toNat_offset hi.le, Nat.mod_eq_of_lt (by omega)]
  rw [gsiFindIdxFromAddr, UInt32.toNat_toUInt16, UInt32.toNat_div, hdiff, UInt8.toNat_toUInt32,
    Nat.mul_div_cancel _ h.elemSz_pos, Nat.mod_eq_of_lt (by omega)]

/-! ### Rings that end before the address space does -/

theorem toNat_elemAddr (h : ctx.Shaped n) (hend : ctx.base.toNat + n * ctx.elemSz.toNat < 2 ^ 64)
    (hi : i ≤ n) : (ctx.elemAddr i).toNat = ctx.base.toNat + i * ctx.elemSz.toNat := by
  have hle := Nat.mul_le_mul_right ctx.elemSz.toNat hi
  rw [elemAddr, UInt64.toNat_add, h.toNat_offset hi, Nat.mod_eq_of_lt (by omega)]

theorem elemAddr_lt_iff (h : ctx.Shaped n)
    (hend : ctx.base.toNat + n * ctx.elemSz.toNat < 2 ^ 64) (hi : i ≤ n) (hj : j ≤ n) :
    ctx.elemAddr i < ctx.elemAddr j ↔ i < j := by
  rw [UInt64.lt_iff_toNat_lt, h.toNat_elemAddr hend hi, h.toNat_elemAddr hend hj,
    Nat.add_lt_add_iff_left, Nat.mul_lt_mul_right h.elemSz_pos]

theorem elemAddr_mem (h : ctx.Shaped n)
    (hend : ctx.base.toNat + n * ctx.elemSz.toNat < 2 ^ 64) (hi : i < n) :
    ctx.base ≤ ctx.elemAddr i ∧ ctx.elemAddr i < ctx.ringEnd := by
  have hlast : ctx.ringEnd = ctx.elemAddr n := h.ringEnd_eq
  rw [hlast, h.elemAddr_lt_iff hend hi.le le_rfl, UInt64.le_iff_toNat_le,
    h.toNat_elemAddr hend hi.le]
  exact ⟨Nat.le_add_right _ _, hi⟩

theorem getCompleteNum_elemAddr (h : ctx.Shaped n)
    (hend : ctx.base.toNat + n * ctx.elemSz.toNat < 2 ^ 64)
    (hlen : ctx.len.toNat = n * ctx.elemSz.toNat) (hi : i < n) (hj : j < n) (hne : i ≠ j) :
    gsiGetCompleteNum ctx (ctx.elemAddr i) (ctx.elemAddr j) =
      some (UInt16.ofNat (if i < j then j - i else n + j - i)) := by
  obtain ⟨hi1, hi2⟩ := h.elemAddr_mem hend hi
  obtain ⟨hj1, hj2⟩ := h.elemAddr_mem hend hj
  have hai := h.toNat_elemAddr hend hi.le
  have haj := h.toNat_elemAddr hend hj.le
  have hoff := h.offset_le le_rfl
  have hn := h.le
  have hoi := Nat.mul_le_mul_right ctx.elemSz.toNat hi.le
  have hoj := Nat.mul_le_mul_right ctx.elemSz.toNat hj.le
  have hnum (x : UInt32) (m : ℕ) (hm : m < n) (hx : x.toNat = m * ctx.elemSz.toNat) :
      (x / ctx.elemSz.toUInt32).toUInt16 = UInt16.ofNat m := by
    rw [← UInt16.toNat_inj, UInt32.toNat_toUInt16, UInt32.toNat_div, hx, UInt8.toNat_toUInt32,
      Nat.mul_div_cancel _ h.elemSz_pos, UInt16.toNat_ofNat']
  rw [gsiGetCompleteNum, if_neg (by simp [hi1, hi2]), if_neg (by simp [hj1, hj2])]
  simp only [h.elemAddr_lt_iff hend hi.le hj.le]
  by_cases hlt : i < j
  · have hmul := Nat.mul_le_mul_right ctx.elemSz.toNat hlt.le
    rw [if_pos hlt, if_pos hlt, hnum _ (j - i) (by omega)]
    rw [UInt64.toNat_toUInt32, UInt64.toNat_sub_of_le _ _ (by
      rw [UInt64.le_iff_toNat_le]
      omega), hai, haj, Nat.sub_mul, Nat.mod_eq_of_lt (by omega)]
    omega
  · have hmul := Nat.mul_le_mul_right ctx.elemSz.toNat (show j ≤ i by omega)
    rw [if_neg hlt, if_neg hlt, hnum _ (n + j - i) (by omega)]
    rw [UInt32.toNat_add, UInt64.toNat_toUInt32, UInt64.toNat_sub, hai, haj, hlen, Nat.sub_mul,
      Nat.add_mul]
    omega

end GsiRingCtx.Shaped

end QcomModules.Gsi
