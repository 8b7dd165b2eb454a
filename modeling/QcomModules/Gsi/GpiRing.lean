import QcomModules.Gsi.Channel

/-! GPI channels complete their transfers in order: the ring elements that are queued and not
retired are those from the read pointer up to the write pointer. -/

namespace QcomModules.Gsi

open Library List

/-- A ring element that is queued: its bytes, and the user data kept for it. -/
abbrev QueuedElem := List Byte × UInt64

def treSize : ℕ := 16

theorem GsiTre.length_bytes (tre : GsiTre) : tre.bytes.length = treSize := rfl

/-- What the driver and the ring hold of element number `i`. -/
def GsiChanCtx.slot (ctx : GsiChanCtx) (i : ℕ) : QueuedElem :=
  (readSlots ctx.mem (i * ctx.ring.elemSz.toNat) treSize, (ctx.userData i).p)

/-- The read pointers at an address, with `j` more elements counted. -/
def GsiChanCtx.moveRp (ctx : GsiChanCtx) (j : ℕ) (rp : UInt64) : GsiChanCtx :=
  { ctx with
    stats := { ctx.stats with completed := ctx.stats.completed + UInt64.ofNat j }
    ring := { ctx.ring with rpLocal := rp, rp := rp } }

def GsiXferElem.queued (xfer : GsiXferElem) : QueuedElem :=
  ((xfer.tre (xfer.type.reType.getD 0)).bytes, xfer.xferUserData)

namespace GsiRingCtx

/-- An address in the ring at which an element starts. -/
def AtElem (ring : GsiRingCtx) (addr : UInt64) : Prop :=
  ring.base ≤ addr ∧ addr < ring.ringEnd ∧ ring.elemSz.toNat ∣ (addr - ring.base).toNat

/-- The number of the element at an address. -/
def elemOf (ring : GsiRingCtx) (addr : UInt64) : ℕ :=
  (addr - ring.base).toNat / ring.elemSz.toNat

namespace Shaped

variable {ring : GsiRingCtx} {n i : ℕ}

theorem toNat_elemAddr_sub (h : ring.Shaped n) (hi : i < n) :
    (ring.elemAddr i - ring.base).toNat = i * ring.elemSz.toNat := by
  rw [elemAddr, UInt64.add_comm, UInt64.add_sub_cancel, h.toNat_offset hi.le]

theorem elemOf_elemAddr (h : ring.Shaped n) (hi : i < n) : ring.elemOf (ring.elemAddr i) = i := by
  rw [elemOf, h.toNat_elemAddr_sub hi, Nat.mul_div_cancel _ h.elemSz_pos]

theorem atElem_iff (h : ring.Shaped n)
    (hend : ring.base.toNat + n * ring.elemSz.toNat < 2 ^ 64) {addr : UInt64} :
    ring.AtElem addr ↔ ∃ i < n, addr = ring.elemAddr i := by
  constructor
  · rintro ⟨hbase, hlast, i, hoff⟩
    have hringEnd : ring.ringEnd = ring.elemAddr n := h.ringEnd_eq
    rw [hringEnd, UInt64.lt_iff_toNat_lt, h.toNat_elemAddr hend le_rfl] at hlast
    rw [UInt64.le_iff_toNat_le] at hbase
    rw [UInt64.toNat_sub_of_le _ _ (UInt64.le_iff_toNat_le.2 hbase), Nat.mul_comm] at hoff
    have hi : i < n := by
      by_contra hge
      have hmul := Nat.mul_le_mul_right ring.elemSz.toNat (Nat.le_of_not_lt hge)
      omega
    refine ⟨i, hi, ?_⟩
    rw [← UInt64.toNat_inj, h.toNat_elemAddr hend hi.le]
    omega
  · rintro ⟨i, hi, rfl⟩
    obtain ⟨hbase, hlast⟩ := h.elemAddr_mem hend hi
    refine ⟨hbase, hlast, ?_⟩
    rw [h.toNat_elemAddr_sub hi]
    exact Nat.dvd_mul_left _ _

end Shaped

end GsiRingCtx

/-- The pointers are at elements of the ring, those between them hold what is queued and not
retired, and the counts of transfers differ by its length. -/
structure GpiHolds (ctx : GsiChanCtx) (pending : List QueuedElem) : Prop where
  rp : ctx.ring.AtElem ctx.ring.rpLocal
  wp : ctx.ring.AtElem ctx.ring.wpLocal
  slots : RingHolds (ctx.ring.maxNumElem.toNat + 1) ctx.slot (ctx.ring.elemOf ctx.ring.rpLocal)
    (ctx.ring.elemOf ctx.ring.wpLocal) pending
  length_le : pending.length ≤ ctx.ring.maxNumElem.toNat
  stats : ctx.stats.queued - ctx.stats.completed = UInt64.ofNat pending.length

/-! ## Bytes of the ring -/

section Bytes

variable (m : Mem) {a b k : ℕ} {bs : List Byte}

theorem readSlots_store (hlen : bs.length = k) : readSlots (m.store a bs) a k = bs :=
  readSlots_eq hlen fun _ hj => m.store_add a (getElem?_eq_getElem hj)

theorem readSlots_store_of_disjoint (h : b + k ≤ a ∨ a + bs.length ≤ b) :
    readSlots (m.store a bs) b k = readSlots m b k := by
  apply map_congr_left
  intro j hj
  have hlt := mem_range.1 hj
  rcases h with hbelow | habove
  · exact m.store_of_lt bs (by omega)
  · exact m.store_of_ge (by omega)

end Bytes

/-! ## One channel -/

/-- A GPI channel whose ring has `n` elements, none smaller than what is written to it, and ends
before the address space does. -/
structure GpiShape (ctx : GsiChanCtx) (n : ℕ) : Prop where
  prot : ctx.props.prot = .gpi
  state : ctx.state ≠ .notAllocated
  shaped : ctx.ring.Shaped n
  ends : ctx.ring.base.toNat + n * ctx.ring.elemSz.toNat < 2 ^ 64
  len : ctx.ring.len.toNat = n * ctx.ring.elemSz.toNat
  tre_le : treSize ≤ ctx.ring.elemSz.toNat

theorem GpiShape.congr {ctx ctx' : GsiChanCtx} {n : ℕ} (h : GpiShape ctx n)
    (hprops : ctx'.props = ctx.props) (hstate : ctx'.state = ctx.state)
    (hring : ∃ wp rp wpLocal rpLocal, ctx'.ring =
      { ctx.ring with wp := wp, rp := rp, wpLocal := wpLocal, rpLocal := rpLocal }) :
    GpiShape ctx' n := by
  obtain ⟨wp, rp, wpLocal, rpLocal, hring⟩ := hring
  refine ⟨hprops ▸ h.prot, hstate ▸ h.state, ?_, ?_, ?_, ?_⟩
  all_goals rw [hring]
  · exact ⟨h.shaped.elemSz_pos, h.shaped.numElem, h.shaped.ringEnd_eq⟩
  · exact h.ends
  · exact h.len
  · exact h.tre_le

/-- The pointers are at elements `r` and `w`, with what is queued from the one up to the other. -/
structure GpiAt (ctx : GsiChanCtx) (n r w : ℕ) (pending : List QueuedElem) : Prop where
  shape : GpiShape ctx n
  rp : ctx.ring.rpLocal = ctx.ring.elemAddr r
  wp : ctx.ring.wpLocal = ctx.ring.elemAddr w
  slots : RingHolds n ctx.slot r w pending

namespace GpiAt

variable {ctx : GsiChanCtx} {n r w : ℕ} {pending : List QueuedElem}

theorem findIdx_rp (h : GpiAt ctx n r w pending) :
    (gsiFindIdxFromAddr ctx.ring ctx.ring.rpLocal).toNat = r := by
  rw [h.rp, h.shape.shaped.findIdx_elemAddr h.slots.read_lt]

theorem findIdx_wp (h : GpiAt ctx n r w pending) :
    (gsiFindIdxFromAddr ctx.ring ctx.ring.wpLocal).toNat = w := by
  rw [h.wp, h.shape.shaped.findIdx_elemAddr h.slots.write_lt]

theorem holds (h : GpiAt ctx n r w pending)
    (hstats : ctx.stats.queued - ctx.stats.completed = UInt64.ofNat pending.length) :
    GpiHolds ctx pending where
  rp := (h.shape.shaped.atElem_iff h.shape.ends).2 ⟨r, h.slots.read_lt, h.rp⟩
  wp := (h.shape.shaped.atElem_iff h.shape.ends).2 ⟨w, h.slots.write_lt, h.wp⟩
  slots := by
    rw [h.rp, h.wp, h.shape.shaped.elemOf_elemAddr h.slots.read_lt,
      h.shape.shaped.elemOf_elemAddr h.slots.write_lt, h.shape.shaped.numElem]
    exact h.slots
  length_le := by
    have hlt := h.slots.length_lt
    rw [← h.shape.shaped.numElem] at hlt
    exact Nat.le_of_lt_succ hlt
  stats := hstats

theorem free_eq (h : GpiAt ctx n r w pending) :
    (gsiQueryChannelFreeRe ctx).toNat = ctx.ring.maxNumElem.toNat - pending.length := by
  have hnum := h.shape.shaped.numElem
  have hr := h.slots.read_lt
  have hw := h.slots.write_lt
  have hlen := h.slots.length_eq
  have hlt := h.slots.length_lt
  have hmax := UInt16.toNat_lt ctx.ring.maxNumElem
  have hused : (if gsiFindIdxFromAddr ctx.ring ctx.ring.rpLocal ≤
        gsiFindIdxFromAddr ctx.ring ctx.ring.wpLocal then
      gsiFindIdxFromAddr ctx.ring ctx.ring.wpLocal - gsiFindIdxFromAddr ctx.ring ctx.ring.rpLocal
      else ctx.ring.maxNumElem + 1 - (gsiFindIdxFromAddr ctx.ring ctx.ring.rpLocal -
        gsiFindIdxFromAddr ctx.ring ctx.ring.wpLocal)).toNat = pending.length := by
    rw [hlen]
    by_cases hle : r ≤ w
    · have hcmp : gsiFindIdxFromAddr ctx.ring ctx.ring.rpLocal ≤
          gsiFindIdxFromAddr ctx.ring ctx.ring.wpLocal := by
        rw [UInt16.le_iff_toNat_le, h.findIdx_rp, h.findIdx_wp]
        exact hle
      rw [if_pos hcmp, if_pos hle, UInt16.toNat_sub_of_le _ _ hcmp, h.findIdx_rp, h.findIdx_wp]
    · have hcmp : ¬ gsiFindIdxFromAddr ctx.ring ctx.ring.rpLocal ≤
          gsiFindIdxFromAddr ctx.ring ctx.ring.wpLocal := by
        rw [UInt16.le_iff_toNat_le, h.findIdx_rp, h.findIdx_wp]
        exact hle
      have hdiff : (gsiFindIdxFromAddr ctx.ring ctx.ring.rpLocal -
          gsiFindIdxFromAddr ctx.ring ctx.ring.wpLocal).toNat = r - w := by
        rw [UInt16.toNat_sub_of_le _ _ (UInt16.le_of_lt (UInt16.not_le.1 hcmp)), h.findIdx_rp,
          h.findIdx_wp]
      rw [if_neg hcmp, if_neg hle, UInt16.toNat_sub, UInt16.toNat_add, hdiff, UInt16.toNat_one]
      omega
  have hle : pending.length ≤ ctx.ring.maxNumElem.toNat := by omega
  rw [gsiQueryChannelFreeRe]
  rw [UInt16.toNat_sub_of_le _ _ (by rw [UInt16.le_iff_toNat_le, hused]; exact hle), hused]

variable {xfer : GsiXferElem} {j : ℕ}

theorem slot_writeTre (h : GpiAt ctx n r w pending) {reType : UInt8}
    (htype : xfer.type.reType = some reType) {idx : UInt16} (hidx : idx.toNat = w) :
    (ctx.writeTre idx xfer reType).slot j = if j = w then xfer.queued else ctx.slot j := by
  have hsize := h.shape.tre_le
  have hlen : (xfer.tre reType).bytes.length = treSize := GsiTre.length_bytes _
  subst hidx
  by_cases hjw : j = idx.toNat
  · rw [if_pos hjw, hjw, GsiXferElem.queued, htype]
    refine Prod.ext (readSlots_store ctx.mem hlen) ?_
    simp only [GsiChanCtx.slot, GsiChanCtx.writeTre, GsiChanCtx.setUserData, Function.update_self]
  · rw [if_neg hjw]
    refine Prod.ext (readSlots_store_of_disjoint ctx.mem ?_) ?_
    · have helem : (ctx.writeTre idx xfer reType).ring.elemSz = ctx.ring.elemSz := rfl
      rw [hlen, helem]
      rcases Nat.lt_or_gt_of_ne hjw with hlt | hgt
      · have hmul := Nat.mul_le_mul_right ctx.ring.elemSz.toNat (Nat.succ_le_of_lt hlt)
        rw [Nat.succ_mul] at hmul
        omega
      · have hmul := Nat.mul_le_mul_right ctx.ring.elemSz.toNat (Nat.succ_le_of_lt hgt)
        rw [Nat.succ_mul] at hmul
        omega
    · simp only [GsiChanCtx.slot, GsiChanCtx.writeTre, GsiChanCtx.setUserData,
        Function.update_of_ne hjw]
      rfl

theorem gsiPopulate_eq (h : GpiAt ctx n r w pending) (xfer : GsiXferElem) :
    gsiPopulate ctx xfer = gsiPopulateTre ctx xfer := by
  have hprot : ctx.props.prot ≠ .gci := by
    rw [h.shape.prot]
    decide
  rw [gsiPopulate, if_neg hprot]

theorem populate (h : GpiAt ctx n r w pending) {reType : UInt8}
    (htype : xfer.type.reType = some reType) (hroom : pending.length + 1 < n) :
    ∃ idx, gsiPopulate ctx xfer = .done w (ctx.writeTre idx xfer reType) ∧
      GpiAt ((ctx.writeTre idx xfer reType).setRing (gsiIncrRingWp ctx.ring)) n r (ringNext n w)
        (pending ++ [xfer.queued]) := by
  refine ⟨gsiFindIdxFromAddr ctx.ring ctx.ring.wpLocal, ?_, ?_, ?_, ?_, ?_⟩
  · rw [h.gsiPopulate_eq, gsiPopulateTre, htype]
    simp only [if_neg h.shape.state, h.findIdx_wp]
  · exact h.shape.congr rfl rfl ⟨_, _, _, _, rfl⟩
  · exact h.rp
  · exact (congrArg ctx.ring.nextAddr h.wp).trans
      (h.shape.shaped.nextAddr_elemAddr h.slots.write_lt)
  · refine h.slots.push hroom ?_ ?_
    · exact (h.slot_writeTre htype h.findIdx_wp).trans (if_pos rfl)
    · exact fun j hj hjw => (h.slot_writeTre htype h.findIdx_wp).trans (if_neg hjw)

theorem populateBatch (h : GpiAt ctx n r w pending) {xfers : List GsiXferElem}
    (hroom : pending.length + xfers.length < n) :
    ∃ ok entries ctx' w' queued, gsiPopulateBatch ctx xfers = some (ok, entries, ctx') ∧
      ctx'.stats = ctx.stats ∧ ctx'.ring.elemAddr = ctx.ring.elemAddr ∧
      GpiAt ctx' n r w' (pending ++ queued) ∧
      (ok = true → queued = xfers.map GsiXferElem.queued) := by
  induction xfers generalizing ctx w pending with
  | nil =>
    refine ⟨true, [], ctx, w, [], rfl, rfl, rfl, ?_, fun _ => rfl⟩
    rwa [append_nil]
  | cons xfer xfers ih =>
    rw [length_cons] at hroom
    cases htype : xfer.type.reType with
    | none =>
      refine ⟨false, [], ctx, w, [], ?_, rfl, rfl, ?_, fun hok => absurd hok Bool.false_ne_true⟩
      · rw [gsiPopulateBatch, h.gsiPopulate_eq, gsiPopulateTre, htype]
      · rwa [append_nil]
    | some reType =>
      obtain ⟨idx, hdone, hnext⟩ := h.populate htype (by omega)
      obtain ⟨ok, entries, ctx', w', queued, hbatch, hstats, haddr, hall, hok⟩ := ih hnext (by
        rw [length_append, length_singleton]
        omega)
      refine ⟨ok, w :: entries, ctx', w', xfer.queued :: queued, ?_, hstats, haddr,
        ?_, fun htrue => ?_⟩
      · rw [gsiPopulateBatch, hdone]
        exact congrArg (Option.map _) hbatch
      · rwa [append_assoc] at hall
      · rw [hok htrue, map_cons]

theorem rollback (h : GpiAt ctx n r w pending) {ctx' : GsiChanCtx} {w' : ℕ}
    {queued : List QueuedElem} (h' : GpiAt ctx' n r w' (pending ++ queued))
    (haddr : ctx'.ring.elemAddr = ctx.ring.elemAddr) :
    GpiAt (ctx'.setRing { ctx'.ring with wpLocal := ctx.ring.wpLocal }) n r w pending where
  shape := h'.shape.congr rfl rfl ⟨_, _, _, _, rfl⟩
  rp := h'.rp
  wp := h.wp.trans (congrFun haddr w).symm
  slots := by
    rw [h.slots.write_eq]
    exact h'.slots.truncate

theorem doorbellIf (h : GpiAt ctx n r w pending) (ringDb : Bool) :
    GpiAt (gsiDoorbellIf ringDb ctx) n r w pending := by
  cases ringDb with
  | false => exact h
  | true => exact ⟨h.shape.congr rfl rfl ⟨_, _, _, _, rfl⟩, h.rp, h.wp, h.slots⟩

theorem doorbellIf_stats (ctx : GsiChanCtx) (ringDb : Bool) :
    (gsiDoorbellIf ringDb ctx).stats = ctx.stats := by
  cases ringDb <;> rfl

theorem queue (h : GpiAt ctx n r w pending) (xfers : List GsiXferElem) (ringDb : Bool) :
    ∃ ret entries ctx' w', gsiQueueXfer ctx xfers ringDb = some (ret, entries, ctx') ∧
      (ret = -GSI_STATUS_RING_INSUFFICIENT_SPACE ↔
        ctx.ring.maxNumElem.toNat - pending.length < xfers.length) ∧
      ctx'.ring.elemAddr = ctx.ring.elemAddr ∧
      GpiAt ctx' n r w'
        (if ret = 0 then pending ++ xfers.map GsiXferElem.queued else pending) ∧
      ctx'.stats.completed = ctx.stats.completed ∧
      ctx'.stats.queued =
        if ret = 0 then ctx.stats.queued + UInt64.ofNat xfers.length else ctx.stats.queued := by
  have hprot : ¬ (ctx.props.prot ≠ .gpi ∧ ctx.props.prot ≠ .gci) := fun hne => hne.1 h.shape.prot
  have hgci : ctx.props.prot ≠ .gci := by
    rw [h.shape.prot]
    decide
  rw [gsiQueueXfer, if_neg h.shape.state, if_neg hprot, h.free_eq]
  by_cases hnil : xfers = []
  · subst hnil
    rw [if_pos rfl]
    refine ⟨0, [], _, w, rfl, ?_, ?_, ?_, ?_, ?_⟩
    · exact iff_of_false (by decide) (Nat.not_lt_zero _)
    · cases ringDb <;> rfl
    · rw [if_pos rfl, map_nil, append_nil]
      exact h.doorbellIf ringDb
    · rw [doorbellIf_stats]
    · rw [doorbellIf_stats, if_pos rfl]
      exact (UInt64.add_zero _).symm
  · rw [if_neg hnil]
    by_cases hroom : ctx.ring.maxNumElem.toNat - pending.length < xfers.length
    · rw [if_pos ⟨hgci, hroom⟩]
      exact ⟨_, [], ctx, w, rfl, iff_of_true rfl hroom, rfl, h, rfl, rfl⟩
    · rw [if_neg (fun hfull => hroom hfull.2)]
      have hlt := h.slots.length_lt
      have hnum := h.shape.shaped.numElem
      obtain ⟨ok, entries, ctx', w', queued, hbatch, hstats, haddr, hall, hok⟩ :=
        h.populateBatch (show pending.length + xfers.length < n by omega)
      cases ok with
      | false =>
        rw [hbatch]
        exact ⟨_, [], _, w, rfl, iff_of_false (by decide) hroom, haddr, h.rollback hall haddr,
          congrArg GsiChanStats.completed hstats, congrArg GsiChanStats.queued hstats⟩
      | true =>
        rw [hbatch]
        refine ⟨0, entries, _, w', rfl, iff_of_false (by decide) hroom, ?_, ?_, ?_, ?_⟩
        · rw [← haddr]
          cases ringDb <;> rfl
        · rw [if_pos rfl, ← hok rfl]
          refine GpiAt.doorbellIf ?_ ringDb
          exact ⟨hall.shape.congr rfl rfl ⟨_, _, _, _, rfl⟩, hall.rp, hall.wp, hall.slots⟩
        · rw [doorbellIf_stats, ← hstats]
        · rw [doorbellIf_stats, if_pos rfl, hstats]

theorem countCompleted (h : GpiAt ctx n r w pending) (hj : j < pending.length) :
    gsiCountCompleted ctx (ctx.ring.elemAddr ((r + j) % n)) =
      some { ctx with
        stats := { ctx.stats with completed := ctx.stats.completed + UInt64.ofNat j }
        ring := { ctx.ring with rpLocal := ctx.ring.elemAddr ((r + j) % n) } } := by
  have hr := h.slots.read_lt
  have hlt := h.slots.length_lt
  have hn := h.shape.shaped.le
  by_cases hzero : j = 0
  · rw [hzero, Nat.add_zero, Nat.mod_eq_of_lt hr, ← h.rp, gsiCountCompleted, if_pos rfl]
    simp
  · have hmod : (r + j) % n < n := Nat.mod_lt _ (by omega)
    have hne : r ≠ (r + j) % n := by
      have hslot := RingHolds.slot_ne (r := r) (Ne.symm hzero) (by omega) (hj.trans hlt)
      rwa [Nat.add_zero, Nat.mod_eq_of_lt hr] at hslot
    have hdist : (if r < (r + j) % n then (r + j) % n - r else n + (r + j) % n - r) = j := by
      by_cases hwrap : r + j < n
      · rw [Nat.mod_eq_of_lt hwrap, if_pos (by omega)]
        omega
      · rw [Nat.mod_eq_sub_mod (by omega), Nat.mod_eq_of_lt (by omega), if_neg (by omega)]
        omega
    have haddr : ctx.ring.rpLocal ≠ ctx.ring.elemAddr ((r + j) % n) := by
      rw [h.rp, ne_eq, h.shape.shaped.elemAddr_inj hr.le hmod.le]
      exact hne
    have hnum : (UInt16.ofNat j).toUInt64 = UInt64.ofNat j := by
      rw [← UInt64.toNat_inj, UInt16.toNat_toUInt64, UInt16.toNat_ofNat', UInt64.toNat_ofNat',
        Nat.mod_eq_of_lt (by omega), Nat.mod_eq_of_lt (by omega)]
    rw [gsiCountCompleted, if_neg haddr, h.rp,
      h.shape.shaped.getCompleteNum_elemAddr h.shape.ends h.shape.len hr hmod hne, hdist,
      Option.map_some, hnum]

theorem processEvtRe_eq (h : GpiAt ctx n r w pending) {evt : GsiXferComplEvt}
    (htype : evt.type ≠ GSI_XFER_COMPL_TYPE_GCI) (hj : j < pending.length)
    (hptr : evt.xferPtr = ctx.ring.elemAddr ((r + j) % n)) (notify : GsiChanXferNotify) :
    gsiProcessEvtRe ctx evt notify false =
      some (⟨ctx.props.chanUserData, pending[j].2, evt.code, evt.len, GSI_VEID_DEFAULT⟩,
        ((ctx.moveRp j (ctx.ring.nextAddr (ctx.ring.elemAddr ((r + j) % n)))).retire
          ((r + j) % n)).recycleEvt) := by
  have hr := h.slots.read_lt
  have hmod : (r + j) % n < n := Nat.mod_lt _ (by omega)
  have hprot : ¬ (ctx.props.prot ≠ .gpi ∧ ctx.props.prot ≠ .gci) := fun hne => hne.1 h.shape.prot
  have hidx : (gsiFindIdxFromAddr ctx.ring (ctx.ring.elemAddr ((r + j) % n))).toNat =
      (r + j) % n := h.shape.shaped.findIdx_elemAddr hmod
  have hdata : (ctx.userData ((r + j) % n)).p = pending[j].2 :=
    congrArg Prod.snd (h.slots.contents j hj)
  rw [gsiProcessEvtRe, gsiProcessChan, if_neg hprot, if_pos htype, hptr, gsiAdvanceChan,
    h.countCompleted hj]
  refine congrArg some (Prod.ext ?_ ?_)
  · exact congrArg (fun d => GsiChanXferNotify.mk ctx.props.chanUserData d evt.code evt.len
      GSI_VEID_DEFAULT) ((congrArg (fun i => (ctx.userData i).p) hidx).trans hdata)
  · exact congrArg (fun i => ((ctx.moveRp j
      (ctx.ring.nextAddr (ctx.ring.elemAddr ((r + j) % n)))).retire i).recycleEvt) hidx

theorem slot_retire (ctx : GsiChanCtx) (i : ℕ) : (ctx.retire i).slot = ctx.slot := by
  funext j
  refine Prod.ext rfl ?_
  by_cases hj : j = i
  · simp [GsiChanCtx.slot, GsiChanCtx.retire, hj]
  · simp [GsiChanCtx.slot, GsiChanCtx.retire, hj]

theorem retired (h : GpiAt ctx n r w pending) (hj : j < pending.length) :
    GpiAt ((ctx.moveRp j (ctx.ring.nextAddr (ctx.ring.elemAddr ((r + j) % n)))).retire
      ((r + j) % n)).recycleEvt n ((r + (j + 1)) % n) w (pending.drop (j + 1)) where
  shape := h.shape.congr rfl rfl ⟨_, _, _, _, rfl⟩
  rp := by
    have hr := h.slots.read_lt
    have hnext := h.shape.shaped.nextAddr_elemAddr (Nat.mod_lt (r + j) (by omega))
    rw [ringNext_mod (by omega)] at hnext
    exact hnext
  wp := h.wp
  slots := by
    have htake : (pending.take (j + 1)).length = j + 1 := by
      rw [length_take]
      omega
    have hsplit := h.slots
    rw [← take_append_drop (j + 1) pending] at hsplit
    have hrest := hsplit.popAll.2
    rw [htake, ← slot_retire ctx ((r + j) % n)] at hrest
    exact hrest

end GpiAt

/-! ## Runs -/

/-- What happens on the channel: a batch is queued, or an event is processed in polling
context. -/
inductive GpiOp
  | queue (xfers : List GsiXferElem) (ringDb : Bool)
  | complete (evt : GsiXferComplEvt) (notify : GsiChanXferNotify)

/-- The channel, and what is queued and not retired. -/
structure GpiRun where
  ctx : GsiChanCtx
  pending : List QueuedElem

namespace GpiRun

/-- How many elements after the read pointer the one of an event is. -/
def offset (s : GpiRun) (evt : GsiXferComplEvt) : ℕ :=
  (s.ctx.ring.elemOf evt.xferPtr + (s.ctx.ring.maxNumElem.toNat + 1) -
    s.ctx.ring.elemOf s.ctx.ring.rpLocal) % (s.ctx.ring.maxNumElem.toNat + 1)

def step (s : GpiRun) : GpiOp → Option GpiRun
  | .queue xfers ringDb =>
    (gsiQueueXfer s.ctx xfers ringDb).map fun (ret, _, ctx) =>
      ⟨ctx, if ret = 0 then s.pending ++ xfers.map GsiXferElem.queued else s.pending⟩
  | .complete evt notify =>
    (gsiProcessEvtRe s.ctx evt notify false).map fun (_, ctx) =>
      ⟨ctx, s.pending.drop (s.offset evt + 1)⟩

/-- An event points at an element that is queued and not retired. -/
def Allows (s : GpiRun) : GpiOp → Prop
  | .queue _ _ => True
  | .complete evt _ =>
    evt.type ≠ GSI_XFER_COMPL_TYPE_GCI ∧ s.ctx.ring.AtElem evt.xferPtr ∧
      s.offset evt < s.pending.length

/-- A batch is refused exactly where it is larger than what is free, and no batch touches what is
queued; an event hands back the user data queued with its element. -/
def Right (s : GpiRun) : GpiOp → Prop
  | .queue xfers ringDb =>
    ∃ ret entries ctx', gsiQueueXfer s.ctx xfers ringDb = some (ret, entries, ctx') ∧
      (ret = -GSI_STATUS_RING_INSUFFICIENT_SPACE ↔
        s.ctx.ring.maxNumElem.toNat - s.pending.length < xfers.length) ∧
      ∀ k < s.pending.length,
        ctx'.slot ((s.ctx.ring.elemOf s.ctx.ring.rpLocal + k) %
            (s.ctx.ring.maxNumElem.toNat + 1)) =
          s.ctx.slot ((s.ctx.ring.elemOf s.ctx.ring.rpLocal + k) %
            (s.ctx.ring.maxNumElem.toNat + 1))
  | .complete evt notify =>
    ∃ notify' ctx', gsiProcessEvtRe s.ctx evt notify false = some (notify', ctx') ∧
      s.pending[s.offset evt]?.map Prod.snd = some notify'.xferUserData

structure Ok (s : GpiRun) (n : ℕ) : Prop where
  at_elems : ∃ r w, GpiAt s.ctx n r w s.pending
  stats : s.ctx.stats.queued - s.ctx.stats.completed = UInt64.ofNat s.pending.length

variable {s : GpiRun} {n : ℕ}

theorem Ok.holds (h : s.Ok n) : GpiHolds s.ctx s.pending := by
  obtain ⟨r, w, hat⟩ := h.at_elems
  exact hat.holds h.stats

theorem Ok.step (h : s.Ok n) {op : GpiOp} (hallow : s.Allows op) :
    s.Right op ∧ ∀ s', s.step op = some s' → s'.Ok n := by
  obtain ⟨r, w, hat⟩ := h.at_elems
  have hr := hat.slots.read_lt
  have hnum := hat.shape.shaped.numElem
  have hread : s.ctx.ring.elemOf s.ctx.ring.rpLocal = r := by
    rw [hat.rp, hat.shape.shaped.elemOf_elemAddr hr]
  cases op with
  | queue xfers ringDb =>
    obtain ⟨ret, entries, ctx', w', hqueue, hfull, -, hat', hcompleted, hqueued⟩ :=
      hat.queue xfers ringDb
    refine ⟨⟨ret, entries, ctx', hqueue, hfull, fun k hk => ?_⟩, fun s' hstep => ?_⟩
    · rw [hread, hnum, hat.slots.contents k hk]
      by_cases hret : ret = 0
      · have hlt : k < (s.pending ++ xfers.map GsiXferElem.queued).length := by
          rw [length_append]
          omega
        rw [if_pos hret] at hat'
        rw [hat'.slots.contents k hlt, getElem_append_left hk]
      · rw [if_neg hret] at hat'
        exact hat'.slots.contents k hk
    · rw [GpiRun.step, hqueue, Option.map_some, Option.some.injEq] at hstep
      subst hstep
      refine ⟨⟨r, w', hat'⟩, ?_⟩
      have hstats := h.stats
      dsimp only
      rw [hcompleted, hqueued]
      by_cases hret : ret = 0
      · rw [if_pos hret, if_pos hret, length_append, length_map, UInt64.ofNat_add,
          ← hstats]
        grind
      · rwa [if_neg hret, if_neg hret]
  | complete evt notify =>
    obtain ⟨htype, hptr, hlt⟩ := hallow
    obtain ⟨i, hi, hptr⟩ := (hat.shape.shaped.atElem_iff hat.shape.ends).1 hptr
    have hoffset : s.offset evt = (i + n - r) % n := by
      rw [offset, hread, hnum, hptr, hat.shape.shaped.elemOf_elemAddr hi]
    have hback : (r + s.offset evt) % n = i := by
      rw [hoffset, Nat.add_mod_mod, Nat.add_sub_of_le (by omega), Nat.add_mod_right,
        Nat.mod_eq_of_lt hi]
    have hprocess := hat.processEvtRe_eq htype hlt (by rw [hptr, hback]) notify
    refine ⟨⟨_, _, hprocess, ?_⟩, fun s' hstep => ?_⟩
    · rw [getElem?_eq_getElem hlt]
      rfl
    · rw [GpiRun.step, hprocess, Option.map_some, Option.some.injEq] at hstep
      subst hstep
      refine ⟨⟨_, w, hat.retired hlt⟩, ?_⟩
      have hstats := h.stats
      have hlen : UInt64.ofNat s.pending.length =
          UInt64.ofNat (s.pending.length - (s.offset evt + 1)) +
            UInt64.ofNat (s.offset evt + 1) := by
        rw [← UInt64.ofNat_add, Nat.sub_add_cancel hlt]
      have hcompleted : s.ctx.stats.completed + UInt64.ofNat (s.offset evt) + 1 =
          s.ctx.stats.completed + UInt64.ofNat (s.offset evt + 1) := by
        rw [UInt64.add_assoc, UInt64.ofNat_add]
        rfl
      change s.ctx.stats.queued - (s.ctx.stats.completed + UInt64.ofNat (s.offset evt) + 1) = _
      rw [hcompleted, length_drop]
      rw [hlen] at hstats
      grind

def AllowedStep (s s' : GpiRun) : Prop := ∃ op, s.Allows op ∧ s.step op = some s'

end GpiRun

/-! ## From the properties of a channel -/

/-- Elements as large as what is written to them, at least one of them, and a ring that ends before
the address space does. -/
def GsiChanProps.Fits (props : GsiChanProps) : Prop :=
  treSize ≤ props.reSize.bytes.toNat ∧ props.ringLen ≠ 0 ∧
    props.ringBaseAddr.toNat + props.ringLen.toNat < 2 ^ 64

instance (props : GsiChanProps) : Decidable props.Fits :=
  inferInstanceAs (Decidable (_ ∧ _ ∧ _))

variable {gsi : GsiCtx} {props : GsiChanProps}

theorem ringLen_mod_of_valid (hvalid : gsiValidateChannelProps gsi props = 0) :
    props.ringLen % props.reSize.bytes.toUInt32 = 0 := by
  by_contra hmod
  unfold gsiValidateChannelProps at hvalid
  by_cases hid : gsi.maxCh ≤ props.chId.toUInt32
  · rw [if_pos hid] at hvalid
    exact absurd hvalid (by decide)
  · rw [if_neg hid, if_pos hmod] at hvalid
    exact absurd hvalid (by decide)

theorem gpiShape_of_valid (hvalid : gsiValidateChannelProps gsi props = 0)
    (hprot : props.prot = .gpi) (hnum : props.ringLen.toNat / props.reSize.bytes.toNat ≤ 2 ^ 16)
    (hfits : props.Fits) {state : GsiChanState} (hstate : state ≠ .notAllocated) (mem : Mem)
    (evtr : GsiEvtCtx) :
    GpiShape (gsiAllocChannel props state mem evtr)
      (props.ringLen.toNat / props.reSize.bytes.toNat) := by
  have hmod : props.ringLen.toNat % props.reSize.bytes.toNat = 0 := by
    have hval := congrArg UInt32.toNat (ringLen_mod_of_valid hvalid)
    rwa [UInt32.toNat_mod, UInt8.toNat_toUInt32] at hval
  have hlen : props.ringLen.toNat / props.reSize.bytes.toNat * props.reSize.bytes.toNat =
      props.ringLen.toNat := Nat.div_mul_cancel (Nat.dvd_of_mod_eq_zero hmod)
  have hpos : 0 < props.ringLen.toNat / props.reSize.bytes.toNat := by
    apply Nat.pos_of_ne_zero
    intro hempty
    rw [hempty, Nat.zero_mul] at hlen
    exact hfits.2.1 (UInt32.toNat_inj.1 hlen.symm)
  have hdiv : (props.ringLen / props.reSize.bytes.toUInt32).toNat =
      props.ringLen.toNat / props.reSize.bytes.toNat := by
    rw [UInt32.toNat_div, UInt8.toNat_toUInt32]
  have hmax : (gsiInitChanRing props).maxNumElem.toNat + 1 =
      props.ringLen.toNat / props.reSize.bytes.toNat := by
    have hone : (1 : UInt32) ≤ props.ringLen / props.reSize.bytes.toUInt32 := by
      rw [UInt32.le_iff_toNat_le, hdiv]
      exact hpos
    have hval : (gsiInitChanRing props).maxNumElem.toNat =
        (props.ringLen / props.reSize.bytes.toUInt32 - 1).toNat % 2 ^ 16 := UInt32.toNat_toUInt16 _
    rw [hval, UInt32.toNat_sub_of_le _ _ hone, hdiv, UInt32.toNat_one]
    omega
  refine ⟨hprot, hstate, ?_, ?_, hlen.symm, hfits.1⟩
  · have hshaped := gsiInitChanRing_shaped props
    rwa [hmax] at hshaped
  · have hend := hfits.2.2
    rw [← hlen] at hend
    exact hend

/-- On a ring that fits, from the set-up of the channel on, the elements queued and not retired are
those between the pointers, and every next step is right. -/
theorem gpiRun_holds {gsi : GsiCtx} {props : GsiChanProps}
    (hvalid : gsiValidateChannelProps gsi props = 0) (hprot : props.prot = .gpi)
    (hnum : props.ringLen.toNat / props.reSize.bytes.toNat ≤ 2 ^ 16) (hfits : props.Fits)
    {state : GsiChanState} (hstate : state ≠ .notAllocated) {mem : Mem} {evtr : GsiEvtCtx}
    {s : GpiRun}
    (hrun : Relation.ReflTransGen GpiRun.AllowedStep ⟨gsiAllocChannel props state mem evtr, []⟩
      s) :
    GpiHolds s.ctx s.pending ∧ ∀ op : GpiOp, s.Allows op → s.Right op := by
  have hok : s.Ok (props.ringLen.toNat / props.reSize.bytes.toNat) := by
    induction hrun with
    | refl =>
      have hshape := gpiShape_of_valid hvalid hprot hnum hfits hstate mem evtr
      have hstart : props.ringBaseAddr = (gsiInitChanRing props).elemAddr 0 := by
        rw [GsiRingCtx.elemAddr, Nat.zero_mul]
        exact (UInt64.add_zero _).symm
      exact ⟨⟨0, 0, hshape, hstart, hstart, .nil _ hshape.shaped.pos⟩, UInt64.sub_self 0⟩
    | tail _ hlast ih =>
      obtain ⟨op, hallow, hstep⟩ := hlast
      exact (ih.step hallow).2 _ hstep
  exact ⟨hok.holds, fun op hallow => (hok.step hallow).1⟩

def sampleGpiProps : GsiChanProps where
  prot := .gpi
  dir := .fromGsi
  chId := 0
  reSize := .re16B
  ringLen := 64
  ringBaseAddr := 0x1000
  ringBaseVaddr := 0x1000
  lowWeight := 1
  txPoll := false
  xferCb := true
  errCb := true
  chanUserData := 0

def sampleGsi : GsiCtx := ⟨31, 13⟩

def GsiChanProps.run (props : GsiChanProps) : GpiRun where
  ctx := gsiAllocChannel props .started (fun _ => 0) ⟨gsiInitChanRing props, 0⟩
  pending := []

def sampleElem (data : UInt64) : GsiXferElem := ⟨0x2000, 64, 0, .data, data⟩

def GpiRun.after (s : GpiRun) (xfers : List GsiXferElem) : GpiRun :=
  (s.step (.queue xfers false)).getD s

def sampleComplete (xferPtr : UInt64) : GpiOp := .complete ⟨xferPtr, 64, 0, 2, 0x22⟩ ⟨0, 0, 0, 0, 0⟩

def GpiRun.completed (s : GpiRun) (xferPtr : UInt64) : GpiRun :=
  (s.step (sampleComplete xferPtr)).getD s

/-- Three elements are queued, of which one event retires two. -/
def sampleGpiRetired : GpiRun :=
  (sampleGpiProps.run.after [sampleElem 7, sampleElem 8, sampleElem 9]).completed 0x1010

theorem sampleGpi_right :
    GpiHolds sampleGpiRetired.ctx [(sampleElem 9).queued] ∧
      sampleGpiRetired.Right (sampleComplete 0x1020) := by
  have hqueue : GpiRun.AllowedStep sampleGpiProps.run
      (sampleGpiProps.run.after [sampleElem 7, sampleElem 8, sampleElem 9]) :=
    ⟨.queue [sampleElem 7, sampleElem 8, sampleElem 9] false, trivial, rfl⟩
  have hretire : GpiRun.AllowedStep
      (sampleGpiProps.run.after [sampleElem 7, sampleElem 8, sampleElem 9]) sampleGpiRetired :=
    ⟨sampleComplete 0x1010, ⟨by decide, ⟨by decide, by decide, by decide⟩, by decide⟩, rfl⟩
  have hright := gpiRun_holds (by decide : gsiValidateChannelProps sampleGsi sampleGpiProps = 0)
    rfl (by decide) (by decide) (by decide) (.tail (.single hqueue) hretire)
  exact ⟨hright.1, hright.2 (sampleComplete 0x1020)
    ⟨by decide, ⟨by decide, by decide, by decide⟩, by decide⟩⟩

/-- Elements of eight bytes pass the checks, but the second transfer is written over the first one;
so does a ring up to the end of the address space, where the kernel stops at an event. -/
theorem narrow_elements_overwritten :
    let narrow : GsiChanProps := { sampleGpiProps with reSize := .re8B }
    let last : GsiChanProps := { sampleGpiProps with ringBaseAddr := 0xFFFFFFFFFFFFFFC0 }
    (gsiValidateChannelProps sampleGsi narrow = 0 ∧
      (narrow.run.after [sampleElem 7]).pending = [(sampleElem 7).queued] ∧
      (narrow.run.after [sampleElem 7]).ctx.slot 0 = (sampleElem 7).queued ∧
      ((narrow.run.after [sampleElem 7]).after [sampleElem 8]).ctx.slot 0 ≠
        (sampleElem 7).queued) ∧
    (gsiValidateChannelProps sampleGsi last = 0 ∧
      ((last.run.after [sampleElem 7, sampleElem 8]).step
        (.complete ⟨0xFFFFFFFFFFFFFFD0, 64, 0, 2, 0x22⟩ ⟨0, 0, 0, 0, 0⟩)).isNone = true) := by
  decide +kernel

end QcomModules.Gsi
