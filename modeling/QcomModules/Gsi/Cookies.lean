import Mathlib.Data.List.Perm.Subperm
import QcomModules.Gsi.Channel

/-! Coalescing channels complete their transfers out of order, so each transfer carries a cookie
that names its entry of `user_data`. -/

namespace QcomModules.Gsi

open Library List Function

/-- The cookies of the transfers that are outstanding, with the user data queued with them. -/
abbrev Outstanding := List (ℕ × UInt64)

/-- The entries of `user_data` that are in use are those of the outstanding transfers, each of
which has its own, with its data in it. -/
structure Cookies (ctx : GsiChanCtx) (out : Outstanding) : Prop where
  valid_iff : ∀ i, (ctx.userData i).valid = true ↔ i ∈ out.map Prod.fst
  nodup : (out.map Prod.fst).Nodup
  lt_capacity : ∀ c ∈ out, c.1 < ctx.capacity
  data_eq : ∀ c ∈ out, (ctx.userData c.1).p = c.2

/-- A transfer that a coalescing channel takes. -/
def GsiXferElem.Coalesces (xfer : GsiXferElem) : Prop :=
  xfer.addr &&& 0xFFFFFF0000000000 = 0 ∧ xfer.type = .data

instance (xfer : GsiXferElem) : Decidable xfer.Coalesces := inferInstanceAs (Decidable (_ ∧ _))

/-! ## Giving out an entry -/

/-- The channel is an allocated coalescing one, and its write pointer is at an element. -/
structure GsiChanCtx.Ready (ctx : GsiChanCtx) : Prop where
  prot : ctx.props.prot = .gci
  state : ctx.state ≠ .notAllocated
  write : ∃ i ≤ ctx.ring.maxNumElem.toNat, ctx.ring.wpLocal = ctx.ring.elemAddr i
  shaped : ctx.ring.Shaped (ctx.ring.maxNumElem.toNat + 1)

/-- What queueing leaves alone. -/
structure SameChan (ctx ctx' : GsiChanCtx) : Prop where
  props : ctx'.props = ctx.props
  state : ctx'.state = ctx.state
  maxNumElem : ctx'.ring.maxNumElem = ctx.ring.maxNumElem

/-- The transfer got the free entry `c`, with its data `d`. -/
structure Gives (ctx ctx' : GsiChanCtx) (c : ℕ) (d : UInt64) : Prop extends
    SameChan ctx ctx' where
  free : (ctx.userData c).valid = false
  lt : c < ctx.capacity
  userData : ctx'.userData = Function.update ctx.userData c ⟨true, d⟩
  ready : ctx'.Ready

section Entries

variable {ctx ctx' : GsiChanCtx} {idx : UInt16} {c : ℕ} {out : Outstanding}

theorem gsiGetGciCookie_cases (hidx : idx.toNat ≤ ctx.ring.maxNumElem.toNat) :
    (gsiGetGciCookie ctx idx = none ∧ ∀ i < ctx.capacity, (ctx.userData i).valid = true) ∨
      ∃ c stats, gsiGetGciCookie ctx idx = some (c, { ctx with stats := stats }.markValid c) ∧
        (ctx.userData c).valid = false ∧ c < ctx.capacity := by
  have hcap : ctx.capacity = ctx.ring.maxNumElem.toNat + 1 + GSI_VEID_MAX := rfl
  unfold gsiGetGciCookie
  by_cases hhome : (ctx.userData idx.toNat).valid = true
  · rw [if_neg (not_not_intro hhome)]
    dsimp only
    split
    · -- an entry of the escape buffer
      rename_i i hfind
      rw [find?_range_eq_some] at hfind
      obtain ⟨hfree, hmem, -⟩ := hfind
      rw [mem_range] at hmem
      exact Or.inr ⟨_, _, rfl, by simpa using hfree, by omega⟩
    · rename_i hescape
      rw [find?_range_eq_none] at hescape
      split
      · -- the home of another element
        rename_i i hfind
        rw [find?_range_eq_some] at hfind
        obtain ⟨hfree, hmem, -⟩ := hfind
        rw [mem_range] at hmem
        exact Or.inr ⟨_, _, rfl, by simpa using hfree, by omega⟩
      · rename_i hhomes
        rw [find?_range_eq_none] at hhomes
        refine Or.inl ⟨rfl, fun i hi => ?_⟩
        by_cases hlow : i < ctx.ring.maxNumElem.toNat + 1
        · simpa using hhomes i hlow
        · have hfull := hescape (i - (ctx.ring.maxNumElem.toNat + 1)) (by omega)
          rw [Nat.add_sub_of_le (by omega)] at hfull
          simpa using hfull
  · rw [if_pos hhome]
    exact Or.inr ⟨_, ctx.stats, rfl, by simpa using hhome, by omega⟩

theorem Cookies.exists_free (h : Cookies ctx out) (hroom : out.length < ctx.capacity) :
    ¬ ∀ i < ctx.capacity, (ctx.userData i).valid = true := by
  intro hfull
  have hsub : range ctx.capacity ⊆ out.map Prod.fst := by
    intro i hi
    exact (h.valid_iff i).1 (hfull i (mem_range.1 hi))
  have hlen := (subperm_of_subset nodup_range hsub).length_le
  rw [length_range, length_map] at hlen
  omega

theorem GsiChanCtx.Ready.idx_le (h : ctx.Ready) :
    (gsiFindIdxFromAddr ctx.ring ctx.ring.wpLocal).toNat ≤ ctx.ring.maxNumElem.toNat := by
  obtain ⟨i, hi, hwrite⟩ := h.write
  rw [hwrite, h.shaped.findIdx_elemAddr (Nat.lt_succ_of_le hi)]
  exact hi

theorem GsiChanCtx.Ready.incr (h : ctx.Ready) : (ctx.setRing (gsiIncrRingWp ctx.ring)).Ready := by
  obtain ⟨i, hi, hwrite⟩ := h.write
  have hnext := ringNext_lt (i := i) (Nat.succ_pos ctx.ring.maxNumElem.toNat)
  refine ⟨h.prot, h.state, ⟨_, Nat.le_of_lt_succ hnext, ?_⟩, ?_⟩
  · exact (congrArg ctx.ring.nextAddr hwrite).trans
      (h.shaped.nextAddr_elemAddr (Nat.lt_succ_of_le hi))
  · exact ⟨h.shaped.elemSz_pos, h.shaped.numElem, h.shaped.ringEnd_eq⟩

variable {xfer : GsiXferElem}

theorem gsiPopulate_of_not_coalesces (h : ctx.Ready) (hbad : ¬ xfer.Coalesces) :
    gsiPopulate ctx xfer = .failed (-EINVAL) ctx := by
  rw [gsiPopulate, if_pos h.prot, gsiPopulateGciTre]
  by_cases haddr : xfer.addr &&& 0xFFFFFF0000000000 = 0
  · rw [if_neg (not_not_intro haddr), if_pos fun htype => hbad ⟨haddr, htype⟩]
  · rw [if_pos haddr]

theorem gsiPopulate_of_coalesces (h : ctx.Ready) (hgood : xfer.Coalesces) :
    (gsiPopulate ctx xfer = .bug ∧ ∀ i < ctx.capacity, (ctx.userData i).valid = true) ∨
      ∃ c ctx', gsiPopulate ctx xfer = .done c ctx' ∧ Gives ctx ctx' c xfer.xferUserData := by
  rw [gsiPopulate, if_pos h.prot, gsiPopulateGciTre, if_neg (not_not_intro hgood.1),
    if_neg (not_not_intro hgood.2)]
  obtain ⟨hnone, hfull⟩ | ⟨c, stats, hsome, hfree, hlt⟩ := gsiGetGciCookie_cases h.idx_le
  · simp only [hnone]
    exact Or.inl ⟨trivial, hfull⟩
  · have hcap : ctx.capacity = ctx.ring.maxNumElem.toNat + 1 + GSI_VEID_MAX := rfl
    have hmax := UInt16.toNat_lt ctx.ring.maxNumElem
    have hcookie : (BitVec.ofNat 40 c).toNat = c := by
      rw [BitVec.toNat_ofNat, Nat.mod_eq_of_lt]
      have hveid : GSI_VEID_MAX = 17 := rfl
      omega
    have hin : ¬ ctx.ring.maxNumElem.toNat + GSI_VEID_MAX < c := by omega
    simp only [hsome, hcookie, GsiChanCtx.markValid_ring]
    rw [if_neg hin]
    refine Or.inr ⟨c, _, rfl, ⟨rfl, rfl, rfl⟩, hfree, hlt, ?_, h.prot, h.state, h.write, h.shaped⟩
    simp [GsiChanCtx.markValid, GsiChanCtx.setUserData, GsiChanCtx.writeElem]

theorem Cookies.give (h : Cookies ctx out) {d : UInt64} (hgive : Gives ctx ctx' c d) :
    Cookies ctx' (out ++ [(c, d)]) where
  valid_iff := by
    intro i
    rw [hgive.userData, map_append, mem_append]
    by_cases hi : i = c
    · simp [hi]
    · rw [update_of_ne hi, h.valid_iff i]
      simp [hi]
  nodup := by
    rw [map_append, nodup_append]
    refine ⟨h.nodup, pairwise_singleton .., ?_⟩
    rintro i hi j hj rfl
    obtain rfl := mem_singleton.1 hj
    exact absurd ((h.valid_iff i).2 hi) (by simp [hgive.free])
  lt_capacity := by
    intro b hb
    have hcap : ctx'.capacity = ctx.capacity := by
      rw [GsiChanCtx.capacity, GsiChanCtx.capacity, hgive.maxNumElem]
    rw [hcap]
    rcases mem_append.1 hb with hold | hnew
    · exact h.lt_capacity b hold
    · obtain rfl := mem_singleton.1 hnew
      exact hgive.lt
  data_eq := by
    intro b hb
    rw [hgive.userData]
    rcases mem_append.1 hb with hold | hnew
    · have hne : b.1 ≠ c := by
        rintro rfl
        have hvalid := (h.valid_iff b.1).2 (mem_map_of_mem hold)
        exact absurd hvalid (by simp [hgive.free])
      rw [update_of_ne hne, h.data_eq b hold]
    · obtain rfl := mem_singleton.1 hnew
      rw [update_self]

end Entries

/-! ## Batches -/

section Batches

variable {ctx ctx' : GsiChanCtx} {out : Outstanding}

theorem Gives.incr {c : ℕ} {d : UInt64} (h : Gives ctx ctx' c d) :
    Gives ctx (ctx'.setRing (gsiIncrRingWp ctx'.ring)) c d :=
  ⟨⟨h.props, h.state, h.maxNumElem⟩, h.free, h.lt, h.userData, h.ready.incr⟩

variable {xfers : List GsiXferElem} {ok : Bool}

theorem gsiPopulateBatch_accepted (hready : ctx.Ready) (h : Cookies ctx out)
    (hgood : ∀ xfer ∈ xfers, xfer.Coalesces) (hroom : out.length + xfers.length ≤ ctx.capacity) :
    ∃ entries ctx', gsiPopulateBatch ctx xfers = some (true, entries, ctx') ∧
      entries.length = xfers.length ∧ ctx'.Ready ∧
      Cookies ctx' (out ++ entries.zip (xfers.map GsiXferElem.xferUserData)) := by
  induction xfers generalizing ctx out with
  | nil => exact ⟨[], ctx, rfl, rfl, hready, by simpa using h⟩
  | cons xfer xfers ih =>
    rw [length_cons] at hroom
    have hxfer := hgood xfer mem_cons_self
    obtain ⟨-, hfull⟩ | ⟨c, ctx1, hdone, hgive⟩ := gsiPopulate_of_coalesces hready hxfer
    · exact absurd hfull (h.exists_free (by omega))
    · have hnext := hgive.incr
      have hcap : (ctx1.setRing (gsiIncrRingWp ctx1.ring)).capacity = ctx.capacity := by
        rw [GsiChanCtx.capacity, GsiChanCtx.capacity, hnext.maxNumElem]
      obtain ⟨entries, ctx', hbatch, hlen, hready', hcookies⟩ :=
        ih hnext.ready (h.give hnext) (fun x hx => hgood x (mem_cons_of_mem xfer hx)) (by
          rw [hcap, length_append, length_singleton]
          omega)
      refine ⟨c :: entries, ctx', ?_, ?_, hready', ?_⟩
      · rw [gsiPopulateBatch, hdone]
        simp only [hbatch, Option.map_some]
      · rw [length_cons, length_cons, hlen]
      · rwa [append_assoc] at hcookies

/-- Queueing takes no entry back: what a batch has given out stays in use, and a batch with a bad
transfer is not accepted. -/
theorem gsiPopulateBatch_keeps (hready : ctx.Ready) {entries : List ℕ}
    (hbatch : gsiPopulateBatch ctx xfers = some (ok, entries, ctx')) :
    (∀ i, (ctx.userData i).valid = true → (ctx'.userData i).valid = true) ∧
      (ok = true → ∀ xfer ∈ xfers, xfer.Coalesces) := by
  induction xfers generalizing ctx entries with
  | nil =>
    simp only [gsiPopulateBatch, Option.some.injEq, Prod.mk.injEq] at hbatch
    obtain ⟨-, -, rfl⟩ := hbatch
    exact ⟨fun _ hi => hi, fun _ _ hx => absurd hx not_mem_nil⟩
  | cons xfer xfers ih =>
    rw [gsiPopulateBatch] at hbatch
    by_cases hxfer : xfer.Coalesces
    · obtain ⟨hbug, -⟩ | ⟨c, ctx1, hdone, hgive⟩ := gsiPopulate_of_coalesces hready hxfer
      · simp only [hbug, reduceCtorEq] at hbatch
      · simp only [hdone, Option.map_eq_some_iff, Prod.mk.injEq, Prod.exists] at hbatch
        obtain ⟨ok', entries', ctx2, hrest, rfl, -, rfl⟩ := hbatch
        obtain ⟨hkeep, hall⟩ := ih hgive.incr.ready hrest
        refine ⟨fun i hi => hkeep i ?_, fun hok => ?_⟩
        · rw [hgive.incr.userData]
          by_cases hic : i = c
          · rw [hic, update_self]
          · rwa [update_of_ne hic]
        · exact forall_mem_cons.2 ⟨hxfer, hall hok⟩
    · simp only [gsiPopulate_of_not_coalesces hready hxfer, Option.some.injEq,
        Prod.mk.injEq] at hbatch
      obtain ⟨rfl, -, rfl⟩ := hbatch
      exact ⟨fun _ hi => hi, fun hok => absurd hok Bool.false_ne_true⟩

theorem gsiPopulateBatch_marks (hready : ctx.Ready) {xfer : GsiXferElem} (hxfer : xfer.Coalesces)
    {entries : List ℕ} (hbatch : gsiPopulateBatch ctx (xfer :: xfers) = some (ok, entries, ctx')) :
    ctx'.userData ≠ ctx.userData := by
  rw [gsiPopulateBatch] at hbatch
  obtain ⟨hbug, -⟩ | ⟨c, ctx1, hdone, hgive⟩ := gsiPopulate_of_coalesces hready hxfer
  · simp only [hbug, reduceCtorEq] at hbatch
  · simp only [hdone, Option.map_eq_some_iff, Prod.mk.injEq, Prod.exists] at hbatch
    obtain ⟨ok', entries', ctx2, hrest, -, -, rfl⟩ := hbatch
    have hmarked : (ctx2.userData c).valid = true := by
      refine (gsiPopulateBatch_keeps hgive.incr.ready hrest).1 c ?_
      rw [hgive.incr.userData, update_self]
    intro hsame
    rw [hsame, hgive.free] at hmarked
    exact absurd hmarked Bool.false_ne_true

end Batches

/-! ## Runs -/

/-- What happens on the channel: a batch is queued, or an event is processed in polling
context. -/
inductive GciOp
  | queue (xfers : List GsiXferElem) (ringDb : Bool)
  | complete (evt : GsiXferComplEvt) (notify : GsiChanXferNotify)

/-- The channel, and the transfers that are outstanding. -/
structure GciRun where
  ctx : GsiChanCtx
  out : Outstanding

namespace GciRun

/-- The outstanding transfers after those with the given entries were queued. -/
def queued (s : GciRun) (entries : List ℕ) (xfers : List GsiXferElem) : Outstanding :=
  s.out ++ entries.zip (xfers.map GsiXferElem.xferUserData)

def completed (s : GciRun) (evt : GsiXferComplEvt) : Outstanding :=
  s.out.filter fun c => c.1 ≠ evt.cookie.toNat

def step (s : GciRun) : GciOp → Option GciRun
  | .queue xfers ringDb =>
    (gsiQueueXfer s.ctx xfers ringDb).map fun (_, entries, ctx) => ⟨ctx, s.queued entries xfers⟩
  | .complete evt notify =>
    (gsiProcessEvtRe s.ctx evt notify false).map fun (_, ctx) => ⟨ctx, s.completed evt⟩

/-- The transfers never outnumber the entries of `user_data`, and an event carries the cookie of an
outstanding transfer. -/
def Allows (s : GciRun) : GciOp → Prop
  | .queue xfers _ =>
    (∀ xfer ∈ xfers, xfer.Coalesces) → s.out.length + xfers.length ≤ s.ctx.capacity
  | .complete evt _ =>
    evt.type = GSI_XFER_COMPL_TYPE_GCI ∧ evt.cookie.toNat ∈ s.out.map Prod.fst

/-- A step does what it should: the entries in use are those of the outstanding transfers, a batch
is taken whole or changes nothing, and an event hands back the data of its own transfer. -/
def Right (s : GciRun) : GciOp → Prop
  | .queue xfers ringDb =>
    ∃ ret entries ctx', gsiQueueXfer s.ctx xfers ringDb = some (ret, entries, ctx') ∧
      Cookies ctx' (s.queued entries xfers) ∧
      (ret = 0 ∧ entries.length = xfers.length ∨
        ret = -GSI_STATUS_INVALID_PARAMS ∧ entries = [] ∧
          ctx'.ring.wpLocal = s.ctx.ring.wpLocal ∧ ctx'.userData = s.ctx.userData)
  | .complete evt notify =>
    ∃ notify' ctx', gsiProcessEvtRe s.ctx evt notify false = some (notify', ctx') ∧
      Cookies ctx' (s.completed evt) ∧ (evt.cookie.toNat, notify'.xferUserData) ∈ s.out

/-- No transfer of the batch comes before a bad one, and the cookie is in the range of the 16 bits
it is cut down to. -/
def Sound : GciOp → Prop
  | .queue [] _ => True
  | .queue (xfer :: xfers) _ => xfer.Coalesces → ∀ x ∈ xfers, x.Coalesces
  | .complete evt _ => evt.cookie.toNat < 2 ^ 16

end GciRun

section Steps

variable {ctx ctx' : GsiChanCtx} {out : Outstanding}

theorem Cookies.congr (h : Cookies ctx out) (hdata : ctx'.userData = ctx.userData)
    (hmax : ctx'.ring.maxNumElem = ctx.ring.maxNumElem) : Cookies ctx' out where
  valid_iff := hdata ▸ h.valid_iff
  nodup := h.nodup
  lt_capacity := by
    rw [GsiChanCtx.capacity, hmax]
    exact h.lt_capacity
  data_eq := hdata ▸ h.data_eq

theorem Cookies.complete (h : Cookies ctx out) {c : ℕ}
    (hdata : ctx'.userData =
      Function.update ctx.userData c { ctx.userData c with valid := false })
    (hmax : ctx'.ring.maxNumElem = ctx.ring.maxNumElem) :
    Cookies ctx' (out.filter fun b => b.1 ≠ c) where
  valid_iff := by
    intro i
    have hmem : i ∈ (out.filter fun b => b.1 ≠ c).map Prod.fst ↔ i ∈ out.map Prod.fst ∧ i ≠ c := by
      simp only [mem_map, mem_filter, decide_eq_true_eq]
      constructor
      · rintro ⟨b, ⟨hb, hne⟩, rfl⟩
        exact ⟨⟨b, hb, rfl⟩, hne⟩
      · rintro ⟨⟨b, hb, rfl⟩, hne⟩
        exact ⟨b, ⟨hb, hne⟩, rfl⟩
    rw [hdata, hmem]
    by_cases hi : i = c
    · simp [hi]
    · simp [h.valid_iff i, hi]
  nodup := h.nodup.sublist (filter_sublist.map _)
  lt_capacity := by
    rw [GsiChanCtx.capacity, hmax]
    exact fun b hb => h.lt_capacity b (mem_of_mem_filter hb)
  data_eq := by
    intro b hb
    obtain ⟨hmem, hne⟩ := mem_filter.1 hb
    rw [hdata, update_of_ne (by simpa using hne), h.data_eq b hmem]

theorem gsiDoorbellIf_frame (ringDb : Bool) (h : ctx.Ready) :
    (gsiDoorbellIf ringDb ctx).Ready ∧ (gsiDoorbellIf ringDb ctx).userData = ctx.userData ∧
      (gsiDoorbellIf ringDb ctx).ring.maxNumElem = ctx.ring.maxNumElem := by
  cases ringDb with
  | false => exact ⟨h, rfl, rfl⟩
  | true =>
    have hshaped := h.shaped
    exact ⟨⟨h.prot, h.state, h.write, hshaped.elemSz_pos, hshaped.numElem, hshaped.ringEnd_eq⟩,
      rfl, rfl⟩

theorem gsiQueueXfer_gci (h : ctx.Ready) {xfers : List GsiXferElem} (hne : xfers ≠ [])
    (ringDb : Bool) :
    gsiQueueXfer ctx xfers ringDb =
      match gsiPopulateBatch ctx xfers with
      | none => none
      | some (false, _, ctx') =>
        some (-GSI_STATUS_INVALID_PARAMS, [],
          ctx'.setRing { ctx'.ring with wpLocal := ctx.ring.wpLocal })
      | some (true, entries, ctx') =>
        some (0, entries, gsiDoorbellIf ringDb { ctx' with
          stats := { ctx'.stats with
            queued := ctx'.stats.queued + UInt64.ofNat xfers.length } }) :=
  (if_neg h.state).trans ((if_neg fun hprot => hprot.2 h.prot).trans
    ((if_neg hne).trans (if_neg fun hprot => hprot.1 h.prot)))

theorem gsiProcessEvtRe_gci (h : ctx.Ready) {evt : GsiXferComplEvt}
    (htype : evt.type = GSI_XFER_COMPL_TYPE_GCI) (notify : GsiChanXferNotify) :
    gsiProcessEvtRe ctx evt notify false =
      some (⟨ctx.props.chanUserData, (ctx.userData (evt.cookie.toNat % 2 ^ 16)).p, evt.code,
        evt.len, evt.veid⟩, (ctx.retire (evt.cookie.toNat % 2 ^ 16)).recycleEvt) := by
  have hidx : evt.cookie.toUInt16.toNat = evt.cookie.toNat % 2 ^ 16 := UInt64.toNat_toUInt16 _
  rw [gsiProcessEvtRe, gsiProcessChan, if_neg (fun hprot => hprot.2 h.prot),
    if_neg (not_not_intro htype)]
  simp only [gsiNotifyChan, GsiChanProps.retires, Bool.not_false, Bool.true_or, if_true,
    Option.map_some, hidx, Bool.false_and, Bool.false_eq_true, if_false]

theorem GsiChanCtx.Ready.retire (h : ctx.Ready) (i : ℕ) : (ctx.retire i).recycleEvt.Ready :=
  ⟨h.prot, h.state, h.write, h.shaped⟩

end Steps

namespace GciRun

variable {s s' : GciRun}

structure Ok (s : GciRun) : Prop where
  ready : s.ctx.Ready
  cookies : Cookies s.ctx s.out

variable {op : GciOp}

theorem Ok.step (h : s.Ok) (hallow : s.Allows op) (hsound : Sound op) :
    s.Right op ∧ ∀ s', s.step op = some s' → s'.Ok := by
  cases op with
  | queue xfers ringDb =>
    have hright : ∃ ret entries ctx', gsiQueueXfer s.ctx xfers ringDb =
        some (ret, entries, ctx') ∧ Cookies ctx' (s.queued entries xfers) ∧ ctx'.Ready ∧
        (ret = 0 ∧ entries.length = xfers.length ∨
          ret = -GSI_STATUS_INVALID_PARAMS ∧ entries = [] ∧
            ctx'.ring.wpLocal = s.ctx.ring.wpLocal ∧ ctx'.userData = s.ctx.userData) := by
      cases xfers with
      | nil =>
        obtain ⟨hready, hdata, hmax⟩ := gsiDoorbellIf_frame ringDb h.ready
        refine ⟨0, [], _, ?_, ?_, hready, Or.inl ⟨rfl, rfl⟩⟩
        · rw [gsiQueueXfer, if_neg h.ready.state,
            if_neg (fun hprot => hprot.2 h.ready.prot), if_pos rfl]
        · rw [queued, zip_nil_left, append_nil]
          exact h.cookies.congr hdata hmax
      | cons xfer xfers =>
        rw [gsiQueueXfer_gci h.ready (cons_ne_nil xfer xfers)]
        by_cases hxfer : xfer.Coalesces
        · have hgood := forall_mem_cons.2 ⟨hxfer, hsound hxfer⟩
          obtain ⟨entries, ctx', hbatch, hlen, hready, hcookies⟩ :=
            gsiPopulateBatch_accepted h.ready h.cookies hgood (hallow hgood)
          have hready' : ({ ctx' with stats := { ctx'.stats with
              queued := ctx'.stats.queued + UInt64.ofNat (xfer :: xfers).length } } :
                GsiChanCtx).Ready :=
            ⟨hready.prot, hready.state, hready.write, hready.shaped⟩
          obtain ⟨hready'', hdata, hmax⟩ := gsiDoorbellIf_frame ringDb hready'
          rw [hbatch]
          exact ⟨0, entries, _, rfl, hcookies.congr hdata hmax, hready'',
            Or.inl ⟨rfl, hlen⟩⟩
        · rw [gsiPopulateBatch, gsiPopulate_of_not_coalesces h.ready hxfer]
          refine ⟨_, [], _, rfl, ?_, ?_, Or.inr ⟨rfl, rfl, rfl, rfl⟩⟩
          · rw [queued, zip_nil_left, append_nil]
            exact h.cookies.congr rfl rfl
          · exact ⟨h.ready.prot, h.ready.state, h.ready.write, h.ready.shaped⟩
    obtain ⟨ret, entries, ctx', hqueue, hcookies, hready, hret⟩ := hright
    refine ⟨⟨ret, entries, ctx', hqueue, hcookies, hret⟩, fun s' hstep => ?_⟩
    rw [GciRun.step, hqueue, Option.map_some, Option.some.injEq] at hstep
    subst hstep
    exact ⟨hready, hcookies⟩
  | complete evt notify =>
    have hcookie : evt.cookie.toNat % 2 ^ 16 = evt.cookie.toNat := Nat.mod_eq_of_lt hsound
    have hprocess := gsiProcessEvtRe_gci h.ready hallow.1 notify
    rw [hcookie] at hprocess
    have hcookies : Cookies (s.ctx.retire evt.cookie.toNat).recycleEvt (s.completed evt) :=
      h.cookies.complete rfl rfl
    refine ⟨⟨_, _, hprocess, hcookies, ?_⟩, fun s' hstep => ?_⟩
    · obtain ⟨b, hb, hcookie⟩ := mem_map.1 hallow.2
      rw [← hcookie, h.cookies.data_eq b hb]
      exact hb
    · rw [GciRun.step, hprocess, Option.map_some, Option.some.injEq] at hstep
      subst hstep
      exact ⟨h.ready.retire _, hcookies⟩

theorem Ok.sound_of_right (h : s.Ok) (hallow : s.Allows op) (hright : s.Right op) : Sound op := by
  cases op with
  | queue xfers ringDb =>
    cases xfers with
    | nil => trivial
    | cons xfer xfers =>
      intro hxfer
      obtain ⟨ret, entries, ctx', hqueue, -, hret⟩ := hright
      rw [gsiQueueXfer_gci h.ready (cons_ne_nil xfer xfers)] at hqueue
      rcases hbatch : gsiPopulateBatch s.ctx (xfer :: xfers) with - | ⟨ok, entries', ctx1⟩
      · simp only [hbatch, reduceCtorEq] at hqueue
      · cases ok with
        | true =>
          have hgood := (gsiPopulateBatch_keeps h.ready hbatch).2 rfl
          exact fun x hx => hgood x (mem_cons_of_mem xfer hx)
        | false =>
          simp only [hbatch, Option.some.injEq, Prod.mk.injEq] at hqueue
          obtain ⟨rfl, -, rfl⟩ := hqueue
          obtain ⟨hzero, -⟩ | ⟨-, -, -, hsame⟩ := hret
          · exact absurd hzero (by decide)
          · exact (gsiPopulateBatch_marks h.ready hxfer hbatch hsame).elim
  | complete evt notify =>
    by_contra hwide
    obtain ⟨notify', ctx', hprocess, hcookies, -⟩ := hright
    rw [gsiProcessEvtRe_gci h.ready hallow.1 notify, Option.some.injEq, Prod.mk.injEq] at hprocess
    obtain ⟨-, rfl⟩ := hprocess
    have hne : evt.cookie.toNat ≠ evt.cookie.toNat % 2 ^ 16 := by
      have hge := Nat.le_of_not_lt hwide
      omega
    have hvalid := (h.cookies.valid_iff _).2 hallow.2
    rw [← update_of_ne hne { s.ctx.userData (evt.cookie.toNat % 2 ^ 16) with
      valid := false } s.ctx.userData] at hvalid
    have hmem := (hcookies.valid_iff _).1 hvalid
    simp [completed] at hmem

def SoundStep (s s' : GciRun) : Prop :=
  ∃ op, s.Allows op ∧ Sound op ∧ s.step op = some s'

end GciRun

/-- Where every step is sound, the entries in use are those of the outstanding transfers in every
state, and the next step is right exactly if it is sound as well. -/
theorem gciRun_right_iff {props : GsiChanProps} (hprot : props.prot = .gci) {state : GsiChanState}
    (hstate : state ≠ .notAllocated) {mem : Mem} {evtr : GsiEvtCtx} {s : GciRun}
    (hrun : Relation.ReflTransGen GciRun.SoundStep ⟨gsiAllocChannel props state mem evtr, []⟩ s) :
    Cookies s.ctx s.out ∧
      ∀ op : GciOp, s.Allows op → (s.Right op ↔ GciRun.Sound op) := by
  have hok : s.Ok := by
    induction hrun with
    | refl =>
      refine ⟨⟨hprot, hstate, ⟨0, Nat.zero_le _, ?_⟩, gsiInitChanRing_shaped props⟩, ?_⟩
      · rw [GsiRingCtx.elemAddr, Nat.zero_mul]
        exact (UInt64.add_zero _).symm
      · refine ⟨?_, nodup_nil, ?_, ?_⟩ <;> simp [gsiAllocChannel]
    | tail _ hlast ih =>
      obtain ⟨op, hallow, hsound, hstep⟩ := hlast
      exact (ih.step hallow hsound).2 _ hstep
  exact ⟨hok.cookies, fun op hallow =>
    ⟨hok.sound_of_right hallow, fun hsound => (hok.step hallow hsound).1⟩⟩

def sampleGciProps : GsiChanProps where
  prot := .gci
  dir := .fromGsi
  chId := 0
  reSize := .re16B
  ringLen := 16
  ringBaseAddr := 0x1000
  ringBaseVaddr := 0x1000
  lowWeight := 1
  txPoll := false
  xferCb := true
  errCb := true
  chanUserData := 0

def sampleGciRun : GciRun where
  ctx := gsiAllocChannel sampleGciProps .started (fun _ => 0)
    ⟨gsiInitChanRing sampleGciProps, 0⟩
  out := []

def sampleXfer : GsiXferElem := ⟨0x2000, 64, 0, .data, 7⟩

def largeXfer : GsiXferElem := ⟨0x10000000000, 64, 0, .data, 8⟩

/-- Two transfers on a ring of three elements. -/
def sampleGciQueued : GciRun :=
  let props := { sampleGciProps with ringLen := 48 }
  let s : GciRun := ⟨gsiAllocChannel props .started (fun _ => 0) ⟨gsiInitChanRing props, 0⟩, []⟩
  (s.step (.queue [sampleXfer, { sampleXfer with xferUserData := 9 }] false)).getD s

def sampleEvt (cookie : UInt64) : GciOp :=
  .complete ⟨cookie, 64, 3, 0, GSI_XFER_COMPL_TYPE_GCI⟩ ⟨0, 0, 0, 0, 0⟩

def sampleGciRetired : GciRun := (sampleGciQueued.step (sampleEvt 1)).getD sampleGciQueued

/-- The second transfer is completed first. -/
theorem sampleGciQueued_right :
    sampleGciQueued.Right (sampleEvt 1) ∧ Cookies sampleGciRetired.ctx [(0, 7)] ∧
      sampleGciRetired.Right (sampleEvt 0) := by
  have hqueue : GciRun.SoundStep ⟨gsiAllocChannel { sampleGciProps with ringLen := 48 } .started
      (fun _ => 0) ⟨gsiInitChanRing { sampleGciProps with ringLen := 48 }, 0⟩, []⟩
      sampleGciQueued := by
    refine ⟨.queue [sampleXfer, { sampleXfer with xferUserData := 9 }] false, fun _ => ?_,
      fun hxfer x hx => ?_, rfl⟩
    · decide
    · rw [mem_singleton.1 hx]
      exact hxfer
  have hallow : sampleGciQueued.Allows (sampleEvt 1) :=
    ⟨rfl, show 1 ∈ sampleGciQueued.out.map Prod.fst by decide⟩
  have hallow' : sampleGciRetired.Allows (sampleEvt 0) :=
    ⟨rfl, show 0 ∈ sampleGciRetired.out.map Prod.fst by decide⟩
  have hsound : GciRun.Sound (sampleEvt 1) := show 1 < 2 ^ 16 by decide
  have hretire : GciRun.SoundStep sampleGciQueued sampleGciRetired :=
    ⟨sampleEvt 1, hallow, hsound, rfl⟩
  have hright := gciRun_right_iff rfl (by decide) (.tail (.single hqueue) hretire)
  refine ⟨?_, hright.1, (hright.2 _ hallow').2 (show 0 < 2 ^ 16 by decide)⟩
  exact ((gciRun_right_iff rfl (by decide) (.single hqueue)).2 _ hallow).2 hsound

/-- A batch that is rejected after a good transfer leaves an entry in use, and when every entry was
lost so the kernel stops at the next transfer, with none outstanding. -/
theorem rejected_batch_leaks :
    (gsiQueueXfer sampleGciRun.ctx [sampleXfer, largeXfer] false).map
        (fun (ret, _, ctx) => (ret, ctx.ring.wpLocal, ctx.userData 0)) =
      some (-6, 0x1000, ⟨true, 7⟩) ∧
    sampleGciRun.ctx.userData 0 = ⟨false, 0⟩ ∧
    ((List.replicate 18 (GciOp.queue [sampleXfer, largeXfer] false)).foldlM GciRun.step
        sampleGciRun).map (fun s => (s.out, (s.step (.queue [sampleXfer] false)).isNone)) =
      some ([], true) := by
  decide +kernel

end QcomModules.Gsi
