import QcomModules.HwFence.Table

/-! Slots visited by the table loops, and where a loop stops. -/

namespace QcomModules.HwFence

open Library

/-- The slots that a loop over the given steps visits while nothing stops it. -/
def probeSlots (drv : HwFenceDriverData) (context seqno : UInt64) (startStep endStep : UInt32) :
    List UInt64 :=
  match hwFenceIteratorInit drv context seqno startStep endStep with
  | none => []
  | some first => visited (hwFenceLookupNext drv) (endStep.toNat - startStep.toNat) first

theorem toUInt64_toNat (x : UInt32) : x.toUInt64.toNat = x.toNat := by simp

variable {drv : HwFenceDriverData} {context seqno : UInt64} {startStep endStep : UInt32} {β : Type*}

theorem hwFenceIteratorInit_lt {first : UInt64}
    (h : hwFenceIteratorInit drv context seqno startStep endStep = some first) :
    first.toNat < drv.hwFencesTblCnt.toNat := by
  unfold hwFenceIteratorInit at h
  split at h
  · cases h
  · rename_i hrange
    have hcnt : 0 < drv.hwFencesTblCnt.toNat := by
      simp only [not_or, ge_iff_le, gt_iff_lt, UInt32.le_iff_toNat_le,
        UInt32.lt_iff_toNat_lt] at hrange
      omega
    rw [← Option.some.inj h, UInt64.toNat_mod, toUInt64_toNat]
    exact Nat.mod_lt _ hcnt

theorem iterate_hwFenceLookupNext {first : UInt64} (h : first.toNat < drv.hwFencesTblCnt.toNat)
    (k : ℕ) :
    ((hwFenceLookupNext drv)^[k] first).toNat = (first.toNat + k) % drv.hwFencesTblCnt.toNat := by
  induction k with
  | zero =>
    rw [Function.iterate_zero, id_eq, Nat.add_zero, Nat.mod_eq_of_lt h]
  | succ k ih =>
    have hcnt := drv.hwFencesTblCnt.toNat_lt
    have hlt := Nat.mod_lt (first.toNat + k) (show 0 < drv.hwFencesTblCnt.toNat by omega)
    rw [Function.iterate_succ_apply', hwFenceLookupNext, UInt64.toNat_mod, UInt64.toNat_add, ih,
      toUInt64_toNat, show (1 : UInt64).toNat = 1 from rfl,
      Nat.mod_eq_of_lt (a := _ + 1) (by omega),
      Nat.mod_add_mod, Nat.add_assoc]

theorem iterate_hwFenceLookupNext_lt {first : UInt64} (h : first.toNat < drv.hwFencesTblCnt.toNat)
    (k : ℕ) : ((hwFenceLookupNext drv)^[k] first).toNat < drv.hwFencesTblCnt.toNat := by
  rw [iterate_hwFenceLookupNext h]
  exact Nat.mod_lt _ (by omega)

theorem probeSlots_lt {slot : UInt64} (h : slot ∈ probeSlots drv context seqno startStep endStep) :
    slot.toNat < drv.hwFencesTblCnt.toNat := by
  unfold probeSlots at h
  cases hinit : hwFenceIteratorInit drv context seqno startStep endStep with
  | none => simp [hinit] at h
  | some first =>
    simp only [hinit, mem_visited] at h
    obtain ⟨k, _, rfl⟩ := h
    exact iterate_hwFenceLookupNext_lt (hwFenceIteratorInit_lt hinit) k

theorem exists_mem_probeSlots {i : ℕ} (hi : i < drv.hwFencesTblCnt.toNat) (context seqno : UInt64) :
    ∃ slot ∈ probeSlots drv context seqno 0 drv.hwFencesTblCnt, slot.toNat = i := by
  have hrange :
      ¬ ((0 : UInt32) ≥ drv.hwFencesTblCnt ∨ drv.hwFencesTblCnt > drv.hwFencesTblCnt) := by
    simp only [not_or, ge_iff_le, gt_iff_lt, UInt32.le_iff_toNat_le, UInt32.lt_iff_toNat_lt,
      UInt32.toNat_zero]
    omega
  obtain ⟨first, hinit⟩ : ∃ first,
      hwFenceIteratorInit drv context seqno 0 drv.hwFencesTblCnt = some first :=
    ⟨_, by rw [hwFenceIteratorInit, if_neg hrange]⟩
  have hlt := hwFenceIteratorInit_lt hinit
  obtain ⟨k, hk, hmod⟩ := exists_add_mod_eq hlt hi
  refine ⟨(hwFenceLookupNext drv)^[k] first, ?_, ?_⟩
  · simp only [probeSlots, hinit, mem_visited]
    exact ⟨k, by simpa using hk, rfl⟩
  · rw [iterate_hwFenceLookupNext hlt, hmod]

/-- A loop stops at a first visited slot or reports nothing. -/
theorem forEachHwFence_cases (drv : HwFenceDriverData) (hash context seqno : UInt64)
    (startStep endStep : UInt32) (body : UInt64 → Option β) :
    (∃ before slot after b,
      probeSlots drv context seqno startStep endStep = before ++ slot :: after ∧
      body slot = some b ∧ (∀ x ∈ before, body x = none) ∧
      forEachHwFence drv hash context seqno startStep endStep body = (slot, some b)) ∨
    ((∀ x ∈ probeSlots drv context seqno startStep endStep, body x = none) ∧
      (forEachHwFence drv hash context seqno startStep endStep body).2 = none) := by
  unfold forEachHwFence probeSlots
  cases hinit : hwFenceIteratorInit drv context seqno startStep endStep with
  | none => exact .inr ⟨by simp, rfl⟩
  | some first => exact probe_cases (hwFenceLookupNext drv) body _ first

theorem forEachHwFence_fst_of_none {body : UInt64 → Option β}
    (h : ∀ x ∈ probeSlots drv context seqno startStep endStep, body x = none) (hash : UInt64) :
    (forEachHwFence drv hash context seqno startStep endStep body).1 =
      (probeSlots drv context seqno startStep endStep).getLast?.getD hash := by
  rw [forEachHwFence]
  unfold probeSlots at h ⊢
  cases hinit : hwFenceIteratorInit drv context seqno startStep endStep with
  | none => rfl
  | some first =>
    simp only [hinit] at h
    simp only [probe_fst_of_none h]
    have hrange : startStep.toNat < endStep.toNat := by
      by_contra hge
      rw [hwFenceIteratorInit, if_pos] at hinit
      · cases hinit
      · rw [ge_iff_le, UInt32.le_iff_toNat_le]
        exact .inl (not_lt.mp hge)
    obtain ⟨n, hn⟩ := Nat.exists_eq_succ_of_ne_zero (Nat.sub_ne_zero_of_lt hrange)
    simp only [hn, visited, List.getLast?_cons, Option.getD_some]

theorem LookupResult.ofLoop_of_none {out : UInt64 × Option (ℤ × HwFenceDriverData)}
    (h : out.2 = none) :
    LookupResult.ofLoop drv out = { ret := 0, hwFence := none, hash := out.1, drv := drv } := by
  obtain ⟨hash, b⟩ := out
  simp only at h
  rw [h]
  rfl

/-! ## Loops that leave the table as they found it, or stop -/

/-- The body of the creation loop, for creations of unsignaled fences. -/
def createBody (drv : HwFenceDriverData) (clientId : UInt32) (hlosKey context seqno : UInt64)
    (pendingChildCnt : UInt32) (hash : UInt64) : Option (ℤ × HwFenceDriverData) :=
  if (drv.hwFencesTbl hash.toNat).valid = 0 then
    some (0, (drv.setFence hash.toNat (reserveHwFence (drv.hwFencesTbl hash.toNat) clientId
      context seqno pendingChildCnt)).setHlosKey hash.toNat hlosKey)
  else if hwFenceMatch drv hash context seqno hlosKey then some (eAlready, drv)
  else none

theorem hwFenceLookupAndCreateRange_eq {flags : UInt64}
    (hflags : flags &&& msmHwFenceFlagCreateSignaled = 0) (clientId : UInt32)
    (hlosKey context seqno : UInt64) (pendingChildCnt : UInt32) (hash : UInt64)
    (startStep endStep : UInt32) :
    hwFenceLookupAndCreateRange drv clientId hlosKey context seqno pendingChildCnt hash startStep
        endStep flags =
      .ofLoop drv (forEachHwFence drv hash context seqno startStep endStep
        (createBody drv clientId hlosKey context seqno pendingChildCnt)) := by
  unfold hwFenceLookupAndCreateRange createBody
  simp only [hflags, ne_eq, not_true_eq_false, if_false]

/-- A lookup that ends returns what its process function made of the table, or the table. -/
theorem hwFenceLookupAndProcessRange_drv (drv : HwFenceDriverData)
    (hlosKey context seqno hash : UInt64) (startStep endStep : UInt32)
    (processFn : HwFenceDriverData → UInt64 → ℤ × HwFenceDriverData) :
    (hwFenceLookupAndProcessRange drv hlosKey context seqno hash startStep endStep processFn).drv =
        drv ∨
      ∃ slot, (hwFenceLookupAndProcessRange drv hlosKey context seqno hash startStep endStep
        processFn).drv = (processFn drv slot).2 := by
  unfold hwFenceLookupAndProcessRange
  rcases forEachHwFence_cases drv hash context seqno startStep endStep (fun hash =>
      if hwFenceMatch drv hash context seqno hlosKey then some (processFn drv hash)
      else none) with
    ⟨before, slot, after, b, _, hstop, _, heq⟩ | ⟨_, hnone⟩
  · right
    rw [heq]
    split at hstop
    · rw [← Option.some.inj hstop]
      exact ⟨slot, rfl⟩
    · cases hstop
  · left
    rw [LookupResult.ofLoop_of_none hnone]

end QcomModules.HwFence
