import QcomModules.HwFence.Lifetime

/-! What a creation that gets no entry does to the entry where its search ended. The hash
out-parameter names that entry, and the references released after a creation are taken
from it. -/

namespace QcomModules.HwFence

open Library

/-! ## Where the search ends -/

section
variable (drv : HwFenceDriverData) (hlosKey context seqno hash : UInt64)

/-- The search goes on behind an entry in use that has another key. -/
def PassedBy (slot : UInt64) : Prop :=
  (drv.hwFencesTbl slot.toNat).valid ≠ 0 ∧ hwFenceMatch drv slot context seqno hlosKey = false

/-- The slots of the whole table in the order of the search. -/
def searchSlots : List UInt64 := probeSlots drv context seqno 0 drv.hwFencesTblCnt

/-- The search ends at a slot that it does not pass by. -/
def EndsAt (slot : UInt64) : Prop :=
  ∃ before after, searchSlots drv context seqno = before ++ slot :: after ∧
    ¬PassedBy drv hlosKey context seqno slot ∧
    ∀ x ∈ before, PassedBy drv hlosKey context seqno x

/-- A creation finds no entry: the key is there already, or the table is full and the
search ends at its last slot. In a table without slots the hash stays as it was. -/
def FindsNone (slot : UInt64) : Prop :=
  (EndsAt drv hlosKey context seqno slot ∧ (drv.hwFencesTbl slot.toNat).valid ≠ 0) ∨
    (∀ x ∈ searchSlots drv context seqno, PassedBy drv hlosKey context seqno x) ∧
      (searchSlots drv context seqno).getLast?.getD hash = slot

end

section
variable {drv : HwFenceDriverData} {hlosKey context seqno hash slot slot' : UInt64}

theorem EndsAt.unique (h : EndsAt drv hlosKey context seqno slot)
    (h' : EndsAt drv hlosKey context seqno slot') : slot = slot' := by
  obtain ⟨before, after, hslots, hend, hpassed⟩ := h
  obtain ⟨before', after', hslots', hend', hpassed'⟩ := h'
  rcases append_cons_cases (hslots.symm.trans hslots') with hx | hx | hx
  · exact absurd (hpassed' slot hx) hend
  · exact hx
  · exact absurd (hpassed slot' hx) hend'

theorem EndsAt.not_all (h : EndsAt drv hlosKey context seqno slot) :
    ¬∀ x ∈ searchSlots drv context seqno, PassedBy drv hlosKey context seqno x := by
  obtain ⟨before, after, hslots, hend, -⟩ := h
  intro hall
  exact hend (hall slot (by simp [hslots]))

theorem FindsNone.unique (h : FindsNone drv hlosKey context seqno hash slot)
    (h' : FindsNone drv hlosKey context seqno hash slot') : slot = slot' := by
  rcases h with ⟨hend, -⟩ | ⟨hall, hlast⟩
  · rcases h' with ⟨hend', -⟩ | ⟨hall', -⟩
    · exact hend.unique hend'
    · exact absurd hall' hend.not_all
  · rcases h' with ⟨hend', -⟩ | ⟨-, hlast'⟩
    · exact absurd hall hend'.not_all
    · exact hlast.symm.trans hlast'

theorem FindsNone.not_free (h : FindsNone drv hlosKey context seqno hash slot)
    (hend : EndsAt drv hlosKey context seqno slot') :
    (drv.hwFencesTbl slot'.toNat).valid ≠ 0 := by
  rcases h with ⟨hend', hvalid⟩ | ⟨hall, -⟩
  · rwa [← hend'.unique hend]
  · exact absurd hall hend.not_all

theorem createBody_none_iff {clientId pendingChildCnt : UInt32} :
    createBody drv clientId hlosKey context seqno pendingChildCnt slot = none ↔
      PassedBy drv hlosKey context seqno slot := by
  rw [createBody, PassedBy]
  split
  · next hfree => simp [hfree]
  · next hvalid =>
      split
      · next hmatch => simp [hmatch]
      · next hmatch => exact iff_of_true rfl ⟨hvalid, Bool.eq_false_iff.mpr hmatch⟩

/-- The entry that a creation fills, and the key table. -/
def reserved (drv : HwFenceDriverData) (clientId : UInt32) (hlosKey context seqno slot : UInt64) :
    HwFenceDriverData :=
  (drv.setFence slot.toNat (reserveHwFence (drv.hwFencesTbl slot.toNat) clientId context seqno
    0)).setHlosKey slot.toNat hlosKey

theorem hwFenceLookupAndCreate_cases (drv : HwFenceDriverData) (clientId : UInt32)
    (hlosKey context seqno hash : UInt64) :
    (∃ slot, EndsAt drv hlosKey context seqno slot ∧ (drv.hwFencesTbl slot.toNat).valid = 0 ∧
      hwFenceLookupAndCreate drv clientId hlosKey context seqno 0 hash =
        ⟨0, some slot.toNat, slot, reserved drv clientId hlosKey context seqno slot⟩) ∨
    ∃ slot ret, FindsNone drv hlosKey context seqno hash slot ∧
      hwFenceLookupAndCreate drv clientId hlosKey context seqno 0 hash =
        ⟨ret, none, slot, drv⟩ := by
  rw [hwFenceLookupAndCreate, hwFenceLookupAndCreateRange_eq (by decide)]
  rcases forEachHwFence_cases drv hash context seqno 0 drv.hwFencesTblCnt
      (createBody drv clientId hlosKey context seqno 0) with
    ⟨before, slot, after, b, hslots, hstop, hpass, heq⟩ | ⟨hnone, hout⟩
  · have hend : EndsAt drv hlosKey context seqno slot := by
      refine ⟨before, after, hslots, ?_, fun x hx => createBody_none_iff.mp (hpass x hx)⟩
      intro hpassed
      rw [createBody_none_iff.mpr hpassed] at hstop
      cases hstop
    rw [heq]
    rw [createBody] at hstop
    split at hstop
    · next hfree =>
        rw [← Option.some.inj hstop]
        exact .inl ⟨slot, hend, hfree, rfl⟩
    · next hvalid =>
        split at hstop
        · rw [← Option.some.inj hstop]
          exact .inr ⟨slot, eAlready, .inl ⟨hend, hvalid⟩, rfl⟩
        · cases hstop
  · rw [LookupResult.ofLoop_of_none hout]
    rw [forEachHwFence_fst_of_none hnone]
    exact .inr ⟨_, 0, .inr ⟨fun x hx => createBody_none_iff.mp (hnone x hx), rfl⟩, rfl⟩

end

/-! ## Releasing references -/

theorem refcount_deleteIfUnreferenced (hwFence : MsmHwFence) :
    (deleteIfUnreferenced hwFence).refcount = hwFence.refcount := by
  rw [deleteIfUnreferenced]
  split
  · next hzero => exact hzero.symm
  · rfl

theorem setFence_self (drv : HwFenceDriverData) (i : ℕ) :
    drv.setFence i (drv.hwFencesTbl i) = drv := by
  rw [HwFenceDriverData.setFence, Function.update_eq_self]

section
variable {drv : HwFenceDriverData} {hash : UInt64}

theorem hwFenceDestroyRefcount_out (h : drv.hwFenceTableEntries.toUInt64 ≤ hash) (ref : UInt32) :
    hwFenceDestroyRefcount drv hash ref = (eInval, drv) := if_pos h

variable {ref : UInt32}

theorem hwFenceDestroyRefcount_absent (h : (drv.hwFencesTbl hash.toNat).refcount &&& ref = 0) :
    hwFenceDestroyRefcount drv hash ref = (eInval, drv) := by
  rw [hwFenceDestroyRefcount, destroyRefcountLocked, if_neg (not_not.mpr h)]
  simp only [setFence_self, ite_self]

theorem hwFenceDestroyRefcount_present (hin : ¬drv.hwFenceTableEntries.toUInt64 ≤ hash)
    (h : (drv.hwFencesTbl hash.toNat).refcount &&& ref ≠ 0) :
    (hwFenceDestroyRefcount drv hash ref).1 = 0 ∧
      ((hwFenceDestroyRefcount drv hash ref).2.hwFencesTbl hash.toNat).refcount =
        (drv.hwFencesTbl hash.toNat).refcount &&& ~~~ref := by
  rw [hwFenceDestroyRefcount, if_neg hin, destroyRefcountLocked, if_pos h]
  refine ⟨rfl, ?_⟩
  simp only [HwFenceDriverData.setFence, Function.update_self, refcount_deleteIfUnreferenced,
    MsmHwFence.editRefcount, RefEdit.apply]

theorem hwFenceDestroyWithHash_out (h : drv.hwFenceTableEntries.toUInt64 ≤ hash) (tableDel : ℤ) :
    (hwFenceDestroyWithHash drv hash tableDel).2 = drv := by
  rw [hwFenceDestroyWithHash, if_pos h]

theorem hwFenceDestroyWithHash_absent (h : (drv.hwFencesTbl hash.toNat).hlosRefcount = 0)
    (tableDel : ℤ) : (hwFenceDestroyWithHash drv hash tableDel).2 = drv := by
  rw [hwFenceDestroyWithHash, putLocked, if_neg (not_not.mpr h)]
  split
  · rfl
  · exact setFence_self drv hash.toNat

theorem hwFenceDestroyWithHash_present (hin : ¬drv.hwFenceTableEntries.toUInt64 ≤ hash)
    (h : (drv.hwFencesTbl hash.toNat).hlosRefcount ≠ 0) (tableDel : ℤ) :
    ((hwFenceDestroyWithHash drv hash tableDel).2.hwFencesTbl hash.toNat).refcount =
      (drv.hwFencesTbl hash.toNat).refcount - 1 := by
  rw [hwFenceDestroyWithHash, if_neg hin, putLocked, if_pos h]
  simp only [HwFenceDriverData.setFence, Function.update_self]
  split
  · simp only [refcount_deleteIfUnreferenced, MsmHwFence.editRefcount, RefEdit.apply]
  · simp only [refcount_deleteIfUnreferenced, MsmHwFence.editRefcount, RefEdit.apply]

end

theorem and_not_and_self (a b : UInt32) : a &&& ~~~b &&& b = 0 := by
  apply UInt32.toBitVec_inj.mp
  ext i hi
  simp

theorem and_highRefBits_and_fctl (r : UInt32) :
    r &&& highRefBits &&& hwFenceFctlRefcount = r &&& hwFenceFctlRefcount := by
  rw [UInt32.and_assoc, show highRefBits &&& hwFenceFctlRefcount = hwFenceFctlRefcount by decide]

theorem released_ne {r : UInt32} (hfctl : r &&& hwFenceFctlRefcount ≠ 0) :
    r &&& ~~~hwFenceFctlRefcount ≠ r ∧
      (r &&& ~~~hwFenceFctlRefcount &&& hwFenceHlosRefcountMask ≠ 0 →
        (r &&& ~~~hwFenceFctlRefcount) - 1 ≠ r) := by
  have hcleared := and_not_and_self r hwFenceFctlRefcount
  constructor
  · intro heq
    rw [heq] at hcleared
    exact hfctl hcleared
  · intro hcount heq
    have hkeeps : (r &&& ~~~hwFenceFctlRefcount) - 1 &&& highRefBits =
        r &&& ~~~hwFenceFctlRefcount &&& highRefBits := (decr_of_count hcount).2
    rw [heq] at hkeeps
    rw [← and_highRefBits_and_fctl, hkeeps, and_highRefBits_and_fctl] at hfctl
    exact hfctl hcleared

/-! ## Creations that find no entry -/

/-- Reference word, flags, valid word and key of every entry are the same. -/
def EntriesKept (drv drv' : HwFenceDriverData) : Prop :=
  ∀ i, (drv'.hwFencesTbl i).refcount = (drv.hwFencesTbl i).refcount ∧
    (drv'.hwFencesTbl i).flags = (drv.hwFencesTbl i).flags ∧
    (drv'.hwFencesTbl i).valid = (drv.hwFencesTbl i).valid ∧
    drv'.hlosKeyTbl i = drv.hlosKeyTbl i

/-- A free entry has become one for the key. -/
def ReservedAt (drv drv' : HwFenceDriverData) (hlosKey context seqno slot : UInt64) : Prop :=
  (drv.hwFencesTbl slot.toNat).valid = 0 ∧ (drv'.hwFencesTbl slot.toNat).valid = 1 ∧
    hwFenceMatch drv' slot context seqno hlosKey = true

/-- A creation that finds no entry fails and keeps all entries; one that returns 0 has
reserved an entry. -/
structure CreatesOrKeeps (drv : HwFenceDriverData) (clientId : UInt32) (skipFctlRef : Bool)
    (hlosKey context seqno hash : UInt64) : Prop where
  keeps : ∀ slot, FindsNone drv hlosKey context seqno hash slot →
    (hwFenceCreate drv clientId skipFctlRef hlosKey context seqno hash).1 ≠ 0 ∧
      EntriesKept drv (hwFenceCreate drv clientId skipFctlRef hlosKey context seqno hash).2.2
  creates : (hwFenceCreate drv clientId skipFctlRef hlosKey context seqno hash).1 = 0 →
    ReservedAt drv (hwFenceCreate drv clientId skipFctlRef hlosKey context seqno hash).2.2 hlosKey
      context seqno (hwFenceCreate drv clientId skipFctlRef hlosKey context seqno hash).2.1

/-- No reference is there to be released from an entry, or none is asked for. -/
def NothingToRelease (drv : HwFenceDriverData) (skipFctlRef : Bool) (slot : UInt64) : Prop :=
  (drv.fctlReady = true ∧ skipFctlRef = false) ∨ drv.hwFenceTableEntries.toUInt64 ≤ slot ∨
    (drv.hwFencesTbl slot.toNat).refcount &&& hwFenceFctlRefcount = 0 ∧
      (drv.fctlReady = true ∨ (drv.hwFencesTbl slot.toNat).hlosRefcount = 0)

section
variable {drv : HwFenceDriverData} {clientId : UInt32} {skipFctlRef : Bool}
  {hlosKey context seqno hash slot : UInt64}

theorem EntriesKept.refl (drv : HwFenceDriverData) : EntriesKept drv drv :=
  fun _ => ⟨rfl, rfl, rfl, rfl⟩

/-- What follows a search that found no entry. -/
def releaseAfter (drv : HwFenceDriverData) (skipFctlRef : Bool) (slot : UInt64) :
    ℤ × HwFenceDriverData :=
  if !drv.fctlReady then
    (eAgain, (hwFenceDestroyWithHash (hwFenceDestroyRefcount drv slot hwFenceFctlRefcount).2 slot
      0).2)
  else if skipFctlRef then hwFenceDestroyRefcount drv slot hwFenceFctlRefcount
  else (eInval, drv)

theorem releaseAfter_of_notReady (h : drv.fctlReady = false) :
    releaseAfter drv skipFctlRef slot =
      (eAgain, (hwFenceDestroyWithHash (hwFenceDestroyRefcount drv slot hwFenceFctlRefcount).2 slot
        0).2) := by
  rw [releaseAfter, h]
  rfl

theorem releaseAfter_of_skip (h : drv.fctlReady = true) :
    releaseAfter drv true slot = hwFenceDestroyRefcount drv slot hwFenceFctlRefcount := by
  rw [releaseAfter, h]
  rfl

theorem releaseAfter_of_keep (h : drv.fctlReady = true) :
    releaseAfter drv false slot = (eInval, drv) := by
  rw [releaseAfter, h]
  rfl

theorem hwFenceCreate_of_none {ret : ℤ}
    (h : hwFenceLookupAndCreate drv clientId hlosKey context seqno 0 hash = ⟨ret, none, slot, drv⟩)
    (skipFctlRef : Bool) :
    hwFenceCreate drv clientId skipFctlRef hlosKey context seqno hash =
      ((releaseAfter drv skipFctlRef slot).1, slot, (releaseAfter drv skipFctlRef slot).2) := by
  rw [hwFenceCreate, releaseAfter]
  simp only [h, Option.isNone_none, if_true]
  split
  · rfl
  · split
    · rfl
    · rfl

theorem hwFenceTableEntries_destroyRefcount (drv : HwFenceDriverData) (hash : UInt64)
    (ref : UInt32) : (hwFenceDestroyRefcount drv hash ref).2.hwFenceTableEntries =
      drv.hwFenceTableEntries := by
  rw [hwFenceDestroyRefcount]
  split
  · rfl
  · rfl

theorem releaseAfter_notReady_ne (hready : drv.fctlReady = false)
    (hin : ¬drv.hwFenceTableEntries.toUInt64 ≤ slot)
    (href : (drv.hwFencesTbl slot.toNat).refcount &&& hwFenceFctlRefcount ≠ 0 ∨
      (drv.hwFencesTbl slot.toNat).hlosRefcount ≠ 0) :
    ((releaseAfter drv skipFctlRef slot).2.hwFencesTbl slot.toNat).refcount ≠
      (drv.hwFencesTbl slot.toNat).refcount := by
  rw [releaseAfter_of_notReady hready]
  by_cases hfctl : (drv.hwFencesTbl slot.toNat).refcount &&& hwFenceFctlRefcount = 0
  · rw [hwFenceDestroyRefcount_absent hfctl,
      hwFenceDestroyWithHash_present hin (href.resolve_left (not_not.mpr hfctl))]
    intro heq
    have hlt := (drv.hwFencesTbl slot.toNat).refcount.toNat_lt
    rw [← UInt32.toNat_inj, UInt32.toNat_sub, UInt32.toNat_one] at heq
    omega
  · obtain ⟨-, hcleared⟩ := hwFenceDestroyRefcount_present hin hfctl
    obtain ⟨hne, hneDecr⟩ := released_ne hfctl
    by_cases hhlos :
        ((hwFenceDestroyRefcount drv slot hwFenceFctlRefcount).2.hwFencesTbl
          slot.toNat).hlosRefcount = 0
    · rw [hwFenceDestroyWithHash_absent hhlos, hcleared]
      exact hne
    · have hin' : ¬(hwFenceDestroyRefcount drv slot
          hwFenceFctlRefcount).2.hwFenceTableEntries.toUInt64 ≤ slot := by
        rwa [hwFenceTableEntries_destroyRefcount]
      rw [hwFenceDestroyWithHash_present hin' hhlos, hcleared]
      rw [MsmHwFence.hlosRefcount, hcleared] at hhlos
      exact hneDecr hhlos

/-- The releases after a search without result fail and keep all entries exactly if they
find nothing to release. -/
theorem releaseAfter_keeps_iff (drv : HwFenceDriverData) (skipFctlRef : Bool) (slot : UInt64) :
    (releaseAfter drv skipFctlRef slot).1 ≠ 0 ∧
        EntriesKept drv (releaseAfter drv skipFctlRef slot).2 ↔
      NothingToRelease drv skipFctlRef slot := by
  have hinval : eInval ≠ 0 := by decide
  have hagain : eAgain ≠ 0 := by decide
  by_cases hout : drv.hwFenceTableEntries.toUInt64 ≤ slot
  · refine iff_of_true ?_ (.inr (.inl hout))
    rw [releaseAfter, hwFenceDestroyRefcount_out hout, hwFenceDestroyWithHash_out hout]
    split
    · exact ⟨hagain, .refl drv⟩
    · split
      · exact ⟨hinval, .refl drv⟩
      · exact ⟨hinval, .refl drv⟩
  rw [NothingToRelease]
  simp only [hout, false_or]
  cases hready : drv.fctlReady with
  | false =>
    simp only [Bool.false_eq_true, false_and, false_or]
    constructor
    · rintro ⟨-, hkept⟩
      have hsame := (hkept slot.toNat).1
      by_contra hrefs
      rw [Classical.not_and_iff_not_or_not] at hrefs
      exact releaseAfter_notReady_ne hready hout hrefs hsame
    · rintro ⟨hfctl, hhlos⟩
      rw [releaseAfter_of_notReady hready, hwFenceDestroyRefcount_absent hfctl,
        hwFenceDestroyWithHash_absent hhlos]
      exact ⟨hagain, .refl drv⟩
  | true =>
    simp only [true_and, true_or, and_true]
    cases skipFctlRef with
    | false =>
      rw [releaseAfter_of_keep hready]
      exact iff_of_true ⟨hinval, .refl drv⟩ (.inl rfl)
    | true =>
      simp only [Bool.true_eq_false, false_or, releaseAfter_of_skip hready]
      constructor
      · rintro ⟨hret, -⟩
        by_contra hfctl
        exact hret (hwFenceDestroyRefcount_present hout hfctl).1
      · intro hfctl
        rw [hwFenceDestroyRefcount_absent hfctl]
        exact ⟨hinval, .refl drv⟩

theorem destroyRefcountLocked_reserveHwFence (hwFence : MsmHwFence) (clientId : UInt32)
    (context seqno : UInt64) :
    destroyRefcountLocked (reserveHwFence hwFence clientId context seqno 0) hwFenceFctlRefcount =
      (0, (reserveHwFence hwFence clientId context seqno 0).editRefcount
        (.clearBits hwFenceFctlRefcount)) := by
  have hpresent : (hwFenceFctlRefcount + 1) &&& hwFenceFctlRefcount ≠ 0 := by decide
  have hleft : (hwFenceFctlRefcount + 1) &&& ~~~hwFenceFctlRefcount ≠ 0 := by decide
  have hcount : (reserveHwFence hwFence clientId context seqno 0).refcount =
    hwFenceFctlRefcount + 1 := rfl
  rw [destroyRefcountLocked, if_pos (by rwa [hcount]), deleteIfUnreferenced, if_neg]
  change ¬(reserveHwFence hwFence clientId context seqno 0).refcount &&& ~~~hwFenceFctlRefcount = 0
  rwa [hcount]

theorem hwFenceCreate_reserves (hfree : (drv.hwFencesTbl slot.toNat).valid = 0)
    (h : hwFenceLookupAndCreate drv clientId hlosKey context seqno 0 hash =
      ⟨0, some slot.toNat, slot, reserved drv clientId hlosKey context seqno slot⟩)
    (hret : (hwFenceCreate drv clientId skipFctlRef hlosKey context seqno hash).1 = 0) :
    ReservedAt drv (hwFenceCreate drv clientId skipFctlRef hlosKey context seqno hash).2.2 hlosKey
      context seqno (hwFenceCreate drv clientId skipFctlRef hlosKey context seqno hash).2.1 := by
  have hentry : (reserved drv clientId hlosKey context seqno slot).hwFencesTbl slot.toNat =
      reserveHwFence (drv.hwFencesTbl slot.toNat) clientId context seqno 0 := by
    simp [reserved, HwFenceDriverData.setHlosKey, HwFenceDriverData.setFence]
  have hkey : (reserved drv clientId hlosKey context seqno slot).hlosKeyTbl slot.toNat =
      hlosKey := by
    simp [reserved, HwFenceDriverData.setHlosKey]
  rw [hwFenceCreate] at hret ⊢
  simp only [h, Option.isNone_some] at hret ⊢
  split at hret
  · exact absurd hret (show eAgain ≠ 0 by decide)
  · next hready =>
      simp only [hready]
      cases skipFctlRef with
      | false => exact ⟨hfree, by simp [hentry, reserveHwFence], by
          simp [hwFenceMatch, hentry, hkey, reserveHwFence]⟩
      | true =>
        simp only [if_true] at hret ⊢
        have hin : ¬ (reserved drv clientId hlosKey context seqno
            slot).hwFenceTableEntries.toUInt64 ≤ slot := by
          intro hout
          rw [hwFenceDestroyRefcount_out hout] at hret
          exact absurd hret (show eInval ≠ 0 by decide)
        rw [hwFenceDestroyRefcount, if_neg hin, hentry, destroyRefcountLocked_reserveHwFence]
        refine ⟨hfree, by
          simp [HwFenceDriverData.setFence, reserveHwFence, MsmHwFence.editRefcount], ?_⟩
        simp [hwFenceMatch, HwFenceDriverData.setFence, hkey, reserveHwFence,
          MsmHwFence.editRefcount]

/-- A creation harms no entry exactly if its search ends at a free entry or at one from
which nothing can be released. -/
theorem create_harmless_iff (drv : HwFenceDriverData) (clientId : UInt32) (skipFctlRef : Bool)
    (hlosKey context seqno hash : UInt64) :
    CreatesOrKeeps drv clientId skipFctlRef hlosKey context seqno hash ↔
      ∀ slot, FindsNone drv hlosKey context seqno hash slot →
        NothingToRelease drv skipFctlRef slot := by
  rcases hwFenceLookupAndCreate_cases drv clientId hlosKey context seqno hash with
    ⟨slot, hend, hfree, hcreate⟩ | ⟨slot, ret, hnone, hcreate⟩
  · have hfinds : ∀ slot', ¬FindsNone drv hlosKey context seqno hash slot' :=
      fun slot' hnone => hnone.not_free hend hfree
    exact iff_of_true
      ⟨fun slot' hnone => absurd hnone (hfinds slot'), hwFenceCreate_reserves hfree hcreate⟩
      fun slot' hnone => absurd hnone (hfinds slot')
  · have heq := hwFenceCreate_of_none hcreate skipFctlRef
    constructor
    · rintro ⟨hkeeps, -⟩ slot' hnone'
      rw [hnone'.unique hnone, ← releaseAfter_keeps_iff]
      have hkept := hkeeps slot hnone
      rwa [heq] at hkept
    · intro hnothing
      obtain ⟨hret, hkept⟩ :=
        (releaseAfter_keeps_iff drv skipFctlRef slot).mpr (hnothing slot hnone)
      refine ⟨fun _ _ => ?_, ?_⟩
      · rw [heq]
        exact ⟨hret, hkept⟩
      · rw [heq]
        exact fun hzero => absurd hzero hret

end

/-- A table whose only entry is the live fence with sequence number 1. -/
def fullTable : HwFenceDriverData := (hwFenceCreate oneSlot 1 false 7 1 1 0).2.2

/-- A client without a reference for the fence controller creates another fence: the call
returns 0, has reserved nothing and has taken the controller's reference off the live fence. -/
theorem full_table_not_harmless :
    ¬CreatesOrKeeps fullTable 2 true 8 1 2 0 ∧
      (hwFenceLookupAndCreate fullTable 2 8 1 2 0 0).hwFence = none ∧
      (hwFenceCreate fullTable 2 true 8 1 2 0).1 = 0 ∧
      (fullTable.hwFencesTbl 0).refcount = hwFenceFctlRefcount + 1 ∧
      ((hwFenceCreate fullTable 2 true 8 1 2 0).2.2.hwFencesTbl 0).refcount = 1 := by
  have hret : (hwFenceCreate fullTable 2 true 8 1 2 0).1 = 0 := by decide +kernel
  refine ⟨?_, by decide +kernel, hret, by decide +kernel, by decide +kernel⟩
  intro h
  have hfree := (h.creates hret).1
  revert hfree
  decide +kernel

end QcomModules.HwFence
