import QcomModules.HwFence.TableProbe

/-! Keys in the HW-fence table. Creation takes the first free slot it meets, so a slot freed
before the holder of a key lets the key in twice; runs that never create a present key behind
such a hole keep the keys unique. -/

namespace QcomModules.HwFence

open Library Function

inductive TableOp where
  | create (clientId : UInt32) (hlosKey context seqno : UInt64) (pendingChildCnt : UInt32)
      (startStep endStep : UInt32) (flags : UInt64)
  | lookup (hlosKey context seqno : UInt64) (startStep endStep : UInt32)
  | destroy (hlosKey context seqno : UInt64)
  | destroyWithHash (hash : UInt64)
  | destroyRefcount (hash : UInt64) (ref : UInt32)
deriving DecidableEq, Repr

def tableStep (drv : HwFenceDriverData) : TableOp → HwFenceDriverData
  | .create clientId hlosKey context seqno pendingChildCnt startStep endStep flags =>
    (hwFenceLookupAndCreateRange drv clientId hlosKey context seqno pendingChildCnt 0 startStep
      endStep flags).drv
  | .lookup hlosKey context seqno startStep endStep =>
    (hwFenceLookupAndProcessRange drv hlosKey context seqno 0 startStep endStep fenceFoundAt).drv
  | .destroy hlosKey context seqno => (hwFenceDestroy drv hlosKey context seqno).2
  | .destroyWithHash hash => (hwFenceDestroyWithHash drv hash 0).2
  | .destroyRefcount hash ref => (hwFenceDestroyRefcount drv hash ref).2

/-- Creations do not carry `MSM_HW_FENCE_FLAG_CREATE_SIGNALED`. -/
def TableOp.Unsignaled : TableOp → Prop
  | .create _ _ _ _ _ _ _ flags => flags &&& msmHwFenceFlagCreateSignaled = 0
  | _ => True

/-- A table after `init_hw_fences_table`, of any size. -/
structure HwFenceDriverData.Initial (drv : HwFenceDriverData) : Prop where
  zeroed : ∀ i, drv.hwFencesTbl i = {}

/-! ## Keys -/

/-- Slot `i` is a valid entry with the given key. -/
structure HoldsKey (drv : HwFenceDriverData) (i : ℕ) (hlosKey context seqno : UInt64) : Prop where
  lt : i < drv.hwFencesTblCnt.toNat
  valid : (drv.hwFencesTbl i).valid ≠ 0
  ctxId : (drv.hwFencesTbl i).ctxId = context
  seqId : (drv.hwFencesTbl i).seqId = seqno
  hlosKey : drv.hlosKeyTbl i = hlosKey

def UniqueKeys (drv : HwFenceDriverData) : Prop :=
  ∀ i j hlosKey context seqno, HoldsKey drv i hlosKey context seqno →
    HoldsKey drv j hlosKey context seqno → i = j

/-- The steps of the creation reach every holder of its key, with no free slot before it. -/
def TableOp.MeetsHolderFirst (drv : HwFenceDriverData) : TableOp → Prop
  | .create _ hlosKey context seqno _ startStep endStep _ =>
    ∀ i, HoldsKey drv i hlosKey context seqno →
      ∃ before slot after,
        probeSlots drv context seqno startStep endStep = before ++ slot :: after ∧
        slot.toNat = i ∧ ∀ x ∈ before, (drv.hwFencesTbl x.toNat).valid ≠ 0
  | _ => True

/-- The unique keys, and cleared contexts in the free slots. -/
structure KeyInvariant (drv : HwFenceDriverData) : Prop where
  unique : UniqueKeys drv
  free_ctxId : ∀ i, (drv.hwFencesTbl i).valid = 0 → (drv.hwFencesTbl i).ctxId = 0

variable {drv : HwFenceDriverData} {hash context seqno hlosKey : UInt64} {i : ℕ}

theorem HwFenceDriverData.Initial.keyInvariant (h : drv.Initial) :
    KeyInvariant drv where
  unique := by
    intro i j hlosKey context seqno hi _
    exact absurd (by rw [h.zeroed i]) hi.valid
  free_ctxId := by
    intro i _
    rw [h.zeroed i]

/-! ## Lookup -/

theorem hwFenceMatch_iff :
    hwFenceMatch drv hash context seqno hlosKey = true ↔
      (drv.hwFencesTbl hash.toNat).ctxId = context ∧
        (drv.hwFencesTbl hash.toNat).seqId = seqno ∧ drv.hlosKeyTbl hash.toNat = hlosKey := by
  simp [hwFenceMatch, and_assoc]

theorem HoldsKey.of_match (hlt : hash.toNat < drv.hwFencesTblCnt.toNat)
    (hvalid : (drv.hwFencesTbl hash.toNat).valid ≠ 0)
    (h : hwFenceMatch drv hash context seqno hlosKey = true) :
    HoldsKey drv hash.toNat hlosKey context seqno := by
  obtain ⟨hctx, hseq, hkey⟩ := hwFenceMatch_iff.mp h
  exact ⟨hlt, hvalid, hctx, hseq, hkey⟩

theorem HoldsKey.hwFenceMatch (h : HoldsKey drv i hlosKey context seqno) (hi : hash.toNat = i) :
    hwFenceMatch drv hash context seqno hlosKey = true := by
  rw [hwFenceMatch_iff, hi]
  exact ⟨h.ctxId, h.seqId, h.hlosKey⟩

theorem KeyInvariant.lookup_finds (hinv : KeyInvariant drv) (hctx : context ≠ 0)
    (hi : HoldsKey drv i hlosKey context seqno) (hash : UInt64)
    (processFn : HwFenceDriverData → UInt64 → ℤ × HwFenceDriverData) :
    ∃ slot : UInt64, slot.toNat = i ∧
      hwFenceLookupAndProcess drv hlosKey context seqno hash processFn =
        LookupResult.ofLoop drv (slot, some (processFn drv slot)) := by
  have honly : ∀ x : UInt64, x.toNat < drv.hwFencesTblCnt.toNat →
      hwFenceMatch drv x context seqno hlosKey = true → x.toNat = i := by
    intro x hx hm
    have hvalid : (drv.hwFencesTbl x.toNat).valid ≠ 0 := by
      intro hfree
      exact hctx ((hwFenceMatch_iff.mp hm).1.symm.trans (hinv.free_ctxId _ hfree))
    exact hinv.unique _ _ _ _ _ (.of_match hx hvalid hm) hi
  rcases forEachHwFence_cases drv hash context seqno 0 drv.hwFencesTblCnt (fun hash =>
      if HwFence.hwFenceMatch drv hash context seqno hlosKey then some (processFn drv hash)
      else none) with
    ⟨before, slot, after, b, hslots, hstop, _, heq⟩ | ⟨hnone, _⟩
  · have hmem : slot ∈ probeSlots drv context seqno 0 drv.hwFencesTblCnt := by simp [hslots]
    by_cases hm : hwFenceMatch drv slot context seqno hlosKey = true
    · rw [if_pos hm] at hstop
      refine ⟨slot, honly slot (probeSlots_lt hmem) hm, ?_⟩
      rw [hwFenceLookupAndProcess, hwFenceLookupAndProcessRange, heq, hstop]
    · rw [if_neg hm] at hstop
      cases hstop
  · obtain ⟨slot, hmem, hslot⟩ := exists_mem_probeSlots hi.lt context seqno
    have := hnone slot hmem
    rw [if_pos (hi.hwFenceMatch hslot)] at this
    cases this

/-! ## Creation -/

theorem createBody_of_holds {slot : UInt64} (hi : HoldsKey drv i hlosKey context seqno)
    (hslot : slot.toNat = i) (clientId pendingChildCnt : UInt32) :
    createBody drv clientId hlosKey context seqno pendingChildCnt slot = some (eAlready, drv) := by
  have hvalid := hi.valid
  rw [← hslot] at hvalid
  rw [createBody, if_neg hvalid, if_pos (hi.hwFenceMatch hslot)]

theorem KeyInvariant.create_present (hinv : KeyInvariant drv) {flags : UInt64}
    {clientId pendingChildCnt startStep endStep : UInt32}
    (hflags : flags &&& msmHwFenceFlagCreateSignaled = 0)
    (hfirst : TableOp.MeetsHolderFirst drv (.create clientId hlosKey context seqno pendingChildCnt
      startStep endStep flags)) (hi : HoldsKey drv i hlosKey context seqno) (hash : UInt64) :
    ∃ slot : UInt64, slot.toNat = i ∧
      hwFenceLookupAndCreateRange drv clientId hlosKey context seqno pendingChildCnt hash startStep
          endStep flags =
        { ret := eAlready, hwFence := none, hash := slot, drv := drv } := by
  obtain ⟨before, holder, after, hslots, hholder, hbefore⟩ := hfirst i hi
  rw [hwFenceLookupAndCreateRange_eq hflags]
  rcases forEachHwFence_cases drv hash context seqno startStep endStep
      (createBody drv clientId hlosKey context seqno pendingChildCnt) with
    ⟨before', slot, after', b, hslots', hstop, hpass, heq⟩ | ⟨hnone, _⟩
  · have hmem : slot ∈ probeSlots drv context seqno startStep endStep := by simp [hslots']
    have hvalid : (drv.hwFencesTbl slot.toNat).valid ≠ 0 := by
      rcases append_cons_cases (hslots'.symm.trans hslots) with hx | rfl | hx
      · exact hbefore slot hx
      · rw [hholder]
        exact hi.valid
      · have hpassed := hpass holder hx
        rw [createBody_of_holds hi hholder] at hpassed
        cases hpassed
    rw [createBody, if_neg hvalid] at hstop
    split at hstop
    · rename_i hm
      have hslot := hinv.unique _ _ _ _ _ (.of_match (probeSlots_lt hmem) hvalid hm) hi
      refine ⟨slot, hslot, ?_⟩
      rw [heq, ← Option.some.inj hstop]
      rfl
    · cases hstop
  · have hpassed := hnone holder (by simp [hslots])
    rw [createBody_of_holds hi hholder] at hpassed
    cases hpassed

theorem create_absent {flags : UInt64} (hflags : flags &&& msmHwFenceFlagCreateSignaled = 0)
    (habsent : ∀ i, ¬ HoldsKey drv i hlosKey context seqno)
    (clientId pendingChildCnt startStep endStep : UInt32) (hash : UInt64) :
    let created := (hwFenceLookupAndCreateRange drv clientId hlosKey context seqno pendingChildCnt
      hash startStep endStep flags).drv
    created = drv ∨ ∃ i, (drv.hwFencesTbl i).valid = 0 ∧
      created = (drv.setFence i (reserveHwFence (drv.hwFencesTbl i) clientId context seqno
        pendingChildCnt)).setHlosKey i hlosKey := by
  rw [hwFenceLookupAndCreateRange_eq hflags]
  rcases forEachHwFence_cases drv hash context seqno startStep endStep
      (createBody drv clientId hlosKey context seqno pendingChildCnt) with
    ⟨before, slot, after, b, hslots, hstop, _, heq⟩ | ⟨_, hnone⟩
  · have hmem : slot ∈ probeSlots drv context seqno startStep endStep := by simp [hslots]
    rw [heq]
    rw [createBody] at hstop
    split at hstop
    · rename_i hfree
      rw [← Option.some.inj hstop]
      exact .inr ⟨slot.toNat, hfree, rfl⟩
    · rename_i hvalid
      split at hstop
      · rename_i hm
        exact absurd (.of_match (probeSlots_lt hmem) hvalid hm) (habsent _)
      · cases hstop
  · left
    rw [LookupResult.ofLoop_of_none hnone]

theorem KeyInvariant.reserve (hinv : KeyInvariant drv) (clientId pendingChildCnt : UInt32)
    (habsent : ∀ j, ¬ HoldsKey drv j hlosKey context seqno) :
    KeyInvariant ((drv.setFence i (reserveHwFence (drv.hwFencesTbl i) clientId context seqno
      pendingChildCnt)).setHlosKey i hlosKey) := by
  set drv' := (drv.setFence i (reserveHwFence (drv.hwFencesTbl i) clientId context seqno
    pendingChildCnt)).setHlosKey i hlosKey with hdrv'
  have hother : ∀ j k c n, j ≠ i → HoldsKey drv' j k c n → HoldsKey drv j k c n := by
    intro j k c n hj h
    have htbl : drv'.hwFencesTbl j = drv.hwFencesTbl j := update_of_ne hj _ _
    have hkey : drv'.hlosKeyTbl j = drv.hlosKeyTbl j := update_of_ne hj _ _
    exact ⟨h.lt, htbl ▸ h.valid, htbl ▸ h.ctxId, htbl ▸ h.seqId, hkey ▸ h.hlosKey⟩
  have hself : ∀ k c n, HoldsKey drv' i k c n → k = hlosKey ∧ c = context ∧ n = seqno := by
    intro k c n h
    have htbl : drv'.hwFencesTbl i = reserveHwFence (drv.hwFencesTbl i) clientId context seqno
        pendingChildCnt := update_self i _ _
    have hkey : drv'.hlosKeyTbl i = hlosKey := update_self i _ _
    have hc := h.ctxId
    have hn := h.seqId
    rw [htbl] at hc hn
    exact ⟨(hkey.symm.trans h.hlosKey).symm, hc.symm, hn.symm⟩
  refine ⟨?_, ?_⟩
  · intro j l k c n hj hl
    by_cases hji : j = i
    · by_cases hli : l = i
      · rw [hji, hli]
      · subst hji
        obtain ⟨rfl, rfl, rfl⟩ := hself _ _ _ hj
        exact absurd (hother _ _ _ _ hli hl) (habsent l)
    · by_cases hli : l = i
      · subst hli
        obtain ⟨rfl, rfl, rfl⟩ := hself _ _ _ hl
        exact absurd (hother _ _ _ _ hji hj) (habsent j)
      · exact hinv.unique _ _ _ _ _ (hother _ _ _ _ hji hj) (hother _ _ _ _ hli hl)
  · intro j hfree
    by_cases hji : j = i
    · subst hji
      have htbl : drv'.hwFencesTbl j = reserveHwFence (drv.hwFencesTbl j) clientId context seqno
          pendingChildCnt := update_self j _ _
      rw [htbl] at hfree
      exact absurd hfree (by simp [reserveHwFence])
    · have htbl : drv'.hwFencesTbl j = drv.hwFencesTbl j := update_of_ne hji _ _
      rw [htbl] at hfree ⊢
      exact hinv.free_ctxId j hfree

/-! ## Release -/

/-- An entry keeps its validity and its part of the key, or is freed and cleared. -/
def KeepsOrFrees (hwFence hwFence' : MsmHwFence) : Prop :=
  (hwFence'.valid = hwFence.valid ∧ hwFence'.ctxId = hwFence.ctxId ∧
    hwFence'.seqId = hwFence.seqId) ∨ (hwFence'.valid = 0 ∧ hwFence'.ctxId = 0)

theorem KeepsOrFrees.refl (hwFence : MsmHwFence) : KeepsOrFrees hwFence hwFence :=
  .inl ⟨rfl, rfl, rfl⟩

theorem keepsOrFrees_deleteIfUnreferenced (hwFence : MsmHwFence) :
    KeepsOrFrees hwFence (deleteIfUnreferenced hwFence) := by
  unfold deleteIfUnreferenced
  split
  · exact .inr ⟨rfl, rfl⟩
  · exact .refl hwFence

theorem keepsOrFrees_destroyRefcountLocked (hwFence : MsmHwFence) (ref : UInt32) :
    KeepsOrFrees hwFence (destroyRefcountLocked hwFence ref).2 := by
  unfold destroyRefcountLocked
  split
  · exact keepsOrFrees_deleteIfUnreferenced (hwFence.editRefcount (.clearBits ref))
  · exact .refl hwFence

theorem keepsOrFrees_putLocked (hwFence : MsmHwFence) :
    KeepsOrFrees hwFence (putLocked hwFence).2.1 := by
  unfold putLocked
  split
  · dsimp only
    split
    · exact keepsOrFrees_deleteIfUnreferenced { hwFence.editRefcount .decr with flags := _ }
    · exact keepsOrFrees_deleteIfUnreferenced (hwFence.editRefcount .decr)
  · exact .refl hwFence

theorem keepsOrFrees_fenceFound (hwFence : MsmHwFence) :
    KeepsOrFrees hwFence (fenceFound hwFence).2 := by
  unfold fenceFound
  split
  · exact .refl hwFence
  · exact .inl ⟨rfl, rfl, rfl⟩

theorem KeyInvariant.setFence (hinv : KeyInvariant drv) {hwFence : MsmHwFence}
    (h : KeepsOrFrees (drv.hwFencesTbl i) hwFence) : KeyInvariant (drv.setFence i hwFence) := by
  have hback : ∀ j k c n, HoldsKey (drv.setFence i hwFence) j k c n → HoldsKey drv j k c n := by
    intro j k c n hj
    obtain ⟨hlt, hvalid, hctx, hseq, hkey⟩ := hj
    by_cases hji : j = i
    · subst hji
      simp only [HwFenceDriverData.setFence, update_self] at hvalid hctx hseq
      rcases h with ⟨hv, hc, hs⟩ | ⟨hv, _⟩
      · exact ⟨hlt, hv ▸ hvalid, hc ▸ hctx, hs ▸ hseq, hkey⟩
      · exact absurd hv hvalid
    · simp only [HwFenceDriverData.setFence, update_of_ne hji] at hvalid hctx hseq
      exact ⟨hlt, hvalid, hctx, hseq, hkey⟩
  refine ⟨?_, ?_⟩
  · intro j l k c n hj hl
    exact hinv.unique _ _ _ _ _ (hback _ _ _ _ hj) (hback _ _ _ _ hl)
  · intro j hfree
    by_cases hji : j = i
    · subst hji
      simp only [HwFenceDriverData.setFence, update_self] at hfree ⊢
      rcases h with ⟨hv, hc, _⟩ | ⟨_, hc⟩
      · rw [hc]
        exact hinv.free_ctxId j (hv ▸ hfree)
      · exact hc
    · simp only [HwFenceDriverData.setFence, update_of_ne hji] at hfree ⊢
      exact hinv.free_ctxId j hfree

theorem KeyInvariant.setHlosKey (hinv : KeyInvariant drv) (hfree : (drv.hwFencesTbl i).valid = 0)
    (key : UInt64) : KeyInvariant (drv.setHlosKey i key) := by
  have hback : ∀ j k c n, HoldsKey (drv.setHlosKey i key) j k c n → HoldsKey drv j k c n := by
    intro j k c n hj
    have hji : j ≠ i := by
      rintro rfl
      exact hj.valid hfree
    have hkey := hj.hlosKey
    simp only [HwFenceDriverData.setHlosKey, update_of_ne hji] at hkey
    exact ⟨hj.lt, hj.valid, hj.ctxId, hj.seqId, hkey⟩
  refine ⟨?_, hinv.free_ctxId⟩
  intro j l k c n hj hl
  exact hinv.unique _ _ _ _ _ (hback _ _ _ _ hj) (hback _ _ _ _ hl)

theorem KeyInvariant.unreserve (hinv : KeyInvariant drv) (hash : UInt64) :
    KeyInvariant (unreserveHwFence drv hash).2 := by
  unfold unreserveHwFence
  dsimp only
  split
  · split
    · refine (hinv.setFence (.inr ⟨rfl, rfl⟩)).setHlosKey ?_ 0
      simp [HwFenceDriverData.setFence]
    · exact hinv.setFence (.inl ⟨rfl, rfl, rfl⟩)
  · exact hinv

theorem KeyInvariant.process (hinv : KeyInvariant drv)
    {processFn : HwFenceDriverData → UInt64 → ℤ × HwFenceDriverData}
    (hprocess : ∀ slot, KeyInvariant (processFn drv slot).2) (hlosKey context seqno hash : UInt64)
    (startStep endStep : UInt32) :
    KeyInvariant (hwFenceLookupAndProcessRange drv hlosKey context seqno hash startStep endStep
      processFn).drv := by
  rcases hwFenceLookupAndProcessRange_drv drv hlosKey context seqno hash startStep endStep processFn
    with heq | ⟨slot, heq⟩
  · rw [heq]
    exact hinv
  · rw [heq]
    exact hprocess slot

/-! ## Runs -/

theorem KeyInvariant.step (hinv : KeyInvariant drv) (op : TableOp)
    (hop : op.Unsignaled ∧ op.MeetsHolderFirst drv) : KeyInvariant (tableStep drv op) := by
  obtain ⟨hflags, hfirst⟩ := hop
  cases op with
  | create clientId hlosKey context seqno pendingChildCnt startStep endStep flags =>
    by_cases hheld : ∃ i, HoldsKey drv i hlosKey context seqno
    · obtain ⟨i, hi⟩ := hheld
      obtain ⟨slot, _, heq⟩ := hinv.create_present hflags hfirst hi 0
      rw [tableStep, heq]
      exact hinv
    · have habsent : ∀ i, ¬ HoldsKey drv i hlosKey context seqno := fun i hi => hheld ⟨i, hi⟩
      rcases create_absent hflags habsent clientId pendingChildCnt startStep endStep 0 with
        heq | ⟨i, _, heq⟩
      · rw [tableStep, heq]
        exact hinv
      · rw [tableStep, heq]
        exact hinv.reserve clientId pendingChildCnt habsent
  | lookup hlosKey context seqno startStep endStep =>
    exact hinv.process (fun slot => hinv.setFence (keepsOrFrees_fenceFound _)) _ _ _ _ _ _
  | destroy hlosKey context seqno =>
    exact hinv.process (fun slot => hinv.unreserve slot) _ _ _ _ _ _
  | destroyWithHash hash =>
    simp only [tableStep, hwFenceDestroyWithHash]
    split
    · exact hinv
    · exact hinv.setFence (keepsOrFrees_putLocked _)
  | destroyRefcount hash ref =>
    simp only [tableStep, hwFenceDestroyRefcount]
    split
    · exact hinv
    · exact hinv.setFence (keepsOrFrees_destroyRefcountLocked _ ref)

def KeySafeStep : HwFenceDriverData → HwFenceDriverData → Prop :=
  GuardedStep (fun drv (op : TableOp) => op.Unsignaled ∧ op.MeetsHolderFirst drv) tableStep

/-- In every run from an initial table whose creations meet the holder of their key before a
free slot, keys are unique, such a creation of a present key reports `-EALREADY` and changes
nothing, and a lookup by a live key with a nonzero context processes its one entry. -/
theorem keys_unique_of_meetsHolderFirst {drv₀ drv : HwFenceDriverData} (hinit : drv₀.Initial)
    (hrun : Relation.ReflTransGen KeySafeStep drv₀ drv) :
    UniqueKeys drv ∧
    (∀ i clientId hlosKey context seqno pendingChildCnt startStep endStep flags hash,
      HoldsKey drv i hlosKey context seqno →
      flags &&& msmHwFenceFlagCreateSignaled = 0 →
      TableOp.MeetsHolderFirst drv (.create clientId hlosKey context seqno pendingChildCnt startStep
        endStep flags) →
      ∃ slot : UInt64, slot.toNat = i ∧
        hwFenceLookupAndCreateRange drv clientId hlosKey context seqno pendingChildCnt hash
            startStep endStep flags =
          { ret := eAlready, hwFence := none, hash := slot, drv := drv }) ∧
    (∀ i hlosKey context seqno hash processFn, context ≠ 0 →
      HoldsKey drv i hlosKey context seqno →
      ∃ slot : UInt64, slot.toNat = i ∧
        hwFenceLookupAndProcess drv hlosKey context seqno hash processFn =
          .ofLoop drv (slot, some (processFn drv slot))) := by
  have hinv : KeyInvariant drv :=
    invariant_of_guarded (fun _ op h hop => h.step op hop) hinit.keyInvariant hrun
  refine ⟨hinv.unique, ?_, ?_⟩
  · intro i clientId hlosKey context seqno pendingChildCnt startStep endStep flags hash hi hflags
      hfirst
    exact hinv.create_present hflags hfirst hi hash
  · intro i hlosKey context seqno hash processFn hctx hi
    exact hinv.lookup_finds hctx hi hash processFn

/-! ## Fixed runs -/

def twoSlots : HwFenceDriverData where
  hwFencesTblCnt := 2
  hwFenceTableEntries := 2
  hwFencesTbl := fun _ => {}
  hlosKeyTbl := fun _ => 0
  fctlReady := true
  rxqClientsNum := 4
  clients := fun _ => true

/-- Create the fence `(1, seqno)`, with key word `seqno`, over the whole table. -/
def createSeqno (seqno : UInt64) : TableOp := .create 1 seqno 1 seqno 0 0 2 0

instance (drv : HwFenceDriverData) (i : ℕ) (hlosKey context seqno : UInt64) :
    Decidable (HoldsKey drv i hlosKey context seqno) :=
  decidable_of_iff (i < drv.hwFencesTblCnt.toNat ∧ (drv.hwFencesTbl i).valid ≠ 0 ∧
    (drv.hwFencesTbl i).ctxId = context ∧ (drv.hwFencesTbl i).seqId = seqno ∧
      drv.hlosKeyTbl i = hlosKey)
    ⟨fun h => ⟨h.1, h.2.1, h.2.2.1, h.2.2.2.1, h.2.2.2.2⟩,
      fun h => ⟨h.lt, h.valid, h.ctxId, h.seqId, h.hlosKey⟩⟩

theorem mem_takeWhile_iff {α : Type} {p : α → Bool} {l : List α} {x : α} :
    x ∈ l.takeWhile p ↔
      p x = true ∧ ∃ before after, l = before ++ x :: after ∧ ∀ y ∈ before, p y = true := by
  constructor
  · intro hx
    obtain ⟨before, after, heq⟩ := List.append_of_mem hx
    have hall : ∀ y ∈ before ++ x :: after, p y = true :=
      heq ▸ List.all_eq_true.mp List.all_takeWhile
    refine ⟨hall x (by simp), before, after ++ l.dropWhile p, ?_, fun y hy => hall y (by simp [hy])⟩
    rw [← List.cons_append, ← List.append_assoc, ← heq, List.takeWhile_append_dropWhile]
  · rintro ⟨hx, before, after, rfl, hbefore⟩
    rw [List.takeWhile_append_of_pos hbefore, List.takeWhile_cons_of_pos hx]
    simp

theorem meetsHolderFirst_create_iff {clientId pendingChildCnt startStep endStep : UInt32}
    {flags : UInt64} :
    TableOp.MeetsHolderFirst drv (.create clientId hlosKey context seqno pendingChildCnt startStep
      endStep flags) ↔
    ∀ i < drv.hwFencesTblCnt.toNat, HoldsKey drv i hlosKey context seqno →
      i ∈ ((probeSlots drv context seqno startStep endStep).takeWhile fun slot =>
        (drv.hwFencesTbl slot.toNat).valid ≠ 0).map UInt64.toNat := by
  constructor
  · intro h i _ hi
    obtain ⟨before, slot, after, hslots, rfl, hbefore⟩ := h i hi
    refine List.mem_map_of_mem (mem_takeWhile_iff.mpr ⟨decide_eq_true hi.valid, before, after, hslots,
      fun y hy => decide_eq_true (hbefore y hy)⟩)
  · intro h i hi
    obtain ⟨slot, hslot, rfl⟩ := List.mem_map.mp (h i hi.lt hi)
    obtain ⟨-, before, after, hslots, hbefore⟩ := mem_takeWhile_iff.mp hslot
    exact ⟨before, slot, after, hslots, rfl, fun x hx => of_decide_eq_true (hbefore x hx)⟩

instance (drv : HwFenceDriverData) : (op : TableOp) → Decidable (op.MeetsHolderFirst drv)
  | .create .. => decidable_of_iff _ meetsHolderFirst_create_iff.symm
  | .lookup .. | .destroy .. | .destroyWithHash .. | .destroyRefcount .. => .isTrue trivial

instance : (op : TableOp) → Decidable op.Unsignaled
  | .create _ _ _ _ _ _ _ flags =>
    inferInstanceAs (Decidable (flags &&& msmHwFenceFlagCreateSignaled = 0))
  | .lookup .. | .destroy .. | .destroyWithHash .. | .destroyRefcount .. => .isTrue trivial

/-- Two keys that share their first slot are created, and created again while they are present; the
one behind is released and created once more. -/
def keysRun : List TableOp :=
  [createSeqno 1, createSeqno 3, createSeqno 1, createSeqno 3,
    .destroyRefcount 1 hwFenceFctlRefcount, .destroy 3 1 3, createSeqno 3]

theorem twoSlots_keys_unique :
    let drv := keysRun.foldl tableStep twoSlots
    twoSlots.Initial ∧ HoldsKey drv 0 1 1 1 ∧ HoldsKey drv 1 3 1 3 ∧ UniqueKeys drv ∧
      (hwFenceLookupAndCreateRange drv 1 3 1 3 0 0 0 2 0).ret = eAlready := by
  have hinit : twoSlots.Initial := ⟨fun _ => rfl⟩
  have hrun : Relation.ReflTransGen KeySafeStep twoSlots (keysRun.foldl tableStep twoSlots) :=
    guarded_foldl (by decide +kernel)
  have hkeys := keys_unique_of_meetsHolderFirst hinit hrun
  have hthird : HoldsKey (keysRun.foldl tableStep twoSlots) 1 3 1 3 := by decide +kernel
  obtain ⟨slot, -, hpresent⟩ := hkeys.2.1 1 1 3 1 3 0 0 2 0 0 hthird rfl (by decide +kernel)
  refine ⟨hinit, by decide +kernel, hthird, hkeys.1, ?_⟩
  rw [hpresent]

/-- Two fences share their first slot; the first is released while the second is live. -/
def releaseFirst : List TableOp :=
  [createSeqno 1, createSeqno 3, .destroyRefcount 0 hwFenceFctlRefcount, .destroy 1 1 1]

/-- After the release slot 1 still holds the second key, yet creating that key again
succeeds, and two valid entries then hold it. -/
theorem release_admits_duplicate_key :
    twoSlots.Initial ∧ (∀ op ∈ releaseFirst ++ [createSeqno 3], op.Unsignaled) ∧
      HoldsKey (releaseFirst.foldl tableStep twoSlots) 1 3 1 3 ∧
      (hwFenceLookupAndCreateRange (releaseFirst.foldl tableStep twoSlots) 1 3 1 3 0 0 0 2 0).ret ≠
        eAlready ∧
      ¬ UniqueKeys ((releaseFirst ++ [createSeqno 3]).foldl tableStep twoSlots) := by
  refine ⟨⟨fun _ => rfl⟩, ?_, ?_, by decide +kernel, ?_⟩
  · simp [releaseFirst, createSeqno, TableOp.Unsignaled]
  · constructor <;> decide +kernel
  · intro hunique
    have hzero : HoldsKey ((releaseFirst ++ [createSeqno 3]).foldl tableStep twoSlots) 0 3 1 3 := by
      constructor <;> decide +kernel
    have hone : HoldsKey ((releaseFirst ++ [createSeqno 3]).foldl tableStep twoSlots) 1 3 1 3 := by
      constructor <;> decide +kernel
    exact absurd (hunique 0 1 3 1 3 hzero hone) (by decide)

end QcomModules.HwFence
