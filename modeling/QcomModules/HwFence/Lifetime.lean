import QcomModules.HwFence.TableProbe

/-! References and validity of table entries. Import by index and the callback registration
take references without looking at the entry; runs in which they meet a live entry with room
in its count keep the references and the valid word in step. -/

namespace QcomModules.HwFence

open Library

/-! ## The packed reference word -/

/-- The two reference bits above the count. -/
def highRefBits : UInt32 := hwFenceFctlRefcount ||| hwFenceDmaFenceRefcount

/-- Counting up or down leaves the two reference bits alone. -/
def RefEdit.KeepsHighBits (old : UInt32) : RefEdit → Prop
  | .incr => (old + 1) &&& highRefBits = old &&& highRefBits
  | .decr => (old - 1) &&& highRefBits = old &&& highRefBits
  | _ => True

private theorem and_highRefBits_eq {a b : UInt32} (h : a.toNat / 2 ^ 30 = b.toNat / 2 ^ 30) :
    a &&& highRefBits = b &&& highRefBits := by
  apply UInt32.toNat_inj.mp
  rw [UInt32.toNat_and, UInt32.toNat_and, show highRefBits.toNat = 3 <<< 30 by decide]
  apply Nat.eq_of_testBit_eq
  intro i
  rw [Nat.testBit_and, Nat.testBit_and, Nat.testBit_shiftLeft]
  by_cases hi : 30 ≤ i
  · have hbit : ∀ n : ℕ, n.testBit i = (n / 2 ^ 30).testBit (i - 30) := by
      intro n
      rw [Nat.testBit_div_two_pow, Nat.sub_add_cancel hi]
    rw [hbit a.toNat, hbit b.toNat, h]
  · simp [hi]

private theorem toNat_and_hlosMask (r : UInt32) :
    (r &&& hwFenceHlosRefcountMask).toNat = r.toNat % 2 ^ 30 := by
  rw [UInt32.toNat_and, show hwFenceHlosRefcountMask.toNat = 2 ^ 30 - 1 by decide,
    Nat.and_two_pow_sub_one_eq_mod]

variable {r : UInt32} {hwFence : MsmHwFence}

theorem incr_of_room (h : r &&& hwFenceHlosRefcountMask ≠ hwFenceHlosRefcountMask) :
    r + 1 ≠ 0 ∧ RefEdit.KeepsHighBits r .incr := by
  have hlt := r.toNat_lt
  have hroom : r.toNat % 2 ^ 30 ≠ 2 ^ 30 - 1 := by
    intro heq
    apply h
    apply UInt32.toNat_inj.mp
    rw [toNat_and_hlosMask, heq]
    decide
  have hsucc : (r + 1).toNat = r.toNat + 1 := by
    rw [UInt32.toNat_add, show (1 : UInt32).toNat = 1 from rfl]
    omega
  refine ⟨?_, and_highRefBits_eq (by omega)⟩
  intro hzero
  rw [hzero] at hsucc
  simp at hsucc

theorem decr_of_count (h : r &&& hwFenceHlosRefcountMask ≠ 0) :
    r ≠ 0 ∧ RefEdit.KeepsHighBits r .decr := by
  have hlt := r.toNat_lt
  have hcount : r.toNat % 2 ^ 30 ≠ 0 := by
    intro heq
    apply h
    apply UInt32.toNat_inj.mp
    rw [toNat_and_hlosMask, heq]
    decide
  have hpred : (r - 1).toNat = r.toNat - 1 := by
    rw [UInt32.toNat_sub, show (1 : UInt32).toNat = 1 from rfl]
    omega
  refine ⟨?_, and_highRefBits_eq (by omega)⟩
  rintro rfl
  simp at hcount

theorem or_fctl_and_hlosMask (r : UInt32) :
    (r ||| hwFenceFctlRefcount) &&& hwFenceHlosRefcountMask = r &&& hwFenceHlosRefcountMask := by
  apply UInt32.toNat_inj.mp
  rw [toNat_and_hlosMask, toNat_and_hlosMask, UInt32.toNat_or, Nat.or_mod_two_pow,
    show hwFenceFctlRefcount.toNat % 2 ^ 30 = 0 by decide, Nat.or_zero]

/-! ## Entries -/

/-- No edit of the entry's reference word carried or borrowed into the reference bits. -/
def EditsKeep (hwFence : MsmHwFence) : Prop :=
  ∀ edit ∈ hwFence.refEdits, edit.1.KeepsHighBits edit.2

theorem EditsKeep.editRefcount (h : EditsKeep hwFence) (edit : RefEdit)
    (hedit : edit.KeepsHighBits hwFence.refcount) : EditsKeep (hwFence.editRefcount edit) := by
  intro e he
  rcases List.mem_cons.mp he with rfl | he
  · exact hedit
  · exact h e he

/-- An entry is referenced exactly when it is valid, and its count never left its field. -/
structure EntryOk (hwFence : MsmHwFence) : Prop where
  referenced_iff : hwFence.refcount ≠ 0 ↔ hwFence.valid = 1
  edits_keep : EditsKeep hwFence

theorem entryOk_deleteIfUnreferenced (hvalid : hwFence.valid = 1) (hedits : EditsKeep hwFence) :
    EntryOk (deleteIfUnreferenced hwFence) := by
  unfold deleteIfUnreferenced
  split
  · refine ⟨by simp [cleanupHwFence, MsmHwFence.editRefcount, RefEdit.apply], ?_⟩
    exact hedits.editRefcount (.assign 0) trivial
  · rename_i hne
    exact ⟨iff_of_true hne hvalid, hedits⟩

theorem EntryOk.destroyRefcountLocked (h : EntryOk hwFence) (ref : UInt32) :
    EntryOk (destroyRefcountLocked hwFence ref).2 := by
  unfold HwFence.destroyRefcountLocked
  split
  · rename_i href
    have hne : hwFence.refcount ≠ 0 := by
      intro hzero
      rw [hzero] at href
      simp at href
    exact entryOk_deleteIfUnreferenced (h.referenced_iff.mp hne)
      (h.edits_keep.editRefcount (.clearBits ref) trivial)
  · exact h

theorem EntryOk.putLocked (h : EntryOk hwFence) : EntryOk (putLocked hwFence).2.1 := by
  unfold HwFence.putLocked
  split
  · rename_i hcount
    obtain ⟨hne, hkeep⟩ := decr_of_count hcount
    have hvalid := h.referenced_iff.mp hne
    have hedits := h.edits_keep.editRefcount .decr hkeep
    dsimp only
    split
    · have hok : ∀ flags, EntryOk (deleteIfUnreferenced
          { hwFence.editRefcount .decr with flags := flags }) :=
        fun _ => entryOk_deleteIfUnreferenced hvalid hedits
      exact hok _
    · exact entryOk_deleteIfUnreferenced hvalid hedits
  · exact h

theorem EntryOk.reserveHwFence (h : EntryOk hwFence) (clientId : UInt32) (context seqno : UInt64)
    (pendingChildCnt : UInt32) :
    EntryOk (reserveHwFence hwFence clientId context seqno pendingChildCnt) where
  referenced_iff := by
    refine iff_of_true ?_ rfl
    simp only [HwFence.reserveHwFence, MsmHwFence.editRefcount, RefEdit.apply]
    decide
  edits_keep := (h.edits_keep.editRefcount (.assign 0) trivial).editRefcount (.assign _) trivial

/-- Importing by index meets a live entry whose count has room, or is refused. -/
def ImportsLive (hwFence : MsmHwFence) (importFlags : UInt64) : Prop :=
  (hwFence.flags &&& msmHwFenceReusable) ^^^ (importFlags &&& msmHwFenceReusable) ≠ 0 ∨
    (hwFence.valid = 1 ∧ hwFence.hlosRefcount ≠ hwFenceHlosRefcountMask)

theorem EntryOk.registerWaitLocked (h : EntryOk hwFence) {importFlags : UInt64}
    (hlive : ImportsLive hwFence importFlags) (clientId : UInt32) :
    EntryOk (registerWaitLocked hwFence clientId false true importFlags).hwFence := by
  unfold HwFence.registerWaitLocked
  split
  · exact h
  · rename_i hsame
    obtain ⟨hvalid, hroom⟩ := hlive.resolve_left hsame
    simp only [Bool.false_eq_true, false_and, and_false, if_false, if_true]
    split
    · split
      · obtain ⟨hne, hkeep⟩ := incr_of_room hroom
        exact ⟨iff_of_true hne hvalid, h.edits_keep.editRefcount .incr hkeep⟩
      · have hroom' : (hwFence.refcount ||| hwFenceFctlRefcount) &&& hwFenceHlosRefcountMask ≠
            hwFenceHlosRefcountMask := by
          rw [or_fctl_and_hlosMask]
          exact hroom
        obtain ⟨hne, hkeep⟩ := incr_of_room hroom'
        exact ⟨iff_of_true hne hvalid,
          (h.edits_keep.editRefcount (.setBits hwFenceFctlRefcount) trivial).editRefcount .incr
          hkeep⟩
    · obtain ⟨hne, hkeep⟩ := incr_of_room hroom
      exact ⟨iff_of_true hne hvalid, h.edits_keep.editRefcount .incr hkeep⟩

theorem EntryOk.addDmaFenceRef (h : EntryOk hwFence) (hvalid : hwFence.valid = 1) :
    EntryOk (hwFence.editRefcount (.setBits hwFenceDmaFenceRefcount)) where
  referenced_iff := iff_of_true
    (fun hzero => absurd (UInt32.or_eq_zero_iff.mp hzero).2 (by decide)) hvalid
  edits_keep := h.edits_keep.editRefcount (.setBits hwFenceDmaFenceRefcount) trivial

/-! ## Tables -/

def TableOk (drv : HwFenceDriverData) : Prop := ∀ i, EntryOk (drv.hwFencesTbl i)

namespace TableOk

variable {drv : HwFenceDriverData}

theorem setFence (h : TableOk drv) {i : ℕ} {hwFence : MsmHwFence} (hok : EntryOk hwFence) :
    TableOk (drv.setFence i hwFence) := by
  intro j
  by_cases hj : j = i
  · subst hj
    simpa only [HwFenceDriverData.setFence, Function.update_self] using hok
  · simpa only [HwFenceDriverData.setFence, Function.update_of_ne hj] using h j

theorem destroyRefcount (h : TableOk drv) (hash : UInt64) (ref : UInt32) :
    TableOk (hwFenceDestroyRefcount drv hash ref).2 := by
  unfold hwFenceDestroyRefcount
  split
  · exact h
  · exact h.setFence ((h _).destroyRefcountLocked ref)

theorem destroyWithHash (h : TableOk drv) (hash : UInt64) (tableDel : ℤ) :
    TableOk (hwFenceDestroyWithHash drv hash tableDel).2 := by
  unfold hwFenceDestroyWithHash
  split
  · exact h
  · exact h.setFence (h _).putLocked

theorem unreserve (h : TableOk drv) (hash : UInt64) : TableOk (unreserveHwFence drv hash).2 := by
  unfold unreserveHwFence
  dsimp only
  split
  · rename_i hcount
    obtain ⟨hne, hkeep⟩ := decr_of_count hcount
    have hvalid := (h hash.toNat).referenced_iff.mp hne
    have hedits := (h hash.toNat).edits_keep.editRefcount .decr hkeep
    have hdeleted : EntryOk (deleteIfUnreferenced
        ((drv.hwFencesTbl hash.toNat).editRefcount .decr)) :=
      entryOk_deleteIfUnreferenced hvalid hedits
    unfold deleteIfUnreferenced at hdeleted
    split
    · rename_i hzero
      rw [if_pos hzero] at hdeleted
      exact h.setFence hdeleted
    · rename_i hpos
      rw [if_neg hpos] at hdeleted
      exact h.setFence hdeleted
  · exact h

theorem destroy (h : TableOk drv) (hlosKey context seqno : UInt64) :
    TableOk (hwFenceDestroy drv hlosKey context seqno).2 := by
  unfold hwFenceDestroy hwFenceLookupAndProcess
  rcases hwFenceLookupAndProcessRange_drv drv hlosKey context seqno 0 0 drv.hwFencesTblCnt
      unreserveHwFence with heq | ⟨slot, heq⟩
  · simp only [heq]
    exact h
  · simp only [heq]
    exact h.unreserve slot

theorem lookupAndCreate (h : TableOk drv) (clientId : UInt32) (hlosKey context seqno : UInt64)
    (pendingChildCnt : UInt32) (hash : UInt64) :
    TableOk (hwFenceLookupAndCreate drv clientId hlosKey context seqno pendingChildCnt
      hash).drv := by
  rw [hwFenceLookupAndCreate, hwFenceLookupAndCreateRange_eq (by decide)]
  rcases forEachHwFence_cases drv hash context seqno 0 drv.hwFencesTblCnt
      (createBody drv clientId hlosKey context seqno pendingChildCnt) with
    ⟨before, slot, after, b, _, hstop, _, heq⟩ | ⟨_, hnone⟩
  · rw [heq]
    unfold createBody at hstop
    split at hstop
    · rw [← Option.some.inj hstop]
      exact h.setFence ((h _).reserveHwFence clientId context seqno pendingChildCnt)
    · split at hstop
      · rw [← Option.some.inj hstop]
        exact h
      · cases hstop
  · rw [LookupResult.ofLoop_of_none hnone]
    exact h

theorem create (h : TableOk drv) (clientId : UInt32) (skipFctlRef : Bool)
    (hlosKey context seqno hash : UInt64) :
    TableOk (hwFenceCreate drv clientId skipFctlRef hlosKey context seqno hash).2.2 := by
  have hcreated := h.lookupAndCreate clientId hlosKey context seqno 0 hash
  unfold hwFenceCreate
  dsimp only
  split
  · exact (hcreated.destroyRefcount _ _).destroyWithHash _ _
  · split
    · exact hcreated.destroyRefcount _ _
    · exact hcreated

variable {hash : UInt64}

theorem importWithHash (h : TableOk drv) {clientId : UInt32} {importFlags : UInt64}
    (hlive : hash ≥ drv.hwFencesTblCnt.toUInt64 ∨
      ImportsLive (drv.hwFencesTbl hash.toNat) importFlags) (ctlRet : ℤ) :
    TableOk (hwFenceProcessFenceWithHash drv clientId hash importFlags ctlRet).2.1 := by
  unfold hwFenceProcessFenceWithHash
  split
  · exact h
  · rename_i hin
    have hreg := h.setFence (i := hash.toNat)
      ((h hash.toNat).registerWaitLocked (hlive.resolve_left hin) clientId)
    unfold hwFenceRegisterWaitWithHash
    dsimp only
    split
    · exact hreg
    · split
      · split
        · exact hreg.destroyWithHash _ _
        · exact hreg
      · exact hreg

theorem signalParentFence (h : TableOk drv) (parentHash clientData : UInt64) (error : UInt32) :
    TableOk (signalParentFence drv parentHash clientData error).1 := by
  unfold HwFence.signalParentFence
  split
  · exact h
  · have hjoin : EntryOk (updateAndGetJoinFenceSignalStatus (drv.hwFencesTbl parentHash.toNat)
        error).1 := ⟨(h _).referenced_iff, (h _).edits_keep⟩
    dsimp only
    split
    · exact (h.setFence hjoin).destroyRefcount _ _
    · exact h.setFence hjoin

theorem signalParentFences (h : TableOk drv) (hash clientData : UInt64) (error : UInt32)
    (is : List (Fin 3)) : TableOk (signalParentFences hash clientData error is drv).1 := by
  induction is generalizing drv with
  | nil => exact h
  | cons i is ih => exact ih (h.signalParentFence _ _ _)

theorem signalFenceIfUnsignaled (h : TableOk drv) (hash : UInt64) (error : UInt32)
    (releaseRef : Bool) : TableOk (signalFenceIfUnsignaled drv hash error releaseRef).2.1 := by
  have hrelease : ∀ (drv : HwFenceDriverData) (c : Prop) [Decidable c], TableOk drv →
      TableOk (if c then (hwFenceDestroyRefcount drv hash hwFenceFctlRefcount).2 else drv) := by
    intro drv c _ hdrv
    split
    · exact hdrv.destroyRefcount _ _
    · exact hdrv
  unfold HwFence.signalFenceIfUnsignaled
  dsimp only
  cases hlocked : signalLocked (drv.hwFencesTbl hash.toNat) error with
  | none => exact hrelease drv _ h
  | some locked =>
    unfold signalLocked at hlocked
    split at hlocked
    · cases hlocked
    · rw [← Option.some.inj hlocked]
      have hok : EntryOk { drv.hwFencesTbl hash.toNat with
          flags := (drv.hwFencesTbl hash.toNat).flags ||| msmHwFenceFlagSignal
          error := error
          parentsCnt := 0 } := ⟨(h hash.toNat).referenced_iff, (h hash.toNat).edits_keep⟩
      exact hrelease _ _ ((h.setFence hok).signalParentFences _ _ _ _)

theorem signalFence (h : TableOk drv) (fence : Option DmaFence) (hash : UInt64) (error : UInt32)
    (releaseRef : Bool) : TableOk (hwFenceSignalFence drv fence hash error releaseRef).2.1 := by
  unfold hwFenceSignalFence
  split
  · exact h
  · dsimp only
    split
    · exact h
    · exact h.signalFenceIfUnsignaled _ _ _

theorem signalCallback (h : TableOk drv) (fence : DmaFence) (hash : UInt64) :
    TableOk (msmHwFenceSignalCallback drv fence hash).1 := by
  have hsignaled := h.signalFence (some fence) hash fence.error false
  unfold msmHwFenceSignalCallback
  dsimp only
  split
  · exact hsignaled
  · exact hsignaled.destroyRefcount _ _

theorem addCallback (h : TableOk drv) {env : AddCallbackEnv}
    (hlive : hash ≥ drv.hwFenceTableEntries.toUInt64 ∨ env.allocated = false ∨
      (drv.hwFencesTbl hash.toNat).valid = 1) (fence : DmaFence) :
    TableOk (hwFenceAddCallback drv fence hash env).2.1 := by
  unfold hwFenceAddCallback
  split
  · exact h
  · rename_i hin
    split
    · exact h
    · rename_i halloc
      have hvalid : (drv.hwFencesTbl hash.toNat).valid = 1 := by
        rcases hlive with hge | hno | hvalid
        · exact absurd hge hin
        · simp [hno] at halloc
        · exact hvalid
      have hset := h.setFence (i := hash.toNat) ((h hash.toNat).addDmaFenceRef hvalid)
      dsimp only
      split
      · exact hset
      · split
        · exact hset.signalCallback fence hash
        · exact hset.destroyRefcount _ _

end TableOk

/-! ## Runs -/

/-- The calls that take and release references, with what the rest of the system answers,
and the loss and return of the fence controller. -/
inductive LifetimeOp where
  | create (clientId : UInt32) (skipFctlRef : Bool) (hlosKey context seqno hash : UInt64)
  | processFenceWithHash (clientId : UInt32) (hash importFlags : UInt64) (ctlRet : ℤ)
  | addCallback (fence : DmaFence) (hash : UInt64) (env : AddCallbackEnv)
  | signalFence (fence : Option DmaFence) (hash : UInt64) (error : UInt32) (releaseRef : Bool)
  | signalCallback (fence : DmaFence) (hash : UInt64)
  | destroy (hlosKey context seqno : UInt64)
  | destroyWithHash (hash : UInt64) (tableDel : ℤ)
  | destroyRefcount (hash : UInt64) (ref : UInt32)
  | fctl (ready : Bool)
deriving DecidableEq, Repr

def lifetimeStep (drv : HwFenceDriverData) : LifetimeOp → HwFenceDriverData
  | .create clientId skipFctlRef hlosKey context seqno hash =>
    (hwFenceCreate drv clientId skipFctlRef hlosKey context seqno hash).2.2
  | .processFenceWithHash clientId hash importFlags ctlRet =>
    (hwFenceProcessFenceWithHash drv clientId hash importFlags ctlRet).2.1
  | .addCallback fence hash env => (hwFenceAddCallback drv fence hash env).2.1
  | .signalFence fence hash error releaseRef =>
    (hwFenceSignalFence drv fence hash error releaseRef).2.1
  | .signalCallback fence hash => (msmHwFenceSignalCallback drv fence hash).1
  | .destroy hlosKey context seqno => (hwFenceDestroy drv hlosKey context seqno).2
  | .destroyWithHash hash tableDel => (hwFenceDestroyWithHash drv hash tableDel).2
  | .destroyRefcount hash ref => (hwFenceDestroyRefcount drv hash ref).2
  | .fctl ready => { drv with fctlReady := ready }

/-- An import by index and a callback registration that get as far as the entry find it
valid, and the import finds room in its count. -/
def LifetimeOp.TakesLive (drv : HwFenceDriverData) : LifetimeOp → Prop
  | .processFenceWithHash _ hash importFlags _ =>
    hash ≥ drv.hwFencesTblCnt.toUInt64 ∨ ImportsLive (drv.hwFencesTbl hash.toNat) importFlags
  | .addCallback _ hash env =>
    hash ≥ drv.hwFenceTableEntries.toUInt64 ∨ env.allocated = false ∨
      (drv.hwFencesTbl hash.toNat).valid = 1
  | _ => True

theorem TableOk.step {drv : HwFenceDriverData} (h : TableOk drv) (op : LifetimeOp)
    (hop : op.TakesLive drv) : TableOk (lifetimeStep drv op) := by
  cases op with
  | create clientId skipFctlRef hlosKey context seqno hash => exact h.create _ _ _ _ _ _
  | processFenceWithHash clientId hash importFlags ctlRet => exact h.importWithHash hop ctlRet
  | addCallback fence hash env => exact h.addCallback hop fence
  | signalFence fence hash error releaseRef => exact h.signalFence _ _ _ _
  | signalCallback fence hash => exact h.signalCallback _ _
  | destroy hlosKey context seqno => exact h.destroy _ _ _
  | destroyWithHash hash tableDel => exact h.destroyWithHash _ _
  | destroyRefcount hash ref => exact h.destroyRefcount _ _
  | fctl ready => exact h

/-- One call whose references, if it takes any blindly, go to a live entry with room. -/
def LiveStep : HwFenceDriverData → HwFenceDriverData → Prop :=
  GuardedStep (fun drv (op : LifetimeOp) => op.TakesLive drv) lifetimeStep

/-- In every run from a zeroed table whose imports and callback registrations meet live
entries with room, every entry is referenced exactly when it is valid, and no count ever
carried or borrowed into the two reference bits. -/
theorem referenced_iff_valid_of_takesLive {drv₀ drv : HwFenceDriverData}
    (hinit : ∀ i, drv₀.hwFencesTbl i = {}) (hrun : Relation.ReflTransGen LiveStep drv₀ drv)
    (i : ℕ) :
    ((drv.hwFencesTbl i).refcount ≠ 0 ↔ (drv.hwFencesTbl i).valid = 1) ∧
      ∀ edit ∈ (drv.hwFencesTbl i).refEdits, edit.1.KeepsHighBits edit.2 := by
  have hok₀ : TableOk drv₀ := by
    intro j
    rw [hinit j]
    exact ⟨by decide, by simp [EditsKeep]⟩
  have hok : TableOk drv := invariant_of_guarded (fun _ op h hop => h.step op hop) hok₀ hrun
  exact ⟨(hok i).referenced_iff, (hok i).edits_keep⟩

/-! ## Fixed runs -/

def oneSlot : HwFenceDriverData where
  hwFencesTblCnt := 1
  hwFenceTableEntries := 1
  hwFencesTbl := fun _ => {}
  hlosKeyTbl := fun _ => 0
  fctlReady := true
  rxqClientsNum := 4
  clients := fun _ => true

/-- A creation followed by an import of the new entry. -/
theorem oneSlot_referenced_iff_valid :
    let created := lifetimeStep oneSlot (.create 1 false 7 1 1 0)
    let imported := lifetimeStep created (.processFenceWithHash 2 0 0 0)
    (imported.hwFencesTbl 0).refcount = hwFenceFctlRefcount + 2 ∧
      ((imported.hwFencesTbl 0).refcount ≠ 0 ↔ (imported.hwFencesTbl 0).valid = 1) := by
  intro created imported
  have hcreate : LiveStep oneSlot created := ⟨.create 1 false 7 1 1 0, trivial, rfl⟩
  have himport : LiveStep created imported :=
    ⟨.processFenceWithHash 2 0 0 0, .inr (.inr (by decide +kernel)), rfl⟩
  exact ⟨by decide +kernel,
    (referenced_iff_valid_of_takesLive (fun _ => rfl) (.tail (.single hcreate) himport) 0).1⟩

/-- Importing a free slot by its index leaves a reference on an entry that is not valid. -/
theorem import_of_free_slot_referenced_but_invalid :
    ¬ ∀ ops : List LifetimeOp, ∀ i,
      (((ops.foldl lifetimeStep oneSlot).hwFencesTbl i).refcount ≠ 0 ↔
        ((ops.foldl lifetimeStep oneSlot).hwFencesTbl i).valid = 1) := by
  intro h
  have hfree := h [.processFenceWithHash 2 0 0 0] 0
  exact absurd hfree (by decide +kernel)

end QcomModules.HwFence
