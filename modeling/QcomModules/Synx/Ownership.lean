import QcomModules.Library.Runs
import QcomModules.Synx.Merge

/-! Who owns the slots of the global table: an entry lives while a core holds a reference on it or
a composite waits for its children, and no composite goes away before its children are done with
it. -/

namespace QcomModules.Synx

open Library List Function

/-! ## Calls -/

/-- The memory, and (ghost) how many references on an entry each core holds. -/
structure OwnState where
  gmem : SynxSharedMem
  holders : ℕ → ℕ → ℕ

def setHolder (holders : ℕ → ℕ → ℕ) (idx coreId n : ℕ) : ℕ → ℕ → ℕ :=
  Function.update holders idx (Function.update (holders idx) coreId n)

def held (holders : ℕ → ℕ → ℕ) (idx : ℕ) : ℕ :=
  ∑ coreId ∈ Finset.range synxCoreMax, holders idx coreId

inductive OwnCall where
  | create
  | getRef (idx coreId : ℕ)
  | putRef (idx coreId : ℕ)
  | merge (idxList : List ℕ) (pIdx : ℕ)
  | updateStatus (idx status : ℕ)
  | testStatusUpdate (idx id hHwfence : ℕ) (isWaiter : Bool)
  | recover (coreId : ℕ)
deriving DecidableEq, Repr

/-- One call. A reference that a call returns is held, and a core that is recovered holds none
any more. -/
def OwnState.call (depth : ℕ) (s : OwnState) : OwnCall → OwnState
  | .create =>
    ⟨(synxAllocGlobalHandle s.gmem).2, (synxGlobalAllocIndex s.gmem).1.elim s.holders
      (fun idx => setHolder s.holders idx synxCoreApss 1)⟩
  | .getRef idx coreId =>
    ⟨(synxGlobalGetRef s.gmem idx).2,
      if (synxGlobalGetRef s.gmem idx).1 = 0 then
        setHolder s.holders idx coreId (s.holders idx coreId + 1) else s.holders⟩
  | .putRef idx coreId =>
    ⟨synxGlobalPutRef s.gmem idx, setHolder s.holders idx coreId (s.holders idx coreId - 1)⟩
  | .merge idxList pIdx => ⟨(synxGlobalMerge s.gmem idxList pIdx).2, s.holders⟩
  | .updateStatus idx status => ⟨(synxGlobalUpdateStatus depth s.gmem idx status).2, s.holders⟩
  | .testStatusUpdate idx id hHwfence isWaiter =>
    let result := synxGlobalTestStatusUpdateCoredata s.gmem idx id hHwfence isWaiter
    ⟨result.2, if result.1 = synxStateActive then
      setHolder s.holders idx id (s.holders idx id + 1) else s.holders⟩
  | .recover coreId =>
    ⟨synxGlobalRecover depth s.gmem coreId,
      fun idx c => if c = coreId then 0 else s.holders idx c⟩

/-- An entry is in use while its bit is set, its references are held or kept for its children,
and a composite is there while a child that is not done lists it. -/
structure SlotsOwned (s : OwnState) : Prop where
  bit : ∀ idx, synxIsValidIdx idx = true →
    (s.gmem.table idx ≠ {} ↔ s.gmem.bitmap idx = true)
  refcount : ∀ idx, (s.gmem.table idx).refcount.toNat =
    held s.holders idx + if (s.gmem.table idx).numChild = 0 then 0 else 1
  listed : ∀ idx p, s.gmem.table idx ≠ {} → (s.gmem.table idx).done = false →
    p ∈ (s.gmem.table idx).parentList → s.gmem.table p ≠ {}

/-! ## When the calls are safe -/

/-- The first child, after those linked, without a free slot. -/
def firstFull (table : ℕ → SynxGlobalCoredata) : List ℕ → List ℕ → Option ℕ
  | _, [] => none
  | linked, idx :: rest =>
    if (table idx).parentList.length + linked.count idx < synxGlobalMaxParents then
      firstFull table (linked ++ [idx]) rest
    else some idx

/-- A merge of entries that are in use into a new composite. It does not stop at a child that is
signaled already. -/
structure OwnMergeOk (gmem : SynxSharedMem) (idxList : List ℕ) (pIdx : ℕ) : Prop where
  valid : ∀ idx ∈ idxList, synxIsValidIdx idx = true
  live : ∀ idx ∈ idxList, gmem.table idx ≠ {}
  validParent : synxIsValidIdx pIdx = true
  liveParent : gmem.table pIdx ≠ {}
  notMem : pIdx ∉ idxList
  status : (gmem.table pIdx).status = synxStateActive
  numChild : (gmem.table pIdx).numChild = 0
  refcount : (gmem.table pIdx).refcount.toNat + 1 < 2 ^ 16
  stops : ∀ idx, firstFull gmem.table [] idxList = some idx → (gmem.table idx).done = false

/-- The core is a subscriber of the entries on which it holds one reference, and holds no
others. -/
def Subscribed (coreId : ℕ) (holders : ℕ → ℕ → ℕ) (table : ℕ → SynxGlobalCoredata) (idx : ℕ) :
    Prop :=
  holders idx coreId = if (table idx).subscribers &&& coreBit coreId = 0 then 0 else 1

/-- Releases are of references that are held, counts do not overflow, a failed merge did not stop
at a signaled child, and a core to be recovered holds one reference where it is a subscriber. -/
def OwnOk (s : OwnState) : OwnCall → Prop
  | .create => True
  | .getRef idx coreId => coreId < synxCoreMax ∧ (s.gmem.table idx).refcount.toNat + 1 < 2 ^ 16
  | .putRef idx coreId => coreId < synxCoreMax ∧ 0 < s.holders idx coreId
  -- others are refused or do nothing
  | .merge idxList pIdx => synxIsValidIdx pIdx = true → idxList ≠ [] →
      OwnMergeOk s.gmem idxList pIdx
  | .updateStatus _ _ => True
  | .testStatusUpdate idx _ _ _ => (s.gmem.table idx).refcount.toNat + 1 < 2 ^ 16
  | .recover coreId => coreId < synxCoreMax ∧ ∀ idx, Subscribed coreId s.holders s.gmem.table idx

structure OwnState.Initial (s : OwnState) : Prop where
  table : ∀ idx, s.gmem.table idx = {}
  bitmap : ∀ idx, s.gmem.bitmap idx = decide (idx = 0)
  holders : ∀ idx coreId, s.holders idx coreId = 0

/-! ## Notifications that are outstanding -/

/-- How often an entry will still notify a composite. -/
def notifications (entry : SynxGlobalCoredata) (p : ℕ) : ℕ :=
  if entry.done then 0 else entry.parentList.count p

def outstanding (table : ℕ → SynxGlobalCoredata) (p : ℕ) : ℕ :=
  ∑ idx ∈ Finset.range synxGlobalMaxObjs, notifications (table idx) p

@[simp]
theorem notifications_zero (p : ℕ) : notifications {} p = 0 := rfl

theorem lt_of_valid {idx : ℕ} (h : synxIsValidIdx idx = true) : idx < synxGlobalMaxObjs := by
  simp only [synxIsValidIdx, Bool.and_eq_true, decide_eq_true_eq] at h
  exact h.2

theorem sum_update_add {α : Type*} {n i : ℕ} (hi : i < n) (f : ℕ → α) (a : α) (g : α → ℕ) :
    ∑ x ∈ Finset.range n, g (Function.update f i a x) + g (f i) =
      ∑ x ∈ Finset.range n, g (f x) + g a := by
  have hmem : i ∈ Finset.range n := Finset.mem_range.mpr hi
  rw [← Finset.add_sum_erase _ _ hmem, ← Finset.add_sum_erase _ _ hmem, update_self]
  have hrest : ∑ x ∈ (Finset.range n).erase i, g (update f i a x) =
      ∑ x ∈ (Finset.range n).erase i, g (f x) := by
    refine Finset.sum_congr rfl fun x hx => ?_
    rw [update_of_ne (Finset.ne_of_mem_erase hx)]
  omega

theorem outstanding_update {idx : ℕ} (hidx : synxIsValidIdx idx = true)
    (table : ℕ → SynxGlobalCoredata) (entry : SynxGlobalCoredata) (p : ℕ) :
    outstanding (Function.update table idx entry) p + notifications (table idx) p =
      outstanding table p + notifications entry p :=
  sum_update_add (lt_of_valid hidx) table entry (notifications · p)

theorem notifications_le_outstanding {idx : ℕ} (hidx : synxIsValidIdx idx = true)
    (table : ℕ → SynxGlobalCoredata) (p : ℕ) :
    notifications (table idx) p ≤ outstanding table p :=
  Finset.single_le_sum (f := fun idx => notifications (table idx) p) (fun _ _ => Nat.zero_le _)
    (Finset.mem_range.mpr (lt_of_valid hidx))

/-! ## The invariant -/

/-- The entries, while the composites of `todo` are still to be notified. -/
structure Owned (holders : ℕ → ℕ → ℕ) (gmem : SynxSharedMem) (todo : List ℕ) : Prop where
  invalid : ∀ idx, synxIsValidIdx idx = false → gmem.table idx = {}
  zero : ∀ idx, (gmem.table idx).refcount = 0 → gmem.table idx = {}
  handle : ∀ idx, (gmem.table idx).refcount ≠ 0 → (gmem.table idx).handle ≠ 0
  refcount : ∀ idx, (gmem.table idx).refcount.toNat =
    held holders idx + if (gmem.table idx).numChild = 0 then 0 else 1
  waits : ∀ p, outstanding gmem.table p + todo.count p ≤ (gmem.table p).numChild.toNat

/-- The bits, while those of `clearIdx` are still to be cleared. -/
structure Bits (gmem : SynxSharedMem) (clearIdx : List ℕ) : Prop where
  reserved : gmem.bitmap 0 = true
  bit : ∀ idx, synxIsValidIdx idx = true →
    (gmem.bitmap idx = true ↔ gmem.table idx ≠ {} ∨ idx ∈ clearIdx)
  cleared : ∀ idx ∈ clearIdx, synxIsValidIdx idx = true ∧ gmem.table idx = {}

section
variable {holders holders' : ℕ → ℕ → ℕ} {gmem gmem' : SynxSharedMem} {todo todo' : List ℕ}
  {idx coreId : ℕ} {entry : SynxGlobalCoredata}

theorem held_setHolder (holders : ℕ → ℕ → ℕ) (idx : ℕ) (hcore : coreId < synxCoreMax) (n : ℕ) :
    held (setHolder holders idx coreId n) idx + holders idx coreId = held holders idx + n := by
  rw [held, held, setHolder, update_self]
  exact sum_update_add hcore (holders idx) n id

theorem held_setHolder_of_ne {i : ℕ} (hi : i ≠ idx) (n : ℕ) :
    held (setHolder holders idx coreId n) i = held holders i := by
  rw [held, held, setHolder, update_of_ne hi]

theorem holder_le_held (holders : ℕ → ℕ → ℕ) (idx : ℕ) (hcore : coreId < synxCoreMax) :
    holders idx coreId ≤ held holders idx :=
  Finset.single_le_sum (f := fun c => holders idx c) (fun _ _ => Nat.zero_le _)
    (Finset.mem_range.mpr hcore)

theorem Owned.ne_zero_iff (h : Owned holders gmem todo) (idx : ℕ) :
    gmem.table idx ≠ {} ↔ (gmem.table idx).refcount ≠ 0 := by
  constructor
  · exact fun hne hzero => hne (h.zero idx hzero)
  · intro hne hzero
    rw [hzero] at hne
    exact hne rfl

theorem Owned.update (h : Owned holders gmem todo) (hidx : synxIsValidIdx idx = true)
    (htable : gmem'.table = Function.update gmem.table idx entry)
    (hzero : entry.refcount = 0 → entry = {}) (hhandle : entry.refcount ≠ 0 → entry.handle ≠ 0)
    (hheld : ∀ i, i ≠ idx → held holders' i = held holders i)
    (hrefcount : entry.refcount.toNat = held holders' idx + if entry.numChild = 0 then 0 else 1)
    (hwaits : ∀ p, notifications entry p + todo'.count p + (gmem.table p).numChild.toNat ≤
      notifications (gmem.table idx) p + todo.count p + (gmem'.table p).numChild.toNat) :
    Owned holders' gmem' todo' := by
  refine ⟨?_, ?_, ?_, ?_, ?_⟩
  · intro i hi
    rw [htable, update_of_ne (by rintro rfl; simp [hidx] at hi), h.invalid i hi]
  · rw [htable]
    exact (forall_update_iff _ fun _ (e : SynxGlobalCoredata) => e.refcount = 0 → e = {}).mpr
      ⟨hzero, fun i _ => h.zero i⟩
  · rw [htable]
    exact (forall_update_iff _ fun _ (e : SynxGlobalCoredata) =>
      e.refcount ≠ 0 → e.handle ≠ 0).mpr ⟨hhandle, fun i _ => h.handle i⟩
  · rw [htable]
    refine (forall_update_iff _ fun i (e : SynxGlobalCoredata) =>
      e.refcount.toNat = held holders' i + if e.numChild = 0 then 0 else 1).mpr
        ⟨hrefcount, fun i hi => ?_⟩
    rw [hheld i hi]
    exact h.refcount i
  · intro p
    have hsum := outstanding_update hidx gmem.table entry p
    have hold := h.waits p
    have hnew := hwaits p
    rw [htable]
    rw [htable] at hnew
    omega

theorem Bits.update {clearIdx : List ℕ} (h : Bits gmem clearIdx) (hlive : gmem.table idx ≠ {})
    (hentry : entry ≠ {}) (htable : gmem'.table = Function.update gmem.table idx entry)
    (hbitmap : gmem'.bitmap = gmem.bitmap) : Bits gmem' clearIdx := by
  refine ⟨by rw [hbitmap]; exact h.reserved, ?_, ?_⟩
  · intro i hi
    rw [hbitmap, h.bit i hi, htable]
    by_cases hii : i = idx
    · subst hii
      simp [hlive, hentry]
    · rw [update_of_ne hii]
  · intro i hi
    obtain ⟨hvalid, hzero⟩ := h.cleared i hi
    have hii : i ≠ idx := by
      rintro rfl
      exact hlive hzero
    rw [htable, update_of_ne hii]
    exact ⟨hvalid, hzero⟩

theorem Bits.clear {clearIdx : List ℕ} (h : Bits gmem clearIdx)
    (hidx : synxIsValidIdx idx = true) (hlive : gmem.table idx ≠ {}) :
    Bits ((gmem.setEntry idx {}).clearBit idx) clearIdx := by
  have hbit : ∀ i, i ≠ idx → ((gmem.setEntry idx {}).clearBit idx).bitmap i = gmem.bitmap i :=
    fun i hi => update_of_ne hi _ _
  have htable : ∀ i, i ≠ idx → ((gmem.setEntry idx {}).clearBit idx).table i = gmem.table i :=
    fun i hi => update_of_ne hi _ _
  have hne : ∀ i ∈ clearIdx, i ≠ idx := by
    rintro i hi rfl
    exact hlive (h.cleared i hi).2
  refine ⟨?_, ?_, ?_⟩
  · rw [hbit 0 (by rintro rfl; simp [synxIsValidIdx] at hidx)]
    exact h.reserved
  · intro i hi
    by_cases hii : i = idx
    · subst hii
      have hmem : i ∉ clearIdx := fun hmem => hne i hmem rfl
      simp [SynxSharedMem.clearBit, SynxSharedMem.setEntry, hmem]
    · rw [hbit i hii, htable i hii]
      exact h.bit i hi
  · intro i hi
    rw [htable i (hne i hi)]
    exact h.cleared i hi

theorem Owned.live_of_holder (h : Owned holders gmem todo) (hcore : coreId < synxCoreMax)
    (hholder : 0 < holders idx coreId) : 0 < (gmem.table idx).refcount.toNat := by
  have hle := holder_le_held holders idx hcore
  have href := h.refcount idx
  omega

theorem Owned.valid_of_live (h : Owned holders gmem todo) (hlive : gmem.table idx ≠ {}) :
    synxIsValidIdx idx = true := by
  by_contra hinvalid
  exact hlive (h.invalid idx (by simpa using hinvalid))

theorem toNat_add_one {n : UInt16} (h : n.toNat + 1 < 2 ^ 16) : (n + 1).toNat = n.toNat + 1 := by
  rw [UInt16.toNat_add, UInt16.toNat_one, Nat.mod_eq_of_lt h]

theorem add_one_ne_zero {n : UInt16} (h : n.toNat + 1 < 2 ^ 16) : n + 1 ≠ 0 := by
  intro hzero
  have hadd := toNat_add_one h
  rw [hzero, UInt16.toNat_zero] at hadd
  omega

theorem toNat_sub_one {n : UInt16} (h : 0 < n.toNat) : (n - 1).toNat = n.toNat - 1 := by
  rw [UInt16.toNat_sub_of_le, UInt16.toNat_one]
  rw [UInt16.le_iff_toNat_le, UInt16.toNat_one]
  exact h

theorem ne_zero_of_refcount (h : entry.refcount ≠ 0) : entry ≠ {} := by
  rintro rfl
  exact h rfl

/-! ## References -/

theorem Owned.acquire (h : Owned holders gmem todo) (hcore : coreId < synxCoreMax)
    (hlive : gmem.table idx ≠ {})
    (hlt : (gmem.table idx).refcount.toNat + 1 < 2 ^ 16)
    (hrefcount : entry.refcount = (gmem.table idx).refcount + 1)
    (hchild : entry.numChild = (gmem.table idx).numChild)
    (hhandle : entry.handle = (gmem.table idx).handle)
    (hnotes : ∀ p, notifications entry p = notifications (gmem.table idx) p) :
    Owned (setHolder holders idx coreId (holders idx coreId + 1)) (gmem.setEntry idx entry)
      todo := by
  have hpos : entry.refcount.toNat = (gmem.table idx).refcount.toNat + 1 := by
    rw [hrefcount, toNat_add_one hlt]
  refine h.update (h.valid_of_live hlive) rfl ?_ ?_ ?_ ?_ ?_
  · intro hzero
    rw [hzero, UInt16.toNat_zero] at hpos
    omega
  · intro _
    rw [hhandle]
    exact h.handle idx ((h.ne_zero_iff idx).mp hlive)
  · exact fun i hi => held_setHolder_of_ne hi _
  · have hheld := held_setHolder holders idx hcore (holders idx coreId + 1)
    have href := h.refcount idx
    rw [hpos, hchild]
    omega
  · intro p
    rw [hnotes p, SynxSharedMem.table_setEntry]
    by_cases hp : p = idx
    · rw [hp, update_self, hchild]
    · rw [update_of_ne hp]

def released (entry : SynxGlobalCoredata) (subscribers : UInt16) : SynxGlobalCoredata :=
  if entry.refcount - 1 = 0 then {}
  else { entry with refcount := entry.refcount - 1, subscribers := subscribers }

theorem Owned.release (h : Owned holders gmem todo) (hcore : coreId < synxCoreMax)
    (hholder : 0 < holders idx coreId) (subscribers : UInt16)
    (htable : gmem'.table =
      Function.update gmem.table idx (released (gmem.table idx) subscribers)) :
    Owned (setHolder holders idx coreId (holders idx coreId - 1)) gmem' todo := by
  have hpos := h.live_of_holder hcore hholder
  have hlive : gmem.table idx ≠ {} := by
    rw [h.ne_zero_iff idx]
    intro hzero
    rw [hzero, UInt16.toNat_zero] at hpos
    omega
  have href := h.refcount idx
  have hsub := toNat_sub_one hpos
  have hheld := held_setHolder holders idx hcore (holders idx coreId - 1)
  have hle := holder_le_held holders idx hcore
  refine h.update (h.valid_of_live hlive) htable ?_ ?_ (fun i hi => held_setHolder_of_ne hi _)
    ?_ ?_
  · intro hzero
    rw [released] at hzero ⊢
    split at hzero
    · next hlast => rw [if_pos hlast]
    · next hlast => exact absurd hzero hlast
  · intro hne
    rw [released] at hne ⊢
    split at hne
    · exact absurd rfl hne
    · next hlast =>
        rw [if_neg hlast]
        exact h.handle idx ((h.ne_zero_iff idx).mp hlive)
  · rw [released]
    split
    · next hlast =>
        rw [hlast, UInt16.toNat_zero] at hsub
        have hnone : held (setHolder holders idx coreId (holders idx coreId - 1)) idx = 0 := by
          omega
        rw [hnone]
        rfl
    · simp only
      omega
  · intro p
    rw [htable]
    by_cases hlast : (gmem.table idx).refcount - 1 = 0
    · rw [released, if_pos hlast, notifications_zero]
      by_cases hp : p = idx
      · rw [hlast, UInt16.toNat_zero] at hsub
        have hchild : (gmem.table idx).numChild = 0 := by
          by_contra hchild
          rw [if_neg hchild] at href
          omega
        rw [hp, update_self, hchild, UInt16.toNat_zero]
        omega
      · rw [update_of_ne hp]
        omega
    · rw [released, if_neg hlast]
      have hnotes : notifications { gmem.table idx with
          refcount := (gmem.table idx).refcount - 1, subscribers := subscribers } p =
          notifications (gmem.table idx) p := rfl
      rw [hnotes]
      by_cases hp : p = idx
      · rw [hp, update_self]
      · rw [update_of_ne hp]

end

structure OwnInv (s : OwnState) : Prop where
  owned : Owned s.holders s.gmem []
  bits : Bits s.gmem []

section
variable {s : OwnState} {idx coreId : ℕ}

theorem OwnInv.slotsOwned (h : OwnInv s) : SlotsOwned s where
  bit i hi := by
    rw [h.bits.bit i hi]
    simp
  refcount := h.owned.refcount
  listed i p hlive hdone hp := by
    have hvalid := h.owned.valid_of_live hlive
    have hle := notifications_le_outstanding hvalid s.gmem.table p
    have hpos := count_pos_iff.mpr hp
    have hwaits := h.owned.waits p
    simp only [notifications, hdone, Bool.false_eq_true, if_false] at hle
    intro hzero
    have hnone : (s.gmem.table p).numChild.toNat = 0 := by
      rw [hzero]
      rfl
    omega

theorem OwnInv.getRef (h : OwnInv s) (hcore : coreId < synxCoreMax)
    (hlt : (s.gmem.table idx).refcount.toNat + 1 < 2 ^ 16) (depth : ℕ) :
    OwnInv (s.call depth (.getRef idx coreId)) := by
  by_cases hvalid : synxIsValidIdx idx = true
  · by_cases hlive : s.gmem.table idx = {}
    · have hsame : synxGlobalGetRef s.gmem idx = (eNoEnt, s.gmem) := by
        simp [synxGlobalGetRef, hvalid, hlive]
      have hcall : s.call depth (.getRef idx coreId) = s := by
        simp [OwnState.call, hsame, eNoEnt]
      rw [hcall]
      exact h
    · have href := (h.owned.ne_zero_iff idx).mp hlive
      have hget : synxGlobalGetRef s.gmem idx = (0, s.gmem.setEntry idx
          { s.gmem.table idx with refcount := (s.gmem.table idx).refcount + 1 }) := by
        simp [synxGlobalGetRef, hvalid, href, h.owned.handle idx href]
      have hcall : s.call depth (.getRef idx coreId) = ⟨s.gmem.setEntry idx
          { s.gmem.table idx with refcount := (s.gmem.table idx).refcount + 1 },
          setHolder s.holders idx coreId (s.holders idx coreId + 1)⟩ := by
        rw [OwnState.call, hget, if_pos rfl]
      rw [hcall]
      exact ⟨h.owned.acquire hcore hlive hlt rfl rfl rfl fun _ => rfl,
        h.bits.update hlive (ne_zero_of_refcount (add_one_ne_zero hlt)) rfl rfl⟩
  · have hsame : synxGlobalGetRef s.gmem idx = (eInval, s.gmem) := by
      simp [synxGlobalGetRef, hvalid]
    have hcall : s.call depth (.getRef idx coreId) = s := by
      simp [OwnState.call, hsame, eInval]
    rw [hcall]
    exact h

theorem released_ne_zero {entry : SynxGlobalCoredata} {subscribers : UInt16}
    (h : entry.refcount - 1 ≠ 0) : released entry subscribers ≠ {} := by
  rw [released, if_neg h]
  exact ne_zero_of_refcount h

theorem OwnInv.putRef (h : OwnInv s) (hcore : coreId < synxCoreMax)
    (hholder : 0 < s.holders idx coreId) (depth : ℕ) :
    OwnInv (s.call depth (.putRef idx coreId)) := by
  have hpos := h.owned.live_of_holder hcore hholder
  have hlive : s.gmem.table idx ≠ {} := by
    rw [h.owned.ne_zero_iff idx]
    intro hzero
    rw [hzero, UInt16.toNat_zero] at hpos
    omega
  have hvalid := h.owned.valid_of_live hlive
  rw [OwnState.call]
  by_cases hlast : (s.gmem.table idx).refcount - 1 = 0
  · have hput : synxGlobalPutRef s.gmem idx = (s.gmem.setEntry idx {}).clearBit idx := by
      simp [synxGlobalPutRef, hvalid, hlast]
    rw [hput]
    refine ⟨h.owned.release hcore hholder 0 ?_, ?_⟩
    · rw [released, if_pos hlast]
      rfl
    · exact h.bits.clear hvalid hlive
  · have hput : synxGlobalPutRef s.gmem idx = s.gmem.setEntry idx
        (released (s.gmem.table idx) (s.gmem.table idx).subscribers) := by
      simp [synxGlobalPutRef, hvalid, hlast, released]
    rw [hput]
    exact ⟨h.owned.release hcore hholder (s.gmem.table idx).subscribers rfl,
      h.bits.update hlive (released_ne_zero hlast) rfl rfl⟩

theorem OwnInv.testStatusUpdate (h : OwnInv s) {id hHwfence : ℕ} {isWaiter : Bool}
    (hlt : (s.gmem.table idx).refcount.toNat + 1 < 2 ^ 16) (depth : ℕ) :
    OwnInv (s.call depth (.testStatusUpdate idx id hHwfence isWaiter)) := by
  rw [OwnState.call]
  by_cases hargs : synxCoreMax ≤ id ∨ synxIsValidIdx idx = false
  · have hsame : synxGlobalTestStatusUpdateCoredata s.gmem idx id hHwfence isWaiter =
        (eInval, s.gmem) := by
      simp [synxGlobalTestStatusUpdateCoredata, hargs]
    simp only [hsame]
    simpa [eInval, synxStateActive] using h
  · simp only [not_or, Nat.not_le, Bool.not_eq_false] at hargs
    obtain ⟨hcore, hvalid⟩ := hargs
    by_cases hactive : (s.gmem.table idx).status = synxStateActive ∨
        (s.gmem.table idx).numChild ≠ 0
    · have hlive : s.gmem.table idx ≠ {} := by
        intro hzero
        simp [hzero, synxStateActive] at hactive
      have hsub : synxGlobalTestStatusUpdateCoredata s.gmem idx id hHwfence isWaiter =
          ((synxStateActive : ℤ), s.gmem.setEntry idx { s.gmem.table idx with
            refcount := (s.gmem.table idx).refcount + 1
            subscribers := (s.gmem.table idx).subscribers ||| coreBit id
            waiters := if isWaiter then (s.gmem.table idx).waiters ||| coreBit id
              else (s.gmem.table idx).waiters
            hHwfence := hHwfence }) := by
        simp only [synxGlobalTestStatusUpdateCoredata, Nat.not_le.mpr hcore, hvalid, hactive,
          decide_false, Bool.not_true, Bool.or_self, Bool.false_eq_true, if_false, if_true]
      simp only [hsub, if_true]
      exact ⟨h.owned.acquire hcore hlive hlt rfl rfl rfl fun _ => rfl,
        h.bits.update hlive (ne_zero_of_refcount (add_one_ne_zero hlt)) rfl rfl⟩
    · have hsame : synxGlobalTestStatusUpdateCoredata s.gmem idx id hHwfence isWaiter =
          (((s.gmem.table idx).status : ℤ), s.gmem) := by
        simp only [synxGlobalTestStatusUpdateCoredata, Nat.not_le.mpr hcore, hvalid, hactive,
          decide_false, Bool.not_true, Bool.or_self, Bool.false_eq_true, if_false]
      have hne : ((s.gmem.table idx).status : ℤ) ≠ synxStateActive := by
        intro heq
        exact hactive (.inl (Int.ofNat_inj.mp heq))
      simp only [hsame, hne, if_false]
      exact h

/-! ## New entries -/

theorem synxEncodeHandle_global {idx : ℕ} (hidx : idx < synxGlobalMaxObjs) :
    synxEncodeHandle idx synxCoreApss true = 2 ^ 16 * 16 + idx := by
  have hlt : idx < 2 ^ 16 := Nat.lt_trans hidx (by decide)
  rw [synxEncodeHandle, if_neg (Nat.not_le.mpr hidx), Nat.two_pow_add_eq_or_of_lt hlt]
  rfl

def newEntry (hSynx : ℕ) : SynxGlobalCoredata where
  status := synxStateActive
  refcount := 1
  subscribers := coreBit synxCoreApss
  handle := hSynx

theorem synxAllocGlobalHandle_some {gmem : SynxSharedMem}
    (hfind : findFirstZeroBit gmem = some idx)
    (hvalid : synxIsValidIdx idx = true) (hzero : gmem.table idx = {}) :
    synxAllocGlobalHandle gmem =
      (0, ⟨Function.update gmem.bitmap idx true,
        Function.update gmem.table idx (newEntry (synxEncodeHandle idx synxCoreApss true))⟩) := by
  have hmod : synxEncodeHandle idx synxCoreApss true % 2 ^ synxHandleIndexBits = idx := by
    rw [synxEncodeHandle_global (lt_of_valid hvalid), synxHandleIndexBits, Nat.mul_add_mod]
    exact Nat.mod_eq_of_lt (Nat.lt_trans (lt_of_valid hvalid) (by decide))
  have halloc : synxGlobalAllocIndex gmem =
      (some idx, { gmem with bitmap := update gmem.bitmap idx true }) := by
    rw [synxGlobalAllocIndex, hfind, Option.elim_some]
  rw [synxAllocGlobalHandle, halloc]
  simp only [Option.elim_some, synxGlobalInitCoredata, hmod, hvalid, hzero]
  simp [SynxSharedMem.setEntry, newEntry]

theorem OwnInv.create (h : OwnInv s) (depth : ℕ) : OwnInv (s.call depth .create) := by
  rw [OwnState.call]
  cases hfind : findFirstZeroBit s.gmem with
  | none =>
    have halloc : synxGlobalAllocIndex s.gmem = (none, s.gmem) := by
      rw [synxGlobalAllocIndex, hfind, Option.elim_none]
    rw [synxAllocGlobalHandle, halloc]
    exact h
  | some idx =>
    have halloc : (synxGlobalAllocIndex s.gmem).1 = some idx := by
      rw [synxGlobalAllocIndex, hfind, Option.elim_some]
    have hbit : s.gmem.bitmap idx = false := by
      rw [findFirstZeroBit] at hfind
      simpa using find?_some hfind
    have hvalid : synxIsValidIdx idx = true := by
      rw [findFirstZeroBit] at hfind
      have hlt := mem_range.mp (mem_of_find?_eq_some hfind)
      have hne : idx ≠ 0 := by
        rintro rfl
        rw [h.bits.reserved] at hbit
        exact Bool.noConfusion hbit
      simp [synxIsValidIdx, hne, hlt]
    have hzero : s.gmem.table idx = {} := by
      by_contra hlive
      rw [(h.bits.bit idx hvalid).mpr (.inl hlive)] at hbit
      exact Bool.noConfusion hbit
    rw [halloc, synxAllocGlobalHandle_some hfind hvalid hzero, Option.elim_some]
    have hheld : held s.holders idx = 0 := by
      have href := h.owned.refcount idx
      rw [hzero] at href
      exact (Nat.add_eq_zero_iff.mp href.symm).1
    have hcore : s.holders idx synxCoreApss = 0 := by
      have hle := holder_le_held s.holders idx (show synxCoreApss < synxCoreMax by decide)
      omega
    refine ⟨h.owned.update hvalid rfl ?_ ?_ (fun i hi => held_setHolder_of_ne hi _) ?_ ?_, ?_⟩
    · intro hone
      exact absurd hone (by decide : (1 : UInt16) ≠ 0)
    · intro _
      simp only [newEntry, synxEncodeHandle_global (lt_of_valid hvalid)]
      omega
    · have hset := held_setHolder s.holders idx (show synxCoreApss < synxCoreMax by decide) 1
      rw [hheld, hcore] at hset
      rw [Nat.add_zero, Nat.zero_add] at hset
      rw [hset]
      rfl
    · intro p
      have hnone : notifications (newEntry (synxEncodeHandle idx synxCoreApss true)) p = 0 := rfl
      rw [hnone, hzero, notifications_zero]
      simp only
      by_cases hp : p = idx
      · rw [hp, update_self, hzero]
        rfl
      · rw [update_of_ne hp]
    · refine ⟨?_, ?_, by simp⟩
      · simp only
        rw [update_of_ne (by rintro rfl; simp [synxIsValidIdx] at hvalid)]
        exact h.bits.reserved
      · intro i hi
        by_cases hii : i = idx
        · have hne : newEntry (synxEncodeHandle idx synxCoreApss true) ≠ {} :=
            ne_zero_of_refcount (by decide : (1 : UInt16) ≠ 0)
          simp [hii, hne]
        · simp only [update_of_ne hii]
          exact h.bits.bit i hi

end

/-! ## Signals -/

def KeepsSubscribers (gmem gmem' : SynxSharedMem) : Prop :=
  ∀ idx, gmem'.table idx = {} ∨ (gmem'.table idx).subscribers = (gmem.table idx).subscribers

/-- The invariant while the parents of an entry are notified. -/
structure Notifying (holders : ℕ → ℕ → ℕ) (clearIdx : List ℕ) (gmem₀ gmem : SynxSharedMem)
    (todo : List ℕ) : Prop where
  owned : Owned holders gmem todo
  bits : Bits gmem clearIdx
  subscribers : KeepsSubscribers gmem₀ gmem

/-- The notifications that composites still wait for. -/
def pendingChildren (gmem : SynxSharedMem) : ℕ :=
  ∑ idx ∈ Finset.range synxGlobalMaxObjs, (gmem.table idx).numChild.toNat

section
variable {holders : ℕ → ℕ → ℕ} {gmem₀ gmem gmem' : SynxSharedMem} {todo clearIdx : List ℕ}
  {idx status p : ℕ} {entry : SynxGlobalCoredata}

theorem KeepsSubscribers.update (h : KeepsSubscribers gmem₀ gmem)
    (htable : gmem'.table = Function.update gmem.table idx entry)
    (hentry : entry = {} ∨ entry.subscribers = (gmem.table idx).subscribers)
    (hlive : gmem.table idx ≠ {}) : KeepsSubscribers gmem₀ gmem' := by
  intro i
  rw [htable]
  by_cases hi : i = idx
  · rw [hi, update_self]
    rcases hentry with hzero | hsame
    · exact .inl hzero
    · exact .inr (hsame.trans ((h idx).resolve_left hlive))
  · rw [update_of_ne hi]
    exact h i

theorem pendingChildren_update (hidx : synxIsValidIdx idx = true)
    (htable : gmem'.table = Function.update gmem.table idx entry) :
    pendingChildren gmem' + (gmem.table idx).numChild.toNat =
      pendingChildren gmem + entry.numChild.toNat := by
  rw [pendingChildren, pendingChildren, htable]
  exact sum_update_add (lt_of_valid hidx) gmem.table entry (·.numChild.toNat)

theorem Notifying.signaled (h : Notifying holders clearIdx gmem₀ gmem todo)
    (hstatus : synxStateActive < status) (hchild : (gmem.table idx).numChild = 0)
    (hactive : (gmem.table idx).status = synxStateActive) :
    Notifying holders clearIdx gmem₀
      (gmem.setEntry idx { gmem.table idx with status := status, waiters := 0 })
      ((gmem.table idx).parentList ++ todo) := by
  have hlive : gmem.table idx ≠ {} := by
    intro hzero
    simp [hzero, synxStateActive] at hactive
  have href := (h.owned.ne_zero_iff idx).mp hlive
  have hdone : SynxGlobalCoredata.done
      { gmem.table idx with status := status, waiters := 0 } = true := by
    simp [SynxGlobalCoredata.done, hchild, Nat.ne_of_gt hstatus]
  have hnotDone : (gmem.table idx).done = false := by
    simp [SynxGlobalCoredata.done, hactive]
  have hne : ({ gmem.table idx with status := status, waiters := 0 } : SynxGlobalCoredata) ≠ {} :=
    ne_zero_of_refcount href
  refine ⟨h.owned.update (h.owned.valid_of_live hlive) rfl (fun hzero => absurd hzero href)
    (fun _ => h.owned.handle idx href) (fun _ _ => rfl) (h.owned.refcount idx) ?_,
    h.bits.update hlive hne rfl rfl, h.subscribers.update rfl (.inr rfl) hlive⟩
  intro q
  have hnone : notifications { gmem.table idx with status := status, waiters := 0 } q = 0 := by
    rw [notifications, hdone, if_pos rfl]
  have hold : notifications (gmem.table idx) q = (gmem.table idx).parentList.count q := by
    simp [notifications, hnotDone]
  rw [hnone, hold, count_append, SynxSharedMem.table_setEntry]
  by_cases hq : q = idx
  · rw [hq, update_self]
    dsimp only
    omega
  · rw [update_of_ne hq]
    omega

/-- The outcomes of a notification: more children are pending, the composite is complete, or
nobody holds it any more. -/
theorem notifyStep_cases (hvalid : synxIsValidIdx p = true) (hstatus : synxStateActive < status)
    (hchild : (gmem.table p).numChild ≠ 0) :
    ∃ st waiters,
      ((gmem.table p).numChild - 1 ≠ 0 ∧ notifyStep status gmem p =
        (gmem.setEntry p { gmem.table p with
          numChild := (gmem.table p).numChild - 1, status := st }, [])) ∨
      ((gmem.table p).numChild - 1 = 0 ∧ st ≠ synxStateActive ∧
        (gmem.table p).refcount - 1 ≠ 0 ∧ notifyStep status gmem p =
        (gmem.setEntry p { gmem.table p with
          numChild := 0
          status := st
          waiters := waiters
          refcount := (gmem.table p).refcount - 1 }, (gmem.table p).parentList)) ∨
      ((gmem.table p).numChild - 1 = 0 ∧ (gmem.table p).refcount - 1 = 0 ∧
        notifyStep status gmem p =
        ((gmem.setEntry p {}).clearBit p, (gmem.table p).parentList)) := by
  have hstep : notifyStep status gmem p =
      (gmem.apply p (updateStatusLocked (gmem.table p) status true),
        (updateStatusLocked (gmem.table p) status true).hParents) := by
    simp [notifyStep, hvalid, Nat.not_le.mpr hstatus]
  have hst : (if (gmem.table p).status = synxStateActive || isErrorStatus status then status
      else (gmem.table p).status) ≠ synxStateActive := by
    split
    · exact Nat.ne_of_gt hstatus
    · next hkeep => exact fun hactive => hkeep (by simp [hactive])
  refine ⟨if (gmem.table p).status = synxStateActive || isErrorStatus status then status
      else (gmem.table p).status, 0, ?_⟩
  rw [hstep]
  by_cases hlast : (gmem.table p).numChild - 1 = 0
  · by_cases href : (gmem.table p).refcount - 1 = 0
    · refine .inr (.inr ⟨hlast, href, ?_⟩)
      simp [updateStatusLocked, hchild, hlast, href, SynxSharedMem.apply,
        SynxGlobalCoredata.parentList]
    · refine .inr (.inl ⟨hlast, hst, href, ?_⟩)
      simp [updateStatusLocked, hchild, hlast, href, SynxSharedMem.apply,
        SynxGlobalCoredata.parentList]
  · refine .inl ⟨hlast, ?_⟩
    simp [updateStatusLocked, hchild, hlast, SynxSharedMem.apply]

theorem Notifying.pos (h : Notifying holders clearIdx gmem₀ gmem (p :: todo)) :
    0 < (gmem.table p).numChild.toNat := by
  have hwaits := h.owned.waits p
  rw [count_cons_self] at hwaits
  omega

theorem Notifying.live (h : Notifying holders clearIdx gmem₀ gmem (p :: todo)) :
    gmem.table p ≠ {} := by
  intro hzero
  have hpos := h.pos
  rw [hzero] at hpos
  exact Nat.lt_irrefl 0 hpos

/-- A composite was notified: it waits for a child less, and what it notified itself is left to
`added`. -/
theorem Notifying.passed (h : Notifying holders clearIdx gmem₀ gmem (p :: todo)) {added : List ℕ}
    (htable : gmem'.table = Function.update gmem.table p entry)
    (hzero : entry.refcount = 0 → entry = {}) (hhandle : entry.refcount ≠ 0 → entry.handle ≠ 0)
    (hrefcount : entry.refcount.toNat = held holders p + if entry.numChild = 0 then 0 else 1)
    (hchild : entry.numChild.toNat + 1 = (gmem.table p).numChild.toNat)
    (hnotes : ∀ q, notifications entry q + added.count q ≤ notifications (gmem.table p) q)
    (hentry : entry = {} ∨ entry.subscribers = (gmem.table p).subscribers)
    (hbits : Bits gmem' clearIdx) : Notifying holders clearIdx gmem₀ gmem' (added ++ todo) ∧
      pendingChildren gmem' < pendingChildren gmem := by
  have hlive := h.live
  have hvalid := h.owned.valid_of_live hlive
  refine ⟨⟨h.owned.update hvalid htable hzero hhandle (fun _ _ => rfl) hrefcount ?_, hbits,
    h.subscribers.update htable hentry hlive⟩, ?_⟩
  · intro q
    have hq := hnotes q
    rw [htable, count_append]
    by_cases hqp : q = p
    · rw [hqp] at hq ⊢
      rw [update_self, count_cons_self]
      omega
    · rw [update_of_ne hqp, count_cons_of_ne (Ne.symm hqp)]
      omega
  · have hsum := pendingChildren_update hvalid htable
    omega

theorem Notifying.notified (h : Notifying holders clearIdx gmem₀ gmem (p :: todo))
    (hstatus : synxStateActive < status) :
    Notifying holders clearIdx gmem₀ (notifyStep status gmem p).1
        ((notifyStep status gmem p).2 ++ todo) ∧
      pendingChildren (notifyStep status gmem p).1 < pendingChildren gmem := by
  have hpos := h.pos
  have hlive := h.live
  have hvalid := h.owned.valid_of_live hlive
  have href := (h.owned.ne_zero_iff p).mp hlive
  have hchild : (gmem.table p).numChild ≠ 0 := by
    intro hzero
    rw [hzero, UInt16.toNat_zero] at hpos
    exact Nat.lt_irrefl 0 hpos
  have hrefcount := h.owned.refcount p
  rw [if_neg hchild] at hrefcount
  have hsub := toNat_sub_one hpos
  have hrsub := toNat_sub_one (show 0 < (gmem.table p).refcount.toNat by omega)
  have hnotes : ∀ q, notifications (gmem.table p) q = (gmem.table p).parentList.count q := by
    intro q
    simp [notifications, SynxGlobalCoredata.done, hchild]
  obtain ⟨st, waiters, hcases⟩ := notifyStep_cases hvalid hstatus hchild
  rcases hcases with ⟨hmore, hstep⟩ | ⟨hlast, hst, hheld, hstep⟩ | ⟨hlast, hfree, hstep⟩
  · rw [hstep]
    refine h.passed rfl (fun hzero => absurd hzero href) (fun _ => h.owned.handle p href) ?_ ?_ ?_
      (.inr rfl) (h.bits.update hlive ?_ rfl rfl)
    · rw [if_neg hmore]
      exact hrefcount
    · dsimp only
      omega
    · intro q
      rw [hnotes q]
      simp [notifications, SynxGlobalCoredata.done, hmore, SynxGlobalCoredata.parentList]
    · exact ne_zero_of_refcount href
  · rw [hstep]
    rw [hlast, UInt16.toNat_zero] at hsub
    refine h.passed rfl (fun hzero => absurd hzero hheld) (fun _ => h.owned.handle p href) ?_ ?_ ?_
      (.inr rfl) (h.bits.update hlive (ne_zero_of_refcount hheld) rfl rfl)
    · rw [if_pos rfl, hrsub]
      omega
    · dsimp only
      rw [UInt16.toNat_zero]
      omega
    · intro q
      rw [hnotes q]
      simp [notifications, SynxGlobalCoredata.done, hst]
  · rw [hstep]
    rw [hlast, UInt16.toNat_zero] at hsub
    rw [hfree, UInt16.toNat_zero] at hrsub
    refine h.passed rfl (fun _ => rfl) (fun hne => absurd rfl hne) ?_ ?_ ?_ (.inl rfl)
      (h.bits.clear hvalid hlive)
    · rw [if_pos rfl, UInt16.toNat_zero]
      omega
    · rw [UInt16.toNat_zero]
      omega
    · intro q
      rw [hnotes q, notifications_zero, Nat.zero_add]

theorem budgetRule_notifying (hstatus : synxStateActive < status) :
    BudgetRule (notifyStep status) pendingChildren (Notifying holders clearIdx gmem₀) where
  keeps h := (h.notified hstatus).1
  spends h := (h.notified hstatus).2

theorem pendingChildren_lt (gmem : SynxSharedMem) :
    pendingChildren gmem + 1 < synxGlobalMaxObjs * 2 ^ 16 := by
  have hle : pendingChildren gmem ≤ ∑ _idx ∈ Finset.range synxGlobalMaxObjs, (2 ^ 16 - 1) :=
    Finset.sum_le_sum fun idx _ => Nat.le_sub_one_of_lt (gmem.table idx).numChild.toNat_lt
  rw [Finset.sum_const_nat fun _ _ => rfl, Finset.card_range] at hle
  exact Nat.lt_of_le_of_lt (Nat.succ_le_succ hle) (by decide)

theorem apply_same (gmem : SynxSharedMem) (idx : ℕ) (ret : ℤ) :
    gmem.apply idx ⟨ret, gmem.table idx, [], 0, none, false⟩ = gmem := by
  simp [SynxSharedMem.apply, SynxSharedMem.setEntry]

theorem Notifying.updateStatusCore {depth : ℕ} (hdepth : synxGlobalMaxObjs * 2 ^ 16 ≤ depth)
    (h : Notifying holders clearIdx gmem₀ gmem []) (idx status : ℕ) :
    Notifying holders clearIdx gmem₀
      (synxGlobalUpdateStatusCore depth gmem idx status false).2 [] := by
  obtain ⟨depth, rfl⟩ := Nat.exists_eq_add_of_le' (Nat.le_trans (by decide : 1 ≤ _) hdepth)
  rw [synxGlobalUpdateStatusCore]
  split
  · exact h
  · next hargs =>
      have hstatus : synxStateActive < status := by
        simp only [Bool.or_eq_true, decide_eq_true_eq, not_or] at hargs
        exact Nat.not_le.mp hargs.2
      by_cases hchild : (gmem.table idx).numChild = 0
      · by_cases hactive : (gmem.table idx).status = synxStateActive
        · rw [updateStatusLocked_leaf hchild hactive]
          simp only [updateStatusCore_eq_visit]
          have hrule : BudgetRule (notifyStep status) pendingChildren
            (Notifying holders clearIdx gmem₀) := budgetRule_notifying hstatus
          refine hrule.foldl depth _ _ [] ?_ (h.signaled hstatus hchild hactive)
          have hsum := pendingChildren_lt (gmem.setEntry idx
            { gmem.table idx with status := status, waiters := 0 })
          exact Nat.lt_of_succ_lt_succ (Nat.lt_of_lt_of_le hsum hdepth)
        · rw [updateStatusLocked_signaled hchild hactive]
          simpa [apply_same] using h
      · have hcomposite : updateStatusLocked (gmem.table idx) status false =
            ⟨eInval, gmem.table idx, [], 0, none, false⟩ := by
          simp [updateStatusLocked, hchild]
        rw [hcomposite]
        simpa [apply_same] using h

theorem Owned.congr (h : Owned holders gmem todo) (htable : gmem'.table = gmem.table) :
    Owned holders gmem' todo := by
  refine ⟨?_, ?_, ?_, ?_, ?_⟩
  · rw [htable]
    exact h.invalid
  · rw [htable]
    exact h.zero
  · rw [htable]
    exact h.handle
  · rw [htable]
    exact h.refcount
  · rw [htable]
    exact h.waits

end

/-! ## Recovery -/

def recovered (holders : ℕ → ℕ → ℕ) (coreId n : ℕ) : ℕ → ℕ → ℕ :=
  fun idx c => if c = coreId ∧ idx < n then 0 else holders idx c

section
variable {holders : ℕ → ℕ → ℕ} {gmem gmem' : SynxSharedMem} {clearIdx : List ℕ}
  {coreId n idx : ℕ}

theorem recovered_succ_of_none (h : holders n coreId = 0) :
    recovered holders coreId (n + 1) = recovered holders coreId n := by
  funext i c
  simp only [recovered]
  by_cases hc : c = coreId
  · by_cases hi : i = n
    · simp [hc, hi, h]
    · have hlt : i < n + 1 ↔ i < n := by omega
      simp [hc, hlt]
  · simp [hc]

theorem recovered_zero (holders : ℕ → ℕ → ℕ) (coreId : ℕ) :
    recovered holders coreId 0 = holders := by
  funext i c
  simp [recovered]

theorem recovered_succ (holders : ℕ → ℕ → ℕ) (coreId n : ℕ) :
    recovered holders coreId (n + 1) = setHolder (recovered holders coreId n) n coreId 0 := by
  funext i c
  simp only [recovered, setHolder]
  by_cases hi : i = n
  · subst hi
    by_cases hc : c = coreId
    · simp [hc]
    · simp [hc, recovered]
  · have hlt : i < n + 1 ↔ i < n := by omega
    rw [update_of_ne hi]
    simp [hlt, recovered]

theorem Owned.holder_le (h : Owned holders gmem []) (hcore : coreId < synxCoreMax)
    (hzero : gmem.table idx = {}) : holders idx coreId = 0 := by
  have hle := holder_le_held holders idx hcore
  have href := h.refcount idx
  rw [hzero] at href
  have hnone := (Nat.add_eq_zero_iff.mp href.symm).1
  omega

/-- The rest of the entries, which are still to be recovered. -/
structure Recovering (holders : ℕ → ℕ → ℕ) (coreId n : ℕ) (gmem : SynxSharedMem)
    (clearIdx : List ℕ) : Prop where
  owned : Owned (recovered holders coreId n) gmem []
  bits : Bits gmem clearIdx
  subscribed : ∀ idx, n ≤ idx → Subscribed coreId holders gmem.table idx

theorem Recovering.skip (h : Recovering holders coreId n gmem clearIdx)
    (hnone : holders n coreId = 0) : Recovering holders coreId (n + 1) gmem clearIdx where
  owned := by
    rw [recovered_succ_of_none hnone]
    exact h.owned
  bits := h.bits
  subscribed i hi := h.subscribed i (Nat.le_of_succ_le hi)

theorem Recovering.holder_of_unsubscribed (h : Recovering holders coreId n gmem clearIdx)
    (hidle : ¬ ((gmem.table n).refcount ≠ 0 ∧
      (gmem.table n).subscribers &&& coreBit coreId ≠ 0)) : holders n coreId = 0 := by
  have hsub := h.subscribed n (le_refl n)
  rw [Subscribed] at hsub
  by_cases href : (gmem.table n).refcount = 0
  · rw [hsub, h.owned.zero n href]
    exact if_pos (by simp)
  · have hbit : (gmem.table n).subscribers &&& coreBit coreId = 0 := by
      by_contra hbit
      exact hidle ⟨href, hbit⟩
    rw [hsub, if_pos hbit]

theorem Recovering.release (h : Recovering holders coreId n gmem clearIdx)
    (hcore : coreId < synxCoreMax) (href : (gmem.table n).refcount ≠ 0)
    (hbit : (gmem.table n).subscribers &&& coreBit coreId ≠ 0) :
    Recovering holders coreId (n + 1)
      (gmem.setEntry n (recoverLocked (gmem.table n) coreId).1)
      (if (recoverLocked (gmem.table n) coreId).2.1 then n :: clearIdx else clearIdx) := by
  have hone : holders n coreId = 1 := by
    have hsub := h.subscribed n (le_refl n)
    rwa [Subscribed, if_neg hbit] at hsub
  have hholder : recovered holders coreId n n coreId = 1 := by
    simp [recovered, hone]
  have hlive := ne_zero_of_refcount href
  have hvalid := h.owned.valid_of_live hlive
  have hentry : (recoverLocked (gmem.table n) coreId).1 = released (gmem.table n)
      ((gmem.table n).subscribers &&& ~~~coreBit coreId) := by
    simp only [recoverLocked, released, if_pos (And.intro href hbit)]
    split <;> rfl
  refine ⟨?_, ?_, ?_⟩
  · rw [recovered_succ]
    have hrel := h.owned.release hcore (show 0 < recovered holders coreId n n coreId by omega)
      ((gmem.table n).subscribers &&& ~~~coreBit coreId)
      (gmem.table_setEntry n (released (gmem.table n) _))
    rw [hholder] at hrel
    rw [hentry]
    exact hrel
  · by_cases hlast : (gmem.table n).refcount - 1 = 0
    · have hlocked : recoverLocked (gmem.table n) coreId = ({}, true, false) := by
        simp only [recoverLocked, if_pos (And.intro href hbit), if_pos hlast]
      rw [hlocked]
      simp only [if_true]
      refine ⟨h.bits.reserved, ?_, ?_⟩
      · intro i hi
        rw [SynxSharedMem.table_setEntry]
        have hold : (gmem.setEntry n {}).bitmap i = true ↔ gmem.table i ≠ {} ∨ i ∈ clearIdx :=
          h.bits.bit i hi
        by_cases hin : i = n
        · subst hin
          simpa [hlive] using hold
        · rw [update_of_ne hin]
          simpa [hin] using hold
      · intro i hi
        rw [SynxSharedMem.table_setEntry]
        by_cases hin : i = n
        · rw [hin, update_self]
          exact ⟨hvalid, rfl⟩
        · rw [update_of_ne hin]
          exact h.bits.cleared i (mem_of_ne_of_mem hin hi)
    · have hclear : (recoverLocked (gmem.table n) coreId).2.1 = false := by
        simp only [recoverLocked, if_pos (And.intro href hbit), if_neg hlast]
      rw [hclear, if_neg Bool.false_ne_true, hentry]
      exact h.bits.update hlive (released_ne_zero hlast) rfl rfl
  · intro i hi
    have hne : i ≠ n := by omega
    rw [Subscribed, SynxSharedMem.table_setEntry, update_of_ne hne]
    exact h.subscribed i (Nat.le_of_succ_le hi)

theorem Recovering.signal {depth : ℕ} (hdepth : synxGlobalMaxObjs * 2 ^ 16 ≤ depth)
    (hcore : coreId < synxCoreMax) (h : Recovering holders coreId n gmem clearIdx)
    (idx status : ℕ) :
    Recovering holders coreId n (synxGlobalUpdateStatusCore depth gmem idx status false).2
      clearIdx := by
  have hstart : Notifying (recovered holders coreId n) clearIdx gmem gmem [] :=
    ⟨h.owned, h.bits, fun _ => .inr rfl⟩
  have hend := hstart.updateStatusCore hdepth idx status
  refine ⟨hend.owned, hend.bits, ?_⟩
  intro i hi
  rcases hend.subscribers i with hzero | hsame
  · have hnone := hend.owned.holder_le hcore hzero
    rw [recovered, if_neg (by omega)] at hnone
    rw [Subscribed, hzero, hnone]
    exact (if_pos (by simp)).symm
  · rw [Subscribed, hsame]
    exact h.subscribed i hi

theorem recoverLoop_cons {depth : ℕ} {rest : List ℕ} (hbit : gmem.bitmap n = true)
    (clear update : Bool) (entry : SynxGlobalCoredata)
    (hlocked : recoverLocked (gmem.table n) coreId = (entry, clear, update)) :
    recoverLoop depth coreId (n :: rest) gmem clearIdx = recoverLoop depth coreId rest
      (if update then (synxGlobalUpdateStatusCore depth (gmem.setEntry n entry) n
        synxStateSignaledSsr false).2 else gmem.setEntry n entry)
      (if clear then n :: clearIdx else clearIdx) := by
  rw [recoverLoop, if_pos hbit, hlocked]

theorem recoverLoop_recovering {depth : ℕ} (hdepth : synxGlobalMaxObjs * 2 ^ 16 ≤ depth)
    (hcore : coreId < synxCoreMax) (m : ℕ) (h : Recovering holders coreId n gmem clearIdx) :
    Recovering holders coreId (n + m)
      (recoverLoop depth coreId (List.range' n m) gmem clearIdx).1
      (recoverLoop depth coreId (List.range' n m) gmem clearIdx).2 := by
  induction m generalizing n gmem clearIdx with
  | zero => exact h
  | succ m ih =>
    rw [range'_succ, ← Nat.add_assoc, Nat.add_right_comm]
    by_cases hbit : gmem.bitmap n = true
    · rcases hlocked : recoverLocked (gmem.table n) coreId with ⟨entry, clear, update⟩
      rw [recoverLoop_cons hbit clear update entry hlocked]
      refine ih ?_
      by_cases hsub : (gmem.table n).refcount ≠ 0 ∧
          (gmem.table n).subscribers &&& coreBit coreId ≠ 0
      · have hrel := h.release hcore hsub.1 hsub.2
        rw [hlocked] at hrel
        cases update with
        | true => exact hrel.signal hdepth hcore n synxStateSignaledSsr
        | false => exact hrel
      · rw [recoverLocked, if_neg hsub] at hlocked
        obtain ⟨rfl, rfl, rfl⟩ := hlocked
        have hsame : gmem.setEntry n (gmem.table n) = gmem := by
          simp [SynxSharedMem.setEntry]
        rw [hsame]
        exact h.skip (h.holder_of_unsubscribed hsub)
    · rw [recoverLoop, if_neg hbit]
      refine ih (h.skip ?_)
      refine h.holder_of_unsubscribed fun hsub => hbit ?_
      have hlive := ne_zero_of_refcount hsub.1
      exact (h.bits.bit n (h.owned.valid_of_live hlive)).mpr (.inl hlive)

theorem foldl_clearBit (clearIdx : List ℕ) (gmem : SynxSharedMem) :
    (clearIdx.foldl SynxSharedMem.clearBit gmem).table = gmem.table ∧
      ∀ i, (clearIdx.foldl SynxSharedMem.clearBit gmem).bitmap i =
        if i ∈ clearIdx then false else gmem.bitmap i := by
  induction clearIdx generalizing gmem with
  | nil => exact ⟨rfl, fun i => rfl⟩
  | cons k clearIdx ih =>
    obtain ⟨htable, hbitmap⟩ := ih (gmem.clearBit k)
    refine ⟨htable, fun i => ?_⟩
    rw [foldl_cons, hbitmap i]
    by_cases hk : i = k
    · simp [hk, SynxSharedMem.clearBit]
    · simp [hk, SynxSharedMem.clearBit]

theorem Bits.foldl_clearBit (h : Bits gmem clearIdx) :
    Bits (clearIdx.foldl SynxSharedMem.clearBit gmem) [] := by
  obtain ⟨htable, hbitmap⟩ := Synx.foldl_clearBit clearIdx gmem
  refine ⟨?_, ?_, by simp⟩
  · rw [hbitmap 0, if_neg]
    · exact h.reserved
    · intro hmem
      have hvalid := (h.cleared 0 hmem).1
      simp [synxIsValidIdx] at hvalid
  · intro i hi
    rw [hbitmap i, htable]
    by_cases hmem : i ∈ clearIdx
    · simp [hmem, (h.cleared i hmem).2]
    · rw [if_neg hmem, h.bit i hi]
      simp [hmem]

theorem OwnInv.recover {s : OwnState} {depth : ℕ} (hdepth : synxGlobalMaxObjs * 2 ^ 16 ≤ depth)
    (h : OwnInv s) (hcore : coreId < synxCoreMax)
    (hsub : ∀ idx, Subscribed coreId s.holders s.gmem.table idx) :
    OwnInv (s.call depth (.recover coreId)) := by
  have hinvalid : ∀ i, synxIsValidIdx i = false → s.holders i coreId = 0 := by
    intro i hi
    exact h.owned.holder_le hcore (h.owned.invalid i hi)
  have hstart : Recovering s.holders coreId 1 s.gmem [] := by
    refine ⟨?_, h.bits, fun i _ => hsub i⟩
    rw [recovered_succ_of_none (hinvalid 0 rfl), recovered_zero]
    exact h.owned
  have hend := recoverLoop_recovering hdepth hcore (synxGlobalMaxObjs - 1) hstart
  have hmax : 1 + (synxGlobalMaxObjs - 1) = synxGlobalMaxObjs := Nat.add_sub_cancel' (by decide)
  rw [hmax] at hend
  have hholders : (fun i c => if c = coreId then 0 else s.holders i c) =
      recovered s.holders coreId synxGlobalMaxObjs := by
    funext i c
    by_cases hc : c = coreId
    · by_cases hi : i < synxGlobalMaxObjs
      · simp [recovered, hc, hi]
      · have hnone := hinvalid i (by simp [synxIsValidIdx, hi])
        simp [recovered, hc, hi, hnone]
    · simp [recovered, hc]
  rw [OwnState.call, hholders, synxGlobalRecover]
  exact ⟨hend.owned.congr (foldl_clearBit _ _).1, hend.bits.foldl_clearBit⟩

theorem OwnInv.updateStatus {s : OwnState} {depth : ℕ}
    (hdepth : synxGlobalMaxObjs * 2 ^ 16 ≤ depth) (h : OwnInv s) (idx status : ℕ) :
    OwnInv (s.call depth (.updateStatus idx status)) := by
  rw [OwnState.call, synxGlobalUpdateStatus]
  split_ifs
  · exact h
  · exact h
  · exact h
  · have hstart : Notifying s.holders [] s.gmem s.gmem [] :=
      ⟨h.owned, h.bits, fun _ => .inr rfl⟩
    have hend := hstart.updateStatusCore hdepth idx status
    exact ⟨hend.owned, hend.bits⟩

end

/-! ## Merges -/

section
variable {holders : ℕ → ℕ → ℕ} {gmem gmem' : SynxSharedMem} {linked idxList : List ℕ} {p : ℕ}

theorem sum_count_eq_countP (f : ℕ → Bool) (l : List ℕ)
    (hvalid : ∀ idx ∈ l, synxIsValidIdx idx = true) :
    ∑ idx ∈ Finset.range synxGlobalMaxObjs, (if f idx then 0 else l.count idx) =
      l.countP (fun idx => !f idx) := by
  induction l with
  | nil => simp
  | cons k l ih =>
    have hk := lt_of_valid (hvalid k mem_cons_self)
    have hterm : ∀ idx, (if f idx then 0 else (k :: l).count idx) =
        (if f idx then 0 else l.count idx) + if idx = k then (if f k then 0 else 1) else 0 := by
      intro idx
      rw [count_cons]
      by_cases hik : idx = k
      · subst hik
        by_cases hf : f idx = true
        · simp [hf]
        · simp [hf]
      · have hne : (k == idx) = false := by simpa using Ne.symm hik
        simp [hne, hik]
    rw [Finset.sum_congr rfl fun idx _ => hterm idx, Finset.sum_add_distrib,
      ih fun idx hidx => hvalid idx (mem_cons_of_mem k hidx), Finset.sum_ite_eq',
      if_pos (Finset.mem_range.mpr hk), countP_cons]
    by_cases hf : f k = true
    · simp [hf]
    · simp [hf]

/-- The new composite waits for its children, and nothing else is notified more often. -/
theorem Merged.outstanding_le (hm : Merged gmem gmem' linked p)
    (hvalid : ∀ idx ∈ linked, synxIsValidIdx idx = true) (hmem : p ∉ linked)
    (hstatus : (gmem.table p).status = synxStateActive) (q : ℕ) :
    outstanding gmem'.table q ≤ outstanding gmem.table q +
      if q = p then linked.countP (fun idx => !(gmem.table idx).done) else 0 := by
  have hterm : ∀ idx, notifications (gmem'.table idx) q ≤ notifications (gmem.table idx) q +
      if q = p then (if (gmem.table idx).done then 0 else linked.count idx) else 0 := by
    intro idx
    have hcount := (hm.parents idx).count_eq q
    rw [count_append, count_replicate] at hcount
    by_cases hidx : idx = p
    · subst hidx
      have hactive : (gmem.table idx).done = false := by
        simp [SynxGlobalCoredata.done, hstatus]
      rw [count_eq_zero.mpr hmem] at hcount
      simp only [notifications, hactive, Bool.false_eq_true, if_false, hcount, ite_self]
      split
      · exact Nat.zero_le _
      · omega
    · have hdone : (gmem'.table idx).done = (gmem.table idx).done := by
        rw [hm.other idx hidx]
        rfl
      simp only [notifications, hdone, hcount]
      by_cases hq : q = p
      · subst hq
        split
        · exact Nat.zero_le _
        · simp
          omega
      · simp [hq, Ne.symm hq]
  calc outstanding gmem'.table q
      ≤ ∑ idx ∈ Finset.range synxGlobalMaxObjs, (notifications (gmem.table idx) q +
          if q = p then (if (gmem.table idx).done then 0 else linked.count idx) else 0) :=
        Finset.sum_le_sum fun idx _ => hterm idx
    _ = outstanding gmem.table q + ∑ idx ∈ Finset.range synxGlobalMaxObjs,
          (if q = p then (if (gmem.table idx).done then 0 else linked.count idx) else 0) :=
        Finset.sum_add_distrib
    _ = _ := by
        by_cases hq : q = p
        · simp only [hq, if_true]
          rw [sum_count_eq_countP _ linked hvalid]
        · simp [hq]

theorem OwnInv.merged {s : OwnState} (h : OwnInv s) (hok : OwnMergeOk s.gmem idxList p)
    (hsub : ∀ idx ∈ linked, idx ∈ idxList) (hm : Merged s.gmem gmem' linked p) :
    OwnInv ⟨gmem', s.holders⟩ := by
  have hvalid : ∀ idx ∈ linked, synxIsValidIdx idx = true := fun idx hidx =>
    hok.valid idx (hsub idx hidx)
  have hmem : p ∉ linked := fun hp => hok.notMem (hsub p hp)
  have href := (h.owned.ne_zero_iff p).mp hok.liveParent
  have hrefs : (gmem'.table p).refcount.toNat = (s.gmem.table p).refcount.toNat +
      if (gmem'.table p).numChild = 0 then 0 else 1 := by
    rw [hm.refcount]
    split
    · rfl
    · exact toNat_add_one hok.refcount
  have hheld := h.owned.refcount p
  rw [if_pos hok.numChild, Nat.add_zero] at hheld
  have hlive : (gmem'.table p).refcount ≠ 0 := by
    intro hzero
    rw [hzero, UInt16.toNat_zero] at hrefs
    exact href (UInt16.toNat_inj.mp (by rw [UInt16.toNat_zero]; omega))
  have hzero : ∀ k, k ≠ p → (gmem'.table k).refcount = 0 → gmem'.table k = {} := by
    intro k hk hnone
    have hold : (s.gmem.table k).refcount = 0 := by
      rw [hm.other k hk] at hnone
      exact hnone
    have hdead := h.owned.zero k hold
    rw [hm.unlinked k hk fun hkl => hok.live k (hsub k hkl) hdead, hdead]
  have howned : Owned s.holders gmem' [] := by
    refine ⟨?_, ?_, ?_, ?_, ?_⟩
    · intro k hk
      have hkp : k ≠ p := by
        rintro rfl
        simp [hok.validParent] at hk
      have hkl : k ∉ linked := fun hkl => by simp [hvalid k hkl] at hk
      rw [hm.unlinked k hkp hkl, h.owned.invalid k hk]
    · intro k hnone
      by_cases hkp : k = p
      · exact absurd (hkp ▸ hnone) hlive
      · exact hzero k hkp hnone
    · intro k hne
      by_cases hkp : k = p
      · rw [hkp, hm.handle]
        exact h.owned.handle p href
      · rw [hm.other k hkp] at hne ⊢
        exact h.owned.handle k hne
    · intro k
      by_cases hkp : k = p
      · rw [hkp, hrefs, hheld]
      · rw [hm.other k hkp]
        exact h.owned.refcount k
    · intro q
      have hle := hm.outstanding_le hvalid hmem hok.status q
      have hwaits := h.owned.waits q
      rw [count_nil, Nat.add_zero] at hwaits ⊢
      by_cases hq : q = p
      · rw [hq, hok.numChild, UInt16.toNat_zero] at hwaits
        rw [if_pos hq] at hle
        rw [hq] at hle ⊢
        rw [hm.numChild]
        omega
      · rw [if_neg hq, Nat.add_zero] at hle
        rw [hm.other q hq]
        exact Nat.le_trans hle hwaits
  refine ⟨howned, ?_, ?_, by simp⟩
  · rw [hm.bitmap]
    exact h.bits.reserved
  · intro k hk
    rw [hm.bitmap, h.bits.bit k hk, howned.ne_zero_iff k, h.owned.ne_zero_iff k]
    by_cases hkp : k = p
    · simp [hkp, hlive, href]
    · rw [hm.other k hkp]

theorem firstFull_eq {table : ℕ → SynxGlobalCoredata} {idx : ℕ} {rest : List ℕ}
    (before linked : List ℕ)
    (hfit : ∀ k, (table k).parentList.length + (before ++ linked).count k ≤ synxGlobalMaxParents)
    (hfull : (table idx).parentList.length + (before ++ linked).count idx =
      synxGlobalMaxParents) :
    firstFull table before (linked ++ idx :: rest) = some idx := by
  induction linked generalizing before with
  | nil =>
    rw [append_nil] at hfull
    rw [nil_append, firstFull, if_neg (by omega)]
  | cons k linked ih =>
    have hk := hfit k
    rw [count_append, count_cons_self] at hk
    rw [cons_append, firstFull, if_pos (by omega)]
    refine ih (before ++ [k]) ?_ ?_
    · intro i
      rw [append_assoc]
      exact hfit i
    · rw [append_assoc]
      exact hfull

theorem OwnInv.merge {s : OwnState} (h : OwnInv s) (hok : OwnMergeOk s.gmem idxList p)
    (depth : ℕ) : OwnInv (s.call depth (.merge idxList p)) := by
  rw [OwnState.call]
  by_cases hlist : idxList = []
  · have hsame : synxGlobalMerge s.gmem idxList p = (0, s.gmem) := by
      simp [synxGlobalMerge, hok.validParent, hlist]
    rw [hsame]
    exact h
  · have href := (h.owned.ne_zero_iff p).mp hok.liveParent
    obtain ⟨gmem', hcases⟩ := synxGlobalMerge_cases hok.valid hok.validParent hlist hok.notMem
      (h.owned.handle p href) href hok.numChild
    rcases hcases with ⟨hresult, heq⟩ | ⟨linked, idx, rest, hsplit, hresult, hfull, heq⟩
    · have hcount := numChildSignaled_noteAll s.gmem.table ⟨0, synxStateActive⟩ idxList
      rw [Nat.zero_add] at hcount
      rw [heq]
      exact h.merged hok (fun _ hidx => hidx) (hresult.settled hlist hok.valid hcount)
    · have hsub : ∀ k ∈ linked, k ∈ idxList := by
        intro k hk
        rw [hsplit]
        exact mem_append_left _ hk
      have hfit : ∀ k, (s.gmem.table k).parentList.length + linked.count k =
          (gmem'.table k).parentList.length := by
        intro k
        rw [(hresult.parents_started k).length_eq, length_append, length_replicate,
          Nat.add_comm]
      have hfirst : firstFull s.gmem.table [] idxList = some idx := by
        rw [hsplit]
        refine firstFull_eq [] linked ?_ ?_
        · intro k
          rw [nil_append, hfit k]
          exact length_parentList_le _
        · rw [nil_append, hfit idx]
          exact length_parentList_full hfull
      have hcount := numChildSignaled_noteAll s.gmem.table ⟨0, synxStateActive⟩ (linked ++ [idx])
      rw [Nat.zero_add, countP_append, countP_singleton, hok.stops idx hfirst,
        if_neg Bool.false_ne_true, Nat.add_zero] at hcount
      rw [heq]
      refine h.merged hok hsub (hresult.failed ?_ (fun k hk => hok.valid k (hsub k hk)) hcount)
      rw [hsplit, length_append]
      exact Nat.le_add_right _ _

end

/-! ## Runs -/

section
variable {depth : ℕ} {s t : OwnState}

theorem OwnState.Initial.ownInv (h : s.Initial) : OwnInv s := by
  refine ⟨⟨fun idx _ => h.table idx, fun idx _ => h.table idx, ?_, ?_, ?_⟩, ?_, ?_, by simp⟩
  · intro idx hne
    rw [h.table idx] at hne
    exact absurd rfl hne
  · intro idx
    have hnone : held s.holders idx = 0 :=
      Finset.sum_eq_zero fun coreId _ => h.holders idx coreId
    rw [h.table idx, hnone]
    rfl
  · intro p
    have hnone : outstanding s.gmem.table p = 0 := by
      refine Finset.sum_eq_zero fun idx _ => ?_
      rw [h.table idx, notifications_zero]
    rw [hnone]
    exact Nat.zero_le _
  · rw [h.bitmap 0]
    rfl
  · intro idx hvalid
    have hne : idx ≠ 0 := by
      rintro rfl
      simp [synxIsValidIdx] at hvalid
    simp [h.bitmap idx, h.table idx, hne]

theorem synxGlobalMerge_refused (gmem : SynxSharedMem) {idxList : List ℕ} {pIdx : ℕ}
    (h : ¬ (synxIsValidIdx pIdx = true ∧ idxList ≠ [])) :
    (synxGlobalMerge gmem idxList pIdx).2 = gmem := by
  rw [synxGlobalMerge]
  by_cases hvalid : synxIsValidIdx pIdx = true
  · have hnil : idxList = [] := not_not.mp fun hne => h ⟨hvalid, hne⟩
    rw [hvalid, hnil]
    rfl
  · rw [Bool.not_eq_true] at hvalid
    rw [hvalid]
    rfl

theorem OwnInv.call (h : OwnInv s) (hdepth : synxGlobalMaxObjs * 2 ^ 16 ≤ depth) {c : OwnCall}
    (hok : OwnOk s c) : OwnInv (s.call depth c) := by
  cases c with
  | create => exact h.create depth
  | getRef idx coreId => exact h.getRef hok.1 hok.2 depth
  | putRef idx coreId => exact h.putRef hok.1 hok.2 depth
  | merge idxList pIdx =>
    by_cases hchecks : synxIsValidIdx pIdx = true ∧ idxList ≠ []
    · exact h.merge (hok hchecks.1 hchecks.2) depth
    · rwa [OwnState.call, synxGlobalMerge_refused s.gmem hchecks]
  | updateStatus idx status => exact h.updateStatus hdepth idx status
  | testStatusUpdate idx id hHwfence isWaiter => exact h.testStatusUpdate hok depth
  | recover coreId => exact h.recover hdepth hok.1 hok.2

/-- In every run whose calls are safe, every slot is owned. -/
theorem slotsOwned_of_ownOk (hdepth : synxGlobalMaxObjs * 2 ^ 16 ≤ depth) (hinit : s.Initial)
    (hrun : Relation.ReflTransGen (GuardedStep OwnOk (OwnState.call depth)) s t) :
    SlotsOwned t := by
  have hstep : ∀ s c, OwnInv s → OwnOk s c → OwnInv (OwnState.call depth s c) :=
    fun _ _ h hok => h.call hdepth hok
  exact (invariant_of_guarded hstep hinit.ownInv hrun).slotsOwned

/-- Calls of cores that there are, with releases of references that are held. -/
def OwnMatched (s : OwnState) : OwnCall → Prop
  | .getRef _ coreId => coreId < synxCoreMax
  | .putRef idx coreId => coreId < synxCoreMax ∧ 0 < s.holders idx coreId
  | .recover coreId => coreId < synxCoreMax
  | _ => True

def ownStart : OwnState := ⟨⟨fun idx => idx = 0, fun _ => {}⟩, fun _ _ => 0⟩

theorem ownStart_initial : ownStart.Initial := ⟨fun _ => rfl, fun _ => rfl, fun _ _ => rfl⟩

/-- Enough levels of parents for any table. -/
def ownDepth : ℕ := synxGlobalMaxObjs * 2 ^ 16

def ownShared : OwnState :=
  (ownStart.call ownDepth .create).call ownDepth (.testStatusUpdate 1 5 0 false)

theorem table_testStatusUpdate_of_ne (s : OwnState) (depth : ℕ) {i idx id hHwfence : ℕ}
    {isWaiter : Bool} (hi : i ≠ idx) :
    (s.call depth (.testStatusUpdate idx id hHwfence isWaiter)).gmem.table i =
      s.gmem.table i := by
  simp only [OwnState.call, synxGlobalTestStatusUpdateCoredata]
  split
  · rfl
  · split
    · rw [SynxSharedMem.table_setEntry, update_of_ne hi]
    · rfl

theorem table_ownShared {idx : ℕ} (hidx : idx ≠ 1) : ownShared.gmem.table idx = {} := by
  have hfind : findFirstZeroBit ownStart.gmem = some 1 := by decide +kernel
  have hnew : (ownStart.call ownDepth .create).gmem.table idx = {} := by
    rw [OwnState.call, synxAllocGlobalHandle_some hfind (by decide) rfl]
    exact update_of_ne hidx _ _
  rw [ownShared, table_testStatusUpdate_of_ne _ _ hidx]
  exact hnew

theorem ownShared_subscribed (idx : ℕ) :
    Subscribed 5 ownShared.holders ownShared.gmem.table idx := by
  have hinv : OwnInv ownShared :=
    (ownStart_initial.ownInv.create ownDepth).testStatusUpdate (by decide +kernel) ownDepth
  by_cases hidx : idx = 1
  · subst hidx
    have hone : ownShared.holders 1 5 = 1 := by decide +kernel
    rw [Subscribed, hone, if_neg (by decide +kernel)]
  · have hzero := table_ownShared hidx
    rw [Subscribed, hinv.owned.holder_le (by decide) hzero, hzero]
    exact (if_pos (by simp)).symm

/-- A crash of the SoCCP when it holds one reference. -/
theorem slotsOwned_one_subscription :
    ∃ t, Relation.ReflTransGen (GuardedStep OwnOk (OwnState.call ownDepth)) ownStart t ∧
      (t.gmem.table 1).status = synxStateSignaledSsr ∧ SlotsOwned t := by
  have h1 : Relation.ReflTransGen (GuardedStep OwnOk (OwnState.call ownDepth)) ownStart _ :=
    .single ⟨.create, trivial, rfl⟩
  have h2 : Relation.ReflTransGen (GuardedStep OwnOk (OwnState.call ownDepth)) ownStart
      ownShared := by
    refine h1.tail ⟨.testStatusUpdate 1 5 0 false, ?_, rfl⟩
    rw [OwnOk]
    decide +kernel
  have h3 := h2.tail ⟨.recover 5, ⟨by decide, ownShared_subscribed⟩, rfl⟩
  exact ⟨_, h3, by decide +kernel, slotsOwned_of_ownOk (le_refl _) ownStart_initial h3⟩

/-- A core that subscribes twice holds two references, of which its recovery releases one. -/
theorem second_subscription_leaks :
    ¬ ∀ (s t : OwnState), s.Initial →
      Relation.ReflTransGen (GuardedStep OwnMatched (OwnState.call ownDepth)) s t →
      SlotsOwned t := by
  intro hall
  have h1 : Relation.ReflTransGen (GuardedStep OwnMatched (OwnState.call ownDepth)) ownStart _ :=
    .single ⟨.create, trivial, rfl⟩
  have h2 := h1.tail ⟨.testStatusUpdate 1 5 0 false, trivial, rfl⟩
  have h3 := h2.tail ⟨.testStatusUpdate 1 5 0 false, trivial, rfl⟩
  have h4 := h3.tail ⟨.recover 5, (by decide : 5 < synxCoreMax), rfl⟩
  have href := (hall ownStart _ ownStart_initial h4).refcount 1
  exact absurd href (by decide +kernel)

end

end QcomModules.Synx
