import Mathlib

/-! The association ids of an AP MLD: the bitmap of the MLD and those of its link vdevs. -/

namespace QcomModules.Wlan

open List

/-! ## Managers -/

/-- `WLAN_UMAC_MAX_AID`: the size of each bitmap. -/
def wlanUmacMaxAid : ℕ := 2008 - 16 - 1

/-- `(uint16_t)-1` -/
def noAid : ℕ := 2 ^ 16 - 1

/-- `WLAN_AID(b)`: `b & ~0xc000` -/
def wlanAid (id : ℕ) : ℕ := id % 2 ^ 14

/-- The bits by their index. Index −1 stands for the id 0. -/
abbrev AidBitmap := ℤ → Bool

def qdfSetBit (i : ℤ) (bitmap : AidBitmap) : AidBitmap := Function.update bitmap i true

def qdfClearBit (i : ℤ) (bitmap : AidBitmap) : AidBitmap := Function.update bitmap i false

variable {i j : ℤ} {bitmap : AidBitmap} {is : List ℕ} {among : ℕ → Prop}
  {firstAid startIdx endIdx fuel : ℕ}

@[simp] theorem qdfSetBit_iff : qdfSetBit i bitmap j = true ↔ j = i ∨ bitmap j = true := by
  by_cases h : j = i <;> simp [qdfSetBit, h]

@[simp] theorem qdfClearBit_iff : qdfClearBit i bitmap j = true ↔ j ≠ i ∧ bitmap j = true := by
  by_cases h : j = i <;> simp [qdfClearBit, h]

structure AidRange where
  startAid : ℕ
  maxAid : ℕ
  maxAid_le : maxAid ≤ wlanUmacMaxAid

structure VdevAidMgr extends AidRange where
  aidBitmap : AidBitmap

/-- `struct wlan_ml_vdev_aid_mgr`, for `n + 1` link vdevs (`WLAN_UMAC_MLO_MAX_VDEVS`). -/
structure MlVdevAidMgr (n : ℕ) extends AidRange where
  aidBitmap : AidBitmap
  aidMgr : Fin (n + 1) → Option VdevAidMgr

variable {n : ℕ}

namespace MlVdevAidMgr

def LinkBit (mgr : MlVdevAidMgr n) (link : Fin (n + 1)) (i : ℤ) : Prop :=
  ∃ vdev ∈ mgr.aidMgr link, vdev.aidBitmap i = true

instance (mgr : MlVdevAidMgr n) (link : Fin (n + 1)) (i : ℤ) : Decidable (mgr.LinkBit link i) :=
  match h : mgr.aidMgr link with
  | none => isFalse fun ⟨vdev, hvdev, _⟩ => by simp [h] at hvdev
  | some vdev => decidable_of_iff (vdev.aidBitmap i = true) (by simp [LinkBit, h])

def links (mgr : MlVdevAidMgr n) (link : Fin (n + 1)) : Option AidRange :=
  (mgr.aidMgr link).map VdevAidMgr.toAidRange

def mapLink (mgr : MlVdevAidMgr n) (link : Fin (n + 1)) (f : AidBitmap → AidBitmap) :
    MlVdevAidMgr n :=
  { mgr with aidMgr := Function.update mgr.aidMgr link <|
      (mgr.aidMgr link).map fun vdev => { vdev with aidBitmap := f vdev.aidBitmap } }

def mapLinks (mgr : MlVdevAidMgr n) (f : AidBitmap → AidBitmap) : MlVdevAidMgr n :=
  { mgr with aidMgr := fun link =>
      (mgr.aidMgr link).map fun vdev => { vdev with aidBitmap := f vdev.aidBitmap } }

end MlVdevAidMgr

/-! ## Allocation -/

def mloPeerSetAidBit (mgr : MlVdevAidMgr n) (i : ℤ) : MlVdevAidMgr n := mgr.mapLinks (qdfSetBit i)

/-- The loop of `wlan_mlo_check_aid_free` over the links left. -/
def checkAidFreeFrom (mgr : MlVdevAidMgr n) (i : ℤ) (skip : Option (Fin (n + 1))) :
    List (Fin (n + 1)) → Bool
  | [] => false
  | j :: js =>
    if skip = some j then checkAidFreeFrom mgr i skip js
    else if mgr.LinkBit j i then false
    else if j = Fin.last n then true
    else checkAidFreeFrom mgr i skip js

/-- No link other than the skipped one has the bit. With the last link skipped it is never so. -/
def wlanMloCheckAidFree (mgr : MlVdevAidMgr n) (i : ℤ) (skip : Option (Fin (n + 1))) : Bool :=
  checkAidFreeFrom mgr i skip (List.finRange (n + 1))

def wlanMloAidIdxCheck (startIdx endIdx currIdx : ℕ) : Bool :=
  if startIdx < endIdx then decide (currIdx < endIdx) else decide (endIdx ≤ currIdx)

/-- The next index, which is negative past the lowest one. -/
def wlanMloAidIdxUpdate (startIdx endIdx currIdx : ℕ) : ℤ :=
  if startIdx < endIdx then currIdx + 1
  else if endIdx ≤ currIdx then currIdx - 1
  else 0

/-- The indices that the loop of `wlan_mlo_alloc_aid` goes through, in order: upwards without the
bound, or downwards with it. -/
def aidIndicesFrom (startIdx endIdx : ℕ) : ℕ → ℕ → List ℕ
  | 0, _ => []
  | fuel + 1, currIdx =>
    if wlanMloAidIdxCheck startIdx endIdx currIdx then
      currIdx :: match wlanMloAidIdxUpdate startIdx endIdx currIdx with
        | .ofNat next => aidIndicesFrom startIdx endIdx fuel next
        | .negSucc _ => []
    else []

def aidIndices (startIdx endIdx : ℕ) : List ℕ :=
  aidIndicesFrom startIdx endIdx (startIdx + endIdx + 1) startIdx

/-- A peer: of the MLD, or of one link only. -/
inductive AidPeer (n : ℕ) where
  | mlo
  | single (link : Fin (n + 1))
  deriving DecidableEq

/-- The loop for an MLO peer: the first index that the MLD and all links have clear. -/
def allocMloAid (mgr : MlVdevAidMgr n) : List ℕ → MlVdevAidMgr n × ℕ
  | [] => (mgr, noAid)
  | i :: is =>
    if mgr.aidBitmap i then allocMloAid mgr is
    else if wlanMloCheckAidFree mgr i none then
      ({ mloPeerSetAidBit mgr i with aidBitmap := qdfSetBit i mgr.aidBitmap }, (i + 1) % 2 ^ 16)
    else allocMloAid mgr is

/-- The end of the loop for a single-link peer: the first id that was clear, if there is one. -/
def finishSingleAid (mgr : MlVdevAidMgr n) (link : Fin (n + 1)) (firstAid : ℕ) :
    MlVdevAidMgr n × ℕ :=
  if firstAid ≠ 0 then (mgr.mapLink link (qdfSetBit (firstAid - 1)), firstAid) else (mgr, noAid)

/-- The loop for a single-link peer: an index that the MLD and the link have clear, one used on
another link before the others. -/
def allocSingleAid (mgr : MlVdevAidMgr n) (link : Fin (n + 1)) (firstAid : ℕ) :
    List ℕ → MlVdevAidMgr n × ℕ
  | [] => finishSingleAid mgr link firstAid
  | i :: is =>
    if mgr.aidBitmap i then allocSingleAid mgr link firstAid is
    else match mgr.aidMgr link with
      | none => finishSingleAid mgr link firstAid
      | some vdev =>
        if vdev.aidBitmap i then allocSingleAid mgr link firstAid is
        else if wlanMloCheckAidFree mgr i (some link) then
          allocSingleAid mgr link (if firstAid = 0 then (i + 1) % 2 ^ 16 else firstAid) is
        else (mgr.mapLink link (qdfSetBit i), (i + 1) % 2 ^ 16)

def wlanMloAllocAid (mgr : MlVdevAidMgr n) (startIdx endIdx : ℕ) :
    AidPeer n → MlVdevAidMgr n × ℕ
  | .mlo => allocMloAid mgr (aidIndices startIdx endIdx)
  | .single link => allocSingleAid mgr link 0 (aidIndices startIdx endIdx)

/-- Try the buckets in order until one gives an id. -/
def allocBuckets (mgr : MlVdevAidMgr n) (peer : AidPeer n) : List (ℕ × ℕ) → MlVdevAidMgr n × ℕ
  | [] => (mgr, noAid)
  | (startIdx, endIdx) :: buckets =>
    let r := wlanMloAllocAid mgr startIdx endIdx peer
    if r.2 ≠ noAid then r else allocBuckets r.1 peer buckets

/-- The buckets of `_wlan_mlo_peer_alloc_aid` with `WLAN_FEATURE_11BE`, in the order it tries
them. -/
def aidBuckets (mgr : MlVdevAidMgr n) (t2lmPeer : Bool) : List (ℕ × ℕ) :=
  if mgr.maxAid < mgr.startAid then []
  else
    let pool := (mgr.maxAid - mgr.startAid) / 3
    let aidEnd1 := (pool + mgr.startAid) % 2 ^ 16
    let aidEnd2 := (pool + pool + mgr.startAid) % 2 ^ 16
    if aidEnd1 < mgr.startAid ∨ aidEnd2 < aidEnd1 then [(mgr.startAid, mgr.maxAid)]
    else if t2lmPeer then [(aidEnd1, aidEnd2), (aidEnd2, mgr.maxAid), (aidEnd1, mgr.startAid)]
    else [(mgr.startAid, aidEnd1), (aidEnd2, mgr.maxAid), (aidEnd2, aidEnd1)]

def wlanMloPeerAllocAid (mgr : MlVdevAidMgr n) (t2lmPeer : Bool) (peer : AidPeer n) :
    MlVdevAidMgr n × ℕ :=
  allocBuckets mgr peer (aidBuckets mgr t2lmPeer)

/-! ## Explicit assignment and release -/

def wlanMloPeerSetAid (mgr : MlVdevAidMgr n) (peer : AidPeer n) (id : BitVec 16) :
    Option (MlVdevAidMgr n) :=
  let i : ℤ := wlanAid id.toNat - 1
  if mgr.aidBitmap i then none
  else match peer with
    | .mlo =>
      if id.toNat < mgr.startAid ∨ mgr.maxAid ≤ id.toNat then none
      else if ∃ link, mgr.LinkBit link i then none
      else some { mloPeerSetAidBit mgr i with aidBitmap := qdfSetBit i mgr.aidBitmap }
    | .single link =>
      match mgr.aidMgr link with
      | none => none
      | some vdev =>
        if id.toNat < vdev.startAid ∨ vdev.maxAid ≤ id.toNat then none
        else if vdev.aidBitmap i then none
        else some (mgr.mapLink link (qdfSetBit i))

/-- Clear the bits of the id. `linkIx` is `none` for the index `0xff`. -/
def wlanMloPeerFreeAid (mgr : MlVdevAidMgr n) (linkIx : Option (Fin (n + 1))) (id : ℕ) :
    MlVdevAidMgr n :=
  let i : ℕ := (wlanAid id + 2 ^ 16 - 1) % 2 ^ 16
  if mgr.aidBitmap i then
    { mgr.mapLinks (qdfClearBit i) with aidBitmap := qdfClearBit i mgr.aidBitmap }
  else match linkIx with
    | some link => mgr.mapLink link (qdfClearBit i)
    | none => mgr

/-! ## What allocation does -/

def AidFree (mgr : MlVdevAidMgr n) (i : ℤ) : AidPeer n → Prop
  | .mlo => mgr.aidBitmap i = false ∧ ∀ link, ¬mgr.LinkBit link i
  | .single link =>
    mgr.aidBitmap i = false ∧ (mgr.aidMgr link).isSome ∧ ¬mgr.LinkBit link i

def markAid (mgr : MlVdevAidMgr n) (i : ℤ) : AidPeer n → MlVdevAidMgr n
  | .mlo => { mloPeerSetAidBit mgr i with aidBitmap := qdfSetBit i mgr.aidBitmap }
  | .single link => mgr.mapLink link (qdfSetBit i)

/-- An index that was free is marked, or there was none among those looked at. -/
inductive Allocates (mgr : MlVdevAidMgr n) (peer : AidPeer n) (among : ℕ → Prop) :
    MlVdevAidMgr n × ℕ → Prop
  | none (h : ∀ i, among i → ¬AidFree mgr i peer) : Allocates mgr peer among (mgr, noAid)
  | some {i : ℕ} (hi : among i) (hfree : AidFree mgr i peer) :
      Allocates mgr peer among (markAid mgr i peer, (i + 1) % 2 ^ 16)

variable {mgr : MlVdevAidMgr n}

theorem linkBit_iff {link : Fin (n + 1)} {vdev : VdevAidMgr} (h : mgr.aidMgr link = some vdev) :
    mgr.LinkBit link i ↔ vdev.aidBitmap i = true := by
  simp [MlVdevAidMgr.LinkBit, h]

theorem checkAidFreeFrom_none {js : List (Fin (n + 1))} (h : Fin.last n ∉ js) :
    checkAidFreeFrom mgr i none (js ++ [Fin.last n]) = true ↔
      ∀ j ∈ js ++ [Fin.last n], ¬mgr.LinkBit j i := by
  induction js with
  | nil => simp [checkAidFreeFrom]
  | cons j js ih =>
    obtain ⟨hj, hjs⟩ := ne_and_not_mem_of_not_mem_cons h
    rw [cons_append, checkAidFreeFrom, if_neg (by simp), if_neg hj.symm,
      forall_mem_cons, ← ih hjs]
    by_cases hbit : mgr.LinkBit j i
    · simp [hbit]
    · simp [hbit]

theorem wlanMloCheckAidFree_none :
    wlanMloCheckAidFree mgr i none = true ↔ ∀ link, ¬mgr.LinkBit link i := by
  have hlast : Fin.last n ∉ (finRange n).map Fin.castSucc := by
    intro hmem
    obtain ⟨j, -, hj⟩ := mem_map.1 hmem
    exact absurd hj (Fin.castSucc_lt_last j).ne
  rw [wlanMloCheckAidFree, finRange_succ_last, checkAidFreeFrom_none hlast,
    ← finRange_succ_last]
  exact ⟨fun h link => h link (mem_finRange link), fun h link _ => h link⟩

theorem allocMloAid_spec (mgr : MlVdevAidMgr n) (hin : ∀ i ∈ is, among i)
    (hrest : ∀ i, among i → i ∉ is → ¬AidFree mgr i .mlo) :
    Allocates mgr .mlo among (allocMloAid mgr is) := by
  induction is with
  | nil => exact .none fun i hi => hrest i hi not_mem_nil
  | cons i is ih =>
    have hnext : ¬AidFree mgr i .mlo → Allocates mgr .mlo among (allocMloAid mgr is) := by
      intro hbusy
      refine ih (fun j hj => hin j (mem_cons_of_mem i hj)) fun j hj hnot => ?_
      by_cases hij : j = i
      · exact hij ▸ hbusy
      · exact hrest j hj (not_mem_cons_of_ne_of_not_mem hij hnot)
    rw [allocMloAid]
    split
    · rename_i hbit
      exact hnext fun hfree => Bool.false_ne_true (hfree.1.symm.trans hbit)
    · rename_i hclear
      split
      · rename_i hall
        exact .some (hin i mem_cons_self)
          ⟨Bool.eq_false_iff.2 hclear, wlanMloCheckAidFree_none.1 hall⟩
      · rename_i hsome
        exact hnext fun hfree => hsome (wlanMloCheckAidFree_none.2 hfree.2)

theorem finishSingleAid_spec {link : Fin (n + 1)} (hbound : ∀ i, among i → i + 1 < 2 ^ 16)
    (hfirst : firstAid ≠ 0 → ∃ j, among j ∧ AidFree mgr j (.single link) ∧ firstAid = j + 1)
    (hnone : firstAid = 0 → ∀ i, among i → ¬AidFree mgr i (.single link)) :
    Allocates mgr (.single link) among (finishSingleAid mgr link firstAid) := by
  by_cases hzero : firstAid = 0
  · rw [finishSingleAid, if_neg (not_not.2 hzero)]
    exact .none (hnone hzero)
  · obtain ⟨j, hj, hfree, rfl⟩ := hfirst hzero
    have h := Allocates.some hj hfree
    rw [Nat.mod_eq_of_lt (hbound j hj)] at h
    have hindex : ((j + 1 : ℕ) : ℤ) - 1 = j := by omega
    rw [finishSingleAid, if_pos hzero, hindex]
    exact h

/-- The first id that was clear is one of those looked at. While there is none, all indices already
passed were taken. -/
theorem allocSingleAid_spec (mgr : MlVdevAidMgr n) (link : Fin (n + 1))
    (hbound : ∀ i, among i → i + 1 < 2 ^ 16) (hin : ∀ i ∈ is, among i)
    (hfirst : firstAid ≠ 0 → ∃ j, among j ∧ AidFree mgr j (.single link) ∧ firstAid = j + 1)
    (hrest : firstAid = 0 → ∀ i, among i → i ∉ is → ¬AidFree mgr i (.single link)) :
    Allocates mgr (.single link) among (allocSingleAid mgr link firstAid is) := by
  induction is generalizing firstAid with
  | nil =>
    exact finishSingleAid_spec hbound hfirst fun hzero i hi => hrest hzero i hi not_mem_nil
  | cons i is ih =>
    have hi := hin i mem_cons_self
    have htail : ∀ j ∈ is, among j := fun j hj => hin j (mem_cons_of_mem i hj)
    have hnext : ¬AidFree mgr i (.single link) →
        Allocates mgr (.single link) among (allocSingleAid mgr link firstAid is) := by
      intro hbusy
      refine ih htail hfirst fun hzero j hj hnot => ?_
      by_cases hij : j = i
      · exact hij ▸ hbusy
      · exact hrest hzero j hj (not_mem_cons_of_ne_of_not_mem hij hnot)
    rw [allocSingleAid]
    split
    · rename_i hbit
      exact hnext fun hfree => Bool.false_ne_true (hfree.1.symm.trans hbit)
    · rename_i hclear
      split
      · rename_i hlink
        refine finishSingleAid_spec hbound hfirst fun _ j _ hfree => ?_
        have hsome := hfree.2.1
        rw [hlink] at hsome
        exact absurd hsome Bool.false_ne_true
      · rename_i vdev hlink
        split
        · rename_i hbit
          exact hnext fun hfree => hfree.2.2 ((linkBit_iff hlink).2 hbit)
        · rename_i hbit
          have hfree : AidFree mgr i (.single link) :=
            ⟨Bool.eq_false_iff.2 hclear, Option.isSome_iff_exists.2 ⟨vdev, hlink⟩,
              fun h => hbit ((linkBit_iff hlink).1 h)⟩
          split
          · rw [Nat.mod_eq_of_lt (hbound i hi)]
            refine ih htail (fun _ => ?_) fun hzero => ?_
            · by_cases hzero : firstAid = 0
              · exact ⟨i, hi, hfree, if_pos hzero⟩
              · rw [if_neg hzero]
                exact hfirst hzero
            · by_cases hold : firstAid = 0
              · rw [if_pos hold] at hzero
                exact absurd hzero i.succ_ne_zero
              · rw [if_neg hold] at hzero
                exact absurd hzero hold
          · exact .some hi hfree

/-! ## The buckets -/

theorem mem_aidIndicesFrom_up (h : startIdx < endIdx) {cur i : ℕ} (hfuel : endIdx ≤ cur + fuel) :
    i ∈ aidIndicesFrom startIdx endIdx fuel cur ↔ cur ≤ i ∧ i < endIdx := by
  induction fuel generalizing cur with
  | zero => exact iff_of_false not_mem_nil (by omega)
  | succ fuel ih =>
    have hcheck : wlanMloAidIdxCheck startIdx endIdx cur = decide (cur < endIdx) := if_pos h
    have hupdate : wlanMloAidIdxUpdate startIdx endIdx cur = Int.ofNat (cur + 1) := if_pos h
    rw [aidIndicesFrom, hcheck, hupdate]
    by_cases hcur : cur < endIdx
    · rw [if_pos (decide_eq_true hcur), mem_cons, ih (by omega)]
      omega
    · rw [if_neg (by simpa using hcur)]
      exact iff_of_false not_mem_nil (by omega)

theorem mem_aidIndicesFrom_down (h : endIdx ≤ startIdx) {cur i : ℕ} (hfuel : cur < fuel) :
    i ∈ aidIndicesFrom startIdx endIdx fuel cur ↔ endIdx ≤ i ∧ i ≤ cur := by
  induction fuel generalizing cur with
  | zero => omega
  | succ fuel ih =>
    have hcheck : wlanMloAidIdxCheck startIdx endIdx cur = decide (endIdx ≤ cur) :=
      if_neg (Nat.not_lt.2 h)
    rw [aidIndicesFrom, hcheck]
    by_cases hcur : endIdx ≤ cur
    · have hupdate : wlanMloAidIdxUpdate startIdx endIdx cur = (cur : ℤ) - 1 := by
        rw [wlanMloAidIdxUpdate, if_neg (Nat.not_lt.2 h), if_pos hcur]
      rw [if_pos (decide_eq_true hcur), hupdate, mem_cons]
      cases cur with
      | zero =>
        have hneg : ((0 : ℕ) : ℤ) - 1 = Int.negSucc 0 := rfl
        rw [hneg]
        simp only [not_mem_nil, or_false]
        omega
      | succ cur =>
        have hnat : ((cur + 1 : ℕ) : ℤ) - 1 = Int.ofNat cur := by
          rw [Int.ofNat_eq_natCast]
          omega
        rw [hnat]
        have hrest := @ih cur (by omega)
        rw [hrest]
        omega
    · rw [if_neg (by simpa using hcur)]
      exact iff_of_false not_mem_nil (by omega)

theorem mem_aidIndices {i : ℕ} :
    i ∈ aidIndices startIdx endIdx ↔
      startIdx ≤ i ∧ i < endIdx ∨ endIdx ≤ startIdx ∧ endIdx ≤ i ∧ i ≤ startIdx := by
  rcases Nat.lt_or_ge startIdx endIdx with h | h
  · rw [aidIndices, mem_aidIndicesFrom_up h (by omega)]
    omega
  · rw [aidIndices, mem_aidIndicesFrom_down h (by omega)]
    omega

theorem mem_aidBuckets (h : mgr.startAid ≤ mgr.maxAid) {t2lmPeer : Bool} {i : ℕ} :
    (∃ b ∈ aidBuckets mgr t2lmPeer, i ∈ aidIndices b.1 b.2) ↔
      mgr.startAid ≤ i ∧ (i < mgr.maxAid ∨ i = mgr.startAid) := by
  have hmax : mgr.maxAid ≤ 1991 := mgr.maxAid_le
  have hend1 : ((mgr.maxAid - mgr.startAid) / 3 + mgr.startAid) % 2 ^ 16 =
      (mgr.maxAid - mgr.startAid) / 3 + mgr.startAid := Nat.mod_eq_of_lt (by omega)
  have hend2 : ((mgr.maxAid - mgr.startAid) / 3 + (mgr.maxAid - mgr.startAid) / 3 +
      mgr.startAid) % 2 ^ 16 = (mgr.maxAid - mgr.startAid) / 3 +
        (mgr.maxAid - mgr.startAid) / 3 + mgr.startAid := Nat.mod_eq_of_lt (by omega)
  rw [aidBuckets, if_neg (Nat.not_lt.2 h)]
  dsimp only
  rw [hend1, hend2, if_neg (by omega)]
  cases t2lmPeer
  · simp only [Bool.false_eq_true, if_false, mem_cons, not_mem_nil, or_false,
      exists_eq_or_imp, exists_eq_left, mem_aidIndices]
    omega
  · simp only [if_true, mem_cons, not_mem_nil, or_false,
      exists_eq_or_imp, exists_eq_left, mem_aidIndices]
    omega

theorem Allocates.congr {peer : AidPeer n} {among' : ℕ → Prop} {r : MlVdevAidMgr n × ℕ}
    (h : Allocates mgr peer among r) (hiff : ∀ i, among i ↔ among' i) :
    Allocates mgr peer among' r := by
  cases h with
  | none hnone => exact .none fun i hi => hnone i ((hiff i).2 hi)
  | some hi hfree => exact .some ((hiff _).1 hi) hfree

theorem wlanMloAllocAid_spec (mgr : MlVdevAidMgr n) (peer : AidPeer n)
    (hbound : ∀ i ∈ aidIndices startIdx endIdx, i + 1 < 2 ^ 16) :
    Allocates mgr peer (· ∈ aidIndices startIdx endIdx)
      (wlanMloAllocAid mgr startIdx endIdx peer) := by
  cases peer with
  | mlo => exact allocMloAid_spec mgr (fun i hi => hi) fun i hi hnot => absurd hi hnot
  | single link =>
    exact allocSingleAid_spec mgr link hbound (fun i hi => hi) (fun hne => absurd rfl hne)
      fun _ i hi hnot => absurd hi hnot

theorem allocBuckets_spec (mgr : MlVdevAidMgr n) (peer : AidPeer n) {buckets : List (ℕ × ℕ)}
    (hbound : ∀ b ∈ buckets, ∀ i ∈ aidIndices b.1 b.2, i + 1 < noAid) :
    Allocates mgr peer (fun i => ∃ b ∈ buckets, i ∈ aidIndices b.1 b.2)
      (allocBuckets mgr peer buckets) := by
  induction buckets with
  | nil => exact .none fun i ⟨b, hb, _⟩ => absurd hb not_mem_nil
  | cons b buckets ih =>
    have hnoAid : noAid < 2 ^ 16 := by decide
    have hlt : ∀ i ∈ aidIndices b.1 b.2, i + 1 < noAid := hbound b mem_cons_self
    have hrest := ih fun b' hb' => hbound b' (mem_cons_of_mem b hb')
    have hfirst := wlanMloAllocAid_spec mgr peer fun i hi => (hlt i hi).trans hnoAid
    rw [allocBuckets]
    generalize wlanMloAllocAid mgr b.1 b.2 peer = r at hfirst ⊢
    cases hfirst with
    | none hnone =>
      rw [if_neg (not_not.2 rfl)]
      generalize allocBuckets mgr peer buckets = r at hrest ⊢
      cases hrest with
      | none hnone' =>
        refine .none fun i ⟨b', hb', hi⟩ => ?_
        rcases mem_cons.1 hb' with rfl | hb'
        · exact hnone i hi
        · exact hnone' i ⟨b', hb', hi⟩
      | some hi hfree =>
        obtain ⟨b', hb', hi⟩ := hi
        exact .some ⟨b', mem_cons_of_mem b hb', hi⟩ hfree
    | some hi hfree =>
      rw [Nat.mod_eq_of_lt ((hlt _ hi).trans hnoAid), if_pos (hlt _ hi).ne]
      have hsome : Allocates mgr peer (fun i => ∃ b' ∈ b :: buckets,
          i ∈ aidIndices b'.1 b'.2) _ := .some ⟨b, mem_cons_self, hi⟩ hfree
      rw [Nat.mod_eq_of_lt ((hlt _ hi).trans hnoAid)] at hsome
      exact hsome

theorem wlanMloPeerAllocAid_spec (h : mgr.startAid ≤ mgr.maxAid) (t2lmPeer : Bool)
    (peer : AidPeer n) :
    Allocates mgr peer (fun i => mgr.startAid ≤ i ∧ (i < mgr.maxAid ∨ i = mgr.startAid))
      (wlanMloPeerAllocAid mgr t2lmPeer peer) := by
  have hmax : mgr.maxAid ≤ 1991 := mgr.maxAid_le
  have hnoAid : noAid = 65535 := rfl
  refine (allocBuckets_spec mgr peer fun b hb i hi => ?_).congr fun i => mem_aidBuckets h
  have hrange := (mem_aidBuckets h).1 ⟨b, hb, hi⟩
  omega

theorem wlanMloPeerAllocAid_of_gt (h : mgr.maxAid < mgr.startAid) (t2lmPeer : Bool)
    (peer : AidPeer n) : wlanMloPeerAllocAid mgr t2lmPeer peer = (mgr, noAid) := by
  rw [wlanMloPeerAllocAid, aidBuckets, if_pos h]
  rfl

end QcomModules.Wlan
