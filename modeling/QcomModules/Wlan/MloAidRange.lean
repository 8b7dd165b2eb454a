import Mathlib
import QcomModules.Library.Runs

/-! The range of association ids of an AP MLD, which is recomputed from the ranges of its link
vdevs when the bounds of one of them are set. -/

namespace QcomModules.Wlan

open Library List Function

variable {n : ℕ}

/-! ## The bounds of the managers -/

structure AidBounds where
  startAid : UInt16
  maxAid : UInt16
  deriving DecidableEq

/-- An id is at least `start_aid` and below `max_aid`. -/
def AidBounds.Has (r : AidBounds) (id : UInt16) : Prop := r.startAid ≤ id ∧ id < r.maxAid

instance (r : AidBounds) (id : UInt16) : Decidable (r.Has id) :=
  inferInstanceAs (Decidable (_ ∧ _))

def AidBounds.staCount (r : AidBounds) : UInt16 := r.maxAid - r.startAid

structure MldBounds (n : ℕ) where
  ml : AidBounds
  aidMgr : Fin (n + 1) → Option AidBounds

def vdevBounds (aidMgr : Fin (n + 1) → Option AidBounds) : List AidBounds :=
  (finRange (n + 1)).filterMap aidMgr

/-- `wlan_mlo_vdev_aid_mgr_init` with `WLAN_UMAC_MAX_AID`, for the links that have a vdev. -/
def MldBounds.init (vdevs : Fin (n + 1) → Bool) : MldBounds n where
  ml := ⟨0, 1991⟩
  aidMgr link := if vdevs link then some ⟨0, 1991⟩ else none

/-- The loop that derives the highest `start_aid`. -/
def maxAidStart (l : List AidBounds) : UInt16 :=
  l.foldl (fun start r => if start < r.startAid then r.startAid else start) 0

/-- The loop that derives `max_sta_count`: a count of 0 is taken for none yet. -/
def maxStaCount (l : List AidBounds) : UInt16 :=
  l.foldl (fun count r =>
    if count = 0 then r.staCount else if r.staCount < count then r.staCount else count) 0

inductive AidBoundsOp (n : ℕ) where
  | setStartAid (link : Fin (n + 1)) (startAid : UInt16)
  | maxAidSet (link : Fin (n + 1)) (maxAid : UInt16)

namespace MldBounds

/-- `wlan_vdev_mlme_set_start_aid` and `wlan_vdev_mlme_aid_mgr_max_aid_set`. -/
def step (s : MldBounds n) : AidBoundsOp n → MldBounds n
  | .setStartAid link startAid =>
    match s.aidMgr link with
    | none => s
    | some r =>
      let aidMgr := update s.aidMgr link (some { r with startAid := startAid })
      { ml := { s.ml with startAid := maxAidStart (vdevBounds aidMgr) }, aidMgr := aidMgr }
  | .maxAidSet link maxAid =>
    match s.aidMgr link with
    | none => s
    | some r =>
      if maxAid = 0 then s
      else
        let aidMgr := update s.aidMgr link (some { r with maxAid := maxAid })
        { ml := { s.ml with maxAid := s.ml.startAid + maxStaCount (vdevBounds aidMgr) }
          aidMgr := aidMgr }

/-- Every id of the MLD is one of each link. -/
def Contained (s : MldBounds n) : Prop :=
  ∀ r ∈ vdevBounds s.aidMgr, ∀ id, s.ml.Has id → r.Has id

/-- No link has a `start_aid` above its `max_aid`. -/
def Ordered (s : MldBounds n) : Prop := ∀ r ∈ vdevBounds s.aidMgr, r.startAid ≤ r.maxAid

instance (s : MldBounds n) : Decidable s.Ordered := inferInstanceAs (Decidable (∀ _ ∈ _, _))

/-- The links whose ranges are counted: those behind the last one with an empty range. -/
def counted (aidMgr : Fin (n + 1) → Option AidBounds) : List AidBounds :=
  (vdevBounds aidMgr).reverse.takeWhile fun r => r.staCount ≠ 0

/-- After a `start_aid` is set, one link starts behind the ids of the MLD or all links end behind
them; after a `max_aid` is set, all links end behind the ids that the range of a counted link has
when it is moved to the start of the MLD, or these ids wrap for all counted links. -/
def StepOk (s : MldBounds n) : AidBoundsOp n → Prop
  | .setStartAid link startAid => ∀ r ∈ s.aidMgr link,
      let l := vdevBounds (update s.aidMgr link (some { r with startAid := startAid }))
      (∃ q ∈ l, s.ml.maxAid ≤ q.startAid) ∨ ∀ q ∈ l, s.ml.maxAid ≤ q.maxAid
  | .maxAidSet link maxAid => ∀ r ∈ s.aidMgr link, maxAid ≠ 0 →
      let aidMgr := update s.aidMgr link (some { r with maxAid := maxAid })
      (∀ q ∈ counted aidMgr, 2 ^ 16 ≤ s.ml.startAid.toNat + q.staCount.toNat) ∨
        ∃ q ∈ counted aidMgr, ∀ p ∈ vdevBounds aidMgr,
          s.ml.startAid.toNat + q.staCount.toNat ≤ p.maxAid.toNat

end MldBounds

/-! ## The loops -/

theorem maxAidStart_concat (l : List AidBounds) (r : AidBounds) :
    maxAidStart (l ++ [r]) =
      if maxAidStart l < r.startAid then r.startAid else maxAidStart l := by
  rw [maxAidStart, foldl_append]
  rfl

theorem maxAidStart_spec (l : List AidBounds) :
    (∀ r ∈ l, r.startAid ≤ maxAidStart l) ∧
      (maxAidStart l = 0 ∨ ∃ r ∈ l, r.startAid = maxAidStart l) := by
  induction l using reverseRecOn with
  | nil => exact ⟨forall_mem_nil _, .inl rfl⟩
  | append_singleton l r ih =>
    obtain ⟨hle, hsome⟩ := ih
    rw [maxAidStart_concat]
    split
    case isTrue hlt =>
      refine ⟨fun q hq => ?_, .inr ⟨r, mem_concat_self, rfl⟩⟩
      rcases mem_append.mp hq with hq | hq
      · exact UInt16.le_trans (hle q hq) (UInt16.le_of_lt hlt)
      · rw [mem_singleton.mp hq]
        exact UInt16.le_refl _
    case isFalse hge =>
      refine ⟨fun q hq => ?_, hsome.imp_right fun ⟨q, hq, heq⟩ => ⟨q, mem_append_left _ hq, heq⟩⟩
      rcases mem_append.mp hq with hq | hq
      · exact hle q hq
      · rw [mem_singleton.mp hq]
        exact UInt16.not_lt.mp hge

theorem maxStaCount_concat (l : List AidBounds) (r : AidBounds) :
    maxStaCount (l ++ [r]) = if maxStaCount l = 0 then r.staCount
      else if r.staCount < maxStaCount l then r.staCount else maxStaCount l := by
  rw [maxStaCount, foldl_append]
  rfl

theorem maxStaCount_spec (l : List AidBounds) :
    (l.reverse.takeWhile (fun r => r.staCount ≠ 0) = [] ∧ maxStaCount l = 0) ∨
      ∃ q ∈ l.reverse.takeWhile (fun r => r.staCount ≠ 0), q.staCount = maxStaCount l ∧
        maxStaCount l ≠ 0 ∧
        ∀ r ∈ l.reverse.takeWhile (fun r => r.staCount ≠ 0), maxStaCount l ≤ r.staCount := by
  induction l using reverseRecOn with
  | nil => exact .inl ⟨rfl, rfl⟩
  | append_singleton l r ih =>
    rw [reverse_append, reverse_singleton, singleton_append, maxStaCount_concat, takeWhile_cons]
    by_cases hr : r.staCount = 0
    · have hlt : maxStaCount l ≠ 0 → (0 : UInt16) < maxStaCount l := by
        rw [ne_eq, ← UInt16.toNat_inj, UInt16.lt_iff_toNat_lt]
        exact Nat.pos_of_ne_zero
      refine .inl ⟨if_neg (by simp [hr]), ?_⟩
      rw [hr]
      split
      case isTrue => rfl
      case isFalse hne => rw [if_pos (hlt hne)]
    · rw [if_pos (by simp [hr])]
      right
      rcases ih with ⟨hnil, hzero⟩ | ⟨q, hq, heq, hne, hmin⟩
      · rw [hnil, if_pos hzero]
        exact ⟨r, mem_cons_self, rfl, hr, forall_mem_singleton.mpr (UInt16.le_refl _)⟩
      · rw [if_neg hne]
        split
        case isTrue hlt =>
          refine ⟨r, mem_cons_self, rfl, hr, forall_mem_cons.mpr ⟨UInt16.le_refl _, ?_⟩⟩
          exact fun p hp => UInt16.le_trans (UInt16.le_of_lt hlt) (hmin p hp)
        case isFalse hge =>
          exact ⟨q, mem_cons_of_mem _ hq, heq, hne,
            forall_mem_cons.mpr ⟨UInt16.not_lt.mp hge, hmin⟩⟩

namespace MldBounds

/-! ## One step -/

def StartsFirst (s : MldBounds n) : Prop :=
  ∀ r ∈ vdevBounds s.aidMgr, r.startAid ≤ s.ml.startAid

theorem mem_vdevBounds {aidMgr : Fin (n + 1) → Option AidBounds} {r : AidBounds} :
    r ∈ vdevBounds aidMgr ↔ ∃ link, aidMgr link = some r := by
  simp [vdevBounds]

theorem contained_iff {s : MldBounds n} (h : s.StartsFirst) :
    s.Contained ↔ s.ml.maxAid ≤ s.ml.startAid ∨
      ∀ r ∈ vdevBounds s.aidMgr, s.ml.maxAid ≤ r.maxAid := by
  constructor
  · intro hin
    by_cases hempty : s.ml.maxAid ≤ s.ml.startAid
    · exact .inl hempty
    refine .inr fun r hr => UInt16.not_lt.mp fun hlt => ?_
    rw [UInt16.not_le] at hempty
    by_cases hstart : s.ml.startAid ≤ r.maxAid
    · exact UInt16.lt_irrefl _ (hin r hr r.maxAid ⟨hstart, hlt⟩).2
    · have hlast := (hin r hr s.ml.startAid ⟨UInt16.le_refl _, hempty⟩).2
      exact hstart (UInt16.le_of_lt hlast)
  · rintro (hempty | hend) r hr id ⟨hle, hlt⟩
    · exact absurd (UInt16.lt_of_le_of_lt hle hlt) (UInt16.not_lt.mpr hempty)
    · exact ⟨UInt16.le_trans (h r hr) hle, UInt16.lt_of_lt_of_le hlt (hend r hr)⟩

section Step

variable {s : MldBounds n} {link : Fin (n + 1)} {r : AidBounds}

theorem step_none (h : s.aidMgr link = none) (bound : UInt16) :
    s.step (.setStartAid link bound) = s ∧ s.step (.maxAidSet link bound) = s := by
  simp only [step, h, and_self]

theorem step_setStartAid (h : s.aidMgr link = some r) (startAid : UInt16) :
    s.step (.setStartAid link startAid) =
      let aidMgr := update s.aidMgr link (some { r with startAid := startAid })
      { ml := { s.ml with startAid := maxAidStart (vdevBounds aidMgr) }, aidMgr := aidMgr } := by
  simp only [step, h]

theorem step_maxAidSet (h : s.aidMgr link = some r) {maxAid : UInt16} (hmax : maxAid ≠ 0) :
    s.step (.maxAidSet link maxAid) =
      let aidMgr := update s.aidMgr link (some { r with maxAid := maxAid })
      { ml := { s.ml with maxAid := s.ml.startAid + maxStaCount (vdevBounds aidMgr) }
        aidMgr := aidMgr } := by
  simp only [step, h, if_neg hmax]

theorem mem_update (aidMgr : Fin (n + 1) → Option AidBounds) (link : Fin (n + 1)) (r : AidBounds) :
    r ∈ vdevBounds (update aidMgr link (some r)) :=
  mem_vdevBounds.mpr ⟨link, update_self ..⟩

theorem startsFirst_step (h : s.StartsFirst) (op : AidBoundsOp n) : (s.step op).StartsFirst := by
  cases op with
  | setStartAid link startAid =>
    cases hr : s.aidMgr link with
    | none => exact (step_none hr startAid).1.symm ▸ h
    | some r =>
      rw [step_setStartAid hr]
      exact (maxAidStart_spec _).1
  | maxAidSet link maxAid =>
    cases hr : s.aidMgr link with
    | none => exact (step_none hr maxAid).2.symm ▸ h
    | some r =>
      by_cases hmax : maxAid = 0
      · simpa only [step, hr, if_pos hmax] using h
      rw [step_maxAidSet hr hmax]
      intro q hq
      obtain ⟨other, hother⟩ := mem_vdevBounds.mp hq
      simp only at hother
      by_cases hlink : other = link
      · subst hlink
        rw [update_self] at hother
        obtain rfl := Option.some.inj hother
        exact h r (mem_vdevBounds.mpr ⟨other, hr⟩)
      · rw [update_of_ne hlink] at hother
        exact h q (mem_vdevBounds.mpr ⟨other, hother⟩)

theorem contained_setStartAid (h : s.StartsFirst) (hin : s.Contained) (startAid : UInt16) :
    (s.step (.setStartAid link startAid)).Contained ↔ s.StepOk (.setStartAid link startAid) := by
  rw [contained_iff (startsFirst_step h _), StepOk]
  cases hr : s.aidMgr link with
  | none =>
    rw [(step_none hr startAid).1]
    exact iff_of_true ((contained_iff h).mp hin) fun r hmem => absurd hmem (by simp)
  | some r =>
    rw [step_setStartAid hr]
    simp only [Option.mem_def, Option.some.injEq, forall_eq']
    refine or_congr_left ⟨fun hempty => ?_, fun ⟨q, hq, hle⟩ =>
      UInt16.le_trans hle ((maxAidStart_spec _).1 q hq)⟩
    obtain hzero | ⟨q, hq, heq⟩ := (maxAidStart_spec (vdevBounds
      (update s.aidMgr link (some { r with startAid := startAid })))).2
    · rw [hzero, UInt16.le_iff_toNat_le] at hempty
      exact ⟨_, mem_update .., UInt16.le_iff_toNat_le.mpr (hempty.trans (Nat.zero_le _))⟩
    · exact ⟨q, hq, heq ▸ hempty⟩

theorem contained_maxAidSet (h : s.StartsFirst) (hin : s.Contained) (maxAid : UInt16) :
    (s.step (.maxAidSet link maxAid)).Contained ↔ s.StepOk (.maxAidSet link maxAid) := by
  rw [contained_iff (startsFirst_step h _), StepOk]
  have hstill : s.ml.maxAid ≤ s.ml.startAid ∨ ∀ r ∈ vdevBounds s.aidMgr, s.ml.maxAid ≤ r.maxAid :=
    (contained_iff h).mp hin
  cases hr : s.aidMgr link with
  | none =>
    rw [(step_none hr maxAid).2]
    exact iff_of_true hstill fun r hmem => absurd hmem (by simp)
  | some r =>
    by_cases hmax : maxAid = 0
    · simp only [step, hr, if_pos hmax]
      exact iff_of_true hstill fun _ _ hne => absurd hmax hne
    rw [step_maxAidSet hr hmax]
    simp only [Option.mem_def, Option.some.injEq, forall_eq', ne_eq, hmax, not_false_eq_true,
      forall_const]
    generalize haidMgr : update s.aidMgr link (some { r with maxAid := maxAid }) = aidMgr
    have hmem : { r with maxAid := maxAid } ∈ vdevBounds aidMgr := haidMgr ▸ mem_update ..
    have hlt := (maxStaCount (vdevBounds aidMgr)).toNat_lt
    have hml := s.ml.startAid.toNat_lt
    simp only [UInt16.le_iff_toNat_le, UInt16.toNat_add]
    rcases maxStaCount_spec (vdevBounds aidMgr) with ⟨hnil, hzero⟩ | ⟨q, hq, heq, hne, hmin⟩
    · refine iff_of_true (.inl ?_) (.inl ?_)
      · rw [hzero, UInt16.toNat_zero, Nat.add_zero, Nat.mod_eq_of_lt hml]
      · rw [counted, hnil]
        exact forall_mem_nil _
    · have hpos : (maxStaCount (vdevBounds aidMgr)).toNat ≠ 0 := fun hzero =>
        hne (UInt16.toNat_inj.mp hzero)
      by_cases hwrap : s.ml.startAid.toNat + (maxStaCount (vdevBounds aidMgr)).toNat < 2 ^ 16
      · rw [Nat.mod_eq_of_lt hwrap, ← heq, counted]
        constructor
        · rintro (hempty | hend)
          · rw [heq] at hempty
            omega
          · exact .inr ⟨q, hq, hend⟩
        · rintro (hall | ⟨p, hp, hend⟩)
          · have hq' := hall q hq
            rw [heq] at hq'
            omega
          · refine .inr fun u hu => le_trans (Nat.add_le_add_left ?_ _) (hend u hu)
            exact heq ▸ UInt16.le_iff_toNat_le.mp (hmin p hp)
      · refine iff_of_true (.inl (by omega)) (.inl fun p hp => ?_)
        have hle := UInt16.le_iff_toNat_le.mp (hmin p hp)
        omega

end Step

end MldBounds

/-! ## Runs -/

/-- In every run from the initial ranges the ids of the MLD stay among those of each link exactly
where every step leaves the ends of the links behind them. -/
theorem mld_range_contained_iff (vdevs : Fin (n + 1) → Bool) (ops : List (AidBoundsOp n)) :
    EachStep (fun s op => (s.step op).Contained) MldBounds.step (.init vdevs) ops ↔
      EachStep MldBounds.StepOk MldBounds.step (.init vdevs) ops := by
  have hiff (s : MldBounds n) (op : AidBoundsOp n) (h : s.StartsFirst ∧ s.Contained) (_ : True) :
      (s.step op).Contained ↔ s.StepOk op := by
    cases op with
    | setStartAid link startAid => exact MldBounds.contained_setStartAid h.1 h.2 startAid
    | maxAidSet link maxAid => exact MldBounds.contained_maxAidSet h.1 h.2 maxAid
  have hinit : ∀ r ∈ vdevBounds (MldBounds.init vdevs).aidMgr, r = ⟨0, 1991⟩ := by
    intro r hr
    obtain ⟨link, hlink⟩ := MldBounds.mem_vdevBounds.mp hr
    exact (Option.some.inj (Option.ite_none_right_eq_some.mp hlink).2).symm
  have hfirst : (MldBounds.init vdevs).StartsFirst := fun r hr =>
    hinit r hr ▸ UInt16.le_refl _
  refine eachStep_iff hiff (fun s op h _ hin => ⟨MldBounds.startsFirst_step h.1 op, hin⟩)
    ⟨hfirst, fun r hr id hid => ?_⟩ fun _ _ => trivial
  exact hinit r hr ▸ hid

/-- The ranges `[50, 1991)` and `[0, 80)` make `[50, 130)` that of the MLD. -/
theorem mld_range_leaves_link :
    ¬ ∀ ops : List (AidBoundsOp 1),
      EachStep (fun s op => (s.step op).Ordered) MldBounds.step (.init fun _ => true) ops →
        EachStep (fun s op => (s.step op).Contained) MldBounds.step (.init fun _ => true) ops := by
  intro hall
  obtain ⟨-, hin, -⟩ := hall [.setStartAid 0 50, .maxAidSet 1 80] ⟨by decide, by decide, trivial⟩
  have hid := hin ⟨0, 80⟩ (by decide) 80 (by decide)
  exact absurd hid (by decide)

end QcomModules.Wlan
