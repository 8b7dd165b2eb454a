import QcomModules.Kgsl.Gpuaddr
import QcomModules.Library.Runs

/-! Allocated GPU address ranges never overlap. -/

namespace QcomModules.Kgsl

open Library List

namespace KgslPagetable

/-! ## Alignment -/

section Align

variable {a : ℕ}

theorem dvd_align (x : ℕ) : a ∣ align x a := Nat.dvd_mul_left a _

theorem le_align (ha : 0 < a) (x : ℕ) : x ≤ align x a := by
  have hmod := Nat.div_add_mod (x + (a - 1)) a
  have hlt := Nat.mod_lt (x + (a - 1)) ha
  rw [align, Nat.mul_comm]
  omega

theorem align_le {x m : ℕ} (hm : a ∣ m) (hx : x ≤ m) : align x a ≤ m := by
  obtain ⟨k, hk⟩ := hm
  rcases Nat.eq_zero_or_pos a with hzero | ha
  · rw [hzero, align]
    omega
  · have hlt : (x + (a - 1)) / a < k + 1 := by
      rw [Nat.div_lt_iff_lt_mul ha, Nat.succ_mul, Nat.mul_comm k a]
      omega
    rw [align, hk, Nat.mul_comm a k]
    exact Nat.mul_le_mul_right a (Nat.le_of_lt_succ hlt)

theorem align_mono (ha : 0 < a) {x y : ℕ} (h : x ≤ y) : align x a ≤ align y a :=
  align_le (dvd_align y) (Nat.le_trans h (le_align ha y))

end Align

/-! ## Searches -/

/-- One entry ends where the other begins, or before. -/
def Below (x y : KgslIommuAddrEntry) : Prop := x.base + x.size ≤ y.base

instance : IsTrans KgslIommuAddrEntry Below where
  trans x y z hxy hyz := by
    rw [Below] at *
    omega

/-- The search finds room of the requested size between the entries, aligned and inside its
range. `start` is a multiple of the alignment, at the bottom or right behind an entry. -/
theorem searchRange_ok {bottom top size a start addr : ℕ} {entries : List KgslIommuAddrEntry}
    (ha : 0 < a) (hentries : entries.Pairwise Below) (hdvd : a ∣ start) (hbottom : bottom ≤ start)
    (hfirst : ∀ e ∈ entries, e.base < bottom → start = bottom)
    (hstart : ∃ z, start = align z a ∧ ∀ e ∈ entries, bottom ≤ e.base → z ≤ e.base)
    (h : searchRange bottom top size a entries start = .ok addr) :
    a ∣ addr ∧ start ≤ addr ∧ addr + size ≤ top ∧
      ∀ e ∈ entries, e.base + e.size ≤ addr ∨ addr + size ≤ e.base := by
  induction entries generalizing start with
  | nil =>
    rw [searchRange] at h
    split at h
    case isTrue hfit =>
      cases h
      exact ⟨hdvd, Nat.le_refl _, hfit, fun e he => by cases he⟩
    case isFalse => cases h
  | cons e es ih =>
    obtain ⟨hbelow, hes⟩ := pairwise_cons.mp hentries
    have hrest : ∀ e' ∈ es, e.base + e.size ≤ e'.base := hbelow
    have hge := le_align ha (e.base + e.size)
    -- the search goes on behind the entry
    have hbehind : bottom ≤ e.base + e.size → start ≤ align (e.base + e.size) a →
        searchRange bottom top size a es (align (e.base + e.size) a) = .ok addr →
        a ∣ addr ∧ start ≤ addr ∧ addr + size ≤ top ∧
          ∀ e' ∈ e :: es, e'.base + e'.size ≤ addr ∨ addr + size ≤ e'.base := by
      intro hover hmono h
      obtain ⟨hdvd', hle, hfit, hfree⟩ := ih hes (dvd_align _) (by omega)
        (fun e' he' hlt => by
          have hafter := hrest e' he'
          omega)
        ⟨_, rfl, fun e' he' _ => hrest e' he'⟩ h
      exact ⟨hdvd', by omega, hfit,
        forall_mem_cons.mpr ⟨Or.inl (Nat.le_trans hge hle), hfree⟩⟩
    have hahead : start + size ≤ e.base → ∀ e' ∈ e :: es,
        e'.base + e'.size ≤ start ∨ start + size ≤ e'.base := by
      refine fun hroom => forall_mem_cons.mpr ⟨Or.inr hroom, fun e' he' => Or.inr ?_⟩
      have hafter := hrest e' he'
      omega
    rw [searchRange] at h
    split at h
    case isTrue hlow =>
      have hsame : start = bottom := hfirst e mem_cons_self hlow
      split at h
      case isTrue hstraddle => exact hbehind (by omega) (by omega) h
      case isFalse hbefore =>
        obtain ⟨z, hz, hzle⟩ := hstart
        obtain ⟨hdvd', hle, hfit, hfree⟩ := ih hes hdvd hbottom
          (fun e' he' => hfirst e' (mem_cons_of_mem _ he'))
          ⟨z, hz, fun e' he' => hzle e' (mem_cons_of_mem _ he')⟩ h
        exact ⟨hdvd', hle, hfit, forall_mem_cons.mpr ⟨Or.inl (by omega), hfree⟩⟩
    case isFalse hhigh =>
      split at h
      case isTrue htop =>
        split at h
        case isTrue hfit =>
          cases h
          exact ⟨hdvd, Nat.le_refl _, hfit, hahead (by omega)⟩
        case isFalse => cases h
      case isFalse htop =>
        split at h
        case isTrue hgap =>
          cases h
          exact ⟨hdvd, Nat.le_refl _, by omega, hahead (by omega)⟩
        case isFalse =>
          split at h
          case isTrue => cases h
          case isFalse =>
            obtain ⟨z, hz, hzle⟩ := hstart
            have hze : z ≤ e.base := hzle e mem_cons_self (by omega)
            refine hbehind (by omega) ?_ h
            rw [hz]
            exact align_mono ha (by omega)

/-! ## The invariant -/

/-- The ranges of a pagetable: the 32-bit and the shared ones end before the 64-bit one. -/
structure Layout (pt : KgslPagetable) : Prop where
  va_pos : 0 < pt.vaStart
  va_large : 2 ^ 32 ≤ pt.vaEnd
  compat_le : pt.compatVaEnd ≤ pt.vaStart
  compat_lt : pt.compatVaEnd < 2 ^ 32
  svm_le : pt.svmEnd ≤ pt.vaStart

/-- An entry lies inside the range it was requested from. -/
def InRange (pt : KgslPagetable) (e : KgslIommuAddrEntry) : Prop :=
  match e.origin with
  | .va => pt.vaStart ≤ e.base ∧ e.base + e.size ≤ pt.vaEnd
  | .compat => pt.compatVaStart ≤ e.base ∧ e.base + e.size ≤ pt.compatVaEnd
  | .svm => (pt.compatVaStart ≤ e.base ∧ e.base + e.size ≤ pt.compatVaEnd) ∨
      (pt.svmStart ≤ e.base ∧ e.base + e.size ≤ pt.svmEnd)

/-- The entries are disjoint and in their ranges, and the hint is the end of the highest one
or, where none is above it, the start of the 64-bit range. -/
structure AddrInv (pt : KgslPagetable) : Prop where
  layout : pt.Layout
  below : pt.rbtree.toList.Pairwise Below
  size_pos : ∀ e ∈ pt.rbtree.toList, 0 < e.size
  inRange : ∀ e ∈ pt.rbtree.toList, pt.InRange e
  start_le : pt.vaStart ≤ pt.vaHint
  end_le : ∀ e ∈ pt.rbtree.toList, e.base + e.size ≤ pt.vaHint
  exact : pt.vaHint = pt.vaStart ∨ ∃ e ∈ pt.rbtree.toList, e.base + e.size = pt.vaHint

theorem AddrInv.alloc (svmBase32 : ℕ) (iopgtable isCompatTask : Bool) :
    AddrInv (kgslIopgtblPagetable svmBase32 iopgtable isCompatTask) where
  layout :=
    { va_pos := show 0 < kgslIommuVaBase64 by decide
      va_large := show 2 ^ 32 ≤ kgslIommuVaEnd64 by decide
      compat_le := show kgslIommuSvmEnd32 iopgtable ≤ kgslIommuVaBase64 by
        cases iopgtable <;> decide
      compat_lt := show kgslIommuSvmEnd32 iopgtable < 2 ^ 32 by cases iopgtable <;> decide
      svm_le := show (if isCompatTask then kgslIommuSvmEnd32 iopgtable else kgslIommuSvmEnd64) ≤
          kgslIommuVaBase64 by
        cases isCompatTask <;> cases iopgtable <;> decide }
  below := List.Pairwise.nil
  size_pos := fun e he => by cases he
  inRange := fun e he => by cases he
  start_le := Nat.le_refl _
  end_le := fun e he => by cases he
  exact := Or.inl rfl

theorem monotone_compare {entries : List KgslIommuAddrEntry} (h : entries.Pairwise Below)
    (k : ℕ) : SearchTree.Monotone (fun e => compare k e.base) entries := by
  refine h.imp ?_
  intro y z hyz
  rw [Below] at hyz
  simp only [Nat.compare_eq_lt, Nat.compare_eq_gt]
  omega

theorem monotone_svmSide {entries : List KgslIommuAddrEntry} (h : entries.Pairwise Below)
    (hsize : ∀ e ∈ entries, 0 < e.size) {gpuaddr size : ℕ} (hpos : 0 < size) :
    SearchTree.Monotone (svmSide gpuaddr size) entries := by
  refine h.imp_of_mem ?_
  intro y z hy hz hyz
  have hysize := hsize y hy
  have hzsize := hsize z hz
  rw [Below] at hyz
  simp only [svmSide]
  constructor
  · intro hlt
    split at hlt
    case isTrue hle =>
      rw [if_pos (by omega)]
    case isFalse => split at hlt <;> cases hlt
  · intro hgt
    split at hgt
    case isTrue => cases hgt
    case isFalse hnle =>
      split at hgt
      case isTrue hle => rw [if_neg (by omega), if_pos (by omega)]
      case isFalse => cases hgt

theorem insertGpuaddr_spec {rb : RbOps KgslIommuAddrEntry} (hrb : rb.Lawful)
    {pt : KgslPagetable} {new : KgslIommuAddrEntry} (hbelow : pt.rbtree.toList.Pairwise Below)
    (hpos : ∀ e ∈ pt.rbtree.toList, 0 < e.size) (hnew : 0 < new.size)
    (hfree : ∀ e ∈ pt.rbtree.toList, Below e new ∨ Below new e) :
    ∃ tree, insertGpuaddr rb pt new = ({ pt with rbtree := tree }, 0) ∧
      tree.toList.Perm (new :: pt.rbtree.toList) ∧ tree.toList.Pairwise Below := by
  rw [insertGpuaddr]
  cases hlink : pt.rbtree.link (fun entry => compare new.base entry.base) new with
  | none =>
    obtain ⟨e, he, heq⟩ := SearchTree.link_none hlink
    have hbase : new.base = e.base := Nat.compare_eq_eq.mp heq
    have hsize := hpos e he
    rcases hfree e he with h | h
    · rw [Below] at h
      omega
    · rw [Below] at h
      omega
  | some tree =>
    obtain ⟨hlist, -⟩ := SearchTree.link_some (monotone_compare hbelow new.base) hlink
    refine ⟨rb.insertColor tree, rfl, ?_, ?_⟩
    · rw [hrb.insertColor, hlist]
      exact insertBefore_perm _ _ _
    · rw [hrb.insertColor, hlist]
      refine pairwise_insertBefore hbelow ?_ ?_
      · intro e he hside
        have hlt : new.base < e.base := Nat.compare_eq_lt.mp (eq_of_beq hside)
        rcases hfree e he with h | h
        · rw [Below] at h
          omega
        · exact h
      · intro e he hside
        have hge : ¬ new.base < e.base := by
          intro hlt
          have hcmp : compare new.base e.base = .lt := Nat.compare_eq_lt.mpr hlt
          rw [hcmp] at hside
          cases hside
        rcases hfree e he with h | h
        · exact h
        · rw [Below] at h
          omega

section Steps

variable {rb : RbOps KgslIommuAddrEntry} {pt : KgslPagetable}

variable {hint bottom top gpuaddr : ℕ} {front back : List KgslIommuAddrEntry}

theorem AddrInv.insert (hrb : rb.Lawful) (h : AddrInv pt) {new : KgslIommuAddrEntry}
    (hnew : 0 < new.size) (hfree : ∀ e ∈ pt.rbtree.toList, Below e new ∨ Below new e)
    (hrange : pt.InRange new) (hle : pt.vaHint ≤ hint) (hend : new.base + new.size ≤ hint)
    (hhint : hint = pt.vaHint ∨ hint = new.base + new.size) :
    AddrInv (insertGpuaddr rb { pt with vaHint := hint } new).1 := by
  have hspec : ∃ tree, insertGpuaddr rb { pt with vaHint := hint } new =
      ({ pt with vaHint := hint, rbtree := tree }, 0) ∧
      tree.toList.Perm (new :: pt.rbtree.toList) ∧ tree.toList.Pairwise Below :=
    insertGpuaddr_spec hrb h.below h.size_pos hnew hfree
  obtain ⟨tree, heq, hperm, hbelow⟩ := hspec
  have hmem : ∀ e, e ∈ tree.toList ↔ e = new ∨ e ∈ pt.rbtree.toList := fun e =>
    hperm.mem_iff.trans mem_cons
  rw [heq]
  exact
    { layout := ⟨h.layout.1, h.layout.2, h.layout.3, h.layout.4, h.layout.5⟩
      below := hbelow
      size_pos := by
        intro e he
        rcases (hmem e).mp he with hin | hin
        · rwa [hin]
        · exact h.size_pos e hin
      inRange := by
        intro e he
        rcases (hmem e).mp he with hin | hin
        · rw [hin]
          exact hrange
        · exact h.inRange e hin
      start_le := Nat.le_trans h.start_le hle
      end_le := by
        intro e he
        rcases (hmem e).mp he with hin | hin
        · rwa [hin]
        · exact Nat.le_trans (h.end_le e hin) hle
      exact := by
        rcases hhint with hsame | hnewEnd
        · show hint = pt.vaStart ∨ _
          rw [hsame]
          rcases h.exact with hstart | ⟨e, he, hlast⟩
          · exact Or.inl hstart
          · exact Or.inr ⟨e, (hmem e).mpr (Or.inr he), hlast⟩
        · exact Or.inr ⟨new, (hmem new).mpr (Or.inl rfl), hnewEnd.symm⟩ }

theorem getUnmappedArea_ok (h : AddrInv pt) {size a addr : ℕ} {pt' : KgslPagetable} (ha : 0 < a)
    (hrange : (bottom = pt.vaStart ∧ top = pt.vaEnd) ∨ top = pt.compatVaEnd)
    (harea : pt.getUnmappedArea bottom top size a = (pt', .ok addr)) :
    ∃ hint, pt' = { pt with vaHint := hint } ∧ bottom ≤ addr ∧ addr + size ≤ top ∧
      (∀ e ∈ pt.rbtree.toList, e.base + e.size ≤ addr ∨ addr + size ≤ e.base) ∧
      pt.vaHint ≤ hint ∧ addr + size ≤ hint ∧ (hint = pt.vaHint ∨ hint = addr + size) := by
  have hstart := h.start_le
  have hpos := h.layout.va_pos
  have hcompat := h.layout.compat_le
  have hcompatLt := h.layout.compat_lt
  have hlarge := h.layout.va_large
  have halign := le_align ha pt.vaHint
  have hsearch : ∀ {start : ℕ}, searchRange (align bottom a) top size a pt.rbtree.toList
      (align bottom a) = .ok start → a ∣ start ∧ align bottom a ≤ start ∧ start + size ≤ top ∧
        ∀ e ∈ pt.rbtree.toList, e.base + e.size ≤ start ∨ start + size ≤ e.base := by
    intro start hok
    refine searchRange_ok ha h.below (dvd_align _) (Nat.le_refl _) (fun _ _ _ => rfl) ?_ hok
    exact ⟨bottom, rfl, fun e _ hbase => Nat.le_trans (le_align ha bottom) hbase⟩
  rw [getUnmappedArea, getUnmappedAreaHint] at harea
  by_cases hsmall : pt.vaHint = 0 ∨ top / 2 ^ 32 = 0
  · rw [if_pos hsmall] at harea
    obtain ⟨hpt, hres⟩ := Prod.mk.inj harea
    obtain ⟨-, hle, hfit, hfree⟩ := hsearch hres
    have htop : top = pt.compatVaEnd := by
      rcases hrange with ⟨-, htop⟩ | htop
      · rcases hsmall with hzero | hzero
        · omega
        · rw [Nat.div_eq_zero_iff] at hzero
          omega
      · exact htop
    exact ⟨pt.vaHint, hpt.symm, Nat.le_trans (le_align ha bottom) hle, hfit, hfree,
      Nat.le_refl _, by omega, Or.inl rfl⟩
  · rw [if_neg hsmall] at harea
    have hva : bottom = pt.vaStart ∧ top = pt.vaEnd := by
      rcases hrange with hva | htop
      · exact hva
      · refine absurd (Or.inr ?_) hsmall
        rw [htop]
        exact Nat.div_eq_of_lt hcompatLt
    by_cases hroom : align pt.vaHint a + size > top
    · rw [if_pos hroom] at harea
      obtain ⟨hpt, hres⟩ := Prod.mk.inj harea
      obtain ⟨hdvd, hle, hfit, hfree⟩ := hsearch hres
      have hunder : addr < align pt.vaHint a := by omega
      have hend : addr + size ≤ pt.vaHint := by
        -- behind the hint there was no room, so the free place is before its entry
        rcases h.exact with hexact | ⟨e, he, hexact⟩
        · rw [hexact] at hunder
          rw [hva.1] at hle
          omega
        · rcases hfree e he with hbefore | hafter
          · have hover := align_le hdvd (hexact ▸ hbefore)
            omega
          · have hsize := h.size_pos e he
            omega
      exact ⟨pt.vaHint, hpt.symm, Nat.le_trans (le_align ha bottom) hle, hfit, hfree,
        Nat.le_refl _, hend, Or.inl rfl⟩
    · rw [if_neg hroom] at harea
      obtain ⟨hpt, hres⟩ := Prod.mk.inj harea
      have haddr : align pt.vaHint a = addr := Except.ok.inj hres
      rw [haddr] at hpt halign hroom
      refine ⟨addr + size, hpt.symm, ?_, by omega, ?_, by omega, Nat.le_refl _, Or.inr rfl⟩
      · rw [hva.1]
        omega
      · intro e he
        have hend := h.end_le e he
        exact Or.inl (by omega)

theorem AddrInv.getGpuaddr (hrb : rb.Lawful) (h : AddrInv pt) {memory : Bool} {size a : ℕ}
    {origin : AddrRange} (ha : 0 < a) (hsize : 0 < size)
    (hrange : (bottom = pt.vaStart ∧ top = pt.vaEnd ∧ origin = .va) ∨
      (bottom = pt.compatVaStart ∧ top = pt.compatVaEnd ∧ origin = .compat)) :
    AddrInv (getGpuaddr rb pt memory bottom top size a origin).1 := by
  rw [KgslPagetable.getGpuaddr]
  split
  · exact h
  · cases harea : pt.getUnmappedArea bottom top size a with
    | mk pt' result =>
      cases result with
      | error ret =>
        have hsame : pt' = pt := by
          rw [getUnmappedArea, getUnmappedAreaHint] at harea
          split at harea
          case h_1 q start hhint =>
            split at hhint
            · cases hhint
            · split at hhint
              · cases hhint
              · cases harea
          case h_2 q err hhint =>
            split at hhint
            · cases hhint
              exact (Prod.mk.inj harea).1.symm
            · split at hhint
              · cases hhint
                exact (Prod.mk.inj harea).1.symm
              · cases hhint
        rw [hsame]
        exact h
      | ok addr =>
        obtain ⟨hint, hpt, hle, hfit, hfree, hraised, hend, hhint⟩ :=
          getUnmappedArea_ok h ha (hrange.imp (fun hva => ⟨hva.1, hva.2.1⟩) fun hc => hc.2.1) harea
        rw [hpt]
        refine h.insert hrb hsize hfree ?_ hraised hend hhint
        rcases hrange with ⟨hbottom, htop, horigin⟩ | ⟨hbottom, htop, horigin⟩
        · rw [horigin]
          exact ⟨hbottom ▸ hle, htop ▸ hfit⟩
        · rw [horigin]
          exact ⟨hbottom ▸ hle, htop ▸ hfit⟩

theorem AddrInv.kgslIommuGetGpuaddr (hrb : rb.Lawful) (h : AddrInv pt) {m : AddrRequest}
    (hsize : 0 < m.footprint) : AddrInv (kgslIommuGetGpuaddr rb pt m).1 := by
  have ha : 0 < 2 ^ m.alignBit := Nat.two_pow_pos _
  rw [KgslPagetable.kgslIommuGetGpuaddr]
  split
  · exact h
  · split
    · exact h
    · split
      · exact h.getGpuaddr hrb ha hsize (Or.inr ⟨rfl, rfl, rfl⟩)
      · exact h.getGpuaddr hrb ha hsize (Or.inl ⟨rfl, rfl, rfl⟩)

theorem svm_range_of_accepted {size : ℕ} (hg : gpuaddr < 2 ^ 64) (hs : size < 2 ^ 64)
    (h : pt.iommuAddrInSvmRanges gpuaddr size = true) :
    0 < size ∧ ((pt.compatVaStart ≤ gpuaddr ∧ gpuaddr + size ≤ pt.compatVaEnd) ∨
      (pt.svmStart ≤ gpuaddr ∧ gpuaddr + size ≤ pt.svmEnd)) := by
  rw [iommuAddrInSvmRanges] at h
  split at h
  case isTrue => cases h
  case isFalse hwrap =>
    have hsum : (gpuaddr + size) % 2 ^ 64 = gpuaddr + size := by omega
    rw [hsum] at h hwrap
    refine ⟨by omega, ?_⟩
    split at h
    case isTrue hcompat => exact Or.inl ⟨hcompat.1.1, hcompat.2.2⟩
    case isFalse =>
      have hsvm := of_decide_eq_true h
      exact Or.inr ⟨hsvm.1.1, hsvm.2.2⟩

theorem AddrInv.kgslIommuSetSvmRegion (hrb : rb.Lawful) (h : AddrInv pt) {size : ℕ}
    (memory busy : Bool) (hg : gpuaddr < 2 ^ 64) (hs : size < 2 ^ 64) :
    AddrInv (kgslIommuSetSvmRegion rb pt gpuaddr size memory busy).1 := by
  rw [KgslPagetable.kgslIommuSetSvmRegion]
  split
  case isTrue => exact h
  case isFalse haccepted =>
    have haccept : pt.iommuAddrInSvmRanges gpuaddr size = true := by simpa using haccepted
    obtain ⟨hpos, hrange⟩ := svm_range_of_accepted hg hs haccept
    split
    · exact h
    · split
      · exact h
      · split
        case h_1 => exact h
        case h_2 hnone =>
          have hfree := SearchTree.descend_none (monotone_svmSide h.below h.size_pos hpos) hnone
          have hend : gpuaddr + size ≤ pt.vaHint := by
            have hcompat := h.layout.compat_le
            have hsvm := h.layout.svm_le
            have hstart := h.start_le
            omega
          have hplace : ∀ e ∈ pt.rbtree.toList, Below e ⟨gpuaddr, size, .svm⟩ ∨
              Below ⟨gpuaddr, size, .svm⟩ e := by
            intro e he
            have hside := hfree e he
            rw [svmSide] at hside
            split at hside
            case isTrue hbefore => exact Or.inr hbefore
            case isFalse =>
              split at hside
              case isTrue hafter => exact Or.inl hafter
              case isFalse => exact absurd rfl hside
          exact h.insert hrb hpos hplace hrange (Nat.le_refl _) hend (Or.inl rfl)

theorem takeWhile_front {entry : KgslIommuAddrEntry} (h : entry ∉ front) :
    (front ++ entry :: back).takeWhile (fun e => e != entry) = front := by
  have hfront : ∀ e ∈ front, (e != entry) = true := by
    intro e he
    refine bne_iff_ne.mpr ?_
    intro heq
    exact h (heq ▸ he)
  rw [takeWhile_append_of_pos hfront, takeWhile_cons_of_neg (by simp), append_nil]

theorem end_le_of_getLast (hbelow : front.Pairwise Below) {prev e : KgslIommuAddrEntry}
    (hprev : front.getLast? = some prev) (he : e ∈ front) :
    e.base + e.size ≤ prev.base + prev.size := by
  obtain ⟨init, hinit⟩ := getLast?_eq_some_iff.mp hprev
  rw [hinit] at hbelow he
  rcases mem_append.mp he with hin | hlast
  · have hlt : e.base + e.size ≤ prev.base :=
      (pairwise_append.mp hbelow).2.2 e hin prev mem_cons_self
    omega
  · have heq : e = prev := mem_singleton.mp hlast
    exact Nat.le_of_eq (heq ▸ rfl)

theorem AddrInv.erased (h : AddrInv pt) {entry : KgslIommuAddrEntry}
    {tree : SearchTree KgslIommuAddrEntry} (hlist : pt.rbtree.toList = front ++ entry :: back)
    (htree : tree.toList = front ++ back) (hstart : pt.vaStart ≤ hint)
    (hend : ∀ e ∈ front ++ back, e.base + e.size ≤ hint)
    (hexact : hint = pt.vaStart ∨ ∃ e ∈ front ++ back, e.base + e.size = hint) :
    AddrInv { pt with vaHint := hint, rbtree := tree } := by
  have hsub : Sublist (front ++ back) pt.rbtree.toList := by
    rw [hlist]
    exact (Sublist.refl front).append (sublist_cons_self entry back)
  exact
    { layout := ⟨h.layout.1, h.layout.2, h.layout.3, h.layout.4, h.layout.5⟩
      below := by
        show tree.toList.Pairwise Below
        rw [htree]
        exact h.below.sublist hsub
      size_pos := by
        intro e he
        exact h.size_pos e (hsub.subset (htree ▸ he))
      inRange := by
        intro e he
        exact h.inRange e (hsub.subset (htree ▸ he))
      start_le := hstart
      end_le := by
        intro e he
        exact hend e (htree ▸ he)
      exact := by
        show hint = pt.vaStart ∨ ∃ e ∈ tree.toList, e.base + e.size = hint
        rw [htree]
        exact hexact }

theorem AddrInv.kgslIommuPutGpuaddr (hrb : rb.Lawful) (h : AddrInv pt) (gpuaddr : ℕ) :
    AddrInv (kgslIommuPutGpuaddr rb pt gpuaddr) := by
  rw [KgslPagetable.kgslIommuPutGpuaddr, removeGpuaddr]
  split
  case h_1 => exact h
  case h_2 entry hfind =>
    have hmem : entry ∈ pt.rbtree.toList := (SearchTree.descend_some hfind).1
    obtain ⟨front, back, hnotMem, hlist, herase⟩ := exists_erase_eq hmem
    have htree : (rb.erase pt.rbtree entry).toList = front ++ back := by
      rw [hrb.erase, herase]
    have hin : ∀ e ∈ front ++ back, e ∈ pt.rbtree.toList := by
      intro e he
      rw [hlist, mem_append, mem_cons]
      exact (mem_append.mp he).imp_right Or.inr
    by_cases htop : pt.vaHint = entry.base + entry.size
    case pos =>
      have hback : back = [] := by
        refine eq_nil_iff_forall_not_mem.mpr ?_
        intro z hz
        have hzin := hin z (mem_append_right _ hz)
        have hbelow := h.below
        rw [hlist] at hbelow
        have hafter : entry.base + entry.size ≤ z.base :=
          (pairwise_cons.mp (pairwise_append.mp hbelow).2.1).1 z hz
        have hzend := h.end_le z hzin
        have hzsize := h.size_pos z hzin
        omega
      have hfront : front.Pairwise Below := by
        have hbelow := h.below
        rw [hlist] at hbelow
        exact (pairwise_append.mp hbelow).1
      have hprev : pt.rbPrev entry = front.getLast? := by
        rw [rbPrev, hlist, takeWhile_front hnotMem]
      rw [hback, append_nil] at htree
      rw [if_pos htop, hprev]
      refine h.erased hlist (by rw [htree, hback, append_nil]) ?_ ?_ ?_
      · split
        · exact Nat.le_max_right _ _
        · exact Nat.le_refl _
      · rw [hback, append_nil]
        intro e he
        split
        case h_1 prev hlast =>
          exact Nat.le_trans (end_le_of_getLast hfront hlast he) (Nat.le_max_left _ _)
        case h_2 hnone =>
          rw [getLast?_eq_none_iff.mp hnone] at he
          cases he
      · rw [hback, append_nil]
        split
        case h_1 prev hlast =>
          rcases Nat.le_total (prev.base + prev.size) pt.vaStart with hle | hle
          · exact Or.inl (Nat.max_eq_right hle)
          · exact Or.inr ⟨prev, mem_of_getLast? hlast, (Nat.max_eq_left hle).symm⟩
        case h_2 => exact Or.inl rfl
    case neg =>
      rw [if_neg htop]
      refine h.erased hlist htree h.start_le (fun e he => h.end_le e (hin e he)) ?_
      rcases h.exact with hstart | ⟨e, he, hlast⟩
      · exact Or.inl hstart
      · refine Or.inr ⟨e, ?_, hlast⟩
        rw [hlist, mem_append, mem_cons] at he
        rcases he with hfront | heq | hback
        · exact mem_append_left _ hfront
        · exact absurd (heq ▸ hlast.symm) htop
        · exact mem_append_right _ hback

/-! ## Runs -/

inductive AddrOp where
  | get (m : AddrRequest)
  | setSvm (gpuaddr size : ℕ) (memory busy : Bool)
  | put (gpuaddr : ℕ)
deriving Repr, DecidableEq

/-- Sizes are positive, and addresses and sizes are 64-bit values. -/
def AddrOp.WellFormed : AddrOp → Prop
  | .get m => 0 < m.footprint
  | .setSvm gpuaddr size _ _ => gpuaddr < 2 ^ 64 ∧ size < 2 ^ 64
  | .put _ => True

instance (op : AddrOp) : Decidable op.WellFormed := by
  cases op <;> unfold AddrOp.WellFormed <;> infer_instance

def addrStep (rb : RbOps KgslIommuAddrEntry) (pt : KgslPagetable) : AddrOp → KgslPagetable
  | .get m => (KgslPagetable.kgslIommuGetGpuaddr rb pt m).1
  | .setSvm gpuaddr size memory busy =>
    (KgslPagetable.kgslIommuSetSvmRegion rb pt gpuaddr size memory busy).1
  | .put gpuaddr => KgslPagetable.kgslIommuPutGpuaddr rb pt gpuaddr

theorem AddrInv.addrStep (hrb : rb.Lawful) (h : AddrInv pt) {op : AddrOp}
    (hop : op.WellFormed) : AddrInv (addrStep rb pt op) := by
  cases op with
  | get m => exact h.kgslIommuGetGpuaddr hrb hop
  | setSvm gpuaddr size memory busy => exact h.kgslIommuSetSvmRegion hrb memory busy hop.1 hop.2
  | put gpuaddr => exact h.kgslIommuPutGpuaddr hrb gpuaddr

end Steps

/-- In every run the entries of a pagetable are disjoint, each is inside the range it was
requested from, and the hint is not below the end of an entry of the 64-bit range. -/
theorem gpuaddr_entries_disjoint {rb : RbOps KgslIommuAddrEntry} (hrb : rb.Lawful)
    (svmBase32 : ℕ) (iopgtable isCompatTask : Bool) {pt : KgslPagetable}
    (hrun : Relation.ReflTransGen (GuardedStep (fun _ op => op.WellFormed) (addrStep rb))
      (kgslIopgtblPagetable svmBase32 iopgtable isCompatTask) pt) :
    pt.rbtree.toList.Pairwise (fun x y => x.base + x.size ≤ y.base) ∧
      (∀ e ∈ pt.rbtree.toList, 0 < e.size ∧ pt.InRange e) ∧
      ∀ e ∈ pt.rbtree.toList, pt.vaStart ≤ e.base → e.base + e.size ≤ pt.vaHint := by
  have h : AddrInv pt := invariant_of_guarded (fun _ _ hinv hop => hinv.addrStep hrb hop)
    (AddrInv.alloc svmBase32 iopgtable isCompatTask) hrun
  exact ⟨h.below, fun e he => ⟨h.size_pos e he, h.inRange e he⟩, fun e he _ => h.end_le e he⟩

def vaRequest (footprint alignBit : ℕ) : AddrRequest :=
  { useCpuMap := false, secure := false, force32bit := false, footprint := footprint,
    alignBit := alignBit, memory := true }

def sampleAddrOps : List AddrOp :=
  [.get (vaRequest 0x1000 12), .get (vaRequest 0x3000 16),
    .setSvm 0x3ffffff000 0x1000 true false, .put 0x4000010000]

theorem gpuaddr_entries_disjoint_sample :
    let pt := sampleAddrOps.foldl (addrStep .unbalanced) (kgslIopgtblPagetable 0x300000 true false)
    pt.rbtree.toList.length = 2 ∧
      pt.rbtree.toList.Pairwise (fun x y => x.base + x.size ≤ y.base) ∧
      (∀ e ∈ pt.rbtree.toList, 0 < e.size ∧ pt.InRange e) ∧
      ∀ e ∈ pt.rbtree.toList, pt.vaStart ≤ e.base → e.base + e.size ≤ pt.vaHint :=
  ⟨by decide +kernel, gpuaddr_entries_disjoint RbOps.unbalanced_lawful 0x300000 true false
    (guarded_foldl (by decide +kernel))⟩

end KgslPagetable

end QcomModules.Kgsl
