import QcomModules.Kgsl.Vbo
import QcomModules.Library.Runs

/-! Binding refines a page map: the ranges of the tree say which child each page is mapped
to. -/

namespace QcomModules.Kgsl

open Library List

/-- The nodes of a range tree are disjoint intervals in order. -/
abbrev RangeTree (ranges : List BindRange) : Prop :=
  DisjointTree BindRange.start BindRange.last ranges

/-- The first byte of page `p` is in the range. -/
def BindRange.Covers (r : BindRange) (p : ℕ) : Prop :=
  r.start ≤ p * pageSize ∧ p * pageSize ≤ r.last

/-- Page `p` is in a range bound to `entry`. -/
def BoundTo (ranges : List BindRange) (p entry : ℕ) : Prop :=
  ∃ r ∈ ranges, r.entry = entry ∧ r.Covers p

/-- How many ranges name `entry`. -/
def naming (ranges : List BindRange) (entry : ℕ) : ℕ :=
  ranges.countP fun r => decide (r.entry = entry)

/-! ## One range -/

/-- What is left of `cur` outside of `start` to `last`. -/
def leftOver (start last : ℕ) (cur : BindRange) : List BindRange :=
  (if cur.start < start then [{ cur with last := start - 1 }] else []) ++
    (if last < cur.last then [{ cur with start := last + 1 }] else [])

namespace KgslVbo

variable {mmu : KgslMmu} {start last : ℕ} {vbo : KgslVbo} {cur : BindRange}

/-- `vbo` after `cur`, which is not in its tree, was trimmed. -/
structure Trimmed (start last : ℕ) (vbo : KgslVbo) (cur : BindRange) (vbo' : KgslVbo) : Prop where
  size : vbo'.size = vbo.size
  noMapZero : vbo'.noMapZero = vbo.noMapZero
  tree : RangeTree vbo'.ranges
  perm : vbo'.ranges.Perm (leftOver start last cur ++ vbo.ranges)
  pages : vbo'.pages =
    if vbo.noMapZero then
      unmapPages vbo.pages (max start cur.start) (min last cur.last - max start cur.start + 1)
    else vbo.pages
  vboCount : ∀ entry, vbo'.vboCount entry = vbo.vboCount entry +
    if entry = cur.entry then ((leftOver start last cur).length : ℤ) - 1 else 0

theorem unmapOverlap_eq (hmmu : mmu.Exact) (vbo : KgslVbo) (start len : ℕ) :
    unmapOverlap mmu vbo start len =
      (0, { vbo with pages :=
        if vbo.noMapZero then unmapPages vbo.pages start len else vbo.pages }) := by
  rw [unmapOverlap]
  split
  · rw [hmmu.unmapRange]
  · rfl

theorem treeInsert_perm (r : BindRange) (ranges : List BindRange) :
    (treeInsert BindRange.start r ranges).Perm (r :: ranges) := insertBefore_perm _ _ _

variable {ranges : List BindRange} {r : BindRange} {base : ℕ → ℤ}

theorem insert_part (htree : RangeTree ranges)
    (hfree : ∀ y ∈ ranges, cur.last < y.start ∨ y.last < cur.start) (hr : r.start ≤ r.last)
    (hstart : cur.start ≤ r.start) (hlast : r.last ≤ cur.last) :
    RangeTree (treeInsert BindRange.start r ranges) := by
  refine htree.insert hr ?_
  intro y hy
  rcases hfree y hy with hbefore | hafter
  · exact Or.inl (Nat.lt_of_le_of_lt hlast hbefore)
  · exact Or.inr (Nat.lt_of_lt_of_le hafter hstart)

theorem trimRange_spec (hmmu : mmu.Exact) (hle : start ≤ last)
    (hover : cur.start ≤ last ∧ start ≤ cur.last) (htree : RangeTree vbo.ranges)
    (hfree : ∀ y ∈ vbo.ranges, cur.last < y.start ∨ y.last < cur.start) :
    (trimRange mmu start last vbo cur).1 = 0 ∧
      Trimmed start last vbo cur (trimRange mmu start last vbo cur).2 := by
  rw [trimRange]
  split
  case isTrue hstart =>
    have hmax : max start cur.start = cur.start := Nat.max_eq_right hstart
    have hleft : ¬ cur.start < start := by omega
    split
    case isTrue hlast =>
      have hright : ¬ last < cur.last := by omega
      simp only [unmapOverlap_eq hmmu, ne_eq, not_true_eq_false, if_false]
      refine ⟨trivial, ?_⟩
      exact
        { size := rfl
          noMapZero := rfl
          tree := htree
          perm := by
            rw [leftOver, if_neg hleft, if_neg hright]
            exact Perm.refl _
          pages := by
            rw [hmax, Nat.min_eq_right hlast]
            rfl
          vboCount := by
            intro entry
            rw [leftOver, if_neg hleft, if_neg hright]
            by_cases heq : entry = cur.entry
            · subst heq
              simp [bindRangeDestroy, count]
            · simp [bindRangeDestroy, count, heq] }
    case isFalse hlast =>
      have hright : last < cur.last := by omega
      simp only [unmapOverlap_eq hmmu, ne_eq, not_true_eq_false, if_false]
      refine ⟨trivial, ?_⟩
      exact
        { size := rfl
          noMapZero := rfl
          tree := insert_part htree hfree (by show last + 1 ≤ cur.last; omega)
            (by show cur.start ≤ last + 1; omega) (Nat.le_refl _)
          perm := by
            rw [leftOver, if_neg hleft, if_pos hright]
            exact treeInsert_perm _ _
          pages := by
            rw [hmax, Nat.min_eq_left (by omega)]
            rfl
          vboCount := by
            intro entry
            rw [leftOver, if_neg hleft, if_pos hright]
            simp [insert] }
  case isFalse hstart =>
    have hmax : max start cur.start = start := Nat.max_eq_left (by omega)
    have hleft : cur.start < start := by omega
    by_cases hright : last < cur.last
    · simp only [if_pos hright, unmapOverlap_eq hmmu, ne_eq, not_true_eq_false, if_false]
      refine ⟨trivial, ?_⟩
      have htree' : RangeTree
          (treeInsert BindRange.start { cur with start := last + 1 } vbo.ranges) :=
        insert_part htree hfree (by show last + 1 ≤ cur.last; omega)
          (by show cur.start ≤ last + 1; omega) (Nat.le_refl _)
      exact
        { size := rfl
          noMapZero := rfl
          tree := by
            refine htree'.insert (by show cur.start ≤ start - 1; omega) ?_
            intro y hy
            rcases mem_insertBefore.mp hy with heq | hold
            · rw [heq]
              exact Or.inl (by show start - 1 < last + 1; omega)
            · rcases hfree y hold with hbefore | hafter
              · exact Or.inl (by show start - 1 < y.start; omega)
              · exact Or.inr hafter
          perm := by
            rw [leftOver, if_pos hleft, if_pos hright]
            exact (treeInsert_perm _ _).trans ((treeInsert_perm _ _).cons _)
          pages := by
            rw [hmax, Nat.min_comm]
            rfl
          vboCount := by
            intro entry
            rw [leftOver, if_pos hleft, if_pos hright]
            by_cases heq : entry = cur.entry
            · subst heq
              simp [bindRangeCreate, insert, count]
            · simp [bindRangeCreate, insert, count, heq] }
    · simp only [if_neg hright, unmapOverlap_eq hmmu, ne_eq, not_true_eq_false, if_false]
      refine ⟨trivial, ?_⟩
      exact
        { size := rfl
          noMapZero := rfl
          tree := insert_part htree hfree (by show cur.start ≤ start - 1; omega)
            (Nat.le_refl _) (by show start - 1 ≤ cur.last; omega)
          perm := by
            rw [leftOver, if_pos hleft, if_neg hright]
            exact treeInsert_perm _ _
          pages := by
            rw [hmax, Nat.min_comm]
            rfl
          vboCount := by
            intro entry
            rw [leftOver, if_pos hleft, if_neg hright]
            simp [insert] }

/-! ## What trimming leaves -/

theorem mem_leftOver (h : r ∈ leftOver start last cur) :
    r.entry = cur.entry ∧ (r.last < start ∨ last < r.start) ∧
      (start ≤ cur.last → r.last ≤ cur.last) := by
  rw [leftOver, mem_append] at h
  rcases h with h | h
  · split at h
    · rw [mem_singleton.mp h]
      exact ⟨rfl, Or.inl (by show start - 1 < start; omega),
        fun hlast => by show start - 1 ≤ cur.last; omega⟩
    · cases h
  · split at h
    · rw [mem_singleton.mp h]
      exact ⟨rfl, Or.inr (Nat.lt_succ_self _), fun _ => Nat.le_refl _⟩
    · cases h

theorem leftOver_covers (hover : cur.start ≤ last ∧ start ≤ cur.last) {p : ℕ} :
    (∃ r ∈ leftOver start last cur, r.Covers p) ↔
      cur.Covers p ∧ ¬ (start ≤ p * pageSize ∧ p * pageSize ≤ last) := by
  constructor
  · intro hleft
    obtain ⟨r, hr, hcovers⟩ := hleft
    rw [leftOver, mem_append] at hr
    rcases hr with hr | hr
    · split at hr
      · rw [mem_singleton.mp hr] at hcovers
        have hlow : cur.start ≤ p * pageSize := hcovers.1
        have hhigh : p * pageSize ≤ start - 1 := hcovers.2
        exact ⟨⟨hlow, by omega⟩, by omega⟩
      · cases hr
    · split at hr
      · rw [mem_singleton.mp hr] at hcovers
        have hlow : last + 1 ≤ p * pageSize := hcovers.1
        have hhigh : p * pageSize ≤ cur.last := hcovers.2
        exact ⟨⟨by omega, hhigh⟩, by omega⟩
      · cases hr
  · intro hcur
    obtain ⟨⟨hlow, hhigh⟩, hout⟩ := hcur
    by_cases hbefore : p * pageSize < start
    · refine ⟨{ cur with last := start - 1 }, ?_, hlow, ?_⟩
      · rw [leftOver, if_pos (by omega)]
        exact mem_append_left _ (mem_singleton_self _)
      · show p * pageSize ≤ start - 1
        omega
    · refine ⟨{ cur with start := last + 1 }, ?_, ?_, hhigh⟩
      · rw [leftOver, if_pos (show last < cur.last by omega)]
        exact mem_append_right _ (mem_singleton_self _)
      · show last + 1 ≤ p * pageSize
        omega

theorem naming_leftOver (entry : ℕ) : naming (leftOver start last cur) entry =
    if entry = cur.entry then (leftOver start last cur).length else 0 := by
  rw [naming]
  split
  case isTrue heq =>
    rw [countP_eq_length]
    intro r hr
    rw [(mem_leftOver hr).1, heq]
    exact decide_eq_true rfl
  case isFalse hne =>
    rw [countP_eq_zero]
    intro r hr
    rw [(mem_leftOver hr).1, decide_eq_true_iff]
    exact fun heq => hne heq.symm

theorem naming_erase (hcur : cur ∈ ranges) (entry : ℕ) :
    naming ranges entry =
      naming (ranges.erase cur) entry + if entry = cur.entry then 1 else 0 := by
  rw [naming, (perm_cons_erase hcur).countP_eq, countP_cons, naming]
  by_cases heq : entry = cur.entry
  · rw [if_pos heq, if_pos (decide_eq_true heq.symm)]
  · rw [if_neg heq, if_neg (by rw [decide_eq_true_iff]; exact fun h => heq h.symm)]

/-! ## The walk -/

def InCall (start last p : ℕ) : Prop := start ≤ p * pageSize ∧ p * pageSize ≤ last

/-- Half way through the walk: the ranges that still overlap are those from `next` on, pages
outside of the call and what they are bound to are as they were, and pages inside are still
mapped only where a range is left for them. -/
structure Walk (vbo₀ : KgslVbo) (start last : ℕ) (vbo : KgslVbo) (next : Option BindRange) :
    Prop where
  size : vbo.size = vbo₀.size
  noMapZero : vbo.noMapZero = vbo₀.noMapZero
  tree : RangeTree vbo.ranges
  inside : ∀ r ∈ vbo.ranges, r.last < vbo₀.size
  next_mem : ∀ cur, next = some cur →
    cur ∈ vbo.ranges ∧ overlaps BindRange.start BindRange.last start last cur = true
  ahead : ∀ r ∈ vbo.ranges, overlaps BindRange.start BindRange.last start last r = true →
    ∃ cur, next = some cur ∧ (r = cur ∨ cur.start < r.start)
  pages_out : ∀ p, ¬ InCall start last p → vbo.pages p = vbo₀.pages p
  bound_out : ∀ p, ¬ InCall start last p → ∀ entry,
    BoundTo vbo.ranges p entry ↔ BoundTo vbo₀.ranges p entry
  bound_in : ∀ p, InCall start last p → ∀ entry page, vbo.pages p = .child entry page →
    vbo₀.noMapZero = true ∧ BoundTo vbo.ranges p entry
  vboCount : ∀ entry, vbo.vboCount entry - naming vbo.ranges entry =
    vbo₀.vboCount entry - naming vbo₀.ranges entry

theorem boundTo_perm {xs ys : List BindRange} (h : xs.Perm ys) (p entry : ℕ) :
    BoundTo xs p entry ↔ BoundTo ys p entry := by
  simp only [BoundTo, h.mem_iff]

theorem boundTo_append (xs ys : List BindRange) (p entry : ℕ) :
    BoundTo (xs ++ ys) p entry ↔ BoundTo xs p entry ∨ BoundTo ys p entry := by
  simp only [BoundTo, mem_append, or_and_right, exists_or]

theorem not_overlaps_leftOver (h : r ∈ leftOver start last cur) :
    overlaps BindRange.start BindRange.last start last r ≠ true := by
  rw [ne_eq, overlaps_iff]
  obtain ⟨-, hout, -⟩ := mem_leftOver h
  omega

section WalkStep

variable {vbo₀ : KgslVbo}

theorem boundTo_leftOver (hover : cur.start ≤ last ∧ start ≤ cur.last) (p entry : ℕ) :
    BoundTo (leftOver start last cur) p entry ↔
      (cur.entry = entry ∧ cur.Covers p) ∧ ¬ InCall start last p := by
  constructor
  · intro hbound
    obtain ⟨r, hr, hentry, hcovers⟩ := hbound
    obtain ⟨hcur, hout⟩ := (leftOver_covers hover).mp ⟨r, hr, hcovers⟩
    exact ⟨⟨(mem_leftOver hr).1.symm.trans hentry, hcur⟩, hout⟩
  · intro hcur
    obtain ⟨r, hr, hcovers⟩ := (leftOver_covers hover).mpr ⟨hcur.1.2, hcur.2⟩
    exact ⟨r, hr, (mem_leftOver hr).1.trans hcur.1.1, hcovers⟩

theorem boundTo_erase {ranges : List BindRange} (hcur : cur ∈ ranges) (p entry : ℕ) :
    BoundTo ranges p entry ↔
      (cur.entry = entry ∧ cur.Covers p) ∨ BoundTo (ranges.erase cur) p entry := by
  rw [boundTo_perm (perm_cons_erase hcur), BoundTo]
  simp only [mem_cons, exists_eq_or_imp]
  rfl

theorem Walk.step (hmmu : mmu.Exact) (hle : start ≤ last)
    (h : Walk vbo₀ start last vbo (some cur)) :
    let r := trimRange mmu start last (vbo.remove cur) cur
    r.1 = 0 ∧
      Walk vbo₀ start last r.2
        (iterNext BindRange.start BindRange.last vbo.ranges cur start last) ∧
      r.2.ranges.Perm (leftOver start last cur ++ vbo.ranges.erase cur) := by
  intro r
  obtain ⟨hmem, hcurOver⟩ := h.next_mem cur rfl
  have hover := overlaps_iff.mp hcurOver
  have herase : RangeTree (vbo.ranges.erase cur) := h.tree.erase cur
  have hnotMem : cur ∉ vbo.ranges.erase cur := h.tree.nodup.not_mem_erase
  have hfree : ∀ y ∈ (vbo.remove cur).ranges, cur.last < y.start ∨ y.last < cur.start := by
    intro y hy
    refine h.tree.disjoint hmem (erase_subset hy) ?_
    intro heq
    exact hnotMem (heq ▸ hy)
  obtain ⟨hzero, htrim⟩ := trimRange_spec hmmu hle hover herase hfree
  have hperm : r.2.ranges.Perm (leftOver start last cur ++ vbo.ranges.erase cur) := htrim.perm
  refine ⟨hzero, ?_, hperm⟩
  exact
    { size := htrim.size.trans h.size
      noMapZero := htrim.noMapZero.trans h.noMapZero
      tree := htrim.tree
      inside := by
        intro y hy
        rcases mem_append.mp (hperm.mem_iff.mp hy) with hpart | hold
        · exact Nat.lt_of_le_of_lt ((mem_leftOver hpart).2.2 hover.2) (h.inside cur hmem)
        · exact h.inside y (erase_subset hold)
      next_mem := by
        intro y hnext
        obtain ⟨hy, hyover, hlt, -⟩ := h.tree.iterNext_some hmem hnext
        have hne : y ≠ cur := by
          intro heq
          rw [heq] at hlt
          omega
        exact ⟨hperm.mem_iff.mpr (mem_append_right _
          ((mem_erase_of_ne hne).mpr hy)), hyover⟩
      ahead := by
        intro y hy hyover
        rcases mem_append.mp (hperm.mem_iff.mp hy) with hpart | hold
        · exact absurd hyover (not_overlaps_leftOver hpart)
        · have hne : y ≠ cur := fun heq => hnotMem (heq ▸ hold)
          obtain ⟨c, hc, hbehind⟩ := h.ahead y (erase_subset hold) hyover
          have hlt : cur.start < y.start := by
            cases hc
            exact hbehind.resolve_left hne
          cases hnext : iterNext BindRange.start BindRange.last vbo.ranges cur start last with
          | none =>
            have hnot := h.tree.iterNext_none hmem hnext y (erase_subset hold) hlt
            rw [hyover] at hnot
            cases hnot
          | some z =>
            have hfirst := (h.tree.iterNext_some hmem hnext).2.2.2
            exact ⟨z, rfl, hfirst y (erase_subset hold) hyover hlt⟩
      pages_out := by
        intro p hp
        rw [htrim.pages, ← h.pages_out p hp]
        split
        · rw [unmapPages, if_neg]
          · rfl
          · intro hbytes
            obtain ⟨hlow, hhigh⟩ := hbytes
            refine hp ⟨?_, ?_⟩
            · exact Nat.le_trans (Nat.le_max_left _ _) hlow
            · omega
        · rfl
      bound_out := by
        intro p hp entry
        rw [boundTo_perm hperm, boundTo_append, boundTo_leftOver hover, and_iff_left hp,
          ← boundTo_erase hmem]
        exact h.bound_out p hp entry
      bound_in := by
        intro p hp entry page hchild
        rw [htrim.pages] at hchild
        split at hchild
        case isTrue hnoMap =>
          rw [unmapPages] at hchild
          split at hchild
          case isTrue => cases hchild
          case isFalse hbytes =>
            obtain ⟨hmode, hbound⟩ := h.bound_in p hp entry page hchild
            refine ⟨hmode, (boundTo_perm hperm p entry).mpr ?_⟩
            rw [boundTo_append]
            rcases (boundTo_erase hmem p entry).mp hbound with ⟨-, hcovers⟩ | hrest
            · refine absurd ?_ hbytes
              obtain ⟨hlow, hhigh⟩ := hp
              obtain ⟨hlow', hhigh'⟩ := hcovers
              exact ⟨Nat.max_le.mpr ⟨hlow, hlow'⟩, by omega⟩
            · exact Or.inr hrest
        case isFalse hmapped =>
          obtain ⟨hmode, -⟩ := h.bound_in p hp entry page hchild
          exact absurd (h.noMapZero.trans hmode) hmapped
      vboCount := by
        intro entry
        have hcount : naming r.2.ranges entry =
            naming (leftOver start last cur) entry + naming (vbo.ranges.erase cur) entry := by
          rw [naming, hperm.countP_eq, countP_append]
          rfl
        have hold := h.vboCount entry
        have hbefore := naming_erase hmem entry
        have hnew := htrim.vboCount entry
        rw [naming_leftOver] at hcount
        rw [hnew, hcount, ← hold, hbefore]
        show vbo.vboCount entry + _ - _ = _
        split <;> push_cast <;> omega }

theorem Walk.run (hmmu : mmu.Exact) (hle : start ≤ last) (fuel : ℕ) {next : Option BindRange}
    (h : Walk vbo₀ start last vbo next)
    (hfuel : vbo.ranges.countP (overlaps BindRange.start BindRange.last start last) ≤ fuel) :
    (walkRanges mmu start last fuel vbo next).1 = 0 ∧
      Walk vbo₀ start last (walkRanges mmu start last fuel vbo next).2 none := by
  induction fuel generalizing vbo next with
  | zero =>
    cases next with
    | none => exact ⟨rfl, h⟩
    | some cur =>
      obtain ⟨hmem, hover⟩ := h.next_mem cur rfl
      have hpos := countP_pos_iff.mpr ⟨cur, hmem, hover⟩
      omega
  | succ fuel ih =>
    cases next with
    | none => exact ⟨rfl, h⟩
    | some cur =>
      obtain ⟨hmem, hover⟩ := h.next_mem cur rfl
      obtain ⟨hzero, hstep, hperm⟩ := h.step hmmu hle
      have hcount := (perm_cons_erase hmem).countP_eq
        (overlaps BindRange.start BindRange.last start last)
      rw [countP_cons, if_pos hover] at hcount
      have hparts : (leftOver start last cur).countP
          (overlaps BindRange.start BindRange.last start last) = 0 :=
        countP_eq_zero.mpr fun _ => not_overlaps_leftOver
      rw [walkRanges, if_neg (fun hne => hne hzero)]
      refine ih hstep ?_
      rw [hperm.countP_eq, countP_append, hparts]
      omega

end WalkStep

/-! ## One call -/

/-- The ranges are disjoint and inside the virtual buffer, and a page is mapped to a child
exactly when it is in a range bound to it. -/
structure Bound (base : ℕ → ℤ) (vbo : KgslVbo) : Prop where
  tree : RangeTree vbo.ranges
  inside : ∀ r ∈ vbo.ranges, r.last < vbo.size
  pages : ∀ p entry, (∃ page, vbo.pages p = .child entry page) ↔ BoundTo vbo.ranges p entry
  vboCount : ∀ entry, vbo.vboCount entry = base entry + naming vbo.ranges entry

theorem inBytes_iff (hle : start ≤ last) (p : ℕ) :
    InBytes start (last - start + 1) p ↔ InCall start last p := by
  rw [InBytes, InCall]
  omega

theorem unmapCall_eq (hmmu : mmu.Exact) (vbo : KgslVbo) (start len : ℕ) :
    unmapCall mmu vbo start len =
      (0, { vbo with pages :=
        if vbo.noMapZero then vbo.pages else unmapPages vbo.pages start len }) := by
  rw [unmapCall]
  by_cases hmode : vbo.noMapZero = true
  · rw [if_neg (by simp [hmode]), if_pos hmode]
  · rw [if_pos (by simpa using hmode), if_neg hmode, hmmu.unmapRange]

theorem Walk.first (hmmu : mmu.Exact) (hle : start ≤ last) (htree : RangeTree vbo.ranges)
    (hinside : ∀ r ∈ vbo.ranges, r.last < vbo.size)
    (hpages : ∀ p entry, (∃ page, vbo.pages p = .child entry page) ↔
      BoundTo vbo.ranges p entry) :
    Walk vbo start last (unmapCall mmu vbo start (last - start + 1)).2
      (iterFirst BindRange.start BindRange.last vbo.ranges start last) := by
  rw [unmapCall_eq hmmu]
  exact
    { size := rfl
      noMapZero := rfl
      tree := htree
      inside := hinside
      next_mem := by
        intro cur hfirst
        obtain ⟨hmem, hover, -⟩ := htree.iterFirst_some hfirst
        exact ⟨hmem, hover⟩
      ahead := by
        intro r hr hover
        cases hfirst : iterFirst BindRange.start BindRange.last vbo.ranges start last with
        | none =>
          have hnot := DisjointTree.iterFirst_none hfirst r hr
          rw [hover] at hnot
          cases hnot
        | some cur => exact ⟨cur, rfl, (htree.iterFirst_some hfirst).2.2 r hr hover⟩
      pages_out := by
        intro p hp
        show (if vbo.noMapZero then vbo.pages else _) p = vbo.pages p
        split
        · rfl
        · rw [unmapPages, if_neg (fun hin => hp ((inBytes_iff hle p).mp hin))]
      bound_out := fun _ _ _ => Iff.rfl
      bound_in := by
        intro p hp entry page hchild
        change (if vbo.noMapZero then vbo.pages else _) p = _ at hchild
        split at hchild
        case isTrue hmode => exact ⟨hmode, (hpages p entry).mp ⟨page, hchild⟩⟩
        case isFalse =>
          rw [unmapPages, if_pos ((inBytes_iff hle p).mpr hp)] at hchild
          cases hchild
      vboCount := fun _ => rfl }

theorem Walk.clear {vbo₀ : KgslVbo} (h : Walk vbo₀ start last vbo none) :
    (∀ r ∈ vbo.ranges, last < r.start ∨ r.last < start) ∧
      ∀ p, InCall start last p → ∀ entry page, vbo.pages p ≠ .child entry page := by
  have hfree : ∀ r ∈ vbo.ranges, last < r.start ∨ r.last < start := by
    intro r hr
    by_contra hnot
    have hover : overlaps BindRange.start BindRange.last start last r = true :=
      overlaps_iff.mpr (by omega)
    obtain ⟨cur, hcur, -⟩ := h.ahead r hr hover
    cases hcur
  refine ⟨hfree, ?_⟩
  intro p hp entry page hchild
  obtain ⟨-, r, hr, -, hcovers⟩ := h.bound_in p hp entry page hchild
  obtain ⟨hlow, hhigh⟩ := hp
  obtain ⟨hlow', hhigh'⟩ := hcovers
  rcases hfree r hr with hafter | hbefore
  · omega
  · omega

theorem addRange_eq (hmmu : mmu.Exact) (hle : start ≤ last) (h : Bound base vbo)
    (entry offset : ℕ) :
    ∃ w, Walk (vbo.bindRangeCreate entry) start last w none ∧
      addRange mmu vbo start last entry offset (.ok ()) =
        (0, { w with
          pages := mapChildPages w.pages start entry offset (last - start + 1) }.insert
            { start := start, last := last, entry := entry }) := by
  have hfirst : Walk (vbo.bindRangeCreate entry) start last
      (unmapCall mmu (vbo.bindRangeCreate entry) start (last - start + 1)).2
      (iterFirst BindRange.start BindRange.last (vbo.bindRangeCreate entry).ranges start last) :=
    Walk.first hmmu hle h.tree h.inside h.pages
  have hunmap := unmapCall_eq hmmu (vbo.bindRangeCreate entry) start (last - start + 1)
  have hranges : (unmapCall mmu (vbo.bindRangeCreate entry) start (last - start + 1)).2.ranges =
      (vbo.bindRangeCreate entry).ranges := by
    rw [hunmap]
  have hzero : (unmapCall mmu (vbo.bindRangeCreate entry) start (last - start + 1)).1 = 0 := by
    rw [hunmap]
  obtain ⟨hwzero, hwalk⟩ := hfirst.run hmmu hle
    (unmapCall mmu (vbo.bindRangeCreate entry) start (last - start + 1)).2.ranges.length
    countP_le_length
  rw [← hranges] at hwzero hwalk
  refine ⟨_, hwalk, ?_⟩
  rw [addRange]
  simp only
  rw [if_neg (fun hne => hne hzero), if_neg (fun hne => hne hwzero), hmmu.mapChild]
  rfl

theorem addRange_spec (hmmu : mmu.Exact) (hle : start ≤ last) (hlast : last < vbo.size)
    (h : Bound base vbo) (entry offset : ℕ) :
    let r := addRange mmu vbo start last entry offset (.ok ())
    r.1 = 0 ∧ r.2.size = vbo.size ∧ Bound base r.2 ∧
      (∀ p, InCall start last p →
        r.2.pages p = .child entry ((offset + (p * pageSize - start)) / pageSize)) ∧
      ∀ p, ¬ InCall start last p → r.2.pages p = vbo.pages p := by
  intro r
  obtain ⟨w, hwalk, hr⟩ := addRange_eq hmmu hle h entry offset
  obtain ⟨hfree, -⟩ := hwalk.clear
  have hin : ∀ p, InCall start last p →
      r.2.pages p = .child entry ((offset + (p * pageSize - start)) / pageSize) := by
    intro p hp
    rw [show r = _ from hr]
    show mapChildPages w.pages start entry offset (last - start + 1) p = _
    rw [mapChildPages, if_pos ((inBytes_iff hle p).mpr hp)]
  have hout : ∀ p, ¬ InCall start last p → r.2.pages p = vbo.pages p := by
    intro p hp
    rw [show r = _ from hr]
    show mapChildPages w.pages start entry offset (last - start + 1) p = _
    rw [mapChildPages, if_neg fun hbytes => hp ((inBytes_iff hle p).mp hbytes)]
    exact hwalk.pages_out p hp
  have hperm : r.2.ranges.Perm ({ start := start, last := last, entry := entry } :: w.ranges) := by
    rw [show r = _ from hr]
    exact treeInsert_perm _ _
  refine ⟨by rw [show r = _ from hr], ?_, ?_, hin, hout⟩
  · rw [show r = _ from hr]
    exact hwalk.size
  · exact
      { tree := by
          rw [show r = _ from hr]
          exact hwalk.tree.insert hle hfree
        inside := by
          intro range hrange
          have hsize : r.2.size = vbo.size := by
            rw [show r = _ from hr]
            exact hwalk.size
          rw [hsize]
          rcases mem_cons.mp (hperm.mem_iff.mp hrange) with heq | hold
          · rw [heq]
            exact hlast
          · exact hwalk.inside range hold
        pages := by
          intro p other
          rw [boundTo_perm hperm, BoundTo]
          simp only [mem_cons, exists_eq_or_imp]
          by_cases hp : InCall start last p
          · rw [hin p hp]
            have hnone : ¬ ∃ range ∈ w.ranges, range.entry = other ∧ range.Covers p := by
              intro hbound
              obtain ⟨range, hrange, -, hcovers⟩ := hbound
              obtain ⟨hlow, hhigh⟩ := hp
              obtain ⟨hlow', hhigh'⟩ := hcovers
              rcases hfree range hrange with hafter | hbefore
              · omega
              · omega
            rw [or_iff_left hnone]
            constructor
            · intro hchild
              obtain ⟨page, heq⟩ := hchild
              cases heq
              exact ⟨rfl, hp⟩
            · intro hbound
              exact ⟨_, by rw [hbound.1]⟩
          · rw [hout p hp, or_iff_right fun hbound => hp hbound.2, h.pages p other]
            exact (hwalk.bound_out p hp other).symm
        vboCount := by
          intro other
          have hcount := hwalk.vboCount other
          have hbase := h.vboCount other
          rw [naming, hperm.countP_eq, countP_cons]
          rw [show r = _ from hr]
          show w.vboCount other = _
          have hcreate : (vbo.bindRangeCreate entry).vboCount other =
              vbo.vboCount other + if entry = other then 1 else 0 := by
            by_cases heq : entry = other
            · rw [if_pos heq, heq]
              exact Function.update_self ..
            · rw [if_neg heq, Int.add_zero]
              exact Function.update_of_ne (fun h => heq h.symm) ..
          rw [hcreate] at hcount
          change w.vboCount other - naming w.ranges other =
            _ - (naming vbo.ranges other : ℤ) at hcount
          change _ = base other + ((naming w.ranges other + _ : ℕ) : ℤ)
          by_cases heq : entry = other
          · rw [if_pos heq] at hcount
            simp only [heq, decide_true, if_true]
            push_cast
            omega
          · rw [if_neg heq] at hcount
            simp only [heq, decide_false, Bool.false_eq_true, if_false]
            push_cast
            omega }

end KgslVbo

/-! ## Runs -/

/-- One bind operation, as `kgsl_sharedmem_bind_worker` hands it over. -/
structure BindOp where
  targetOffset : ℕ
  length : ℕ
  entry : ℕ
  childOffset : ℕ
  created : Except ℤ Unit

namespace KgslVbo

variable {mmu : KgslMmu} {vbo : KgslVbo}

def bindStep (mmu : KgslMmu) (vbo : KgslVbo) (op : BindOp) : KgslVbo :=
  (addRange mmu vbo op.targetOffset (op.targetOffset + op.length - 1) op.entry op.childOffset
    op.created).2

/-- What `kgsl_sharedmem_create_bind_op` checks of 64-bit offsets and lengths. -/
structure BindOk (vbo : KgslVbo) (op : BindOp) : Prop where
  offset_lt : op.targetOffset < 2 ^ 64
  length_lt : op.length < 2 ^ 64
  offset_aligned : op.targetOffset % pageSize = 0
  length_ne : op.length ≠ 0
  length_aligned : op.length % pageSize = 0
  inside : vbo.checkRange op.targetOffset op.length = true
  child_aligned : op.childOffset % pageSize = 0

instance (vbo : KgslVbo) (op : BindOp) : Decidable (vbo.BindOk op) :=
  decidable_of_iff (op.targetOffset < 2 ^ 64 ∧ op.length < 2 ^ 64 ∧
      op.targetOffset % pageSize = 0 ∧ op.length ≠ 0 ∧ op.length % pageSize = 0 ∧
      vbo.checkRange op.targetOffset op.length = true ∧ op.childOffset % pageSize = 0)
    ⟨fun h => ⟨h.1, h.2.1, h.2.2.1, h.2.2.2.1, h.2.2.2.2.1, h.2.2.2.2.2.1, h.2.2.2.2.2.2⟩,
      fun h => ⟨h.1, h.2, h.3, h.4, h.5, h.6, h.7⟩⟩

variable {op : BindOp}

theorem BindOk.range (h : vbo.BindOk op) :
    op.targetOffset ≤ op.targetOffset + op.length - 1 ∧
      op.targetOffset + op.length - 1 < vbo.size := by
  have hinside := h.inside
  rw [checkRange, Bool.and_eq_true, Bool.and_eq_true, decide_eq_true_iff, decide_eq_true_iff,
    decide_eq_true_iff] at hinside
  obtain ⟨⟨-, hgt⟩, hle⟩ := hinside
  have hoffset := h.offset_lt
  have hlength := h.length_lt
  have hne := h.length_ne
  omega

theorem Bound.step (hmmu : mmu.Exact) {base : ℕ → ℤ} (h : Bound base vbo) (hok : vbo.BindOk op) :
    Bound base (bindStep mmu vbo op) := by
  obtain ⟨hle, hlast⟩ := hok.range
  rw [bindStep]
  cases hcreated : op.created with
  | error ret => exact h
  | ok u => exact (addRange_spec hmmu hle hlast h op.entry op.childOffset).2.2.1

/-- A virtual buffer to which nothing is bound. -/
structure Unbound (vbo : KgslVbo) : Prop where
  ranges : vbo.ranges = []
  pages : ∀ p entry page, vbo.pages p ≠ .child entry page

theorem Unbound.bound (h : vbo.Unbound) : Bound vbo.vboCount vbo where
  tree := by
    rw [h.ranges]
    exact DisjointTree.nil
  inside := by
    intro r hr
    rw [h.ranges] at hr
    cases hr
  pages := by
    intro p entry
    refine iff_of_false ?_ ?_
    · intro hchild
      obtain ⟨page, hpage⟩ := hchild
      exact h.pages p entry page hpage
    · intro hbound
      obtain ⟨r, hr, -⟩ := hbound
      rw [h.ranges] at hr
      cases hr
  vboCount := by
    intro entry
    rw [h.ranges]
    exact (Int.add_zero _).symm

theorem childPage_eq {offset childOffset p : ℕ} (ho : offset % pageSize = 0)
    (hc : childOffset % pageSize = 0) (hp : offset ≤ p * pageSize) :
    (childOffset + (p * pageSize - offset)) / pageSize =
      childOffset / pageSize + (p - offset / pageSize) := by
  rw [pageSize] at *
  omega

/-- In every state reached the ranges are disjoint and inside the virtual buffer, a page is
mapped to a child exactly when it is in a range bound to it, and each entry is counted once
for every range that names it. A further bind maps each of its pages to the page of the
child that lies as far behind the child offset, and leaves all other pages as they were. -/
theorem binding_refines_page_map (hmmu : mmu.Exact) (hunbound : vbo.Unbound) {s : KgslVbo}
    (hrun : Relation.ReflTransGen (GuardedStep BindOk (bindStep mmu)) vbo s) :
    s.ranges.Pairwise (fun x y => x.last < y.start) ∧
    (∀ r ∈ s.ranges, r.start ≤ r.last ∧ r.last < s.size) ∧
    (∀ p entry, (∃ page, s.pages p = .child entry page) ↔ BoundTo s.ranges p entry) ∧
    (∀ entry, s.vboCount entry = vbo.vboCount entry + naming s.ranges entry) ∧
    ∀ op, s.BindOk op → op.created = .ok () →
      (∀ p, InCall op.targetOffset (op.targetOffset + op.length - 1) p →
        (bindStep mmu s op).pages p = .child op.entry
          (op.childOffset / pageSize + (p - op.targetOffset / pageSize))) ∧
      ∀ p, ¬ InCall op.targetOffset (op.targetOffset + op.length - 1) p →
        (bindStep mmu s op).pages p = s.pages p := by
  have h : Bound vbo.vboCount s :=
    invariant_of_guarded (fun _ _ hs hok => hs.step hmmu hok) hunbound.bound hrun
  refine ⟨h.tree.ordered.imp fun hxy => hxy.2.2, fun r hr => ⟨h.tree.proper r hr, h.inside r hr⟩,
    h.pages, h.vboCount, ?_⟩
  intro op hok hcreated
  obtain ⟨hle, hlast⟩ := hok.range
  have hspec := (addRange_spec hmmu hle hlast h op.entry op.childOffset).2.2.2
  rw [bindStep, hcreated]
  refine ⟨?_, hspec.2⟩
  intro p hp
  rw [hspec.1 p hp, childPage_eq hok.offset_aligned hok.child_aligned hp.1]

def exactMmu : KgslMmu where
  unmapRange := fun pages start len => (0, unmapPages pages start len)
  mapChild := fun pages start entry offset len =>
    (0, mapChildPages pages start entry offset len)
  mapZeroPageToRange := fun pages start len => (0, mapZeroPages pages start len)

theorem exactMmu_exact : exactMmu.Exact where
  unmapRange := fun _ _ _ => rfl
  mapChild := fun _ _ _ _ _ => rfl
  mapZeroPageToRange := fun _ _ _ => rfl

def sampleVbo : KgslVbo where
  size := 5 * pageSize
  noMapZero := true
  ranges := []
  pages := fun _ => .unmapped
  vboCount := fun _ => 0
  refs := fun _ => 0

def sampleBinds : List BindOp :=
  [{ targetOffset := 0, length := 4 * pageSize, entry := 1, childOffset := 0, created := .ok () },
    { targetOffset := pageSize, length := pageSize, entry := 2, childOffset := pageSize,
      created := .ok () }]

theorem binding_refines_page_map_sample :
    let s := sampleBinds.foldl (bindStep exactMmu) sampleVbo
    ∀ p entry, (∃ page, s.pages p = .child entry page) ↔ BoundTo s.ranges p entry :=
  (binding_refines_page_map exactMmu_exact (show sampleVbo.Unbound from
    ⟨rfl, fun _ _ _ h => by cases h⟩) (guarded_foldl (by decide +kernel))).2.2.1

end KgslVbo

end QcomModules.Kgsl
