import QcomModules.Kgsl.VboUnbinding

/-! What a bind operation leaves in the tree when a call into the MMU fails. -/

namespace QcomModules.Kgsl

open Library List Function

/-! ## Failing calls -/

/-- A call that succeeds does what it was asked to. One that fails leaves a page as it was, or, if
it was asked about it, unmapped or (a map call) mapped to the child. -/
structure KgslMmu.Reports (mmu : KgslMmu) : Prop where
  unmapRange : ∀ pages start len, (mmu.unmapRange pages start len).1 = 0 →
    mmu.unmapRange pages start len = (0, unmapPages pages start len)
  unmapFailed : ∀ pages start len p, (mmu.unmapRange pages start len).2 p = pages p ∨
    InBytes start len p ∧ (mmu.unmapRange pages start len).2 p = .unmapped
  mapFailed : ∀ pages start entry offset len, (mmu.mapChild pages start entry offset len).1 ≠ 0 →
    ∀ p, (mmu.mapChild pages start entry offset len).2 p = pages p ∨ InBytes start len p ∧
      ((mmu.mapChild pages start entry offset len).2 p = .unmapped ∨
        ∃ page, (mmu.mapChild pages start entry offset len).2 p = .child entry page)

/-- A map call that fails leaves no page mapped to the child. -/
def KgslMmu.MapsCleanly (mmu : KgslMmu) (start last entry offset : ℕ)
    (pages : ℕ → PageMapping) : Prop :=
  let r := mmu.mapChild pages start entry offset (last - start + 1)
  r.1 ≠ 0 → ∀ p, InBytes start (last - start + 1) p → ∀ page, r.2 p ≠ .child entry page

/-- The overlaps with the ranges are unmapped one after another, before the map call. The first call
that fails leaves its range mapped, and is not for the middle of a range. -/
def KgslMmu.Undoes (mmu : KgslMmu) (start last : ℕ) (maps : (ℕ → PageMapping) → Prop) :
    List BindRange → (ℕ → PageMapping) → Prop
  | [], pages => maps pages
  | cur :: rest, pages =>
    let r := mmu.unmapRange pages (max start cur.start)
      (min last cur.last - max start cur.start + 1)
    if r.1 = 0 then mmu.Undoes start last maps rest r.2
    else (∀ p, cur.Covers p → r.2 p ≠ .unmapped) ∧ ¬ (cur.start < start ∧ last < cur.last)

namespace KgslVbo

/-- Where the virtual buffer maps the zero page, there is one unmap call for all pages. -/
def FailsCleanly (mmu : KgslMmu) (vbo : KgslVbo) (start last entry offset : ℕ) : Prop :=
  if vbo.noMapZero then
    mmu.Undoes start last (mmu.MapsCleanly start last entry offset)
      (vbo.ranges.filter (overlaps BindRange.start BindRange.last start last)) vbo.pages
  else
    let r := mmu.unmapRange vbo.pages start (last - start + 1)
    if r.1 = 0 then mmu.MapsCleanly start last entry offset r.2
    else ∀ range ∈ vbo.ranges, ∀ p, range.Covers p → r.2 p ≠ .unmapped

def Apart (x y : BindRange) : Prop := x.last < y.start ∨ y.last < x.start

instance : Std.Symm Apart where
  symm _ _ h := Or.symm h

/-- The tree tells what is mapped, and each entry is counted and held once for every range. -/
structure Consistent (base held : ℕ → ℤ) (vbo : KgslVbo) : Prop where
  disjoint : vbo.ranges.Pairwise Apart
  mapped : ∀ p entry page, vbo.pages p = .child entry page → BoundTo vbo.ranges p entry
  covered : ∀ r ∈ vbo.ranges, ∀ p, r.Covers p → vbo.pages p ≠ .unmapped
  vboCount : ∀ entry, vbo.vboCount entry = base entry + naming vbo.ranges entry
  refs : ∀ entry, vbo.refs entry = held entry + naming vbo.ranges entry

variable {mmu : KgslMmu} {vbo vbo₀ : KgslVbo} {start last : ℕ} {cur : BindRange}

/-! ## References -/

/-- References are taken and put with the counts. -/
def RefsWith (vbo vbo' : KgslVbo) : Prop :=
  ∀ entry, vbo'.refs entry - vbo'.vboCount entry = vbo.refs entry - vbo.vboCount entry

theorem RefsWith.trans {vbo' vbo'' : KgslVbo} (h : RefsWith vbo vbo') (h' : RefsWith vbo' vbo'') :
    RefsWith vbo vbo'' := fun entry => (h' entry).trans (h entry)

theorem refsWith_count (vbo : KgslVbo) (entry : ℕ) (d : ℤ) : RefsWith vbo (vbo.count entry d) := by
  intro other
  simp only [count]
  by_cases heq : other = entry
  · rw [heq, update_self, update_self]
    omega
  · rw [update_of_ne heq, update_of_ne heq]

theorem refsWith_unmapOverlap (mmu : KgslMmu) (vbo : KgslVbo) (lo len : ℕ) :
    RefsWith vbo (unmapOverlap mmu vbo lo len).2 := by
  rw [unmapOverlap]
  split <;> exact fun _ => rfl

theorem refsWith_trimRange (mmu : KgslMmu) (start last : ℕ) (vbo : KgslVbo) (cur : BindRange) :
    RefsWith vbo (trimRange mmu start last vbo cur).2 := by
  have hunmap := refsWith_unmapOverlap mmu
  rw [trimRange]
  split
  · split
    · dsimp only
      split
      · exact hunmap vbo _ _
      · exact (hunmap vbo _ _).trans (refsWith_count _ _ _)
    · dsimp only
      split <;> exact hunmap vbo _ _
  · have hsplit : RefsWith vbo (if last < cur.last then
        (vbo.bindRangeCreate cur.entry).insert { cur with start := last + 1 } else vbo) := by
      split
      · exact refsWith_count vbo cur.entry 1
      · exact fun _ => rfl
    generalize (if last < cur.last then
        (vbo.bindRangeCreate cur.entry).insert { cur with start := last + 1 }
      else vbo) = v at hsplit ⊢
    dsimp only
    split <;> exact hsplit.trans (hunmap v _ _)

theorem refsWith_walkRanges (mmu : KgslMmu) (start last fuel : ℕ) (vbo : KgslVbo)
    (next : Option BindRange) : RefsWith vbo (walkRanges mmu start last fuel vbo next).2 := by
  induction fuel generalizing vbo next with
  | zero => cases next <;> exact fun _ => rfl
  | succ fuel ih =>
    cases next with
    | none => exact fun _ => rfl
    | some cur =>
      have htrim : RefsWith vbo (trimRange mmu start last (vbo.remove cur) cur).2 :=
        refsWith_trimRange mmu start last (vbo.remove cur) cur
      rw [walkRanges]
      split
      · exact htrim
      · exact htrim.trans (ih _ _)

theorem refsWith_addRange (mmu : KgslMmu) (vbo : KgslVbo) (start last entry offset : ℕ) :
    RefsWith vbo (addRange mmu vbo start last entry offset (.ok ())).2 := by
  have hcall : RefsWith vbo
      (unmapCall mmu (vbo.bindRangeCreate entry) start (last - start + 1)).2 := by
    rw [unmapCall]
    split <;> exact refsWith_count vbo entry 1
  rw [addRange]
  generalize unmapCall mmu (vbo.bindRangeCreate entry) start (last - start + 1) = c at hcall ⊢
  have hwalk := hcall.trans (refsWith_walkRanges mmu start last c.2.ranges.length c.2
    (iterFirst BindRange.start BindRange.last c.2.ranges start last))
  dsimp only
  split
  · exact hcall.trans (refsWith_count _ _ _)
  · split
    · exact hwalk.trans (refsWith_count _ _ _)
    · split
      · exact hwalk.trans (refsWith_count _ _ _)
      · exact hwalk

theorem refsWith_removeRange (mmu : KgslMmu) (vbo : KgslVbo) (start last : ℕ)
    (entry : Option ℕ) : RefsWith vbo (removeRange mmu vbo start last entry) := by
  have hrange : ∀ v r, RefsWith v (unbindRange mmu v r) := by
    intro v r
    rw [unbindRange]
    dsimp only
    split
    · exact fun _ => rfl
    · split <;> exact refsWith_count _ r.entry (-1)
  have hloop : ∀ fuel v next, RefsWith v (unbindRanges mmu start last entry fuel v next) := by
    intro fuel
    induction fuel with
    | zero =>
      intro v next
      cases next <;> exact fun _ => rfl
    | succ fuel ih =>
      intro v next
      cases next with
      | none => exact fun _ => rfl
      | some range =>
        rw [unbindRanges]
        split
        · exact (hrange v range).trans (ih _ _)
        · exact ih v _
  exact hloop _ _ _

theorem refsWith_workerStep (mmu : KgslMmu) (vbo : KgslVbo) (op : RangeOp) :
    RefsWith vbo (workerStep mmu vbo op) := by
  cases op with
  | bind op pendingFree =>
    rw [workerStep]
    split
    · exact fun _ => rfl
    · rw [bindStep]
      cases op.created with
      | error ret => exact fun _ => rfl
      | ok => exact refsWith_addRange mmu vbo _ _ _ _
  | unbind targetOffset length entry => exact refsWith_removeRange mmu vbo _ _ entry

/-! ## One range -/

/-- The tree where a call for the overlap with `cur` fails, with the far side of a split. -/
def splitOff (start last : ℕ) (vbo : KgslVbo) (cur : BindRange) : KgslVbo :=
  if cur.start < start ∧ last < cur.last then
    (vbo.bindRangeCreate cur.entry).insert { cur with start := last + 1 }
  else vbo

theorem unmapOverlap_cases (hmmu : mmu.Reports) (vbo : KgslVbo) (lo len : ℕ) :
    let r := mmu.unmapRange vbo.pages lo len
    (unmapOverlap mmu vbo lo len = unmapOverlap exactMmu vbo lo len ∧
      (vbo.noMapZero = true → r.1 = 0)) ∨
    (vbo.noMapZero = true ∧ r.1 ≠ 0 ∧
      unmapOverlap mmu vbo lo len = (r.1, { vbo with pages := r.2 })) := by
  intro r
  rw [unmapOverlap, unmapOverlap]
  split
  · rename_i hmode
    by_cases hzero : r.1 = 0
    · refine Or.inl ⟨?_, fun _ => hzero⟩
      rw [hmmu.unmapRange _ _ _ hzero]
      rfl
    · exact Or.inr ⟨hmode, hzero, rfl⟩
  · rename_i hmode
    exact Or.inl ⟨rfl, fun h => absurd h hmode⟩

theorem trimRange_cases (hmmu : mmu.Reports) (start last : ℕ) (vbo : KgslVbo) (cur : BindRange) :
    let r := mmu.unmapRange vbo.pages (max start cur.start)
      (min last cur.last - max start cur.start + 1)
    (trimRange mmu start last vbo cur = trimRange exactMmu start last vbo cur ∧
      (vbo.noMapZero = true → r.1 = 0)) ∨
    (vbo.noMapZero = true ∧ r.1 ≠ 0 ∧ trimRange mmu start last vbo cur =
      (r.1, { splitOff start last vbo cur with pages := r.2 }.insert cur)) := by
  rw [trimRange, trimRange]
  by_cases hstart : start ≤ cur.start
  · have hwhole : splitOff start last vbo cur = vbo :=
      if_neg fun h => absurd h.1 (Nat.not_lt_of_le hstart)
    rw [if_pos hstart, if_pos hstart, Nat.max_eq_right hstart, hwhole]
    by_cases hlast : cur.last ≤ last
    · rw [if_pos hlast, if_pos hlast, Nat.min_eq_right hlast]
      dsimp only
      rcases unmapOverlap_cases hmmu vbo cur.start (cur.last - cur.start + 1) with
        ⟨heq, hzero⟩ | ⟨hmode, hne, heq⟩
      · exact Or.inl ⟨by rw [heq], hzero⟩
      · exact Or.inr ⟨hmode, hne, by rw [heq, if_pos hne]⟩
    · rw [if_neg hlast, if_neg hlast, Nat.min_eq_left (Nat.le_of_not_le hlast)]
      dsimp only
      rcases unmapOverlap_cases hmmu vbo cur.start (last - cur.start + 1) with
        ⟨heq, hzero⟩ | ⟨hmode, hne, heq⟩
      · exact Or.inl ⟨by rw [heq], hzero⟩
      · exact Or.inr ⟨hmode, hne, by rw [heq, if_pos hne]⟩
  · have hsplit : (if last < cur.last then
          (vbo.bindRangeCreate cur.entry).insert { cur with start := last + 1 } else vbo) =
        splitOff start last vbo cur := by
      rw [splitOff]
      exact if_congr (iff_and_self.mpr fun _ => Nat.lt_of_not_le hstart) rfl rfl
    have hmode : (splitOff start last vbo cur).noMapZero = vbo.noMapZero := by
      rw [splitOff]
      split <;> rfl
    have hpages : (splitOff start last vbo cur).pages = vbo.pages := by
      rw [splitOff]
      split <;> rfl
    rw [if_neg hstart, if_neg hstart, hsplit, Nat.max_eq_left (Nat.le_of_not_le hstart),
      Nat.min_comm, ← hmode, ← hpages]
    dsimp only
    rcases unmapOverlap_cases hmmu (splitOff start last vbo cur) start
      (min cur.last last - start + 1) with ⟨heq, hzero⟩ | ⟨hmode, hne, heq⟩
    · exact Or.inl ⟨by rw [heq], hzero⟩
    · exact Or.inr ⟨hmode, hne, by rw [heq, if_pos hne]⟩

/-! ## The walk -/

/-- Half way through the walk where no call has failed: no page of a range in the tree has been
unmapped. -/
structure CleanWalk (vbo₀ : KgslVbo) (start last : ℕ) (vbo : KgslVbo) (next : Option BindRange) :
    Prop extends Walk vbo₀ start last vbo next where
  kept : vbo₀.noMapZero = true → ∀ r ∈ vbo.ranges, ∀ p, r.Covers p → vbo.pages p ≠ .unmapped
  first : next = (vbo.ranges.filter (overlaps BindRange.start BindRange.last start last)).head?

variable {ranges : List BindRange}

theorem overlapping_split (htree : RangeTree ranges) (hfirst :
      (ranges.filter (overlaps BindRange.start BindRange.last start last)).head? = some cur) :
    ∃ rest, ranges.filter (overlaps BindRange.start BindRange.last start last) = cur :: rest ∧
      (ranges.erase cur).filter (overlaps BindRange.start BindRange.last start last) = rest ∧
      iterNext BindRange.start BindRange.last ranges cur start last = rest.head? := by
  rw [head?_filter] at hfirst
  obtain ⟨hover, front, back, rfl, hfront⟩ := find?_eq_some_iff_append.mp hfirst
  have hnone : front.filter (overlaps BindRange.start BindRange.last start last) = [] :=
    filter_eq_nil_iff.mpr fun r hr => by simpa using hfront r hr
  have hnotMem : cur ∉ front := by
    intro hmem
    exact (nodup_append.mp htree.nodup).2.2 cur hmem cur mem_cons_self rfl
  refine ⟨back.filter (overlaps BindRange.start BindRange.last start last), ?_, ?_, ?_⟩
  · rw [filter_append, hnone, filter_cons_of_pos hover, nil_append]
  · rw [erase_append_right _ hnotMem, erase_cons_head, filter_append, hnone,
      nil_append]
  · rw [iterNext_append hnotMem, head?_filter]

theorem overlapping_trimmed {ranges' : List BindRange} (htree : RangeTree ranges)
    (htree' : RangeTree ranges') (hperm : ranges'.Perm (leftOver start last cur ++ ranges)) :
    ranges'.filter (overlaps BindRange.start BindRange.last start last) =
      ranges.filter (overlaps BindRange.start BindRange.last start last) := by
  have hnone : (leftOver start last cur).filter
      (overlaps BindRange.start BindRange.last start last) = [] :=
    filter_eq_nil_iff.mpr fun _ => not_overlaps_leftOver
  have hsame := hperm.filter (overlaps BindRange.start BindRange.last start last)
  rw [filter_append, hnone, nil_append] at hsame
  refine hsame.eq_of_pairwise (fun x y _ _ hxy hyx => ?_) (htree'.ordered.filter _)
    (htree.ordered.filter _)
  obtain ⟨hx, hy, hlt⟩ := hxy
  have := hyx.2.2
  omega

theorem CleanWalk.step (hle : start ≤ last) (h : CleanWalk vbo₀ start last vbo (some cur)) :
    let r := trimRange exactMmu start last (vbo.remove cur) cur
    r.1 = 0 ∧ CleanWalk vbo₀ start last r.2
      (iterNext BindRange.start BindRange.last vbo.ranges cur start last) ∧
      (r.2.pages = if vbo.noMapZero then unmapPages vbo.pages (max start cur.start)
        (min last cur.last - max start cur.start + 1) else vbo.pages) ∧
      ∃ rest, vbo.ranges.filter (overlaps BindRange.start BindRange.last start last) =
          cur :: rest ∧
        r.2.ranges.filter (overlaps BindRange.start BindRange.last start last) = rest := by
  intro r
  obtain ⟨hmem, hcurOver⟩ := h.next_mem cur rfl
  have hover := overlaps_iff.mp hcurOver
  have herase : RangeTree (vbo.ranges.erase cur) := h.tree.erase cur
  have hfree : ∀ y ∈ (vbo.remove cur).ranges, cur.last < y.start ∨ y.last < cur.start := by
    intro y hy
    refine h.tree.disjoint hmem (erase_subset hy) ?_
    rintro rfl
    exact h.tree.nodup.not_mem_erase hy
  have htrim := (trimRange_spec exactMmu_exact hle hover herase hfree).2
  obtain ⟨hzero, hwalk, hperm⟩ := h.toWalk.step exactMmu_exact hle
  obtain ⟨rest, hall, hrest, hnext⟩ := overlapping_split h.tree h.first.symm
  have hremaining := (overlapping_trimmed herase hwalk.tree hperm).trans hrest
  refine ⟨hzero, ⟨hwalk, fun hmode x hx p hcovers => ?_, ?_⟩,
    htrim.pages, rest, hall, hremaining⟩
  · rcases mem_append.mp (hperm.mem_iff.mp hx) with hpart | hold
    · -- the parts left of a range are outside of the call
      obtain ⟨hcur, hout⟩ := (leftOver_covers hover).mp ⟨x, hpart, hcovers⟩
      have hsame := (hwalk.pages_out p hout).trans (h.pages_out p hout).symm
      rw [hsame]
      exact h.kept hmode cur hmem p hcur
    · have hpages : r.2.pages p = (vbo.remove cur).pages p := by
        rw [htrim.pages]
        split
        · rw [unmapPages, if_neg]
          intro hbytes
          have hproper := h.tree.proper cur hmem
          have := hfree x hold
          rw [BindRange.Covers] at hcovers
          rw [InBytes] at hbytes
          omega
        · rfl
      rw [hpages]
      exact h.kept hmode x (erase_subset hold) p hcovers
  · rw [hnext, hremaining]

theorem CleanWalk.run (hmmu : mmu.Reports) (hle : start ≤ last)
    (maps : (ℕ → PageMapping) → Prop) (fuel : ℕ) {next : Option BindRange}
    (h : CleanWalk vbo₀ start last vbo next)
    (hfuel : vbo.ranges.countP (overlaps BindRange.start BindRange.last start last) ≤ fuel) :
    let w := walkRanges mmu start last fuel vbo next
    let todo := vbo.ranges.filter (overlaps BindRange.start BindRange.last start last)
    (w.1 = 0 ∧ CleanWalk vbo₀ start last w.2 none ∧
      (vbo₀.noMapZero = true → (mmu.Undoes start last maps todo vbo.pages ↔ maps w.2.pages)) ∧
      (vbo₀.noMapZero ≠ true → w.2.pages = vbo.pages)) ∨
    (w.1 ≠ 0 ∧ vbo₀.noMapZero = true ∧
      ∃ v cur, CleanWalk vbo₀ start last v (some cur) ∧
        let r := mmu.unmapRange v.pages (max start cur.start)
          (min last cur.last - max start cur.start + 1)
        w.2 = { splitOff start last (v.remove cur) cur with pages := r.2 }.insert cur ∧
        (mmu.Undoes start last maps todo vbo.pages ↔
          (∀ p, cur.Covers p → r.2 p ≠ .unmapped) ∧ ¬ (cur.start < start ∧ last < cur.last))) := by
  induction fuel generalizing vbo next with
  | zero =>
    cases next with
    | none =>
      refine Or.inl ⟨rfl, h, fun _ => ?_, fun _ => rfl⟩
      rw [head?_eq_none_iff.mp h.first.symm]
      exact Iff.rfl
    | some cur =>
      obtain ⟨hmem, hover⟩ := h.next_mem cur rfl
      have hpos := countP_pos_iff.mpr ⟨cur, hmem, hover⟩
      omega
  | succ fuel ih =>
    cases next with
    | none =>
      refine Or.inl ⟨rfl, h, fun _ => ?_, fun _ => rfl⟩
      rw [head?_eq_none_iff.mp h.first.symm]
      exact Iff.rfl
    | some cur =>
      obtain ⟨hzero, hstep, hpages, rest, hall, hrest⟩ := h.step hle
      have hmode : (vbo.remove cur).noMapZero = vbo₀.noMapZero := h.noMapZero
      rw [walkRanges, hall]
      rcases trimRange_cases hmmu start last (vbo.remove cur) cur with
        ⟨heq, hok⟩ | ⟨hunmaps, hne, heq⟩
      · rw [heq, if_neg (fun hne => hne hzero)]
        have hcount : (trimRange exactMmu start last (vbo.remove cur) cur).2.ranges.countP
            (overlaps BindRange.start BindRange.last start last) ≤ fuel := by
          rw [countP_eq_length_filter, hrest]
          rw [countP_eq_length_filter, hall, length_cons] at hfuel
          omega
        have hsame : vbo₀.noMapZero = true → (mmu.Undoes start last maps (cur :: rest) vbo.pages ↔
            mmu.Undoes start last maps rest
              (trimRange exactMmu start last (vbo.remove cur) cur).2.pages) := by
          intro hunmaps
          rw [KgslMmu.Undoes]
          have hcall := hok (hmode.trans hunmaps)
          have hunmapped := congrArg Prod.snd (hmmu.unmapRange _ _ _ hcall)
          rw [hpages, if_pos (show vbo.noMapZero = true from hmode.trans hunmaps)]
          exact iff_of_eq
            ((if_pos hcall).trans (congrArg (mmu.Undoes start last maps rest) hunmapped))
        have hrun := ih hstep hcount
        rw [hrest] at hrun
        rcases hrun with ⟨hdone, hwalk, hundoes, hkeeps⟩ |
          ⟨hfailed, hunmaps, v, x, hwalk, hend, hundoes⟩
        · refine Or.inl ⟨hdone, hwalk, fun hunmaps => (hsame hunmaps).trans (hundoes hunmaps),
            fun hmaps => (hkeeps hmaps).trans ?_⟩
          exact hpages.trans (if_neg (show ¬ vbo.noMapZero = true from hmode ▸ hmaps))
        · exact Or.inr ⟨hfailed, hunmaps, v, x, hwalk, hend, (hsame hunmaps).trans hundoes⟩
      · rw [heq, if_pos hne]
        refine Or.inr ⟨hne, hmode.symm.trans hunmaps, vbo, cur, h, rfl, ?_⟩
        rw [KgslMmu.Undoes]
        exact iff_of_eq (if_neg hne)

/-! ## After a failure -/

section Failure

variable {base held : ℕ → ℤ} {entry : ℕ}

structure Started (base held : ℕ → ℤ) (entry : ℕ) (vbo₀ : KgslVbo) : Prop where
  tree : RangeTree vbo₀.ranges
  inside : ∀ r ∈ vbo₀.ranges, r.last < vbo₀.size
  pages : ∀ p id, (∃ page, vbo₀.pages p = .child id page) ↔ BoundTo vbo₀.ranges p id
  vboCount : ∀ id, vbo₀.vboCount id =
    base id + naming vbo₀.ranges id + if id = entry then 1 else 0
  refs : ∀ id, vbo₀.refs id - vbo₀.vboCount id = held id - base id

theorem disjoint_of_tree {ranges : List BindRange} (h : RangeTree ranges) :
    ranges.Pairwise Apart :=
  h.ordered.imp fun hxy => Or.inl hxy.2.2

variable {r : BindRange} {p : ℕ}

theorem Consistent.of_destroyed {v : KgslVbo} (hr : r.entry = entry)
    (hdisjoint : v.ranges.Pairwise Apart)
    (hmapped : ∀ p id page, v.pages p = .child id page → BoundTo v.ranges p id)
    (hcovered : ∀ r ∈ v.ranges, ∀ p, r.Covers p → v.pages p ≠ .unmapped)
    (hcount : ∀ id, v.vboCount id = base id + naming v.ranges id + if id = entry then 1 else 0)
    (hrefs : ∀ id, v.refs id - v.vboCount id = held id - base id) :
    Consistent base held (v.bindRangeDestroy r) := by
  have hvbo : ∀ id, (v.bindRangeDestroy r).vboCount id = base id + naming v.ranges id := by
    intro id
    rw [bindRangeDestroy, hr]
    show update v.vboCount entry (v.vboCount entry + -1) id = _
    by_cases heq : id = entry
    · rw [heq, update_self, hcount, if_pos rfl]
      omega
    · rw [update_of_ne heq, hcount, if_neg heq, Int.add_zero]
  refine ⟨hdisjoint, hmapped, hcovered, hvbo, fun id => ?_⟩
  have hsame := refsWith_count v r.entry (-1) id
  have hold := hrefs id
  have hnew := hvbo id
  rw [bindRangeDestroy] at hnew ⊢
  show (v.count r.entry (-1)).refs id = held id + naming v.ranges id
  omega

theorem Started.walkCount (h : Started base held entry vbo₀) {next : Option BindRange}
    (hwalk : Walk vbo₀ start last vbo next) (id : ℕ) :
    vbo.vboCount id = base id + naming vbo.ranges id + if id = entry then 1 else 0 := by
  have hcount := hwalk.vboCount id
  have hstart := h.vboCount id
  omega

theorem Started.walkMapped (h : Started base held entry vbo₀) {next : Option BindRange}
    (hwalk : Walk vbo₀ start last vbo next) {id page : ℕ} (hchild : vbo.pages p = .child id page) :
    BoundTo vbo.ranges p id := by
  by_cases hin : InCall start last p
  · exact (hwalk.bound_in p hin id page hchild).2
  · rw [hwalk.pages_out p hin] at hchild
    exact (hwalk.bound_out p hin id).mpr ((h.pages p id).mp ⟨page, hchild⟩)

theorem Started.walkCovered (h : Started base held entry vbo₀) {next : Option BindRange}
    (hwalk : Walk vbo₀ start last vbo next) (hr : r ∈ vbo.ranges) (hcovers : r.Covers p)
    (hout : ¬ InCall start last p) : vbo.pages p ≠ .unmapped := by
  have hbound := (hwalk.bound_out p hout r.entry).mp ⟨r, hr, rfl, hcovers⟩
  obtain ⟨page, hchild⟩ := (h.pages p r.entry).mpr hbound
  rw [hwalk.pages_out p hout, hchild]
  exact fun heq => by cases heq

theorem consistent_callFailed (hmmu : mmu.Reports) (h : Started base held entry vbo₀)
    {range : BindRange} (hrange : range.entry = entry) (lo len : ℕ) :
    let r := mmu.unmapRange vbo₀.pages lo len
    Consistent base held ({ vbo₀ with pages := r.2 }.bindRangeDestroy range) ↔
      ∀ x ∈ vbo₀.ranges, ∀ p, x.Covers p → r.2 p ≠ .unmapped := by
  intro r
  refine ⟨fun hconsistent => hconsistent.covered, fun hcovered => ?_⟩
  refine Consistent.of_destroyed hrange (disjoint_of_tree h.tree) (fun p id page hchild => ?_)
    hcovered h.vboCount h.refs
  rcases hmmu.unmapFailed vbo₀.pages lo len p with hsame | ⟨-, hnone⟩
  · exact (h.pages p id).mp ⟨page, hsame ▸ hchild⟩
  · exact absurd (hnone.symm.trans hchild) (fun heq => by cases heq)

theorem consistent_mapFailed (hmmu : mmu.Reports) (hle : start ≤ last)
    (h : Started base held entry vbo₀) (hwalk : Walk vbo₀ start last vbo none)
    (hrefs : RefsWith vbo₀ vbo) {range : BindRange} (hrange : range.entry = entry) {offset : ℕ}
    (hfail : (mmu.mapChild vbo.pages start entry offset (last - start + 1)).1 ≠ 0) :
    Consistent base held ({ vbo with
      pages := (mmu.mapChild vbo.pages start entry offset (last - start + 1)).2 }.bindRangeDestroy
        range) ↔ mmu.MapsCleanly start last entry offset vbo.pages := by
  have hpage := hmmu.mapFailed _ _ _ _ _ hfail
  -- no range is left where the call was asked to map
  have hout : ∀ r ∈ vbo.ranges, ∀ p, r.Covers p → ¬ InCall start last p := by
    intro r hr p hcovers hin
    have := hwalk.clear.1 r hr
    rw [BindRange.Covers] at hcovers
    rw [InCall] at hin
    omega
  constructor
  · intro hconsistent _ p hin page hchild
    obtain ⟨r, hr, -, hcovers⟩ := hconsistent.mapped p entry page hchild
    exact hout r hr p hcovers ((inBytes_iff hle p).mp hin)
  · intro hclean
    refine Consistent.of_destroyed hrange (disjoint_of_tree hwalk.tree)
      (fun p id page hchild => ?_) (fun r hr p hcovers => ?_) (fun id => h.walkCount hwalk id)
      fun id => (hrefs id).trans (h.refs id)
    · rcases hpage p with hsame | ⟨hin, hnone | ⟨page', hmapped⟩⟩
      · exact h.walkMapped hwalk (hsame.symm.trans hchild)
      · exact absurd (hnone.symm.trans hchild) (fun heq => by cases heq)
      · exact absurd hmapped (hclean hfail p hin page')
    · have hfar := hout r hr p hcovers
      rcases hpage p with hsame | ⟨hin, -⟩
      · exact fun hnone => h.walkCovered hwalk hr hcovers hfar (hsame.symm.trans hnone)
      · exact absurd ((inBytes_iff hle p).mp hin) hfar

theorem consistent_walkFailed (hmmu : mmu.Reports) (h : Started base held entry vbo₀)
    (hmode : vbo₀.noMapZero = true)
    (hwalk : CleanWalk vbo₀ start last vbo (some cur)) {range : BindRange}
    (hrange : range.entry = entry) {t : KgslVbo} (hrefs : RefsWith vbo₀ t) :
    let r := mmu.unmapRange vbo.pages (max start cur.start)
      (min last cur.last - max start cur.start + 1)
    t = { splitOff start last (vbo.remove cur) cur with pages := r.2 }.insert cur →
    (Consistent base held (t.bindRangeDestroy range) ↔
      (∀ p, cur.Covers p → r.2 p ≠ .unmapped) ∧ ¬ (cur.start < start ∧ last < cur.last)) := by
  intro r ht
  obtain ⟨hmem, hcurOver⟩ := hwalk.next_mem cur rfl
  have hover := overlaps_iff.mp hcurOver
  have hproper := hwalk.tree.proper cur hmem
  have hcur : cur ∈ t.ranges := by
    rw [ht]
    exact mem_insertBefore.mpr (Or.inl rfl)
  have hpages : t.pages = r.2 := by
    rw [ht]
    rfl
  constructor
  · intro hconsistent
    refine ⟨fun p hcovers hnone => ?_, fun hsplit => ?_⟩
    · exact hconsistent.covered cur hcur p hcovers ((congrFun hpages p).trans hnone)
    · -- the far side is in the tree beside the whole range
      have hfar : { cur with start := last + 1 } ∈ t.ranges := by
        rw [ht, splitOff, if_pos hsplit]
        exact mem_insertBefore.mpr (Or.inr (mem_insertBefore.mpr (Or.inl rfl)))
      have hne : cur ≠ { cur with start := last + 1 } := by
        intro heq
        have hstart : cur.start = last + 1 := congrArg BindRange.start heq
        omega
      have hapart : Apart cur { cur with start := last + 1 } :=
        hconsistent.disjoint.forall hcur hfar hne
      have hend : ({ cur with start := last + 1 } : BindRange).last = cur.last := rfl
      have hbegin : ({ cur with start := last + 1 } : BindRange).start = last + 1 := rfl
      rw [Apart, hend, hbegin] at hapart
      omega
  · rintro ⟨hcovered, hwhole⟩
    have hperm : t.ranges.Perm vbo.ranges := by
      rw [ht, splitOff, if_neg hwhole]
      exact (treeInsert_perm cur _).trans (perm_cons_erase hmem).symm
    have hcount : t.vboCount = vbo.vboCount := by
      rw [ht, splitOff, if_neg hwhole]
      rfl
    have hpage := hmmu.unmapFailed vbo.pages (max start cur.start)
      (min last cur.last - max start cur.start + 1)
    refine Consistent.of_destroyed hrange ?_ (fun p id page hchild => ?_)
      (fun x hx p hcovers => ?_) (fun id => ?_) fun id => (hrefs id).trans (h.refs id)
    · exact (hperm.pairwise_iff Or.symm).mpr (disjoint_of_tree hwalk.tree)
    · rw [boundTo_perm hperm]
      rw [hpages] at hchild
      rcases hpage p with hsame | ⟨-, hnone⟩
      · exact h.walkMapped hwalk.toWalk (hsame.symm.trans hchild)
      · exact absurd (hnone.symm.trans hchild) (fun heq => by cases heq)
    · rw [hpages]
      by_cases heq : x = cur
      · exact hcovered p (heq ▸ hcovers)
      · have hxmem := hperm.mem_iff.mp hx
        rcases hpage p with hsame | ⟨hin, -⟩
        · exact fun hnone => hwalk.kept hmode x hxmem p hcovers (hsame.symm.trans hnone)
        · have hapart := hwalk.tree.disjoint hxmem hmem heq
          rw [BindRange.Covers] at hcovers
          rw [InBytes] at hin
          omega
    · rw [hcount, h.walkCount hwalk.toWalk, naming, naming, hperm.countP_eq]

end Failure

/-! ## Calls -/

/-- What holds of a virtual buffer between operations, with the references. -/
structure Counted (base held : ℕ → ℤ) (vbo : KgslVbo) : Prop extends Bound base vbo where
  refs : ∀ id, vbo.refs id = held id + naming vbo.ranges id

variable {base held : ℕ → ℤ}

theorem Counted.of_run (hmmu : mmu.Exact) (hunbound : vbo.Unbound) {s : KgslVbo}
    (hrun : Relation.ReflTransGen (GuardedStep RangeOk (workerStep mmu)) vbo s) :
    Counted vbo.vboCount vbo.refs s := by
  have hstart : PagedBound vbo.vboCount vbo :=
    ⟨hunbound.bound, fun r hr => absurd (hunbound.ranges ▸ hr) not_mem_nil⟩
  obtain ⟨hbound, hrefs⟩ : PagedBound vbo.vboCount s ∧ RefsWith vbo s :=
    invariant_of_guarded
      (fun s op (h : PagedBound vbo.vboCount s ∧ RefsWith vbo s) hop =>
        ⟨h.1.workerStep hmmu hop, h.2.trans (refsWith_workerStep mmu s op)⟩)
      ⟨hstart, fun _ => rfl⟩ hrun
  refine ⟨hbound.toBound, fun id => ?_⟩
  have hcount := hbound.vboCount id
  have hsame := hrefs id
  omega

theorem Counted.started (h : Counted base held vbo) (entry : ℕ) :
    Started base held entry (vbo.bindRangeCreate entry) where
  tree := h.tree
  inside := h.inside
  pages := h.pages
  vboCount := fun id => by
    have hold := h.vboCount id
    have hranges : (vbo.bindRangeCreate entry).ranges = vbo.ranges := rfl
    rw [hranges, bindRangeCreate]
    show update vbo.vboCount entry (vbo.vboCount entry + 1) id = _
    by_cases heq : id = entry
    · rw [heq, update_self, if_pos rfl, ← heq, hold]
    · rw [update_of_ne heq, if_neg heq, hold, Int.add_zero]
  refs := fun id => by
    have hsame := refsWith_count vbo entry 1 id
    have hcount := h.vboCount id
    have hrefs := h.refs id
    rw [bindRangeCreate]
    omega

theorem Started.first {entry : ℕ} (h : Started base held entry vbo₀) (hle : start ≤ last) :
    CleanWalk vbo₀ start last (unmapCall exactMmu vbo₀ start (last - start + 1)).2
      (iterFirst BindRange.start BindRange.last vbo₀.ranges start last) := by
  have hwalk := Walk.first exactMmu_exact hle h.tree h.inside h.pages
  have hunmap := unmapCall_eq exactMmu_exact vbo₀ start (last - start + 1)
  refine ⟨hwalk, fun hmode r hr p hcovers => ?_, ?_⟩
  · rw [hunmap] at hr ⊢
    obtain ⟨page, hchild⟩ := (h.pages p r.entry).mpr ⟨r, hr, rfl, hcovers⟩
    show (if vbo₀.noMapZero then vbo₀.pages else _) p ≠ _
    rw [if_pos hmode, hchild]
    exact fun heq => by cases heq
  · rw [hunmap, head?_filter]
    rfl

theorem unmapCall_cases (hmmu : mmu.Reports) (vbo : KgslVbo) (lo len : ℕ) :
    let r := mmu.unmapRange vbo.pages lo len
    (unmapCall mmu vbo lo len = unmapCall exactMmu vbo lo len ∧
      (vbo.noMapZero ≠ true → r.1 = 0)) ∨
    (vbo.noMapZero ≠ true ∧ r.1 ≠ 0 ∧
      unmapCall mmu vbo lo len = (r.1, { vbo with pages := r.2 })) := by
  intro r
  rw [unmapCall, unmapCall]
  by_cases hmode : vbo.noMapZero = true
  · have hnot : ¬ (!vbo.noMapZero) = true := by simp [hmode]
    exact Or.inl ⟨by rw [if_neg hnot, if_neg hnot], fun hne => absurd hmode hne⟩
  · have hunmaps : (!vbo.noMapZero) = true := by simpa using hmode
    rw [if_pos hunmaps, if_pos hunmaps]
    by_cases hzero : r.1 = 0
    · refine Or.inl ⟨?_, fun _ => hzero⟩
      rw [hmmu.unmapRange _ _ _ hzero]
      rfl
    · exact Or.inr ⟨hmode, hzero, rfl⟩

/-- A bind operation that fails leaves the tree as it has to be exactly if the call into the MMU
that failed is an unmap that has unmapped no page of a range and was not for the middle of a range,
or a map that left no page mapped. -/
theorem failed_bind_consistent_iff (hmmu : mmu.Reports) (h : Counted base held vbo)
    (hle : start ≤ last) (entry offset : ℕ)
    (hfail : (addRange mmu vbo start last entry offset (.ok ())).1 ≠ 0) :
    Consistent base held (addRange mmu vbo start last entry offset (.ok ())).2 ↔
      FailsCleanly mmu vbo start last entry offset := by
  have hstarted := h.started entry
  have hmode : (vbo.bindRangeCreate entry).noMapZero = vbo.noMapZero := rfl
  have hpages : (vbo.bindRangeCreate entry).pages = vbo.pages := rfl
  have hranges : (vbo.bindRangeCreate entry).ranges = vbo.ranges := rfl
  rw [addRange] at hfail ⊢
  rw [FailsCleanly, ← hmode, ← hpages, ← hranges]
  generalize vbo.bindRangeCreate entry = vbo₀ at hstarted hfail ⊢
  rcases unmapCall_cases hmmu vbo₀ start (last - start + 1) with ⟨heq, hzero⟩ | ⟨hmode, hne, heq⟩
  · have hexact := unmapCall_eq exactMmu_exact vbo₀ start (last - start + 1)
    have hfirst := hstarted.first hle
    rw [heq] at hfail ⊢
    rw [hexact] at hfirst hfail ⊢
    dsimp only at hfirst hfail ⊢
    rw [if_neg (fun hne => hne rfl)] at hfail ⊢
    have hrefs := refsWith_walkRanges mmu start last vbo₀.ranges.length
      { vbo₀ with pages :=
        if vbo₀.noMapZero then vbo₀.pages else unmapPages vbo₀.pages start (last - start + 1) }
      (iterFirst BindRange.start BindRange.last vbo₀.ranges start last)
    have hrun := hfirst.run hmmu hle (mmu.MapsCleanly start last entry offset) vbo₀.ranges.length
      countP_le_length
    generalize walkRanges mmu start last vbo₀.ranges.length _ _ = w at hrun hrefs hfail ⊢
    rcases hrun with ⟨hdone, hwalk, hundoes, hkeeps⟩ |
      ⟨hfailed, hmode, v, cur, hwalk, hend, hundoes⟩
    · rw [if_neg (fun hne => hne hdone)] at hfail ⊢
      by_cases hmap : (mmu.mapChild w.2.pages start entry offset (last - start + 1)).1 ≠ 0
      · rw [if_pos hmap]
        refine (consistent_mapFailed hmmu hle hstarted hwalk.toWalk hrefs rfl hmap).trans ?_
        split
        · rename_i hmode
          have hall := hundoes hmode
          rw [if_pos hmode] at hall
          exact hall.symm
        · rename_i hmode
          have hcall := hzero hmode
          rw [if_pos hcall, hkeeps hmode, if_neg hmode, hmmu.unmapRange _ _ _ hcall]
      · rw [if_neg hmap] at hfail
        exact absurd rfl hfail
    · rw [if_pos hfailed, if_pos hmode]
      rw [if_pos hmode] at hundoes
      exact (consistent_walkFailed hmmu hstarted hmode hwalk rfl hrefs hend).trans hundoes.symm
  · rw [heq]
    dsimp only
    rw [if_pos hne, if_neg hmode]
    have hrange : (⟨start, last, entry⟩ : BindRange).entry = entry := rfl
    have hcall := consistent_callFailed hmmu hstarted hrange start (last - start + 1)
    rw [if_neg hne]
    exact hcall

/-- An MMU that does not unmap what begins at one offset. -/
def stuckMmu (stuck : ℕ) : KgslMmu :=
  { exactMmu with
    unmapRange := fun pages start len =>
      if start = stuck then (-22, pages) else exactMmu.unmapRange pages start len }

theorem stuckMmu_reports (stuck : ℕ) : (stuckMmu stuck).Reports where
  unmapRange := fun pages start len hok => by
    by_cases heq : start = stuck
    · simp [stuckMmu, heq] at hok
    · exact if_neg heq
  unmapFailed := fun pages start len p => by
    by_cases heq : start = stuck
    · exact Or.inl (congrFun (congrArg Prod.snd (if_pos heq)) p)
    · have hexact : (stuckMmu stuck).unmapRange pages start len =
          (0, unmapPages pages start len) := if_neg heq
      rw [hexact]
      show unmapPages pages start len p = pages p ∨ _ ∧ unmapPages pages start len p = _
      rw [unmapPages]
      split
      · rename_i hin
        exact Or.inr ⟨hin, rfl⟩
      · exact Or.inl rfl
  mapFailed := fun _ _ _ _ _ hfail => absurd rfl hfail

def fourPages : List RangeOp := [.bind ⟨0, 4 * pageSize, 1, 0, .ok ()⟩ false]

/-- The end of a range cannot be unmapped. -/
theorem failed_bind_consistent_iff_sample :
    let s := fourPages.foldl (workerStep exactMmu) sampleVbo
    Consistent sampleVbo.vboCount sampleVbo.refs
      (addRange (stuckMmu (3 * pageSize)) s (3 * pageSize) (5 * pageSize - 1) 2 0 (.ok ())).2 ↔
    FailsCleanly (stuckMmu (3 * pageSize)) s (3 * pageSize) (5 * pageSize - 1) 2 0 :=
  failed_bind_consistent_iff (stuckMmu_reports _)
    (Counted.of_run exactMmu_exact (show sampleVbo.Unbound from ⟨rfl, fun _ _ _ h => by cases h⟩)
      (guarded_foldl (by decide +kernel)))
    (by decide) 2 0 (by decide +kernel)

instance : DecidableRel Apart := fun x y =>
  inferInstanceAs (Decidable (x.last < y.start ∨ y.last < x.start))

/-- The middle of a range cannot be unmapped, and its end is in the tree twice. -/
theorem failed_split_overlaps :
    let s := fourPages.foldl (workerStep exactMmu) sampleVbo
    let r := addRange (stuckMmu pageSize) s pageSize (2 * pageSize - 1) 2 0 (.ok ())
    r.1 ≠ 0 ∧ ¬ Consistent sampleVbo.vboCount sampleVbo.refs r.2 :=
  ⟨by decide +kernel, fun h => absurd h.disjoint (by decide +kernel)⟩

end KgslVbo

end QcomModules.Kgsl
