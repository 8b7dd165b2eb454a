import QcomModules.Kgsl.VboBinding

/-! Unbinding takes out whole ranges, also where they go on outside of the call. -/

namespace QcomModules.Kgsl

open Library List

/-! ## Operations on ranges -/

/-- One operation of a bind request; `pendingFree` tells whether the child is being freed. -/
inductive RangeOp where
  | bind (op : BindOp) (pendingFree : Bool)
  | unbind (targetOffset length : ℕ) (entry : Option ℕ)

instance (r : BindRange) (p : ℕ) : Decidable (r.Covers p) := inferInstanceAs (Decidable (_ ∧ _))

/-- The range begins and ends at the bounds of pages. -/
structure BindRange.Paged (r : BindRange) : Prop where
  start : r.start % pageSize = 0
  last : (r.last + 1) % pageSize = 0

namespace KgslVbo

variable {mmu : KgslMmu} {vbo : KgslVbo} {start last : ℕ} {entry : Option ℕ}

/-- One turn of the loop of `kgsl_sharedmem_bind_worker`. -/
def workerStep (mmu : KgslMmu) (vbo : KgslVbo) : RangeOp → KgslVbo
  | .bind op pendingFree => if pendingFree then vbo else bindStep mmu vbo op
  | .unbind targetOffset length entry =>
    removeRange mmu vbo targetOffset (targetOffset + length - 1) entry

/-- What `kgsl_sharedmem_create_bind_op` checks of an unbind operation. -/
def UnbindOk (vbo : KgslVbo) (targetOffset length : ℕ) : Prop :=
  vbo.BindOk { targetOffset, length, entry := 0, childOffset := 0, created := .ok () }

instance (vbo : KgslVbo) (targetOffset length : ℕ) : Decidable (vbo.UnbindOk targetOffset length) :=
  inferInstanceAs (Decidable (vbo.BindOk _))

def RangeOk (vbo : KgslVbo) : RangeOp → Prop
  | .bind op _ => vbo.BindOk op
  | .unbind targetOffset length _ => vbo.UnbindOk targetOffset length

instance (vbo : KgslVbo) : (op : RangeOp) → Decidable (vbo.RangeOk op)
  | .bind op _ => inferInstanceAs (Decidable (vbo.BindOk op))
  | .unbind targetOffset length _ =>
    inferInstanceAs (Decidable (vbo.UnbindOk targetOffset length))

/-! ## The ranges taken out -/

/-- The ranges that a call takes out: those that overlap it and are bound to the entry. -/
def unbound (start last : ℕ) (entry : Option ℕ) (ranges : List BindRange) : List BindRange :=
  ranges.filter fun r =>
    overlaps BindRange.start BindRange.last start last r && decide (Unbinds entry r)

/-- What is left in place of an unbound page. -/
def hole (vbo : KgslVbo) : PageMapping := if vbo.noMapZero then .unmapped else .zeroPage

variable {ranges : List BindRange} {r : BindRange} {fuel p : ℕ} {P : BindRange → Prop} {op : BindOp}

theorem mem_unbound :
    r ∈ unbound start last entry ranges ↔
      r ∈ ranges ∧ (r.start ≤ last ∧ start ≤ r.last) ∧ Unbinds entry r := by
  rw [unbound, mem_filter, Bool.and_eq_true, overlaps_iff, decide_eq_true_iff]

/-- `vbo` after ranges were taken out of it. -/
structure Cleared (vbo : KgslVbo) (removed : List BindRange) (vbo' : KgslVbo) : Prop where
  size : vbo'.size = vbo.size
  noMapZero : vbo'.noMapZero = vbo.noMapZero
  ranges : vbo'.ranges = vbo.ranges.diff removed
  pages : ∀ p, vbo'.pages p =
    if ∃ r ∈ removed, InBytes r.start (r.last - r.start + 1) p then vbo.hole else vbo.pages p
  vboCount : ∀ entry, vbo'.vboCount entry - naming vbo'.ranges entry =
    vbo.vboCount entry - naming vbo.ranges entry

theorem unbindRange_eq (hmmu : mmu.Exact) (vbo : KgslVbo) (range : BindRange) :
    unbindRange mmu vbo range =
      { vbo.remove range with
        pages := fun p =>
          if InBytes range.start (range.last - range.start + 1) p then vbo.hole
          else vbo.pages p }.bindRangeDestroy range := by
  obtain ⟨size, noMapZero, ranges, pages, vboCount, refs⟩ := vbo
  simp only [unbindRange, hmmu.unmapRange, hmmu.mapZeroPageToRange, ne_eq, not_true_eq_false,
    if_false]
  cases noMapZero with
  | false =>
    have hpages : mapZeroPages (unmapPages pages range.start (range.last - range.start + 1))
        range.start (range.last - range.start + 1) = fun p =>
          if InBytes range.start (range.last - range.start + 1) p then .zeroPage else pages p := by
      funext p
      rw [mapZeroPages, unmapPages]
      split <;> rfl
    exact congrArg (fun pages => bindRangeDestroy
      (remove ⟨size, false, ranges, pages, vboCount, refs⟩ range) range) hpages
  | true => rfl

theorem unbindRange_cleared (hmmu : mmu.Exact) {range : BindRange} (hmem : range ∈ vbo.ranges) :
    Cleared vbo [range] (unbindRange mmu vbo range) := by
  rw [unbindRange_eq hmmu]
  exact
    { size := rfl
      noMapZero := rfl
      ranges := by
        rw [diff_cons, diff_nil]
        rfl
      pages := fun p => by
        simp only [mem_singleton, exists_eq_left]
        rfl
      vboCount := fun entry => by
        have hcount := naming_erase hmem entry
        show (Function.update vbo.vboCount range.entry (vbo.vboCount range.entry + -1)) entry -
          (naming (vbo.ranges.erase range) entry : ℤ) = _
        rw [hcount]
        by_cases heq : entry = range.entry
        · rw [heq, Function.update_self, if_pos rfl]
          push_cast
          omega
        · rw [Function.update_of_ne heq, if_neg heq, Nat.add_zero] }

theorem Cleared.trans {removed removed' : List BindRange} {vbo' vbo'' : KgslVbo}
    (h : Cleared vbo removed vbo') (h' : Cleared vbo' removed' vbo'') :
    Cleared vbo (removed ++ removed') vbo'' where
  size := h'.size.trans h.size
  noMapZero := h'.noMapZero.trans h.noMapZero
  ranges := by rw [h'.ranges, h.ranges, diff_append]
  pages := fun p => by
    have hhole : vbo'.hole = vbo.hole := by rw [hole, hole, h.noMapZero]
    rw [h'.pages, h.pages, hhole]
    simp only [mem_append, or_and_right, exists_or]
    split
    · rename_i hin
      rw [if_pos (Or.inr hin)]
    · rename_i hout
      simp only [hout, or_false]
  vboCount := fun entry => (h'.vboCount entry).trans (h.vboCount entry)

theorem foldl_unbindRange (hmmu : mmu.Exact) {removed : List BindRange} (hnodup : removed.Nodup)
    (hmem : ∀ r ∈ removed, r ∈ vbo.ranges) :
    Cleared vbo removed (removed.foldl (unbindRange mmu) vbo) := by
  induction removed generalizing vbo with
  | nil => exact ⟨rfl, rfl, rfl, fun p => by simp, fun _ => rfl⟩
  | cons r rs ih =>
    have hfirst := unbindRange_cleared hmmu (hmem r mem_cons_self)
    refine hfirst.trans (ih (nodup_cons.mp hnodup).2 fun x hx => ?_)
    have hne : x ≠ r := by
      rintro rfl
      exact (nodup_cons.mp hnodup).1 hx
    rw [hfirst.ranges, diff_cons, diff_nil]
    exact (mem_erase_of_ne hne).mpr (hmem x (mem_cons_of_mem r hx))

theorem unbindRanges_eq (hmmu : mmu.Exact) {front back : List BindRange}
    (hranges : vbo.ranges = front ++ back) (hnodup : vbo.ranges.Nodup)
    (hfuel : back.length ≤ fuel) :
    unbindRanges mmu start last entry fuel vbo
        (back.find? (overlaps BindRange.start BindRange.last start last)) =
      (unbound start last entry back).foldl (unbindRange mmu) vbo := by
  induction fuel generalizing vbo front back with
  | zero =>
    obtain rfl := length_eq_zero_iff.mp (Nat.le_zero.mp hfuel)
    rfl
  | succ fuel ih =>
    cases hfind : back.find? (overlaps BindRange.start BindRange.last start last) with
    | none =>
      have hnone : unbound start last entry back = [] := by
        refine filter_eq_nil_iff.mpr fun r hr => ?_
        have hnot := find?_eq_none.mp hfind r hr
        simp [hnot]
      rw [hnone]
      rfl
    | some range =>
      obtain ⟨hover, pre, post, rfl, hpre⟩ := find?_eq_some_iff_append.mp hfind
      rw [← append_assoc] at hranges
      rw [hranges] at hnodup
      obtain ⟨hsplit, hrest, hcross⟩ := nodup_append.mp hnodup
      have hnotMem : range ∉ front ++ pre := fun hmem =>
        hcross range hmem range mem_cons_self rfl
      have hskipped : unbound start last entry pre = [] := by
        refine filter_eq_nil_iff.mpr fun r hr => ?_
        have hnot : overlaps BindRange.start BindRange.last start last r = false := by
          simpa using hpre r hr
        simp [hnot]
      have hlength : post.length ≤ fuel := by
        rw [length_append, length_cons] at hfuel
        omega
      have hunbound : unbound start last entry (pre ++ range :: post) =
          (if Unbinds entry range then [range] else []) ++ unbound start last entry post := by
        have happend : unbound start last entry (pre ++ range :: post) =
            unbound start last entry pre ++ unbound start last entry (range :: post) :=
          filter_append ..
        rw [happend, hskipped, nil_append, unbound, filter_cons, hover, Bool.true_and]
        simp only [decide_eq_true_eq]
        split <;> rfl
      rw [unbindRanges, hranges, iterNext_append hnotMem, hunbound]
      split
      · rename_i hselected
        have hmem : range ∈ vbo.ranges :=
          hranges ▸ mem_append_right _ mem_cons_self
        have hcleared := unbindRange_cleared hmmu hmem
        have hleft : (unbindRange mmu vbo range).ranges = (front ++ pre) ++ post := by
          rw [hcleared.ranges, hranges, diff_cons, diff_nil,
            erase_append_right _ hnotMem, erase_cons_head]
        refine ih hleft ?_ hlength
        rw [hleft]
        exact hnodup.sublist ((sublist_cons_self range post).append_left _)
      · have hpassed : vbo.ranges = (front ++ pre ++ [range]) ++ post := by
          rw [hranges, append_assoc _ [range]]
          rfl
        exact ih hpassed (hranges ▸ hnodup) hlength

theorem removeRange_cleared (hmmu : mmu.Exact) (htree : RangeTree vbo.ranges) (start last : ℕ)
    (entry : Option ℕ) :
    Cleared vbo (unbound start last entry vbo.ranges) (removeRange mmu vbo start last entry) := by
  have hloop : unbindRanges mmu start last entry vbo.ranges.length vbo
      (vbo.ranges.find? (overlaps BindRange.start BindRange.last start last)) = _ :=
    unbindRanges_eq hmmu (nil_append vbo.ranges).symm htree.nodup (Nat.le_refl _)
  rw [removeRange, iterFirst, hloop]
  exact foldl_unbindRange hmmu (htree.nodup.filter _) fun r hr => (mem_unbound.mp hr).1

/-! ## What is bound afterwards -/

theorem covers_unique (htree : RangeTree ranges) {x y : BindRange} (hx : x ∈ ranges)
    (hy : y ∈ ranges) (hxp : x.Covers p) (hyp : y.Covers p) : x = y := by
  by_contra hne
  have hdisjoint := htree.disjoint hx hy hne
  rw [BindRange.Covers] at hxp hyp
  omega

theorem inBytes_range_iff (hr : r.start ≤ r.last) :
    InBytes r.start (r.last - r.start + 1) p ↔ r.Covers p := inBytes_iff hr p

section Cleared

variable {base : ℕ → ℤ} {removed : List BindRange} {vbo' : KgslVbo}

theorem Cleared.mem_iff (h : Cleared vbo removed vbo') (hbound : Bound base vbo) {r : BindRange} :
    r ∈ vbo'.ranges ↔ r ∈ vbo.ranges ∧ r ∉ removed := by
  rw [h.ranges, Nodup.mem_sdiff_iff hbound.tree.nodup]

theorem Cleared.page (h : Cleared vbo removed vbo') (hbound : Bound base vbo)
    (hremoved : ∀ r ∈ removed, r ∈ vbo.ranges) (p : ℕ) :
    ((∃ r ∈ removed, r.Covers p) ∧
      (∀ id, ¬ BoundTo vbo'.ranges p id) ∧ ∀ id page, vbo'.pages p ≠ .child id page) ∨
    ((¬ ∃ r ∈ removed, r.Covers p) ∧
      vbo'.pages p = vbo.pages p ∧ ∀ id, BoundTo vbo'.ranges p id ↔ BoundTo vbo.ranges p id) := by
  have hbytes : (∃ r ∈ removed, InBytes r.start (r.last - r.start + 1) p) ↔
      ∃ r ∈ removed, r.Covers p :=
    exists_congr fun r => and_congr_right fun hr =>
      inBytes_range_iff (hbound.tree.proper r (hremoved r hr))
  have hpages : vbo'.pages p = if ∃ r ∈ removed, r.Covers p then vbo.hole else vbo.pages p :=
    (h.pages p).trans (if_congr hbytes rfl rfl)
  by_cases hcovered : ∃ r ∈ removed, r.Covers p
  · refine Or.inl ⟨hcovered, ?_⟩
    rw [if_pos hcovered] at hpages
    obtain ⟨r, hr, hcovers⟩ := hcovered
    refine ⟨?_, fun id page => ?_⟩
    · rintro id ⟨x, hx, -, hxcovers⟩
      obtain ⟨hxmem, hxnot⟩ := (h.mem_iff hbound).mp hx
      exact hxnot (covers_unique hbound.tree hxmem (hremoved r hr) hxcovers hcovers ▸ hr)
    · rw [hpages, hole]
      split <;> simp
  · refine Or.inr ⟨hcovered, ?_⟩
    rw [if_neg hcovered] at hpages
    refine ⟨hpages, fun id => ⟨?_, ?_⟩⟩
    · rintro ⟨x, hx, hxbound⟩
      exact ⟨x, ((h.mem_iff hbound).mp hx).1, hxbound⟩
    · rintro ⟨x, hx, hentry, hcovers⟩
      have hkept : x ∉ removed := fun hin => hcovered ⟨x, hin, hcovers⟩
      exact ⟨x, (h.mem_iff hbound).mpr ⟨hx, hkept⟩, hentry, hcovers⟩

theorem Cleared.bound (h : Cleared vbo removed vbo') (hbound : Bound base vbo)
    (hremoved : ∀ r ∈ removed, r ∈ vbo.ranges) : Bound base vbo' where
  tree := by
    rw [h.ranges]
    exact hbound.tree.sublist (diff_sublist _ _)
  inside := fun r hr => by
    rw [h.size]
    exact hbound.inside r ((h.mem_iff hbound).mp hr).1
  pages := fun p id => by
    rcases h.page hbound hremoved p with ⟨-, hnot, hpage⟩ | ⟨-, hpage, hsame⟩
    · refine iff_of_false ?_ (hnot id)
      rintro ⟨page, hchild⟩
      exact hpage id page hchild
    · rw [hpage, hsame id]
      exact hbound.pages p id
  vboCount := fun id => by
    have hcount := h.vboCount id
    have hbase := hbound.vboCount id
    omega

end Cleared

/-! ## Whole pages -/

theorem trimRange_forall {cur : BindRange} (hcur : P cur)
    (hright : P { cur with start := last + 1 })
    (hleft : cur.start < start → P { cur with last := start - 1 }) (hall : ∀ r ∈ vbo.ranges, P r) :
    ∀ r ∈ (trimRange mmu start last vbo cur).2.ranges, P r := by
  have hinsert : ∀ {v : KgslVbo} {r : BindRange}, P r → (∀ x ∈ v.ranges, P x) →
      ∀ x ∈ (v.insert r).ranges, P x := by
    intro v r hr hv x hx
    rcases mem_insertBefore.mp hx with rfl | hold
    · exact hr
    · exact hv x hold
  have hunmap : ∀ {v : KgslVbo} {lo len : ℕ}, (∀ x ∈ v.ranges, P x) →
      ∀ x ∈ (unmapOverlap mmu v lo len).2.ranges, P x := by
    intro v lo len hv
    rw [unmapOverlap]
    split <;> exact hv
  rw [trimRange]
  split
  · split
    · simp only
      split
      · exact hinsert hcur (hunmap hall)
      · exact hunmap hall
    · simp only
      split
      · exact hinsert hcur (hunmap hall)
      · exact hinsert hright (hunmap hall)
  · rename_i hbefore
    have hsplit : ∀ x ∈ (if last < cur.last then
        (vbo.bindRangeCreate cur.entry).insert { cur with start := last + 1 } else vbo).ranges,
        P x := by
      split
      · exact hinsert hright hall
      · exact hall
    generalize (if last < cur.last then
        (vbo.bindRangeCreate cur.entry).insert { cur with start := last + 1 }
      else vbo) = v at hsplit ⊢
    dsimp only
    split
    · exact hinsert hcur (hunmap hsplit)
    · exact hinsert (hleft (Nat.lt_of_not_le hbefore)) (hunmap hsplit)

theorem walkRanges_forall (hright : ∀ cur, P cur → P { cur with start := last + 1 })
    (hleft : ∀ cur, P cur → cur.start < start → P { cur with last := start - 1 })
    {next : Option BindRange} (hnext : ∀ cur ∈ next, P cur) (hall : ∀ r ∈ vbo.ranges, P r) :
    ∀ r ∈ (walkRanges mmu start last fuel vbo next).2.ranges, P r := by
  induction fuel generalizing vbo next with
  | zero => cases next <;> exact hall
  | succ fuel ih =>
    cases next with
    | none => exact hall
    | some cur =>
      have hcur := hnext cur rfl
      have htrimmed : ∀ r ∈ (trimRange mmu start last (vbo.remove cur) cur).2.ranges, P r :=
        trimRange_forall hcur (hright cur hcur) (hleft cur hcur)
          fun r hr => hall r (erase_subset hr)
      rw [walkRanges]
      split
      · exact htrimmed
      · refine ih (fun y hy => hall y ?_) htrimmed
        have hbehind := mem_of_mem_tail (mem_of_find?_eq_some hy)
        exact (dropWhile_sublist _).subset hbehind

theorem addRange_forall (hright : ∀ cur, P cur → P { cur with start := last + 1 })
    (hleft : ∀ cur, P cur → cur.start < start → P { cur with last := start - 1 }) {id offset : ℕ}
    (hnew : P { start, last, entry := id }) (hall : ∀ r ∈ vbo.ranges, P r)
    (created : Except ℤ Unit) :
    ∀ r ∈ (addRange mmu vbo start last id offset created).2.ranges, P r := by
  have hunmap : ∀ {v : KgslVbo} {lo len : ℕ}, (∀ x ∈ v.ranges, P x) →
      ∀ x ∈ (unmapCall mmu v lo len).2.ranges, P x := by
    intro v lo len hv
    rw [unmapCall]
    split <;> exact hv
  cases created with
  | error => exact hall
  | ok =>
    rw [addRange]
    have hcall : ∀ x ∈ (unmapCall mmu (vbo.bindRangeCreate id) start (last - start + 1)).2.ranges,
        P x := hunmap hall
    generalize unmapCall mmu (vbo.bindRangeCreate id) start (last - start + 1) = c at hcall ⊢
    have hwalk : ∀ x ∈ (walkRanges mmu start last c.2.ranges.length c.2
        (iterFirst BindRange.start BindRange.last c.2.ranges start last)).2.ranges, P x :=
      walkRanges_forall hright hleft
        (fun cur hcur => hcall cur (mem_of_find?_eq_some hcur)) hcall
    dsimp only
    split
    · exact hcall
    · split
      · exact hwalk
      · split
        · exact hwalk
        · intro x hx
          rcases mem_insertBefore.mp hx with rfl | hold
          · exact hnew
          · exact hwalk x hold

/-! ## Runs -/

theorem inside_of_pages (h : r.Paged) (hproper : r.start ≤ r.last)
    (hlast : (last + 1) % pageSize = 0) (hpages : ∀ p, r.Covers p → InCall start last p) :
    start ≤ r.start ∧ r.last ≤ last := by
  have hstart := h.start
  have hend := h.last
  have hfirst := hpages (r.start / pageSize)
  have hfinal := hpages ((r.last + 1) / pageSize - 1)
  rw [pageSize] at hstart hend hlast
  simp only [BindRange.Covers, InCall, pageSize] at hfirst hfinal
  constructor
  · have := hfirst (by omega)
    omega
  · have := hfinal (by omega)
    omega

/-- What holds of a virtual buffer between operations. -/
structure PagedBound (base : ℕ → ℤ) (vbo : KgslVbo) : Prop extends Bound base vbo where
  paged : ∀ r ∈ vbo.ranges, r.Paged

theorem BindOk.paged (h : vbo.BindOk op) (id : ℕ) :
    BindRange.Paged ⟨op.targetOffset, op.targetOffset + op.length - 1, id⟩ := by
  have hoffset := h.offset_aligned
  have hlength := h.length_aligned
  have hne := h.length_ne
  rw [pageSize] at hoffset hlength
  refine ⟨h.offset_aligned, ?_⟩
  show (op.targetOffset + op.length - 1 + 1) % 4096 = 0
  omega

theorem PagedBound.bindStep (hmmu : mmu.Exact) {base : ℕ → ℤ} (h : PagedBound base vbo)
    (hok : vbo.BindOk op) : PagedBound base (bindStep mmu vbo op) := by
  have hpaged := hok.paged op.entry
  refine ⟨h.toBound.step hmmu hok, addRange_forall (fun cur hcur => ⟨hpaged.last, hcur.last⟩)
    (fun cur hcur hlt => ⟨hcur.start, ?_⟩) hpaged h.paged op.created⟩
  show (op.targetOffset - 1 + 1) % pageSize = 0
  rw [Nat.sub_add_cancel (Nat.one_le_of_lt hlt)]
  exact hpaged.start

theorem PagedBound.removeRange (hmmu : mmu.Exact) {base : ℕ → ℤ} (h : PagedBound base vbo)
    (start last : ℕ) (entry : Option ℕ) :
    PagedBound base (removeRange mmu vbo start last entry) := by
  have hcleared := removeRange_cleared hmmu h.tree start last entry
  refine ⟨hcleared.bound h.toBound fun r hr => (mem_unbound.mp hr).1, fun r hr => ?_⟩
  exact h.paged r ((hcleared.mem_iff h.toBound).mp hr).1

theorem PagedBound.workerStep (hmmu : mmu.Exact) {base : ℕ → ℤ} (h : PagedBound base vbo)
    {op : RangeOp} (hok : vbo.RangeOk op) : PagedBound base (workerStep mmu vbo op) := by
  cases op with
  | bind op pendingFree =>
    rw [KgslVbo.workerStep]
    split
    · exact h
    · exact h.bindStep hmmu hok
  | unbind targetOffset length entry => exact h.removeRange hmmu _ _ entry

/-- An unbind operation changes nothing outside of its pages exactly if all the ranges that it
takes out lie inside them; inside nothing stays bound to the entry. -/
theorem unbind_frame_iff (hmmu : mmu.Exact) (hunbound : vbo.Unbound) {s : KgslVbo}
    (hrun : Relation.ReflTransGen (GuardedStep RangeOk (workerStep mmu)) vbo s)
    {offset length : ℕ} (hok : s.UnbindOk offset length) (entry : Option ℕ) :
    let last := offset + length - 1
    let t := removeRange mmu s offset last entry
    ((∀ p, ¬ InCall offset last p → t.pages p = s.pages p ∧
        ∀ id, BoundTo t.ranges p id ↔ BoundTo s.ranges p id) ∧
      ∀ p, InCall offset last p → ∀ id, (∀ e ∈ entry, id = e) → BoundTo s.ranges p id →
        ¬ BoundTo t.ranges p id ∧ ∀ page, t.pages p ≠ .child id page) ↔
    ∀ r ∈ s.ranges, r.start ≤ last → offset ≤ r.last → Unbinds entry r →
      offset ≤ r.start ∧ r.last ≤ last := by
  intro last t
  have hbound : PagedBound vbo.vboCount s :=
    invariant_of_guarded (fun _ _ hs hop => hs.workerStep hmmu hop)
      ⟨hunbound.bound, fun r hr => absurd (hunbound.ranges ▸ hr) not_mem_nil⟩ hrun
  have hcleared : Cleared s (unbound offset last entry s.ranges) t :=
    removeRange_cleared hmmu hbound.tree offset last entry
  have hremoved : ∀ r ∈ unbound offset last entry s.ranges, r ∈ s.ranges :=
    fun r hr => (mem_unbound.mp hr).1
  have hpage := hcleared.page hbound.toBound hremoved
  constructor
  · rintro ⟨hout, -⟩ r hr hstart hlast hentry
    have htaken : r ∈ unbound offset last entry s.ranges :=
      mem_unbound.mpr ⟨hr, ⟨hstart, hlast⟩, hentry⟩
    -- a page of the range outside of the call would be unbound
    have hinside : ∀ p, r.Covers p → InCall offset last p := by
      intro p hcovers
      by_contra hnot
      rcases hpage p with ⟨-, hnone, -⟩ | ⟨hnone, -⟩
      · exact hnone r.entry (((hout p hnot).2 r.entry).mpr ⟨r, hr, rfl, hcovers⟩)
      · exact hnone ⟨r, htaken, hcovers⟩
    exact inside_of_pages (hbound.paged r hr) (hbound.tree.proper r hr) (hok.paged 0).last hinside
  · intro hinside
    refine ⟨fun p hp => ?_, fun p hp id hid hbind => ?_⟩
    · rcases hpage p with ⟨⟨r, hr, hcovers⟩, -⟩ | ⟨-, hsame⟩
      · obtain ⟨hmem, hover, hentry⟩ := mem_unbound.mp hr
        obtain ⟨hlow, hhigh⟩ := hinside r hmem hover.1 hover.2 hentry
        exact absurd ⟨Nat.le_trans hlow hcovers.1, Nat.le_trans hcovers.2 hhigh⟩ hp
      · exact hsame
    · obtain ⟨r, hr, hentry, hcovers⟩ := hbind
      have htaken : r ∈ unbound offset last entry s.ranges := by
        refine mem_unbound.mpr ⟨hr, ⟨?_, ?_⟩, fun e he => hentry.trans (hid e he)⟩
        · exact Nat.le_trans hcovers.1 hp.2
        · exact Nat.le_trans hp.1 hcovers.2
      rcases hpage p with ⟨-, hnone, hpages⟩ | ⟨hnone, -⟩
      · exact ⟨hnone id, hpages id⟩
      · exact absurd ⟨r, htaken, hcovers⟩ hnone

def sampleRangeOps : List RangeOp :=
  [.bind ⟨0, 2 * pageSize, 1, 0, .ok ()⟩ false, .bind ⟨2 * pageSize, pageSize, 2, 0, .ok ()⟩ false]

theorem unbind_frame_iff_sample :
    let s := sampleRangeOps.foldl (workerStep exactMmu) sampleVbo
    let last := 0 + 2 * pageSize - 1
    let t := removeRange exactMmu s 0 last none
    ((∀ p, ¬ InCall 0 last p → t.pages p = s.pages p ∧
        ∀ id, BoundTo t.ranges p id ↔ BoundTo s.ranges p id) ∧
      ∀ p, InCall 0 last p → ∀ id, (∀ e ∈ (none : Option ℕ), id = e) → BoundTo s.ranges p id →
        ¬ BoundTo t.ranges p id ∧ ∀ page, t.pages p ≠ .child id page) ↔
    ∀ r ∈ s.ranges, r.start ≤ last → 0 ≤ r.last → Unbinds none r → 0 ≤ r.start ∧ r.last ≤ last :=
  unbind_frame_iff exactMmu_exact (show sampleVbo.Unbound from ⟨rfl, fun _ _ _ h => by cases h⟩)
    (guarded_foldl (by decide +kernel)) (by decide +kernel) none

instance (start last p : ℕ) : Decidable (InCall start last p) :=
  inferInstanceAs (Decidable (_ ∧ _))

instance (ranges : List BindRange) (p id : ℕ) : Decidable (BoundTo ranges p id) :=
  inferInstanceAs (Decidable (∃ r ∈ ranges, r.entry = id ∧ r.Covers p))

/-- One page of a child of two pages is unbound, and the other one goes with it. -/
theorem unbind_loses_neighbour :
    let s := sampleRangeOps.foldl (workerStep exactMmu) sampleVbo
    let t := removeRange exactMmu s 0 (pageSize - 1) (some 1)
    ¬ InCall 0 (pageSize - 1) 1 ∧ s.pages 1 = .child 1 1 ∧ t.pages 1 = .unmapped ∧
      BoundTo s.ranges 1 1 ∧ ¬ BoundTo t.ranges 1 1 := by
  decide +kernel

end KgslVbo

end QcomModules.Kgsl
