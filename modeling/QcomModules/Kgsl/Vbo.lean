import Mathlib
import QcomModules.Library.IntervalTree

/-! Virtual buffer objects: ranges of a GPU address range that are bound to child buffers. -/

namespace QcomModules.Kgsl

open Library

/-! ## Pages -/

def pageSize : ℕ := 4096

/-- What a page of a virtual buffer is mapped to. -/
inductive PageMapping where
  | unmapped
  | zeroPage
  | child (entry page : ℕ)
deriving Repr, DecidableEq

/-- The first byte of page `p` is among the `len` bytes from `start` on. -/
def InBytes (start len p : ℕ) : Prop := start ≤ p * pageSize ∧ p * pageSize < start + len

instance (start len p : ℕ) : Decidable (InBytes start len p) := inferInstanceAs (Decidable (_ ∧ _))

def unmapPages (pages : ℕ → PageMapping) (start len : ℕ) : ℕ → PageMapping :=
  fun p => if InBytes start len p then .unmapped else pages p

def mapChildPages (pages : ℕ → PageMapping) (start entry offset len : ℕ) : ℕ → PageMapping :=
  fun p =>
    if InBytes start len p then .child entry ((offset + (p * pageSize - start)) / pageSize)
    else pages p

def mapZeroPages (pages : ℕ → PageMapping) (start len : ℕ) : ℕ → PageMapping :=
  fun p => if InBytes start len p then .zeroPage else pages p

/-- The calls into the MMU: a return value and the pages afterwards. -/
structure KgslMmu where
  unmapRange : (ℕ → PageMapping) → ℕ → ℕ → ℤ × (ℕ → PageMapping)
  mapChild : (ℕ → PageMapping) → ℕ → ℕ → ℕ → ℕ → ℤ × (ℕ → PageMapping)
  mapZeroPageToRange : (ℕ → PageMapping) → ℕ → ℕ → ℤ × (ℕ → PageMapping)

/-- The calls succeed and act on exactly the given pages. -/
structure KgslMmu.Exact (mmu : KgslMmu) : Prop where
  unmapRange : ∀ pages start len, mmu.unmapRange pages start len = (0, unmapPages pages start len)
  mapChild : ∀ pages start entry offset len,
    mmu.mapChild pages start entry offset len = (0, mapChildPages pages start entry offset len)
  mapZeroPageToRange : ∀ pages start len,
    mmu.mapZeroPageToRange pages start len = (0, mapZeroPages pages start len)

/-! ## Ranges -/

/-- `struct kgsl_memdesc_bind_range`: the bytes `start` to `last` bound to an entry. -/
structure BindRange where
  start : ℕ
  last : ℕ
  entry : ℕ
deriving Repr, DecidableEq

/-- The parts of a virtual buffer that binding uses, with the `vbo_count` of the entries and the
references on them. -/
structure KgslVbo where
  size : ℕ
  noMapZero : Bool
  ranges : List BindRange
  pages : ℕ → PageMapping
  vboCount : ℕ → ℤ
  refs : ℕ → ℤ

namespace KgslVbo

/-- A range counts for its entry and holds a reference on it. -/
def count (vbo : KgslVbo) (entry : ℕ) (d : ℤ) : KgslVbo :=
  { vbo with
    vboCount := Function.update vbo.vboCount entry (vbo.vboCount entry + d)
    refs := Function.update vbo.refs entry (vbo.refs entry + d) }

/-- `bind_range_create` where it succeeds. -/
def bindRangeCreate (vbo : KgslVbo) (entry : ℕ) : KgslVbo := vbo.count entry 1

def bindRangeDestroy (vbo : KgslVbo) (range : BindRange) : KgslVbo := vbo.count range.entry (-1)

def insert (vbo : KgslVbo) (range : BindRange) : KgslVbo :=
  { vbo with ranges := treeInsert BindRange.start range vbo.ranges }

def remove (vbo : KgslVbo) (range : BindRange) : KgslVbo :=
  { vbo with ranges := vbo.ranges.erase range }

/-- The unmapping of the overlap of the new range and `cur`, where the virtual buffer does
not map the zero page. -/
def unmapOverlap (mmu : KgslMmu) (vbo : KgslVbo) (start len : ℕ) : ℤ × KgslVbo :=
  if vbo.noMapZero then
    let r := mmu.unmapRange vbo.pages start len
    (r.1, { vbo with pages := r.2 })
  else (0, vbo)

/-- What `kgsl_memdesc_add_range` does with a range `cur` that it took out of the tree. -/
def trimRange (mmu : KgslMmu) (start last : ℕ) (vbo : KgslVbo) (cur : BindRange) : ℤ × KgslVbo :=
  if start ≤ cur.start then
    if cur.last ≤ last then
      let r := unmapOverlap mmu vbo cur.start (cur.last - cur.start + 1)
      if r.1 ≠ 0 then (r.1, r.2.insert cur) else (0, r.2.bindRangeDestroy cur)
    else
      let r := unmapOverlap mmu vbo cur.start (last - cur.start + 1)
      if r.1 ≠ 0 then (r.1, r.2.insert cur)
      else (0, r.2.insert { cur with start := last + 1 })
  else
    -- the far side of a split gets a range of its own
    let vbo' :=
      if last < cur.last then
        (vbo.bindRangeCreate cur.entry).insert { cur with start := last + 1 }
      else vbo
    let r := unmapOverlap mmu vbo' start (min cur.last last - start + 1)
    if r.1 ≠ 0 then (r.1, r.2.insert cur)
    else (0, r.2.insert { cur with last := start - 1 })

/-- The loop of `kgsl_memdesc_add_range`, which finds the next range before it takes the
current one out. -/
def walkRanges (mmu : KgslMmu) (start last : ℕ) :
    ℕ → KgslVbo → Option BindRange → ℤ × KgslVbo
  | _, vbo, none => (0, vbo)
  | 0, vbo, some _ => (0, vbo)
  | fuel + 1, vbo, some cur =>
    let next := iterNext BindRange.start BindRange.last vbo.ranges cur start last
    let r := trimRange mmu start last (vbo.remove cur) cur
    if r.1 ≠ 0 then r else walkRanges mmu start last fuel r.2 next

/-- The unmapping of the whole new range, where the virtual buffer maps the zero page. -/
def unmapCall (mmu : KgslMmu) (vbo : KgslVbo) (start len : ℕ) : ℤ × KgslVbo :=
  if !vbo.noMapZero then
    let r := mmu.unmapRange vbo.pages start len
    (r.1, { vbo with pages := r.2 })
  else (0, vbo)

/-- `kgsl_memdesc_add_range`; `created` has the error of `bind_range_create` on the new range,
if any. -/
def addRange (mmu : KgslMmu) (vbo : KgslVbo) (start last entry offset : ℕ)
    (created : Except ℤ Unit) : ℤ × KgslVbo :=
  match created with
  | .error ret => (ret, vbo)
  | .ok _ =>
    let range : BindRange := { start := start, last := last, entry := entry }
    let vbo := vbo.bindRangeCreate entry
    let r := unmapCall mmu vbo start (last - start + 1)
    if r.1 ≠ 0 then (r.1, r.2.bindRangeDestroy range)
    else
      let first := iterFirst BindRange.start BindRange.last r.2.ranges start last
      let w := walkRanges mmu start last r.2.ranges.length r.2 first
      if w.1 ≠ 0 then (w.1, w.2.bindRangeDestroy range)
      else
        let m := mmu.mapChild w.2.pages start entry offset (last - start + 1)
        if m.1 ≠ 0 then (m.1, { w.2 with pages := m.2 }.bindRangeDestroy range)
        else (0, { w.2 with pages := m.2 }.insert range)

/-- What `kgsl_memdesc_remove_range` does with a range that is bound to the entry. -/
def unbindRange (mmu : KgslMmu) (vbo : KgslVbo) (range : BindRange) : KgslVbo :=
  let len := range.last - range.start + 1
  let r := mmu.unmapRange vbo.pages range.start len
  if r.1 ≠ 0 then { vbo with pages := r.2 }
  else
    let vbo := { vbo with pages := r.2 }.remove range
    let vbo :=
      if !vbo.noMapZero then
        { vbo with pages := (mmu.mapZeroPageToRange vbo.pages range.start len).2 }
      else vbo
    vbo.bindRangeDestroy range

/-- A request without an entry is for all ranges. -/
def Unbinds (entry : Option ℕ) (range : BindRange) : Prop := ∀ id ∈ entry, range.entry = id

instance (entry : Option ℕ) (range : BindRange) : Decidable (Unbinds entry range) :=
  inferInstanceAs (Decidable (∀ id ∈ entry, range.entry = id))

/-- The loop of `kgsl_memdesc_remove_range`. -/
def unbindRanges (mmu : KgslMmu) (start last : ℕ) (entry : Option ℕ) :
    ℕ → KgslVbo → Option BindRange → KgslVbo
  | _, vbo, none => vbo
  | 0, vbo, some _ => vbo
  | fuel + 1, vbo, some range =>
    let next := iterNext BindRange.start BindRange.last vbo.ranges range start last
    unbindRanges mmu start last entry fuel
      (if Unbinds entry range then unbindRange mmu vbo range else vbo) next

def removeRange (mmu : KgslMmu) (vbo : KgslVbo) (start last : ℕ) (entry : Option ℕ) : KgslVbo :=
  unbindRanges mmu start last entry vbo.ranges.length vbo
    (iterFirst BindRange.start BindRange.last vbo.ranges start last)

/-- `kgsl_memdesc_check_range`, in 64-bit arithmetic. -/
def checkRange (vbo : KgslVbo) (offset length : ℕ) : Bool :=
  let sum := (offset + length) % 2 ^ 64
  decide (offset < vbo.size) && decide (offset < sum) && decide (sum ≤ vbo.size)

end KgslVbo

end QcomModules.Kgsl
