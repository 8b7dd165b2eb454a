import Mathlib
import QcomModules.Library.SearchTree

/-! GPU addresses of a per-process 64-bit pagetable. -/

namespace QcomModules.Kgsl

open Library

/-! ## The pagetable -/

def gpuaddrENoMem : ℤ := -12

def gpuaddrEInval : ℤ := -22

def gpuaddrEExist : ℤ := -17

def gpuaddrEBusy : ℤ := -16

def kgslIommuSvmBase64 : ℕ := 0x1000000000

def kgslIommuSvmEnd64 : ℕ := 0x4000000000

def kgslIommuVaBase64 : ℕ := 0x4000000000

def kgslIommuVaEnd64 : ℕ := 0x8000000000

/-- `KGSL_MEMSTORE_TOKEN_ADDRESS`: below the secure range, which ends at 4 GiB. -/
def kgslMemstoreTokenAddress : ℕ := 0x100000000 - 0x10000000 - 0x1000

def kgslIommuGlobalMemBase64 : ℕ := kgslMemstoreTokenAddress - 90 * 0x100000

/-- `KGSL_IOMMU_SVM_END32` with 64-bit addresses. -/
def kgslIommuSvmEnd32 (iopgtable : Bool) : ℕ :=
  if iopgtable then kgslMemstoreTokenAddress else kgslIommuGlobalMemBase64

/-- The range an address was requested from. -/
inductive AddrRange where
  | va
  | compat
  | svm
deriving Repr, DecidableEq

/-- `struct kgsl_iommu_addr_entry`, with a note of the range it was requested from. -/
structure KgslIommuAddrEntry where
  base : ℕ
  size : ℕ
  origin : AddrRange
deriving Repr, DecidableEq

/-- `struct kgsl_pagetable`. Sums of addresses and sizes stay below `2 ^ 64`. -/
structure KgslPagetable where
  compatVaStart : ℕ
  compatVaEnd : ℕ
  vaStart : ℕ
  vaEnd : ℕ
  svmStart : ℕ
  svmEnd : ℕ
  vaHint : ℕ
  rbtree : SearchTree KgslIommuAddrEntry

/-- `kgsl_iopgtbl_pagetable` with 64-bit addresses; `svmBase32` is the end of the graphics
memory. -/
def kgslIopgtblPagetable (svmBase32 : ℕ) (iopgtable isCompatTask : Bool) : KgslPagetable where
  compatVaStart := svmBase32
  compatVaEnd := kgslIommuSvmEnd32 iopgtable
  vaStart := kgslIommuVaBase64
  vaEnd := kgslIommuVaEnd64
  svmStart := if isCompatTask then svmBase32 else kgslIommuSvmBase64
  svmEnd := if isCompatTask then kgslIommuSvmEnd32 iopgtable else kgslIommuSvmEnd64
  vaHint := kgslIommuVaBase64
  rbtree := .leaf

namespace KgslPagetable

/-- `ALIGN`: up to the next multiple of a power of two. -/
def align (x a : ℕ) : ℕ := (x + (a - 1)) / a * a

/-! ## The tree -/

def findGpuaddr (pt : KgslPagetable) (gpuaddr : ℕ) : Option KgslIommuAddrEntry :=
  pt.rbtree.descend fun entry => compare gpuaddr entry.base

def rbPrev (pt : KgslPagetable) (entry : KgslIommuAddrEntry) : Option KgslIommuAddrEntry :=
  (pt.rbtree.toList.takeWhile fun e => e != entry).getLast?

def removeGpuaddr (rb : RbOps KgslIommuAddrEntry) (pt : KgslPagetable) (gpuaddr : ℕ) :
    KgslPagetable × ℤ :=
  match pt.findGpuaddr gpuaddr with
  | none => (pt, gpuaddrENoMem)
  | some entry =>
    let hint :=
      if pt.vaHint = entry.base + entry.size then
        match pt.rbPrev entry with
        | some prev => max (prev.base + prev.size) pt.vaStart
        | none => pt.vaStart
      else pt.vaHint
    ({ pt with vaHint := hint, rbtree := rb.erase pt.rbtree entry }, 0)

def insertGpuaddr (rb : RbOps KgslIommuAddrEntry) (pt : KgslPagetable)
    (new : KgslIommuAddrEntry) : KgslPagetable × ℤ :=
  match pt.rbtree.link (fun entry => compare new.base entry.base) new with
  | some tree => ({ pt with rbtree := rb.insertColor tree }, 0)
  | none => (pt, gpuaddrEExist)

/-! ## Allocation -/

def getUnmappedAreaHint (pt : KgslPagetable) (top size a : ℕ) : KgslPagetable × Except ℤ ℕ :=
  if pt.vaHint = 0 ∨ top / 2 ^ 32 = 0 then (pt, .error gpuaddrEInval)
  else if align pt.vaHint a + size > top then (pt, .error gpuaddrENoMem)
  else ({ pt with vaHint := align pt.vaHint a + size }, .ok (align pt.vaHint a))

/-- The search of `_get_unmapped_area` through the entries in order. -/
def searchRange (bottom top size a : ℕ) : List KgslIommuAddrEntry → ℕ → Except ℤ ℕ
  | [], start => if start + size ≤ top then .ok start else .error gpuaddrENoMem
  | entry :: entries, start =>
    if entry.base < bottom then
      searchRange bottom top size a entries
        (if bottom < entry.base + entry.size then align (entry.base + entry.size) a else start)
    else if top ≤ entry.base then
      if start + size ≤ top then .ok start else .error gpuaddrENoMem
    else if start < entry.base ∧ size ≤ entry.base - start then .ok start
    else if top ≤ entry.base + entry.size then .error gpuaddrENoMem
    else searchRange bottom top size a entries (align (entry.base + entry.size) a)

def getUnmappedArea (pt : KgslPagetable) (bottom top size a : ℕ) : KgslPagetable × Except ℤ ℕ :=
  match pt.getUnmappedAreaHint top size a with
  | (pt', .ok start) => (pt', .ok start)
  | (pt', .error _) =>
    (pt', searchRange (align bottom a) top size a pt'.rbtree.toList (align bottom a))

/-- The parts of a `struct kgsl_memdesc` that its address depends on. -/
structure AddrRequest where
  useCpuMap : Bool
  secure : Bool
  force32bit : Bool
  footprint : ℕ
  alignBit : ℕ
  memory : Bool
deriving Repr, DecidableEq

def getGpuaddr (rb : RbOps KgslIommuAddrEntry) (pt : KgslPagetable) (memory : Bool)
    (start top size a : ℕ) (origin : AddrRange) : KgslPagetable × Except ℤ ℕ :=
  if !memory then (pt, .error gpuaddrENoMem)
  else
    match pt.getUnmappedArea start top size a with
    | (pt', .error ret) => (pt', .error ret)
    | (pt', .ok addr) =>
      let r := insertGpuaddr rb pt' { base := addr, size := size, origin := origin }
      (r.1, if r.2 = 0 then .ok addr else .error r.2)

/-- One attempt of `kgsl_iommu_get_gpuaddr`, which makes another when there is no room. -/
def kgslIommuGetGpuaddr (rb : RbOps KgslIommuAddrEntry) (pt : KgslPagetable) (m : AddrRequest) :
    KgslPagetable × Except ℤ ℕ :=
  if m.useCpuMap then (pt, .error gpuaddrEInval)
  else if m.secure then (pt, .error gpuaddrEInval)
  else if m.force32bit then
    getGpuaddr rb pt m.memory pt.compatVaStart pt.compatVaEnd m.footprint (2 ^ m.alignBit) .compat
  else
    getGpuaddr rb pt m.memory pt.vaStart pt.vaEnd m.footprint (2 ^ m.alignBit) .va

def iommuAddrInSvmRanges (pt : KgslPagetable) (gpuaddr size : ℕ) : Bool :=
  let top := (gpuaddr + size) % 2 ^ 64
  if top ≤ gpuaddr then false
  else if (pt.compatVaStart ≤ gpuaddr ∧ gpuaddr < pt.compatVaEnd) ∧
      pt.compatVaStart < top ∧ top ≤ pt.compatVaEnd then true
  else decide ((pt.svmStart ≤ gpuaddr ∧ gpuaddr < pt.svmEnd) ∧
    pt.svmStart < top ∧ top ≤ pt.svmEnd)

/-- The side of a range from an entry, as `kgsl_iommu_set_svm_region` descends. -/
def svmSide (gpuaddr size : ℕ) (entry : KgslIommuAddrEntry) : Ordering :=
  if gpuaddr + size ≤ entry.base then .lt
  else if entry.base + entry.size ≤ gpuaddr then .gt
  else .eq

/-- `kgsl_iommu_set_svm_region`; `memory` tells whether an entry can be allocated, and `busy`
whether the memory has an address already. -/
def kgslIommuSetSvmRegion (rb : RbOps KgslIommuAddrEntry) (pt : KgslPagetable)
    (gpuaddr size : ℕ) (memory busy : Bool) : KgslPagetable × ℤ :=
  if !pt.iommuAddrInSvmRanges gpuaddr size then (pt, gpuaddrENoMem)
  else if !memory then (pt, gpuaddrENoMem)
  else if busy then (pt, gpuaddrEBusy)
  else
    match pt.rbtree.descend (svmSide gpuaddr size) with
    | some _ => (pt, gpuaddrENoMem)
    | none => insertGpuaddr rb pt { base := gpuaddr, size := size, origin := .svm }

def kgslIommuPutGpuaddr (rb : RbOps KgslIommuAddrEntry) (pt : KgslPagetable) (gpuaddr : ℕ) :
    KgslPagetable :=
  (removeGpuaddr rb pt gpuaddr).1

end KgslPagetable

end QcomModules.Kgsl
