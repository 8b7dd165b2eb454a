import Mathlib
import QcomModules.Library.Slice

/-! Fragment descriptors of received packets: ranges of pages that together hold the packet's
bytes, and the operations that pull, trim, read and copy them. -/

namespace QcomModules.Rmnet

open Library

/-- The bytes of all pages. -/
abbrev Memory := ℕ → ℕ → UInt8

/-- Arithmetic of `u32`. -/
def u32 (n : ℕ) : ℕ := n % 2 ^ 32

/-- `a - b` in `u32`. -/
def sub32 (a b : ℕ) : ℕ := u32 (a + (2 ^ 32 - u32 b))

def EINVAL : ℤ := 22
def ENOMEM : ℤ := 12

/-- `skb_frag_t`: a range of a page. -/
structure Frag where
  page : ℕ
  off : ℕ
  size : ℕ
  deriving DecidableEq, Repr

/-- What `len` bytes at an address of a page hold. -/
def pageBytes (mem : Memory) (page off len : ℕ) : List UInt8 :=
  (List.range' off len).map (mem page)

def Frag.bytes (mem : Memory) (f : Frag) : List UInt8 :=
  pageBytes mem f.page f.off f.size

/-- `struct rmnet_frag_descriptor`, as far as it holds the packet. -/
structure Descriptor where
  len : ℕ := 0
  frags : List Frag := []
  deriving DecidableEq, Repr

def fragsBytes (mem : Memory) (frags : List Frag) : List UInt8 :=
  frags.flatMap (·.bytes mem)

def fragsSize (frags : List Frag) : ℕ :=
  (frags.map (·.size)).sum

def Descriptor.bytes (mem : Memory) (d : Descriptor) : List UInt8 :=
  fragsBytes mem d.frags

/-- The length of a descriptor is the sum of its fragment sizes. -/
def Descriptor.Sized (d : Descriptor) : Prop :=
  d.len = fragsSize d.frags ∧ d.len < 2 ^ 32

/-- A descriptor whose length fits its fragments. -/
abbrev SizedDescriptor := { d : Descriptor // d.Sized }

/-- `rmnet_recycle_frag_descriptor`: the fragments are freed and the descriptor is cleared. -/
def recycled : Descriptor := {}

/-- The loop of `rmnet_frag_pull`. -/
def pullFrags : ℕ → ℕ → List Frag → Descriptor
  | _, len, [] => { len, frags := [] }
  | size, len, f :: fs =>
    if size = 0 then { len, frags := f :: fs }
    else if f.size ≤ size then pullFrags (sub32 size f.size) (sub32 len f.size) fs
    else
      { len := sub32 len size
        frags := { f with off := f.off + size, size := sub32 f.size size } :: fs }

def fragPull (d : Descriptor) (size : ℕ) : Descriptor :=
  if d.len ≤ size then recycled else pullFrags size d.len d.frags

/-- The loop of `rmnet_frag_trim` over the fragments, last one first. -/
def trimFrags : ℕ → ℕ → List Frag → Descriptor
  | _, len, [] => { len, frags := [] }
  | eat, len, f :: fs =>
    if eat = 0 then { len, frags := f :: fs }
    else if f.size ≤ eat then trimFrags (sub32 eat f.size) (sub32 len f.size) fs
    else { len := sub32 len eat, frags := { f with size := sub32 f.size eat } :: fs }

def fragTrim (d : Descriptor) (size : ℕ) : Descriptor :=
  if size = 0 then recycled
  else if d.len ≤ size then d
  else
    let trimmed := trimFrags (sub32 d.len size) d.len d.frags.reverse
    { trimmed with frags := trimmed.frags.reverse }

/-- The loop of `rmnet_frag_copy_data`: what it writes to the buffer. -/
def copyFrags (mem : Memory) : List Frag → ℕ → ℕ → List UInt8
  | [], _, _ => []
  | f :: fs, off, len =>
    if len = 0 then []
    else if off < f.size then
      let copyLen := min len (sub32 f.size off)
      pageBytes mem f.page (f.off + off) copyLen ++ copyFrags mem fs 0 (sub32 len copyLen)
    else copyFrags mem fs (sub32 off f.size) len

/-- The length check at the start of the reading functions. -/
def Descriptor.outside (d : Descriptor) (off len : ℕ) : Prop :=
  d.len < off ∨ d.len < len ∨ d.len < u32 (off + len)

instance (d : Descriptor) (off len : ℕ) : Decidable (d.outside off len) :=
  inferInstanceAs (Decidable (_ ∨ _))

/-- `rmnet_frag_copy_data`: the bytes copied, `none` for `-EINVAL`. -/
def fragCopyData (mem : Memory) (d : Descriptor) (off len : ℕ) : Option (List UInt8) :=
  if d.outside off len then none else some (copyFrags mem d.frags off len)

/-- The fragment that holds the byte at `off`, with the place in it. -/
def startFrag : List Frag → ℕ → Option (Frag × ℕ)
  | [], _ => none
  | f :: fs, off => if off < f.size then some (f, off) else startFrag fs (sub32 off f.size)

/-- `rmnet_frag_header_ptr`: the `len` bytes at the pointer it returns, into a page or to the
buffer. -/
def fragHeaderPtr (mem : Memory) (d : Descriptor) (off len : ℕ) : Option (List UInt8) :=
  if d.outside off len then none
  else
    match startFrag d.frags off with
    | some (f, start) =>
      if u32 (start + len) ≤ f.size then some (pageBytes mem f.page (f.off + start) len)
      else fragCopyData mem d off len
    | none => fragCopyData mem d off len

/-- `rmnet_frag_descriptor_add_frag`, where the allocation succeeds. -/
def Descriptor.addFrag (d : Descriptor) (f : Frag) : Descriptor :=
  { len := u32 (d.len + f.size), frags := d.frags ++ [f] }

/-- The loop of `rmnet_frag_descriptor_add_frags_from`; `allocs` allocations succeed. -/
def addFrags : ℕ → Descriptor → List Frag → ℕ → ℕ → ℤ × Descriptor
  | _, dst, [], _, _ => (0, dst)
  | allocs, dst, f :: fs, off, len =>
    if len = 0 then (0, dst)
    else if off < f.size then
      let copyLen := min len (sub32 f.size off)
      if allocs = 0 then (-ENOMEM, dst)
      else addFrags (allocs - 1) (dst.addFrag ⟨f.page, f.off + off, copyLen⟩) fs 0
        (sub32 len copyLen)
    else addFrags allocs dst fs (sub32 off f.size) len

def addFragsFrom (allocs : ℕ) (dst src : Descriptor) (off len : ℕ) : ℤ × Descriptor :=
  if src.outside off len then (-EINVAL, dst) else addFrags allocs dst src.frags off len

end QcomModules.Rmnet
