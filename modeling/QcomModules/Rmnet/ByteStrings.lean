import QcomModules.Rmnet.Descriptor

/-! The operations on fragment descriptors as operations on the byte string a descriptor holds,
exactly where no length leaves 32 bits. -/

namespace QcomModules.Rmnet

open Library List

variable {mem : Memory}

/-! ## Pages and fragments -/

variable {n off : ℕ} {d : Descriptor} {fs : List Frag}

theorem u32_of_lt (h : n < 2 ^ 32) : u32 n = n :=
  Nat.mod_eq_of_lt h

theorem u32_lt (n : ℕ) : u32 n < 2 ^ 32 :=
  Nat.mod_lt n (by decide)

theorem sub32_of_le {a b : ℕ} (h : b ≤ a) (ha : a < 2 ^ 32) : sub32 a b = a - b := by
  rw [sub32, u32_of_lt (Nat.lt_of_le_of_lt h ha), u32]
  omega

@[simp] theorem length_pageBytes (page off len : ℕ) :
    (pageBytes mem page off len).length = len := by
  rw [pageBytes, length_map, length_range']

theorem pageBytes_add (page off m n : ℕ) : pageBytes mem page off (m + n) =
    pageBytes mem page off m ++ pageBytes mem page (off + m) n := by
  rw [pageBytes, pageBytes, pageBytes, ← map_append, range'_append_1]

theorem slice_pageBytes {page off len k n : ℕ} (h : k + n ≤ len) :
    slice k n (pageBytes mem page off len) = pageBytes mem page (off + k) n := by
  obtain ⟨rest, rfl⟩ := Nat.exists_eq_add_of_le h
  rw [pageBytes_add, pageBytes_add, append_assoc, slice_append_of_le (by simp),
    length_pageBytes, Nat.sub_self, slice_zero]
  exact take_left' (length_pageBytes _ _ _)

theorem take_pageBytes {page len : ℕ} (h : n ≤ len) :
    (pageBytes mem page off len).take n = pageBytes mem page off n := by
  have hslice := @slice_pageBytes mem page off len 0 n (by omega)
  rwa [slice_zero, Nat.add_zero] at hslice

theorem drop_pageBytes {page len : ℕ} (h : n ≤ len) :
    (pageBytes mem page off len).drop n = pageBytes mem page (off + n) (len - n) := by
  obtain ⟨rest, rfl⟩ := Nat.exists_eq_add_of_le h
  rw [pageBytes_add, Nat.add_sub_cancel_left]
  exact drop_left' (length_pageBytes _ _ _)

@[simp] theorem fragsBytes_nil : fragsBytes mem [] = [] := rfl

@[simp] theorem fragsBytes_cons (f : Frag) (fs : List Frag) :
    fragsBytes mem (f :: fs) = f.bytes mem ++ fragsBytes mem fs := rfl

@[simp] theorem fragsBytes_append (fs gs : List Frag) :
    fragsBytes mem (fs ++ gs) = fragsBytes mem fs ++ fragsBytes mem gs :=
  flatMap_append

@[simp] theorem fragsSize_nil : fragsSize [] = 0 := rfl

@[simp] theorem fragsSize_cons (f : Frag) (fs : List Frag) :
    fragsSize (f :: fs) = f.size + fragsSize fs :=
  sum_cons

@[simp] theorem fragsSize_append (fs gs : List Frag) :
    fragsSize (fs ++ gs) = fragsSize fs + fragsSize gs := by
  rw [fragsSize, map_append, sum_append, fragsSize, fragsSize]

@[simp] theorem fragsSize_reverse (fs : List Frag) : fragsSize fs.reverse = fragsSize fs := by
  rw [fragsSize, map_reverse, sum_reverse, fragsSize]

@[simp] theorem Frag.length_bytes (f : Frag) : (f.bytes mem).length = f.size :=
  length_pageBytes _ _ _

@[simp] theorem length_fragsBytes (fs : List Frag) :
    (fragsBytes mem fs).length = fragsSize fs := by
  induction fs with
  | nil => rfl
  | cons f fs ih => rw [fragsBytes_cons, length_append, ih, Frag.length_bytes, fragsSize_cons]

theorem Descriptor.Sized.length_bytes (h : d.Sized) : (d.bytes mem).length = d.len := by
  rw [Descriptor.bytes, length_fragsBytes, h.1]

/-! ## Dropping and keeping bytes -/

theorem sized_recycled : recycled.Sized := ⟨rfl, by decide⟩

theorem pullFrags_spec {size len : ℕ} (hlen : len = fragsSize fs) (hlt : len < 2 ^ 32)
    (hsize : size ≤ len) :
    (pullFrags size len fs).bytes mem = (fragsBytes mem fs).drop size ∧
      (pullFrags size len fs).Sized := by
  induction fs generalizing size len with
  | nil => exact ⟨by simp [pullFrags, Descriptor.bytes], hlen, hlt⟩
  | cons f fs ih =>
    rw [fragsSize_cons] at hlen
    rw [pullFrags]
    split
    · rename_i h0
      subst h0
      exact ⟨rfl, by simpa using hlen, hlt⟩
    split
    · rename_i hwhole
      rw [sub32_of_le hwhole (by omega), sub32_of_le (by omega) hlt]
      obtain ⟨hbytes, hsized⟩ := @ih (size - f.size) (len - f.size) (by omega) (by omega)
        (by omega)
      have hnil : (f.bytes mem).drop size = [] :=
        drop_eq_nil_of_le (by rwa [Frag.length_bytes])
      refine ⟨?_, hsized⟩
      rw [hbytes, fragsBytes_cons, drop_append, hnil, Frag.length_bytes, nil_append]
    · rename_i hpart
      rw [sub32_of_le hsize hlt, sub32_of_le (by omega) (by omega)]
      refine ⟨?_, ?_, by dsimp only; omega⟩
      · rw [fragsBytes_cons, drop_append_of_le_length (by rw [Frag.length_bytes]; omega),
          Frag.bytes, drop_pageBytes (by omega)]
        rfl
      · change len - size = fragsSize (_ :: fs)
        rw [fragsSize_cons]
        change len - size = f.size - size + fragsSize fs
        omega

theorem trimFrags_spec {eat len : ℕ} {fs : List Frag} (hlen : len = fragsSize fs)
    (hlt : len < 2 ^ 32) (heat : eat ≤ len) :
    fragsBytes mem (trimFrags eat len fs).frags.reverse =
        (fragsBytes mem fs.reverse).take (len - eat) ∧
      (trimFrags eat len fs).len = fragsSize (trimFrags eat len fs).frags ∧
      (trimFrags eat len fs).len < 2 ^ 32 := by
  induction fs generalizing eat len with
  | nil => exact ⟨by simp [trimFrags], hlen, hlt⟩
  | cons f fs ih =>
    rw [fragsSize_cons] at hlen
    have hall : (fragsBytes mem fs.reverse).length = len - f.size := by
      rw [length_fragsBytes, fragsSize_reverse]
      omega
    rw [trimFrags, reverse_cons, fragsBytes_append]
    split
    · rename_i h0
      subst h0
      refine ⟨?_, by simpa using hlen, hlt⟩
      rw [reverse_cons, fragsBytes_append, take_of_length_le]
      simp
      omega
    split
    · rename_i hwhole
      rw [sub32_of_le hwhole (by omega), sub32_of_le (by omega) hlt]
      obtain ⟨hbytes, hsized⟩ := @ih (eat - f.size) (len - f.size) (by omega) (by omega)
        (by omega)
      refine ⟨?_, hsized⟩
      rw [hbytes, take_append_of_le_length (by omega)]
      congr 1
      omega
    · rename_i hpart
      rw [sub32_of_le heat hlt, sub32_of_le (by omega) (by omega)]
      refine ⟨?_, ?_, by dsimp only; omega⟩
      · rw [reverse_cons, fragsBytes_append, take_append, hall,
          take_of_length_le (by omega)]
        congr 1
        rw [fragsBytes_cons, fragsBytes_cons, fragsBytes_nil, append_nil, append_nil,
          Frag.bytes, Frag.bytes, take_pageBytes (by omega)]
        dsimp only
        congr 1
        omega
      · rw [fragsSize_cons]
        change len - eat = f.size - eat + fragsSize fs
        omega

theorem fragPull_spec (h : d.Sized) (size : ℕ) :
    (fragPull d size).bytes mem = (d.bytes mem).drop size ∧ (fragPull d size).Sized := by
  rw [fragPull]
  split
  · rename_i hall
    refine ⟨?_, sized_recycled⟩
    rw [drop_eq_nil_of_le (by rwa [h.length_bytes])]
    rfl
  · rename_i hpart
    exact pullFrags_spec h.1 h.2 (by omega)

theorem fragTrim_spec (h : d.Sized) (size : ℕ) :
    (fragTrim d size).bytes mem = (d.bytes mem).take size ∧ (fragTrim d size).Sized := by
  rw [fragTrim]
  split
  · rename_i h0
    subst h0
    exact ⟨rfl, sized_recycled⟩
  split
  · rename_i hall
    rw [take_of_length_le (by rwa [h.length_bytes])]
    exact ⟨rfl, h⟩
  · rename_i hpart
    have hlt := h.2
    rw [sub32_of_le (by omega) hlt]
    obtain ⟨hbytes, hlen, hlt'⟩ := @trimFrags_spec mem (d.len - size) d.len
      d.frags.reverse (by rw [fragsSize_reverse, h.1]) hlt (by omega)
    refine ⟨?_, ?_, hlt'⟩
    · rw [Descriptor.bytes]
      dsimp only
      rw [hbytes, reverse_reverse, Nat.sub_sub_self (by omega)]
      rfl
    · change (trimFrags _ _ _).len = fragsSize (reverse _)
      rw [fragsSize_reverse, hlen]

/-! ## Reading ranges -/

theorem not_outside_iff {len : ℕ} (hlt : off + len < 2 ^ 32) :
    ¬ d.outside off len ↔ off + len ≤ d.len := by
  rw [Descriptor.outside, u32_of_lt hlt]
  omega

theorem not_outside_of_wrap (h : d.Sized) {len : ℕ} (hoff : off ≤ d.len) (hlen : len ≤ d.len)
    (hwrap : 2 ^ 32 ≤ off + len) : ¬ d.outside off len := by
  have hlt := h.2
  have hu : u32 (off + len) ≤ d.len := by
    rw [u32]
    omega
  rw [Descriptor.outside]
  omega

theorem copyFrags_spec {len : ℕ} (hin : off + len ≤ fragsSize fs) (hlt : fragsSize fs < 2 ^ 32) :
    copyFrags mem fs off len = slice off len (fragsBytes mem fs) := by
  induction fs generalizing off len with
  | nil =>
    rw [fragsSize_nil] at hin
    rw [copyFrags, fragsBytes_nil, slice_nil]
  | cons f fs ih =>
    rw [fragsSize_cons] at hin hlt
    rw [copyFrags, fragsBytes_cons]
    split
    · rename_i h0
      rw [h0, slice_zero_len]
    split
    · rename_i hoff
      rw [sub32_of_le (Nat.le_of_lt hoff) (by omega)]
      dsimp only
      rw [sub32_of_le (Nat.min_le_left _ _) (by omega)]
      rw [ih (by omega) (by omega), slice_append_of_lt (by rwa [Frag.length_bytes]),
        Frag.length_bytes, slice_zero, Frag.bytes, slice_pageBytes (by omega)]
      congr 2
      omega
    · rename_i hoff
      rw [sub32_of_le (by omega) (by omega), ih (by omega) (by omega),
        slice_append_of_le (by rw [Frag.length_bytes]; omega), Frag.length_bytes]

theorem startFrag_spec {fs : List Frag} {off start : ℕ} {f : Frag}
    (h : startFrag fs off = some (f, start)) (hoff : off < 2 ^ 32) :
    start ≤ off ∧ ∀ len, start + len ≤ f.size →
      pageBytes mem f.page (f.off + start) len = slice off len (fragsBytes mem fs) := by
  induction fs generalizing off with
  | nil => cases h
  | cons g fs ih =>
    rw [startFrag] at h
    split at h
    · rename_i hlt
      cases h
      refine ⟨Nat.le_refl start, fun len hlen => ?_⟩
      rw [fragsBytes_cons, slice_append_of_add_le (by rwa [Frag.length_bytes]), Frag.bytes,
        slice_pageBytes hlen]
    · rename_i hge
      rw [sub32_of_le (by omega) hoff] at h
      obtain ⟨hstart, hbytes⟩ := ih h (by omega)
      refine ⟨by omega, fun len hlen => ?_⟩
      rw [hbytes len hlen, fragsBytes_cons, slice_append_of_le (by rw [Frag.length_bytes]; omega),
        Frag.length_bytes]

theorem fragCopyData_spec {d : Descriptor} (h : d.Sized) {off len : ℕ} (hlt : off + len < 2 ^ 32) :
    fragCopyData mem d off len =
      if off + len ≤ d.len then some (slice off len (d.bytes mem)) else none := by
  rw [fragCopyData]
  split
  · rename_i hout
    rw [if_neg fun hin => (not_outside_iff hlt).2 hin hout]
  · rename_i hin
    have hin := (not_outside_iff hlt).1 hin
    rw [if_pos hin, copyFrags_spec (by rwa [← h.1]) (h.1 ▸ h.2)]
    rfl

theorem fragHeaderPtr_spec (h : d.Sized) {len : ℕ} (hlt : off + len < 2 ^ 32) :
    fragHeaderPtr mem d off len =
      if off + len ≤ d.len then some (slice off len (d.bytes mem)) else none := by
  have hcopy := @fragCopyData_spec mem d h off len hlt
  rw [fragHeaderPtr]
  split
  · rename_i hout
    rw [if_neg fun hin => (not_outside_iff hlt).2 hin hout]
  rename_i hin
  split
  · rename_i f start hstart
    split
    · rename_i hfits
      rw [if_pos ((not_outside_iff hlt).1 hin)]
      obtain ⟨hle, hbytes⟩ := @startFrag_spec mem d.frags off start f hstart (by omega)
      rw [u32_of_lt (by omega)] at hfits
      rw [hbytes len hfits]
      rfl
    · exact hcopy
  · exact hcopy

/-! ## Copying fragments -/

/-- How many bytes of a range the allocations that succeed cover. -/
def coveredLen : ℕ → List Frag → ℕ → ℕ → ℕ
  | _, [], _, _ => 0
  | allocs, f :: fs, off, len =>
    if len = 0 then 0
    else if off < f.size then
      if allocs = 0 then 0
      else min len (f.size - off) +
        coveredLen (allocs - 1) fs 0 (len - min len (f.size - off))
    else coveredLen allocs fs (off - f.size) len

theorem coveredLen_le (allocs : ℕ) (fs : List Frag) (off len : ℕ) :
    coveredLen allocs fs off len ≤ len := by
  induction fs generalizing allocs off len with
  | nil => exact Nat.zero_le len
  | cons f fs ih =>
    rw [coveredLen]
    split
    · omega
    split
    · have hrest := ih (allocs - 1) 0 (len - min len (f.size - off))
      split <;> omega
    · exact ih allocs _ len

theorem coveredLen_eq {allocs : ℕ} {len : ℕ} (hin : off + len ≤ fragsSize fs)
    (hallocs : fs.length ≤ allocs) : coveredLen allocs fs off len = len := by
  induction fs generalizing allocs off len with
  | nil =>
    rw [fragsSize_nil] at hin
    rw [coveredLen]
    omega
  | cons f fs ih =>
    rw [fragsSize_cons] at hin
    rw [length_cons] at hallocs
    rw [coveredLen]
    split
    · omega
    split
    · rw [if_neg (by omega), ih (by omega) (by omega)]
      omega
    · exact ih (by omega) (by omega)

theorem addFrags_rc (allocs : ℕ) (dst : Descriptor) (fs : List Frag) (off len : ℕ) :
    (addFrags allocs dst fs off len).1 = 0 ∨ (addFrags allocs dst fs off len).1 = -ENOMEM := by
  induction fs generalizing allocs dst off len with
  | nil => exact .inl rfl
  | cons f fs ih =>
    rw [addFrags]
    split
    · exact .inl rfl
    split
    · dsimp only
      split
      · exact .inr rfl
      · exact ih _ _ _ _
    · exact ih _ _ _ _

theorem addFrags_spec {allocs : ℕ} {dst : Descriptor} {fs : List Frag} {off len : ℕ}
    (hin : off + len ≤ fragsSize fs) (hlt : fragsSize fs < 2 ^ 32) (hdst : dst.len < 2 ^ 32) :
    (addFrags allocs dst fs off len).1 =
        (if coveredLen allocs fs off len = len then 0 else -ENOMEM) ∧
      (addFrags allocs dst fs off len).2.len = u32 (dst.len + coveredLen allocs fs off len) ∧
      fragsSize (addFrags allocs dst fs off len).2.frags =
        fragsSize dst.frags + coveredLen allocs fs off len ∧
      (addFrags allocs dst fs off len).2.bytes mem =
        dst.bytes mem ++ slice off (coveredLen allocs fs off len) (fragsBytes mem fs) := by
  induction fs generalizing allocs dst off len with
  | nil =>
    rw [fragsSize_nil] at hin
    obtain rfl : len = 0 := by omega
    refine ⟨rfl, (u32_of_lt hdst).symm, rfl, ?_⟩
    rw [addFrags, coveredLen, slice_zero_len, append_nil]
  | cons f fs ih =>
    rw [fragsSize_cons] at hin hlt
    rw [addFrags, coveredLen]
    split
    · rename_i h0
      subst h0
      refine ⟨rfl, (u32_of_lt hdst).symm, rfl, ?_⟩
      rw [slice_zero_len, append_nil]
    split
    · rename_i h0 hoff
      rw [sub32_of_le (Nat.le_of_lt hoff) (by omega)]
      dsimp only
      rw [sub32_of_le (Nat.min_le_left _ _) (by omega)]
      split
      · refine ⟨(if_neg fun h => h0 h.symm).symm, (u32_of_lt hdst).symm, rfl, ?_⟩
        rw [slice_zero_len, append_nil]
      have hmin : min len (f.size - off) ≤ len := Nat.min_le_left _ _
      obtain ⟨hrc, hlen, hsize, hbytes⟩ := @ih (allocs - 1)
        (dst.addFrag ⟨f.page, f.off + off, min len (f.size - off)⟩) 0
        (len - min len (f.size - off)) (by omega) (by omega) (u32_lt _)
      have hrest := coveredLen_le (allocs - 1) fs 0 (len - min len (f.size - off))
      refine ⟨?_, ?_, ?_, ?_⟩
      · rw [hrc]
        congr 1
        rw [eq_iff_iff]
        omega
      · rw [hlen, Descriptor.addFrag, u32, u32, u32]
        dsimp only
        omega
      · rw [hsize, Descriptor.addFrag, fragsSize_append, fragsSize_cons, fragsSize_nil]
        dsimp only
        omega
      · have hnew : (dst.addFrag ⟨f.page, f.off + off, min len (f.size - off)⟩).bytes mem =
            dst.bytes mem ++ slice off (min len (f.size - off)) (f.bytes mem) := by
          rw [Descriptor.bytes, Descriptor.addFrag, fragsBytes_append, fragsBytes_cons,
            fragsBytes_nil, append_nil, Frag.bytes, Frag.bytes,
            slice_pageBytes (by omega)]
          rfl
        rw [hbytes, hnew, append_assoc, fragsBytes_cons]
        congr 1
        rw [slice_append_of_lt (by rwa [Frag.length_bytes]), Frag.length_bytes, slice_zero]
        congr 2 <;> omega
    · rename_i hoff
      rw [sub32_of_le (by omega) (by omega)]
      obtain ⟨hrc, hlen, hsize, hbytes⟩ := @ih allocs dst (off - f.size) len (by omega)
        (by omega) hdst
      refine ⟨hrc, hlen, hsize, ?_⟩
      rw [hbytes, fragsBytes_cons, slice_append_of_le (by rw [Frag.length_bytes]; omega),
        Frag.length_bytes]

/-- What `rmnet_frag_descriptor_add_frags_from` does to a range inside the source. -/
theorem addFragsFrom_spec {allocs : ℕ} {dst src : Descriptor} (hsrc : src.Sized) {off len : ℕ}
    (hin : off + len ≤ src.len) (hdst : dst.Sized) :
    (addFragsFrom allocs dst src off len).1 =
        (if coveredLen allocs src.frags off len = len then 0 else -ENOMEM) ∧
      (addFragsFrom allocs dst src off len).2.len =
        u32 (dst.len + coveredLen allocs src.frags off len) ∧
      fragsSize (addFragsFrom allocs dst src off len).2.frags =
        dst.len + coveredLen allocs src.frags off len ∧
      (addFragsFrom allocs dst src off len).2.bytes mem =
        dst.bytes mem ++ slice off (coveredLen allocs src.frags off len) (src.bytes mem) := by
  have hlt := hsrc.2
  obtain ⟨hrc, hlen, hsize, hbytes⟩ := @addFrags_spec mem allocs dst src.frags off
    len (hsrc.1 ▸ hin) (hsrc.1 ▸ hlt) hdst.2
  rw [addFragsFrom, if_neg ((not_outside_iff (by omega)).2 hin)]
  exact ⟨hrc, hlen, hsize.trans (by rw [hdst.1]), hbytes⟩

/-! ## The operations as operations on byte strings -/

inductive FragOp where
  | pull (size : UInt32)
  | trim (size : UInt32)
  | copyData (off len : UInt32)
  | headerPtr (off len : UInt32)
  | addFragsFrom (allocs : ℕ) (dst : SizedDescriptor) (off len : UInt32)

/-- A read gives exactly a range of the bytes, or fails where the range is not inside. -/
def ReadsRange (bytes : List UInt8) (off len : ℕ) (out : Option (List UInt8)) : Prop :=
  out = if off + len ≤ bytes.length then some (slice off len bytes) else none

/-- A range inside the source is appended, as far as allocations succeed; another one is
refused. -/
def AppendsRange (mem : Memory) (allocs : ℕ) (dst src : Descriptor) (off len : ℕ)
    (out : ℤ × Descriptor) : Prop :=
  if off + len ≤ src.len then
    out.2.Sized ∧
      (out.1 = 0 ∧ out.2.bytes mem = dst.bytes mem ++ slice off len (src.bytes mem) ∨
        out.1 = -ENOMEM ∧ allocs < src.frags.length ∧
          ∃ n < len, out.2.bytes mem = dst.bytes mem ++ slice off n (src.bytes mem))
  else out = (-EINVAL, dst)

/-- The operation does to the descriptor what it does to its byte string. -/
def FragOp.Refines (mem : Memory) (d : Descriptor) : FragOp → Prop
  | .pull size => (fragPull d size.toNat).bytes mem = (d.bytes mem).drop size.toNat ∧
      (fragPull d size.toNat).Sized
  | .trim size => (fragTrim d size.toNat).bytes mem = (d.bytes mem).take size.toNat ∧
      (fragTrim d size.toNat).Sized
  | .copyData off len =>
    ReadsRange (d.bytes mem) off.toNat len.toNat (fragCopyData mem d off.toNat len.toNat)
  | .headerPtr off len =>
    ReadsRange (d.bytes mem) off.toNat len.toNat (fragHeaderPtr mem d off.toNat len.toNat)
  | .addFragsFrom allocs dst off len => AppendsRange mem allocs dst d off.toNat len.toNat
      (Rmnet.addFragsFrom allocs dst d off.toNat len.toNat)

/-- Both bounds of a range are no larger than the descriptor, but the range ends past 32 bits. -/
def Descriptor.RangeWraps (d : Descriptor) (off len : ℕ) : Prop :=
  off ≤ d.len ∧ len ≤ d.len ∧ 2 ^ 32 ≤ off + len

/-- A length leaves 32 bits. -/
def FragOp.Wraps (d : Descriptor) : FragOp → Prop
  | .pull _ | .trim _ => False
  | .copyData off len | .headerPtr off len => d.RangeWraps off.toNat len.toNat
  | .addFragsFrom allocs dst off len => d.RangeWraps off.toNat len.toNat ∨
      off.toNat + len.toNat ≤ d.len ∧
        2 ^ 32 ≤ dst.val.len + coveredLen allocs d.frags off.toNat len.toNat

theorem fragCopyData_of_wraps {d : Descriptor} (h : d.Sized) {off len : ℕ}
    (hwrap : d.RangeWraps off len) : fragCopyData mem d off len ≠ none := by
  rw [fragCopyData, if_neg (not_outside_of_wrap h hwrap.1 hwrap.2.1 hwrap.2.2)]
  exact Option.some_ne_none _

theorem fragHeaderPtr_of_wraps (h : d.Sized) {len : ℕ} (hwrap : d.RangeWraps off len) :
    fragHeaderPtr mem d off len ≠ none := by
  have hcopy := @fragCopyData_of_wraps mem d h off len hwrap
  rw [fragHeaderPtr, if_neg (not_outside_of_wrap h hwrap.1 hwrap.2.1 hwrap.2.2)]
  split
  · split
    · exact Option.some_ne_none _
    · exact hcopy
  · exact hcopy

theorem not_readsRange_of_wraps (h : d.Sized) {len : ℕ} (hwrap : d.RangeWraps off len)
    {out : Option (List UInt8)} (hout : out ≠ none) : ¬ ReadsRange (d.bytes mem) off len out := by
  have hlt := h.2
  intro hreads
  rw [ReadsRange, h.length_bytes, if_neg (by have := hwrap.2.2; omega)] at hreads
  exact hout hreads

theorem readsRange_of_not_wraps (h : d.Sized) {off len : UInt32}
    (hwrap : ¬ d.RangeWraps off.toNat len.toNat)
    {read : Memory → Descriptor → ℕ → ℕ → Option (List UInt8)}
    (hread : ∀ {off len : ℕ}, off + len < 2 ^ 32 → read mem d off len =
      if off + len ≤ d.len then some (slice off len (d.bytes mem)) else none)
    (hout : ∀ {off len : ℕ}, d.outside off len → read mem d off len = none) :
    ReadsRange (d.bytes mem) off.toNat len.toNat (read mem d off.toNat len.toNat) := by
  rw [ReadsRange, h.length_bytes]
  by_cases hlt : off.toNat + len.toNat < 2 ^ 32
  · exact hread hlt
  · have hd := h.2
    rw [if_neg (by omega)]
    refine hout ?_
    rw [Descriptor.RangeWraps] at hwrap
    rw [Descriptor.outside]
    omega

theorem appendsRange_iff {dst : Descriptor} (hd : d.Sized) (hdst : dst.Sized) (allocs : ℕ)
    (off len : ℕ) : AppendsRange mem allocs dst d off len (addFragsFrom allocs dst d off len) ↔
      ¬ (d.RangeWraps off len ∨
        off + len ≤ d.len ∧ 2 ^ 32 ≤ dst.len + coveredLen allocs d.frags off len) := by
  have hlt := hd.2
  rw [AppendsRange]
  split
  · rename_i hin
    obtain ⟨hrc, hlen, hsize, hbytes⟩ := @addFragsFrom_spec mem allocs dst d hd off len
      hin hdst
    have hnowrap : ¬ d.RangeWraps off len := fun hwrap => by have := hwrap.2.2; omega
    have hrange : (addFragsFrom allocs dst d off len).1 = 0 ∧
          (addFragsFrom allocs dst d off len).2.bytes mem =
            dst.bytes mem ++ slice off len (d.bytes mem) ∨
        (addFragsFrom allocs dst d off len).1 = -ENOMEM ∧ allocs < d.frags.length ∧
          ∃ n < len, (addFragsFrom allocs dst d off len).2.bytes mem =
            dst.bytes mem ++ slice off n (d.bytes mem) := by
      by_cases hall : coveredLen allocs d.frags off len = len
      · rw [if_pos hall] at hrc
        rw [hall] at hbytes
        exact .inl ⟨hrc, hbytes⟩
      · rw [if_neg hall] at hrc
        refine .inr ⟨hrc, Nat.lt_of_not_le fun hallocs => ?_, _, ?_, hbytes⟩
        · exact hall (coveredLen_eq (hd.1 ▸ hin) hallocs)
        · exact Nat.lt_of_le_of_ne (coveredLen_le _ _ _ _) hall
    rw [and_iff_left hrange, Descriptor.Sized, hlen, hsize, u32]
    constructor
    · intro hsized hwrap
      have hover := (hwrap.resolve_left hnowrap).2
      omega
    · intro hfits
      have hover : ¬ 2 ^ 32 ≤ dst.len + coveredLen allocs d.frags off len :=
        fun hover => hfits (.inr ⟨hin, hover⟩)
      omega
  · rename_i hout
    constructor
    · intro heq hwrap
      have hwrap := hwrap.resolve_right fun h => hout h.1
      rw [addFragsFrom, if_neg (not_outside_of_wrap hd hwrap.1 hwrap.2.1 hwrap.2.2)] at heq
      have hrc := addFrags_rc allocs dst d.frags off len
      rw [heq] at hrc
      exact absurd hrc (show ¬ (-EINVAL = 0 ∨ -EINVAL = -ENOMEM) by decide)
    · intro hnowrap
      rw [addFragsFrom, if_pos]
      have hnowrap : ¬ d.RangeWraps off len := fun hwrap => hnowrap (.inl hwrap)
      rw [Descriptor.RangeWraps] at hnowrap
      rw [Descriptor.outside]
      by_cases hlt' : off + len < 2 ^ 32
      · rw [u32_of_lt hlt']
        omega
      · omega

/-- Every operation on a descriptor whose length fits its fragments is the operation on its byte
string exactly where no length leaves 32 bits. -/
theorem fragOps_refine (mem : Memory) (d : SizedDescriptor) (op : FragOp) :
    op.Refines mem d ↔ ¬ op.Wraps d := by
  obtain ⟨d, hd⟩ := d
  cases op with
  | pull size => exact ⟨fun _ h => h, fun _ => fragPull_spec hd _⟩
  | trim size => exact ⟨fun _ h => h, fun _ => fragTrim_spec hd _⟩
  | copyData off len =>
    refine ⟨fun hreads hwrap => ?_, fun hwrap => ?_⟩
    · exact not_readsRange_of_wraps hd hwrap (fragCopyData_of_wraps hd hwrap) hreads
    · exact readsRange_of_not_wraps hd hwrap (fragCopyData_spec hd) fun hout => if_pos hout
  | headerPtr off len =>
    refine ⟨fun hreads hwrap => ?_, fun hwrap => ?_⟩
    · exact not_readsRange_of_wraps hd hwrap (fragHeaderPtr_of_wraps hd hwrap) hreads
    · exact readsRange_of_not_wraps hd hwrap (fragHeaderPtr_spec hd) fun hout => if_pos hout
  | addFragsFrom allocs dst off len => exact appendsRange_iff hd dst.2 allocs _ _

/-- A range of two halves of the address space at the end of a descriptor of one half is read. -/
theorem not_fragOps_refine : ¬ ∀ (mem : Memory) (d : SizedDescriptor) (op : FragOp),
    op.Refines mem d := by
  intro h
  let d : SizedDescriptor := ⟨{ len := 2 ^ 31, frags := [⟨0, 0, 2 ^ 31⟩] }, rfl, by decide⟩
  have hwrap : d.val.RangeWraps (2 ^ 31) (2 ^ 31) := ⟨Nat.le_refl _, Nat.le_refl _, by decide⟩
  have hreads := h (fun _ _ => 0) d (.copyData (UInt32.ofNat (2 ^ 31)) (UInt32.ofNat (2 ^ 31)))
  exact not_readsRange_of_wraps d.2 hwrap (fragCopyData_of_wraps d.2 hwrap) hreads

end QcomModules.Rmnet
