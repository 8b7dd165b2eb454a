import QcomModules.Kgsl.GpuaddrSpaces

/-! Whether the searches for a free area of GPU addresses find one wherever there is one. -/

namespace QcomModules.Kgsl

open Library List

namespace KgslPagetable

/-! ## The search from the top -/

/-- `& ~(align - 1)`: down to a multiple of a power of two. -/
def alignDown (x a : ℕ) : ℕ := x / a * a

/-- The last attempt of `_get_unmapped_area_topdown`, below all entries of the range. -/
def lowestGap (bottom size a hi : ℕ) : Except ℤ ℕ :=
  if size < hi ∧ bottom ≤ alignDown (hi - size) a then .ok (alignDown (hi - size) a)
  else .error gpuaddrENoMem

/-- The search of `_get_unmapped_area_topdown` through the entries from the highest one down;
`hi` is the top of the gap above the next entry. -/
def searchDown (bottom size a : ℕ) : List KgslIommuAddrEntry → ℕ → Except ℤ ℕ
  | [], hi => lowestGap bottom size a hi
  | entry :: entries, hi =>
    let offset := align (entry.base + entry.size) a
    if entry.base + entry.size < bottom then lowestGap bottom size a hi
    else if size < hi ∧ offset < hi ∧ offset ≤ alignDown (hi - size) a then
      .ok (alignDown (hi - size) a)
    else if entry.base < bottom then .error gpuaddrENoMem
    else searchDown bottom size a entries entry.base

/-- `_get_unmapped_area_topdown`; the difference of the bounds wraps if the aligned bottom is
above the top. -/
def getUnmappedAreaTopdown (pt : KgslPagetable) (bottom top size a : ℕ) : Except ℤ ℕ :=
  if (top + (2 ^ 64 - align bottom a)) % 2 ^ 64 < size then .error gpuaddrENoMem
  else
    searchDown (align bottom a) size a
      (pt.rbtree.toList.reverse.dropWhile fun entry => decide (top ≤ entry.base)) top

/-! ## Free areas -/

/-- The entries are address ranges that do not meet, in the order of the tree. -/
structure DisjointEntries (entries : List KgslIommuAddrEntry) : Prop where
  sorted : entries.Pairwise fun x y => x.base < y.base
  disjoint : entries.Pairwise fun x y =>
    Disjoint (Set.Ico x.base (x.base + x.size)) (Set.Ico y.base (y.base + y.size))
  size_pos : ∀ e ∈ entries, 0 < e.size

/-- An address at which an area can be placed. -/
structure Fits (entries : List KgslIommuAddrEntry) (bottom top size a addr : ℕ) : Prop where
  aligned : a ∣ addr
  bottom_le : bottom ≤ addr
  le_top : addr + size ≤ top
  free : ∀ e ∈ entries,
    Disjoint (Set.Ico addr (addr + size)) (Set.Ico e.base (e.base + e.size))

/-- A search gives the best address of a set, and `-ENOMEM` if the set is empty. -/
def Finds (best : Set ℕ → ℕ → Prop) (addrs : Set ℕ) : Except ℤ ℕ → Prop
  | .ok addr => best addrs addr
  | .error ret => ret = gpuaddrENoMem ∧ addrs = ∅

/-- The aligned addresses between two bounds where an area is clear of the entries. -/
def room (entries : List KgslIommuAddrEntry) (bottom top size a : ℕ) : Set ℕ :=
  { x | a ∣ x ∧ bottom ≤ x ∧ x + size ≤ top ∧
    ∀ e ∈ entries, e.base + e.size ≤ x ∨ x + size ≤ e.base }

theorem disjoint_area_iff {x size base len : ℕ} (hsize : 0 < size) (hlen : 0 < len) :
    Disjoint (Set.Ico x (x + size)) (Set.Ico base (base + len)) ↔
      base + len ≤ x ∨ x + size ≤ base := by
  rw [Set.Ico_disjoint_Ico]
  omega

theorem DisjointEntries.below {entries : List KgslIommuAddrEntry} (h : DisjointEntries entries) :
    entries.Pairwise Below := by
  refine (h.sorted.and h.disjoint).imp_of_mem ?_
  rintro x y hx hy ⟨hlt, hdisjoint⟩
  have hsize := h.size_pos y hy
  rw [disjoint_area_iff (h.size_pos x hx) hsize] at hdisjoint
  rw [Below]
  omega

theorem DisjointEntries.of_below {entries : List KgslIommuAddrEntry}
    (hbelow : entries.Pairwise Below) (hsize : ∀ e ∈ entries, 0 < e.size) :
    DisjointEntries entries := by
  refine ⟨hbelow.imp_of_mem ?_, hbelow.imp_of_mem ?_, hsize⟩
  · intro x y hx hy hxy
    have := hsize x hx
    rw [Below] at hxy
    omega
  · intro x y hx hy hxy
    exact (disjoint_area_iff (hsize x hx) (hsize y hy)).mpr (Or.inr hxy)

theorem DisjointEntries.fits_iff {entries : List KgslIommuAddrEntry} (h : DisjointEntries entries)
    {bottom top size a addr : ℕ} (hsize : 0 < size) :
    Fits entries bottom top size a addr ↔ addr ∈ room entries bottom top size a := by
  have hfree : (∀ e ∈ entries, Disjoint (Set.Ico addr (addr + size))
        (Set.Ico e.base (e.base + e.size))) ↔
      ∀ e ∈ entries, e.base + e.size ≤ addr ∨ addr + size ≤ e.base :=
    forall₂_congr fun e he => disjoint_area_iff hsize (h.size_pos e he)
  exact ⟨fun hfits => ⟨hfits.1, hfits.2, hfits.3, hfree.mp hfits.4⟩,
    fun hroom => ⟨hroom.1, hroom.2.1, hroom.2.2.1, hfree.mpr hroom.2.2.2⟩⟩

theorem room_align (entries : List KgslIommuAddrEntry) {bottom top size a : ℕ} (ha : 0 < a) :
    room entries (align bottom a) top size a = room entries bottom top size a := by
  ext x
  refine and_congr_right fun hdvd => and_congr_left fun _ => ?_
  exact ⟨fun hle => Nat.le_trans (le_align ha bottom) hle, align_le hdvd⟩

/-! ## From the bottom -/

section Bottom

variable {entries : List KgslIommuAddrEntry} {e : KgslIommuAddrEntry} {top size a start : ℕ}

theorem room_least {hi : ℕ} (hdvd : a ∣ start) (habove : ∀ e ∈ entries, hi ≤ e.base)
    (hhi : hi ≤ top) (hfit : start + size ≤ hi) :
    IsLeast (room entries start top size a) start :=
  ⟨⟨hdvd, Nat.le_refl _, Nat.le_trans hfit hhi,
    fun e he => Or.inr (Nat.le_trans hfit (habove e he))⟩, fun _ hx => hx.2.1⟩

theorem room_eq_empty (hfit : ¬ start + size ≤ top) : room entries start top size a = ∅ := by
  refine Set.eq_empty_of_forall_notMem fun x hx => hfit ?_
  exact Nat.le_trans (Nat.add_le_add_right hx.2.1 size) hx.2.2.1

theorem room_cons_passed (hpassed : e.base + e.size ≤ start) :
    room (e :: entries) start top size a = room entries start top size a := by
  ext x
  refine and_congr_right fun _ => and_congr_right fun hle => and_congr_right fun _ => ?_
  rw [forall_mem_cons, and_iff_right (Or.inl (Nat.le_trans hpassed hle))]

theorem room_cons_behind (ha : 0 < a) (hfull : ¬ start + size ≤ e.base)
    (hle : start ≤ align (e.base + e.size) a) :
    room (e :: entries) start top size a =
      room entries (align (e.base + e.size) a) top size a := by
  ext x
  constructor
  · rintro ⟨hdvd, hx, hfit, hfree⟩
    rw [forall_mem_cons] at hfree
    refine ⟨hdvd, align_le hdvd ?_, hfit, hfree.2⟩
    exact hfree.1.resolve_right fun hbefore => hfull (by omega)
  · rintro ⟨hdvd, hx, hfit, hfree⟩
    refine ⟨hdvd, Nat.le_trans hle hx, hfit, forall_mem_cons.mpr ⟨Or.inl ?_, hfree⟩⟩
    exact Nat.le_trans (le_align ha _) hx

theorem searchRange_finds {bottom : ℕ} (ha : 0 < a) (hsize : 0 < size)
    (hentries : entries.Pairwise Below) (hdvd : a ∣ start) (hbottom : bottom ≤ start)
    (hfirst : ∀ e ∈ entries, e.base < bottom → start = bottom)
    (hstart : ∃ z, start = align z a ∧ ∀ e ∈ entries, bottom ≤ e.base → z ≤ e.base) :
    Finds IsLeast (room entries start top size a)
      (searchRange bottom top size a entries start) := by
  induction entries generalizing start with
  | nil =>
    rw [searchRange]
    split
    · rename_i hfit
      exact room_least hdvd (fun e he => absurd he not_mem_nil) (Nat.le_refl top) hfit
    · rename_i hfit
      exact ⟨rfl, room_eq_empty hfit⟩
  | cons e es ih =>
    obtain ⟨hbelow, hes⟩ := pairwise_cons.mp hentries
    have hafter : ∀ y ∈ es, e.base + e.size ≤ y.base := hbelow
    have hend := le_align ha (e.base + e.size)
    -- the search goes on behind the entry
    have hnext : bottom ≤ e.base + e.size → Finds IsLeast
        (room es (align (e.base + e.size) a) top size a)
        (searchRange bottom top size a es (align (e.base + e.size) a)) := by
      intro hle
      refine ih hes (dvd_align _) (Nat.le_trans hle hend) (fun y hy hlt => ?_)
        ⟨_, rfl, fun y hy _ => hafter y hy⟩
      have := hafter y hy
      omega
    obtain ⟨z, hz, hzle⟩ := hstart
    rw [searchRange]
    by_cases hlow : e.base < bottom
    · have hsame : start = bottom := hfirst e mem_cons_self hlow
      rw [if_pos hlow]
      by_cases hstraddles : bottom < e.base + e.size
      · rw [if_pos hstraddles, room_cons_behind ha (by omega) (by omega)]
        exact hnext (Nat.le_of_lt hstraddles)
      · rw [if_neg hstraddles, room_cons_passed (by omega)]
        exact ih hes hdvd hbottom (fun y hy => hfirst y (mem_cons_of_mem e hy))
          ⟨z, hz, fun y hy => hzle y (mem_cons_of_mem e hy)⟩
    rw [if_neg hlow]
    by_cases hover : top ≤ e.base
    · rw [if_pos hover]
      have habove : ∀ y ∈ e :: es, top ≤ y.base := by
        refine forall_mem_cons.mpr ⟨hover, fun y hy => ?_⟩
        have := hafter y hy
        omega
      split
      · rename_i hfit
        exact room_least hdvd habove (Nat.le_refl top) hfit
      · rename_i hfit
        exact ⟨rfl, room_eq_empty hfit⟩
    rw [if_neg hover]
    by_cases hgap : start < e.base ∧ size ≤ e.base - start
    · rw [if_pos hgap]
      refine room_least hdvd ?_ (Nat.le_of_not_le hover) (show start + size ≤ e.base by omega)
      refine forall_mem_cons.mpr ⟨Nat.le_refl _, fun y hy => ?_⟩
      exact Nat.le_trans (Nat.le_add_right _ _) (hafter y hy)
    have hfull : ¬ start + size ≤ e.base := by omega
    have hmono : start ≤ align (e.base + e.size) a := by
      have hze := hzle e mem_cons_self (Nat.le_of_not_lt hlow)
      rw [hz]
      exact align_mono ha (Nat.le_trans hze (Nat.le_add_right _ _))
    rw [if_neg hgap, room_cons_behind ha hfull hmono]
    split
    · rename_i hlast
      exact ⟨rfl, room_eq_empty (by omega)⟩
    · exact hnext (by omega)

end Bottom

/-! ## From the top -/

section Top

variable {entries : List KgslIommuAddrEntry} {e : KgslIommuAddrEntry} {bottom size a hi : ℕ}

theorem dvd_alignDown (x : ℕ) : a ∣ alignDown x a := Nat.dvd_mul_left a _

theorem alignDown_le (x : ℕ) : alignDown x a ≤ x := Nat.div_mul_le_self x a

theorem le_alignDown {x m : ℕ} (hm : a ∣ m) (hx : m ≤ x) : m ≤ alignDown x a := by
  obtain ⟨k, rfl⟩ := hm
  rcases Nat.eq_zero_or_pos a with rfl | ha
  · rw [Nat.zero_mul]
    exact Nat.zero_le _
  · rw [alignDown, Nat.mul_comm a k]
    refine Nat.mul_le_mul_right a ((Nat.le_div_iff_mul_le ha).mpr ?_)
    rwa [Nat.mul_comm]

/-- Address zero is taken only if the gap goes on behind the area. -/
def topRoom (entries : List KgslIommuAddrEntry) (bottom top size a : ℕ) : Set ℕ :=
  { x | x ∈ room entries bottom top size a ∧
    (x = 0 → x ∈ room entries bottom top (size + 1) a) }

theorem topRoom_greatest (hsize : size < hi) (hbottom : bottom ≤ alignDown (hi - size) a)
    (hbelow : ∀ e ∈ entries, e.base + e.size ≤ alignDown (hi - size) a) :
    IsGreatest (topRoom entries bottom hi size a) (alignDown (hi - size) a) := by
  have hle := alignDown_le (a := a) (hi - size)
  refine ⟨⟨⟨dvd_alignDown _, hbottom, by omega, fun e he => Or.inl (hbelow e he)⟩, fun hzero => ?_⟩,
    fun x hx => le_alignDown hx.1.1 ?_⟩
  · exact ⟨dvd_alignDown _, hbottom, by omega, fun e he => Or.inl (hbelow e he)⟩
  · have := hx.1.2.2.1
    omega

theorem gap_of_topRoom {x offset : ℕ} (hx : x ∈ topRoom entries bottom hi size a)
    (hoffset : offset ≤ x) : size < hi ∧ offset ≤ alignDown (hi - size) a := by
  have hfit := hx.1.2.2.1
  have hsize : size < hi := by
    rcases Nat.eq_zero_or_pos x with hzero | hpos
    · have := (hx.2 hzero).2.2.1
      omega
    · omega
  exact ⟨hsize, Nat.le_trans hoffset (le_alignDown hx.1.1 (by omega))⟩

theorem lowestGap_finds (hbelow : ∀ e ∈ entries, e.base + e.size ≤ bottom) :
    Finds IsGreatest (topRoom entries bottom hi size a) (lowestGap bottom size a hi) := by
  rw [lowestGap]
  split
  · rename_i hfit
    exact topRoom_greatest hfit.1 hfit.2 fun e he => Nat.le_trans (hbelow e he) hfit.2
  · rename_i hfull
    refine ⟨rfl, Set.eq_empty_of_forall_notMem fun x hx => hfull ?_⟩
    exact gap_of_topRoom hx hx.1.2.1

theorem topRoom_cons_below (hbase : e.base ≤ hi)
    (hfull : ∀ x ∈ topRoom (e :: entries) bottom hi size a, ¬ e.base + e.size ≤ x) :
    topRoom (e :: entries) bottom hi size a = topRoom entries bottom e.base size a := by
  have habove : ∀ {x len : ℕ}, ¬ e.base + e.size ≤ x → x ∈ room (e :: entries) bottom hi len a →
      x ∈ room entries bottom e.base len a := by
    rintro x len hnot ⟨hdvd, hx, -, hfree⟩
    rw [forall_mem_cons] at hfree
    exact ⟨hdvd, hx, hfree.1.resolve_left hnot, hfree.2⟩
  have hbelow : ∀ {x len : ℕ}, x ∈ room entries bottom e.base len a →
      x ∈ room (e :: entries) bottom hi len a := by
    rintro x len ⟨hdvd, hx, hfit, hfree⟩
    exact ⟨hdvd, hx, Nat.le_trans hfit hbase, forall_mem_cons.mpr ⟨Or.inr hfit, hfree⟩⟩
  ext x
  constructor
  · intro hx
    have hnot := hfull x hx
    exact ⟨habove hnot hx.1, fun hzero => habove hnot (hx.2 hzero)⟩
  · intro hx
    exact ⟨hbelow hx.1, fun hzero => hbelow (hx.2 hzero)⟩

theorem searchDown_finds (ha : 0 < a) (hsize : 0 < size)
    (hentries : entries.Pairwise fun x y => Below y x) (hhi : ∀ e ∈ entries, e.base ≤ hi) :
    Finds IsGreatest (topRoom entries bottom hi size a)
      (searchDown bottom size a entries hi) := by
  induction entries generalizing hi with
  | nil => exact lowestGap_finds fun e he => absurd he not_mem_nil
  | cons e es ih =>
    obtain ⟨hbelow, hes⟩ := pairwise_cons.mp hentries
    have hbefore : ∀ y ∈ es, y.base + y.size ≤ e.base := hbelow
    have hall : ∀ {x : ℕ}, e.base + e.size ≤ x → ∀ y ∈ e :: es, y.base + y.size ≤ x := by
      intro x hx
      refine forall_mem_cons.mpr ⟨hx, fun y hy => ?_⟩
      have := hbefore y hy
      omega
    rw [searchDown]
    by_cases hunder : e.base + e.size < bottom
    · rw [if_pos hunder]
      exact lowestGap_finds (hall (Nat.le_of_lt hunder))
    rw [if_neg hunder]
    by_cases hgap : size < hi ∧ align (e.base + e.size) a < hi ∧
        align (e.base + e.size) a ≤ alignDown (hi - size) a
    · rw [if_pos hgap]
      have hend := Nat.le_trans (le_align ha (e.base + e.size)) hgap.2.2
      exact topRoom_greatest hgap.1 (Nat.le_trans (Nat.le_of_not_lt hunder) hend) (hall hend)
    have hfull : ∀ x ∈ topRoom (e :: es) bottom hi size a, ¬ e.base + e.size ≤ x := by
      intro x hx hle
      have hoffset := align_le hx.1.1 hle
      obtain ⟨hless, hchunk⟩ := gap_of_topRoom hx hoffset
      have hfit := hx.1.2.2.1
      exact hgap ⟨hless, by omega, hchunk⟩
    rw [if_neg hgap, topRoom_cons_below (hhi e mem_cons_self) hfull]
    split
    · rename_i hlow
      refine ⟨rfl, Set.eq_empty_of_forall_notMem fun x hx => ?_⟩
      have hx' := hx.1.2
      omega
    · exact ih hes fun y hy => Nat.le_trans (Nat.le_add_right _ _) (hbefore y hy)

theorem topRoom_dropWhile {top : ℕ} :
    topRoom (entries.dropWhile fun e => decide (top ≤ e.base)) bottom top size a =
      topRoom entries bottom top size a := by
  have hroom : ∀ {x len : ℕ},
      x ∈ room (entries.dropWhile fun e => decide (top ≤ e.base)) bottom top len a ↔
        x ∈ room entries bottom top len a := by
    intro x len
    refine and_congr_right fun _ => and_congr_right fun _ => and_congr_right fun hfit => ?_
    refine ⟨fun hfree e he => ?_, fun hfree e he => hfree e ((dropWhile_sublist _).subset he)⟩
    rw [← takeWhile_append_dropWhile (p := fun e => decide (top ≤ e.base)) (l := entries),
      mem_append] at he
    rcases he with hover | hin
    · have hbase := mem_takeWhile_imp hover
      exact Or.inr (Nat.le_trans hfit (of_decide_eq_true hbase))
    · exact hfree e hin
  ext x
  exact and_congr hroom (imp_congr_right fun _ => hroom)

theorem base_le_of_dropWhile {top : ℕ} (hentries : entries.Pairwise fun x y => Below y x) :
    ∀ e ∈ entries.dropWhile fun e => decide (top ≤ e.base), e.base ≤ top := by
  induction entries with
  | nil => exact fun e he => absurd he not_mem_nil
  | cons x xs ih =>
    obtain ⟨hbelow, hxs⟩ := pairwise_cons.mp hentries
    by_cases hover : top ≤ x.base
    · rw [dropWhile_cons, if_pos (decide_eq_true hover)]
      exact ih hxs
    · rw [dropWhile_cons, if_neg (by simpa using hover)]
      refine forall_mem_cons.mpr ⟨Nat.le_of_not_le hover, fun y hy => ?_⟩
      have hlower : y.base + y.size ≤ x.base := hbelow y hy
      omega

end Top

/-! ## Both searches -/

/-- From the bottom the lowest free address is found and from the top the highest one, and none
only where there is none. At the top address zero does not count where the area would fill its
gap. -/
theorem areas_found {pt : KgslPagetable} (h : DisjointEntries pt.rbtree.toList) {top size : ℕ}
    (bottom k : ℕ) (htop : top < 2 ^ 64) (hsize : 0 < size) :
    Finds IsLeast { x | Fits pt.rbtree.toList bottom top size (2 ^ k) x }
      (searchRange (align bottom (2 ^ k)) top size (2 ^ k) pt.rbtree.toList
        (align bottom (2 ^ k))) ∧
    Finds IsGreatest { x | Fits pt.rbtree.toList bottom top size (2 ^ k) x ∧
        (x = 0 → Fits pt.rbtree.toList bottom top (size + 1) (2 ^ k) x) }
      (pt.getUnmappedAreaTopdown bottom top size (2 ^ k)) := by
  have ha : 0 < 2 ^ k := Nat.two_pow_pos k
  have hfits : ∀ len, 0 < len → { x | Fits pt.rbtree.toList bottom top len (2 ^ k) x } =
      room pt.rbtree.toList (align bottom (2 ^ k)) top len (2 ^ k) := by
    intro len hlen
    rw [room_align _ ha]
    exact Set.ext fun x => h.fits_iff hlen
  have hreverse : ∀ len, room pt.rbtree.toList.reverse (align bottom (2 ^ k)) top len (2 ^ k) =
      room pt.rbtree.toList (align bottom (2 ^ k)) top len (2 ^ k) := by
    intro len
    simp only [room, mem_reverse]
  constructor
  · rw [hfits size hsize]
    refine searchRange_finds ha hsize h.below (dvd_align _) (Nat.le_refl _) (fun _ _ _ => rfl) ?_
    exact ⟨bottom, rfl, fun e _ hbase => Nat.le_trans (le_align ha bottom) hbase⟩
  · have hset : { x | Fits pt.rbtree.toList bottom top size (2 ^ k) x ∧
        (x = 0 → Fits pt.rbtree.toList bottom top (size + 1) (2 ^ k) x) } =
        topRoom pt.rbtree.toList.reverse (align bottom (2 ^ k)) top size (2 ^ k) := by
      rw [topRoom, hreverse, hreverse, ← hfits size hsize, ← hfits (size + 1) (Nat.succ_pos size)]
      rfl
    rw [hset, getUnmappedAreaTopdown]
    split
    · rename_i hsmall
      refine ⟨rfl, Set.eq_empty_of_forall_notMem fun x hx => ?_⟩
      have hx' := hx.1.2
      omega
    · rw [← topRoom_dropWhile]
      have hbelow : pt.rbtree.toList.reverse.Pairwise fun x y => Below y x :=
        pairwise_reverse.mpr h.below
      exact searchDown_finds ha hsize (hbelow.sublist (dropWhile_sublist _))
        (base_le_of_dropWhile hbelow)

instance : DecidableRel Below := fun x y => inferInstanceAs (Decidable (x.base + x.size ≤ y.base))

def threeAreas : KgslPagetable :=
  (sampleAddrOps.take 3).foldl (addrStep .unbalanced) (kgslIopgtblPagetable 0x300000 true false)

theorem areas_found_threeAreas :
    Finds IsLeast { x | Fits threeAreas.rbtree.toList 0x3ffffff000 0x4000020000 0x2000 (2 ^ 12) x }
      (searchRange (align 0x3ffffff000 (2 ^ 12)) 0x4000020000 0x2000 (2 ^ 12)
        threeAreas.rbtree.toList (align 0x3ffffff000 (2 ^ 12))) ∧
    Finds IsGreatest { x |
        Fits threeAreas.rbtree.toList 0x3ffffff000 0x4000020000 0x2000 (2 ^ 12) x ∧
        (x = 0 → Fits threeAreas.rbtree.toList 0x3ffffff000 0x4000020000 (0x2000 + 1) (2 ^ 12) x) }
      (threeAreas.getUnmappedAreaTopdown 0x3ffffff000 0x4000020000 0x2000 (2 ^ 12)) :=
  areas_found (.of_below (by decide +kernel) (by decide +kernel)) 0x3ffffff000 12 (by decide)
    (by decide)

/-- A range from address zero on that the area would fill is not found to be free. -/
theorem zero_area_missed :
    let pt := kgslIopgtblPagetable 0x300000 true false
    Fits pt.rbtree.toList 0 0x1000 0x1000 (2 ^ 12) 0 ∧
      pt.getUnmappedAreaTopdown 0 0x1000 0x1000 (2 ^ 12) = .error gpuaddrENoMem :=
  ⟨⟨Nat.dvd_zero _, Nat.le_refl 0, by decide, fun e he => absurd he not_mem_nil⟩,
    by decide +kernel⟩

end KgslPagetable

end QcomModules.Kgsl
