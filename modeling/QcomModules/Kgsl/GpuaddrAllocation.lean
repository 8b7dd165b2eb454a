import QcomModules.Kgsl.FreeAreas

/-! The calls on a pagetable as operations on a set of areas: a request is refused only where no
area is free, and what is given back is free again. -/

namespace QcomModules.Kgsl

open Library List

namespace KgslPagetable

def requestRange (pt : KgslPagetable) (m : AddrRequest) : ℕ × ℕ :=
  if m.force32bit then (pt.compatVaStart, pt.compatVaEnd) else (pt.vaStart, pt.vaEnd)

/-- What a call makes of the areas: it takes a new one in a free place, or is refused where there
is none and changes nothing. -/
structure Takes (pt : KgslPagetable) (free : ℕ → Prop) (size : ℕ)
    (result : KgslPagetable × Except ℤ ℕ) : Prop where
  taken : ∀ addr, result.2 = .ok addr → free addr ∧
    (result.1.rbtree.toList.map fun e => (e.base, e.size)).Perm
      ((addr, size) :: pt.rbtree.toList.map fun e => (e.base, e.size))
  refused : ∀ ret, result.2 = .error ret → ret = gpuaddrENoMem ∧ result.1 = pt ∧ ∀ addr, ¬ free addr

/-- The areas that the calls take and give back. -/
structure ServesAreas (rb : RbOps KgslIommuAddrEntry) (pt : KgslPagetable) : Prop where
  get : ∀ m : AddrRequest, m.useCpuMap = false → m.secure = false → m.memory = true →
    0 < m.footprint → pt.Takes (Fits pt.rbtree.toList (pt.requestRange m).1 (pt.requestRange m).2
      m.footprint (2 ^ m.alignBit)) m.footprint (kgslIommuGetGpuaddr rb pt m)
  setSvm : ∀ gpuaddr size, gpuaddr < 2 ^ 64 → size < 2 ^ 64 →
    pt.Takes (fun addr => addr = gpuaddr ∧ pt.iommuAddrInSvmRanges gpuaddr size = true ∧
        Fits pt.rbtree.toList 0 (gpuaddr + size) size 1 gpuaddr) size
      ((kgslIommuSetSvmRegion rb pt gpuaddr size true false).map id fun ret =>
        if ret = 0 then .ok gpuaddr else .error ret)
  put : ∀ gpuaddr, (kgslIommuPutGpuaddr rb pt gpuaddr).rbtree.toList =
    pt.rbtree.toList.filter fun e => e.base != gpuaddr

section Calls

variable {rb : RbOps KgslIommuAddrEntry} {pt pt' : KgslPagetable} {free : ℕ → Prop}
  {bottom top size a addr : ℕ}

theorem Takes.ok {origin : AddrRange} (hfree : free addr)
    (hperm : pt'.rbtree.toList.Perm (⟨addr, size, origin⟩ :: pt.rbtree.toList)) :
    pt.Takes free size (pt', .ok addr) :=
  ⟨fun _ hok => (by cases hok; exact ⟨hfree, hperm.map _⟩), fun _ hret => (by cases hret)⟩

theorem Takes.error (hnone : ∀ addr, ¬ free addr) :
    pt.Takes free size (pt, .error gpuaddrENoMem) :=
  ⟨fun _ hok => (by cases hok), fun _ hret => (by cases hret; exact ⟨rfl, rfl, hnone⟩)⟩

theorem AddrInv.insert_perm (hrb : rb.Lawful) (h : AddrInv pt) (hint : ℕ)
    {new : KgslIommuAddrEntry} (hnew : 0 < new.size)
    (hfree : ∀ e ∈ pt.rbtree.toList, Below e new ∨ Below new e) :
    (insertGpuaddr rb { pt with vaHint := hint } new).2 = 0 ∧
      (insertGpuaddr rb { pt with vaHint := hint } new).1.rbtree.toList.Perm
        (new :: pt.rbtree.toList) := by
  obtain ⟨tree, heq, hperm, -⟩ := @insertGpuaddr_spec rb hrb { pt with vaHint := hint } new
    h.below h.size_pos hnew hfree
  rw [heq]
  exact ⟨rfl, hperm⟩

theorem getUnmappedArea_cases (pt : KgslPagetable) (bottom top size a : ℕ) :
    (∃ pt', pt.getUnmappedArea bottom top size a = (pt', .ok (align pt.vaHint a))) ∨
      pt.getUnmappedArea bottom top size a =
        (pt, searchRange (align bottom a) top size a pt.rbtree.toList (align bottom a)) := by
  rw [getUnmappedArea, getUnmappedAreaHint]
  split_ifs
  · exact .inr rfl
  · exact .inr rfl
  · exact .inl ⟨_, rfl⟩

theorem AddrInv.search_finds (h : AddrInv pt) (ha : 0 < a) (hsize : 0 < size) :
    Finds IsLeast (room pt.rbtree.toList bottom top size a)
      (searchRange (align bottom a) top size a pt.rbtree.toList (align bottom a)) := by
  rw [← room_align _ ha]
  refine searchRange_finds ha hsize h.below (dvd_align _) (Nat.le_refl _) (fun _ _ _ => rfl) ?_
  exact ⟨bottom, rfl, fun e _ hbase => Nat.le_trans (le_align ha bottom) hbase⟩

theorem AddrInv.getGpuaddr_takes (hrb : rb.Lawful) (h : AddrInv pt) {origin : AddrRange}
    (ha : 0 < a) (hsize : 0 < size)
    (hrange : (bottom = pt.vaStart ∧ top = pt.vaEnd) ∨ top = pt.compatVaEnd) :
    pt.Takes (Fits pt.rbtree.toList bottom top size a) size
      (KgslPagetable.getGpuaddr rb pt true bottom top size a origin) := by
  have hfits (x : ℕ) : Fits pt.rbtree.toList bottom top size a x ↔
      x ∈ room pt.rbtree.toList bottom top size a :=
    (DisjointEntries.of_below h.below h.size_pos).fits_iff hsize
  have hsearch := @AddrInv.search_finds pt bottom top size a h ha hsize
  have hcases := pt.getUnmappedArea_cases bottom top size a
  rw [KgslPagetable.getGpuaddr, if_neg (by decide)]
  cases harea : pt.getUnmappedArea bottom top size a with
  | mk pt' result =>
    cases result with
    | error ret =>
      rw [harea] at hcases
      obtain ⟨_, hhint⟩ | hfound := hcases
      · cases hhint
      · obtain ⟨rfl, hret⟩ := Prod.mk.inj hfound
        rw [← hret] at hsearch
        rw [hsearch.1]
        refine .error fun addr hfit => ?_
        rw [hfits, hsearch.2] at hfit
        exact hfit
    | ok addr =>
      have hdvd : a ∣ addr := by
        rw [harea] at hcases
        obtain ⟨_, hhint⟩ | hfound := hcases
        · cases hhint
          exact dvd_align _
        · rw [← (Prod.mk.inj hfound).2] at hsearch
          exact hsearch.1.1
      obtain ⟨hint, rfl, hle, hfit, hfree, -⟩ := getUnmappedArea_ok h ha hrange harea
      obtain ⟨hret, hperm⟩ := @AddrInv.insert_perm rb pt hrb h hint ⟨addr, size, origin⟩ hsize hfree
      dsimp only
      rw [if_pos hret]
      exact .ok ((hfits addr).2 ⟨hdvd, hle, hfit, hfree⟩) hperm

theorem AddrInv.setSvm_takes (hrb : rb.Lawful) (h : AddrInv pt) {gpuaddr : ℕ}
    (hg : gpuaddr < 2 ^ 64) (hs : size < 2 ^ 64) :
    pt.Takes (fun addr => addr = gpuaddr ∧ pt.iommuAddrInSvmRanges gpuaddr size = true ∧
        Fits pt.rbtree.toList 0 (gpuaddr + size) size 1 gpuaddr) size
      ((KgslPagetable.kgslIommuSetSvmRegion rb pt gpuaddr size true false).map id fun ret =>
        if ret = 0 then .ok gpuaddr else .error ret) := by
  rw [KgslPagetable.kgslIommuSetSvmRegion]
  by_cases haccept : pt.iommuAddrInSvmRanges gpuaddr size = true
  · obtain ⟨hpos, -⟩ := svm_range_of_accepted hg hs haccept
    have hfits : Fits pt.rbtree.toList 0 (gpuaddr + size) size 1 gpuaddr ↔
        ∀ e ∈ pt.rbtree.toList, e.base + e.size ≤ gpuaddr ∨ gpuaddr + size ≤ e.base := by
      rw [(DisjointEntries.of_below h.below h.size_pos).fits_iff hpos]
      simp [room]
    rw [if_neg (by simpa using haccept), if_neg (by decide), if_neg (by decide)]
    cases hdescend : pt.rbtree.descend (svmSide gpuaddr size) with
    | some e =>
      obtain ⟨he, hside⟩ := SearchTree.descend_some hdescend
      refine .error fun addr hfree => ?_
      have hapart := (hfits.1 hfree.2.2) e he
      rw [svmSide] at hside
      split at hside <;> [cases hside; split at hside <;> [cases hside; omega]]
    | none =>
      have hsides := SearchTree.descend_none (monotone_svmSide h.below h.size_pos hpos) hdescend
      have hfree (e) (he : e ∈ pt.rbtree.toList) :
          e.base + e.size ≤ gpuaddr ∨ gpuaddr + size ≤ e.base := by
        have hside := hsides e he
        rw [svmSide] at hside
        by_contra hmeets
        rw [if_neg (by omega), if_neg (by omega)] at hside
        exact hside rfl
      obtain ⟨hret, hperm⟩ :=
        @AddrInv.insert_perm rb pt hrb h pt.vaHint ⟨gpuaddr, size, .svm⟩ hpos hfree
      rw [Prod.map_apply', if_pos hret]
      exact .ok ⟨rfl, haccept, hfits.2 hfree⟩ hperm
  · rw [if_pos (by simpa using haccept)]
    exact .error fun addr hfree => haccept hfree.2.1

/-- No two entries have one base, so the entry at an address is all that is given back. -/
theorem AddrInv.put_toList (hrb : rb.Lawful) (h : AddrInv pt) (gpuaddr : ℕ) :
    (KgslPagetable.kgslIommuPutGpuaddr rb pt gpuaddr).rbtree.toList =
      pt.rbtree.toList.filter fun e => e.base != gpuaddr := by
  rw [KgslPagetable.kgslIommuPutGpuaddr, removeGpuaddr]
  cases hfind : pt.findGpuaddr gpuaddr with
  | none =>
    have hside := SearchTree.descend_none (monotone_compare h.below gpuaddr) hfind
    refine (filter_eq_self.2 fun e he => bne_iff_ne.2 fun heq => ?_).symm
    exact hside e he (Nat.compare_eq_eq.2 heq.symm)
  | some entry =>
    obtain ⟨hmem, hside⟩ := SearchTree.descend_some hfind
    have hbase : entry.base = gpuaddr := (Nat.compare_eq_eq.1 hside).symm
    have hbases : (pt.rbtree.toList.map KgslIommuAddrEntry.base).Nodup := by
      refine pairwise_map.2 (h.below.imp_of_mem fun {x y} hx _ hxy => ?_)
      have := h.size_pos x hx
      rw [Below] at hxy
      omega
    show (rb.erase pt.rbtree entry).toList = _
    rw [hrb.erase, Nodup.erase_eq_filter (Nodup.of_map _ hbases)]
    refine filter_congr fun e he => ?_
    rw [Bool.eq_iff_iff, bne_iff_ne, bne_iff_ne, not_iff_not]
    exact ⟨fun heq => heq ▸ hbase, fun heq =>
      inj_on_of_nodup_map hbases he hmem (heq.trans hbase.symm)⟩

end Calls

/-- In every state reached a request is served exactly if an aligned area of its range is free,
with one that is; a region is shared exactly if it is free; and what is given back is one area. -/
theorem areas_served {rb : RbOps KgslIommuAddrEntry} (hrb : rb.Lawful)
    (svmBase32 : ℕ) (iopgtable isCompatTask : Bool) {pt : KgslPagetable}
    (hrun : Relation.ReflTransGen (GuardedStep (fun _ op => op.WellFormed) (addrStep rb))
      (kgslIopgtblPagetable svmBase32 iopgtable isCompatTask) pt) :
    ServesAreas rb pt := by
  have h : AddrInv pt := invariant_of_guarded (fun _ _ hinv hop => hinv.addrStep hrb hop)
    (AddrInv.alloc svmBase32 iopgtable isCompatTask) hrun
  refine ⟨fun m hcpu hsecure hmemory hsize => ?_, fun _ _ hg hs => h.setSvm_takes hrb hg hs,
    h.put_toList hrb⟩
  rw [kgslIommuGetGpuaddr, if_neg (by simp [hcpu]), if_neg (by simp [hsecure]), hmemory,
    requestRange]
  cases m.force32bit with
  | true => exact h.getGpuaddr_takes hrb (Nat.two_pow_pos _) hsize (.inr rfl)
  | false => exact h.getGpuaddr_takes hrb (Nat.two_pow_pos _) hsize (.inl ⟨rfl, rfl⟩)

/-- The area given back is taken again. -/
theorem areas_served_sample :
    let pt := sampleAddrOps.foldl (addrStep .unbalanced) (kgslIopgtblPagetable 0x300000 true false)
    (kgslIommuGetGpuaddr .unbalanced pt (vaRequest 0x1000 16)).2.toOption = some 0x4000010000 ∧
      ServesAreas .unbalanced pt :=
  ⟨by decide +kernel, areas_served RbOps.unbalanced_lawful 0x300000 true false
    (guarded_foldl (by decide +kernel))⟩

end KgslPagetable

end QcomModules.Kgsl
