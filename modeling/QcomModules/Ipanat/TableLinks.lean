import QcomModules.Ipanat.Table
import QcomModules.Library.Linked

/-! The chains of one table: what its searches find, and that inserting and removing
an entry keeps the chains linked and the counters exact. -/

namespace QcomModules.Ipanat

open Library List

/-! ## Dimensions and handles -/

/-- What `ipa_table_calculate_entries_num` guarantees. -/
structure DimsOk (tableEntries expnTableEntries : Nat) : Prop where
  two_le : 2 ≤ tableEntries
  tableEntries_le : tableEntries ≤ 4096
  expnTableEntries_le : expnTableEntries ≤ 4096
  tot_le : tableEntries + expnTableEntries ≤ 5120
  expn_pos : 0 < expnTableEntries

/-- The sizes `Get2PowerTightUpperBound` returns. -/
def IsTwoPower (n : Nat) : Prop := ∃ k, n = 2 ^ (k + 1)

theorem twoPowerLoop_isTwoPower (fuel tmp : Nat) {prev curr : Nat}
    (hprev : prev = 0 ∨ IsTwoPower prev) (hcurr : IsTwoPower curr) :
    ((twoPowerLoop fuel tmp prev curr).1 = 0 ∨ IsTwoPower (twoPowerLoop fuel tmp prev curr).1) ∧
      IsTwoPower (twoPowerLoop fuel tmp prev curr).2 := by
  induction fuel generalizing tmp prev curr with
  | zero => exact ⟨hprev, hcurr⟩
  | succ fuel ih =>
    rw [twoPowerLoop]
    split
    · exact ⟨hprev, hcurr⟩
    · obtain ⟨k, hk⟩ := hcurr
      exact ih _ (.inr ⟨k, hk⟩) ⟨k + 1, by rw [hk, ← pow_succ]⟩

theorem get2PowerTightUpperBound_isTwoPower (num : Nat) :
    IsTwoPower (get2PowerTightUpperBound num) := by
  rw [get2PowerTightUpperBound]
  split
  · exact ⟨0, rfl⟩
  · next hnum =>
      obtain ⟨hprev, hcurr⟩ := twoPowerLoop_isTwoPower 16 num (.inl rfl) ⟨0, rfl⟩
      simp only
      split
      · next heq => exact hprev.resolve_left (fun hzero => hnum (heq.trans hzero))
      · exact hcurr

theorem IsTwoPower.le_4096 {n : Nat} (h : IsTwoPower n) (hle : n ≤ ipaTableMaxEntries) :
    2 ≤ n ∧ n ≤ 4096 := by
  obtain ⟨k, rfl⟩ := h
  have hk : k + 1 < 13 := by
    by_contra hge
    have hbig : 2 ^ 13 ≤ 2 ^ (k + 1) := Nat.pow_le_pow_right (by decide) (not_lt.mp hge)
    rw [ipaTableMaxEntries] at hle
    omega
  have hlow : 2 ^ 1 ≤ 2 ^ (k + 1) := Nat.pow_le_pow_right (by decide) (by omega)
  have hhigh : 2 ^ (k + 1) ≤ 2 ^ 12 := Nat.pow_le_pow_right (by decide) (by omega)
  exact ⟨hlow, hhigh⟩

theorem getEvenTightUpperBound_pos_le (num : Nat) :
    0 < getEvenTightUpperBound num ∧ getEvenTightUpperBound num ≤ num + 2 := by
  rw [getEvenTightUpperBound]
  split
  · omega
  · split <;> omega

theorem dimsOk_of_calculateEntriesNum {numberOfEntries tableEntries expnTableEntries : Nat}
    {nmi : Ipa3NatMemIn}
    (h : ipaTableCalculateEntriesNum numberOfEntries nmi = .ok (tableEntries, expnTableEntries)) :
    DimsOk tableEntries expnTableEntries := by
  simp only [ipaTableCalculateEntriesNum] at h
  split_ifs at h with hnum htot
  simp only [Except.ok.injEq, Prod.mk.injEq] at h
  obtain ⟨rfl, rfl⟩ := h
  have hlow := (get2PowerTightUpperBound_isTwoPower _).le_4096
    (Nat.le_of_add_right_le (not_lt.mp htot))
  rw [ipaTableMaxEntries] at hnum htot
  refine ⟨hlow.1, hlow.2, ?_, not_lt.mp htot, (getEvenTightUpperBound_pos_le _).1⟩
  refine (getEvenTightUpperBound_pos_le _).2.trans ?_
  cases nmi with
  | sram => exact (by omega : numberOfEntries * 43 / 100 + 2 ≤ 4096)
  | ddr => exact (by omega : numberOfEntries * 2 / 10 + 2 ≤ 4096)

variable {i : Nat}

theorem makeEntryHdl_eq {conf : IpaTableConf}
    (hdims : DimsOk conf.tableEntries conf.expnTableEntries) (hi : i < conf.totTblEnts) :
    makeEntryHdl conf i = 2 ^ 15 * conf.nmi.toNat +
      if conf.tableEntries ≤ i then 2 * (i - conf.tableEntries) + 1 else 2 * i := by
  have hn := hdims.tableEntries_le
  have hm := hdims.expnTableEntries_le
  rw [IpaTableConf.totTblEnts] at hi
  have hor : ∀ v, 2 * v ||| 1 = 2 * v + 1 := fun v =>
    (Nat.two_pow_add_eq_or_of_lt (i := 1) (b := 1) (by decide) v).symm
  rw [makeEntryHdl, Nat.or_comm _ (conf.nmi.toNat <<< 15)]
  simp only [ge_iff_le, Nat.shiftLeft_eq, pow_one, Nat.mul_comm _ 2, Nat.mul_comm _ (2 ^ 15), hor]
  rw [Nat.two_pow_add_eq_or_of_lt]
  split <;> omega

theorem ruleHdlIndex_makeEntryHdl {conf : IpaTableConf}
    (hdims : DimsOk conf.tableEntries conf.expnTableEntries) (hi : i < conf.totTblEnts) :
    ruleHdlIndex conf (makeEntryHdl conf i) = i := by
  have hn := hdims.tableEntries_le
  have hm := hdims.expnTableEntries_le
  have hsum : i < conf.tableEntries + conf.expnTableEntries := hi
  have hmask : ∀ v, v &&& 0xFFF = v % 4096 := fun v => Nat.and_two_pow_sub_one_eq_mod v 12
  rw [makeEntryHdl_eq hdims hi, ruleHdlIndex, Nat.shiftRight_eq_div_pow, hmask, Nat.and_one_is_mod]
  split
  · rw [if_neg (by omega)]
    omega
  · rw [if_pos (by omega)]
    omega

section
variable {ε υ : Type} (ei : IpaTableEntryInterface ε υ) (conf : IpaTableConf)

/-! ## The link structure of a table -/

def IpaTable.occ (table : IpaTable ε) (i : Nat) : Bool := ei.entryIsValid (table.records i)

def IpaTable.next (table : IpaTable ε) (i : Nat) : Nat := ei.entryGetNextIndex (table.records i)

def IpaTable.prev (table : IpaTable ε) (i : Nat) : Nat :=
  ei.entryGetPrevIndex (table.records i) i table.metaPrev conf.tableEntries

/-! ## Searches -/

variable {i : Nat}

theorem ipaTableWalkLoop_mtSlot (table : IpaTable ε) (todo : Nat) (hi : 0 < i) :
    (∃ x : Nat, ipaTableWalkLoop ei conf (fun _ j => table.records j) .whenSlotEmpty mtSlot todo i
        () = (↑x, ()) ∧ i ≤ x ∧ x < i + todo ∧ table.occ ei x = false) ∨
      (ipaTableWalkLoop ei conf (fun _ j => table.records j) .whenSlotEmpty mtSlot todo i
        () = (0, ()) ∧ ∀ x, i ≤ x → x < i + todo → table.occ ei x = true) := by
  induction todo generalizing i with
  | zero => exact .inr ⟨rfl, fun x hx hx' => by omega⟩
  | succ todo ih =>
    rw [ipaTableWalkLoop]
    split
    next hocc =>
        left
        refine ⟨i, ?_, le_refl _, by omega, hocc⟩
        have hne : (i : Int) ≠ 0 := by omega
        exact if_pos hne
    next hocc =>
        rcases ih (Nat.succ_pos i) with ⟨x, hx, hle, hlt, hfree⟩ | ⟨hret, hall⟩
        · exact .inl ⟨x, hx, by omega, by omega, hfree⟩
        · refine .inr ⟨hret, fun x hx hx' => ?_⟩
          by_cases hxi : x = i
          · rw [hxi]
            simpa [IpaTable.occ] using hocc
          · exact hall x (by omega) (by omega)

variable {ei conf}

theorem findExpnTblFreeEntry_cases (hdims : DimsOk conf.tableEntries conf.expnTableEntries)
    (table : IpaTable ε) :
    (∃ x, findExpnTblFreeEntry ei conf table = .ok x ∧ conf.tableEntries ≤ x ∧
      x < conf.totTblEnts ∧ table.occ ei x = false) ∨
    (findExpnTblFreeEntry ei conf table = .error (-1) ∧
      ∀ x, conf.tableEntries ≤ x → x < conf.totTblEnts → table.occ ei x = true) := by
  have htwo := hdims.two_le
  have hpos := hdims.expn_pos
  have htot : conf.totTblEnts = conf.tableEntries + conf.expnTableEntries := rfl
  rw [findExpnTblFreeEntry, ipaTableWalk]
  simp only [if_neg (show ¬ conf.tableEntries ≥ conf.totTblEnts by omega)]
  rcases ipaTableWalkLoop_mtSlot ei conf table
    (conf.totTblEnts - conf.tableEntries) (show 0 < conf.tableEntries by omega)
    with ⟨x, hx, hle, hlt, hfree⟩ | ⟨hret, hall⟩
  · refine .inl ⟨x, ?_, hle, by omega, hfree⟩
    rw [hx]
    exact if_pos (by simp only; omega)
  · refine .inr ⟨by rw [hret]; rfl, fun x hx hx' => hall x hx (by omega)⟩

theorem ipaTableIteratorEndLoop_eq {table : IpaTable ε} {l : List Nat}
    (hl : Chain (table.next ei) i l) (hself : ∀ x ∈ l, table.next ei x ≠ x) {fuel : Nat}
    (hfuel : l.length ≤ fuel) :
    ipaTableIteratorEndLoop ei table fuel i = some (l.getLast hl.ne_nil) := by
  induction hl generalizing fuel with
  | last hzero =>
    obtain ⟨fuel, rfl⟩ : ∃ k, fuel = k + 1 := ⟨fuel - 1, by simp at hfuel; omega⟩
    rw [ipaTableIteratorEndLoop]
    exact if_pos hzero
  | step hne hrest ih =>
    obtain ⟨fuel, rfl⟩ : ∃ k, fuel = k + 1 := ⟨fuel - 1, by simp at hfuel; omega⟩
    rw [ipaTableIteratorEndLoop]
    refine (if_neg hne).trans ((if_neg (hself _ mem_cons_self)).trans ?_)
    rw [getLast_cons hrest.ne_nil]
    exact ih (fun x hx => hself x (mem_cons_of_mem _ hx)) (by simpa using hfuel)

/-! ## The invariant -/

variable [Inhabited ε]

variable (ei conf) in
/-- The chains are linked, a free slot is all zero and the counters are exact. -/
structure TableInvariant (table : IpaTable ε) (rank root : Nat → Nat) : Prop where
  linked : Linked conf.tableEntries conf.totTblEnts (table.occ ei) (table.next ei)
    (table.prev ei conf) rank root
  free : ∀ i, table.occ ei i = false → table.records i = default
  curTblCnt : table.curTblCnt = UInt16.ofNat (occupied 0 conf.tableEntries (table.occ ei))
  curExpnTblCnt : table.curExpnTblCnt =
    UInt16.ofNat (occupied conf.tableEntries conf.totTblEnts (table.occ ei))

variable {table table' : IpaTable ε} {rank root : Nat → Nat}

theorem TableInvariant.iteratorEnd (h : TableInvariant ei conf table rank root)
    (hi : table.occ ei i = true) :
    ∃ p, ipaTableIteratorEnd ei conf table i = .ok p ∧ table.occ ei p = true ∧
      table.next ei p = 0 ∧ root p = root i := by
  obtain ⟨l, hl⟩ := h.linked.exists_chain hi
  have hmem := h.linked.chain_mem hl hi
  have hself : ∀ x ∈ l, table.next ei x ≠ x := by
    intro x hx heq
    have hne : table.next ei x ≠ 0 := by
      intro hzero
      rw [hzero] at heq
      rw [← heq] at hx
      exact absurd (hmem 0 hx).1 (by simp [h.linked.zero_free])
    have hlt := h.linked.rank_next (hmem x hx).1 hne
    rw [heq] at hlt
    omega
  have hlast := getLast_mem hl.ne_nil
  refine ⟨l.getLast hl.ne_nil, ?_, (hmem _ hlast).1, hl.next_getLast, (hmem _ hlast).2.1⟩
  rw [ipaTableIteratorEnd, ipaTableIteratorEndLoop_eq hl hself (h.linked.chain_length_le hl hi)]

/-! ## Counters -/

theorem ofNat_succ_sub_one (n : Nat) : UInt16.ofNat (n + 1) - 1 = UInt16.ofNat n := by
  rw [UInt16.ofNat_add]
  simp

/-! ## Steps on the links -/

namespace TableInvariant

variable {i b x : Nat}

theorem lt_tot (h : TableInvariant ei conf table rank root) (hi : table.occ ei i = true) :
    i < conf.totTblEnts := h.linked.lt_of_occ i hi

theorem congr (h : TableInvariant ei conf table rank root)
    (hocc : ∀ i, table'.occ ei i = table.occ ei i)
    (hnext : ∀ i, table.occ ei i = true → table'.next ei i = table.next ei i)
    (hprev : ∀ i, table.occ ei i = true → table'.prev ei conf i = table.prev ei conf i)
    (hfree : ∀ i, table'.occ ei i = false → table'.records i = default)
    (hcnt : table'.curTblCnt = table.curTblCnt)
    (hexpn : table'.curExpnTblCnt = table.curExpnTblCnt) :
    TableInvariant ei conf table' rank root where
  linked := h.linked.congr hocc hnext hprev
  free := hfree
  curTblCnt := by rw [hcnt, h.curTblCnt, occupied_congr (fun i _ _ => hocc i)]
  curExpnTblCnt := by rw [hexpn, h.curExpnTblCnt, occupied_congr (fun i _ _ => hocc i)]

theorem free_update (h : TableInvariant ei conf table rank root) {entry : ε}
    (hentry : ei.entryIsValid entry = false → entry = default) (i : Nat)
    (hi : ei.entryIsValid (Function.update table.records b entry i) = false) :
    Function.update table.records b entry i = default := by
  by_cases hib : i = b
  · rw [hib, Function.update_self] at hi ⊢
    exact hentry hi
  · rw [Function.update_of_ne hib] at hi ⊢
    exact h.free i hi

theorem insertHead (h : TableInvariant ei conf table rank root) (hb : b ≠ 0)
    (hbn : b < conf.tableEntries) (hfree : table.occ ei b = false) {entry : ε}
    (hvalid : ei.entryIsValid entry = true) (hnext : ei.entryGetNextIndex entry = 0)
    (hprev : ei.entryGetPrevIndex entry b table.metaPrev conf.tableEntries = 0) :
    TableInvariant ei conf
      { table with
        records := Function.update table.records b entry
        curTblCnt := table.curTblCnt + 1 } rank root := by
  have hocc : ∀ i, ei.entryIsValid (Function.update table.records b entry i) =
      if i = b then true else table.occ ei i := by
    intro i
    by_cases hi : i = b <;> simp [IpaTable.occ, hi, hvalid]
  refine ⟨h.linked.insertHead hb hbn (Nat.lt_add_right _ hbn) hfree hocc ?_ ?_,
    h.free_update fun hnot => absurd (hvalid.symm.trans hnot) (by decide), ?_, ?_⟩
  · intro i _
    by_cases hi : i = b <;> simp [IpaTable.next, hi, hnext]
  · intro i _
    by_cases hi : i = b <;> simp [IpaTable.prev, hi, hprev]
  · refine Eq.trans ?_
      (congrArg UInt16.ofNat (occupied_insert (Nat.zero_le b) hbn hfree hocc)).symm
    rw [UInt16.ofNat_add]
    exact congrArg (· + 1) h.curTblCnt
  · refine h.curExpnTblCnt.trans (congrArg UInt16.ofNat (occupied_congr fun i hi _ => ?_))
    exact ((hocc i).trans (if_neg (by omega))).symm

theorem insertTail (h : TableInvariant ei conf table rank root) (hn : 0 < conf.tableEntries)
    {p : Nat} (hp : table.occ ei p = true) (hlast : table.next ei p = 0)
    (hx : conf.tableEntries ≤ x) (hxN : x < conf.totTblEnts) (hfree : table.occ ei x = false)
    {entry last : ε} (hrecords : table'.records =
      Function.update (Function.update table.records x entry) p last)
    (hvalid : ei.entryIsValid entry = true) (hnext : ei.entryGetNextIndex entry = 0)
    (hvalid' : ei.entryIsValid last = true) (hnext' : ei.entryGetNextIndex last = x)
    (hprev : ∀ i, table'.occ ei i = true →
      table'.prev ei conf i = if i = x then p else table.prev ei conf i)
    (hcnt : table'.curTblCnt = table.curTblCnt)
    (hexpn : table'.curExpnTblCnt = table.curExpnTblCnt + 1) :
    TableInvariant ei conf table' (Function.update rank x (rank p + 1))
      (Function.update root x (root p)) := by
  have hpx : x ≠ p := fun heq => by simp [heq, hp] at hfree
  have hocc : ∀ i, table'.occ ei i = if i = x then true else table.occ ei i := by
    intro i
    rw [IpaTable.occ, hrecords]
    by_cases hi : i = x
    · simp [hi, hpx, hvalid]
    · by_cases hip : i = p
      · simp [hip, hpx.symm, hvalid', hp]
      · simp [IpaTable.occ, hi, hip]
  refine ⟨h.linked.insertTail hp hlast hn hx hxN hfree hocc ?_ hprev, ?_, ?_, ?_⟩
  · intro i _
    rw [IpaTable.next, hrecords]
    by_cases hi : i = x
    · simp [hi, hpx, hnext]
    · by_cases hip : i = p
      · simp [hip, hpx.symm, hnext']
      · simp [IpaTable.next, hi, hip]
  · intro i hi
    rw [hocc] at hi
    split at hi
    · cases hi
    · have hip : i ≠ p := by
        rintro rfl
        rw [hp] at hi
        cases hi
      rw [hrecords, Function.update_of_ne hip, Function.update_of_ne ‹_›]
      exact h.free i hi
  · rw [hcnt, h.curTblCnt]
    congr 1
    refine (occupied_congr fun i _ hi => ?_).symm
    rw [hocc, if_neg (by omega)]
  · rw [hexpn, h.curExpnTblCnt, occupied_insert hx hxN hfree hocc, UInt16.ofNat_add]
    rfl

theorem removeHead (h : TableInvariant ei conf table rank root) (hb : table.occ ei b = true)
    (hbn : b < conf.tableEntries) (hlast : table.next ei b = 0)
    (hdefault : ei.entryIsValid default = false) :
    TableInvariant ei conf
      { table with
        records := Function.update table.records b default
        curTblCnt := table.curTblCnt - 1 } rank root := by
  have hocc : ∀ i, ei.entryIsValid (Function.update table.records b default i) =
      if i = b then false else table.occ ei i := by
    intro i
    by_cases hi : i = b <;> simp [IpaTable.occ, hi, hdefault]
  have hsame : ∀ i, ei.entryIsValid (Function.update table.records b default i) = true →
      Function.update table.records b default i = table.records i := by
    intro i hi
    refine Function.update_of_ne (fun hib => ?_) _ _
    rw [hocc, if_pos hib] at hi
    cases hi
  have hback : ∀ i, table.occ ei i =
      if i = b then true else ei.entryIsValid (Function.update table.records b default i) := by
    intro i
    by_cases hi : i = b
    · rw [if_pos hi, hi, hb]
    · rw [if_neg hi, hocc, if_neg hi]
  refine ⟨h.linked.removeHead hbn hlast hocc ?_ ?_, h.free_update fun _ => rfl, ?_, ?_⟩
  · exact fun i hi => congrArg ei.entryGetNextIndex (hsame i hi)
  · exact fun i hi =>
      congrArg (ei.entryGetPrevIndex · i table.metaPrev conf.tableEntries) (hsame i hi)
  · have hcnt := h.curTblCnt
    rw [occupied_insert (Nat.zero_le b) hbn ((hocc b).trans (if_pos rfl)) hback] at hcnt
    exact (congrArg (· - 1) hcnt).trans (ofNat_succ_sub_one _)
  · refine h.curExpnTblCnt.trans (congrArg UInt16.ofNat (occupied_congr fun i hi _ => ?_))
    exact ((hocc i).trans (if_neg (by omega))).symm

theorem unlink (h : TableInvariant ei conf table rank root) (hx : conf.tableEntries ≤ x)
    (hxo : table.occ ei x = true)
    (hocc : ∀ i, table'.occ ei i = if i = x then false else table.occ ei i)
    (hnext : ∀ i, table'.occ ei i = true → table'.next ei i =
      if i = table.prev ei conf x then table.next ei x else table.next ei i)
    (hprev : ∀ i, table'.occ ei i = true → table'.prev ei conf i =
      if i = table.next ei x then table.prev ei conf x else table.prev ei conf i)
    (hfree' : ∀ i, table'.occ ei i = false → table'.records i = default)
    (hcnt : table'.curTblCnt = table.curTblCnt)
    (hexpn : table'.curExpnTblCnt = table.curExpnTblCnt - 1) :
    TableInvariant ei conf table' rank root where
  linked := h.linked.unlink hx hxo hocc hnext hprev
  free := hfree'
  curTblCnt := by
    rw [hcnt, h.curTblCnt]
    congr 1
    refine (occupied_congr fun i _ hi => ?_).symm
    rw [hocc, if_neg (by omega)]
  curExpnTblCnt := by
    have hback : ∀ i, table.occ ei i = if i = x then true else table'.occ ei i := by
      intro i
      rw [hocc]
      split
      · rw [‹i = x›, hxo]
      · rfl
    rw [hexpn, h.curExpnTblCnt,
      occupied_insert hx (h.lt_tot hxo) (by rw [hocc, if_pos rfl]) hback, ofNat_succ_sub_one]

/-! ## Iterators -/

theorem zero_notOcc (h : TableInvariant ei conf table rank root) (hi : table.occ ei i = true) :
    i ≠ 0 := by
  rintro rfl
  exact absurd hi (by simp [h.linked.zero_free])

theorem getEntryByIndex (h : TableInvariant ei conf table rank root) (hi : table.occ ei i = true) :
    ipaTableGetEntryByIndex conf table i = some (table.records i) := by
  rw [ipaTableGetEntryByIndex, if_neg]
  rintro (rfl | hge)
  · exact h.zero_notOcc hi rfl
  · have := h.lt_tot hi
    omega

theorem prev_occ (h : TableInvariant ei conf table rank root) (hi : table.occ ei i = true)
    (hne : table.prev ei conf i ≠ 0) :
    conf.tableEntries ≤ i ∧ table.occ ei (table.prev ei conf i) = true ∧
      table.next ei (table.prev ei conf i) = i := by
  by_cases hin : i < conf.tableEntries
  · exact absurd (h.linked.prev_head i hin hi) hne
  · exact ⟨not_lt.mp hin, h.linked.prev_occ i (not_lt.mp hin) hi⟩

theorem prev_eq_zero_iff (h : TableInvariant ei conf table rank root) (hi : table.occ ei i = true) :
    table.prev ei conf i = 0 ↔ i < conf.tableEntries := by
  refine ⟨fun hzero => ?_, fun hin => h.linked.prev_head i hin hi⟩
  by_contra hin
  exact h.zero_notOcc (h.linked.prev_occ i (not_lt.mp hin) hi).1 hzero

theorem iteratorInit (h : TableInvariant ei conf table rank root) (hi : table.occ ei i = true) :
    ipaTableIteratorInit ei conf table i =
      .ok ⟨table.prev ei conf i, i, table.next ei i⟩ := by
  have hvalid : ei.entryIsValid (table.records i) = true := hi
  rw [ipaTableIteratorInit]
  simp only [hvalid, Bool.not_true, Bool.false_eq_true, if_false]
  rw [if_neg, if_neg]
  · rfl
  · rintro ⟨hne, hnone⟩
    have hocc := (h.linked.next_occ i hi hne).2.1
    have hsome := h.getEntryByIndex hocc
    rw [IpaTable.next] at hsome
    rw [hsome] at hnone
    cases hnone
  · rintro ⟨hne, hnone⟩
    have hocc := (h.prev_occ hi hne).2.1
    have hsome := h.getEntryByIndex hocc
    rw [IpaTable.prev] at hsome
    rw [hsome] at hnone
    cases hnone

omit [Inhabited ε] in
theorem iteratorInit_error {table : IpaTable ε} {ret : Int}
    (h : ipaTableIteratorInit ei conf table i = .error ret) : ret ≠ 0 := by
  simp only [ipaTableIteratorInit] at h
  split_ifs at h <;> (cases h; decide)

theorem iteratorNext (h : TableInvariant ei conf table rank root) (hi : table.occ ei i = true)
    (hne : table.next ei i ≠ 0) :
    ipaTableIteratorNext ei conf ⟨table.prev ei conf i, i, table.next ei i⟩ table =
      .ok ⟨i, table.next ei i, table.next ei (table.next ei i)⟩ := by
  have hocc := (h.linked.next_occ i hi hne).2.1
  rw [ipaTableIteratorNext]
  simp only
  rw [if_neg]
  · rfl
  · rintro ⟨hne', hnone⟩
    have hocc' := (h.linked.next_occ _ hocc hne').2.1
    have hsome := h.getEntryByIndex hocc'
    rw [IpaTable.next] at hsome
    rw [hsome] at hnone
    cases hnone

end TableInvariant

/-! ## Adding an entry -/

variable (conf) in
/-- The write that `ipa_table_add_dma_cmd` lists for a slot of the table. -/
def dmaOne (helpType : DmaHelpType) (slot data : Nat) : IpaIocNatDmaOne where
  tableIndex := (conf.dmaHelp helpType).tableIndx
  baseAddr := if slot ≥ conf.tableEntries then (conf.dmaHelp helpType).expnTableType
    else (conf.dmaHelp helpType).tableType
  offset := (conf.dmaHelp helpType).offset +
    (slot - if slot ≥ conf.tableEntries then conf.tableEntries else 0) * conf.entrySize
  data := data

omit [Inhabited ε] in
theorem ipaTableAddDmaCmd_eq {slot : Nat} (hslot : slot < conf.totTblEnts)
    (helpType : DmaHelpType) (data : Nat) (cmd : List IpaIocNatDmaOne) :
    ipaTableAddDmaCmd conf helpType slot data cmd = cmd ++ [dmaOne conf helpType slot data] := by
  rw [ipaTableAddDmaCmd, if_neg (not_le.mpr hslot)]
  simp only [ipaTableDmaCmdGenerate, dmaOne, decide_eq_true_eq]

variable (ei conf) in
/-- The entry of a new tail slot, its enable data and the `meta` array. -/
def tailResult (table : IpaTable ε) (userData : υ) (slot prevIndex : Nat) :
    (ε × (Nat → Nat)) × Nat :=
  let (entry, enableData) := tailEntry ei conf (table.records slot) userData
  (ei.entrySetPrevIndex entry slot prevIndex table.metaPrev conf.tableEntries, enableData)

theorem TableInvariant.addEntry (h : TableInvariant ei conf table rank root)
    (hdims : DimsOk conf.tableEntries conf.expnTableEntries) {b : Nat}
    (hb : b < conf.tableEntries) (userData : υ) (cmd : List IpaIocNatDmaOne) :
    (table.occ ei b = false ∧ ipaTableAddEntry ei conf table userData b cmd =
      .ok ({ table with
              records := Function.update table.records b
                (ei.entryHeadInsert (table.records b) userData).1
              curTblCnt := table.curTblCnt + 1 }, b,
            cmd ++ [dmaOne conf .updateHead b (ei.entryHeadInsert (table.records b) userData).2])) ∨
    (table.occ ei b = true ∧ ∃ p x, table.occ ei p = true ∧ table.next ei p = 0 ∧ root p = b ∧
      conf.tableEntries ≤ x ∧ x < conf.totTblEnts ∧ table.occ ei x = false ∧
      ipaTableAddEntry ei conf table userData b cmd =
        .ok ({ table with
                records := Function.update table.records x
                  (tailResult ei conf table userData x p).1.1
                metaPrev := (tailResult ei conf table userData x p).1.2
                curExpnTblCnt := table.curExpnTblCnt + 1 }, x,
              cmd ++ (if conf.hasMeta then []
                else [dmaOne conf .updateHead x (tailResult ei conf table userData x p).2]) ++
              [dmaOne conf .updateEntry p x])) ∨
    (table.occ ei b = true ∧
      (∀ x, conf.tableEntries ≤ x → x < conf.totTblEnts → table.occ ei x = true) ∧
      ipaTableAddEntry ei conf table userData b cmd = .error (-1)) := by
  have hbN : b < conf.totTblEnts := Nat.lt_add_right _ hb
  cases hocc : table.occ ei b with
  | false =>
    refine .inl ⟨rfl, ?_⟩
    have hvalid : ei.entryIsValid (table.records b) = false := hocc
    rw [ipaTableAddEntry, hvalid]
    simp only [Bool.not_false, if_true, Ipanat.insertHead, ipaTableAddDmaCmd_eq hbN]
  | true =>
    have hvalid : ei.entryIsValid (table.records b) = true := hocc
    obtain ⟨p, hend, hp, hlast, hroot⟩ := h.iteratorEnd hocc
    rw [h.linked.root_head b hb] at hroot
    have hpN := h.lt_tot hp
    rw [ipaTableAddEntry, hvalid]
    simp only [Bool.not_true, Bool.false_eq_true, if_false]
    rcases findExpnTblFreeEntry_cases hdims table with ⟨x, hfind, hx, hxN, hfree⟩ | ⟨hfind, hall⟩
    · refine .inr (.inl ⟨trivial, p, x, hp, hlast, hroot, hx, hxN, hfree, ?_⟩)
      rw [Ipanat.insertTail, hend, hfind]
      cases hmeta : conf.hasMeta <;>
        simp [pure, Except.pure, bind, Except.bind, tailResult, ipaTableAddDmaCmd_eq hxN,
          ipaTableAddDmaCmd_eq hpN]
    · refine .inr (.inr ⟨trivial, hall, ?_⟩)
      rw [Ipanat.insertTail, hend, hfind]
      rfl

end

end QcomModules.Ipanat
