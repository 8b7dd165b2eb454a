import QcomModules.Ipanat.Handles

/-! Copying a table to the other memory: when its rules fit there, every handle names the
same rule afterwards. -/

namespace QcomModules.Ipanat

open Library

/-! ## What a copy needs -/

/-- The live rules of the `todo` slots from `i` on, as `migrate_rule` reads them. -/
def IpaNatIp4TableCache.liveRules (natTable : IpaNatIp4TableCache) :
    Nat → Nat → List IpaNatIpv4Rule
  | 0, _ => []
  | todo + 1, i =>
    if (natTable.table.records i).live then
      (natTable.table.records i).v4Rule :: natTable.liveRules todo (i + 1)
    else natTable.liveRules todo (i + 1)

def IpaNatIp4TableCache.allLiveRules (natTable : IpaNatIp4TableCache) : List IpaNatIpv4Rule :=
  natTable.liveRules natTable.conf.totTblEnts 0

/-- The table and `Hash_token` once the rules are added in turn, if all of them fit. -/
def fillTable (env : RuleEnv) : List IpaNatIpv4Rule → IpaNatIp4TableCache → Nat →
    Option (IpaNatIp4TableCache × Nat)
  | [], natTable, hashToken => some (natTable, hashToken)
  | rule :: rules, natTable, hashToken =>
    let result := addRuleLocked env 0 natTable hashToken rule
    if result.ret = 0 then fillTable env rules result.natTable result.hashToken else none

/-! ## The part of the object that a copy changes -/

/-- What belongs to the destination memory, with the driver's counters. -/
structure DstState where
  natTable : IpaNatIp4TableCache
  hashToken : Nat
  requests : Nat
  cnt : UInt32
  maps : NatiMapPair

def IpaNatiObj.withDst (nati : IpaNatiObj) (dst : Ipa3NatMemIn) (d : DstState) : IpaNatiObj :=
  { nati with
    driver := { nati.driver.setNatTable dst d.natTable with
      hashToken := d.hashToken
      requests := d.requests }
    totRulesInTable := Function.update nati.totRulesInTable dst d.cnt
    mapPairs := Function.update nati.mapPairs dst d.maps }

section
variable {nati : IpaNatiObj} {dst : Ipa3NatMemIn}

theorem IpaNatiObj.withDst_withDst (d d' : DstState) :
    (nati.withDst dst d).withDst dst d' = nati.withDst dst d' := by
  have hdriver : ({ nati.driver.setNatTable dst d.natTable with
      hashToken := d.hashToken
      requests := d.requests } : NatDriver).setNatTable dst d'.natTable =
      { nati.driver.setNatTable dst d'.natTable with
        hashToken := d.hashToken
        requests := d.requests } := by
    simp [NatDriver.setNatTable, NatDriver.setCache]
  simp only [withDst, hdriver, Function.update_idem]

@[simp]
theorem IpaNatiObj.natTable_withDst (d : DstState) :
    (nati.withDst dst d).driver.natTable dst = d.natTable :=
  nati.driver.natTable_setNatTable dst d.natTable

variable {nmi : Ipa3NatMemIn}

theorem IpaNatiObj.natTable_withDst_of_ne (d : DstState) (h : nmi ≠ dst) :
    (nati.withDst dst d).driver.natTable nmi = nati.driver.natTable nmi :=
  nati.driver.natTable_setNatTable_of_ne dst d.natTable h

@[simp]
theorem IpaNatiObj.ruleEnv_withDst (d : DstState) (nmi : Ipa3NatMemIn) :
    (nati.withDst dst d).driver.ruleEnv nmi = nati.driver.ruleEnv nmi :=
  nati.driver.ruleEnv_setNatTable dst d.natTable nmi

@[simp]
theorem IpaNatiObj.mapPairs_withDst (d : DstState) :
    (nati.withDst dst d).mapPairs dst = d.maps := by
  simp [withDst]

theorem IpaNatiObj.mapPairs_withDst_of_ne (d : DstState) (h : nmi ≠ dst) :
    (nati.withDst dst d).mapPairs nmi = nati.mapPairs nmi := by
  simp [withDst, h]

@[simp]
theorem IpaNatiObj.cnt_withDst (d : DstState) :
    (nati.withDst dst d).totRulesInTable dst = d.cnt := by
  simp [withDst]

theorem IpaNatiObj.withDst_added (d : DstState) (natTable : IpaNatIp4TableCache)
    (hashToken requests : Nat) (cnt : UInt32) (maps : NatiMapPair) :
    ({ nati.withDst dst d with
        driver := { (nati.withDst dst d).driver.setNatTable dst natTable with
          hashToken := hashToken
          requests := requests } }.setRules dst cnt).setMaps dst maps =
      nati.withDst dst ⟨natTable, hashToken, requests, cnt, maps⟩ :=
  nati.withDst_withDst d ⟨natTable, hashToken, requests, cnt, maps⟩

end

theorem Ipa3NatMemIn.ne_other (nmi : Ipa3NatMemIn) : nmi ≠ nmi.other := by
  cases nmi <;> decide

/-! ## Moving one rule -/

theorem ipaNatMapAdd_none {map : NatMap} {key : Nat} (h : map key = none) (val : Nat) :
    ipaNatMapAdd map key val = (0, Function.update map key (some val)) := by
  simp [ipaNatMapAdd, h]

theorem migrateRule_added {kernel : Kernel} {nati : IpaNatiObj} {src : Ipa3NatMemIn}
    {dstTblHdl tblRuleHdl a b i : Nat} {rule : IpaNatRule} {driver : NatDriver}
    (hproto : rule.protocol ≠ natInvalidProtocol)
    (hmap : (nati.mapPairs src).new2origMap tblRuleHdl = some a)
    (hadd : ipaNATIAddIpv4Rule kernel nati.driver dstTblHdl rule.v4Rule = (0, b, driver))
    (horig : (nati.mapPairs src.other).orig2newMap a = none)
    (hnew : (nati.mapPairs src.other).new2origMap b = none) :
    migrateRule kernel dstTblHdl src nati tblRuleHdl rule i =
      (0, ({ nati with driver := driver }.setRules src.other
          (nati.totRulesInTable src.other + 1)).setMaps src.other
        ⟨Function.update (nati.mapPairs src.other).orig2newMap a (some b),
          Function.update (nati.mapPairs src.other).new2origMap b (some a)⟩) := by
  simp only [migrateRule, if_neg hproto, hmap, hadd, ne_eq, not_true, if_false,
    IpaNatiObj.setRules, ipaNatMapAdd_none horig, ipaNatMapAdd_none hnew]

/-- What clients hold of the rules below slot `i`. -/
def heldBelow (natTable : IpaNatIp4TableCache) (maps : NatiMapPair) (i a : Nat)
    (rule : IpaNatRule) : Prop :=
  ∃ j, j < i ∧ maps.orig2newMap a = some (makeEntryHdl natTable.conf j) ∧
    (natTable.table.records j).live = true ∧ (natTable.table.records j).client = rule

/-- The rules below slot `i` of the source have been copied. -/
structure CopyOk (nati : IpaNatiObj) (src : Ipa3NatMemIn) (i : Nat) (d : DstState) : Prop where
  same : d.natTable = { nati.driver.natTable src.other with
    table := d.natTable.table
    indexTable := d.natTable.indexTable }
  invariant : ∃ links, NatInvariant (nati.driver.ruleEnv src.other) d.natTable links
  handles : HandlesOk nati.driver.pdns d.natTable d.maps
    (heldBelow (nati.driver.natTable src) (nati.mapPairs src) i)

section
variable {kernel : Kernel} {nati : IpaNatiObj} {src : Ipa3NatMemIn} {links linksDst : Links}
  {held : Nat → IpaNatRule → Prop} {i : Nat} {d : DstState}

theorem CopyOk.ready (h : CopyOk nati src i d)
    (hdst : TableReady nati.driver src.other linksDst) :
    ∃ links, TableReady (nati.withDst src.other d).driver src.other links := by
  obtain ⟨links, hinv⟩ := h.invariant
  exact ⟨links, hdst.setNatTable h.same hinv d.hashToken d.requests⟩

theorem CopyOk.skip (h : CopyOk nati src i d)
    (hnot : ((nati.driver.natTable src).table.records i).live = false) :
    CopyOk nati src (i + 1) d where
  same := h.same
  invariant := h.invariant
  handles := by
    refine h.handles.congr_held ?_
    intro a rule
    constructor
    · rintro ⟨j, hj, hmap, hlive, hrule⟩
      have hji : j ≠ i := by
        rintro rfl
        rw [hnot] at hlive
        cases hlive
      exact ⟨j, by omega, hmap, hlive, hrule⟩
    · rintro ⟨j, hj, hrest⟩
      exact ⟨j, by omega, hrest⟩

theorem CopyOk.orig_free (h : CopyOk nati src i d)
    (hsrc : NatInvariant (nati.driver.ruleEnv src) (nati.driver.natTable src) links)
    (hlt : i < (nati.driver.natTable src).conf.totTblEnts) {a : Nat}
    (ha : (nati.mapPairs src).orig2newMap a =
      some (makeEntryHdl (nati.driver.natTable src).conf i)) :
    d.maps.orig2newMap a = none := by
  cases hmap : d.maps.orig2newMap a with
  | none => rfl
  | some b =>
    have hback := (h.handles.inverse a b).mp hmap
    obtain ⟨x, hlive, rfl⟩ := (h.handles.live b).mp (by rw [hback]; rfl)
    obtain ⟨j, hj, hmapj, hlivej, -⟩ := (h.handles.held a _).mpr ⟨x, hmap, hlive, rfl⟩
    rw [ha] at hmapj
    have hij := makeEntryHdl_inj hsrc.dims hlt (hsrc.lt_of_live hlivej) (Option.some.inj hmapj)
    omega

theorem RuleAdded.same_of_same {env : RuleEnv} {natTable natTable' base : IpaNatIp4TableCache}
    {clntRule : IpaNatIpv4Rule} {x : Nat}
    (h : RuleAdded env natTable clntRule x natTable' links)
    (hsame : natTable = { base with
      table := natTable.table
      indexTable := natTable.indexTable }) :
    natTable' = { base with
      table := natTable'.table
      indexTable := natTable'.indexTable } := by
  rw [h.same, hsame]

theorem CopyOk.migrate (h : CopyOk nati src i d) (hok : ∀ n, kernel.request n = 0)
    (hsrc : NatInvariant (nati.driver.ruleEnv src) (nati.driver.natTable src) links)
    (hheld : HandlesOk nati.driver.pdns (nati.driver.natTable src) (nati.mapPairs src) held)
    (hdst : TableReady nati.driver src.other linksDst)
    (hlive : ((nati.driver.natTable src).table.records i).live = true)
    (hret : (addRuleLocked (nati.driver.ruleEnv src.other) 0 d.natTable d.hashToken
      ((nati.driver.natTable src).table.records i).v4Rule).ret = 0) :
    ∃ d', migrateRule kernel (makeTblHdl 1 src.other) src (nati.withDst src.other d)
        (makeEntryHdl (nati.driver.natTable src).conf i)
        ((nati.driver.natTable src).table.records i) i = (0, nati.withDst src.other d') ∧
      d'.natTable = (addRuleLocked (nati.driver.ruleEnv src.other) 0 d.natTable d.hashToken
        ((nati.driver.natTable src).table.records i).v4Rule).natTable ∧
      d'.hashToken = (addRuleLocked (nati.driver.ruleEnv src.other) 0 d.natTable d.hashToken
        ((nati.driver.natTable src).table.records i).v4Rule).hashToken ∧
      CopyOk nati src (i + 1) d' := by
  obtain ⟨linksReady, hready⟩ := h.ready hdst
  obtain ⟨linksInv, hinv⟩ := h.invariant
  have hcanonical := hheld.canonical i hlive
  have haccepted := hcanonical.accepted
  obtain ⟨a, ha⟩ := Option.isSome_iff_exists.mp ((hheld.live _).mpr ⟨i, hlive, rfl⟩)
  have ha' := (hheld.inverse a _).mpr ha
  have hfree := h.orig_free hsrc (hsrc.lt_of_live hlive) ha'
  rcases hinv.addRule haccepted.protocol haccepted.pdnIndex d.hashToken with
    ⟨x, links', hashToken, natTable', hadd, hadded⟩ | ⟨hashToken, hadd⟩
  · rw [hadd]
    have hnew := h.handles.new_free hinv hadded.lt hadded.free
    refine ⟨⟨natTable', hashToken, d.requests + 1, d.cnt + 1,
      ⟨Function.update d.maps.orig2newMap a (some (makeEntryHdl d.natTable.conf x)),
        Function.update d.maps.new2origMap (makeEntryHdl d.natTable.conf x) (some a)⟩⟩,
      ?_, rfl, rfl, ?_⟩
    · have haccept : (nati.withDst src.other d).driver.acceptsRule
          ((nati.driver.natTable src).table.records i).v4Rule = true :=
        (acceptsRule_iff _ _).mpr haccepted
      have hlocked : addRuleLocked ((nati.withDst src.other d).driver.ruleEnv src.other) 0
          ((nati.withDst src.other d).driver.natTable src.other)
          (nati.withDst src.other d).driver.hashToken
          ((nati.driver.natTable src).table.records i).v4Rule =
          ⟨0, makeEntryHdl d.natTable.conf x, natTable', hashToken, true⟩ := by
        rw [IpaNatiObj.natTable_withDst, IpaNatiObj.ruleEnv_withDst]
        exact hadd
      have hproto : ((nati.driver.natTable src).table.records i).protocol ≠ natInvalidProtocol :=
        haccepted.protocol
      rw [migrateRule_added hproto (by rw [nati.mapPairs_withDst_of_ne d src.ne_other]; exact ha)
        (hready.addRule_eq (hok _) haccept hlocked)
        (by rw [IpaNatiObj.mapPairs_withDst]; exact hfree)
        (by rw [IpaNatiObj.mapPairs_withDst]; exact hnew)]
      simp only [IpaNatiObj.mapPairs_withDst, IpaNatiObj.cnt_withDst, if_true]
      rw [IpaNatiObj.withDst_added]
      rfl
    · refine ⟨hadded.same_of_same h.same, ⟨links', hadded.invariant⟩, ?_⟩
      refine (h.handles.insert rfl hinv haccepted hadded hfree).congr_held ?_
      intro a' rule
      rw [hcanonical.clientRule_eq]
      constructor
      · rintro ⟨j, hj, hmap, hlivej, hrule⟩
        by_cases hji : j = i
        · subst hji
          have hback := (hheld.inverse a' _).mp hmap
          rw [ha] at hback
          exact .inl ⟨(Option.some.inj hback).symm, hrule.symm⟩
        · exact .inr ⟨j, by omega, hmap, hlivej, hrule⟩
      · rintro (⟨rfl, rfl⟩ | ⟨j, hj, hrest⟩)
        · exact ⟨i, by omega, ha', hlive, rfl⟩
        · exact ⟨j, by omega, hrest⟩
  · rw [hadd] at hret
    cases hret

/-! ## The whole copy -/

variable {hashToken : Nat}

theorem CopyOk.walk (h : CopyOk nati src i d) (hok : ∀ n, kernel.request n = 0)
    (hsrc : NatInvariant (nati.driver.ruleEnv src) (nati.driver.natTable src) links)
    (hheld : HandlesOk nati.driver.pdns (nati.driver.natTable src) (nati.mapPairs src) held)
    (hdst : TableReady nati.driver src.other linksDst) {todo : Nat} {natTable : IpaNatIp4TableCache}
    (hfill : fillTable (nati.driver.ruleEnv src.other)
      ((nati.driver.natTable src).liveRules todo i) d.natTable d.hashToken =
      some (natTable, hashToken)) :
    ∃ d', ipaTableWalkLoop (entryInterface nati.driver.pdns) (nati.driver.natTable src).conf
        (fun (s : IpaNatiObj) j => (s.driver.natTable src).table.records j) .whenSlotFilled
        (migrateRule kernel (makeTblHdl 1 src.other) src) todo i (nati.withDst src.other d) =
        (0, nati.withDst src.other d') ∧
      d'.natTable = natTable ∧ d'.hashToken = hashToken ∧ CopyOk nati src (i + todo) d' := by
  induction todo generalizing i d with
  | zero =>
    rw [IpaNatIp4TableCache.liveRules, fillTable, Option.some.injEq, Prod.mk.injEq] at hfill
    exact ⟨d, rfl, hfill.1, hfill.2, h⟩
  | succ todo ih =>
    rw [ipaTableWalkLoop]
    simp only [nati.natTable_withDst_of_ne d src.ne_other]
    rw [IpaNatIp4TableCache.liveRules] at hfill
    have hnext : i + (todo + 1) = i + 1 + todo := by omega
    rw [hnext]
    cases hlive : ((nati.driver.natTable src).table.records i).live with
    | true =>
      rw [if_pos hlive, fillTable] at hfill
      split at hfill
      · next hret =>
          obtain ⟨d', hmigrate, htable, htoken, h'⟩ := h.migrate hok hsrc hheld hdst hlive hret
          rw [← htable, ← htoken] at hfill
          have henable : (entryInterface nati.driver.pdns).entryIsValid
              ((nati.driver.natTable src).table.records i) = true :=
            IpaNatRule.enable_of_live hlive
          simp only [henable, decide_true, if_true, hmigrate, ne_eq, not_true, if_false]
          exact ih h' hfill
      · cases hfill
    | false =>
      rw [if_neg (by simp [hlive])] at hfill
      obtain ⟨d', hloop, hrest⟩ := ih (h.skip hlive) hfill
      refine ⟨d', ?_, hrest⟩
      cases henable : ((nati.driver.natTable src).table.records i).enable with
      | false => simpa [entryInterface, henable] using hloop
      | true =>
        have hproto : ((nati.driver.natTable src).table.records i).protocol =
            natInvalidProtocol := by
          simpa [IpaNatRule.live, henable] using hlive
        simpa [entryInterface, henable, migrateRule, hproto] using hloop

theorem copy_handles (hok : ∀ n, kernel.request n = 0) (hsrc : TableReady nati.driver src links)
    (hheld : HandlesOk nati.driver.pdns (nati.driver.natTable src) (nati.mapPairs src) held)
    (hdst : TableReady nati.driver src.other linksDst)
    (hmaps : nati.mapPairs src.other = clearedMaps) {natTable : IpaNatIp4TableCache}
    (hfill : fillTable (nati.driver.ruleEnv src.other) (nati.driver.natTable src).allLiveRules
      (nati.driver.natTable src.other).cleared nati.driver.hashToken =
      some (natTable, hashToken)) :
    ∃ d', ipaNatiCopyIpv4Tbl kernel (makeTblHdl 1 src) (makeTblHdl 1 src.other) nati =
        (0, nati.withDst src.other d') ∧
      d'.natTable = natTable ∧ d'.hashToken = hashToken ∧
      natTable = { nati.driver.natTable src.other with
        table := natTable.table
        indexTable := natTable.indexTable } ∧
      (∃ links, NatInvariant (nati.driver.ruleEnv src.other) natTable links) ∧
      HandlesOk nati.driver.pdns natTable d'.maps held := by
  have hstart : CopyOk nati src 0 ⟨(nati.driver.natTable src.other).cleared,
      nati.driver.hashToken, nati.driver.requests, nati.totRulesInTable src.other,
      clearedMaps⟩ := by
    refine ⟨rfl, ⟨emptyLinks, natInvariant_empty _ hdst.invariant.dims rfl rfl⟩, ?_⟩
    refine (handlesOk_empty _ (fun _ => rfl)).congr_held ?_
    rintro a rule
    simp [heldBelow]
  obtain ⟨d', hloop, htable, htoken, hend⟩ :=
    hstart.walk hok hsrc.invariant hheld hdst hfill
  refine ⟨d', ?_, htable, htoken, ?_, ?_, ?_⟩
  · have hcleared : { nati with
        driver := nati.driver.setNatTable src.other (nati.driver.natTable src.other).cleared } =
        nati.withDst src.other ⟨(nati.driver.natTable src.other).cleared, nati.driver.hashToken,
          nati.driver.requests, nati.totRulesInTable src.other, clearedMaps⟩ := by
      simp only [IpaNatiObj.withDst, ← hmaps, Function.update_eq_self]
      rfl
    have hsrcTable := nati.driver.natTable_setNatTable_of_ne src.other
      (nati.driver.natTable src.other).cleared src.ne_other
    have hpos : ¬(0 ≥ (nati.driver.natTable src).conf.totTblEnts) := by
      have := hsrc.invariant.dims.expn_pos
      simp only [IpaTableConf.totTblEnts, IpaNatIp4TableCache.conf]
      omega
    simp only [ipaNatiCopyIpv4Tbl, ipaNATIClearIpv4Tbl, tblHdlNmi_makeTblHdl, hdst.tableCnt,
      one_ne_zero, if_false, ne_eq, not_true, hsrcTable, hsrc.memory, ipaNATIWalkIpv4Tbl,
      validTblHdl_makeTblHdl, Bool.not_true, Bool.false_eq_true,
      NatDriver.tableCnt_setNatTable, hsrc.tableCnt, ipaTableWalk, if_neg hpos, Nat.sub_zero]
    rw [hcleared]
    exact hloop
  · rw [← htable]
    exact hend.same
  · rw [← htable]
    exact hend.invariant
  · rw [← htable]
    refine hend.handles.congr_held ?_
    intro a rule
    rw [hheld.held]
    constructor
    · rintro ⟨j, hmap, hlive, hrule⟩
      refine ⟨j, ?_, hmap, hlive, hrule⟩
      rw [Nat.zero_add]
      exact hsrc.invariant.lt_of_live hlive
    · rintro ⟨j, -, hrest⟩
      exact ⟨j, hrest⟩

end

end QcomModules.Ipanat
