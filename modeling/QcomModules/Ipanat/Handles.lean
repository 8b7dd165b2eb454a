import QcomModules.Ipanat.DriverRules
import QcomModules.Ipanat.StateMachine
import QcomModules.Library.PartialInverse

/-! Rule handles in hybrid mode. The maps of the active memory take the handle a client
was given to the slot its rule is in, and `migrate_rule` keeps them so when it moves a
rule to the other memory. -/

namespace QcomModules.Ipanat

open Library Function

/-! ## Client rules -/

def clientRule (pdns : Nat → UInt32) (clntRule : IpaNatIpv4Rule) : IpaNatRule :=
  (newRule pdns clntRule 0 0).client

/-- The checks of `ipa_NATI_add_ipv4_rule` on the rule itself. -/
structure Accepted (pdns : Nat → UInt32) (clntRule : IpaNatIpv4Rule) : Prop where
  protocol : clntRule.protocol ≠ natInvalidProtocol
  pdnIndex : clntRule.pdnIndex.toNat < ipaMaxPdnNum
  publicIp : pdns clntRule.pdnIndex.toNat ≠ 0

theorem acceptsRule_iff (driver : NatDriver) (clntRule : IpaNatIpv4Rule) :
    driver.acceptsRule clntRule = true ↔ Accepted driver.pdns clntRule := by
  simp only [NatDriver.acceptsRule, Bool.and_eq_true, decide_eq_true_eq]
  constructor
  · rintro ⟨⟨hproto, hpdn⟩, hip⟩
    exact ⟨hproto, hpdn, hip⟩
  · exact fun h => ⟨⟨h.protocol, h.pdnIndex⟩, h.publicIp⟩

/-- A record that some accepted client rule gave rise to. -/
def IpaNatRule.Canonical (pdns : Nat → UInt32) (rule : IpaNatRule) : Prop :=
  ∃ clntRule, Accepted pdns clntRule ∧ rule.client = clientRule pdns clntRule

section
variable {pdns : Nat → UInt32} {clntRule : IpaNatIpv4Rule} {rule : IpaNatRule}

theorem Accepted.ofNat_pdnIndex (h : Accepted pdns clntRule) :
    UInt8.ofNat (clntRule.pdnIndex.toNat % 2 ^ 4) = clntRule.pdnIndex := by
  have hlt : clntRule.pdnIndex.toNat < 2 ^ 4 := h.pdnIndex
  rw [Nat.mod_eq_of_lt hlt]
  exact UInt8.ofNat_toNat

theorem clientRule_v4Rule (h : Accepted pdns clntRule) :
    clientRule pdns (clientRule pdns clntRule).v4Rule = clientRule pdns clntRule := by
  have hstamp : (UInt32.ofNat (clntRule.timeStamp.toNat % 2 ^ 24)).toNat % 2 ^ 24 =
      clntRule.timeStamp.toNat % 2 ^ 24 := by
    rw [UInt32.toNat_ofNat']
    omega
  have huc : (UInt16.ofNat (clntRule.ucActivationIndex.toNat % 2 ^ 13)).toNat % 2 ^ 13 =
      clntRule.ucActivationIndex.toNat % 2 ^ 13 := by
    rw [UInt16.toNat_ofNat']
    omega
  simp only [clientRule, newRule, tableEntryCopyFromUser, IpaNatRule.client, IpaNatRule.content,
    IpaNatRule.v4Rule, h.ofNat_pdnIndex, hstamp, huc]

theorem IpaNatRule.Canonical.accepted (h : rule.Canonical pdns) : Accepted pdns rule.v4Rule := by
  obtain ⟨clntRule, haccepted, heq⟩ := h
  change Accepted pdns rule.client.v4Rule
  rw [heq]
  have hpdn : (clientRule pdns clntRule).v4Rule.pdnIndex = clntRule.pdnIndex :=
    haccepted.ofNat_pdnIndex
  refine ⟨haccepted.protocol, ?_, ?_⟩
  · rw [hpdn]
    exact haccepted.pdnIndex
  · rw [hpdn]
    exact haccepted.publicIp

theorem IpaNatRule.Canonical.clientRule_eq (h : rule.Canonical pdns) :
    clientRule pdns rule.v4Rule = rule.client := by
  obtain ⟨clntRule, haccepted, heq⟩ := h
  change clientRule pdns rule.client.v4Rule = rule.client
  rw [heq, clientRule_v4Rule haccepted]

end

/-! ## The maps of one memory -/

/-- The maps undo each other, their new handles are those of the live rules of the table,
and `held` relates the handles that clients hold to what they know of their rules. -/
structure HandlesOk (pdns : Nat → UInt32) (natTable : IpaNatIp4TableCache) (maps : NatiMapPair)
    (held : Nat → IpaNatRule → Prop) : Prop where
  inverse : MutuallyInverse maps.orig2newMap maps.new2origMap
  live : ∀ b, (maps.new2origMap b).isSome = true ↔
    ∃ x, (natTable.table.records x).live = true ∧ b = makeEntryHdl natTable.conf x
  canonical : ∀ x, (natTable.table.records x).live = true →
    (natTable.table.records x).Canonical pdns
  held : ∀ a rule, held a rule ↔ ∃ x, maps.orig2newMap a = some (makeEntryHdl natTable.conf x) ∧
    (natTable.table.records x).live = true ∧ (natTable.table.records x).client = rule

theorem makeEntryHdl_inj {conf : IpaTableConf}
    (hdims : DimsOk conf.tableEntries conf.expnTableEntries) {i j : Nat}
    (hi : i < conf.totTblEnts) (hj : j < conf.totTblEnts)
    (h : makeEntryHdl conf i = makeEntryHdl conf j) : i = j := by
  rw [← ruleHdlIndex_makeEntryHdl hdims hi, h, ruleHdlIndex_makeEntryHdl hdims hj]

section
variable {pdns : Nat → UInt32} {env : RuleEnv} {natTable natTable' : IpaNatIp4TableCache}
  {links links' : Links} {maps : NatiMapPair} {held : Nat → IpaNatRule → Prop} {x a : Nat}

theorem NatInvariant.lt_of_live (h : NatInvariant env natTable links)
    (hlive : (natTable.table.records x).live = true) : x < natTable.conf.totTblEnts :=
  h.table.lt_tot (IpaNatRule.enable_of_live hlive)

theorem RuleAdded.conf (h : RuleAdded env natTable clntRule x natTable' links') :
    natTable'.conf = natTable.conf := by
  rw [h.same]
  rfl

theorem RuleDeleted.conf (h : RuleDeleted env natTable x natTable' links) :
    natTable'.conf = natTable.conf := by
  rw [h.same]
  rfl

theorem HandlesOk.new_free (h : HandlesOk pdns natTable maps held)
    (hinv : NatInvariant env natTable links) (hx : x < natTable.conf.totTblEnts)
    (hfree : (natTable.table.records x).enable = false) :
    maps.new2origMap (makeEntryHdl natTable.conf x) = none := by
  rw [← Option.not_isSome_iff_eq_none, h.live]
  rintro ⟨y, hlive, heq⟩
  have hxy := makeEntryHdl_inj hinv.dims hx (hinv.lt_of_live hlive) heq
  rw [← hxy, IpaNatRule.live, hfree] at hlive
  cases hlive

theorem HandlesOk.insert (h : HandlesOk pdns natTable maps held) (hpdns : env.pdns = pdns)
    (hinv : NatInvariant env natTable links) {clntRule : IpaNatIpv4Rule}
    (haccepted : Accepted pdns clntRule)
    (hadded : RuleAdded env natTable clntRule x natTable' links')
    (ha : maps.orig2newMap a = none) :
    HandlesOk pdns natTable'
      ⟨Function.update maps.orig2newMap a (some (makeEntryHdl natTable.conf x)),
        Function.update maps.new2origMap (makeEntryHdl natTable.conf x) (some a)⟩
      (fun a' rule => (a' = a ∧ rule = clientRule pdns clntRule) ∨ held a' rule) := by
  subst hpdns
  obtain ⟨indxTblEntry, prevIndex, hnew⟩ := hadded.rule
  have hnewFree := h.new_free hinv hadded.lt hadded.free
  have hclient : (natTable'.table.records x).client = clientRule env.pdns clntRule := by
    rw [hnew]
    rfl
  have hlivex : (natTable'.table.records x).live = true := by
    rw [hnew]
    exact newRule_live env.pdns haccepted.protocol _ _
  have hlive : ∀ i, i ≠ x →
      (natTable'.table.records i).live = (natTable.table.records i).live :=
    fun i hi => IpaNatRule.live_of_content (hadded.others i hi)
  have hkept : ∀ i, i ≠ x →
      (natTable'.table.records i).client = (natTable.table.records i).client :=
    fun i hi => IpaNatRule.client_of_content (hadded.others i hi)
  -- a rule that was live before is not at the new slot
  have hne : ∀ i, (natTable.table.records i).live = true → i ≠ x := by
    rintro i hi rfl
    rw [IpaNatRule.live, hadded.free] at hi
    cases hi
  refine ⟨h.inverse.insert ha hnewFree, ?_, ?_, ?_⟩
  · intro b
    rw [hadded.conf]
    by_cases hb : b = makeEntryHdl natTable.conf x
    · simp only [hb, update_self, Option.isSome_some, true_iff]
      exact ⟨x, hlivex, rfl⟩
    · simp only [update_of_ne hb, h.live b]
      constructor
      · rintro ⟨y, hy, rfl⟩
        exact ⟨y, (hlive y (hne y hy)).trans hy, rfl⟩
      · rintro ⟨y, hy, rfl⟩
        have hyx : y ≠ x := fun heq => hb (by rw [heq])
        exact ⟨y, (hlive y hyx).symm.trans hy, rfl⟩
  · intro i hi
    by_cases hix : i = x
    · rw [hix]
      exact ⟨clntRule, haccepted, hclient⟩
    · obtain ⟨clntRule', haccepted', heq⟩ := h.canonical i ((hlive i hix).symm.trans hi)
      exact ⟨clntRule', haccepted', (hkept i hix).trans heq⟩
  · intro a' rule
    rw [hadded.conf]
    by_cases haa : a' = a
    · have hnot : ¬held a rule := by
        rw [h.held]
        rintro ⟨y, hy, -⟩
        rw [ha] at hy
        cases hy
      simp only [haa, update_self, Option.some.injEq, true_and, hnot, or_false]
      constructor
      · intro hrule
        exact ⟨x, rfl, hlivex, hclient.trans hrule.symm⟩
      · rintro ⟨y, hy, hlivey, hrule⟩
        have hyx : y = x := by
          by_contra hyx
          have hold := (hlive y hyx).symm.trans hlivey
          exact hyx (makeEntryHdl_inj hinv.dims hadded.lt (hinv.lt_of_live hold) hy).symm
        rw [← hrule, hyx, hclient]
    · simp only [haa, false_and, false_or, update_of_ne haa, h.held a' rule]
      constructor
      · rintro ⟨y, hy, hlivey, hrule⟩
        exact ⟨y, hy, (hlive y (hne y hlivey)).trans hlivey,
          (hkept y (hne y hlivey)).trans hrule⟩
      · rintro ⟨y, hy, hlivey, hrule⟩
        have hyx : y ≠ x := by
          rintro rfl
          rw [(h.inverse a' _).mp hy] at hnewFree
          cases hnewFree
        exact ⟨y, hy, (hlive y hyx).symm.trans hlivey, (hkept y hyx).symm.trans hrule⟩

theorem HandlesOk.erase (h : HandlesOk pdns natTable maps held)
    (hinv : NatInvariant env natTable links)
    (hdeleted : RuleDeleted env natTable x natTable' links)
    (hx : (natTable.table.records x).live = true)
    (ha : maps.orig2newMap a = some (makeEntryHdl natTable.conf x)) :
    HandlesOk pdns natTable'
      ⟨Function.update maps.orig2newMap a none,
        Function.update maps.new2origMap (makeEntryHdl natTable.conf x) none⟩
      (fun a' rule => a' ≠ a ∧ held a' rule) := by
  have hltx := hinv.lt_of_live hx
  have hold : ∀ i, (natTable'.table.records i).live = true →
      (natTable.table.records i).live = true := fun i hi => ((hdeleted.live i).mp hi).2
  refine ⟨h.inverse.erase ha, ?_, ?_, ?_⟩
  · intro b
    rw [hdeleted.conf]
    by_cases hb : b = makeEntryHdl natTable.conf x
    · simp only [hb, update_self, Option.isSome_none, Bool.false_eq_true, false_iff]
      rintro ⟨y, hy, heq⟩
      exact ((hdeleted.live y).mp hy).1
        (makeEntryHdl_inj hinv.dims hltx (hinv.lt_of_live (hold y hy)) heq).symm
    · simp only [update_of_ne hb, h.live b]
      constructor
      · rintro ⟨y, hy, rfl⟩
        exact ⟨y, (hdeleted.live y).mpr ⟨fun heq => hb (by rw [heq]), hy⟩, rfl⟩
      · rintro ⟨y, hy, rfl⟩
        exact ⟨y, hold y hy, rfl⟩
  · intro i hi
    obtain ⟨clntRule, haccepted, heq⟩ := h.canonical i (hold i hi)
    exact ⟨clntRule, haccepted, (hdeleted.rule i hi).trans heq⟩
  · intro a' rule
    rw [hdeleted.conf]
    by_cases haa : a' = a
    · simp [haa]
    · simp only [haa, ne_eq, not_false_eq_true, true_and, update_of_ne haa,
        h.held a' rule]
      constructor
      · rintro ⟨y, hy, hlivey, hrule⟩
        have hyx : y ≠ x := by
          rintro rfl
          have heq := (h.inverse a' _).mp hy
          rw [(h.inverse a _).mp ha] at heq
          exact haa (Option.some.inj heq).symm
        have hlive' := (hdeleted.live y).mpr ⟨hyx, hlivey⟩
        exact ⟨y, hy, hlive', (hdeleted.rule y hlive').trans hrule⟩
      · rintro ⟨y, hy, hlivey, hrule⟩
        exact ⟨y, hy, hold y hlivey, (hdeleted.rule y hlivey).symm.trans hrule⟩

theorem handlesOk_empty (pdns : Nat → UInt32) {natTable : IpaNatIp4TableCache}
    (hempty : ∀ i, natTable.table.records i = default) :
    HandlesOk pdns natTable clearedMaps (fun _ _ => False) where
  inverse := MutuallyInverse.empty
  live b := by simp [clearedMaps, hempty]
  canonical x hx := by simp [hempty] at hx
  held a rule := by simp [clearedMaps]

theorem HandlesOk.congr_held (h : HandlesOk pdns natTable maps held)
    {held' : Nat → IpaNatRule → Prop} (hheld : ∀ a rule, held' a rule ↔ held a rule) :
    HandlesOk pdns natTable maps held' where
  inverse := h.inverse
  live := h.live
  canonical := h.canonical
  held a rule := (hheld a rule).trans (h.held a rule)

theorem HandlesOk.orig_none_iff (h : HandlesOk pdns natTable maps held) :
    maps.orig2newMap a = none ↔ ∀ rule, ¬held a rule := by
  constructor
  · intro ha rule hrule
    obtain ⟨x, hx, -⟩ := (h.held a rule).mp hrule
    rw [ha] at hx
    cases hx
  · intro hnot
    cases hmap : maps.orig2newMap a with
    | none => rfl
    | some b =>
      obtain ⟨x, hlive, rfl⟩ := (h.live b).mp (by rw [(h.inverse a b).mp hmap]; rfl)
      exact absurd ((h.held a _).mpr ⟨x, hmap, hlive, rfl⟩) (hnot _)

theorem makeEntryHdl_ne_zero {conf : IpaTableConf}
    (hdims : DimsOk conf.tableEntries conf.expnTableEntries) (hx : x < conf.totTblEnts)
    (hne : x ≠ 0) : makeEntryHdl conf x ≠ 0 := by
  intro heq
  have hback := ruleHdlIndex_makeEntryHdl hdims hx
  rw [heq] at hback
  exact hne hback.symm

theorem RuleAdded.hdl_ne_zero {clntRule : IpaNatIpv4Rule}
    (hadded : RuleAdded env natTable clntRule x natTable' links')
    (hproto : clntRule.protocol ≠ natInvalidProtocol) : makeEntryHdl natTable.conf x ≠ 0 := by
  obtain ⟨indxTblEntry, prevIndex, hnew⟩ := hadded.rule
  have hlive : (natTable'.table.records x).live = true := by
    rw [hnew]
    exact newRule_live env.pdns hproto _ _
  rw [← hadded.conf]
  exact makeEntryHdl_ne_zero hadded.invariant.dims (hadded.invariant.lt_of_live hlive)
    (hadded.invariant.ne_zero_of_live hlive)

end

end QcomModules.Ipanat
