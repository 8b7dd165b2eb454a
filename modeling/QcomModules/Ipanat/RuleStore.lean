import QcomModules.Ipanat.Handles
import QcomModules.Ipanat.RuleRuns

/-! A table as a store of rules, told by what the calls on it answer. -/

namespace QcomModules.Ipanat

open Library Function

def liveRule (table : IpaTable IpaNatRule) (i : Nat) : Option IpaNatRule :=
  if (table.records i).live then some (table.records i).client else none

section
variable {env : RuleEnv} {natTable natTable' : IpaNatIp4TableCache} {links : Links} {x : Nat}

theorem RuleAdded.liveRule {clntRule : IpaNatIpv4Rule}
    (h : RuleAdded env natTable clntRule x natTable' links)
    (hproto : clntRule.protocol ≠ natInvalidProtocol) :
    liveRule natTable.table x = none ∧ liveRule natTable'.table =
      update (liveRule natTable.table) x (some (clientRule env.pdns clntRule)) := by
  refine ⟨if_neg (by simp [IpaNatRule.live, h.free]), funext fun i => ?_⟩
  rw [Ipanat.liveRule]
  by_cases hi : i = x
  · obtain ⟨indxTblEntry, prevIndex, hnew⟩ := h.rule
    rw [hi, update_self, hnew, if_pos (newRule_live _ hproto _ _)]
    rfl
  · rw [update_of_ne hi, IpaNatRule.live_of_content (h.others i hi),
      IpaNatRule.client_of_content (h.others i hi)]
    rfl

theorem RuleDeleted.liveRule (h : RuleDeleted env natTable x natTable' links) :
    liveRule natTable'.table = update (liveRule natTable.table) x none := by
  refine funext fun i => ?_
  rw [Ipanat.liveRule]
  by_cases hi : i = x
  · rw [hi, update_self, if_neg fun hlive => ((h.live x).1 hlive).1 rfl]
  · rw [update_of_ne hi, Ipanat.liveRule]
    by_cases hlive : (natTable'.table.records i).live = true
    · rw [if_pos hlive, if_pos ((h.live i).1 hlive).2, h.rule i hlive]
    · rw [if_neg hlive, if_neg fun hold => hlive ((h.live i).2 ⟨hi, hold⟩)]

end

def RuleCall.rule : RuleCall → Option IpaNatIpv4Rule
  | .add clntRule => some clntRule
  | .del _ => none

def RuleRun.answer (kernel : Kernel) (tblHdl : Nat) (s : RuleRun) : RuleCall → Int × Nat
  | .add clntRule =>
    let (ret, ruleHdl, _) := ipaNATIAddIpv4Rule kernel s.driver tblHdl clntRule
    (ret, ruleHdl)
  | .del ruleHdl => ((ipaNATIDelIpv4Rule kernel s.driver tblHdl ruleHdl).1, ruleHdl)

/-- A table, and the rules at its slots as the answers tell them. -/
structure RuleStore where
  run : RuleRun
  held : Nat → Option IpaNatIpv4Rule

namespace RuleStore

def step (kernel : Kernel) (tblHdl : Nat) (s : RuleStore) (call : RuleCall) : RuleStore :=
  let answer := s.run.answer kernel tblHdl call
  ⟨s.run.step kernel tblHdl call,
    if answer.1 = 0 then update s.held (s.run.slot tblHdl answer.2) call.rule else s.held⟩

def Reaches (kernel : Kernel) (tblHdl : Nat) (driver : NatDriver) : RuleStore → Prop :=
  Relation.ReflTransGen (GuardedStep (fun s => s.run.DeletesOnce tblHdl) (step kernel tblHdl))
    ⟨⟨driver, fun _ => false⟩, fun _ => none⟩

def Holds (nmi : Ipa3NatMemIn) (s : RuleStore) : Prop :=
  Option.map (clientRule s.run.driver.pdns) ∘ s.held = liveRule (s.run.driver.natTable nmi).table

structure Inv (nmi : Ipa3NatMemIn) (requests : Nat) (s : RuleStore) : Prop where
  ok : s.run.Ok nmi requests
  holds : s.Holds nmi

variable {kernel : Kernel} {nmi : Ipa3NatMemIn} {requests : Nat} {s : RuleStore}

theorem Holds.held_eq_none_iff (h : s.Holds nmi) (i : Nat) :
    s.held i = none ↔ liveRule (s.run.driver.natTable nmi).table i = none := by
  rw [← congrFun h i, comp_apply, Option.map_eq_none_iff]

theorem Inv.add (h : s.Inv nmi requests) (hok : ∀ i, requests ≤ i → kernel.request i = 0)
    (clntRule : IpaNatIpv4Rule) :
    (s.step kernel (makeTblHdl 1 nmi) (.add clntRule)).Inv nmi requests ∧
      ∀ ruleHdl, s.run.answer kernel (makeTblHdl 1 nmi) (.add clntRule) = (0, ruleHdl) →
        s.held (s.run.slot (makeTblHdl 1 nmi) ruleHdl) = none := by
  obtain ⟨links, hready⟩ := h.ok.ready
  rcases hready.addRule (hok _ h.ok.requests_le) clntRule with
    ⟨x, links', hashToken, natTable', hadd, hproto, hadded⟩ | ⟨ret, hashToken, hret, hadd⟩
  · have hslot : s.run.slot (makeTblHdl 1 nmi)
        (makeEntryHdl (s.run.driver.natTable nmi).conf x) = x := by
      rw [RuleRun.slot, tblHdlNmi_makeTblHdl]
      exact ruleHdlIndex_makeEntryHdl hready.invariant.dims hadded.lt
    obtain ⟨hfree, hlive⟩ := hadded.liveRule hproto
    refine ⟨⟨h.ok.add hok clntRule, ?_⟩, ?_⟩
    · simp only [Holds, step, RuleRun.step, RuleRun.answer, hadd, if_true, hslot, RuleCall.rule,
        comp_update]
      change update (_ ∘ s.held) x _ =
        liveRule ((s.run.driver.setNatTable nmi natTable').natTable nmi).table
      rw [NatDriver.natTable_setNatTable, hlive, ← h.holds]
      rfl
    · intro ruleHdl hanswer
      simp only [RuleRun.answer, hadd, Prod.mk.injEq, true_and] at hanswer
      rwa [← hanswer, hslot, h.holds.held_eq_none_iff]
  · refine ⟨⟨h.ok.add hok clntRule, ?_⟩, ?_⟩
    · simp only [step, RuleRun.step, RuleRun.answer, hadd, if_neg hret]
      exact h.holds
    · intro ruleHdl hanswer
      simp only [RuleRun.answer, hadd, Prod.mk.injEq] at hanswer
      exact absurd hanswer.1 hret

theorem Inv.del (h : s.Inv nmi requests) (hok : ∀ i, requests ≤ i → kernel.request i = 0)
    {ruleHdl : Nat} (honce : s.run.DeletesOnce (makeTblHdl 1 nmi) (.del ruleHdl)) :
    (s.step kernel (makeTblHdl 1 nmi) (.del ruleHdl)).Inv nmi requests ∧
      ((s.run.answer kernel (makeTblHdl 1 nmi) (.del ruleHdl)).1 = 0 ↔
        s.held (s.run.slot (makeTblHdl 1 nmi) ruleHdl) ≠ none) := by
  obtain ⟨links, hready⟩ := h.ok.ready
  rw [Ne, h.holds.held_eq_none_iff, RuleRun.slot, tblHdlNmi_makeTblHdl, liveRule]
  split
  · next hlive =>
    obtain ⟨natTable', hdel, hdeleted⟩ := hready.delRule_live (hok _ h.ok.requests_le) hlive
    rw [RuleRun.answer, hdel]
    refine ⟨⟨h.ok.del hok honce, ?_⟩, iff_of_true rfl (Option.some_ne_none _)⟩
    simp only [Holds, step, RuleRun.step, RuleRun.answer, hdel, if_true, RuleRun.slot,
      tblHdlNmi_makeTblHdl, RuleCall.rule, comp_update]
    change update (_ ∘ s.held) _ none =
      liveRule ((s.run.driver.setNatTable nmi natTable').natTable nmi).table
    rw [NatDriver.natTable_setNatTable, hdeleted.liveRule, ← h.holds]
    rfl
  · next hlive =>
    have hdel := @TableReady.delRule_free kernel _ _ _ ruleHdl hready <| by
      rw [← Bool.not_eq_true]
      intro henable
      have hdead := h.ok.dead_deleted _
        (IpaNatRule.dead_of_not_live henable (Bool.not_eq_true _ ▸ hlive))
      rw [RuleRun.DeletesOnce, RuleRun.slot, tblHdlNmi_makeTblHdl, hdead] at honce
      cases honce
    have hret : -EINVAL ≠ 0 := by decide
    refine ⟨⟨h.ok.del hok honce, ?_⟩, ?_⟩
    · simp only [step, RuleRun.step, RuleRun.answer, hdel, if_neg hret]
      exact h.holds
    · rw [RuleRun.answer, hdel]
      exact iff_of_false hret (not_not.2 rfl)

end RuleStore

/-- The table is a store: in every state reached, the live rules are those added and not deleted
since, as they were given. A new rule gets a slot where none is held, a deletion succeeds where
one is held, and the time stamp of a rule held is read back. -/
theorem rules_stored {kernel : Kernel} {driver driver' : NatDriver} {nmi : Ipa3NatMemIn}
    {publicIpAddr : UInt32} {numberOfEntries tblHdl : Nat}
    (htbl : ipaNATIAddIpv4Tbl kernel driver nmi publicIpAddr numberOfEntries =
      (0, tblHdl, driver'))
    (hok : ∀ i, driver'.requests ≤ i → kernel.request i = 0) {s : RuleStore}
    (hrun : RuleStore.Reaches kernel tblHdl driver' s) :
    s.Holds nmi ∧
      (∀ clntRule ruleHdl, s.run.answer kernel tblHdl (.add clntRule) = (0, ruleHdl) →
        s.held (s.run.slot tblHdl ruleHdl) = none) ∧
      (∀ ruleHdl, s.run.DeletesOnce tblHdl (.del ruleHdl) →
        ((s.run.answer kernel tblHdl (.del ruleHdl)).1 = 0 ↔
          s.held (s.run.slot tblHdl ruleHdl) ≠ none)) ∧
      ∀ ruleHdl clntRule, s.held (s.run.slot tblHdl ruleHdl) = some clntRule →
        ipaNATIQueryTimestamp s.run.driver tblHdl ruleHdl =
          (0, clntRule.timeStamp.toNat % 2 ^ 24) := by
  obtain ⟨rfl, hready, hempty⟩ := tableReady_of_addTbl htbl
  have hinit : RuleStore.Inv nmi driver'.requests ⟨⟨driver', fun _ => false⟩, fun _ => none⟩ :=
    ⟨⟨⟨emptyLinks, hready⟩, le_refl _, fun i hdead => by simp [hempty i] at hdead⟩,
      funext fun i => by simp [liveRule, hempty i]⟩
  have h : s.Inv nmi driver'.requests := by
    refine invariant_of_guarded ?_ hinit hrun
    rintro s (clntRule | ruleHdl) h honce
    · exact (h.add hok clntRule).1
    · exact (h.del hok honce).1
  refine ⟨h.holds, fun clntRule => (h.add hok clntRule).2,
    fun ruleHdl honce => (h.del hok honce).2, fun ruleHdl clntRule hheld => ?_⟩
  rw [RuleRun.slot, tblHdlNmi_makeTblHdl] at hheld
  obtain ⟨links, hready⟩ := h.ok.ready
  have hrule := congrFun h.holds (ruleHdlIndex (s.run.driver.natTable nmi).conf ruleHdl)
  rw [comp_apply, hheld, Option.map_some, liveRule] at hrule
  split at hrule
  · next hlive =>
    have hstamp := congrArg IpaNatRule.timeStamp (Option.some.inj hrule)
    have hlt := Nat.not_le_of_lt (hready.invariant.lt_of_live hlive)
    simp [ipaNATIQueryTimestamp, tblHdlNmi_makeTblHdl, validTblHdl_makeTblHdl, hready.valid, hlt]
    exact hstamp.symm
  · cases hrule

def sampleStore : RuleStore :=
  [.add (sampleRule 1), .add (sampleRule 2), .del 2].foldl
    (RuleStore.step sampleKernel (makeTblHdl 1 .ddr))
    ⟨⟨sampleTbl.2.2, fun _ => false⟩, fun _ => none⟩

theorem sampleStore_stored :
    (sampleStore.held 1).isNone ∧ (sampleStore.held 2).isSome ∧ sampleStore.Holds .ddr :=
  ⟨by decide +kernel, by decide +kernel, (rules_stored sampleTbl_eq (fun _ _ => rfl)
    (((Relation.ReflTransGen.refl.tail ⟨.add (sampleRule 1), trivial, rfl⟩).tail
      ⟨.add (sampleRule 2), trivial, rfl⟩).tail ⟨.del 2, sampleRun_deletesOnce, rfl⟩)).1⟩

end QcomModules.Ipanat
