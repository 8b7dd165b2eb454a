import QcomModules.CamReqMgr.BubbleRecovery

/-! Bubbles over whole runs: each recovery acts on the bubbled request exactly where its own record
decides, and where all do, a request is recovered internally once at most. -/

namespace QcomModules.CamReqMgr

open Library
open List hiding Vector

def stateAfter (core : Core) (inputs : List (Op × List Answer)) (n : ℕ) : Except Fault Core :=
  (inputs.take n).foldl advance (.ok core)

/-- A notification finds the request it is about, which is to be recovered. -/
def Core.BubblesAt (s : Core) (i : ℕ) (err : ErrorNotify) (pos : SlotNum) : Prop :=
  findSlotForReq i err.notify.reqId s = .ok ((pos.val : ℤ), s) ∧
    ∃ l ∈ s.links[i]?, l.BubblesAt pos.val err.notify.reqId

def Core.DecidesOwn (s : Core) (i : ℕ) (err : ErrorNotify) (pos : SlotNum) : Prop :=
  ∃ l ∈ s.links[i]?, l.DecidesOwn err pos

def Core.RecoversInternally (s : Core) (i : ℕ) (err : ErrorNotify) (pos : SlotNum) : Prop :=
  ∃ l s' l', s.links[i]? = some l ∧ recoverBubble i err pos.val s = .ok ((), s') ∧
    s'.links[i]? = some l' ∧ ∃ k, (l.inQ.slot.get k).internalRecovered = false ∧
      (l'.inQ.slot.get k).internalRecovered = true

def RecoversAt (i : ℕ) (pos : SlotNum) (s : Except Fault Core) (input : Op × List Answer) : Prop :=
  ∃ s₀ err, s = .ok s₀ ∧ input.1 = .error i err ∧
    Core.BubblesAt { s₀ with answers := input.2 } i err pos ∧
    Core.RecoversInternally { s₀ with answers := input.2 } i err pos

/-- A step that recovers from a bubble is decided by the bubbled request's own record. -/
def OwnDecision (s : Except Fault Core) (input : Op × List Answer) : Prop :=
  ∀ s₀ i err pos, s = .ok s₀ → input.1 = .error i err →
    Core.BubblesAt { s₀ with answers := input.2 } i err pos →
    Core.DecidesOwn { s₀ with answers := input.2 } i err pos

/-- The request of a slot has left the queue. -/
def GivenUp (i : ℕ) (pos : SlotNum) (s : Except Fault Core) : Prop :=
  ∃ s₀ l, s = .ok s₀ ∧ s₀.links[i]? = some l ∧ (l.inQ.slot.get pos).reqId = -1

/-! ## The slot last applied -/

theorem Link.SetUp.lastAppliedIdx {l : Link} (h : l.SetUp) : l.inQ.lastAppliedIdx = 0 := by
  have hconnect : ∀ (devs : List (DeviceInfo × KmdOps)) (l : Link),
      (devs.foldl connectDevice l).inQ = l.inQ := by
    intro devs
    induction devs with
    | nil => exact fun _ => rfl
    | cons dev devs ih => exact fun l => (ih _).trans rfl
  obtain ⟨linkHdl, devs, forceErrRecovery, hsetup⟩ := h
  obtain ⟨l, hl, rfl⟩ := Option.map_eq_some_iff.1 hsetup
  rw [setupLinkInfo] at hl
  split at hl
  · cases hl
    exact congrArg ReqQueue.lastAppliedIdx (hconnect devs _)
  · cases hl

theorem stateAfter_succ {core : Core} {inputs : List (Op × List Answer)} {n : ℕ}
    {input : Op × List Answer} (h : inputs[n]? = some input) :
    stateAfter core inputs (n + 1) = advance (stateAfter core inputs n) input := by
  rw [stateAfter, take_add_one, h, Option.toList_some, foldl_append]
  rfl

theorem ranges_of_run {core : Core} (hlinks : ∀ l ∈ core.links, l.SetUp)
    {inputs : List (Op × List Answer)} {n : ℕ} {s : Core} (hs : stateAfter core inputs n = .ok s) :
    s.InRange ∧ ∀ (i : ℕ) (l : Link), s.links[i]? = some l → l.inQ.lastAppliedIdx < numSlots := by
  induction n generalizing s with
  | zero =>
    cases hs
    refine ⟨fun i l hl => (hlinks l (mem_of_getElem? hl)).inRange, fun i l hl => ?_⟩
    rw [(hlinks l (mem_of_getElem? hl)).lastAppliedIdx]
    decide
  | succ n ih =>
    cases hinput : inputs[n]? with
    | none =>
      rw [stateAfter, take_add_one, hinput, Option.toList_none, append_nil] at hs
      exact ih hs
    | some input =>
      rw [stateAfter_succ hinput] at hs
      obtain ⟨s₀, hs₀, hstep⟩ := stepKeeps_advance hs
      obtain ⟨hin, hlast⟩ := ih hs₀
      obtain ⟨hin, hkeeps⟩ := hstep hin
      refine ⟨hin, fun i l hl => ?_⟩
      obtain ⟨l₀, hl₀, hkept⟩ := hkeeps i l hl
      exact hkept.1 (hlast i l₀ hl₀)

/-! ## Internal recovery in a run -/

section Step

variable {s : Core} {i : ℕ} {err : ErrorNotify} {pos : SlotNum} {l : Link}

theorem processError_run (h : s.BubblesAt i err pos) :
    processError i err s = (do
      recoverBubble i err pos.val
      let _ ← processReq i err.notify
      pure 0 : Crm ℤ) s := by
  obtain ⟨hfound, l, hl, slot, hslot, hreq, hrecover, hstatus⟩ := h
  have hat : l.inQ.slot[pos] = slot := by
    have hget : l.inQ.slot[pos.val]? = some slot := hslot
    exact Option.some.inj ((Vector.getElem?_eq_getElem pos.isLt).symm.trans hget)
  have hneg : ¬ (pos.val : ℤ) < 0 := Int.not_lt.2 (Int.natCast_nonneg _)
  have hstay : ¬ (slot.status ≠ .reqPending ∧ slot.status ≠ .reqApplied) := fun hboth =>
    hstatus.elim hboth.1 hboth.2
  rw [processError, run_bind hfound, if_neg hneg, run_bind (slotAt_known hl pos), hat,
    if_neg hrecover, if_neg hstay]

/-- Where the recovery acts on the bubbled request, it can mark that request alone. -/
theorem marks_own (h : s.RecoversBubble i err pos) (hint : s.RecoversInternally i err pos)
    (hl : s.links[i]? = some l) :
    (l.inQ.slot.get pos).internalRecovered = false ∧
      ∃ s' l', recoverBubble i err pos.val s = .ok ((), s') ∧ s'.links[i]? = some l' ∧
        (l'.inQ.slot.get pos).internalRecovered = true := by
  obtain ⟨l₁, s', l', hl₁, hrun, hl', -, -, hflags⟩ := h
  obtain ⟨l₂, s'', l'', hl₂, hrun', hl'', k, hbefore, hafter⟩ := hint
  cases hl.symm.trans hl₁
  cases hl.symm.trans hl₂
  cases hrun.symm.trans hrun'
  cases hl'.symm.trans hl''
  have hk : k = pos := by
    have hflag : (l'.inQ.slot.get k).internalRecovered = ((l.inQ.slot.get k).internalRecovered ||
        decide (k = pos ∧ l.RecoveryDue err pos)) := hflags k
    rw [hafter, hbefore, Bool.false_or] at hflag
    exact (of_decide_eq_true hflag.symm).1
  subst hk
  exact ⟨hbefore, s', l', hrun, hl', hafter⟩

end Step

section Run

variable {core : Core} {inputs : List (Op × List Answer)} {i : ℕ} {pos : SlotNum}

theorem RecoversAt.marks (hlinks : ∀ l ∈ core.links, l.SetUp) {n : ℕ} {input : Op × List Answer}
    (hrec : RecoversAt i pos (stateAfter core inputs n) input)
    (hown : OwnDecision (stateAfter core inputs n) input) :
    ∃ s l, stateAfter core inputs n = .ok s ∧ s.links[i]? = some l ∧
      (l.inQ.slot.get pos).internalRecovered = false ∧
      ∀ s' l', advance (stateAfter core inputs n) input = .ok s' → s'.links[i]? = some l' →
        (l'.inQ.slot.get pos).reqId = -1 ∨ (l'.inQ.slot.get pos).internalRecovered = true := by
  obtain ⟨op, answers⟩ := input
  obtain ⟨s, err, hs, hop, hbubbles, hint⟩ := hrec
  obtain ⟨l, hl, hdec⟩ := hown s i err pos hs hop hbubbles
  obtain ⟨hin, hlast⟩ := ranges_of_run hlinks hs
  have hrecovers := (recoversBubble_iff (s := { s with answers }) hl (hlast i l hl)).2 hdec
  obtain ⟨hbefore, s₁, l₁, hrun, hl₁, hafter⟩ := marks_own hrecovers hint hl
  refine ⟨s, l, hs, hl, hbefore, fun s' l' hs' hl' => ?_⟩
  cases hop
  rw [hs] at hs'
  change Except.bind (processError i err { s with answers }) _ = _ at hs'
  rw [processError_run hbubbles, run_bind hrun] at hs'
  have hin₁ : s₁.InRange := by
    have hback : (ranged false).Allows { s with answers } _ _ :=
      allows_recoverBubble (i := i) err hin (slotIdx_natCast pos.isLt)
    rw [hrun] at hback
    exact hback.1
  have hkept : (ranged false).Allows s₁ (fun _ _ => True) ((do
      let _ ← processReq i err.notify
      pure 0 : Crm ℤ) s₁) :=
    .bind (allows_processReq err.notify hin₁ fun _ _ _ hstrict => by cases hstrict)
      fun _ _ hin _ _ => .pure hin trivial
  cases hout : (do
      let _ ← processReq i err.notify
      pure 0 : Crm ℤ) s₁ with
  | error e =>
    rw [hout] at hs'
    cases hs'
  | ok out =>
    rw [hout] at hs' hkept
    cases hs'
    obtain ⟨l₂, hl₂, hkeeps⟩ := hkept.2.1 i l' hl'
    cases hl₁.symm.trans hl₂
    exact (hkeeps.2 pos).imp id fun h => h.2 hafter

theorem givenUp_between (hlinks : ∀ l ∈ core.links, l.SetUp)
    (hown : ∀ k input, inputs[k]? = some input → OwnDecision (stateAfter core inputs k) input)
    {m n : ℕ} (hmn : m < n) {first last : Op × List Answer} (hfirst : inputs[m]? = some first)
    (hlast : inputs[n]? = some last) (hrec : RecoversAt i pos (stateAfter core inputs m) first)
    (hagain : RecoversAt i pos (stateAfter core inputs n) last) :
    ∃ k, m < k ∧ k ≤ n ∧ GivenUp i pos (stateAfter core inputs k) := by
  -- As long as the request stays, its slot stays marked.
  have hmarked : ∀ d, m + 1 + d ≤ n →
      (∃ k, m < k ∧ k ≤ m + 1 + d ∧ GivenUp i pos (stateAfter core inputs k)) ∨
        ∀ s l, stateAfter core inputs (m + 1 + d) = .ok s → s.links[i]? = some l →
          (l.inQ.slot.get pos).internalRecovered = true := by
    intro d
    have hcase {k : ℕ} (hk : m < k) (h : ∀ s l, stateAfter core inputs k = .ok s →
        s.links[i]? = some l →
        (l.inQ.slot.get pos).reqId = -1 ∨ (l.inQ.slot.get pos).internalRecovered = true) :
        (∃ k', m < k' ∧ k' ≤ k ∧ GivenUp i pos (stateAfter core inputs k')) ∨
          ∀ s l, stateAfter core inputs k = .ok s → s.links[i]? = some l →
            (l.inQ.slot.get pos).internalRecovered = true := by
      by_cases hgiven : GivenUp i pos (stateAfter core inputs k)
      · exact .inl ⟨k, hk, Nat.le_refl k, hgiven⟩
      · exact .inr fun s l hs hl =>
          (h s l hs hl).resolve_left fun hreq => hgiven ⟨s, l, hs, hl, hreq⟩
    induction d with
    | zero =>
      intro _
      obtain ⟨-, -, -, -, -, hnext⟩ := hrec.marks hlinks (hown m first hfirst)
      refine hcase (Nat.lt_succ_self m) fun s l hs hl => hnext s l ?_ hl
      rw [← stateAfter_succ hfirst]
      exact hs
    | succ d ih =>
      intro hle
      cases ih (by omega) with
      | inl hgiven =>
        obtain ⟨k, hlo, hhi, hgiven⟩ := hgiven
        exact .inl ⟨k, hlo, by omega, hgiven⟩
      | inr hmark =>
        have hlt : m + 1 + d < inputs.length := by
          have hn := (List.getElem?_eq_some_iff.1 hlast).1
          omega
        refine hcase (by omega) fun s l hs hl => ?_
        rw [show m + 1 + (d + 1) = m + 1 + d + 1 from rfl,
          stateAfter_succ (getElem?_eq_getElem hlt)] at hs
        obtain ⟨s₀, hs₀, hstep⟩ := stepKeeps_advance hs
        obtain ⟨l₀, hl₀, hkeeps⟩ := (hstep (ranges_of_run hlinks hs₀).1).2 i l hl
        exact (hkeeps.2 pos).imp id fun h => h (hmark s₀ l₀ hs₀ hl₀)
  obtain ⟨d, rfl⟩ := Nat.exists_eq_add_of_le (Nat.succ_le_of_lt hmn)
  refine (hmarked d (Nat.le_refl _)).resolve_right fun hmark => ?_
  obtain ⟨s, l, hs, hl, hbefore, -⟩ := hagain.marks hlinks (hown _ last hlast)
  rw [hmark s l hs hl] at hbefore
  cases hbefore

/-- In any run, the recovery from a bubble acts on the bubbled request exactly where its own record
decides; and where it does in every step, a request that stays in the queue is internally recovered
once at most. -/
theorem bubbles_recovered (hlinks : ∀ l ∈ core.links, l.SetUp) :
    (∀ n s answers, stateAfter core inputs n = .ok s → ∀ i err pos,
      Core.BubblesAt { s with answers } i err pos →
      (Core.RecoversBubble { s with answers } i err pos ↔
        Core.DecidesOwn { s with answers } i err pos)) ∧
    ((∀ k input, inputs[k]? = some input → OwnDecision (stateAfter core inputs k) input) →
      ∀ i pos m n first last, m < n → inputs[m]? = some first → inputs[n]? = some last →
        RecoversAt i pos (stateAfter core inputs m) first →
        RecoversAt i pos (stateAfter core inputs n) last →
        ∃ k, m < k ∧ k ≤ n ∧ GivenUp i pos (stateAfter core inputs k)) := by
  constructor
  · intro n s answers hs i err pos hbubbles
    obtain ⟨-, l, hl, -⟩ := hbubbles
    have hlast := (ranges_of_run hlinks hs).2 i l hl
    rw [recoversBubble_iff (s := { s with answers }) hl hlast]
    constructor
    · exact fun hdec => ⟨l, hl, hdec⟩
    · rintro ⟨l', hl', hdec⟩
      cases hl.symm.trans hl'
      exact hdec
  · exact fun hown i pos m n first last hmn hfirst hlast =>
      givenUp_between hlinks hown hmn hfirst hlast

end Run

section Examples

set_option maxRecDepth 20000

instance (s : Core) (i : ℕ) (err : ErrorNotify) (pos : SlotNum) :
    Decidable (s.BubblesAt i err pos) :=
  inferInstanceAs (Decidable (_ = _ ∧ ∃ l ∈ s.links[i]?, l.BubblesAt _ _))

instance (s : Core) (i : ℕ) (err : ErrorNotify) (pos : SlotNum) :
    Decidable (s.DecidesOwn i err pos) :=
  inferInstanceAs (Decidable (∃ l ∈ s.links[i]?, _))

/-- A device like `undelayedDev` on a second link. -/
def otherDev : DeviceInfo × KmdOps :=
  ({ devHdl := 20, name := "ife1", devId := .ife, pDelay := 0, trigger := triggerPointSof }, {})

def twoLinks : Core :=
  { links := (setupLinkInfo 1 [undelayedDev]).toList ++ (setupLinkInfo 2 [otherDev]).toList }

theorem twoLinks_setUp : ∀ l ∈ twoLinks.links, l.SetUp := by
  intro l hl
  cases mem_append.1 hl with
  | inl hl => exact ⟨1, [undelayedDev], l.forceErrRecovery, by rw [Option.mem_toList.1 hl]; rfl⟩
  | inr hl => exact ⟨2, [otherDev], l.forceErrRecovery, by rw [Option.mem_toList.1 hl]; rfl⟩

def firstSlot : SlotNum := ⟨0, by decide⟩

/-- The device reports a bubble of request 1 at SOF. -/
def firstBubbled : ErrorNotify :=
  { notify := { trigger := triggerPointSof, reqId := 1 } }

/-- Request 1, to be recovered from bubbles, is applied on an active link and bubbled once; the
links are synced or not. -/
def bubbledOnce (synced : Bool) : List (Op × List Answer) :=
  [(.linkControl 0 true 0, []), (.syncConfig (1, 2) synced, []), (.schedule 1 1 1 0 0, []),
    (.addReq 0 { devHdl := 10, reqId := 1 }, []),
    (.trigger 0 { trigger := triggerPointSof, jiffies := 100 }, []),
    (.error 0 firstBubbled, [])]

/-- The second bubble in a row is recovered internally on a link without sync. -/
theorem bubbles_recovered_solo : ∃ s ∈ (stateAfter twoLinks (bubbledOnce false) 6).toOption,
    Core.RecoversBubble { s with answers := [] } 0 firstBubbled firstSlot := by
  have hstate : ∃ s ∈ (stateAfter twoLinks (bubbledOnce false) 6).toOption,
      Core.BubblesAt { s with answers := [] } 0 firstBubbled firstSlot ∧
        Core.DecidesOwn { s with answers := [] } 0 firstBubbled firstSlot := by decide +kernel
  obtain ⟨s, hs, hbubbles, hdec⟩ := hstate
  refine ⟨s, hs, ?_⟩
  cases hafter : stateAfter twoLinks (bubbledOnce false) 6 with
  | error e =>
    rw [hafter] at hs
    cases hs
  | ok s' =>
    rw [hafter] at hs
    cases hs
    exact ((bubbles_recovered twoLinks_setUp).1 6 s [] hafter 0 firstBubbled
      firstSlot hbubbles).2 hdec

/-- On a synced link the record of the next slot decides, and the second bubble in a row is not
recovered internally. -/
theorem not_bubbles_recovered : ¬ ∀ (core : Core) (inputs : List (Op × List Answer)),
    (∀ l ∈ core.links, l.SetUp) → ∀ n s answers, stateAfter core inputs n = .ok s →
      ∀ i err pos, Core.BubblesAt { s with answers } i err pos →
        Core.RecoversBubble { s with answers } i err pos := by
  intro h
  have hstate : ∃ s ∈ (stateAfter twoLinks (bubbledOnce true) 6).toOption,
      Core.BubblesAt { s with answers := [] } 0 firstBubbled firstSlot ∧
        ∃ l ∈ s.links[0]?, l.inQ.lastAppliedIdx < numSlots ∧
          ¬ l.DecidesOwn firstBubbled firstSlot := by decide +kernel
  obtain ⟨s, hs, hbubbles, l, hl, hlast, hdec⟩ := hstate
  cases hafter : stateAfter twoLinks (bubbledOnce true) 6 with
  | error e =>
    rw [hafter] at hs
    cases hs
  | ok s' =>
    rw [hafter] at hs
    cases hs
    have hrec := h twoLinks (bubbledOnce true) twoLinks_setUp 6 s [] hafter 0 firstBubbled
      firstSlot hbubbles
    exact hdec ((recoversBubble_iff (s := { s with answers := [] }) hl hlast).1 hrec)

end Examples

end QcomModules.CamReqMgr
