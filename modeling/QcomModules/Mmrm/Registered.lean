import QcomModules.Mmrm.Currents

/-! Registration: a client is the first entry with its source, and an entry without a client draws
no current. -/

namespace QcomModules.Mmrm

variable {tot : ℕ}

/-! ## Well-formed tables -/

/-- An entry without a client has no clock and no rate, and a client is the first entry with its
source. -/
structure WellFormed (m : ClkMgr tot) : Prop where
  free : ∀ c, (m.clkClientTbl c).client = false →
    (m.clkClientTbl c).clk = none ∧ (m.clkClientTbl c).clkRate = 0
  first : ∀ c, (m.clkClientTbl c).client = true →
    ∀ d < c, (m.clkClientTbl d).clkSrcId ≠ (m.clkClientTbl c).clkSrcId

variable {m m' : ClkMgr tot} {c uid : Fin tot} {e : ClkClient}

theorem WellFormed.client_of_clk (h : WellFormed m) (hclk : (m.clkClientTbl c).clk.isSome) :
    (m.clkClientTbl c).client = true := by
  by_contra hclient
  rw [(h.free c (Bool.eq_false_iff.mpr hclient)).1] at hclk
  cases hclk

theorem WellFormed.clkSrcId_ne (h : WellFormed m) {d : Fin tot} (hc : (m.clkClientTbl c).clk.isSome)
    (hd : (m.clkClientTbl d).clk.isSome) (hne : c ≠ d) :
    (m.clkClientTbl c).clkSrcId ≠ (m.clkClientTbl d).clkSrcId := by
  rcases lt_or_gt_of_ne hne with hlt | hgt
  · exact h.first d (h.client_of_clk hd) c hlt
  · exact (h.first c (h.client_of_clk hc) d hgt).symm

theorem WellFormed.congr (h : WellFormed m) (htbl : m'.clkClientTbl = m.clkClientTbl) :
    WellFormed m' := by
  refine ⟨?_, ?_⟩ <;> rw [htbl]
  · exact h.free
  · exact h.first

theorem WellFormed.setEntry (h : WellFormed m) (hid : e.clkSrcId = (m.clkClientTbl uid).clkSrcId)
    (hfree : e.client = false → e.clk = none ∧ e.clkRate = 0)
    (hfirst : e.client = true → ∀ d < uid, (m.clkClientTbl d).clkSrcId ≠ e.clkSrcId) :
    WellFormed (m.setEntry uid e) := by
  have hids : ∀ c, ((m.setEntry uid e).clkClientTbl c).clkSrcId = (m.clkClientTbl c).clkSrcId := by
    intro c
    by_cases hc : c = uid
    · rw [hc, ClkMgr.setEntry_self, hid]
    · rw [m.setEntry_of_ne hc]
  refine ⟨fun c => ?_, fun c hclient d hd => ?_⟩
  · by_cases hc : c = uid
    · rw [hc, ClkMgr.setEntry_self]
      exact hfree
    · rw [m.setEntry_of_ne hc]
      exact h.free c
  · rw [hids]
    by_cases hc : c = uid
    · rw [hc, ClkMgr.setEntry_self] at hclient ⊢
      exact hfirst hclient d (hc ▸ hd)
    · rw [m.setEntry_of_ne hc] at hclient ⊢
      exact h.first c hclient d hd

theorem WellFormed.setClient (h : WellFormed m) (hid : e.clkSrcId = (m.clkClientTbl uid).clkSrcId)
    (hclient : e.client = (m.clkClientTbl uid).client) (hclk : (m.clkClientTbl uid).client = true) :
    WellFormed (m.setEntry uid e) := by
  refine h.setEntry hid ?_ ?_
  · intro hfalse
    rw [hclient, hclk] at hfalse
    cases hfalse
  · intro _
    rw [hid]
    exact h.first uid hclk

/-! ## What draws the same -/

/-- The same clients run, at the same levels and with the same loads, and the peak data are the
same. -/
structure SameLoads (m m' : ClkMgr tot) : Prop where
  active : ∀ c, (m'.clkClientTbl c).Active ↔ (m.clkClientTbl c).Active
  vddLevel : ∀ c, (m.clkClientTbl c).Active →
    (m'.clkClientTbl c).vddLevel = (m.clkClientTbl c).vddLevel
  load : ∀ c level, (m'.clkClientTbl c).load level = (m.clkClientTbl c).load level
  aggregVal : m'.aggregVal = m.aggregVal
  aggregLevel : m'.aggregLevel = m.aggregLevel
  threshold : m'.threshold = m.threshold

theorem SameLoads.total (h : SameLoads m m') (level : Level) : m'.total level = m.total level :=
  Finset.sum_congr rfl fun c _ => h.load c level

theorem sameLoads_refl (m : ClkMgr tot) : SameLoads m m :=
  ⟨fun _ => Iff.rfl, fun _ _ => rfl, fun _ _ => rfl, rfl, rfl, rfl⟩

theorem sameLoads_setEntry (hactive : e.Active ↔ (m.clkClientTbl uid).Active)
    (hlevel : (m.clkClientTbl uid).Active → e.vddLevel = (m.clkClientTbl uid).vddLevel)
    (hload : ∀ level, e.load level = (m.clkClientTbl uid).load level) :
    SameLoads m (m.setEntry uid e) := by
  refine ⟨fun c => ?_, fun c => ?_, fun c level => ?_, rfl, rfl, rfl⟩ <;>
    by_cases hc : c = uid
  · rw [hc, ClkMgr.setEntry_self, hactive]
  · rw [m.setEntry_of_ne hc]
  · rw [hc, ClkMgr.setEntry_self]
    exact hlevel
  · rw [m.setEntry_of_ne hc]
    exact fun _ => rfl
  · rw [hc, ClkMgr.setEntry_self, hload]
  · rw [m.setEntry_of_ne hc]

theorem sameLoads_setReserve (m : ClkMgr tot) (uid : Fin tot) (reserve : Bool) :
    SameLoads m (m.setEntry uid ((m.clkClientTbl uid).setReserve reserve)) :=
  sameLoads_setEntry Iff.rfl (fun _ => rfl) fun _ => rfl

/-! ## Register -/

/-- What a registration does to the entry it finds. -/
structure RegistersAs (e e' : ClkClient) : Prop where
  clkSrcId : e'.clkSrcId = e.clkSrcId
  clkRate : e'.clkRate = e.clkRate
  free : e'.client = false → e'.clk = none
  client : e.client = true → ∃ refCount, e' = { e with refCount }

theorem registersAs_of_free {e' : ClkClient} (hclient : e.client = false)
    (hid : e'.clkSrcId = e.clkSrcId) (hrate : e'.clkRate = e.clkRate)
    (hfree : e'.client = false → e'.clk = none) : RegistersAs e e' := by
  refine ⟨hid, hrate, hfree, fun htrue => ?_⟩
  rw [hclient] at htrue
  cases htrue

theorem registerEntry_spec (e : ClkClient) (desc : ClkDesc) (env : RegisterEnv) :
    RegistersAs e (registerEntry e desc env).1 := by
  rw [registerEntry]
  by_cases hclient : e.client = true
  · rw [if_pos hclient]
    have hfree {e' : ClkClient} (h : e'.client = e.client) : e'.client = false → e'.clk = none := by
      intro hfalse
      rw [h, hclient] at hfalse
      cases hfalse
    split
    · exact ⟨rfl, rfl, hfree rfl, fun _ => ⟨_, rfl⟩⟩
    · exact ⟨rfl, rfl, hfree rfl, fun _ => ⟨_, rfl⟩⟩
  rw [if_neg hclient]
  have hclient := Bool.eq_false_iff.mpr hclient
  split
  · exact registersAs_of_free hclient rfl rfl fun _ => rfl
  split
  · exact registersAs_of_free hclient rfl rfl fun _ => rfl
  split
  · exact registersAs_of_free hclient rfl rfl fun _ => rfl
  · have hpopulated : ((e.populate desc).setUpCrm desc).client = true ∧
        ((e.populate desc).setUpCrm desc).clkSrcId = e.clkSrcId ∧
        ((e.populate desc).setUpCrm desc).clkRate = e.clkRate := by
      rw [ClkClient.setUpCrm]
      split <;> exact ⟨rfl, rfl, rfl⟩
    refine registersAs_of_free hclient hpopulated.2.1 hpopulated.2.2 fun hfalse => ?_
    rw [show _ = true from hpopulated.1] at hfalse
    cases hfalse

theorem find_clkSrcId {srcId : BitVec 32}
    (h : ((List.finRange tot).find? fun c => (m.clkClientTbl c).clkSrcId = srcId) = some c) :
    (m.clkClientTbl c).clkSrcId = srcId ∧
      ∀ d < c, (m.clkClientTbl d).clkSrcId ≠ srcId := by
  obtain ⟨hc, i, hi, hget, hbefore⟩ := List.find?_eq_some_iff_getElem.mp h
  refine ⟨of_decide_eq_true hc, fun d hd => ?_⟩
  rw [List.getElem_finRange] at hget
  subst hget
  have := hbefore d hd
  rw [List.getElem_finRange] at this
  simpa using this

theorem clkClientRegister_spec (h : WellFormed m) (desc : ClkDesc) (env : RegisterEnv) :
    WellFormed (clkClientRegister m desc env).1 ∧
      SameLoads m (clkClientRegister m desc env).1 := by
  rw [clkClientRegister]
  split
  · exact ⟨h, sameLoads_refl m⟩
  · rename_i c hfind
    obtain ⟨hid, hfirst⟩ := find_clkSrcId hfind
    have hspec := registerEntry_spec (m.clkClientTbl c) desc env
    dsimp only
    generalize (registerEntry (m.clkClientTbl c) desc env).1 = e' at hspec ⊢
    cases hclient : (m.clkClientTbl c).client with
    | true =>
      obtain ⟨refCount, rfl⟩ := hspec.client hclient
      exact ⟨h.setClient rfl rfl hclient,
        sameLoads_setEntry Iff.rfl (fun _ => rfl) fun _ => rfl⟩
    | false =>
      obtain ⟨hclk, hrate⟩ := h.free c hclient
      have hidle : ¬ (m.clkClientTbl c).Active := fun hactive => hactive.2 hrate
      have hidle' : ¬ e'.Active := fun hactive => hactive.2 (hspec.clkRate.trans hrate)
      refine ⟨h.setEntry hspec.clkSrcId ?_ ?_, sameLoads_setEntry ?_ ?_ ?_⟩
      · intro hfree
        exact ⟨hspec.free hfree, hspec.clkRate.trans hrate⟩
      · intro _ d hd
        rw [hspec.clkSrcId, hid]
        exact hfirst d hd
      · exact iff_of_false hidle' hidle
      · exact fun hactive => absurd hactive hidle
      · intro level
        rw [ClkClient.load_of_not_active hidle, ClkClient.load_of_not_active hidle']

/-! ## Requests and deregistrations -/

theorem ClkMgr.Initial.wellFormed (h : m.Initial) : WellFormed m := by
  refine ⟨fun c _ => ⟨h.clk c, h.clkRate c⟩, fun c hclient => ?_⟩
  rw [h.client c] at hclient
  cases hclient

theorem clkClientDeregister_wellFormed (h : WellFormed m) (uid : Fin tot) :
    WellFormed (clkClientDeregister m uid) := by
  rw [clkClientDeregister]
  dsimp only
  split
  · refine h.setEntry rfl (fun _ => ⟨rfl, rfl⟩) fun hclient => ?_
    cases hclient
  · refine h.setEntry rfl (h.free uid) ?_
    exact h.first uid

end QcomModules.Mmrm
