import QcomModules.Library.Runs
import QcomModules.Mmrm.Registered

/-! The level and the sum of the manager over runs of requests. -/

namespace QcomModules.Mmrm

open Library Relation List

variable {tot : ℕ}

/-! ## The scan for the next level -/

def ClkMgr.Other (m : ClkMgr tot) (uid c : Fin tot) : Prop :=
  c ≠ uid ∧ (m.clkClientTbl c).Active

instance (m : ClkMgr tot) (uid c : Fin tot) : Decidable (m.Other uid c) :=
  inferInstanceAs (Decidable (_ ∧ _))

/-- The last of the other clients above the requested level is the highest of them. -/
def ClkMgr.LastIsHighest (m : ClkMgr tot) (uid : Fin tot) (reqLevel : Level) : Prop :=
  ∀ d, m.Other uid d → reqLevel < (m.clkClientTbl d).vddLevel →
    (∀ c, d < c → m.Other uid c → (m.clkClientTbl c).vddLevel ≤ reqLevel) →
    ∀ c, m.Other uid c → (m.clkClientTbl c).vddLevel ≤ (m.clkClientTbl d).vddLevel

/-- The scan finds the level that is right: the level does not go down, another client holds it,
or the scan ends at the highest of the others. -/
def ClkMgr.FindsLevel (m : ClkMgr tot) (uid : Fin tot) (reqLevel : Level) : Prop :=
  reqLevel < m.aggregLevel →
    (∃ c, m.Other uid c ∧ (m.clkClientTbl c).vddLevel = m.aggregLevel) ∨
      m.LastIsHighest uid reqLevel

instance (m : ClkMgr tot) (uid : Fin tot) (reqLevel : Level) :
    Decidable (m.FindsLevel uid reqLevel) :=
  inferInstanceAs (Decidable (_ → (∃ _, _) ∨ (∀ _, _ → _ → (∀ _, _ → _ → _) → ∀ _, _ → _)))

/-- A level is the highest among the requested one and those of the other clients. -/
structure Highest (m : ClkMgr tot) (uid : Fin tot) (reqLevel level : Level) : Prop where
  req_le : reqLevel ≤ level
  other_le : ∀ c, m.Other uid c → (m.clkClientTbl c).vddLevel ≤ level
  attained : level = reqLevel ∨ ∃ c, m.Other uid c ∧ (m.clkClientTbl c).vddLevel = level

section Scan

variable {m : ClkMgr tot} {uid : Fin tot} {reqLevel : Level}

variable {nextMax : Option Level} {cs : List (Fin tot)}

theorem scanLevels_skip {c : Fin tot} (hid : ∀ c, (m.clkClientTbl c).clk.isSome →
      ((m.clkClientTbl c).clkSrcId = (m.clkClientTbl uid).clkSrcId ↔ c = uid))
    (h : ¬ m.Other uid c) :
    scanLevels m (m.clkClientTbl uid).clkSrcId reqLevel nextMax (c :: cs) =
      scanLevels m (m.clkClientTbl uid).clkSrcId reqLevel nextMax cs := by
  have hskip : ¬ (m.clkClientTbl c).Active ∨
      (m.clkClientTbl c).clkSrcId = (m.clkClientTbl uid).clkSrcId := by
    by_cases hactive : (m.clkClientTbl c).Active
    · right
      rw [hid c hactive.1]
      by_contra hne
      exact h ⟨hne, hactive⟩
    · exact .inl hactive
  rw [scanLevels, if_pos hskip]

theorem scanLevels_holds (hid : ∀ c, (m.clkClientTbl c).clk.isSome →
      ((m.clkClientTbl c).clkSrcId = (m.clkClientTbl uid).clkSrcId ↔ c = uid))
    (h : ∃ c ∈ cs, m.Other uid c ∧ (m.clkClientTbl c).vddLevel = m.aggregLevel) :
    scanLevels m (m.clkClientTbl uid).clkSrcId reqLevel nextMax cs = m.aggregLevel := by
  induction cs generalizing nextMax with
  | nil =>
    obtain ⟨c, hc, -⟩ := h
    cases hc
  | cons c cs ih =>
    obtain ⟨d, hd, hother, hlevel⟩ := h
    by_cases hc : m.Other uid c
    · have hnot : ¬ (¬ (m.clkClientTbl c).Active ∨
          (m.clkClientTbl c).clkSrcId = (m.clkClientTbl uid).clkSrcId) := by
        rw [hid c hc.2.1]
        exact not_or.mpr ⟨not_not.mpr hc.2, hc.1⟩
      rw [scanLevels, if_neg hnot]
      split
      · rfl
      · rename_i hne
        have hmem : d ∈ cs := by
          rcases mem_cons.mp hd with rfl | hmem
          · exact absurd hlevel hne
          · exact hmem
        split <;> exact ih ⟨d, hmem, hother, hlevel⟩
    · rw [scanLevels_skip hid hc]
      rcases mem_cons.mp hd with rfl | hmem
      · exact absurd hother hc
      · exact ih ⟨d, hmem, hother, hlevel⟩

/-- Where no other client holds the level, the scan ends with the last one above the request. -/
theorem scanLevels_last {nextMax : Option Level} {cs : List (Fin tot)}
    (hid : ∀ c, (m.clkClientTbl c).clk.isSome →
      ((m.clkClientTbl c).clkSrcId = (m.clkClientTbl uid).clkSrcId ↔ c = uid))
    (hsorted : cs.Pairwise (· < ·))
    (hlt : ∀ c ∈ cs, m.Other uid c → (m.clkClientTbl c).vddLevel < m.aggregLevel) :
    (∃ d ∈ cs, m.Other uid d ∧ reqLevel < (m.clkClientTbl d).vddLevel ∧
      (∀ c ∈ cs, d < c → m.Other uid c → (m.clkClientTbl c).vddLevel ≤ reqLevel) ∧
      scanLevels m (m.clkClientTbl uid).clkSrcId reqLevel nextMax cs =
        (m.clkClientTbl d).vddLevel) ∨
    ((∀ c ∈ cs, m.Other uid c → (m.clkClientTbl c).vddLevel ≤ reqLevel) ∧
      scanLevels m (m.clkClientTbl uid).clkSrcId reqLevel nextMax cs =
        scanLevels m (m.clkClientTbl uid).clkSrcId reqLevel nextMax []) := by
  induction cs generalizing nextMax with
  | nil => exact .inr ⟨nofun, rfl⟩
  | cons c cs ih =>
    rw [pairwise_cons] at hsorted
    rw [forall_mem_cons] at hlt
    have hlater {d : Fin tot} (hd : d ∈ cs)
        (h : ∀ c ∈ cs, d < c → m.Other uid c → (m.clkClientTbl c).vddLevel ≤ reqLevel) :
        ∀ x ∈ c :: cs, d < x → m.Other uid x → (m.clkClientTbl x).vddLevel ≤ reqLevel := by
      refine forall_mem_cons.mpr ⟨fun hdc => ?_, h⟩
      exact absurd hdc (not_lt_of_gt (hsorted.1 d hd))
    by_cases hc : m.Other uid c
    · have hnot : ¬ (¬ (m.clkClientTbl c).Active ∨
          (m.clkClientTbl c).clkSrcId = (m.clkClientTbl uid).clkSrcId) := by
        rw [hid c hc.2.1]
        exact not_or.mpr ⟨not_not.mpr hc.2, hc.1⟩
      have hlevel := hlt.1 hc
      rw [scanLevels, if_neg hnot, if_neg (Fin.ne_of_lt hlevel)]
      by_cases hreq : reqLevel < (m.clkClientTbl c).vddLevel
      · rw [if_pos ⟨hlevel, hreq⟩]
        rcases ih hsorted.2 hlt.2 with ⟨d, hd, hother, habove, hafter, hscan⟩ | ⟨hbelow, hscan⟩
        · exact .inl ⟨d, mem_cons_of_mem _ hd, hother, habove, hlater hd hafter, hscan⟩
        · refine .inl ⟨c, mem_cons_self, hc, hreq, ?_, ?_⟩
          · refine forall_mem_cons.mpr ⟨fun hcc => ?_, fun x hx _ => hbelow x hx⟩
            exact absurd hcc (lt_irrefl c)
          · rw [hscan, scanLevels, if_pos hreq]
      · rw [if_neg (fun h => hreq h.2)]
        rcases ih hsorted.2 hlt.2 with ⟨d, hd, hother, habove, hafter, hscan⟩ | ⟨hbelow, hscan⟩
        · exact .inl ⟨d, mem_cons_of_mem _ hd, hother, habove, hlater hd hafter, hscan⟩
        · exact .inr ⟨forall_mem_cons.mpr ⟨fun _ => not_lt.mp hreq, hbelow⟩, hscan⟩
    · rw [scanLevels_skip hid hc]
      rcases ih hsorted.2 hlt.2 with ⟨d, hd, hother, habove, hafter, hscan⟩ | ⟨hbelow, hscan⟩
      · exact .inl ⟨d, mem_cons_of_mem _ hd, hother, habove, hlater hd hafter, hscan⟩
      · exact .inr ⟨forall_mem_cons.mpr ⟨fun h => absurd h hc, hbelow⟩, hscan⟩

theorem checkReqLevel_highest
    (hid : ∀ c, (m.clkClientTbl c).clk.isSome →
      ((m.clkClientTbl c).clkSrcId = (m.clkClientTbl uid).clkSrcId ↔ c = uid))
    (hle : ∀ c, m.Other uid c → (m.clkClientTbl c).vddLevel ≤ m.aggregLevel)
    (hfinds : m.FindsLevel uid reqLevel) :
    Highest m uid reqLevel (checkReqLevel m (m.clkClientTbl uid).clkSrcId reqLevel) := by
  rw [checkReqLevel]
  by_cases hdown : reqLevel < m.aggregLevel
  · rw [if_pos hdown]
    by_cases hholds : ∃ c, m.Other uid c ∧ (m.clkClientTbl c).vddLevel = m.aggregLevel
    · obtain ⟨c, hother, hlevel⟩ := hholds
      rw [scanLevels_holds hid ⟨c, mem_finRange c, hother, hlevel⟩]
      exact ⟨Fin.le_of_lt hdown, hle, .inr ⟨c, hother, hlevel⟩⟩
    · have hlt : ∀ c ∈ finRange tot, m.Other uid c →
          (m.clkClientTbl c).vddLevel < m.aggregLevel := by
        intro c _ hother
        exact lt_of_le_of_ne (hle c hother) fun heq => hholds ⟨c, hother, heq⟩
      rcases @scanLevels_last _ _ _ reqLevel none _ hid (pairwise_lt_finRange tot) hlt with
        ⟨d, -, hother, habove, hafter, hscan⟩ | ⟨hbelow, hscan⟩
      · rw [hscan]
        have hlast := (hfinds hdown).resolve_left hholds
        refine ⟨Fin.le_of_lt habove, ?_, .inr ⟨d, hother, rfl⟩⟩
        exact hlast d hother habove fun c hc => hafter c (mem_finRange c) hc
      · rw [hscan]
        exact ⟨le_rfl, fun c => hbelow c (mem_finRange c), .inl rfl⟩
  · rw [if_neg hdown]
    exact ⟨le_rfl, fun c hother => (hle c hother).trans (not_lt.mp hdown), .inl rfl⟩

end Scan

/-! ## Requests -/

theorem ClkClient.le_effective (e : ClkClient) (data : ClientData) (clkVal : BitVec 64) :
    clkVal ≤ e.effective data clkVal := by
  rw [effective]
  split
  · rw [getMaxCrmRate]
    split
    · exact BitVec.le_refl _
    · rename_i hge
      split
      · dsimp only
        split
        · exact BitVec.le_refl _
        · rename_i hbest
          exact BitVec.le_of_lt (BitVec.not_le.mp hbest)
      · exact BitVec.not_lt.mp hge
  · exact BitVec.le_refl _

variable {corners : VddCorners} {clk : Clk} {data : ClientData} {clkVal : BitVec 64}

theorem ClkClient.requestLevel_of_effective_zero {e : ClkClient} {reqLevel : Level}
    (hlevel : e.requestLevel corners clk data clkVal = some reqLevel)
    (hzero : e.effective data clkVal = 0) : reqLevel = 0 := by
  have hle := e.le_effective data clkVal
  rw [hzero] at hle
  rw [BitVec.le_zero_iff.mp hle, requestLevel] at hlevel
  simpa using hlevel.symm

/-- The level is the highest of the clients that run, and 0 if none does, and the aggregate is
their total at that level. -/
structure Tracks (m : ClkMgr tot) : Prop where
  le : ∀ c, (m.clkClientTbl c).Active → (m.clkClientTbl c).vddLevel ≤ m.aggregLevel
  attained : (∃ c, (m.clkClientTbl c).Active ∧ (m.clkClientTbl c).vddLevel = m.aggregLevel) ∨
    ((∀ c, ¬ (m.clkClientTbl c).Active) ∧ m.aggregLevel = 0)
  aggregVal : m.aggregVal.toNat = m.total m.aggregLevel

theorem Tracks.sameLoads {m m' : ClkMgr tot} (h : Tracks m) (hsame : SameLoads m m') :
    Tracks m' := by
  refine ⟨fun c hactive => ?_, ?_, ?_⟩
  · rw [hsame.active] at hactive
    rw [hsame.vddLevel c hactive, hsame.aggregLevel]
    exact h.le c hactive
  · rw [hsame.aggregLevel]
    refine h.attained.imp ?_ ?_
    · rintro ⟨c, hactive, hlevel⟩
      exact ⟨c, (hsame.active c).mpr hactive, (hsame.vddLevel c hactive).trans hlevel⟩
    · rintro ⟨hidle, hzero⟩
      exact ⟨fun c => (hsame.active c).not.mpr (hidle c), hzero⟩
  · rw [hsame.aggregVal, hsame.aggregLevel, hsame.total, h.aggregVal]

theorem ClkMgr.Initial.tracks {m : ClkMgr tot} (h : m.Initial) : Tracks m := by
  have hidle : ∀ c, ¬ (m.clkClientTbl c).Active := fun c hactive => hactive.2 (h.clkRate c)
  refine ⟨fun c hactive => absurd hactive (hidle c), .inr ⟨hidle, h.aggregLevel⟩, ?_⟩
  rw [h.aggregVal, total, Finset.sum_eq_zero]
  · rfl
  · intro c _
    exact ClkClient.load_of_not_active (hidle c) _

/-- What a client that has a clock asks for, where it asks for something new. -/
def ClkMgr.Asks (corners : VddCorners) (m : ClkMgr tot) (uid : Fin tot) (data : ClientData)
    (clkVal : BitVec 64) (p : Level → Prop) : Prop :=
  ∀ clk ∈ (m.clkClientTbl uid).clk, ¬ (m.clkClientTbl uid).Repeats data clkVal →
    ∀ reqLevel ∈ (m.clkClientTbl uid).requestLevel corners clk data clkVal, p reqLevel

instance (corners : VddCorners) (m : ClkMgr tot) (uid : Fin tot) (data : ClientData)
    (clkVal : BitVec 64) (p : Level → Prop) [DecidablePred p] :
    Decidable (m.Asks corners uid data clkVal p) :=
  inferInstanceAs (Decidable (∀ _ ∈ _, _ → ∀ _ ∈ _, _))

theorem Tracks.record {m m' : ClkMgr tot} {uid : Fin tot} {reqLevel : Level} {n : ℕ} (h : Tracks m)
    (hwf : WellFormed m) (hclk : (m.clkClientTbl uid).clk = some clk)
    (hlevel : (m.clkClientTbl uid).requestLevel corners clk data clkVal = some reqLevel)
    (hfinds : m.FindsLevel uid reqLevel)
    (hsettled : Settled m m' (checkReqLevel m (m.clkClientTbl uid).clkSrcId reqLevel) n)
    (hn : n = m.intended uid reqLevel ((m.clkClientTbl uid).effective data clkVal)
      data.numHwBlocks) :
    Tracks (m'.setEntry uid
      ((m'.clkClientTbl uid).record (m.clkClientTbl uid) data clkVal reqLevel)) := by
  have hsome : (m.clkClientTbl uid).clk.isSome := hclk ▸ rfl
  have hid : ∀ c, (m.clkClientTbl c).clk.isSome →
      ((m.clkClientTbl c).clkSrcId = (m.clkClientTbl uid).clkSrcId ↔ c = uid) := by
    refine fun c hc => ⟨fun heq => ?_, fun h => h ▸ rfl⟩
    by_contra hne
    exact hwf.clkSrcId_ne hc hsome hne heq
  have hhighest := checkReqLevel_highest hid (fun c hother => h.le c hother.2) hfinds
  generalize hadj : checkReqLevel m (m.clkClientTbl uid).clkSrcId reqLevel = adjLevel at *
  set e' := (m'.clkClientTbl uid).record (m.clkClientTbl uid) data clkVal reqLevel with he'
  have hother (c : Fin tot) (hc : c ≠ uid) :
      (m'.setEntry uid e').clkClientTbl c = m.clkClientTbl c := by
    rw [m'.setEntry_of_ne hc, hsettled.tbl]
  have hreq : e'.vddLevel = reqLevel := rfl
  have haggreg : (m'.setEntry uid e').aggregLevel = adjLevel := hsettled.aggregLevel
  refine ⟨fun c hactive => ?_, ?_, ?_⟩
  · rw [haggreg]
    by_cases hc : c = uid
    · rw [hc, ClkMgr.setEntry_self, hreq]
      exact hhighest.req_le
    · rw [hother c hc] at hactive ⊢
      exact hhighest.other_le c ⟨hc, hactive⟩
  · rw [haggreg]
    rcases hhighest.attained with hself | ⟨c, ⟨hc, hactive⟩, hc_level⟩
    · by_cases hzero : (m.clkClientTbl uid).effective data clkVal = 0
      · have hreqZero := ClkClient.requestLevel_of_effective_zero hlevel hzero
        by_cases hany : ∃ c, m.Other uid c
        · obtain ⟨c, hc, hactive⟩ := hany
          have hle := hhighest.other_le c ⟨hc, hactive⟩
          rw [hself, hreqZero] at hle ⊢
          refine .inl ⟨c, ?_, ?_⟩ <;> rw [hother c hc]
          · exact hactive
          · exact Fin.le_zero_iff.mp hle
        · refine .inr ⟨fun c hactive => ?_, hself.trans hreqZero⟩
          by_cases hc : c = uid
          · rw [hc, ClkMgr.setEntry_self] at hactive
            exact hactive.2 hzero
          · rw [hother c hc] at hactive
            exact hany ⟨c, hc, hactive⟩
      · refine .inl ⟨uid, ?_, ?_⟩ <;> rw [ClkMgr.setEntry_self]
        · refine ⟨?_, hzero⟩
          rw [he', ClkClient.record, hsettled.tbl]
          exact hsome
        · rw [hreq, hself]
    · refine .inl ⟨c, ?_, ?_⟩ <;> rw [hother c hc]
      · exact hactive
      · exact hc_level
  · rw [haggreg, hsettled.total_record hsome]
    rw [show (m'.setEntry uid e').aggregVal = m'.aggregVal from rfl, hsettled.aggregVal, hn,
      ClkMgr.intended_eq h.aggregVal, hadj]

/-! ## Runs -/

/-- Clients register and ask for rates, without throttling, with numbers that fit and where the
scan finds the level. -/
def LevelOk (corners : VddCorners) (m : ClkMgr tot) : ClkOp tot → Prop
  | .register _ _ => True
  | .deregister _ => False
  | .setval uid data clkVal env =>
    env.enableThrottle = false ∧ m.Asks corners uid data clkVal fun reqLevel =>
      m.Fits uid reqLevel ((m.clkClientTbl uid).effective data clkVal) data.numHwBlocks ∧
        m.FindsLevel uid reqLevel

instance (corners : VddCorners) (m : ClkMgr tot) : (op : ClkOp tot) →
    Decidable (LevelOk corners m op)
  | .register _ _ => inferInstanceAs (Decidable True)
  | .deregister _ => inferInstanceAs (Decidable False)
  | .setval _ _ _ _ => inferInstanceAs (Decidable (_ ∧ _))

theorem WellFormed.record {m m' : ClkMgr tot} (h : WellFormed m)
    (htbl : m'.clkClientTbl = m.clkClientTbl) {uid : Fin tot}
    (hclk : (m.clkClientTbl uid).clk.isSome) (data : ClientData) (clkVal : BitVec 64)
    (reqLevel : Level) : WellFormed (m'.setEntry uid
      ((m'.clkClientTbl uid).record (m.clkClientTbl uid) data clkVal reqLevel)) := by
  have hclient := h.client_of_clk hclk
  rw [← htbl] at hclient
  exact (h.congr htbl).setClient rfl rfl hclient

theorem tracks_setval {m : ClkMgr tot} (hwf : WellFormed m) (h : Tracks m) {uid : Fin tot}
    {env : SetvalEnv} (hok : LevelOk corners m (.setval uid data clkVal env)) :
    WellFormed (clkClientSetval corners m uid data clkVal env).1 ∧
      Tracks (clkClientSetval corners m uid data clkVal env).1 := by
  have houtcome := clkClientSetval_outcome corners m uid data clkVal env
  generalize clkClientSetval corners m uid data clkVal env = r at houtcome ⊢
  cases houtcome with
  | rejected rc hrc => exact ⟨hwf, h⟩
  | repeated hrepeats reserve rc =>
    refine ⟨?_, h.sameLoads (sameLoads_setReserve m uid reserve)⟩
    exact hwf.setEntry rfl (hwf.free uid) (hwf.first uid)
  | recorded clk hclk _ hrepeats reqLevel hlevel m' hpeak rc hrc =>
    have hsome : (m.clkClientTbl uid).clk.isSome := hclk ▸ rfl
    obtain ⟨hfits, hfinds⟩ := hok.2 clk hclk hrepeats reqLevel hlevel
    have hsettled := checkPeakCurrent_settled hpeak hok.1 hsome h.aggregVal.ge hfits
    exact ⟨hwf.record hsettled.tbl hsome data clkVal reqLevel,
      h.record hwf hclk hlevel hfinds hsettled rfl⟩

theorem tracks_step (m : ClkMgr tot) (op : ClkOp tot) (h : WellFormed m ∧ Tracks m)
    (hok : LevelOk corners m op) :
    WellFormed (clkStep corners m op) ∧ Tracks (clkStep corners m op) := by
  cases op with
  | register desc env =>
    obtain ⟨hwf, hsame⟩ := clkClientRegister_spec h.1 desc env
    exact ⟨hwf, h.2.sameLoads hsame⟩
  | deregister uid => exact hok.elim
  | setval uid data clkVal env => exact tracks_setval h.1 h.2 hok

/-- In every run of registrations and requests where the scan finds the level, the level is the
highest one and the aggregate is the total at that level. -/
theorem aggregate_tracked {corners : VddCorners} {m₀ m : ClkMgr tot} (hinit : m₀.Initial)
    (hrun : ReflTransGen (GuardedStep (LevelOk corners) (clkStep corners)) m₀ m) : Tracks m :=
  (invariant_of_guarded tracks_step ⟨hinit.wellFormed, hinit.tracks⟩ hrun).2

/-! ## Three clients -/

scoped instance neZero_clients : NeZero 3 := ⟨by decide⟩

def kernelCorners : VddCorners where
  corner := ![56, 64, 128, 192, 256, 320, 384, 400, 416]
  strictMono := by decide

def levelClk : Clk where
  roundRate := id
  getVoltage rate := kernelCorners.corner (Fin.ofNat 9 rate.toNat)

/-- An entry of the table as `mmrm_sw_prepare_table` leaves it. -/
def freeEntry (clkSrcId : BitVec 32) : ClkClient where
  clk := none
  pri := .unset
  notifier := false
  clkSrcId
  maxNumHwBlocks := 4
  freq _ := 0
  currentMa _ _ := 0
  client := false
  clkRate := 0
  vddLevel := 0
  reserve := false
  refCount := 0
  numHwBlocks := 0
  isCrmClient := false
  hwDrvInstances := 0
  numPwrStates := 0
  maxRateIdx := 0
  crmClientTbl := []

def freshMgr : ClkMgr 3 where
  clkClientTbl c := freeEntry (BitVec.ofNat 32 c)
  throttleClientsInfo := []
  threshold := 90
  aggregVal := 0
  aggregLevel := 0
  throttledClients := []

def registerClient (id : BitVec 32) : ClkOp 3 :=
  .register
    { clientDomain := 0, clientId := id, clk := some levelClk, pri := .low, notifier := false
      hwDrvInstances := 0, numPwrStates := 0, freq := fun _ => 1, currentMa := fun _ _ => 10 }
    ⟨false, true, true⟩

def setRate (uid : Fin 3) (clkVal : BitVec 64) : ClkOp 3 :=
  .setval uid ⟨1, false, false, 0, 0⟩ clkVal ⟨false, true, true, true, true⟩

theorem freshMgr_initial : freshMgr.Initial :=
  ⟨fun _ => rfl, fun _ => rfl, fun _ => rfl, fun _ => rfl, fun _ => rfl, rfl, rfl, rfl⟩

def threeClients : List (ClkOp 3) := [registerClient 0, registerClient 1, registerClient 2]

/-- The highest client stops; the last of the others is the highest of them. -/
def lastHighest : List (ClkOp 3) :=
  threeClients ++ [setRate 0 5, setRate 1 2, setRate 2 4, setRate 0 0]

/-- The highest client stops; the last of the others is the lowest. -/
def lastLowest : List (ClkOp 3) :=
  threeClients ++ [setRate 0 5, setRate 1 4, setRate 2 2, setRate 0 0]

theorem aggregate_tracked_lastHighest :
    Tracks (lastHighest.foldl (clkStep kernelCorners) freshMgr) :=
  aggregate_tracked freshMgr_initial (guarded_foldl (by decide +kernel))

/-- The conditions of a request but for the scan. -/
def RequestOk (corners : VddCorners) (m : ClkMgr tot) : ClkOp tot → Prop
  | .register _ _ => True
  | .deregister _ => False
  | .setval uid data clkVal env =>
    env.enableThrottle = false ∧ env.clkSet = true ∧
      m.Asks corners uid data clkVal fun reqLevel =>
        m.Fits uid reqLevel ((m.clkClientTbl uid).effective data clkVal) data.numHwBlocks

instance (corners : VddCorners) (m : ClkMgr tot) : (op : ClkOp tot) →
    Decidable (RequestOk corners m op)
  | .register _ _ => inferInstanceAs (Decidable True)
  | .deregister _ => inferInstanceAs (Decidable False)
  | .setval _ _ _ _ => inferInstanceAs (Decidable (_ ∧ _ ∧ _))

/-- The level goes down too far: a client that runs is left above it. -/
theorem aggregate_not_tracked : ¬ ∀ (corners : VddCorners) (m₀ m : ClkMgr 3), m₀.Initial →
    ReflTransGen (GuardedStep (RequestOk corners) (clkStep corners)) m₀ m → Tracks m := by
  intro h
  have htracks := h kernelCorners freshMgr (lastLowest.foldl (clkStep kernelCorners) freshMgr)
    freshMgr_initial (guarded_foldl (by decide +kernel))
  have hle := htracks.le 1
  revert hle
  decide +kernel

end QcomModules.Mmrm
