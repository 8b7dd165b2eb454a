import QcomModules.Ipanat.RuleRuns

/-! The PDN table of `ipa_nat_drvi.c`: allocating, freeing and changing entries, and the
counter `num_pdns` kept beside them. Creating a table sets the first entry and starts the
counter again at 1, whatever the other entries hold. -/

namespace QcomModules.Ipanat

open Function

structure IpaNatPdnEntry where
  publicIp : UInt32
  srcMetadata : UInt32
  dstMetadata : UInt32
  deriving DecidableEq

/-- The entry of zeros that entries are compared with. -/
def zeroTest : IpaNatPdnEntry := ⟨0, 0, 0⟩

/-- The driver with the metadata of its PDNs, which no rule reads. -/
structure PdnDriver where
  driver : NatDriver
  srcMetadata : Nat → UInt32
  dstMetadata : Nat → UInt32

namespace PdnDriver

/-- `pdns[i]`. -/
def pdn (s : PdnDriver) (i : Nat) : IpaNatPdnEntry :=
  ⟨s.driver.pdns i, s.srcMetadata i, s.dstMetadata i⟩

def setPdn (s : PdnDriver) (i : Nat) (entry : IpaNatPdnEntry) : PdnDriver where
  driver := { s.driver with pdns := Function.update s.driver.pdns i entry.publicIp }
  srcMetadata := Function.update s.srcMetadata i entry.srcMetadata
  dstMetadata := Function.update s.dstMetadata i entry.dstMetadata

def setNumPdns (s : PdnDriver) (numPdns : Nat) : PdnDriver :=
  { s with driver := { s.driver with numPdns := numPdns } }

/-- The descriptor that PDN requests go to: that of the DDR cache where it is open. -/
def ipaDesc (s : PdnDriver) : Option Nat :=
  (s.driver.ipv4NatCache .ddr).ipaDesc <|> (s.driver.ipv4NatCache .sram).ipaDesc

end PdnDriver

def ipaNatiModifyPdn (kernel : Kernel) (s : PdnDriver) (pdnIndex : Nat) (entry : IpaNatPdnEntry) :
    Int × PdnDriver :=
  if s.ipaDesc.isNone then (- EIO, s)
  else
    -- IPA_IOC_NAT_MODIFY_PDN
    let (ret, driver) := s.driver.request kernel
    if ret ≠ 0 then (ret, { s with driver := driver })
    else (0, { s with driver := driver }.setPdn pdnIndex entry)

/-- The scan of `ipa_nati_alloc_pdn`: it stops at the first entry with the address, or with
nothing in it. -/
def PdnDriver.allocScan (s : PdnDriver) (publicIp : UInt32) : Option Nat :=
  (List.range (ipaMaxPdnNum - 1)).find? fun i =>
    (s.pdn i).publicIp = publicIp || s.pdn i = zeroTest

/-- `ipa_nati_alloc_pdn`: result, PDN index, state. -/
def ipaNatiAllocPdn (kernel : Kernel) (s : PdnDriver) (pdnInfo : IpaNatPdnEntry) :
    Int × Nat × PdnDriver :=
  if s.driver.numPdns ≥ ipaMaxPdnNum - 1 then (- EIO, 0, s)
  else
    match s.allocScan pdnInfo.publicIp with
    | none => (- EIO, 0, s)
    | some i =>
      -- An entry with the address is returned whatever its metadata.
      if (s.pdn i).publicIp = pdnInfo.publicIp then (0, i, s)
      else
        let (ret, s) := ipaNatiModifyPdn kernel s i pdnInfo
        if ret ≠ 0 then (ret, 0, s) else (0, i, s.setNumPdns (s.driver.numPdns + 1))

def ipaNatiDeallocPdn (kernel : Kernel) (s : PdnDriver) (pdnIndex : Nat) : Int × PdnDriver :=
  if s.driver.numPdns = 0 then (- EIO, s)
  else if s.pdn pdnIndex = zeroTest then (- EIO, s)
  else
    let (ret, s) := ipaNatiModifyPdn kernel s pdnIndex zeroTest
    if ret ≠ 0 then (- EIO, s)
    else
      let s := s.setPdn pdnIndex zeroTest
      (0, s.setNumPdns (s.driver.numPdns - 1))

/-! ## Runs -/

/-- The calls that touch the PDN table or its counter, and the deletion of a table, which
touches neither. -/
inductive PdnCall
  | addIpv4Tbl (nmi : Ipa3NatMemIn) (publicIpAddr : UInt32) (numberOfEntries : Nat)
  | delIpv4Table (tblHdl : Nat)
  | allocPdn (pdnInfo : IpaNatPdnEntry)
  | deallocPdn (pdnIndex : Nat)
  | modifyPdn (pdnIndex : Nat) (entry : IpaNatPdnEntry)

namespace PdnCall

/-- The PDN index is one of `pdns`. -/
def InRange : PdnCall → Prop
  | .deallocPdn pdnIndex => pdnIndex < ipaMaxPdnNum
  | .modifyPdn pdnIndex _ => pdnIndex < ipaMaxPdnNum
  | _ => True

def step (kernel : Kernel) (s : PdnDriver) : PdnCall → PdnDriver
  | .addIpv4Tbl nmi publicIpAddr numberOfEntries =>
    { s with driver := (ipaNATIAddIpv4Tbl kernel s.driver nmi publicIpAddr numberOfEntries).2.2 }
  | .delIpv4Table tblHdl => { s with driver := (ipaNATIDelIpv4Table kernel s.driver tblHdl).2 }
  | .allocPdn pdnInfo => (ipaNatiAllocPdn kernel s pdnInfo).2.2
  | .deallocPdn pdnIndex => (ipaNatiDeallocPdn kernel s pdnIndex).2
  | .modifyPdn pdnIndex entry => (ipaNatiModifyPdn kernel s pdnIndex entry).2

end PdnCall

/-- The number of non-zero entries among those that are allocated. -/
def nonzeroPdns (pdns : Nat → IpaNatPdnEntry) : Nat :=
  Library.occupied 0 (ipaMaxPdnNum - 1) fun i => pdns i ≠ zeroTest

def DistinctIps (pdns : Nat → IpaNatPdnEntry) : Prop :=
  ∀ i j, i < ipaMaxPdnNum → j < ipaMaxPdnNum → pdns i ≠ zeroTest → pdns j ≠ zeroTest →
    (pdns i).publicIp = (pdns j).publicIp → i = j

def withPublicIp (pdns : Nat → IpaNatPdnEntry) (publicIpAddr : UInt32) : Nat → IpaNatPdnEntry :=
  Function.update pdns 0 { pdns 0 with publicIp := publicIpAddr }

/-- The counter says how many entries are in use. -/
def PdnDriver.Counted (s : PdnDriver) : Prop := s.driver.numPdns = nonzeroPdns s.pdn

/-- `ipa_NATI_add_ipv4_tbl` goes through, where the kernel grants its requests. -/
def PdnDriver.AcceptsTbl (s : PdnDriver) (nmi : Ipa3NatMemIn) (numberOfEntries : Nat) : Prop :=
  (s.driver.ipv4NatCache nmi).tableCnt < ipaNatMaxIp4Tbls ∧
    (ipaTableCalculateEntriesNum numberOfEntries nmi).isOk

namespace PdnCall

/-- Where a call leaves the counter right. A table is created where its address leaves one
non-zero entry, what is freed is an entry that was counted, and no change makes a counted
entry zero or a zero entry counted. -/
def KeepsCount (s : PdnDriver) : PdnCall → Prop
  | .addIpv4Tbl nmi publicIpAddr numberOfEntries =>
    s.AcceptsTbl nmi numberOfEntries →
      ∃! i, i < ipaMaxPdnNum - 1 ∧ withPublicIp s.pdn publicIpAddr i ≠ zeroTest
  | .delIpv4Table _ => True
  | .allocPdn _ => True
  | .deallocPdn pdnIndex =>
    s.driver.numPdns ≠ 0 → s.pdn pdnIndex ≠ zeroTest → s.ipaDesc ≠ none →
      pdnIndex < ipaMaxPdnNum - 1
  | .modifyPdn pdnIndex entry =>
    s.ipaDesc ≠ none → pdnIndex < ipaMaxPdnNum - 1 →
      (entry = zeroTest ↔ s.pdn pdnIndex = zeroTest)

/-- Calls that neither free nor change an entry; tables are created where all the entries but the
first are zero. -/
def AllocsAlone (s : PdnDriver) : PdnCall → Prop
  | .addIpv4Tbl nmi _ numberOfEntries =>
    s.AcceptsTbl nmi numberOfEntries → ∀ i, 0 < i → i < ipaMaxPdnNum → s.pdn i = zeroTest
  | .delIpv4Table _ => True
  | .allocPdn _ => True
  | .deallocPdn _ => False
  | .modifyPdn _ _ => False

/-- What a call does to the PDN table and its counter. -/
inductive Effect (s : PdnDriver) : PdnCall → (Nat → IpaNatPdnEntry) → Nat → Prop
  | nothing {call} : call.KeepsCount s → Effect s call s.pdn s.driver.numPdns
  | tbl {nmi publicIpAddr numberOfEntries} : s.AcceptsTbl nmi numberOfEntries →
      Effect s (.addIpv4Tbl nmi publicIpAddr numberOfEntries) (withPublicIp s.pdn publicIpAddr) 1
  | alloc {pdnInfo i} : i < ipaMaxPdnNum - 1 → s.pdn i = zeroTest → pdnInfo.publicIp ≠ 0 →
      (∀ j < i, s.pdn j ≠ zeroTest ∧ (s.pdn j).publicIp ≠ pdnInfo.publicIp) →
      Effect s (.allocPdn pdnInfo) (Function.update s.pdn i pdnInfo) (s.driver.numPdns + 1)
  | dealloc {i} : s.driver.numPdns ≠ 0 → s.pdn i ≠ zeroTest → s.ipaDesc ≠ none →
      Effect s (.deallocPdn i) (Function.update s.pdn i zeroTest) (s.driver.numPdns - 1)
  | modify {i entry} : s.ipaDesc ≠ none →
      Effect s (.modifyPdn i entry) (Function.update s.pdn i entry) s.driver.numPdns

end PdnCall

/-! ## What the calls do -/

namespace PdnDriver

@[simp]
theorem pdn_setPdn (s : PdnDriver) (i : Nat) (entry : IpaNatPdnEntry) :
    (s.setPdn i entry).pdn = Function.update s.pdn i entry := by
  funext j
  by_cases h : j = i
  · simp [pdn, setPdn, h]
  · simp [pdn, setPdn, h]

@[simp]
theorem pdn_setNumPdns (s : PdnDriver) (numPdns : Nat) : (s.setNumPdns numPdns).pdn = s.pdn := rfl

variable {s : PdnDriver} {publicIp : UInt32} {i : Nat}

theorem pdn_of_pdns_eq {driver : NatDriver} (h : driver.pdns = s.driver.pdns) :
    { s with driver := driver }.pdn = s.pdn := by
  funext i
  rw [pdn, h]
  rfl

theorem allocScan_some (h : s.allocScan publicIp = some i) :
    i < ipaMaxPdnNum - 1 ∧ ((s.pdn i).publicIp = publicIp ∨ s.pdn i = zeroTest) ∧
      ∀ j < i, (s.pdn j).publicIp ≠ publicIp ∧ s.pdn j ≠ zeroTest := by
  rw [allocScan, List.find?_range_eq_some] at h
  obtain ⟨hhit, hrange, hbefore⟩ := h
  refine ⟨List.mem_range.mp hrange, by simpa using hhit, fun j hj => ?_⟩
  simpa using hbefore j hj

theorem allocScan_none (h : s.allocScan publicIp = none) (hi : i < ipaMaxPdnNum - 1) :
    s.pdn i ≠ zeroTest := by
  rw [allocScan, List.find?_range_eq_none] at h
  have := h i hi
  simp at this
  exact this.2

end PdnDriver

@[simp]
theorem pdns_closeDescIfUnused (driver : NatDriver) (nmi : Ipa3NatMemIn) :
    (closeDescIfUnused driver nmi).pdns = driver.pdns := by
  rw [closeDescIfUnused]
  split <;> rfl

@[simp]
theorem numPdns_closeDescIfUnused (driver : NatDriver) (nmi : Ipa3NatMemIn) :
    (closeDescIfUnused driver nmi).numPdns = driver.numPdns := by
  rw [closeDescIfUnused]
  split <;> rfl

theorem calculateEntriesNum_error {numberOfEntries : Nat} {nmi : Ipa3NatMemIn} {ret : Int}
    (h : ipaTableCalculateEntriesNum numberOfEntries nmi = .error ret) : ret ≠ 0 := by
  simp only [ipaTableCalculateEntriesNum] at h
  split_ifs at h <;> (cases h; decide)

section
variable {kernel : Kernel} (hok : ∀ n, kernel.request n = 0)
include hok

variable {s : PdnDriver} {nmi : Ipa3NatMemIn} {numberOfEntries : Nat}

theorem modifyPdn_of_open (hopen : s.ipaDesc ≠ none) (i : Nat) (entry : IpaNatPdnEntry) :
    ipaNatiModifyPdn kernel s i entry =
      (0, { s with driver := (s.driver.request kernel).2 }.setPdn i entry) := by
  have hsome : s.ipaDesc.isNone = false := by
    cases h : s.ipaDesc with
    | none => exact absurd h hopen
    | some desc => rfl
  simp [ipaNatiModifyPdn, hsome, NatDriver.request, hok]

omit hok in
theorem modifyPdn_of_closed (hclosed : s.ipaDesc = none) (i : Nat) (entry : IpaNatPdnEntry) :
    ipaNatiModifyPdn kernel s i entry = (- EIO, s) := by
  simp [ipaNatiModifyPdn, hclosed]

theorem openDesc_fst (driver : NatDriver) (nmi : Ipa3NatMemIn) :
    (driver.openDesc kernel nmi).1 = 0 := by
  simp only [NatDriver.openDesc, NatDriver.request, hok, ne_eq, not_true_eq_false, if_false]
  split <;> rfl

theorem openDesc_pdns (driver : NatDriver) (nmi : Ipa3NatMemIn) :
    (driver.openDesc kernel nmi).2.pdns = driver.pdns ∧
      (driver.openDesc kernel nmi).2.numPdns = driver.numPdns := by
  simp only [NatDriver.openDesc, NatDriver.request, hok, ne_eq, not_true_eq_false, if_false]
  split <;> exact ⟨rfl, rfl⟩

theorem delTable_pdns (driver : NatDriver) (tblHdl : Nat) :
    (ipaNATIDelIpv4Table kernel driver tblHdl).2.pdns = driver.pdns ∧
      (ipaNATIDelIpv4Table kernel driver tblHdl).2.numPdns = driver.numPdns := by
  rw [ipaNATIDelIpv4Table]
  split
  · exact ⟨rfl, rfl⟩
  · simp only [ipaNatiDestroyTable, NatDriver.request, hok, ne_eq, not_true_eq_false, if_false]
    exact ⟨pdns_closeDescIfUnused .., numPdns_closeDescIfUnused ..⟩

theorem addTbl_of_accepts (h : s.AcceptsTbl nmi numberOfEntries) (publicIpAddr : UInt32) :
    (ipaNATIAddIpv4Tbl kernel s.driver nmi publicIpAddr numberOfEntries).1 = 0 := by
  obtain ⟨hcnt, hsize⟩ := h
  cases hcalc : ipaTableCalculateEntriesNum numberOfEntries nmi with
  | error ret => simp [hcalc, Except.isOk, Except.toBool] at hsize
  | ok dims =>
    simp only [ipaNATIAddIpv4Tbl, Nat.not_le.mpr hcnt, if_false, openDesc_fst hok,
      ne_eq, not_true_eq_false, ipaNatiCreateTable, hcalc, NatDriver.request, hok]

theorem addTbl_of_not_accepts (h : ¬ s.AcceptsTbl nmi numberOfEntries) (publicIpAddr : UInt32) :
    let driver' := (ipaNATIAddIpv4Tbl kernel s.driver nmi publicIpAddr numberOfEntries).2.2
    driver'.pdns = s.driver.pdns ∧ driver'.numPdns = s.driver.numPdns := by
  by_cases hcnt : (s.driver.ipv4NatCache nmi).tableCnt < ipaNatMaxIp4Tbls
  · have hsize : ¬ (ipaTableCalculateEntriesNum numberOfEntries nmi).isOk :=
      fun hsize => h ⟨hcnt, hsize⟩
    cases hcalc : ipaTableCalculateEntriesNum numberOfEntries nmi with
    | ok dims => simp [hcalc, Except.isOk, Except.toBool] at hsize
    | error ret =>
      simp only [ipaNATIAddIpv4Tbl, Nat.not_le.mpr hcnt, if_false, openDesc_fst hok,
        ne_eq, not_true_eq_false, ipaNatiCreateTable, hcalc, calculateEntriesNum_error hcalc,
        not_false_eq_true, if_true, pdns_closeDescIfUnused, numPdns_closeDescIfUnused,
        openDesc_pdns hok, and_self]
  · simp only [ipaNATIAddIpv4Tbl, ge_iff_le, Nat.not_lt.mp hcnt, if_true, and_self]

theorem allocPdn_effect (s : PdnDriver) (pdnInfo : IpaNatPdnEntry) :
    PdnCall.Effect s (.allocPdn pdnInfo) ((PdnCall.allocPdn pdnInfo).step kernel s).pdn
      ((PdnCall.allocPdn pdnInfo).step kernel s).driver.numPdns := by
  rw [PdnCall.step, ipaNatiAllocPdn]
  split
  · exact .nothing trivial
  · split
    · exact .nothing trivial
    · next i hscan =>
        obtain ⟨hi, hhit, hbefore⟩ := PdnDriver.allocScan_some hscan
        split
        · exact .nothing trivial
        · next hip =>
            by_cases hopen : s.ipaDesc = none
            · rw [modifyPdn_of_closed hopen]
              exact .nothing trivial
            · have hzero : s.pdn i = zeroTest := hhit.resolve_left hip
              have hne : pdnInfo.publicIp ≠ 0 := by
                rw [hzero] at hip
                exact Ne.symm hip
              rw [modifyPdn_of_open hok hopen]
              simp only [ne_eq, not_true_eq_false, if_false, PdnDriver.pdn_setNumPdns,
                PdnDriver.pdn_setPdn]
              exact .alloc hi hzero hne fun j hj => ⟨(hbefore j hj).2, (hbefore j hj).1⟩

theorem step_effect (s : PdnDriver) (call : PdnCall) :
    call.Effect s (call.step kernel s).pdn (call.step kernel s).driver.numPdns := by
  cases call with
  | addIpv4Tbl nmi publicIpAddr numberOfEntries =>
    by_cases haccept : s.AcceptsTbl nmi numberOfEntries
    · have hret := addTbl_of_accepts hok haccept publicIpAddr
      obtain ⟨-, _, _, _, _, -, hdriver⟩ := addTbl_ok (Prod.ext hret rfl)
      have hpdn : (PdnCall.step kernel s (.addIpv4Tbl nmi publicIpAddr numberOfEntries)).pdn =
          withPublicIp s.pdn publicIpAddr := by
        rw [PdnCall.step, hdriver]
        funext i
        by_cases hi : i = 0
        · simp [PdnDriver.pdn, withPublicIp, hi]
        · simp [PdnDriver.pdn, withPublicIp, hi]
      rw [hpdn, PdnCall.step, hdriver]
      exact .tbl haccept
    · obtain ⟨hpdns, hnum⟩ := addTbl_of_not_accepts hok haccept publicIpAddr
      rw [PdnCall.step, PdnDriver.pdn_of_pdns_eq hpdns, hnum]
      exact .nothing fun h => absurd h haccept
  | delIpv4Table tblHdl =>
    obtain ⟨hpdns, hnum⟩ := delTable_pdns hok s.driver tblHdl
    rw [PdnCall.step, PdnDriver.pdn_of_pdns_eq hpdns, hnum]
    exact .nothing trivial
  | allocPdn pdnInfo => exact allocPdn_effect hok s pdnInfo
  | deallocPdn i =>
    rw [PdnCall.step, ipaNatiDeallocPdn]
    split
    · next hnum => exact .nothing fun h => absurd hnum h
    · next hnum =>
        split
        · next hzero => exact .nothing fun _ h => absurd hzero h
        · next hzero =>
            by_cases hopen : s.ipaDesc = none
            · rw [modifyPdn_of_closed hopen]
              exact .nothing fun _ _ h => absurd hopen h
            · rw [modifyPdn_of_open hok hopen]
              simp only [ne_eq, not_true_eq_false, if_false, PdnDriver.pdn_setNumPdns,
                PdnDriver.pdn_setPdn, update_idem]
              exact .dealloc hnum hzero hopen
  | modifyPdn i entry =>
    rw [PdnCall.step]
    by_cases hopen : s.ipaDesc = none
    · rw [modifyPdn_of_closed hopen]
      exact .nothing fun h => absurd hopen h
    · rw [modifyPdn_of_open hok hopen, PdnDriver.pdn_setPdn]
      exact .modify hopen

end

/-! ## Counting the entries -/

variable {i numPdns : Nat} {pdns : Nat → IpaNatPdnEntry} {s : PdnDriver}

theorem nonzeroPdns_update (hi : i < ipaMaxPdnNum - 1) (pdns : Nat → IpaNatPdnEntry)
    (entry : IpaNatPdnEntry) :
    nonzeroPdns (Function.update pdns i entry) + (decide (pdns i ≠ zeroTest)).toNat =
      nonzeroPdns pdns + (decide (entry ≠ zeroTest)).toNat := by
  have hset : (fun j => decide (update pdns i entry j ≠ zeroTest)) =
      update (fun j => decide (pdns j ≠ zeroTest)) i (decide (entry ≠ zeroTest)) := by
    funext j
    by_cases h : j = i
    · simp [h]
    · simp [h]
  rw [nonzeroPdns, hset]
  exact Library.occupied_update _ _ (Nat.zero_le i) hi

theorem nonzeroPdns_update_of_le (hi : ipaMaxPdnNum - 1 ≤ i) (pdns : Nat → IpaNatPdnEntry)
    (entry : IpaNatPdnEntry) : nonzeroPdns (Function.update pdns i entry) = nonzeroPdns pdns := by
  refine Library.occupied_congr fun j _ hj => ?_
  rw [update_of_ne (by omega)]

theorem nonzeroPdns_eq_one_iff (pdns : Nat → IpaNatPdnEntry) :
    nonzeroPdns pdns = 1 ↔ ∃! i, i < ipaMaxPdnNum - 1 ∧ pdns i ≠ zeroTest := by
  rw [nonzeroPdns, Library.occupied, Finset.card_eq_one]
  refine exists_congr fun i => ?_
  simp only [Finset.ext_iff, Finset.mem_filter, Finset.mem_Ico, Nat.zero_le, true_and,
    Finset.mem_singleton, decide_eq_true_eq]
  exact ⟨fun h => ⟨(h i).mpr rfl, fun j => (h j).mp⟩,
    fun h j => ⟨h.2 j, fun hj => hj ▸ h.1⟩⟩

theorem nonzeroPdns_lt (hi : i < ipaMaxPdnNum - 1) (hzero : pdns i = zeroTest) :
    nonzeroPdns pdns < ipaMaxPdnNum - 1 := by
  have hupdate := nonzeroPdns_update hi pdns ⟨1, 0, 0⟩
  have hle : nonzeroPdns (update pdns i ⟨1, 0, 0⟩) ≤ ipaMaxPdnNum - 1 - 0 :=
    Library.occupied_le ..
  rw [hzero] at hupdate
  simp [zeroTest] at hupdate
  omega

theorem PdnCall.Effect.counted_iff {call : PdnCall} (h : call.Effect s pdns numPdns)
    (hcount : s.Counted) : numPdns = nonzeroPdns pdns ↔ call.KeepsCount s := by
  cases h with
  | nothing hkeeps => exact iff_of_true hcount hkeeps
  | tbl haccept =>
    rw [eq_comm, nonzeroPdns_eq_one_iff]
    exact ⟨fun h _ => h, fun h => h haccept⟩
  | @alloc pdnInfo i hi hzero hne hbefore =>
    have hupdate := nonzeroPdns_update hi s.pdn pdnInfo
    have hentry : pdnInfo ≠ zeroTest := fun h => hne (by rw [h]; rfl)
    simp only [hzero, hentry, ne_eq, not_true_eq_false, not_false_eq_true, decide_false,
      decide_true, Bool.toNat_false, Bool.toNat_true, Nat.add_zero] at hupdate
    rw [hupdate, ← hcount]
    exact iff_of_true rfl trivial
  | @dealloc i hnum hne hopen =>
    rw [PdnDriver.Counted] at hcount
    by_cases hi : i < ipaMaxPdnNum - 1
    · have hupdate := nonzeroPdns_update hi s.pdn zeroTest
      simp only [hne, ne_eq, not_true_eq_false, not_false_eq_true, decide_false, decide_true,
        Bool.toNat_false, Bool.toNat_true, Nat.add_zero] at hupdate
      exact iff_of_true (by omega) fun _ _ _ => hi
    · rw [nonzeroPdns_update_of_le (Nat.not_lt.mp hi)]
      exact iff_of_false (by omega) fun h => hi (h hnum hne hopen)
  | @modify i entry hopen =>
    rw [PdnDriver.Counted] at hcount
    by_cases hi : i < ipaMaxPdnNum - 1
    · have hupdate := nonzeroPdns_update hi s.pdn entry
      have hsame : s.driver.numPdns = nonzeroPdns (update s.pdn i entry) ↔
          (entry = zeroTest ↔ s.pdn i = zeroTest) := by
        by_cases hentry : entry = zeroTest <;> by_cases hpdn : s.pdn i = zeroTest <;>
          simp [hentry, hpdn] at hupdate ⊢ <;> omega
      exact hsame.trans ⟨fun h _ _ => h, fun h => h hopen hi⟩
    · rw [nonzeroPdns_update_of_le (Nat.not_lt.mp hi)]
      exact iff_of_true hcount fun _ h => absurd h hi

/-! ## Distinct addresses -/

/-- The non-zero entries come first, and no two of them share an address. -/
def Packed (pdns : Nat → IpaNatPdnEntry) : Prop :=
  ∃ k ≤ ipaMaxPdnNum - 1, (∀ i < k, pdns i ≠ zeroTest) ∧
    (∀ i, k ≤ i → i < ipaMaxPdnNum → pdns i = zeroTest) ∧
      ∀ i j, i < k → j < k → (pdns i).publicIp = (pdns j).publicIp → i = j

theorem Packed.distinctIps (h : Packed pdns) : DistinctIps pdns := by
  obtain ⟨k, -, -, hzero, hdistinct⟩ := h
  intro i j hi hj hnei hnej
  exact hdistinct i j (Nat.lt_of_not_le fun hle => hnei (hzero i hle hi))
    (Nat.lt_of_not_le fun hle => hnej (hzero j hle hj))

theorem PdnCall.Effect.packed {call : PdnCall} (h : call.Effect s pdns numPdns)
    (hpacked : Packed s.pdn) (halone : call.AllocsAlone s) : Packed pdns := by
  cases h with
  | nothing _ => exact hpacked
  | @tbl nmi publicIpAddr numberOfEntries haccept =>
    have hrest : ∀ i, 0 < i → i < ipaMaxPdnNum → withPublicIp s.pdn publicIpAddr i = zeroTest :=
      fun i hi hlt => by
        rw [withPublicIp, update_of_ne (by omega)]
        exact halone haccept i hi hlt
    by_cases hfirst : withPublicIp s.pdn publicIpAddr 0 = zeroTest
    · refine ⟨0, Nat.zero_le _, fun i hi => absurd hi (Nat.not_lt_zero i), fun i _ hlt => ?_,
        fun i _ hi => absurd hi (Nat.not_lt_zero i)⟩
      rcases Nat.eq_zero_or_pos i with rfl | hpos
      · exact hfirst
      · exact hrest i hpos hlt
    · refine ⟨1, by decide, fun i hi => ?_, fun i hi => hrest i hi, fun i j hi hj _ => by omega⟩
      rwa [Nat.lt_one_iff.mp hi]
  | @alloc pdnInfo i hi hzero hne hbefore =>
    obtain ⟨k, hk, hused, hfree, hdistinct⟩ := hpacked
    have hik : i = k := by
      refine Nat.le_antisymm (Nat.le_of_not_lt fun hlt => ?_) (Nat.le_of_not_lt fun hlt => ?_)
      · exact (hbefore k hlt).1 (hfree k le_rfl (by omega))
      · exact hused i hlt hzero
    subst hik
    have hentry : pdnInfo ≠ zeroTest := fun h => hne (by rw [h]; rfl)
    refine ⟨i + 1, hi, fun j hj => ?_, fun j hj hlt => ?_, fun j l hj hl hip => ?_⟩
    · by_cases h : j = i
      · rwa [h, update_self]
      · rw [update_of_ne h]
        exact hused j (by omega)
    · rw [update_of_ne (by omega)]
      exact hfree j (by omega) hlt
    · by_cases hji : j = i <;> by_cases hli : l = i
      · rw [hji, hli]
      · rw [hji, update_self, update_of_ne hli] at hip
        exact absurd hip.symm (hbefore l (by omega)).2
      · rw [hli, update_self, update_of_ne hji] at hip
        exact absurd hip (hbefore j (by omega)).2
      · rw [update_of_ne hji, update_of_ne hli] at hip
        exact hdistinct j l (by omega) (by omega) hip
  | dealloc => exact halone.elim
  | modify => exact halone.elim

/-! ## Allocating -/

namespace PdnDriver

/-- The scan for an address meets it no later than the first zero entry. -/
def HoldsIp (s : PdnDriver) (publicIp : UInt32) : Prop :=
  ∃ i, i < ipaMaxPdnNum - 1 ∧ (s.pdn i).publicIp = publicIp ∧ ∀ j < i, s.pdn j ≠ zeroTest

variable {s : PdnDriver} {i : Nat}

theorem allocScan_holds {publicIp : UInt32} (h : s.allocScan publicIp = some i) :
    (s.pdn i).publicIp = publicIp ↔ s.HoldsIp publicIp := by
  obtain ⟨hi, hhit, hbefore⟩ := allocScan_some h
  constructor
  · exact fun hip => ⟨i, hi, hip, fun j hj => (hbefore j hj).2⟩
  · rintro ⟨l, hl, hip, hl'⟩
    rcases Nat.lt_trichotomy l i with hlt | rfl | hlt
    · exact absurd hip (hbefore l hlt).1
    · exact hip
    · exact hhit.resolve_right (hl' i hlt)

theorem Counted.alloc_ret_iff {kernel : Kernel} (hok : ∀ n, kernel.request n = 0)
    (hcount : s.Counted) (hi : i < ipaMaxPdnNum - 1) (hzero : s.pdn i = zeroTest)
    (pdnInfo : IpaNatPdnEntry) :
    (ipaNatiAllocPdn kernel s pdnInfo).1 = 0 ↔ s.ipaDesc ≠ none ∨ s.HoldsIp pdnInfo.publicIp := by
  have hroom : ¬ s.driver.numPdns ≥ ipaMaxPdnNum - 1 := by
    rw [hcount]
    exact Nat.not_le.mpr (nonzeroPdns_lt hi hzero)
  rw [ipaNatiAllocPdn, if_neg hroom]
  cases hscan : s.allocScan pdnInfo.publicIp with
  | none => exact absurd hzero (allocScan_none hscan hi)
  | some l =>
    rw [← allocScan_holds hscan]
    by_cases hip : (s.pdn l).publicIp = pdnInfo.publicIp
    · simp [hip]
    · by_cases hopen : s.ipaDesc = none
      · simp [hip, hopen, modifyPdn_of_closed hopen, EIO]
      · simp [hip, hopen, modifyPdn_of_open hok hopen]

end PdnDriver

/-! ## Runs -/

/-- Where every call keeps the count, the counter is right in every state, the next call keeps it
so exactly where it meets the condition, and an allocation fails beside a zero entry only where
no descriptor is open. Allocations over tables that start empty share no address. -/
theorem pdnTable_of_run {kernel : Kernel} (hok : ∀ n, kernel.request n = 0) {s s' : PdnDriver}
    (hzero : ∀ i, s.pdn i = zeroTest) (hnum : s.driver.numPdns = 0) :
    (Relation.ReflTransGen
        (Library.GuardedStep (fun s call => call.InRange ∧ call.KeepsCount s)
          (PdnCall.step kernel)) s s' →
      s'.Counted ∧
      (∀ call : PdnCall, call.InRange → ((call.step kernel s').Counted ↔ call.KeepsCount s')) ∧
      ∀ pdnInfo, (∃ i, i < ipaMaxPdnNum - 1 ∧ s'.pdn i = zeroTest) →
        ((ipaNatiAllocPdn kernel s' pdnInfo).1 = 0 ↔
          s'.ipaDesc ≠ none ∨ s'.HoldsIp pdnInfo.publicIp)) ∧
    (Relation.ReflTransGen
        (Library.GuardedStep (fun s call => call.AllocsAlone s) (PdnCall.step kernel)) s s' →
      DistinctIps s'.pdn) := by
  constructor
  · intro hrun
    have hstart : s.Counted := by
      rw [PdnDriver.Counted, hnum, nonzeroPdns, Library.occupied]
      simp [hzero]
    have hcount : s'.Counted :=
      Library.invariant_of_guarded (fun s call hcount hcall =>
        ((step_effect hok s call).counted_iff hcount).mpr hcall.2) hstart hrun
    refine ⟨hcount, fun call _ => (step_effect hok s' call).counted_iff hcount, ?_⟩
    rintro pdnInfo ⟨_, hi, hfree⟩
    exact hcount.alloc_ret_iff hok hi hfree pdnInfo
  · intro hrun
    have hstart : Packed s.pdn :=
      ⟨0, Nat.zero_le _, fun i hi => absurd hi (Nat.not_lt_zero i), fun i _ _ => hzero i,
        fun i _ hi => absurd hi (Nat.not_lt_zero i)⟩
    have hpacked : Packed s'.pdn :=
      Library.invariant_of_guarded (fun s call hpacked halone =>
        (step_effect hok s call).packed hpacked halone) hstart hrun
    exact hpacked.distinctIps

def samplePdnDriver : PdnDriver := ⟨sampleDriver, fun _ => 0, fun _ => 0⟩

def samplePdnRun (calls : List PdnCall) : PdnDriver :=
  calls.foldl (PdnCall.step sampleKernel) samplePdnDriver

theorem samplePdnDriver_keepsCount :
    (PdnCall.addIpv4Tbl .ddr 1 2).KeepsCount samplePdnDriver := by
  refine fun _ => ⟨0, ⟨by decide, by decide⟩, fun i hi => ?_⟩
  by_contra hne
  exact hi.2 (update_of_ne hne _ _)

theorem samplePdnRun_counted :
    let s := samplePdnRun [.addIpv4Tbl .ddr 1 2, .allocPdn ⟨2, 0, 0⟩]
    nonzeroPdns s.pdn = 2 ∧ s.Counted ∧ DistinctIps s.pdn := by
  intro s
  have hguarded : Relation.ReflTransGen
      (Library.GuardedStep (fun s call => call.InRange ∧ call.KeepsCount s)
        (PdnCall.step sampleKernel)) samplePdnDriver s :=
    (Relation.ReflTransGen.refl.tail
      ⟨.addIpv4Tbl .ddr 1 2, ⟨trivial, samplePdnDriver_keepsCount⟩, rfl⟩).tail
      ⟨.allocPdn ⟨2, 0, 0⟩, ⟨trivial, trivial⟩, rfl⟩
  have halone : Relation.ReflTransGen (Library.GuardedStep (fun s call => call.AllocsAlone s)
      (PdnCall.step sampleKernel)) samplePdnDriver s :=
    (Relation.ReflTransGen.refl.tail ⟨.addIpv4Tbl .ddr 1 2, fun _ _ _ _ => rfl, rfl⟩).tail
      ⟨.allocPdn ⟨2, 0, 0⟩, trivial, rfl⟩
  have hok : ∀ n, sampleKernel.request n = 0 := fun _ => rfl
  exact ⟨by decide +kernel, ((pdnTable_of_run hok (fun _ => rfl) rfl).1 hguarded).1,
    (pdnTable_of_run hok (fun _ => rfl) rfl).2 halone⟩

/-- A second table is created while an entry allocated under the first is still there. -/
theorem second_table_not_counted :
    let s := samplePdnRun [.addIpv4Tbl .ddr 1 2, .allocPdn ⟨2, 0, 0⟩,
      .delIpv4Table (makeTblHdl 1 .ddr), .addIpv4Tbl .ddr 1 2]
    s.driver.numPdns = 1 ∧ nonzeroPdns s.pdn = 2 := by
  decide +kernel

end QcomModules.Ipanat
