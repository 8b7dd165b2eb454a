import QcomModules.Wlan.RsnElement

/-! Reading back the RSN element that was written. -/

namespace QcomModules.Wlan

open Library List

/-! ## What stands at the read pointer -/

/-- The bytes that are left for the reader. -/
structure RsnCursor.At (c : RsnCursor) (m : Library.Mem) (bs : List Byte) : Prop where
  holds : m.Holds c.frm bs
  len : c.len.toNat = bs.length

namespace RsnCursor.At

variable {c : RsnCursor} {m : Library.Mem} {xs bs : List Byte}

theorem advance (h : c.At m (xs ++ bs)) {k : ℕ} (hk : k = xs.length) : (c.advance k).At m bs := by
  subst hk
  refine ⟨h.holds.right, ?_⟩
  have hlen := h.len
  rw [length_append] at hlen
  have hlt := c.len.isLt
  rw [RsnCursor.advance]
  dsimp only
  rw [BitVec.toNat_sub, BitVec.toNat_ofNat]
  omega

theorem setParams (h : c.At m bs) (params : CryptoParams) : (c.setParams params).At m bs :=
  ⟨h.holds, h.len⟩

theorem len_eq_zero (h : c.At m []) : c.len = 0 := BitVec.eq_of_toNat_eq h.len

theorem len_ne_zero (h : c.At m bs) (hbs : bs ≠ []) : c.len ≠ 0 := by
  intro hzero
  have hlen := h.len
  rw [hzero] at hlen
  exact hbs (eq_nil_of_length_eq_zero hlen.symm)

theorem le_len (h : c.At m (xs ++ bs)) : xs.length ≤ c.len.toNat := by
  rw [h.len, length_append]
  exact Nat.le_add_right ..

theorem read16 {w : BitVec 16} (h : c.At m (bytes16 w ++ bs)) : m.read16 c.frm = w :=
  h.holds.left.read16

theorem read32 {w : BitVec 32} (h : c.At m (bytes32 w ++ bs)) : m.read32 c.frm = w :=
  h.holds.left.read32

end RsnCursor.At

/-! ## Lists of suites -/

theorem suitesAt_eq {m : Library.Mem} {frm : ℕ} {suites : List (BitVec 32)}
    (h : m.Holds frm (suites.flatMap bytes32)) : suitesAt m frm suites.length = suites := by
  induction suites generalizing frm with
  | nil => rfl
  | cons w suites ih =>
    rw [flatMap_cons] at h
    have hrest : suitesAt m (frm + 4) suites.length = suites := ih h.right
    rw [suitesAt] at hrest ⊢
    rw [length_cons, range_succ_eq_map, map_cons, map_map]
    refine cons_eq_cons.2 ⟨h.left.read32, Eq.trans (map_congr_left fun i _ => ?_) hrest⟩
    rw [Function.comp_apply, Nat.add_assoc, Nat.mul_succ, Nat.add_comm 4]

theorem length_flatMap_bytes32 (suites : List (BitVec 32)) :
    (suites.flatMap bytes32).length = 4 * suites.length := by
  induction suites with
  | nil => rfl
  | cons w suites ih =>
    rw [flatMap_cons, length_append, ih, length_bytes32, length_cons]
    omega

theorem suiteList_eq {suites : List (BitVec 32)} (h : suites.length < 256) :
    suiteList suites = bytes16 (BitVec.ofNat 16 suites.length) ++ suites.flatMap bytes32 := by
  have hlow : (BitVec.ofNat 16 suites.length).setWidth 8 = BitVec.ofNat 8 suites.length :=
    BitVec.setWidth_ofNat_of_le (by decide) _
  have hhigh : ((BitVec.ofNat 16 suites.length) >>> 8).setWidth 8 = (0 : Byte) := by
    refine (byte_eq_iff _ _).2 ?_
    rw [BitVec.toNat_ofNat, show (0 : Byte).toNat = 0 from rfl]
    omega
  rw [suiteList, bytes16, hlow, hhigh]

variable {α : Type} {k : KeyMgmt} {w : CipherType}

theorem filterMap_decode {encode : α → BitVec 32} {decode : BitVec 32 → Option α} {xs : List α}
    (h : ∀ x ∈ xs, decode (encode x) = some x) : (xs.map encode).filterMap decode = xs := by
  induction xs with
  | nil => rfl
  | cons x xs ih =>
    rw [map_cons, filterMap_cons_some (h x mem_cons_self),
      ih fun y hy => h y (mem_cons_of_mem x hy)]

theorem foldl_setUcastCipher (params : CryptoParams) (cs : List CipherType) :
    cs.foldl CryptoParams.setUcastCipher params =
      { params with ucastcipherset := setParams params.ucastcipherset (cs.map (·.value)) } := by
  induction cs generalizing params with
  | nil => rfl
  | cons c cs ih =>
    rw [foldl_cons, ih]
    rfl

theorem foldl_setKeyMgmt (params : CryptoParams) (ks : List KeyMgmt) :
    ∃ akmList, ks.foldl (fun params k => (params.setKeyMgmt k).storeAkm k) params =
      { params with
        keyMgmt := setParams params.keyMgmt (ks.map (·.value)), akmList := akmList } := by
  induction ks generalizing params with
  | nil => exact ⟨params.akmList, rfl⟩
  | cons k ks ih =>
    obtain ⟨akmList, h⟩ := ih ((params.setKeyMgmt k).storeAkm k)
    refine ⟨akmList, ?_⟩
    rw [foldl_cons, h, CryptoParams.storeAkm]
    split <;> rfl

/-! ## One field after another -/

section

variable {m : Library.Mem} {c : RsnCursor}

theorem rsnCheckBip_nil (h : c.At m []) :
    rsnCheckBip m c =
      .ok (if c.params.MfpEnabled then c.params.setMgmtCipher .aesCmac else c.params) := by
  rw [rsnCheckBip, if_pos h.len_eq_zero]

variable {w : CipherType}

theorem rsnCheckBip_suite (hw : rsnSuiteToCipher (rsnCipherToSuite w) = some w) {rest : List Byte}
    (h : c.At m (bytes32 (rsnCipherToSuite w) ++ rest)) :
    rsnCheckBip m c = .ok (c.params.setMgmtCipher w) := by
  have hlen := h.le_len
  rw [length_bytes32] at hlen
  have hne : c.len ≠ 0 := h.len_ne_zero (append_ne_nil_of_left_ne_nil (by simp [bytes32]) _)
  rw [rsnCheckBip, if_neg hne, if_neg (Nat.not_lt.2 hlen), h.read32, hw]

theorem rsnCheckPmkid_nil (h : c.At m []) : rsnCheckPmkid m c = rsnCheckBip m c := by
  have hzero := h.len_eq_zero
  rw [rsnCheckPmkid, if_neg (by rw [hzero]; decide), if_neg (by rw [hzero]; decide)]

theorem rsnCheckPmkid_list {pmkids : List (Fin 16 → Byte)} (hcount : pmkids.length < 2 ^ 16)
    {rest : List Byte} (h : c.At m (pmkidList pmkids ++ rest)) :
    ∃ c' : RsnCursor, c'.At m rest ∧ c'.params = c.params ∧
      rsnCheckPmkid m c = rsnCheckBip m c' := by
  rw [pmkidList, append_assoc] at h
  have hlen : 2 ≤ c.len.toNat := h.le_len
  have hn : (m.read16 c.frm).toNat = pmkids.length := by
    rw [h.read16, BitVec.toNat_ofNat, Nat.mod_eq_of_lt hcount]
  have hbytes : pmkids.length * 16 = (pmkids.flatMap ofFn).length := by
    rw [length_flatMap]
    simp
  have hnext := h.advance (k := 2) rfl
  have hle := hnext.le_len
  rw [rsnCheckPmkid, if_pos hlen]
  dsimp only
  rw [hn]
  by_cases hnone : pmkids.length = 0
  · rw [if_neg (by simp [hnone]), if_neg (by simp [hnone])]
    refine ⟨c.advance 2, ?_, rfl, rfl⟩
    rwa [eq_nil_of_length_eq_zero hnone, flatMap_nil, nil_append] at hnext
  · have hne : (c.advance 2).len ≠ 0 := by
      refine hnext.len_ne_zero fun hnil => ?_
      have hzero := congrArg length (append_eq_nil_iff.1 hnil).1
      rw [← hbytes, length_nil] at hzero
      omega
    rw [if_pos ⟨hnone, hne⟩, if_pos (hbytes ▸ hle)]
    exact ⟨(c.advance 2).advance (pmkids.length * 16), hnext.advance hbytes, rfl, rfl⟩

theorem rsnCheckCaps_eq {caps : BitVec 16} {rest : List Byte}
    (h : c.At m (bytes16 caps ++ rest)) :
    ∃ c' : RsnCursor, c'.At m rest ∧ c'.params = { c.params with rsnCaps := caps } ∧
      rsnCheckCaps m c = rsnCheckPmkid m c' := by
  have hlen : 2 ≤ c.len.toNat := h.le_len
  rw [rsnCheckCaps, if_pos hlen, h.read16]
  exact ⟨_, (h.setParams _).advance rfl, rfl, rfl⟩

theorem RsnCursor.At.suites {suites : List (BitVec 32)} (hcount : suites.length < 256)
    {rest : List Byte} (h : c.At m (suiteList suites ++ rest)) :
    2 ≤ c.len.toNat ∧ (m.read16 c.frm).toNat = suites.length ∧
      suites.length * 4 ≤ (c.advance 2).len.toNat ∧
      suitesAt m (c.advance 2).frm suites.length = suites ∧
      ((c.advance 2).advance (suites.length * 4)).At m rest := by
  rw [suiteList_eq hcount, append_assoc] at h
  have hbytes : suites.length * 4 = (suites.flatMap bytes32).length := by
    rw [length_flatMap_bytes32, Nat.mul_comm]
  have hnext := h.advance (k := 2) rfl
  refine ⟨h.le_len, ?_, hbytes ▸ hnext.le_len, suitesAt_eq hnext.holds.left, hnext.advance hbytes⟩
  rw [h.read16, BitVec.toNat_ofNat]
  omega

theorem len_ne_zero_of_le {len : BitVec 8} {k : ℕ} (hk : 0 < k) (h : k ≤ len.toNat) : len ≠ 0 := by
  rintro rfl
  exact absurd h (Nat.not_le.2 hk)

theorem setParams_ne_zero {vs : List ℕ} (hvs : vs ≠ []) (hlt : ∀ v ∈ vs, v < 32) :
    setParams 0 vs ≠ 0 := by
  obtain ⟨v, hv⟩ := exists_mem_of_ne_nil vs hvs
  intro hzero
  have hbit := getLsbD_setParams 0 vs v
  rw [hzero, decide_eq_true ⟨hlt v hv, hv⟩, Bool.or_true] at hbit
  exact absurd (hbit.symm.trans BitVec.getLsbD_zero) (by decide)

theorem rsnCheckKeyMgmt_eq {ks : List KeyMgmt} (hcount : ks.length < 256)
    (hks : ∀ k ∈ ks, rsnSuiteToKeymgmt (rsnKeymgmtToSuite k) = some k) {rest : List Byte}
    (h : c.At m (suiteList (ks.map rsnKeymgmtToSuite) ++ rest)) (hparams : c.params.keyMgmt = 0) :
    ∃ (c' : RsnCursor) (akmList : List KeyMgmt), c'.At m rest ∧
      c'.params = { c.params with
        keyMgmt := setParams 0 ((if ks = [] then [.ieee8021x] else ks).map KeyMgmt.value),
        akmList := akmList } ∧
      rsnCheckKeyMgmt m c = rsnCheckCaps m c' := by
  have hcount' : (ks.map rsnKeymgmtToSuite).length < 256 := by rwa [length_map]
  obtain ⟨hlen, hn, hle, hsuites, hnext⟩ := h.suites hcount'
  rw [length_map] at hn hle hsuites hnext
  have hvalue : setParams 0 ((if ks = [] then [.ieee8021x] else ks).map KeyMgmt.value) ≠ 0 := by
    refine setParams_ne_zero ?_ fun v hv => ?_
    · split <;> simp_all
    · obtain ⟨k, -, rfl⟩ := mem_map.1 hv
      exact k.value_lt
  have hfold : ∃ akmList,
      (if ks.length ≠ 0 then
        ((suitesAt m (c.advance 2).frm ks.length).filterMap rsnSuiteToKeymgmt).foldl
          (fun params k => (params.setKeyMgmt k).storeAkm k) (c.advance 2).params
      else (c.advance 2).params.setKeyMgmt .ieee8021x) =
        { c.params with
          keyMgmt := setParams 0 ((if ks = [] then [.ieee8021x] else ks).map KeyMgmt.value),
          akmList := akmList } := by
    by_cases hnone : ks = []
    · refine ⟨c.params.akmList, ?_⟩
      rw [if_neg (by simp [hnone]), if_pos hnone, ← hparams]
      rfl
    · obtain ⟨akmList, hfold⟩ := foldl_setKeyMgmt c.params ks
      refine ⟨akmList, ?_⟩
      rw [if_pos (by simpa using hnone), if_neg hnone, hsuites, filterMap_decode hks, ← hparams]
      exact hfold
  obtain ⟨akmList, hfold⟩ := hfold
  refine ⟨_, akmList, (hnext.setParams _), rfl, ?_⟩
  rw [rsnCheckKeyMgmt, if_neg (len_ne_zero_of_le (by decide) hlen), if_neg (Nat.not_lt.2 hlen)]
  dsimp only
  rw [hn, if_neg (fun hshort => Nat.not_lt.2 hle hshort.2), hfold, if_neg hvalue]
  rfl

theorem rsnCheckUcast_eq {cs : List CipherType} (hcount : cs.length < 256) (hne : cs ≠ [])
    (hcs : ∀ c ∈ cs, rsnSuiteToCipher (rsnCipherToSuite c) = some c) {rest : List Byte}
    (h : c.At m (suiteList (cs.map rsnCipherToSuite) ++ rest))
    (hparams : c.params.ucastcipherset = 0) :
    ∃ c' : RsnCursor, c'.At m rest ∧
      c'.params = { c.params with ucastcipherset := setParams 0 (cs.map CipherType.value) } ∧
      rsnCheckUcast m c = rsnCheckKeyMgmt m c' := by
  have hcount' : (cs.map rsnCipherToSuite).length < 256 := by rwa [length_map]
  obtain ⟨hlen, hn, hle, hsuites, hnext⟩ := h.suites hcount'
  rw [length_map] at hn hle hsuites hnext
  have hvalue : setParams 0 (cs.map CipherType.value) ≠ 0 := by
    refine setParams_ne_zero (by simpa using hne) fun v hv => ?_
    obtain ⟨w, -, rfl⟩ := mem_map.1 hv
    exact w.value_lt
  have hfold :
      (if cs.length ≠ 0 then
        ((suitesAt m (c.advance 2).frm cs.length).filterMap rsnSuiteToCipher).foldl
          CryptoParams.setUcastCipher (c.advance 2).params
      else (c.advance 2).params.setUcastCipher .aesCcm) =
        { c.params with ucastcipherset := setParams 0 (cs.map CipherType.value) } := by
    rw [if_pos (by simpa using hne), hsuites, filterMap_decode hcs, ← hparams]
    exact foldl_setUcastCipher c.params cs
  refine ⟨_, (hnext.setParams _), rfl, ?_⟩
  rw [rsnCheckUcast, if_neg (len_ne_zero_of_le (by decide) hlen), if_neg (Nat.not_lt.2 hlen)]
  dsimp only
  rw [hn, if_neg (fun hshort => Nat.not_lt.2 hle hshort.2), hfold, if_neg hvalue]
  rfl

theorem rsnCheckMcast_eq (hw : rsnSuiteToCipher (rsnCipherToSuite w) = some w) {rest : List Byte}
    (h : c.At m (bytes32 (rsnCipherToSuite w) ++ rest)) (hparams : c.params.mcastcipherset = 0) :
    ∃ c' : RsnCursor, c'.At m rest ∧
      c'.params = { c.params with mcastcipherset := paramBit w.value } ∧
      rsnCheckMcast m c = rsnCheckUcast m c' := by
  have hlen : 4 ≤ c.len.toNat := h.le_len
  have hset : c.params.setMcastCipher w =
      { c.params with mcastcipherset := paramBit w.value } := by
    rw [CryptoParams.setMcastCipher, hparams]
    exact congrArg (fun set => { c.params with mcastcipherset := set }) BitVec.zero_or
  have hvalue : paramBit w.value ≠ 0 := by
    cases w <;> decide
  refine ⟨_, (h.setParams _).advance rfl, rfl, ?_⟩
  rw [rsnCheckMcast, if_neg (len_ne_zero_of_le (by decide) hlen), if_neg (Nat.not_lt.2 hlen),
    h.read32, hw]
  dsimp only
  rw [hset]
  exact if_neg hvalue

end

/-! ## The whole element -/

theorem rsnCipher_decode : ∀ c ∈ ucastOrder ++ mcastOrder ++ mgmtOrder,
    rsnSuiteToCipher (rsnCipherToSuite c) = some c := by decide

theorem rsnKeyMgmt_decode : ∀ k ∈ KeyMgmt.cckm :: keyMgmtOrder,
    rsnSuiteToKeymgmt (rsnKeymgmtToSuite k) = some k := by decide

theorem mem_rsnKeyMgmts {params : CryptoParams} (h : k ∈ rsnKeyMgmts params) :
    k ∈ KeyMgmt.cckm :: keyMgmtOrder := by
  rw [rsnKeyMgmts] at h
  split at h
  · exact mem_cons.2 (.inl (mem_singleton.1 h))
  · exact mem_cons_of_mem _ (mem_of_mem_filter h)

def pmkidCount (params : CryptoParams) (pmksa : Option Pmksa) : ℕ :=
  (if ∃ p ∈ rsnPmksa params pmksa, p.pmkid ≠ 0 then 1 else 0) + randomPmkids params

theorem length_generatePmkid (params : CryptoParams) (pmksa : Option Pmksa)
    (random : ℕ → Fin 16 → Byte) :
    (generatePmkid params pmksa random).length = pmkidCount params pmksa := by
  rw [generatePmkid, pmkidCount, length_append, length_map, length_map,
    length_range]
  congr 1
  cases rsnPmksa params pmksa with
  | none => rfl
  | some p =>
    by_cases hp : p.pmkid = 0
    · simp [hp]
    · simp [hp]

theorem pmkidCount_le (params : CryptoParams) (pmksa : Option Pmksa) :
    pmkidCount params pmksa ≤ 13 := by
  rw [pmkidCount, randomPmkids]
  split <;> split <;> omega

theorem length_keyMgmts (params : CryptoParams) : (rsnKeyMgmts params).length ≤ 20 := by
  rw [rsnKeyMgmts]
  split
  · decide
  · exact length_filter_le ..

theorem rsnCheckPmkid_tail {m : Library.Mem} {c : RsnCursor} {params : CryptoParams}
    {pmkids : List (Fin 16 → Byte)} (hcount : pmkids.length < 2 ^ 16)
    (hmgmt : (rsnMgmtCiphers params).length ≤ 1) (h : c.At m (rsnTail params pmkids))
    (hcaps : c.params.rsnCaps = params.rsnCaps) (hparams : c.params.mgmtcipherset = 0) :
    rsnCheckPmkid m c = .ok { c.params with
      mgmtcipherset :=
        if params.MfpEnabled then paramBit ((rsnMgmtCiphers params).headD .aesCmac).value
        else 0 } := by
  have hset (w : CipherType) : c.params.setMgmtCipher w =
      { c.params with mgmtcipherset := paramBit w.value } := by
    rw [CryptoParams.setMgmtCipher, hparams]
    exact congrArg (fun set => { c.params with mgmtcipherset := set }) BitVec.zero_or
  have hmfp : c.params.MfpEnabled ↔ params.MfpEnabled := by
    rw [CryptoParams.MfpEnabled, CryptoParams.MfpEnabled, hcaps]
  rw [rsnTail] at h
  by_cases hon : params.MfpEnabled
  · rw [if_pos hon] at h ⊢
    obtain ⟨c', hat, hsame, hrun⟩ := rsnCheckPmkid_list hcount h
    rw [hrun]
    cases hciphers : rsnMgmtCiphers params with
    | nil =>
      rw [hciphers] at hat
      rw [rsnCheckBip_nil hat, hsame, if_pos (hmfp.2 hon), hset]
      rfl
    | cons w ws =>
      rw [hciphers, length_cons] at hmgmt
      obtain rfl : ws = [] := eq_nil_of_length_eq_zero (by omega)
      have hmem : w ∈ rsnMgmtCiphers params := hciphers ▸ mem_cons_self
      have hw : rsnSuiteToCipher (rsnCipherToSuite w) = some w :=
        rsnCipher_decode w (mem_append_right _ (mem_filter.1 hmem).1)
      rw [hciphers] at hat
      rw [rsnCheckBip_suite hw hat, hsame, hset]
      rfl
  · have hoff : ¬c.params.MfpEnabled := mt hmfp.1 hon
    have hnone : c.params = { c.params with mgmtcipherset := 0 } := by
      rw [← hparams]
    rw [if_neg hon] at h ⊢
    by_cases hempty : pmkids = []
    · rw [if_pos hempty] at h
      rw [rsnCheckPmkid_nil h, rsnCheckBip_nil h, if_neg hoff, ← hnone]
    · rw [if_neg hempty, ← append_nil (pmkidList pmkids)] at h
      obtain ⟨c', hat, hsame, hrun⟩ := rsnCheckPmkid_list hcount h
      rw [hrun, rsnCheckBip_nil hat, hsame, if_neg hoff, ← hnone]

theorem rsnieCheck_build {params : CryptoParams} (pmksa : Option Pmksa) (random : ℕ → Fin 16 → Byte)
    (hmcast : rsnMcastCipher params = some w) (hucast : rsnUcastCiphers params ≠ [])
    (hmgmt : (rsnMgmtCiphers params).length ≤ 1) (hlen : (rsnBody params pmksa random).length ≤ 255)
    (m : Library.Mem) (a : ℕ) :
    ∃ akmList, rsnieCheck (m.store a (buildRsnieWithPmksa params pmksa random)) a =
      .ok { authmodeset := paramBit 6
            ucastcipherset := setParams 0 ((rsnUcastCiphers params).map CipherType.value)
            mcastcipherset := paramBit w.value
            mgmtcipherset :=
              if params.MfpEnabled then paramBit ((rsnMgmtCiphers params).headD .aesCmac).value
              else 0
            keyMgmt := setParams 0 ((if rsnKeyMgmts params = [] then [.ieee8021x]
              else rsnKeyMgmts params).map KeyMgmt.value)
            rsnCaps := params.rsnCaps
            akmList := akmList
            randomPmkidCnt := 0 } := by
  have hholds := m.holds_store a (buildRsnieWithPmksa params pmksa random)
  generalize m.store a (buildRsnieWithPmksa params pmksa random) = m' at hholds ⊢
  have hid : m' a = elemidRsn := hholds 0 _ rfl
  have hlenbyte : m' (a + 1) = BitVec.ofNat 8 (rsnBody params pmksa random).length :=
    hholds 1 _ rfl
  have hlennat : (m' (a + 1)).toNat = (rsnBody params pmksa random).length := by
    rw [hlenbyte, BitVec.toNat_ofNat]
    omega
  let start : RsnCursor :=
    { params := { CryptoParams.zero with authmodeset := paramBit 6 }, frm := a + 2,
      len := m' (a + 1) }
  have hbody : m'.Holds (a + 2) (rsnBody params pmksa random) :=
    @Library.Mem.Holds.right _ _ [elemidRsn, _] _ hholds
  have hstart : start.At m' (rsnBody params pmksa random) := ⟨hbody, hlennat⟩
  rw [rsnBody, hmcast] at hstart
  simp only [Option.toList_some, map_cons, map_nil, flatMap_cons, flatMap_nil,
    append_nil, append_assoc] at hstart
  have hfit : 2 ≤ (m' (a + 1)).toNat := hstart.le_len
  have hversion : m'.read16 (a + 2) = rsnVersion := hstart.read16
  have hw := rsnCipher_decode w (mem_append_left _ (mem_append_right _
    (mem_of_find?_eq_some hmcast)))
  obtain ⟨c₁, hat₁, hp₁, hrun₁⟩ :=
    rsnCheckMcast_eq hw (hstart.advance (k := 2) rfl) rfl
  obtain ⟨c₂, hat₂, hp₂, hrun₂⟩ := rsnCheckUcast_eq
    (Nat.lt_of_le_of_lt (length_filter_le ..) (by decide)) hucast
    (fun c hc => rsnCipher_decode c (mem_append_left _ (mem_append_left _
      (mem_filter.1 hc).1))) hat₁ (by rw [hp₁]; rfl)
  obtain ⟨c₃, akmList, hat₃, hp₃, hrun₃⟩ := rsnCheckKeyMgmt_eq
    (Nat.lt_of_le_of_lt (length_keyMgmts params) (by decide))
    (fun k hk => rsnKeyMgmt_decode k (mem_rsnKeyMgmts hk)) hat₂ (by rw [hp₂, hp₁]; rfl)
  obtain ⟨c₄, hat₄, hp₄, hrun₄⟩ := rsnCheckCaps_eq hat₃
  have hcount : (generatePmkid params pmksa random).length < 2 ^ 16 := by
    rw [length_generatePmkid]
    exact Nat.lt_of_le_of_lt (pmkidCount_le params pmksa) (by decide)
  have hrun₅ := rsnCheckPmkid_tail hcount hmgmt hat₄ (by rw [hp₄])
    (by rw [hp₄, hp₃, hp₂, hp₁]; rfl)
  refine ⟨akmList, ?_⟩
  rw [rsnieCheck, if_neg (Nat.not_lt.2 hfit), getIeOffset, if_pos hid]
  dsimp only
  rw [if_neg (not_not.2 hversion)]
  refine hrun₁.trans (hrun₂.trans (hrun₃.trans (hrun₄.trans (hrun₅.trans ?_))))
  rw [hp₄, hp₃, hp₂, hp₁]
  rfl

/-! ## Recovering what was written -/

/-- One group cipher, pairwise ciphers and decodable key management suites, at most one management
cipher, and as many random PMKIDs as may be asked for. -/
structure CryptoParams.Negotiable (params : CryptoParams) : Prop where
  mcast : ∃ c ∈ mcastOrder, params.mcastcipherset = paramBit c.value
  ucast_ne : params.ucastcipherset ≠ 0
  ucast : ∀ i, params.ucastcipherset.getLsbD i = true → ∃ c ∈ ucastOrder, c.value = i
  keyMgmt_ne : params.keyMgmt ≠ 0
  keyMgmt : ∀ i, params.keyMgmt.getLsbD i = true →
    ∃ k w, rsnSuiteToKeymgmt w = some k ∧ k.value = i
  mgmt : params.mgmtcipherset = 0 ∨
    (params.MfpEnabled ∧ ∃ c ∈ mgmtOrder, params.mgmtcipherset = paramBit c.value)
  random : params.randomPmkidCnt.toNat ≤ 12

/-- The length byte counts what was written, and what is read is what was written: CCKM alone where
it is among the suites, and CMAC where management frames are protected and no cipher was given. -/
def RsnRoundTrip (params : CryptoParams) (pmksa : Option Pmksa) (random : ℕ → Fin 16 → Byte) :
    Prop :=
  ∀ (m : Library.Mem) (a : ℕ),
    let ie := buildRsnieWithPmksa params pmksa random
    (ie.getD 1 0).toNat = ie.length - 2 ∧
      ∃ p, rsnieCheck (m.store a ie) a = .ok p ∧
        p.ucastcipherset = params.ucastcipherset ∧
        p.mcastcipherset = params.mcastcipherset ∧
        p.keyMgmt =
          (if HasParam params.keyMgmt KeyMgmt.cckm.value then paramBit KeyMgmt.cckm.value
          else params.keyMgmt) ∧
        p.rsnCaps = params.rsnCaps ∧
        p.mgmtcipherset =
          if params.MfpEnabled ∧ params.mgmtcipherset = 0 then paramBit CipherType.aesCmac.value
          else params.mgmtcipherset

/-- The suites that are written: CCKM alone, or those that have a place in the order. -/
def keyMgmtCount (params : CryptoParams) : ℕ :=
  if HasParam params.keyMgmt KeyMgmt.cckm.value then 1
  else keyMgmtOrder.countP fun k => HasParam params.keyMgmt k.value

def rsnElementLen (params : CryptoParams) (pmksa : Option Pmksa) : ℕ :=
  2 + 4 + (2 + 4 * ucastOrder.countP fun c => HasParam params.ucastcipherset c.value) +
    (2 + 4 * keyMgmtCount params) + 2 +
    if params.MfpEnabled then
      2 + 16 * pmkidCount params pmksa +
        4 * mgmtOrder.countP fun c => HasParam params.mgmtcipherset c.value
    else if pmkidCount params pmksa = 0 then 0
    else 2 + 16 * pmkidCount params pmksa

theorem length_suiteList (suites : List (BitVec 32)) :
    (suiteList suites).length = 2 + 4 * suites.length := by
  rw [suiteList, length_append, length_flatMap_bytes32]
  rfl

theorem length_pmkidList (pmkids : List (Fin 16 → Byte)) :
    (pmkidList pmkids).length = 2 + 16 * pmkids.length := by
  rw [pmkidList, length_append, length_flatMap, length_bytes16]
  simp [Nat.mul_comm]

theorem length_rsnTail (params : CryptoParams) (pmkids : List (Fin 16 → Byte)) :
    (rsnTail params pmkids).length =
      if params.MfpEnabled then
        2 + 16 * pmkids.length +
          4 * mgmtOrder.countP fun c => HasParam params.mgmtcipherset c.value
      else if pmkids.length = 0 then 0
      else 2 + 16 * pmkids.length := by
  rw [rsnTail]
  by_cases hon : params.MfpEnabled
  · rw [if_pos hon, if_pos hon, length_append, length_pmkidList, length_flatMap_bytes32,
      length_map, rsnMgmtCiphers, countP_eq_length_filter]
  · rw [if_neg hon, if_neg hon]
    by_cases hnone : pmkids = []
    · rw [if_pos hnone, if_pos (by simp [hnone])]
      rfl
    · rw [if_neg hnone, if_neg (by simpa using hnone), length_pmkidList]

theorem length_rsnKeyMgmts (params : CryptoParams) :
    (rsnKeyMgmts params).length = keyMgmtCount params := by
  rw [rsnKeyMgmts, keyMgmtCount]
  split
  · rfl
  · rw [countP_eq_length_filter]

theorem length_rsnBody {params : CryptoParams} (hmcast : rsnMcastCipher params = some w)
    (pmksa : Option Pmksa) (random : ℕ → Fin 16 → Byte) :
    (rsnBody params pmksa random).length = rsnElementLen params pmksa := by
  rw [rsnBody, rsnElementLen, hmcast]
  simp only [length_append, length_bytes16, length_flatMap_bytes32, length_suiteList,
    length_map, length_rsnTail, length_generatePmkid, length_rsnKeyMgmts]
  rw [rsnUcastCiphers, ← countP_eq_length_filter]
  rfl

theorem mem_of_ite {q : Prop} [Decidable q] {x k : α} {e : Option α} {ks : List α} (hx : x ∈ ks)
    (he : e = some k → k ∈ ks) : (if q then some x else e) = some k → k ∈ ks := by
  intro h
  split at h
  · obtain rfl := Option.some.inj h
    exact hx
  · exact he h

theorem keyMgmt_of_suite {w : BitVec 32} :
    rsnSuiteToKeymgmt w = some k → k ∈ [.cckm, .pskSha384, .ftPskSha384] ++ keyMgmtOrder := by
  rw [rsnSuiteToKeymgmt]
  repeat refine mem_of_ite (by decide) ?_
  exact fun h => nomatch h

namespace CryptoParams.Negotiable

variable {params : CryptoParams}

theorem rsnMcastCipher_eq (h : params.Negotiable) :
    ∃ c, rsnMcastCipher params = some c ∧ params.mcastcipherset = paramBit c.value := by
  have hall : ∀ c ∈ mcastOrder,
      mcastOrder.find? (fun d => HasParam (paramBit c.value) d.value) = some c := by decide
  obtain ⟨c, hc, hset⟩ := h.mcast
  refine ⟨c, ?_, hset⟩
  rw [rsnMcastCipher, hset]
  exact hall c hc

theorem setParams_ucast (h : params.Negotiable) :
    setParams 0 ((rsnUcastCiphers params).map CipherType.value) = params.ucastcipherset := by
  have hlisted : ∀ i, params.ucastcipherset.getLsbD i = true →
      i ∈ ucastOrder.map CipherType.value := fun i hi => by
    obtain ⟨c, hc, rfl⟩ := h.ucast i hi
    exact mem_map_of_mem hc
  have htable := setParams_filter hlisted
  rw [filter_map] at htable
  exact htable

theorem rsnUcastCiphers_ne (h : params.Negotiable) : rsnUcastCiphers params ≠ [] := by
  intro hnone
  have hset := h.setParams_ucast
  rw [hnone] at hset
  exact h.ucast_ne hset.symm

theorem rsnMgmtCiphers_eq (h : params.Negotiable) :
    (rsnMgmtCiphers params).length ≤ 1 ∧
      (if params.MfpEnabled then paramBit ((rsnMgmtCiphers params).headD .aesCmac).value else 0) =
        if params.MfpEnabled ∧ params.mgmtcipherset = 0 then paramBit CipherType.aesCmac.value
        else params.mgmtcipherset := by
  have hnone : mgmtOrder.filter (fun d => HasParam 0 d.value) = [] := by decide
  have hall : ∀ c ∈ mgmtOrder, paramBit c.value ≠ 0 ∧
      mgmtOrder.filter (fun d => HasParam (paramBit c.value) d.value) = [c] := by decide
  rcases h.mgmt with hzero | ⟨hon, c, hc, hset⟩
  · rw [rsnMgmtCiphers, hzero, hnone]
    refine ⟨Nat.zero_le 1, ?_⟩
    by_cases hon : params.MfpEnabled
    · rw [if_pos hon, if_pos ⟨hon, rfl⟩]
      rfl
    · rw [if_neg hon, if_neg fun h => hon h.1]
  · obtain ⟨hne, hfilter⟩ := hall c hc
    rw [rsnMgmtCiphers, hset, hfilter, if_pos hon, if_neg fun h => hne h.2]
    exact ⟨Nat.le_refl 1, rfl⟩

theorem setParams_keyMgmt (h : params.Negotiable)
    (hwritten : ¬HasParam params.keyMgmt KeyMgmt.cckm.value →
      ¬HasParam params.keyMgmt KeyMgmt.pskSha384.value ∧
        ¬HasParam params.keyMgmt KeyMgmt.ftPskSha384.value) :
    setParams 0 ((if rsnKeyMgmts params = [] then [.ieee8021x]
      else rsnKeyMgmts params).map KeyMgmt.value) =
        if HasParam params.keyMgmt KeyMgmt.cckm.value then paramBit KeyMgmt.cckm.value
        else params.keyMgmt := by
  by_cases hcckm : HasParam params.keyMgmt KeyMgmt.cckm.value
  · rw [rsnKeyMgmts, if_pos hcckm, if_pos hcckm]
    decide
  · obtain ⟨hpsk, hftPsk⟩ := hwritten hcckm
    have hlisted : ∀ i, params.keyMgmt.getLsbD i = true →
        i ∈ keyMgmtOrder.map KeyMgmt.value := fun i hi => by
      obtain ⟨k, w, hk, rfl⟩ := h.keyMgmt i hi
      have hhas : HasParam params.keyMgmt k.value := (hasParam_iff k.value_lt).2 hi
      rcases mem_append.1 (keyMgmt_of_suite hk) with hmem | hmem
      · simp only [mem_cons, not_mem_nil, or_false] at hmem
        rcases hmem with rfl | rfl | rfl
        · exact absurd hhas hcckm
        · exact absurd hhas hpsk
        · exact absurd hhas hftPsk
      · exact mem_map_of_mem hmem
    have htable := setParams_filter hlisted
    rw [filter_map] at htable
    have hne : rsnKeyMgmts params ≠ [] := by
      intro hnone
      rw [rsnKeyMgmts, if_neg hcckm] at hnone
      refine h.keyMgmt_ne (htable.symm.trans ?_)
      exact congrArg (fun ks => setParams 0 (map KeyMgmt.value ks)) hnone
    rw [if_neg hne, if_neg hcckm, rsnKeyMgmts, if_neg hcckm]
    exact htable

end CryptoParams.Negotiable

/-- A suite that has no place in the order is not read back. -/
theorem not_read_back {params : CryptoParams}
    (hk : k.value ∉ KeyMgmt.ieee8021x.value :: keyMgmtOrder.map KeyMgmt.value)
    (hcckm : ¬HasParam params.keyMgmt KeyMgmt.cckm.value) (hhas : HasParam params.keyMgmt k.value) :
    setParams 0 ((if rsnKeyMgmts params = [] then [.ieee8021x]
      else rsnKeyMgmts params).map KeyMgmt.value) ≠ params.keyMgmt := by
  intro hsame
  rw [← hsame, hasParam_iff k.value_lt, getLsbD_setParams,
    show (0 : BitVec 32).getLsbD k.value = false from BitVec.getLsbD_zero, Bool.false_or,
    decide_eq_true_iff] at hhas
  obtain ⟨l, hl, hvalue⟩ := mem_map.1 hhas.2
  rw [rsnKeyMgmts, if_neg hcckm] at hl
  split at hl
  · rw [← hvalue, mem_singleton.1 hl] at hk
    exact hk mem_cons_self
  · rw [← hvalue] at hk
    exact hk (mem_cons_of_mem _ (mem_map_of_mem (mem_filter.1 hl).1))

/-- The element is read back as it was written exactly where it has no suite that is not written,
and its length fits the length byte. -/
theorem rsn_round_trip_iff {params : CryptoParams} (h : params.Negotiable) (pmksa : Option Pmksa)
    (random : ℕ → Fin 16 → Byte) :
    RsnRoundTrip params pmksa random ↔
      (HasParam params.keyMgmt KeyMgmt.cckm.value ∨
        (¬HasParam params.keyMgmt KeyMgmt.pskSha384.value ∧
          ¬HasParam params.keyMgmt KeyMgmt.ftPskSha384.value)) ∧
      rsnElementLen params pmksa ≤ 255 := by
  obtain ⟨w, hw, hmcast⟩ := h.rsnMcastCipher_eq
  obtain ⟨hone, hmgmt⟩ := h.rsnMgmtCiphers_eq
  have hlen := length_rsnBody hw pmksa random
  have hbyte : ((buildRsnieWithPmksa params pmksa random).getD 1 0).toNat =
      rsnElementLen params pmksa % 256 := by
    rw [← hlen]
    exact BitVec.toNat_ofNat ..
  have hsize : (buildRsnieWithPmksa params pmksa random).length - 2 =
      rsnElementLen params pmksa := by
    rw [← hlen, buildRsnieWithPmksa, length_append]
    exact Nat.add_sub_cancel_left ..
  constructor
  · intro htrip
    obtain ⟨hcount, p, hrun, -, -, hkeyMgmt, -, -⟩ := htrip (fun _ => 0) 0
    rw [hbyte, hsize] at hcount
    have hfits : rsnElementLen params pmksa ≤ 255 := by omega
    refine ⟨or_iff_not_imp_left.2 fun hcckm => ?_, hfits⟩
    obtain ⟨akmList, hread⟩ := rsnieCheck_build pmksa random hw h.rsnUcastCiphers_ne hone
      (hlen ▸ hfits) (fun _ => 0) 0
    rw [hread] at hrun
    obtain rfl := Except.ok.inj hrun
    rw [if_neg hcckm] at hkeyMgmt
    exact ⟨fun hhas => not_read_back (by decide) hcckm hhas hkeyMgmt,
      fun hhas => not_read_back (by decide) hcckm hhas hkeyMgmt⟩
  · rintro ⟨hwritten, hfits⟩ m a
    dsimp only
    rw [hbyte, hsize]
    obtain ⟨akmList, hread⟩ := rsnieCheck_build pmksa random hw h.rsnUcastCiphers_ne hone
      (hlen ▸ hfits) m a
    exact ⟨Nat.mod_eq_of_lt (by omega), _, hread, h.setParams_ucast, hmcast.symm,
      h.setParams_keyMgmt hwritten.resolve_left, rfl, hmgmt⟩

/-- CCMP-128 for both kinds of traffic, the given suites, and protected management frames. -/
def exampleParams (keyMgmt : BitVec 32) : CryptoParams :=
  { CryptoParams.zero with
    ucastcipherset := paramBit CipherType.aesCcm.value
    mcastcipherset := paramBit CipherType.aesCcm.value
    keyMgmt := keyMgmt
    rsnCaps := 0xC0
    randomPmkidCnt := 2 }

theorem exampleParams_negotiable {w : BitVec 32} (hk : rsnSuiteToKeymgmt w = some k) :
    (exampleParams (paramBit k.value)).Negotiable where
  mcast := ⟨.aesCcm, by decide, rfl⟩
  ucast_ne := by
    change paramBit CipherType.aesCcm.value ≠ 0
    decide
  ucast i hi := by
    rw [exampleParams, getLsbD_paramBit, decide_eq_true_iff] at hi
    exact ⟨.aesCcm, by decide, hi.2.symm⟩
  keyMgmt_ne := by
    change paramBit k.value ≠ 0
    cases k <;> decide
  keyMgmt i hi := by
    rw [exampleParams, getLsbD_paramBit, decide_eq_true_iff] at hi
    exact ⟨k, w, hk, hi.2.symm⟩
  mgmt := .inl rfl
  random := by
    change (2 : BitVec 8).toNat ≤ 12
    decide

theorem rsn_round_trip_sae :
    RsnRoundTrip (exampleParams (paramBit KeyMgmt.sae.value)) none
      fun n i => BitVec.ofNat 8 (n + i) :=
  (rsn_round_trip_iff (exampleParams_negotiable (rsnKeyMgmt_decode .sae (by decide))) none _).2
    (by decide)

/-- With a suite that has no place in the order, an element without suites is written, and 802.1X is
read. -/
theorem psk_sha384_lost :
    ¬∀ params : CryptoParams, params.Negotiable → ∀ pmksa random,
      RsnRoundTrip params pmksa random := by
  intro hall
  have hsuite : rsnSuiteToKeymgmt (rsnSel 20) = some .pskSha384 := by decide
  obtain ⟨-, p, hrun, -, -, hkeyMgmt, -⟩ :=
    hall _ (exampleParams_negotiable hsuite) none (fun _ _ => 0) (fun _ => 0) 0
  have hread : (rsnieCheck (Library.Mem.store (fun _ => 0) 0
      (buildRsnieWithPmksa (exampleParams (paramBit KeyMgmt.pskSha384.value)) none fun _ _ => 0))
      0).toOption.map CryptoParams.keyMgmt = some (paramBit KeyMgmt.ieee8021x.value) := by
    decide +kernel
  rw [hrun] at hread
  have hsame := (Option.some.inj hread).symm.trans hkeyMgmt
  revert hsame
  decide

end QcomModules.Wlan
