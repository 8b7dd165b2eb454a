import Mathlib

/-! The crypto parameters of a vdev: ciphers and key management suites, and the sets that hold one
bit for each. -/

namespace QcomModules.Wlan

/-! ## Ciphers and key management suites -/

inductive CipherType where
  | wep
  | tkip
  | aesOcb
  | aesCcm
  | wapiSms4
  | ckip
  | aesCmac
  | aesCcm256
  | aesCmac256
  | aesGcm
  | aesGcm256
  | aesGmac
  | aesGmac256
  | wapiGcm4
  | filsAead
  | wep40
  | wep104
  | none
  deriving DecidableEq

/-- The number of the cipher in `enum wlan_crypto_cipher_type`. -/
def CipherType.value : CipherType → ℕ
  | .wep => 0
  | .tkip => 1
  | .aesOcb => 2
  | .aesCcm => 3
  | .wapiSms4 => 4
  | .ckip => 5
  | .aesCmac => 6
  | .aesCcm256 => 7
  | .aesCmac256 => 8
  | .aesGcm => 9
  | .aesGcm256 => 10
  | .aesGmac => 11
  | .aesGmac256 => 12
  | .wapiGcm4 => 13
  | .filsAead => 14
  | .wep40 => 15
  | .wep104 => 16
  | .none => 17

inductive KeyMgmt where
  | ieee8021x
  | psk
  | none
  | ieee8021xNoWpa
  | wpaNone
  | ftIeee8021x
  | ftPsk
  | ieee8021xSha256
  | pskSha256
  | wps
  | sae
  | ftSae
  | wapiPsk
  | wapiCert
  | cckm
  | osen
  | ieee8021xSuiteB
  | ieee8021xSuiteB192
  | filsSha256
  | filsSha384
  | ftFilsSha256
  | ftFilsSha384
  | owe
  | dpp
  | ftIeee8021xSha384
  | ftPskSha384
  | pskSha384
  | saeExtKey
  | ftSaeExtKey
  | pasn
  deriving DecidableEq

/-- The number of the suite in `enum wlan_crypto_key_mgmt`. -/
def KeyMgmt.value : KeyMgmt → ℕ
  | .ieee8021x => 0
  | .psk => 1
  | .none => 2
  | .ieee8021xNoWpa => 3
  | .wpaNone => 4
  | .ftIeee8021x => 5
  | .ftPsk => 6
  | .ieee8021xSha256 => 7
  | .pskSha256 => 8
  | .wps => 9
  | .sae => 10
  | .ftSae => 11
  | .wapiPsk => 12
  | .wapiCert => 13
  | .cckm => 14
  | .osen => 15
  | .ieee8021xSuiteB => 16
  | .ieee8021xSuiteB192 => 17
  | .filsSha256 => 18
  | .filsSha384 => 19
  | .ftFilsSha256 => 20
  | .ftFilsSha384 => 21
  | .owe => 22
  | .dpp => 23
  | .ftIeee8021xSha384 => 24
  | .ftPskSha384 => 25
  | .pskSha384 => 26
  | .saeExtKey => 27
  | .ftSaeExtKey => 28
  | .pasn => 29

theorem CipherType.value_lt (c : CipherType) : c.value < 32 := by cases c <;> decide

theorem KeyMgmt.value_lt (k : KeyMgmt) : k.value < 32 := by cases k <;> decide

/-! ## Sets of bits -/

/-- `1 << v` -/
def paramBit (v : ℕ) : BitVec 32 := 1#32 <<< v

/-- `QDF_HAS_PARAM` and its like. -/
def HasParam (set : BitVec 32) (v : ℕ) : Prop := set &&& paramBit v ≠ 0

instance (set : BitVec 32) (v : ℕ) : Decidable (HasParam set v) :=
  inferInstanceAs (Decidable (_ ≠ _))

/-- `QDF_SET_PARAM` and its like, for one value after another. -/
def setParams (set : BitVec 32) (vs : List ℕ) : BitVec 32 :=
  vs.foldl (fun set v => set ||| paramBit v) set

theorem getLsbD_paramBit (v i : ℕ) : (paramBit v).getLsbD i = decide (i < 32 ∧ i = v) := by
  rw [paramBit, BitVec.getLsbD_shiftLeft, BitVec.getLsbD_one]
  grind

theorem hasParam_iff {set : BitVec 32} {v : ℕ} (hv : v < 32) :
    HasParam set v ↔ set.getLsbD v = true := by
  constructor
  · intro h
    by_contra hbit
    refine h (BitVec.eq_of_getLsbD_eq fun i hi => ?_)
    rw [BitVec.getLsbD_and, getLsbD_paramBit, show (0 : BitVec 32).getLsbD i = false from
      BitVec.getLsbD_zero]
    by_cases hiv : i = v
    · subst hiv
      simp [hbit]
    · simp [hiv]
  · intro hbit hzero
    have hand := congrArg (BitVec.getLsbD · v) hzero
    rw [BitVec.getLsbD_and, hbit, getLsbD_paramBit, decide_eq_true ⟨hv, rfl⟩] at hand
    exact absurd (hand.trans BitVec.getLsbD_zero) (by decide)

theorem getLsbD_setParams (set : BitVec 32) (vs : List ℕ) (i : ℕ) :
    (setParams set vs).getLsbD i = (set.getLsbD i || decide (i < 32 ∧ i ∈ vs)) := by
  induction vs generalizing set with
  | nil => simp [setParams]
  | cons v vs ih =>
    have hstep : setParams set (v :: vs) = setParams (set ||| paramBit v) vs := rfl
    rw [hstep, ih, BitVec.getLsbD_or, getLsbD_paramBit]
    grind

theorem setParams_filter {set : BitVec 32} {table : List ℕ}
    (h : ∀ i, set.getLsbD i = true → i ∈ table) :
    setParams 0 (table.filter fun v => HasParam set v) = set := by
  refine BitVec.eq_of_getLsbD_eq fun i hi => ?_
  rw [getLsbD_setParams, show (0 : BitVec 32).getLsbD i = false from BitVec.getLsbD_zero,
    Bool.false_or]
  by_cases hbit : set.getLsbD i = true
  · rw [hbit, decide_eq_true_iff]
    exact ⟨hi, List.mem_filter.2 ⟨h i hbit, decide_eq_true ((hasParam_iff hi).2 hbit)⟩⟩
  · rw [Bool.not_eq_true] at hbit
    rw [hbit, decide_eq_false_iff_not]
    rintro ⟨-, hmem⟩
    have hhas := of_decide_eq_true (List.mem_filter.1 hmem).2
    rw [hasParam_iff hi, hbit] at hhas
    cases hhas

/-! ## Parameters -/

structure CryptoParams where
  authmodeset : BitVec 32
  ucastcipherset : BitVec 32
  mcastcipherset : BitVec 32
  mgmtcipherset : BitVec 32
  keyMgmt : BitVec 32
  rsnCaps : BitVec 16
  /-- The suites of `akm_list`. -/
  akmList : List KeyMgmt
  randomPmkidCnt : BitVec 8
  deriving DecidableEq

def CryptoParams.zero : CryptoParams :=
  { authmodeset := 0, ucastcipherset := 0, mcastcipherset := 0, mgmtcipherset := 0, keyMgmt := 0,
    rsnCaps := 0, akmList := [], randomPmkidCnt := 0 }

def CryptoParams.MfpEnabled (params : CryptoParams) : Prop := params.rsnCaps &&& 0x80 ≠ 0

instance (params : CryptoParams) : Decidable params.MfpEnabled :=
  inferInstanceAs (Decidable (_ ≠ _))

end QcomModules.Wlan
