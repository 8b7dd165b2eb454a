import QcomModules.Wlan.CryptoParams
import QcomModules.Wlan.Pmksa

/-! The RSN element: `wlan_crypto_build_rsnie_with_pmksa` writes it from the crypto parameters, and
`wlan_crypto_rsnie_check` reads it into new ones. -/

namespace QcomModules.Wlan

open Library

/-! ## Suites -/

def rsnSel (x : BitVec 32) : BitVec 32 := (x <<< 24) ||| 0xac0f00

def rsnCipherToSuite : CipherType → BitVec 32
  | .tkip => rsnSel 0x02
  | .aesCcm => rsnSel 0x04
  | .aesCcm256 => rsnSel 0x0A
  | .aesGcm => rsnSel 0x08
  | .aesGcm256 => rsnSel 0x09
  | .aesCmac => rsnSel 0x06
  | .aesCmac256 => rsnSel 0x0D
  | .aesGmac => rsnSel 0x0B
  | .aesGmac256 => rsnSel 0x0C
  | .none => rsnSel 0x00
  | _ => -1

def rsnSuiteToCipher (w : BitVec 32) : Option CipherType :=
  if w = rsnSel 0x02 then some .tkip
  else if w = rsnSel 0x04 then some .aesCcm
  else if w = rsnSel 0x0A then some .aesCcm256
  else if w = rsnSel 0x08 then some .aesGcm
  else if w = rsnSel 0x09 then some .aesGcm256
  else if w = rsnSel 0x06 then some .aesCmac
  else if w = rsnSel 0x0D then some .aesCmac256
  else if w = rsnSel 0x0B then some .aesGmac
  else if w = rsnSel 0x0C then some .aesGmac256
  else if w = rsnSel 0x00 then some .none
  else none

def rsnKeymgmtToSuite : KeyMgmt → BitVec 32
  | .none => rsnSel 0
  | .ieee8021x => rsnSel 1
  | .psk => rsnSel 2
  | .ftIeee8021x => rsnSel 3
  | .ftPsk => rsnSel 4
  | .ieee8021xSha256 => rsnSel 5
  | .pskSha256 => rsnSel 6
  | .sae => rsnSel 8
  | .ftSae => rsnSel 9
  | .ieee8021xSuiteB => rsnSel 11
  | .ieee8021xSuiteB192 => rsnSel 12
  | .cckm => 0x00964000
  | .osen => 0x019a6f50
  | .filsSha256 => rsnSel 14
  | .filsSha384 => rsnSel 15
  | .ftFilsSha256 => rsnSel 16
  | .ftFilsSha384 => rsnSel 17
  | .owe => rsnSel 18
  | .dpp => 0x029A6F50
  | .ftIeee8021xSha384 => rsnSel 13
  | .saeExtKey => rsnSel 24
  | .ftSaeExtKey => rsnSel 25
  | _ => -1

def rsnSuiteToKeymgmt (w : BitVec 32) : Option KeyMgmt :=
  if w = rsnSel 1 then some .ieee8021x
  else if w = rsnSel 2 then some .psk
  else if w = rsnSel 3 then some .ftIeee8021x
  else if w = rsnSel 4 then some .ftPsk
  else if w = rsnSel 5 then some .ieee8021xSha256
  else if w = rsnSel 6 then some .pskSha256
  else if w = rsnSel 8 then some .sae
  else if w = rsnSel 9 then some .ftSae
  else if w = rsnSel 11 then some .ieee8021xSuiteB
  else if w = rsnSel 12 then some .ieee8021xSuiteB192
  else if w = 0x00964000 then some .cckm
  else if w = 0x019a6f50 then some .osen
  else if w = rsnSel 14 then some .filsSha256
  else if w = rsnSel 15 then some .filsSha384
  else if w = rsnSel 16 then some .ftFilsSha256
  else if w = rsnSel 17 then some .ftFilsSha384
  else if w = rsnSel 18 then some .owe
  else if w = 0x029A6F50 then some .dpp
  else if w = rsnSel 13 then some .ftIeee8021xSha384
  else if w = rsnSel 19 then some .ftPskSha384
  else if w = rsnSel 20 then some .pskSha384
  else if w = rsnSel 24 then some .saeExtKey
  else if w = rsnSel 25 then some .ftSaeExtKey
  else none

/-! ## Building -/

def elemidRsn : Byte := 48

def rsnVersion : BitVec 16 := 1

/-- The group cipher, the first one that the parameters have. -/
def mcastOrder : List CipherType := [.tkip, .aesCcm, .aesCcm256, .aesGcm, .aesGcm256]

/-- The pairwise ciphers, in the order in which they are written. -/
def ucastOrder : List CipherType := [.aesCcm256, .aesGcm256, .aesCcm, .aesGcm, .tkip]

/-- The key management suites but `WLAN_CRYPTO_KEY_MGMT_CCKM`, in the order in which they are
written. -/
def keyMgmtOrder : List KeyMgmt :=
  [.ieee8021x, .psk, .ftIeee8021x, .ftPsk, .ieee8021xSha256, .pskSha256, .sae, .ftSae,
    .ieee8021xSuiteB, .ieee8021xSuiteB192, .filsSha256, .filsSha384, .ftFilsSha256, .ftFilsSha384,
    .owe, .dpp, .osen, .saeExtKey, .ftIeee8021xSha384, .ftSaeExtKey]

/-- The management ciphers, in the order in which they are written. -/
def mgmtOrder : List CipherType := [.aesCmac, .aesGmac, .aesCmac256, .aesGmac256]

def rsnMcastCipher (params : CryptoParams) : Option CipherType :=
  mcastOrder.find? fun c => HasParam params.mcastcipherset c.value

def rsnUcastCiphers (params : CryptoParams) : List CipherType :=
  ucastOrder.filter fun c => HasParam params.ucastcipherset c.value

/-- Other suites are not added after CCKM. -/
def rsnKeyMgmts (params : CryptoParams) : List KeyMgmt :=
  if HasParam params.keyMgmt KeyMgmt.cckm.value then [.cckm]
  else keyMgmtOrder.filter fun k => HasParam params.keyMgmt k.value

def rsnMgmtCiphers (params : CryptoParams) : List CipherType :=
  mgmtOrder.filter fun c => HasParam params.mgmtcipherset c.value

/-- A counted list of suites. The count is incremented in its first byte. -/
def suiteList (suites : List (BitVec 32)) : List Byte :=
  [BitVec.ofNat 8 suites.length, 0] ++ suites.flatMap bytes32

def IsAkmEnterprise (akm : BitVec 32) : Prop :=
  ∃ k ∈ [KeyMgmt.ieee8021x, .ieee8021xSha256, .ieee8021xSuiteB, .ftIeee8021x, .ftIeee8021xSha384,
    .ieee8021xSuiteB192, .filsSha256, .filsSha384, .ftFilsSha256, .ftFilsSha384],
    HasParam akm k.value

instance (akm : BitVec 32) : Decidable (IsAkmEnterprise akm) :=
  inferInstanceAs (Decidable (∃ k ∈ _, _))

/-- The PMKSA whose PMKID is used: none for enterprise suites where no lifetime is configured. -/
def rsnPmksa (params : CryptoParams) (pmksa : Option Pmksa) : Option Pmksa :=
  if 0 < params.keyMgmt.toInt ∧ IsAkmEnterprise params.keyMgmt then
    pmksa.filter fun p => ¬(p.pmkLifetime = 0 ∨ p.pmkLifetimeThreshold = 0)
  else
    pmksa

def randomPmkids (params : CryptoParams) : ℕ :=
  if 12 < params.randomPmkidCnt.toNat then 0 else params.randomPmkidCnt.toNat

/-- The PMKIDs of the element: that of the PMKSA unless it is zero, and random ones. No buffer is
returned where there is none. -/
def generatePmkid (params : CryptoParams) (pmksa : Option Pmksa) (random : ℕ → Fin 16 → Byte) :
    List (Fin 16 → Byte) :=
  ((rsnPmksa params pmksa).filter fun p => p.pmkid ≠ 0).toList.map Pmksa.pmkid ++
    (List.range (randomPmkids params)).map random

def pmkidList (pmkids : List (Fin 16 → Byte)) : List Byte :=
  bytes16 (BitVec.ofNat 16 pmkids.length) ++ pmkids.flatMap List.ofFn

def rsnTail (params : CryptoParams) (pmkids : List (Fin 16 → Byte)) : List Byte :=
  if params.MfpEnabled then
    pmkidList pmkids ++ ((rsnMgmtCiphers params).map rsnCipherToSuite).flatMap bytes32
  else if pmkids = [] then
    []
  else
    pmkidList pmkids

def rsnBody (params : CryptoParams) (pmksa : Option Pmksa) (random : ℕ → Fin 16 → Byte) :
    List Byte :=
  bytes16 rsnVersion ++
    ((rsnMcastCipher params).toList.map rsnCipherToSuite).flatMap bytes32 ++
    suiteList ((rsnUcastCiphers params).map rsnCipherToSuite) ++
    suiteList ((rsnKeyMgmts params).map rsnKeymgmtToSuite) ++
    bytes16 params.rsnCaps ++
    rsnTail params (generatePmkid params pmksa random)

/-- `wlan_crypto_build_rsnie_with_pmksa`: the bytes that are written. -/
def buildRsnieWithPmksa (params : CryptoParams) (pmksa : Option Pmksa)
    (random : ℕ → Fin 16 → Byte) : List Byte :=
  let body := rsnBody params pmksa random
  [elemidRsn, BitVec.ofNat 8 body.length] ++ body

/-! ## Reading -/

inductive WlanStatusCode where
  | invalidIe
  | groupCipherNotValid
  | pairwiseCipherNotValid
  | akmpNotValid
  | unsupportedRsnIeVersion
  | cipherRejectedPerPolicy
  | invalidPmkid
  deriving DecidableEq

/-- The parameters so far, the read pointer, and the bytes that are left. -/
structure RsnCursor where
  params : CryptoParams
  frm : ℕ
  len : BitVec 8

/-- `frm += k, len -= k` -/
def RsnCursor.advance (c : RsnCursor) (k : ℕ) : RsnCursor :=
  { c with frm := c.frm + k, len := c.len - BitVec.ofNat 8 k }

def RsnCursor.setParams (c : RsnCursor) (params : CryptoParams) : RsnCursor :=
  { c with params := params }

def CryptoParams.setMcastCipher (params : CryptoParams) (c : CipherType) : CryptoParams :=
  { params with mcastcipherset := params.mcastcipherset ||| paramBit c.value }

def CryptoParams.setUcastCipher (params : CryptoParams) (c : CipherType) : CryptoParams :=
  { params with ucastcipherset := params.ucastcipherset ||| paramBit c.value }

def CryptoParams.setMgmtCipher (params : CryptoParams) (c : CipherType) : CryptoParams :=
  { params with mgmtcipherset := params.mgmtcipherset ||| paramBit c.value }

def CryptoParams.setKeyMgmt (params : CryptoParams) (k : KeyMgmt) : CryptoParams :=
  { params with keyMgmt := params.keyMgmt ||| paramBit k.value }

/-- `wlan_crypto_store_akm_list_in_order`: the list has `WLAN_CRYPTO_KEY_MGMT_MAX` entries. -/
def CryptoParams.storeAkm (params : CryptoParams) (k : KeyMgmt) : CryptoParams :=
  if 30 ≤ params.akmList.length then params else { params with akmList := params.akmList ++ [k] }

def suitesAt (m : Library.Mem) (frm n : ℕ) : List (BitVec 32) :=
  (List.range n).map fun i => m.read32 (frm + 4 * i)

def rsnCheckBip (m : Library.Mem) (c : RsnCursor) : Except WlanStatusCode CryptoParams :=
  if c.len = 0 then
    .ok (if c.params.MfpEnabled then c.params.setMgmtCipher .aesCmac else c.params)
  else if c.len.toNat < 4 then
    .error .invalidIe
  else
    match rsnSuiteToCipher (m.read32 c.frm) with
    | none => .error .cipherRejectedPerPolicy
    | some w => .ok (c.params.setMgmtCipher w)

/-- The PMKIDs are passed over. -/
def rsnCheckPmkid (m : Library.Mem) (c : RsnCursor) : Except WlanStatusCode CryptoParams :=
  if 2 ≤ c.len.toNat then
    let n := (m.read16 c.frm).toNat
    let c := c.advance 2
    if n ≠ 0 ∧ c.len ≠ 0 then
      if n * 16 ≤ c.len.toNat then rsnCheckBip m (c.advance (n * 16)) else .error .invalidPmkid
    else if n ≠ 0 ∧ c.len = 0 then
      .error .invalidIe
    else
      rsnCheckBip m c
  else if c.len = 1 then
    .error .invalidIe
  else
    rsnCheckBip m c

def rsnCheckCaps (m : Library.Mem) (c : RsnCursor) : Except WlanStatusCode CryptoParams :=
  if 2 ≤ c.len.toNat then
    rsnCheckPmkid m
      ((c.setParams { c.params with rsnCaps := m.read16 c.frm }).advance 2)
  else if c.len ≠ 0 then
    .error .invalidIe
  else
    rsnCheckPmkid m c

def rsnCheckKeyMgmt (m : Library.Mem) (c : RsnCursor) : Except WlanStatusCode CryptoParams :=
  if c.len = 0 then
    .ok (c.params.setKeyMgmt .ieee8021x)
  else if c.len.toNat < 2 then
    .error .invalidIe
  else
    let n := (m.read16 c.frm).toNat
    let c := c.advance 2
    if n ≠ 0 ∧ c.len.toNat < n * 4 then
      .error .invalidIe
    else
      let params :=
        if n ≠ 0 then
          ((suitesAt m c.frm n).filterMap rsnSuiteToKeymgmt).foldl
            (fun params k => (params.setKeyMgmt k).storeAkm k) c.params
        else
          c.params.setKeyMgmt .ieee8021x
      if params.keyMgmt = 0 then .error .akmpNotValid
      else rsnCheckCaps m ((c.setParams params).advance (n * 4))

def rsnCheckUcast (m : Library.Mem) (c : RsnCursor) : Except WlanStatusCode CryptoParams :=
  if c.len = 0 then
    .ok ((c.params.setUcastCipher .aesCcm).setKeyMgmt .ieee8021x)
  else if c.len.toNat < 2 then
    .error .invalidIe
  else
    let n := (m.read16 c.frm).toNat
    let c := c.advance 2
    if n ≠ 0 ∧ c.len.toNat < n * 4 then
      .error .invalidIe
    else
      let params :=
        if n ≠ 0 then
          ((suitesAt m c.frm n).filterMap rsnSuiteToCipher).foldl
            CryptoParams.setUcastCipher c.params
        else
          c.params.setUcastCipher .aesCcm
      if params.ucastcipherset = 0 then .error .pairwiseCipherNotValid
      else rsnCheckKeyMgmt m ((c.setParams params).advance (n * 4))

def rsnCheckMcast (m : Library.Mem) (c : RsnCursor) : Except WlanStatusCode CryptoParams :=
  if c.len = 0 then
    .ok (((c.params.setMcastCipher .aesCcm).setUcastCipher .aesCcm).setKeyMgmt .ieee8021x)
  else if c.len.toNat < 4 then
    .error .invalidIe
  else
    match rsnSuiteToCipher (m.read32 c.frm) with
    | none => .error .groupCipherNotValid
    | some w =>
      let c := (c.setParams (c.params.setMcastCipher w)).advance 4
      if c.params.mcastcipherset = 0 then .error .groupCipherNotValid else rsnCheckUcast m c

/-- `wlan_crypto_get_ie_offset`, for the RSN element and its vendor specific variant. -/
def getIeOffset (m : Library.Mem) (frm : ℕ) (eid : Byte) : Option (ℕ × BitVec 8) :=
  if m frm = eid then some (frm + 2, m (frm + 1))
  else if m frm = 221 then
    if (m (frm + 1)).toNat ≤ 4 then none else some (frm + 2 + 4, m (frm + 1) - 4)
  else none

def rsnieCheck (m : Library.Mem) (frm : ℕ) : Except WlanStatusCode CryptoParams :=
  if (m (frm + 1)).toNat < 2 then
    .error .invalidIe
  else
    match getIeOffset m frm elemidRsn with
    | none => .error .invalidIe
    | some (frm, len) =>
      if m.read16 frm ≠ rsnVersion then
        .error .unsupportedRsnIeVersion
      else
        -- `WLAN_CRYPTO_AUTH_RSNA`
        let params := { CryptoParams.zero with authmodeset := paramBit 6 }
        rsnCheckMcast m (RsnCursor.advance { params := params, frm := frm, len := len } 2)

end QcomModules.Wlan
