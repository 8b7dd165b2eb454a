import Mathlib
import QcomModules.Library.ByteMemory
import QcomModules.Library.Runs

/-! The PMKSA cache: entries keyed by BSSID, or by SSID and FILS cache id. -/

namespace QcomModules.Wlan

open Library List Function

/-! ## Entries -/

structure Pmksa where
  bssid : BitVec 48
  pmkid : Fin 16 → Byte
  pmk : Fin 64 → Byte
  pmkLen : Fin 65
  ssidLen : Fin 33
  ssid : Fin 32 → Byte
  cacheId : BitVec 16
  pmkLifetime : BitVec 32
  pmkLifetimeThreshold : BitVec 8
  deriving DecidableEq

/-- `!qdf_mem_cmp(a, b, len)` -/
def SameBytes {n : ℕ} (a b : Fin n → Byte) (len : ℕ) : Prop := ∀ i : Fin n, i < len → a i = b i

instance {n : ℕ} (a b : Fin n → Byte) (len : ℕ) : Decidable (SameBytes a b len) :=
  inferInstanceAs (Decidable (∀ i : Fin n, i < len → a i = b i))

/-- The test that finds the entry of a request. -/
def Pmksa.Matches (request x : Pmksa) : Prop :=
  (request.ssidLen = 0 ∧ request.bssid ≠ 0 ∧ request.bssid = x.bssid) ∨
    (request.ssidLen ≠ 0 ∧ SameBytes request.ssid x.ssid request.ssidLen ∧
      request.cacheId = x.cacheId)

instance (request x : Pmksa) : Decidable (request.Matches x) :=
  inferInstanceAs (Decidable (_ ∨ _))

/-- `del_pmk`: the PMK of the entry, followed by zeros. -/
def Pmksa.delPmk (x : Pmksa) : Fin 64 → Byte := fun k => if k < x.pmkLen.val then x.pmk k else 0

/-- The test that finds the entries to delete with an entry. -/
def Pmksa.Drops (x z : Pmksa) : Prop := z.pmkLen ≠ 0 ∧ SameBytes z.pmk x.delPmk z.pmkLen

instance (x z : Pmksa) : Decidable (x.Drops z) := inferInstanceAs (Decidable (_ ∧ _))

/-! ## The cache -/

/-- `pmksa[WLAN_CRYPTO_MAX_PMKID]` -/
abbrev PmksaCache := Fin 16 → Option Pmksa

def findPmksa (c : PmksaCache) (request : Pmksa) : Option (Fin 16) :=
  Fin.find? fun i => (c i).any fun x => request.Matches x

/-- Delete the first entry that the request matches, and the entries with its PMK. -/
def delPmksa (c : PmksaCache) (request : Pmksa) : PmksaCache :=
  match findPmksa c request with
  | none => c
  | some i =>
    match c i with
    | none => c
    | some x => fun j => if j = i then none else (c j).filter fun z => ¬x.Drops z

inductive PmksaStatus where
  | success
  | eInval
  deriving DecidableEq

/-- Delete the old entry and add the new one in the first empty slot. -/
def setPmksa (c : PmksaCache) (pmksa : Pmksa) : PmksaCache × PmksaStatus :=
  let c := delPmksa c pmksa
  match Fin.find? fun i => (c i).isNone with
  | none => (c, .eInval)
  | some i => (Function.update c i (some pmksa), .success)

def pmksaFlush : PmksaCache := fun _ => none

def getPeerPmksa (c : PmksaCache) (request : Pmksa) : Option Pmksa :=
  (findPmksa c request).bind c

inductive PmksaOp where
  | set (pmksa : Pmksa)
  | del (request : Pmksa)
  | flush

def pmksaStep (c : PmksaCache) : PmksaOp → PmksaCache
  | .set pmksa => (setPmksa c pmksa).1
  | .del request => delPmksa c request
  | .flush => pmksaFlush

/-! ## Keys -/

/-- What an entry is cached for. -/
inductive PmksaKey where
  | bssid (bssid : BitVec 48)
  | ssid (ssid : List Byte) (cacheId : BitVec 16)
  deriving DecidableEq

def Pmksa.key (x : Pmksa) : PmksaKey :=
  if x.ssidLen = 0 then .bssid x.bssid
  else .ssid ((List.ofFn x.ssid).take x.ssidLen) x.cacheId

def Pmksa.pmkBytes (x : Pmksa) : List Byte := (List.ofFn x.pmk).take x.pmkLen

/-- An entry with a BSSID as its key has one. -/
def Pmksa.Keyed (x : Pmksa) : Prop := x.ssidLen = 0 → x.bssid ≠ 0

instance (x : Pmksa) : Decidable x.Keyed := inferInstanceAs (Decidable (_ → _))

def PmksaOp.request : PmksaOp → Option Pmksa
  | .set pmksa => some pmksa
  | .del request => some request
  | .flush => none

def PmksaCache.Unique (c : PmksaCache) : Prop :=
  ∀ i j x y, c i = some x → c j = some y → x.key = y.key → i = j

/-- A call keeps the keys apart, a successful set is found under its key, and a set or a delete
removes only entries with the key of the request, or with the PMK of a removed one that has it. -/
structure KeepsKeys (c : PmksaCache) (op : PmksaOp) : Prop where
  unique : PmksaCache.Unique (pmksaStep c op)
  found : ∀ pmksa, op = .set pmksa → (setPmksa c pmksa).2 = .success →
    ∀ request : Pmksa, request.key = pmksa.key →
      getPeerPmksa (pmksaStep c op) request = some pmksa
  removed : ∀ request ∈ op.request, ∀ i x, c i = some x → delPmksa c request i = none →
    x.key = request.key ∨ ∃ j y, c j = some y ∧ delPmksa c request j = none ∧
      y.key = request.key ∧ y.pmkBytes = x.pmkBytes

/-- The first entry that the request matches has the key of the request, or the PMK of an entry that
has it, and the entries that are deleted with it have a PMK of the same length. -/
def MatchesKey (c : PmksaCache) (op : PmksaOp) : Prop :=
  ∀ request ∈ op.request, ∀ i ∈ findPmksa c request, ∀ x ∈ c i,
    (∃ j, ∃ y ∈ c j, y.key = request.key ∧
      (j = i ∨ (y.pmkLen ≠ 0 ∧ y.pmkBytes = x.pmkBytes))) ∧
    ∀ j, ∀ z ∈ c j, j ≠ i → x.Drops z → z.pmkLen = x.pmkLen

instance (c : PmksaCache) (op : PmksaOp) : Decidable (MatchesKey c op) :=
  inferInstanceAs (Decidable (∀ request ∈ op.request, ∀ i ∈ findPmksa c request, ∀ x ∈ c i,
    (∃ j, ∃ y ∈ c j, y.key = request.key ∧
      (j = i ∨ (y.pmkLen ≠ 0 ∧ y.pmkBytes = x.pmkBytes))) ∧
    ∀ j, ∀ z ∈ c j, j ≠ i → x.Drops z → z.pmkLen = x.pmkLen))

/-! ## What the tests say about keys -/

theorem take_ofFn_eq_iff {n : ℕ} {a b : Fin n → Byte} {la lb : Fin (n + 1)} :
    (List.ofFn a).take la = (List.ofFn b).take lb ↔ la = lb ∧ SameBytes a b la := by
  have hlen (f : Fin n → Byte) (l : Fin (n + 1)) : ((ofFn f).take l).length = l := by
    rw [length_take, length_ofFn]
    exact Nat.min_eq_left (Nat.le_of_lt_succ l.isLt)
  constructor
  · intro h
    have hl : la = lb := by
      have := congrArg length h
      rw [hlen, hlen] at this
      exact Fin.ext this
    subst hl
    refine ⟨rfl, fun i hi => ?_⟩
    have hget := congrArg (·[i.val]?) h
    simpa [getElem?_take, hi] using hget
  · rintro ⟨rfl, hsame⟩
    refine ext_getElem? fun k => ?_
    by_cases hk : k < la
    · have hn : k < n := Nat.lt_of_lt_of_le hk (Nat.le_of_lt_succ la.isLt)
      simpa [getElem?_take, hk, hn] using hsame ⟨k, hn⟩ hk
    · simp [hk]

variable {x request' z pmksa : Pmksa} {s : Fin 16}

theorem Pmksa.key_eq_iff {y : Pmksa} :
    x.key = y.key ↔
      (x.ssidLen = 0 ∧ y.ssidLen = 0 ∧ x.bssid = y.bssid) ∨
        (x.ssidLen ≠ 0 ∧ x.ssidLen = y.ssidLen ∧ SameBytes x.ssid y.ssid x.ssidLen ∧
          x.cacheId = y.cacheId) := by
  rw [Pmksa.key, Pmksa.key]
  by_cases hx : x.ssidLen = 0 <;> by_cases hy : y.ssidLen = 0
  · rw [if_pos hx, if_pos hy, PmksaKey.bssid.injEq]
    grind
  · rw [if_pos hx, if_neg hy]
    grind
  · rw [if_neg hx, if_pos hy]
    grind
  · rw [if_neg hx, if_neg hy, PmksaKey.ssid.injEq, take_ofFn_eq_iff]
    grind

theorem Pmksa.matches_of_key {request : Pmksa} (hkeyed : request.Keyed) (h : request.key = x.key) :
    request.Matches x := by
  rcases Pmksa.key_eq_iff.1 h with ⟨hlen, -, hbssid⟩ | ⟨hlen, -, hssid, hcache⟩
  · exact .inl ⟨hlen, hkeyed hlen, hbssid⟩
  · exact .inr ⟨hlen, hssid, hcache⟩

theorem Pmksa.matches_congr {request : Pmksa} (h : request.key = request'.key) (x : Pmksa) :
    request.Matches x ↔ request'.Matches x := by
  rw [Pmksa.Matches, Pmksa.Matches]
  rcases Pmksa.key_eq_iff.1 h with ⟨hlen, hlen', hbssid⟩ | ⟨hlen, hlen', hssid, hcache⟩
  · rw [hbssid]
    exact or_congr (by simp [hlen, hlen']) (by simp [hlen, hlen'])
  · have hsame : SameBytes request.ssid x.ssid request.ssidLen ↔
        SameBytes request'.ssid x.ssid request'.ssidLen := by
      rw [← hlen']
      exact forall₂_congr fun i hi => by rw [hssid i hi]
    rw [hsame, hlen', hcache]
    rw [hlen'] at hlen
    exact or_congr (by simp [hlen]) Iff.rfl

theorem findPmksa_congr {request : Pmksa} (h : request.key = request'.key) (c : PmksaCache) :
    findPmksa c request = findPmksa c request' := by
  rw [findPmksa, findPmksa]
  simp only [Pmksa.matches_congr h]

theorem Pmksa.drops_iff (hlen : z.pmkLen = x.pmkLen) :
    x.Drops z ↔ z.pmkLen ≠ 0 ∧ z.pmkBytes = x.pmkBytes := by
  rw [Pmksa.Drops, Pmksa.pmkBytes, Pmksa.pmkBytes, take_ofFn_eq_iff]
  have hsame : SameBytes z.pmk x.delPmk z.pmkLen ↔ SameBytes z.pmk x.pmk z.pmkLen := by
    refine forall₂_congr fun i hi => ?_
    rw [Pmksa.delPmk, if_pos (hlen ▸ hi)]
  rw [hsame]
  exact and_congr_right fun _ => ⟨fun h => ⟨hlen, h⟩, fun h => h.2⟩

theorem Pmksa.pmkLen_eq (h : z.pmkBytes = x.pmkBytes) : z.pmkLen = x.pmkLen :=
  (take_ofFn_eq_iff.1 h).1

/-! ## What a deletion does -/

section

variable {c : PmksaCache} {request : Pmksa}

variable {i j : Fin 16} {x y : Pmksa}

theorem findPmksa_some (h : findPmksa c request = some i) :
    ∃ x, c i = some x ∧ request.Matches x ∧ ∀ j < i, ∀ y, c j = some y → ¬request.Matches y := by
  rw [findPmksa, Fin.find?_eq_some_iff] at h
  obtain ⟨hi, hbefore⟩ := h
  cases hx : c i with
  | none =>
    rw [hx] at hi
    cases hi
  | some x =>
    rw [hx] at hi
    refine ⟨x, rfl, of_decide_eq_true hi, fun j hj y hy hmatch => ?_⟩
    have hfalse := hbefore j hj
    rw [hy, Option.any_some, decide_eq_false_iff_not] at hfalse
    exact hfalse hmatch

theorem findPmksa_none (h : findPmksa c request = none) (hx : c i = some x) :
    ¬request.Matches x := by
  rw [findPmksa, Fin.find?_eq_none_iff] at h
  have hfalse := h i
  rw [hx, Option.any_some, decide_eq_false_iff_not] at hfalse
  exact hfalse

theorem delPmksa_of_none (h : findPmksa c request = none) : delPmksa c request = c := by
  unfold delPmksa
  rw [h]

theorem delPmksa_of_some (h : findPmksa c request = some i) (hx : c i = some x) (j : Fin 16) :
    delPmksa c request j = if j = i then none else (c j).filter fun z => ¬x.Drops z := by
  unfold delPmksa
  rw [h]
  dsimp only
  rw [hx]

theorem delPmksa_sub (h : delPmksa c request j = some y) : c j = some y := by
  cases hfind : findPmksa c request with
  | none => rwa [delPmksa_of_none hfind] at h
  | some i =>
    obtain ⟨x, hx, -, -⟩ := findPmksa_some hfind
    rw [delPmksa_of_some hfind hx] at h
    split at h
    · cases h
    · exact (Option.filter_eq_some_iff.1 h).1

theorem delPmksa_none_iff {z : Pmksa} (h : findPmksa c request = some i) (hx : c i = some x)
    (hz : c j = some z) : delPmksa c request j = none ↔ j = i ∨ x.Drops z := by
  rw [delPmksa_of_some h hx, hz]
  by_cases hj : j = i
  · simp [hj]
  · simp [hj, Option.filter_some]

theorem PmksaCache.Unique.delPmksa (h : PmksaCache.Unique c) (request : Pmksa) :
    PmksaCache.Unique (delPmksa c request) :=
  fun i j x y hx hy => h i j x y (delPmksa_sub hx) (delPmksa_sub hy)

theorem delPmksa_key (hunique : PmksaCache.Unique c) (hkeyed : request.Keyed)
    (h : ∀ i ∈ findPmksa c request, ∀ x ∈ c i, ∃ j, ∃ y ∈ c j, y.key = request.key ∧
      (j = i ∨ (y.pmkLen ≠ 0 ∧ y.pmkBytes = x.pmkBytes))) (hy : delPmksa c request j = some y) :
    y.key ≠ request.key := by
  intro hkey
  have hold := delPmksa_sub hy
  have hmatch := Pmksa.matches_of_key hkeyed hkey.symm
  cases hfind : findPmksa c request with
  | none => exact findPmksa_none hfind hold hmatch
  | some i =>
    obtain ⟨x, hx, -, -⟩ := findPmksa_some hfind
    obtain ⟨j', y', hy', hkey', hpmk⟩ := h i hfind x hx
    obtain rfl := hunique j j' y y' hold hy' (hkey.trans hkey'.symm)
    obtain rfl : y = y' := Option.some.inj (hold.symm.trans hy')
    have hgone : delPmksa c request j = none := by
      refine (delPmksa_none_iff hfind hx hold).2 (hpmk.imp_right fun hpmk => ?_)
      exact (Pmksa.drops_iff (Pmksa.pmkLen_eq hpmk.2)).2 hpmk
    rw [hgone] at hy
    cases hy

end

/-! ## One call -/

theorem removed_iff {c : PmksaCache} {request : Pmksa} (hunique : PmksaCache.Unique c) :
    (∀ i x, c i = some x → delPmksa c request i = none →
      x.key = request.key ∨ ∃ j y, c j = some y ∧ delPmksa c request j = none ∧
        y.key = request.key ∧ y.pmkBytes = x.pmkBytes) ↔
    ∀ i ∈ findPmksa c request, ∀ x ∈ c i,
      (∃ j, ∃ y ∈ c j, y.key = request.key ∧
        (j = i ∨ (y.pmkLen ≠ 0 ∧ y.pmkBytes = x.pmkBytes))) ∧
      ∀ j, ∀ z ∈ c j, j ≠ i → x.Drops z → z.pmkLen = x.pmkLen := by
  constructor
  · intro h i hfind x hx
    have hgone {j : Fin 16} {z : Pmksa} (hz : c j = some z) :=
      delPmksa_none_iff hfind hx hz
    have hfirst : ∃ j, ∃ y ∈ c j, y.key = request.key ∧
        (j = i ∨ (y.pmkLen ≠ 0 ∧ y.pmkBytes = x.pmkBytes)) := by
      rcases h i x hx ((hgone hx).2 (.inl rfl)) with hkey | ⟨j, y, hy, hnone, hkey, hpmk⟩
      · exact ⟨i, x, hx, hkey, .inl rfl⟩
      · exact ⟨j, y, hy, hkey, ((hgone hy).1 hnone).imp_right fun hdrops => ⟨hdrops.1, hpmk⟩⟩
    refine ⟨hfirst, fun j z hz hne hdrops => ?_⟩
    obtain ⟨k, y, hy, hkey, hpmk⟩ := hfirst
    -- the entry with the key has the PMK of the first match
    have hfirstpmk : y.pmkBytes = x.pmkBytes := by
      rcases hpmk with rfl | hpmk
      · rw [Option.some.inj (hy.symm.trans hx)]
      · exact hpmk.2
    have hsame : y.pmkBytes = z.pmkBytes := by
      rcases h j z hz ((hgone hz).2 (.inr hdrops)) with hzkey | ⟨k', y', hy', -, hkey', hpmk'⟩
      · obtain rfl := hunique k j y z hy hz (hkey.trans hzkey.symm)
        rw [Option.some.inj (hy.symm.trans hz)]
      · obtain rfl := hunique k k' y y' hy hy' (hkey.trans hkey'.symm)
        rw [Option.some.inj (hy.symm.trans hy')]
        exact hpmk'
    exact Pmksa.pmkLen_eq (hsame.symm.trans hfirstpmk)
  · intro h j z hz hnone
    cases hfind : findPmksa c request with
    | none =>
      rw [delPmksa_of_none hfind, hz] at hnone
      cases hnone
    | some i =>
      obtain ⟨x, hx, -, -⟩ := findPmksa_some hfind
      obtain ⟨⟨k, y, hy, hkey, hpmk⟩, hlens⟩ := h i hfind x hx
      have hfirstpmk : y.pmkBytes = x.pmkBytes := by
        rcases hpmk with rfl | hpmk
        · rw [Option.some.inj (hy.symm.trans hx)]
        · exact hpmk.2
      have hygone : delPmksa c request k = none := by
        refine (delPmksa_none_iff hfind hx hy).2 (hpmk.imp_right fun hpmk => ?_)
        exact (Pmksa.drops_iff (Pmksa.pmkLen_eq hpmk.2)).2 hpmk
      refine .inr ⟨k, y, hy, hygone, hkey, hfirstpmk.trans ?_⟩
      by_cases hne : j = i
      · subst hne
        rw [Option.some.inj (hx.symm.trans hz)]
      · have hdrops := ((delPmksa_none_iff hfind hx hz).1 hnone).resolve_left hne
        exact ((Pmksa.drops_iff (hlens j z hz hne hdrops)).1 hdrops).2.symm

theorem setPmksa_some {c : PmksaCache}
    (h : Fin.find? (fun i => (delPmksa c pmksa i).isNone) = some s) :
    setPmksa c pmksa = (Function.update (delPmksa c pmksa) s (some pmksa), .success) := by
  unfold setPmksa
  dsimp only
  rw [h]

theorem setPmksa_none {c : PmksaCache}
    (h : Fin.find? (fun i => (delPmksa c pmksa i).isNone) = none) :
    setPmksa c pmksa = (delPmksa c pmksa, .eInval) := by
  unfold setPmksa
  dsimp only
  rw [h]

theorem PmksaCache.Unique.update {c : PmksaCache} (h : PmksaCache.Unique c)
    (hnew : ∀ i x, c i = some x → x.key ≠ pmksa.key) (s : Fin 16) :
    PmksaCache.Unique (Function.update c s (some pmksa)) := by
  intro i j x y hx hy hkey
  by_cases hi : i = s <;> by_cases hj : j = s
  · rw [hi, hj]
  · subst hi
    rw [update_self] at hx
    rw [update_of_ne hj] at hy
    obtain rfl := Option.some.inj hx
    exact absurd hkey.symm (hnew j y hy)
  · subst hj
    rw [update_of_ne hi] at hx
    rw [update_self] at hy
    obtain rfl := Option.some.inj hy
    exact absurd hkey (hnew i x hx)
  · rw [update_of_ne hi] at hx
    rw [update_of_ne hj] at hy
    exact h i j x y hx hy hkey

/-- The first empty slot is not behind the entry that was deleted, so the new entry is found before
any other one that its key matches. -/
theorem getPeerPmksa_update {c : PmksaCache} {request : Pmksa} (hkeyed : pmksa.Keyed)
    (hkey : request.key = pmksa.key)
    (h : Fin.find? (fun i => (delPmksa c pmksa i).isNone) = some s) :
    getPeerPmksa (Function.update (delPmksa c pmksa) s (some pmksa)) request = some pmksa := by
  rw [Fin.find?_eq_some_iff] at h
  obtain ⟨-, hbefore⟩ := h
  have hfind : findPmksa (update (delPmksa c pmksa) s (some pmksa)) pmksa = some s := by
    rw [findPmksa, Fin.find?_eq_some_iff]
    refine ⟨?_, fun j hj => ?_⟩
    · rw [update_self, Option.any_some]
      exact decide_eq_true (Pmksa.matches_of_key hkeyed rfl)
    · rw [update_of_ne (Fin.ne_of_lt hj)]
      cases hy : delPmksa c pmksa j with
      | none => rfl
      | some y =>
        rw [Option.any_some, decide_eq_false_iff_not]
        have hold := delPmksa_sub hy
        cases hfind : findPmksa c pmksa with
        | none => exact findPmksa_none hfind hold
        | some i =>
          obtain ⟨x, hx, -, hfirst⟩ := findPmksa_some hfind
          have hempty := (delPmksa_none_iff hfind hx hx).2 (.inl rfl)
          refine hfirst j (Nat.lt_of_lt_of_le hj (Nat.le_of_not_lt fun hlt => ?_)) y hold
          have hfull := hbefore i hlt
          rw [hempty] at hfull
          cases hfull
  rw [getPeerPmksa, findPmksa_congr hkey, hfind, Option.bind_some, update_self]

theorem PmksaCache.unique_flush : PmksaCache.Unique pmksaFlush := by
  intro i j x y hx
  cases hx

theorem keepsKeys_iff {c : PmksaCache} {op : PmksaOp} (hunique : PmksaCache.Unique c)
    (hkeyed : ∀ request ∈ op.request, request.Keyed) : KeepsKeys c op ↔ MatchesKey c op := by
  constructor
  · exact fun h request hrequest => (removed_iff hunique).1 (h.removed request hrequest)
  · intro h
    refine ⟨?_, ?_, fun request hrequest => (removed_iff hunique).2 (h request hrequest)⟩
    · cases op with
      | set pmksa =>
        have hnew (i : Fin 16) (x : Pmksa) (hx : delPmksa c pmksa i = some x) :
            x.key ≠ pmksa.key :=
          delPmksa_key hunique (hkeyed pmksa rfl)
            (fun i hi x hx => (h pmksa rfl i hi x hx).1) hx
        rw [pmksaStep]
        cases hslot : Fin.find? (fun i => (delPmksa c pmksa i).isNone) with
        | none =>
          rw [setPmksa_none hslot]
          exact hunique.delPmksa pmksa
        | some s =>
          rw [setPmksa_some hslot]
          exact (hunique.delPmksa pmksa).update hnew s
      | del request => exact hunique.delPmksa request
      | flush => exact PmksaCache.unique_flush
    · rintro pmksa rfl hsuccess request hkey
      rw [pmksaStep]
      cases hslot : Fin.find? (fun i => (delPmksa c pmksa i).isNone) with
      | none =>
        rw [setPmksa_none hslot] at hsuccess
        cases hsuccess
      | some s =>
        rw [setPmksa_some hslot]
        exact getPeerPmksa_update (hkeyed pmksa rfl) hkey hslot

/-! ## Runs -/

/-- Every call of a run keeps the keys exactly where each entry that a request matches first has its
key, and each entry that goes with it has its PMK. -/
theorem pmksa_keys_kept (ops : List PmksaOp)
    (hkeyed : ∀ op ∈ ops, ∀ request ∈ op.request, request.Keyed) :
    EachStep KeepsKeys pmksaStep pmksaFlush ops ↔
      EachStep MatchesKey pmksaStep pmksaFlush ops := by
  have hiff (c : PmksaCache) (op : PmksaOp) (hunique : PmksaCache.Unique c)
      (hkeyed : ∀ request ∈ op.request, request.Keyed) : KeepsKeys c op ↔ MatchesKey c op :=
    keepsKeys_iff hunique hkeyed
  exact eachStep_iff hiff (fun _ _ _ _ h => h.unique) PmksaCache.unique_flush hkeyed

def exampleSsid (len : Fin 33) (ssid : List Byte) (pmk : Byte) : Pmksa :=
  { bssid := 0, pmkid := fun _ => pmk, pmk := fun k => if k < 32 then pmk else 0, pmkLen := 32,
    ssidLen := len, ssid := fun k => ssid.getD k 0, cacheId := 7, pmkLifetime := 0,
    pmkLifetimeThreshold := 0 }

def exampleSets : List PmksaOp :=
  [.set (exampleSsid 4 [1, 2, 3, 4] 10), .set (exampleSsid 4 [1, 2, 3, 5] 20),
    .set (exampleSsid 4 [1, 2, 3, 4] 30)]

theorem pmksa_keys_kept_sets : EachStep KeepsKeys pmksaStep pmksaFlush exampleSets :=
  (pmksa_keys_kept exampleSets (by decide +kernel)).2 (by decide +kernel)

/-- A request for an SSID deletes the entry of a longer one that begins with it. -/
theorem longer_ssid_deleted :
    ¬∀ ops : List PmksaOp, (∀ op ∈ ops, ∀ request ∈ op.request, request.Keyed) →
      EachStep KeepsKeys pmksaStep pmksaFlush ops := by
  intro hall
  obtain ⟨-, hset, -⟩ := hall
    [.set (exampleSsid 4 [1, 2, 3, 4] 10), .set (exampleSsid 3 [1, 2, 3] 20)] (by decide +kernel)
  have hother : ∀ j, ∀ y ∈ pmksaStep pmksaFlush (.set (exampleSsid 4 [1, 2, 3, 4] 10)) j,
      y.key ≠ (exampleSsid 3 [1, 2, 3] 20).key := by
    decide +kernel
  rcases hset.removed (exampleSsid 3 [1, 2, 3] 20) rfl 0 (exampleSsid 4 [1, 2, 3, 4] 10)
    (by decide +kernel) (by decide +kernel) with hkey | ⟨j, y, hy, -, hkey, -⟩
  · exact hother 0 _ (by decide +kernel) hkey
  · exact hother j y hy hkey

end QcomModules.Wlan
