import Mathlib.Data.List.Nodup
import QcomModules.HwFence.Fence

/-! Wake-ups of the clients that wait for one fence. Imports and signals each take the lock
once and act on what they saw after releasing it; any number of them run interleaved. -/

namespace QcomModules.HwFence

open List

/-- What does not change while a fence lives: its index, and the registered clients. -/
structure WaitEnv where
  hash : UInt64
  rxqClientsNum : UInt32
  clients : ℕ → Bool

/-- A call of `_hw_fence_register_wait_with_hash` that has left its critical section. -/
structure ImportCall where
  clientId : UInt32
  isSignaled : Bool
  clientData : UInt64
deriving DecidableEq, Repr

/-- The fence, the calls in flight and what has been called so far. The last three fields are
ghost: the clients whose imports saw the fence unsignaled and signaled, and the mask that the
successful signal copied. -/
structure WaitState where
  hwFence : MsmHwFence
  importing : List ImportCall := []
  /-- For each signal past its critical section, the wake-ups it still has to make. -/
  signaling : List (List Wakeup) := []
  wakeups : List Wakeup := []
  /-- What the signal attempts report as `signaled_fence`. -/
  reports : List Bool := []
  importedBefore : List UInt32 := []
  importedAfter : List UInt32 := []
  signaledMask : Option UInt64 := none

/-- The state after an import's critical section. -/
def WaitState.afterImportLock (s : WaitState) (clientId : UInt32) (reg : RegisterWait) :
    WaitState :=
  { s with
    hwFence := reg.hwFence
    importing := ⟨clientId, reg.isSignaled, reg.clientData⟩ :: s.importing
    importedBefore := if reg.isSignaled then s.importedBefore else clientId :: s.importedBefore
    importedAfter := if reg.isSignaled then clientId :: s.importedAfter else s.importedAfter }

inductive WaitStep (env : WaitEnv) : WaitState → WaitState → Prop where
  /-- A registered client other than the allocator imports the fence. -/
  | importLock (s : WaitState) (clientId : UInt32) (dmaFenceSignaled incrRefcount : Bool)
      (importFlags : UInt64) (hother : s.hwFence.fenceAllocator ≠ clientId)
      (hclient : env.clients clientId.toNat = true)
      (hret : (registerWaitLocked s.hwFence clientId dmaFenceSignaled incrRefcount
        importFlags).ret = 0) :
      WaitStep env s (s.afterImportLock clientId
        (registerWaitLocked s.hwFence clientId dmaFenceSignaled incrRefcount importFlags))
  /-- An import ends, signaling its own client if it saw the fence signaled. -/
  | importFinish (s : WaitState) (call : ImportCall) (others others' : List ImportCall)
      (hcall : s.importing = others ++ call :: others') :
      WaitStep env s { s with
        importing := others ++ others'
        wakeups := if call.isSignaled then
          .client call.clientId.toNat env.hash call.clientData s.hwFence.error true :: s.wakeups
          else s.wakeups }
  /-- A signal attempt finds the fence signaled. -/
  | signalLate (s : WaitState) (error : UInt32) (hlocked : signalLocked s.hwFence error = none) :
      WaitStep env s { s with reports := false :: s.reports }
  /-- A signal attempt signals the fence; its wake-ups are still to be made. -/
  | signalLock (s : WaitState) (error : UInt32) (releaseRef : Bool) (hwFence : MsmHwFence)
      (snapshot : SignalSnapshot)
      (hlocked : signalLocked s.hwFence error = some (hwFence, snapshot)) :
      WaitStep env s { s with
        hwFence := hwFence
        signaling := signalAllWaitClients env.rxqClientsNum env.clients hwFence
          snapshot.waitClientMask env.hash snapshot.clientData error
          (if releaseRef then snapshot.hSynx else 0) :: s.signaling
        reports := true :: s.reports
        signaledMask := some snapshot.waitClientMask }
  /-- A signal makes its next wake-up. -/
  | signalNext (s : WaitState) (wakeup : Wakeup) (rest : List Wakeup)
      (others others' : List (List Wakeup))
      (hsignal : s.signaling = others ++ (wakeup :: rest) :: others') :
      WaitStep env s { s with
        signaling := others ++ rest :: others'
        wakeups := wakeup :: s.wakeups }
  /-- A signal or another holder drops a reference bit, and the fence stays in the table. -/
  | destroyRefcount (s : WaitState) (ref : UInt32)
      (hlive : (destroyRefcountLocked s.hwFence ref).2.refcount ≠ 0) :
      WaitStep env s { s with hwFence := (destroyRefcountLocked s.hwFence ref).2 }
  /-- An import that failed or another holder drops a count, and the fence stays. -/
  | put (s : WaitState) (hlive : (putLocked s.hwFence).2.1.refcount ≠ 0) :
      WaitStep env s { s with hwFence := (putLocked s.hwFence).2.1 }

/-- Whether a wake-up is a call for the client, from an import or from a signal. -/
def Wakeup.isFor (clientId : UInt32) (fromImport : Bool) : Wakeup → Bool
  | .client id _ _ _ signalFromImport => id = clientId.toNat && signalFromImport = fromImport
  | .synx _ _ => false

def WaitState.made (s : WaitState) (clientId : UInt32) (fromImport : Bool) : ℕ :=
  s.wakeups.countP (Wakeup.isFor clientId fromImport)

/-- Calls that the signals in flight still have to make for the client. -/
def WaitState.signalsDue (s : WaitState) (clientId : UInt32) : ℕ :=
  s.signaling.flatten.countP (Wakeup.isFor clientId false)

/-- Calls that the imports in flight still have to make for the client. -/
def WaitState.importsDue (s : WaitState) (clientId : UInt32) : ℕ :=
  s.importing.countP fun call => call.clientId = clientId && call.isSignaled

def hasBit (mask : UInt64) (clientId : UInt32) : Bool := mask &&& bit clientId != 0

/-! ## Bits of the wait mask -/

theorem bit_ne_zero (clientId : UInt32) : bit clientId ≠ 0 := by
  intro hzero
  have hnat := congrArg UInt64.toNat hzero
  rw [bit, UInt64.toNat_shiftLeft, show (1 : UInt64).toNat = 1 from rfl, Nat.shiftLeft_eq,
    Nat.one_mul,
    Nat.mod_eq_of_lt (Nat.pow_lt_pow_right (by decide) (Nat.mod_lt _ (by decide)))] at hnat
  exact absurd hnat (Nat.two_pow_pos _).ne'

theorem hasBit_or (mask other : UInt64) (clientId : UInt32) :
    hasBit (mask ||| other) clientId = (hasBit mask clientId || hasBit other clientId) := by
  have hdistrib : (mask ||| other) &&& bit clientId =
      mask &&& bit clientId ||| other &&& bit clientId :=
    UInt64.toBitVec_inj.mp BitVec.and_or_distrib_right
  have hzero := UInt64.or_eq_zero_iff (a := mask &&& bit clientId) (b := other &&& bit clientId)
  rw [hasBit, hasBit, hasBit, hdistrib, Bool.eq_iff_iff]
  simp only [bne_iff_ne, ne_eq, Bool.or_eq_true]
  rw [hzero]
  tauto

theorem hasBit_bit (clientId : UInt32) : hasBit (bit clientId) clientId = true := by
  simpa [hasBit] using bit_ne_zero clientId

/-! ## Critical sections -/

variable {hwFence : MsmHwFence} {clientId : UInt32} {dmaFenceSignaled incrRefcount : Bool}
  {importFlags : UInt64} {env : WaitEnv} {s : WaitState}

theorem registerWaitLocked_waiter (hother : hwFence.fenceAllocator ≠ clientId)
    (hret : (registerWaitLocked hwFence clientId dmaFenceSignaled incrRefcount
      importFlags).ret = 0) :
    let reg := registerWaitLocked hwFence clientId dmaFenceSignaled incrRefcount importFlags
    reg.isSignaled = hwFence.hasFlag msmHwFenceFlagSignal ∧
      reg.hwFence.flags = hwFence.flags ∧
      reg.hwFence.waitClientMask = hwFence.waitClientMask ||| bit clientId := by
  unfold registerWaitLocked at hret ⊢
  split at hret
  · cases hret
  · rename_i hsame
    rw [if_neg hsame]
    split at hret
    · cases hret
    · rename_i hlive
      simp only [if_neg hlive, if_neg hother]
      cases incrRefcount <;> exact ⟨trivial, rfl, rfl⟩

theorem signalLocked_eq_some {hwFence' : MsmHwFence} {error : UInt32} {snapshot : SignalSnapshot}
    (h : signalLocked hwFence error = some (hwFence', snapshot)) :
    hwFence.hasFlag msmHwFenceFlagSignal = false ∧
      hwFence'.hasFlag msmHwFenceFlagSignal = true ∧
      snapshot.waitClientMask = hwFence.waitClientMask := by
  unfold signalLocked at h
  split at h
  · cases h
  · rename_i hflag
    obtain ⟨rfl, rfl⟩ := Prod.mk.inj (Option.some.inj h)
    refine ⟨by simpa using hflag, ?_, rfl⟩
    have habsorb : (hwFence.flags ||| msmHwFenceFlagSignal) &&& msmHwFenceFlagSignal ≠ 0 := by
      rw [show (hwFence.flags ||| msmHwFenceFlagSignal) &&& msmHwFenceFlagSignal =
        hwFence.flags &&& msmHwFenceFlagSignal ||| msmHwFenceFlagSignal &&& msmHwFenceFlagSignal
        from UInt64.toBitVec_inj.mp BitVec.and_or_distrib_right]
      intro hzero
      exact absurd (UInt64.or_eq_zero_iff.mp hzero).2 (by decide)
    simpa [MsmHwFence.hasFlag] using habsorb

/-- A section that leaves references on the entry keeps its wait mask and its signal flag. -/
def KeepsWaiting (hwFence hwFence' : MsmHwFence) : Prop :=
  hwFence'.waitClientMask = hwFence.waitClientMask ∧
    hwFence'.hasFlag msmHwFenceFlagSignal = hwFence.hasFlag msmHwFenceFlagSignal

theorem deleteIfUnreferenced_of_live (hlive : (deleteIfUnreferenced hwFence).refcount ≠ 0) :
    deleteIfUnreferenced hwFence = hwFence := by
  unfold deleteIfUnreferenced at hlive ⊢
  split at hlive
  · exact absurd rfl hlive
  · rename_i hne
    rw [if_neg hne]

theorem keepsWaiting_destroyRefcountLocked {ref : UInt32}
    (hlive : (destroyRefcountLocked hwFence ref).2.refcount ≠ 0) :
    KeepsWaiting hwFence (destroyRefcountLocked hwFence ref).2 := by
  unfold destroyRefcountLocked at hlive ⊢
  split at hlive
  · rename_i href
    rw [if_pos href, deleteIfUnreferenced_of_live hlive]
    exact ⟨rfl, rfl⟩
  · rename_i href
    rw [if_neg href]
    exact ⟨rfl, rfl⟩

theorem keepsWaiting_putLocked (hlive : (putLocked hwFence).2.1.refcount ≠ 0) :
    KeepsWaiting hwFence (putLocked hwFence).2.1 := by
  unfold putLocked at hlive ⊢
  split at hlive
  · rename_i hcount
    rw [if_pos hcount]
    dsimp only at hlive ⊢
    split at hlive
    · rename_i hinternal
      rw [if_pos hinternal, deleteIfUnreferenced_of_live hlive]
      refine ⟨rfl, ?_⟩
      have hflag : hwFence.flags &&& ~~~msmHwFenceFlagInternalOwned &&& msmHwFenceFlagSignal =
          hwFence.flags &&& msmHwFenceFlagSignal := by
        rw [UInt64.and_assoc]
        rfl
      simp only [MsmHwFence.hasFlag, MsmHwFence.editRefcount, hflag]
    · rename_i hexternal
      rw [if_neg hexternal, deleteIfUnreferenced_of_live hlive]
      exact ⟨rfl, rfl⟩
  · rename_i hcount
    rw [if_neg hcount]
    exact ⟨rfl, rfl⟩

theorem countP_signalAllWaitClients_import (env : WaitEnv) (clientId : UInt32)
    (hwFence : MsmHwFence) (mask clientData : UInt64) (error hSynx : UInt32) :
    (signalAllWaitClients env.rxqClientsNum env.clients hwFence mask env.hash clientData error
      hSynx).countP (Wakeup.isFor clientId true) = 0 := by
  rw [countP_eq_zero]
  intro wakeup hmem
  rcases mem_append.mp hmem with hmem | hmem
  · obtain ⟨id, _, rfl⟩ := mem_map.mp hmem
    simp [Wakeup.isFor]
  · split at hmem
    · rw [mem_singleton.mp hmem]
      simp [Wakeup.isFor]
    · cases hmem

theorem countP_signalAllWaitClients (env : WaitEnv) (hid : clientId.toNat ≤ env.rxqClientsNum.toNat)
    (hclient : env.clients clientId.toNat = true) (hwFence : MsmHwFence) (mask clientData : UInt64)
    (error hSynx : UInt32) :
    (signalAllWaitClients env.rxqClientsNum env.clients hwFence mask env.hash clientData error
      hSynx).countP (Wakeup.isFor clientId false) = if hasBit mask clientId then 1 else 0 := by
  have hids : (waitClientIds env.rxqClientsNum env.clients mask).count clientId.toNat =
      if hasBit mask clientId then 1 else 0 := by
    unfold waitClientIds
    by_cases hbit : hasBit mask clientId = true
    · rw [count_filter (by simpa [hasBit, hclient, UInt32.ofNat_toNat] using hbit),
        if_pos hbit]
      exact count_eq_one_of_mem nodup_range (mem_range.mpr (by omega))
    · rw [if_neg hbit, count_eq_zero]
      intro hmem
      have hset := (mem_filter.mp hmem).2
      simp only [UInt32.ofNat_toNat, Bool.and_eq_true] at hset
      exact hbit hset.1
  have hsynx : ∀ c : Prop, ∀ [Decidable c],
      (if c then [Wakeup.synx hSynx error] else []).countP (Wakeup.isFor clientId false) = 0 := by
    intro c _
    split <;> rfl
  rw [signalAllWaitClients, countP_append, hsynx, Nat.add_zero, countP_map, ← hids,
    count]
  congr 1
  funext id
  simp only [Function.comp_apply, Wakeup.isFor, decide_true, Bool.and_true]
  rfl

/-! ## Runs -/

/-- What holds of the calls made, the calls due and the ghost records. -/
structure WaitInvariant (env : WaitEnv) (s : WaitState) : Prop where
  imported_registered : ∀ clientId ∈ s.importedBefore ++ s.importedAfter,
    env.clients clientId.toNat = true
  flag_set : s.signaledMask.isSome → s.hwFence.hasFlag msmHwFenceFlagSignal = true
  before_set : ∀ clientId ∈ s.importedBefore,
    hasBit (s.signaledMask.getD s.hwFence.waitClientMask) clientId = true
  reports_count : s.reports.count true = if s.signaledMask.isSome then 1 else 0
  signals_count : ∀ clientId : UInt32, clientId.toNat ≤ env.rxqClientsNum.toNat →
    env.clients clientId.toNat = true →
    s.made clientId false + s.signalsDue clientId =
      if s.signaledMask.any (hasBit · clientId) then 1 else 0
  signals_not_import : ∀ clientId : UInt32,
    s.signaling.flatten.countP (Wakeup.isFor clientId true) = 0
  imports_count : ∀ clientId : UInt32,
    s.made clientId true + s.importsDue clientId = s.importedAfter.count clientId

theorem waitInvariant_init (env : WaitEnv) (hwFence : MsmHwFence) :
    WaitInvariant env { hwFence := hwFence } where
  imported_registered := by simp
  flag_set := by simp
  before_set := by simp
  reports_count := by simp
  signals_count := by simp [WaitState.made, WaitState.signalsDue]
  signals_not_import := by simp
  imports_count := by simp [WaitState.made, WaitState.importsDue]

theorem WaitInvariant.afterImportLock (h : WaitInvariant env s)
    (hother : s.hwFence.fenceAllocator ≠ clientId) (hclient : env.clients clientId.toNat = true)
    (hret : (registerWaitLocked s.hwFence clientId dmaFenceSignaled incrRefcount
      importFlags).ret = 0) :
    WaitInvariant env (s.afterImportLock clientId
      (registerWaitLocked s.hwFence clientId dmaFenceSignaled incrRefcount importFlags)) := by
  obtain ⟨hsig, hflags, hmask⟩ := registerWaitLocked_waiter hother hret
  set reg := registerWaitLocked s.hwFence clientId dmaFenceSignaled incrRefcount importFlags
  refine ⟨?_, ?_, ?_, h.reports_count, h.signals_count, h.signals_not_import, ?_⟩
  · intro c hc
    have hcons : c = clientId ∨ c ∈ s.importedBefore ++ s.importedAfter := by
      simp only [WaitState.afterImportLock] at hc
      split at hc
      · simp only [mem_append, mem_cons] at hc ⊢
        tauto
      · simp only [cons_append, mem_cons] at hc
        exact hc
    rcases hcons with rfl | hc
    · exact hclient
    · exact h.imported_registered c hc
  · intro hsome
    simpa only [MsmHwFence.hasFlag, WaitState.afterImportLock, hflags] using h.flag_set hsome
  · intro c hc
    simp only [WaitState.afterImportLock] at hc ⊢
    rw [hmask]
    cases hm : s.signaledMask with
    | some mask =>
      -- the fence is signaled, so this import is not one of those before
      have hflag := h.flag_set (by simp [hm])
      rw [if_pos (hsig.trans hflag)] at hc
      simpa only [hm, Option.getD_some] using h.before_set c hc
    | none =>
      rw [Option.getD_none, hasBit_or, Bool.or_eq_true]
      split at hc
      · left
        simpa only [hm, Option.getD_none] using h.before_set c hc
      · rcases mem_cons.mp hc with rfl | hc
        · exact .inr (hasBit_bit c)
        · left
          simpa only [hm, Option.getD_none] using h.before_set c hc
  · intro c
    have hcount := h.imports_count c
    simp only [WaitState.made, WaitState.importsDue, WaitState.afterImportLock,
      countP_cons] at hcount ⊢
    by_cases hsignaled : reg.isSignaled = true
    · by_cases hc : clientId = c
      · simp only [hsignaled, hc, if_true, count_cons_self, decide_true, Bool.and_self]
        omega
      · simp only [hsignaled, hc, if_true, count_cons_of_ne hc, decide_false,
          Bool.false_and, Bool.false_eq_true, if_false]
        omega
    · simp only [hsignaled, Bool.and_false, Bool.false_eq_true, if_false]
      omega

theorem WaitInvariant.setFence (h : WaitInvariant env s)
    (hmask : hwFence.waitClientMask = s.hwFence.waitClientMask)
    (hflag : hwFence.hasFlag msmHwFenceFlagSignal = s.hwFence.hasFlag msmHwFenceFlagSignal) :
    WaitInvariant env { s with hwFence := hwFence } where
  imported_registered := h.imported_registered
  flag_set := fun hsome => hflag.trans (h.flag_set hsome)
  before_set := by
    intro c hc
    rw [hmask]
    exact h.before_set c hc
  reports_count := h.reports_count
  signals_count := h.signals_count
  signals_not_import := h.signals_not_import
  imports_count := h.imports_count

theorem WaitInvariant.step {s' : WaitState} (h : WaitInvariant env s) (hstep : WaitStep env s s') :
    WaitInvariant env s' := by
  cases hstep with
  | importLock clientId dmaFenceSignaled incrRefcount importFlags hother hclient hret =>
    exact h.afterImportLock hother hclient hret
  | importFinish call others others' hcall =>
    refine ⟨h.imported_registered, h.flag_set, h.before_set, h.reports_count, ?_,
      h.signals_not_import, ?_⟩
    · intro c hid hclient
      have hcount := h.signals_count c hid hclient
      simp only [WaitState.made, WaitState.signalsDue] at hcount ⊢
      split
      · simpa only [countP_cons, Wakeup.isFor, Bool.true_eq_false, decide_false,
          Bool.and_false, Bool.false_eq_true, if_false, Nat.add_zero] using hcount
      · exact hcount
    · intro c
      have hcount := h.imports_count c
      simp only [WaitState.made, WaitState.importsDue, hcall, countP_append,
        countP_cons] at hcount ⊢
      by_cases hsignaled : call.isSignaled = true
      · simp only [hsignaled, if_true, countP_cons, Wakeup.isFor, UInt32.toNat_inj,
          decide_true, Bool.and_true] at hcount ⊢
        omega
      · simp only [hsignaled, Bool.and_false, Bool.false_eq_true, if_false] at hcount ⊢
        omega
  | signalLate error hlocked =>
    refine ⟨h.imported_registered, h.flag_set, h.before_set, ?_, h.signals_count,
      h.signals_not_import, h.imports_count⟩
    simpa using h.reports_count
  | signalLock error releaseRef hwFence snapshot hlocked =>
    obtain ⟨hunset, hset, hmask⟩ := signalLocked_eq_some hlocked
    have hnone : s.signaledMask = none := by
      cases hm : s.signaledMask with
      | none => rfl
      | some mask =>
        rw [h.flag_set (by simp [hm])] at hunset
        cases hunset
    refine ⟨h.imported_registered, fun _ => hset, ?_, ?_, ?_, ?_, h.imports_count⟩
    · intro c hc
      simpa only [hnone, Option.getD_none, Option.getD_some, hmask] using h.before_set c hc
    · have hcount := h.reports_count
      simp only [hnone, Option.isSome_none, Bool.false_eq_true, if_false] at hcount
      simp [hcount]
    · intro c hid hclient
      have hcount := h.signals_count c hid hclient
      simp only [hnone, Option.any_none, Bool.false_eq_true, if_false] at hcount
      simp only [WaitState.made, WaitState.signalsDue, flatten_cons, countP_append,
        countP_signalAllWaitClients env hid hclient, Option.any_some] at hcount ⊢
      omega
    · intro c
      rw [flatten_cons, countP_append, countP_signalAllWaitClients_import,
        h.signals_not_import c]
  | signalNext wakeup rest others others' hsignal =>
    have hsplit : ∀ c fromImport, s.signaling.flatten.countP (Wakeup.isFor c fromImport) =
        (others ++ rest :: others').flatten.countP (Wakeup.isFor c fromImport) +
          if Wakeup.isFor c fromImport wakeup then 1 else 0 := by
      intro c fromImport
      simp only [hsignal, flatten_append, flatten_cons, countP_append,
        countP_cons]
      omega
    refine ⟨h.imported_registered, h.flag_set, h.before_set, h.reports_count, ?_, ?_, ?_⟩
    · intro c hid hclient
      have hcount := h.signals_count c hid hclient
      simp only [WaitState.made, WaitState.signalsDue, hsplit c false, countP_cons]
        at hcount ⊢
      omega
    · intro c
      have hzero := h.signals_not_import c
      rw [hsplit c true] at hzero
      simp only
      omega
    · intro c
      have hcount := h.imports_count c
      have hzero := h.signals_not_import c
      rw [hsplit c true] at hzero
      simp only [WaitState.made, WaitState.importsDue, countP_cons] at hcount ⊢
      omega
  | destroyRefcount ref hlive =>
    obtain ⟨hmask, hflag⟩ := keepsWaiting_destroyRefcountLocked hlive
    exact h.setFence hmask hflag
  | put hlive =>
    obtain ⟨hmask, hflag⟩ := keepsWaiting_putLocked hlive
    exact h.setFence hmask hflag

/-- In every interleaving of imports, signal attempts and releases at most one attempt reports
that it signaled the fence. For each importing client with an Rx queue, the calls that attempt
makes or still has to make are one if the client's bit was set when it took the lock, as it
was if the client imported before, and none otherwise; and the calls from the client's own
imports are as many as its imports that found the fence signaled. -/
theorem importing_clients_woken_once {env : WaitEnv} {hwFence : MsmHwFence} {s : WaitState}
    (hrun : Relation.ReflTransGen (WaitStep env) { hwFence := hwFence } s) :
    s.reports.count true ≤ 1 ∧
    ∀ clientId ∈ s.importedBefore ++ s.importedAfter,
      clientId.toNat ≤ env.rxqClientsNum.toNat →
      (s.made clientId false + s.signalsDue clientId =
        if s.signaledMask.any (hasBit · clientId) then 1 else 0) ∧
      (clientId ∈ s.importedBefore → true ∈ s.reports →
        s.made clientId false + s.signalsDue clientId = 1) ∧
      s.made clientId true + s.importsDue clientId = s.importedAfter.count clientId := by
  have hinv : WaitInvariant env s := by
    induction hrun with
    | refl => exact waitInvariant_init env hwFence
    | tail _ hlast ih => exact ih.step hlast
  refine ⟨?_, ?_⟩
  · rw [hinv.reports_count]
    split <;> omega
  · intro clientId himported hid
    have hsignals := hinv.signals_count clientId hid (hinv.imported_registered clientId himported)
    refine ⟨hsignals, ?_, hinv.imports_count clientId⟩
    intro hbefore hreport
    have hpos := count_pos_iff.mpr hreport
    rw [hinv.reports_count] at hpos
    obtain ⟨mask, hmask⟩ : ∃ mask, s.signaledMask = some mask := by
      cases hm : s.signaledMask with
      | none => simp [hm] at hpos
      | some mask => exact ⟨mask, rfl⟩
    have hset := hinv.before_set clientId hbefore
    rw [hmask, Option.getD_some] at hset
    rw [hsignals, hmask, Option.any_some, if_pos hset]

def sampleWaitEnv : WaitEnv where
  hash := 0
  rxqClientsNum := 4
  clients := fun _ => true

def sampleWaitFence : MsmHwFence := reserveHwFence {} 1 1 1 0

def sampleImported : WaitState :=
  ({ hwFence := sampleWaitFence } : WaitState).afterImportLock 2
    (registerWaitLocked sampleWaitFence 2 false true 0)

theorem sampleImported_signalable : (signalLocked sampleImported.hwFence 0).isSome := by
  decide +kernel

def sampleSignaled : WaitState :=
  let locked := (signalLocked sampleImported.hwFence 0).get sampleImported_signalable
  { sampleImported with
    hwFence := locked.1
    signaling := signalAllWaitClients 4 (fun _ => true) locked.1 locked.2.waitClientMask 0
      locked.2.clientData 0 locked.2.hSynx :: sampleImported.signaling
    reports := true :: sampleImported.reports
    signaledMask := some locked.2.waitClientMask }

/-- Client 2 imported before the signal, which has one call to make for it. -/
theorem sample_importing_clients_woken_once :
    2 ∈ sampleSignaled.importedBefore ∧ true ∈ sampleSignaled.reports ∧
      sampleSignaled.made 2 false + sampleSignaled.signalsDue 2 = 1 := by
  have himport : WaitStep sampleWaitEnv { hwFence := sampleWaitFence } sampleImported :=
    .importLock { hwFence := sampleWaitFence } 2 false true 0 (by decide) rfl (by decide +kernel)
  have hsignal : WaitStep sampleWaitEnv sampleImported sampleSignaled :=
    .signalLock sampleImported 0 true _ _ (Option.some_get sampleImported_signalable).symm
  have hbefore : 2 ∈ sampleSignaled.importedBefore := by decide +kernel
  have hreport : true ∈ sampleSignaled.reports := by decide +kernel
  have hwoken := (importing_clients_woken_once (.tail (.single himport) hsignal)).2 2
    (mem_append_left _ hbefore) (by decide)
  exact ⟨hbefore, hreport, hwoken.2.1 hbefore hreport⟩

end QcomModules.HwFence
