import QcomModules.HwFence.Join

/-! Failing array imports. Several calls of `hw_fence_process_fence_array` share children; one
that fails takes its join fence out of the parent lists again. The clean-up erases a slot in
place and lowers the count, so it keeps the other parents only if it erases the last ones. -/

namespace QcomModules.HwFence

open Function
open List hiding Vector

/-! ## The clean-up of one child -/

/-- One round of the loop over the parents, for slot `j`. -/
def eraseParent (hwFenceChild : MsmHwFence) (hashJoinFence : UInt64) (j : ℕ) : MsmHwFence :=
  if hwFenceChild.parentList[j]? = some hashJoinFence then
    { hwFenceChild with
      parentList := hwFenceChild.parentList.setIfInBounds j hwFenceInvalidParentFence
      parentsCnt := if hwFenceChild.parentsCnt ≠ 0 then hwFenceChild.parentsCnt - 1 else 0 }
  else hwFenceChild

/-- The rounds for the slots below `j`, from the last one. -/
def eraseParents (hashJoinFence : UInt64) : ℕ → MsmHwFence → MsmHwFence
  | 0, hwFenceChild => hwFenceChild
  | j + 1, hwFenceChild => eraseParents hashJoinFence j (eraseParent hwFenceChild hashJoinFence j)

/-- The locked section of `_cleanup_join_and_child_fences` for one child. -/
def cleanupChildLocked (hwFenceChild : MsmHwFence) (hashJoinFence : UInt64) : MsmHwFence :=
  eraseParents hashJoinFence (min hwFenceChild.parentsCnt.toNat msmHwFenceMaxJoinParents)
    hwFenceChild

/-- The join fence is a parent of the child in the last slots only. -/
def ErasesLast (hwFenceChild : MsmHwFence) (hashJoinFence : UInt64) : Prop :=
  ∃ kept n, hwFenceChild.activeParents = kept ++ List.replicate n hashJoinFence ∧
    hashJoinFence ∉ kept

section
variable {hwFence : MsmHwFence} {hash : UInt64}

@[simp]
theorem flags_eraseParent (j : ℕ) : (eraseParent hwFence hash j).flags = hwFence.flags := by
  rw [eraseParent]
  split <;> rfl

@[simp]
theorem flags_eraseParents (j : ℕ) (hwFence : MsmHwFence) :
    (eraseParents hash j hwFence).flags = hwFence.flags := by
  induction j generalizing hwFence with
  | zero => rfl
  | succ j ih => rw [eraseParents, ih, flags_eraseParent]

@[simp]
theorem hasFlag_cleanupChildLocked (flag : UInt64) :
    (cleanupChildLocked hwFence hash).hasFlag flag = hwFence.hasFlag flag := by
  rw [cleanupChildLocked, MsmHwFence.hasFlag, flags_eraseParents, MsmHwFence.hasFlag]

theorem length_activeParents (hcnt : hwFence.parentsCnt.toNat ≤ msmHwFenceMaxJoinParents) :
    hwFence.activeParents.length = hwFence.parentsCnt.toNat := by
  rw [MsmHwFence.activeParents, length_take, Vector.length_toList]
  exact Nat.min_eq_left hcnt

variable {j : ℕ} {hwFence' : MsmHwFence}

theorem getElem?_activeParents (hj : j < hwFence.parentsCnt.toNat) :
    hwFence.activeParents[j]? = hwFence.parentList[j]? := by
  rw [MsmHwFence.activeParents, getElem?_take_of_lt hj, Vector.getElem?_toList]

theorem eraseParents_of_notMem (h : hash ∉ hwFence.activeParents)
    (hj : j ≤ hwFence.parentsCnt.toNat) : eraseParents hash j hwFence = hwFence := by
  induction j with
  | zero => rfl
  | succ j ih =>
    have hne : hwFence.parentList[j]? ≠ some hash := by
      rw [← getElem?_activeParents hj]
      exact fun heq => h (mem_of_getElem? heq)
    rw [eraseParents, eraseParent, if_neg hne]
    exact ih (Nat.le_of_succ_le hj)

theorem eraseParent_last {parents : List UInt64}
    (hactive : hwFence.activeParents = parents ++ [hash])
    (hcnt : hwFence.parentsCnt.toNat ≤ msmHwFenceMaxJoinParents) :
    (eraseParent hwFence hash parents.length).activeParents = parents ∧
      (eraseParent hwFence hash parents.length).parentsCnt.toNat = parents.length := by
  have hlen := length_activeParents hcnt
  rw [hactive, length_append, length_singleton] at hlen
  have hlast : hwFence.parentList[parents.length]? = some hash := by
    rw [← getElem?_activeParents (by omega), hactive]
    simp
  have hne : hwFence.parentsCnt ≠ 0 := by
    intro hzero
    rw [hzero] at hlen
    cases hlen
  have hone : 1 ≤ hwFence.parentsCnt := by
    rw [UInt32.le_iff_toNat_le]
    exact hlen ▸ Nat.le_add_left 1 _
  have hpred : (hwFence.parentsCnt - 1).toNat = parents.length := by
    rw [UInt32.toNat_sub_of_le _ _ hone, ← hlen]
    rfl
  rw [eraseParent, if_pos hlast, MsmHwFence.activeParents]
  simp only [if_pos hne, hpred, and_true]
  rw [Vector.toList_setIfInBounds, take_set_of_le (le_refl _)]
  have htake := congrArg (take parents.length) hactive
  rw [MsmHwFence.activeParents, take_take, take_left, Nat.min_eq_left (by omega)] at htake
  exact htake

theorem cleanupChildLocked_last {kept : List UInt64} {n : ℕ} (hkept : hash ∉ kept)
    (hactive : hwFence.activeParents = kept ++ List.replicate n hash)
    (hcnt : hwFence.parentsCnt.toNat ≤ msmHwFenceMaxJoinParents) :
    (eraseParents hash hwFence.parentsCnt.toNat hwFence).activeParents = kept := by
  induction n generalizing hwFence with
  | zero =>
    rw [replicate_zero, append_nil] at hactive
    rw [eraseParents_of_notMem (hactive ▸ hkept) (le_refl _)]
    exact hactive
  | succ n ih =>
    rw [replicate_succ', ← append_assoc] at hactive
    obtain ⟨hparents, hcnt'⟩ := eraseParent_last hactive hcnt
    have hlen := length_activeParents hcnt
    rw [hactive, length_append, length_singleton] at hlen
    rw [← hlen, eraseParents]
    have hrest := ih hparents (by omega)
    rw [hcnt'] at hrest
    exact hrest

theorem parentsCnt_eraseParent_le (j : ℕ) :
    (eraseParent hwFence hash j).parentsCnt.toNat ≤ hwFence.parentsCnt.toNat := by
  rw [eraseParent]
  split
  · simp only
    split
    · next hne =>
        have hone : 1 ≤ hwFence.parentsCnt := by
          rw [UInt32.le_iff_toNat_le]
          exact Nat.one_le_iff_ne_zero.mpr fun hzero => hne (UInt32.toNat.inj hzero)
        rw [UInt32.toNat_sub_of_le _ _ hone]
        exact Nat.sub_le _ _
    · exact Nat.zero_le _
  · exact le_refl _

theorem parentsCnt_eraseParents_le (j : ℕ) (hwFence : MsmHwFence) :
    (eraseParents hash j hwFence).parentsCnt.toNat ≤ hwFence.parentsCnt.toNat := by
  induction j generalizing hwFence with
  | zero => exact le_refl _
  | succ j ih => exact le_trans (ih _) (parentsCnt_eraseParent_le j)

theorem cleanupChildLocked_cnt (hcnt : hwFence.parentsCnt.toNat ≤ msmHwFenceMaxJoinParents) :
    (cleanupChildLocked hwFence hash).parentsCnt.toNat ≤ msmHwFenceMaxJoinParents :=
  le_trans (parentsCnt_eraseParents_le _ _) hcnt

theorem activeParents_cleanupChildLocked (h : ErasesLast hwFence hash)
    (hcnt : hwFence.parentsCnt.toNat ≤ msmHwFenceMaxJoinParents) :
    (cleanupChildLocked hwFence hash).activeParents =
      hwFence.activeParents.filter (· ≠ hash) := by
  obtain ⟨kept, n, hactive, hkept⟩ := h
  have hfilter : hwFence.activeParents.filter (· ≠ hash) = kept := by
    rw [hactive, filter_append, filter_replicate_of_neg (by simp), append_nil]
    exact filter_eq_self.mpr fun a ha => by simpa using ne_of_mem_of_not_mem ha hkept
  rw [hfilter, cleanupChildLocked, Nat.min_eq_left hcnt]
  exact cleanupChildLocked_last hkept hactive hcnt

theorem addParentLocked_cnt (h : addParentLocked hwFence hash = some hwFence') :
    hwFence'.parentsCnt.toNat ≤ msmHwFenceMaxJoinParents := by
  simp only [addParentLocked] at h
  split at h
  · cases h
  · next hroom =>
      obtain rfl := Option.some.inj h
      exact Nat.le_of_not_ge (not_or.mp hroom).1

theorem signalLocked_parentsCnt {error : UInt32} {snapshot : SignalSnapshot}
    (h : signalLocked hwFence error = some (hwFence', snapshot)) : hwFence'.parentsCnt = 0 := by
  rw [signalLocked] at h
  split at h
  · cases h
  · obtain ⟨rfl, rfl⟩ := Prod.mk.inj (Option.some.inj h)
    rfl

end

/-! ## Calls that share children -/

/-- The calls: the slot of each one's join fence, its array, and the error each child is
signaled with. Join fences are in different slots of the table. -/
structure JoinsEnv (κ : Type) where
  hashJoinFence : κ → UInt64
  hash_inj : Function.Injective hashJoinFence
  clientId : κ → UInt32
  context : κ → UInt64
  seqno : κ → UInt64
  array : κ → List ℕ
  error : ℕ → UInt32

/-- Where a call stands; `cleanup` and `cleanLock` have that many slots left to clean up. -/
inductive CallPc where
  | idle
  | find (i : ℕ)
  | update (i : ℕ) (error : UInt32)
  | lockChild (i : ℕ)
  | cleanup (left : ℕ)
  | cleanLock (left : ℕ)
  | returned (ret : ℤ)
deriving DecidableEq, Repr

structure ArrayCall where
  joinFence : MsmHwFence
  pc : CallPc
  signalJoinFence : Bool

/-- The children, the calls, and the signals that go through the parents of a child. `joined`
is ghost: the calls that registered on a child and were not cleaned up, oldest first. -/
structure JoinsState (κ : Type) where
  children : ℕ → ChildFence
  calls : κ → ArrayCall
  signaling : List (ℕ × List UInt64)
  joined : ℕ → List κ

section
variable {κ : Type} [DecidableEq κ]

namespace JoinsState

variable (s : JoinsState κ)

def setChild (c : ℕ) (hwFence : MsmHwFence) : JoinsState κ :=
  { s with children := Function.update s.children c { s.children c with hwFence := hwFence } }

def setPc (k : κ) (pc : CallPc) : JoinsState κ :=
  { s with calls := Function.update s.calls k { s.calls k with pc := pc } }

def setJoined (c : ℕ) (calls : List κ) : JoinsState κ :=
  { s with joined := Function.update s.joined c calls }

/-- The clean-up of call `k` is past a slot with child `c`. -/
def cleaned (k : κ) (c left : ℕ) : JoinsState κ :=
  (s.setPc k (.cleanup left)).setJoined c ((s.joined c).filter (· ≠ k))

end JoinsState

/-- What a step does about a child in a clean-up. -/
inductive CleanLabel (κ : Type) where
  | none
  /-- Call `k` has child `c` locked and erases its join fence. -/
  | erase (k : κ) (c : ℕ)
  /-- Call `k` does not find child `c` in the table. -/
  | miss (k : κ) (c : ℕ)
deriving DecidableEq, Repr

inductive JoinsStep (env : JoinsEnv κ) :
    CleanLabel κ → JoinsState κ → JoinsState κ → Prop where
  /-- The join fence is created, with the caller waiting. -/
  | start (s : JoinsState κ) (k : κ) (hpc : (s.calls k).pc = .idle) :
      JoinsStep env .none s { s with
        calls := Function.update s.calls k
          { joinFence :=
              { reserveHwFence (s.calls k).joinFence hwFenceJoinFenceClientId (env.context k)
                  (env.seqno k) (UInt32.ofNat (env.array k).length) with
                waitClientMask := bit (env.clientId k) }
            pc := .find 0
            signalJoinFence := false } }
  /-- A child's dma-fence is signaled. -/
  | dmaSignal (s : JoinsState κ) (c : ℕ) :
      JoinsStep env .none s { s with
        children := Function.update s.children c { s.children c with dmaSignaled := true } }
  /-- A child's table entry is signaled. -/
  | signalLock (s : JoinsState κ) (c : ℕ) (hwFence : MsmHwFence) (snapshot : SignalSnapshot)
      (hlocked : signalLocked (s.children c).hwFence (env.error c) = some (hwFence, snapshot)) :
      JoinsStep env .none s { s.setChild c hwFence with
        signaling := (c, hwFence.parentList.toList.take snapshot.parentsCnt.toNat) :: s.signaling }
  /-- A signal accounts its child on the next parent. -/
  | signalParent (s : JoinsState κ) (k : κ) (c : ℕ) (rest : List UInt64)
      (others others' : List (ℕ × List UInt64))
      (hsig : s.signaling = others ++ (c, env.hashJoinFence k :: rest) :: others') :
      JoinsStep env .none s { s with
        calls := Function.update s.calls k { s.calls k with
          joinFence := (updateAndGetJoinFenceSignalStatus (s.calls k).joinFence (env.error c)).1 }
        signaling := others ++ (c, rest) :: others' }
  /-- The next parent is no join fence. -/
  | signalOther (s : JoinsState κ) (c : ℕ) (parent : UInt64) (rest : List UInt64)
      (others others' : List (ℕ × List UInt64))
      (hsig : s.signaling = others ++ (c, parent :: rest) :: others')
      (hparent : ∀ k, parent ≠ env.hashJoinFence k) :
      JoinsStep env .none s { s with signaling := others ++ (c, rest) :: others' }
  /-- `hw_fence_find_with_dma_fence` sees the dma-fence signaled. -/
  | findSignaled (s : JoinsState κ) (k : κ) (i c : ℕ) (hpc : (s.calls k).pc = .find i)
      (hc : (env.array k)[i]? = some c) (hdma : (s.children c).dmaSignaled = true) :
      JoinsStep env .none s (s.setPc k (.update i (env.error c)))
  /-- `hw_fence_find_with_dma_fence` finds the child in the table. -/
  | findFence (s : JoinsState κ) (k : κ) (i c : ℕ) (hpc : (s.calls k).pc = .find i)
      (hc : (env.array k)[i]? = some c) :
      JoinsStep env .none s (s.setPc k (.lockChild i))
  /-- A check on the slot fails. -/
  | fail (s : JoinsState κ) (k : κ) (i c : ℕ) (hpc : (s.calls k).pc = .find i)
      (hc : (env.array k)[i]? = some c) :
      JoinsStep env .none s (s.setPc k (.cleanup (i + 1)))
  | lockSignaled (s : JoinsState κ) (k : κ) (i c : ℕ) (hpc : (s.calls k).pc = .lockChild i)
      (hc : (env.array k)[i]? = some c)
      (hflag : (s.children c).hwFence.hasFlag msmHwFenceFlagSignal = true) :
      JoinsStep env .none s (s.setPc k (.update i (s.children c).hwFence.error))
  | lockRegister (s : JoinsState κ) (k : κ) (i c : ℕ) (hwFence : MsmHwFence)
      (hpc : (s.calls k).pc = .lockChild i) (hc : (env.array k)[i]? = some c)
      (hflag : (s.children c).hwFence.hasFlag msmHwFenceFlagSignal = false)
      (hadd : addParentLocked (s.children c).hwFence (env.hashJoinFence k) = some hwFence) :
      JoinsStep env .none s (((s.setChild c hwFence).setPc k (.find (i + 1))).setJoined c
        (s.joined c ++ [k]))
  | lockFull (s : JoinsState κ) (k : κ) (i c : ℕ) (hpc : (s.calls k).pc = .lockChild i)
      (hc : (env.array k)[i]? = some c)
      (hflag : (s.children c).hwFence.hasFlag msmHwFenceFlagSignal = false)
      (hadd : addParentLocked (s.children c).hwFence (env.hashJoinFence k) = none) :
      JoinsStep env .none s (s.setPc k (.cleanup (i + 1)))
  /-- The call accounts a child that is already signaled. -/
  | update (s : JoinsState κ) (k : κ) (i : ℕ) (error : UInt32)
      (hpc : (s.calls k).pc = .update i error)
      (hi : i < (env.array k).length) :
      JoinsStep env .none s { s with
        calls := Function.update s.calls k
          { joinFence := (updateAndGetJoinFenceSignalStatus (s.calls k).joinFence error).1
            pc := .find (i + 1)
            signalJoinFence :=
              (updateAndGetJoinFenceSignalStatus (s.calls k).joinFence error).2 } }
  /-- The loop is over, with the client signaled or with children to wait for. -/
  | finish (s : JoinsState κ) (k : κ) (hpc : (s.calls k).pc = .find (env.array k).length)
      (hwait : (s.calls k).signalJoinFence = true ∨ env.array k ≠ []) :
      JoinsStep env .none s (s.setPc k (.returned 0))
  /-- An array without fences is refused. -/
  | finishEmpty (s : JoinsState κ) (k : κ) (hpc : (s.calls k).pc = .find (env.array k).length)
      (hflag : (s.calls k).signalJoinFence = false) (hnum : env.array k = []) :
      JoinsStep env .none s (s.setPc k (.cleanup 0))
  /-- The clean-up passes over a child whose dma-fence is signaled. -/
  | cleanSignaled (s : JoinsState κ) (k : κ) (left c : ℕ)
      (hpc : (s.calls k).pc = .cleanup (left + 1))
      (hc : (env.array k)[left]? = some c) (hdma : (s.children c).dmaSignaled = true) :
      JoinsStep env .none s (s.cleaned k c left)
  | cleanMissing (s : JoinsState κ) (k : κ) (left c : ℕ)
      (hpc : (s.calls k).pc = .cleanup (left + 1))
      (hc : (env.array k)[left]? = some c) :
      JoinsStep env (.miss k c) s (s.cleaned k c left)
  | cleanFind (s : JoinsState κ) (k : κ) (left c : ℕ) (hpc : (s.calls k).pc = .cleanup (left + 1))
      (hc : (env.array k)[left]? = some c) :
      JoinsStep env .none s (s.setPc k (.cleanLock (left + 1)))
  | cleanLock (s : JoinsState κ) (k : κ) (left c : ℕ) (hpc : (s.calls k).pc = .cleanLock (left + 1))
      (hc : (env.array k)[left]? = some c) :
      JoinsStep env (.erase k c) s ((s.setChild c
        (cleanupChildLocked (s.children c).hwFence (env.hashJoinFence k))).cleaned k c left)
  /-- The join fence is destroyed. -/
  | cleanDone (s : JoinsState κ) (k : κ) (hpc : (s.calls k).pc = .cleanup 0) :
      JoinsStep env .none s (s.setPc k (.returned eInval))

structure JoinsState.Initial (s : JoinsState κ) : Prop where
  pc : ∀ k, (s.calls k).pc = .idle
  parents : ∀ c, (s.children c).hwFence.parentsCnt = 0
  signaling : s.signaling = []
  joined : ∀ c, s.joined c = []

/-- A clean-up that erases its join fence from an unsignaled child finds it in the last slots,
and one that misses such a child has nothing to erase there. -/
def CleanupOk (env : JoinsEnv κ) (s : JoinsState κ) : CleanLabel κ → Prop
  | .none => True
  | .erase k c => (s.children c).signaled = false →
      ErasesLast (s.children c).hwFence (env.hashJoinFence k)
  | .miss k c => (s.children c).signaled = false →
      env.hashJoinFence k ∉ (s.children c).hwFence.activeParents

def JoinsStepOk (env : JoinsEnv κ) (s s' : JoinsState κ) : Prop :=
  ∃ label, CleanupOk env s label ∧ JoinsStep env label s s'

/-! ## The invariant -/

/-- The first slots of the array, in which a call's registrations are. -/
def CallPc.slots (n : ℕ) : CallPc → ℕ
  | .idle => 0
  | .find i => i
  | .update i _ => i
  | .lockChild i => i
  | .cleanup left => left
  | .cleanLock left => left
  | .returned ret => if ret = 0 then n else 0

structure JoinsInvariant (env : JoinsEnv κ) (s : JoinsState κ) : Prop where
  cnt : ∀ c, (s.children c).hwFence.parentsCnt.toNat ≤ msmHwFenceMaxJoinParents
  parents : ∀ c, (s.children c).signaled = false →
    (s.children c).hwFence.activeParents = (s.joined c).map env.hashJoinFence
  slots : ∀ k c, k ∈ s.joined c →
    c ∈ (env.array k).take ((s.calls k).pc.slots (env.array k).length)

omit [DecidableEq κ] in
theorem JoinsState.Initial.joinsInvariant {env : JoinsEnv κ} {s : JoinsState κ} (h : s.Initial) :
    JoinsInvariant env s where
  cnt c := by simp [h.parents]
  parents c _ := by simp [MsmHwFence.activeParents, h.parents, h.joined]
  slots k c hk := by simp [h.joined] at hk

namespace JoinsInvariant

variable {env : JoinsEnv κ} {s : JoinsState κ}

omit [DecidableEq κ] in
theorem setCalls (h : JoinsInvariant env s) {calls : κ → ArrayCall}
    (hslots : ∀ k, (s.calls k).pc.slots (env.array k).length ≤
      (calls k).pc.slots (env.array k).length) (signaling : List (ℕ × List UInt64)) :
    JoinsInvariant env { s with calls := calls, signaling := signaling } where
  cnt := h.cnt
  parents := h.parents
  slots k c hk := take_subset_take_left _ (hslots k) (h.slots k c hk)

variable {k : κ} {c : ℕ}

theorem setCall (h : JoinsInvariant env s) {call : ArrayCall}
    (hslots : (s.calls k).pc.slots (env.array k).length ≤ call.pc.slots (env.array k).length)
    (signaling : List (ℕ × List UInt64)) :
    JoinsInvariant env { s with
      calls := Function.update s.calls k call
      signaling := signaling } := by
  refine h.setCalls ?_ signaling
  intro k'
  by_cases hk : k' = k
  · subst hk
    rw [update_self]
    exact hslots
  · rw [update_of_ne hk]

theorem setPc (h : JoinsInvariant env s) {pc : CallPc}
    (hslots : (s.calls k).pc.slots (env.array k).length ≤ pc.slots (env.array k).length) :
    JoinsInvariant env (s.setPc k pc) :=
  h.setCall hslots s.signaling

omit [DecidableEq κ] in
theorem setSignaled (h : JoinsInvariant env s) {child : ChildFence}
    (hcnt : child.hwFence.parentsCnt.toNat ≤ msmHwFenceMaxJoinParents)
    (hsignaled : child.signaled = true) (signaling : List (ℕ × List UInt64)) :
    JoinsInvariant env { s with
      children := Function.update s.children c child
      signaling := signaling } where
  cnt c' := by
    by_cases hc : c' = c
    · simpa [hc] using hcnt
    · simpa [hc] using h.cnt c'
  parents c' hc' := by
    by_cases hc : c' = c
    · simp [hc, hsignaled] at hc'
    · simp only [update_of_ne hc] at hc' ⊢
      exact h.parents c' hc'
  slots := h.slots

omit [DecidableEq κ] in
theorem setChild (h : JoinsInvariant env s) {hwFence : MsmHwFence} {calls : List κ}
    (hcnt : hwFence.parentsCnt.toNat ≤ msmHwFenceMaxJoinParents)
    (hflag : hwFence.hasFlag msmHwFenceFlagSignal =
      (s.children c).hwFence.hasFlag msmHwFenceFlagSignal)
    (hparents : (s.children c).signaled = false →
      hwFence.activeParents = calls.map env.hashJoinFence)
    (hslots : ∀ k ∈ calls, c ∈ (env.array k).take ((s.calls k).pc.slots (env.array k).length)) :
    JoinsInvariant env ((s.setChild c hwFence).setJoined c calls) where
  cnt c' := by
    by_cases hc : c' = c
    · simpa [JoinsState.setChild, JoinsState.setJoined, hc] using hcnt
    · simpa [JoinsState.setChild, JoinsState.setJoined, hc] using h.cnt c'
  parents c' hc' := by
    by_cases hc : c' = c
    · subst hc
      simp only [JoinsState.setChild, JoinsState.setJoined, update_self,
        ChildFence.signaled, hflag] at hc' ⊢
      exact hparents hc'
    · simp only [JoinsState.setChild, JoinsState.setJoined, update_of_ne hc] at hc' ⊢
      exact h.parents c' hc'
  slots k c' hk := by
    by_cases hc : c' = c
    · subst hc
      simp only [JoinsState.setChild, JoinsState.setJoined, update_self] at hk
      exact hslots k hk
    · simp only [JoinsState.setJoined, JoinsState.setChild, update_of_ne hc] at hk
      exact h.slots k c' hk

theorem register (h : JoinsInvariant env s) {i : ℕ} {hwFence : MsmHwFence}
    (hpc : (s.calls k).pc = .lockChild i) (hc : (env.array k)[i]? = some c)
    (hadd : addParentLocked (s.children c).hwFence (env.hashJoinFence k) = some hwFence) :
    JoinsInvariant env (((s.setChild c hwFence).setPc k (.find (i + 1))).setJoined c
      (s.joined c ++ [k])) := by
  obtain ⟨hparents, hflag, -⟩ := addParentLocked_spec hadd
  have hpc' : JoinsInvariant env (s.setPc k (.find (i + 1))) := by
    refine h.setPc ?_
    rw [hpc]
    exact Nat.le_succ i
  refine hpc'.setChild (addParentLocked_cnt hadd) hflag ?_ ?_
  · intro hunsignaled
    rw [hparents, h.parents c hunsignaled, map_append]
    rfl
  · intro k' hk'
    rcases mem_append.mp hk' with hold | hnew
    · exact hpc'.slots k' c hold
    · obtain rfl := mem_singleton.mp hnew
      simp only [JoinsState.setPc, update_self, CallPc.slots]
      exact mem_of_getElem? (by rw [getElem?_take_of_lt (Nat.lt_succ_self i), hc])

theorem lowerPc (h : JoinsInvariant env s) {pc : CallPc}
    (hslots : ∀ c, k ∈ s.joined c → c ∈ (env.array k).take (pc.slots (env.array k).length)) :
    JoinsInvariant env (s.setPc k pc) where
  cnt := h.cnt
  parents := h.parents
  slots k' c hk' := by
    by_cases hk : k' = k
    · subst hk
      simp only [JoinsState.setPc, update_self]
      exact hslots c hk'
    · simp only [JoinsState.setPc, update_of_ne hk]
      exact h.slots k' c hk'

theorem cleaned (h : JoinsInvariant env s) {left : ℕ} {hwFence : MsmHwFence}
    (hpc : (s.calls k).pc.slots (env.array k).length = left + 1)
    (hc : (env.array k)[left]? = some c)
    (hcnt : hwFence.parentsCnt.toNat ≤ msmHwFenceMaxJoinParents)
    (hflag : hwFence.hasFlag msmHwFenceFlagSignal =
      (s.children c).hwFence.hasFlag msmHwFenceFlagSignal)
    (hparents : (s.children c).signaled = false →
      hwFence.activeParents = ((s.joined c).filter (· ≠ k)).map env.hashJoinFence) :
    JoinsInvariant env ((s.setChild c hwFence).cleaned k c left) := by
  have herased := h.setChild hcnt hflag hparents
    (fun k' hk' => h.slots k' c (mem_of_mem_filter hk'))
  refine herased.lowerPc ?_
  intro c' hk
  have hne : c' ≠ c := by
    rintro rfl
    simp [JoinsState.setJoined] at hk
  simp only [JoinsState.setJoined, update_of_ne hne] at hk
  have hslot := h.slots k c' hk
  rw [hpc, take_add_one, hc] at hslot
  rcases mem_append.mp hslot with hin | heq
  · exact hin
  · exact absurd (by simpa using heq) hne

omit [DecidableEq κ] in
theorem setChild_self (c : ℕ) : s.setChild c (s.children c).hwFence = s := by
  simp [JoinsState.setChild]

theorem filter_parents (h : JoinsInvariant env s) (hc : (s.children c).signaled = false) (k : κ) :
    (s.children c).hwFence.activeParents.filter (· ≠ env.hashJoinFence k) =
      ((s.joined c).filter (· ≠ k)).map env.hashJoinFence := by
  rw [h.parents c hc, filter_map]
  congr 1
  refine filter_congr fun k' _ => ?_
  simp [env.hash_inj.eq_iff]

theorem passed (h : JoinsInvariant env s) {left : ℕ} (hpc : (s.calls k).pc = .cleanup (left + 1))
    (hc : (env.array k)[left]? = some c) (hfree : (s.children c).signaled = false →
      env.hashJoinFence k ∉ (s.children c).hwFence.activeParents) :
    JoinsInvariant env (s.cleaned k c left) := by
  have hcleaned := h.cleaned (by rw [hpc]; rfl) hc (h.cnt c) rfl ?_
  · rw [setChild_self] at hcleaned
    exact hcleaned
  · intro hunsignaled
    rw [← h.filter_parents hunsignaled]
    refine (filter_eq_self.mpr fun a ha => ?_).symm
    simpa using ne_of_mem_of_not_mem ha (hfree hunsignaled)

theorem step (h : JoinsInvariant env s) {label : CleanLabel κ} {s' : JoinsState κ}
    (hok : CleanupOk env s label) (hstep : JoinsStep env label s s') : JoinsInvariant env s' := by
  cases hstep with
  | start _ k hpc => exact h.setCall (by rw [hpc]; exact Nat.zero_le _) s.signaling
  | dmaSignal _ c =>
    refine h.setSignaled ?_ ?_ s.signaling
    · exact h.cnt c
    · rfl
  | signalLock _ c hwFence snapshot hlocked =>
    obtain ⟨-, hflag, -⟩ := signalLocked_eq_some hlocked
    exact h.setSignaled (by rw [signalLocked_parentsCnt hlocked]; exact Nat.zero_le _)
      (by rw [ChildFence.signaled, hflag, Bool.or_true]) _
  | signalParent _ k c rest others others' hsig =>
    refine h.setCall ?_ _
    exact le_refl _
  | signalOther _ c parent rest others others' hsig hparent =>
    exact h.setCalls (fun _ => le_refl _) _
  | findSignaled _ k i c hpc hc hdma => exact h.setPc (by rw [hpc]; exact le_refl _)
  | findFence _ k i c hpc hc => exact h.setPc (by rw [hpc]; exact le_refl _)
  | fail _ k i c hpc hc => exact h.setPc (by rw [hpc]; exact Nat.le_succ i)
  | lockSignaled _ k i c hpc hc hflag => exact h.setPc (by rw [hpc]; exact le_refl _)
  | lockRegister _ k i c hwFence hpc hc hflag hadd => exact h.register hpc hc hadd
  | lockFull _ k i c hpc hc hflag hadd => exact h.setPc (by rw [hpc]; exact Nat.le_succ i)
  | update _ k i error hpc hi => exact h.setCall (by rw [hpc]; exact Nat.le_succ i) s.signaling
  | finish _ k hpc hwait => exact h.setPc (by rw [hpc]; exact le_refl _)
  | finishEmpty _ k hpc hflag hnum => exact h.setPc (by rw [hpc, hnum]; exact le_refl _)
  | cleanSignaled _ k left c hpc hc hdma =>
    refine h.passed hpc hc fun hunsignaled => ?_
    rw [ChildFence.signaled, hdma] at hunsignaled
    cases hunsignaled
  | cleanMissing _ k left c hpc hc => exact h.passed hpc hc hok
  | cleanFind _ k left c hpc hc => exact h.setPc (by rw [hpc]; exact le_refl _)
  | cleanLock _ k left c hpc hc =>
    refine h.cleaned (by rw [hpc]; rfl) hc (cleanupChildLocked_cnt (h.cnt c))
      (hasFlag_cleanupChildLocked _) ?_
    intro hunsignaled
    rw [activeParents_cleanupChildLocked (hok hunsignaled) (h.cnt c),
      h.filter_parents hunsignaled]
  | cleanDone _ k hpc => exact h.setPc (by rw [hpc]; exact le_refl _)

end JoinsInvariant
/-! ## The surviving join fences -/

/-- An unsignaled child has the joined calls' join fences as its parents, a signal of it goes
through all of them, and a call that was cleaned up is joined to no child. -/
structure ParentsExact (env : JoinsEnv κ) (s : JoinsState κ) : Prop where
  parents : ∀ c, (s.children c).signaled = false →
    (s.children c).hwFence.activeParents = (s.joined c).map env.hashJoinFence
  notified : ∀ c k, (s.children c).signaled = false → k ∈ s.joined c →
    ∀ error hwFence snapshot,
      signalLocked (s.children c).hwFence error = some (hwFence, snapshot) →
      env.hashJoinFence k ∈ hwFence.parentList.toList.take snapshot.parentsCnt.toNat
  cleaned : ∀ k c, (s.calls k).pc = .returned eInval → k ∉ s.joined c

omit [DecidableEq κ] in
theorem JoinsInvariant.parentsExact {env : JoinsEnv κ} {s : JoinsState κ}
    (h : JoinsInvariant env s) :
    ParentsExact env s where
  parents := h.parents
  notified c k hc hk error hwFence snapshot hlocked := by
    rw [(signalLocked_parents hlocked).2.2, h.parents c hc]
    exact mem_map_of_mem hk
  cleaned k c hpc hk := by
    have hslot := h.slots k c hk
    rw [hpc] at hslot
    simp [CallPc.slots, eInval] at hslot

/-- In every state that steps on their condition reach, no join fence is lost. -/
theorem parents_exact_of_cleanupOk {env : JoinsEnv κ} {s s' : JoinsState κ} (hinit : s.Initial)
    (hrun : Relation.ReflTransGen (JoinsStepOk env) s s') : ParentsExact env s' := by
  have hinv : JoinsInvariant env s' := by
    induction hrun with
    | refl => exact hinit.joinsInvariant
    | tail _ hlast ih =>
      obtain ⟨label, hok, hstep⟩ := hlast
      exact ih.step hok hstep
  exact hinv.parentsExact

end

/-! ## A join fence that is lost -/

/-- The first call has child 0 and a fence that is no HW fence; the second has child 0. -/
def sharedEnv : JoinsEnv Bool where
  hashJoinFence second := if second then 8 else 7
  hash_inj a b := by cases a <;> cases b <;> decide
  clientId _ := 1
  context _ := 0
  seqno _ := 0
  array second := if second then [0] else [0, 1]
  error _ := 0

def sharedStart : JoinsState Bool where
  children _ := ⟨false, unsignaledChild⟩
  calls _ := ⟨{}, .idle, false⟩
  signaling := []
  joined _ := []

theorem sharedStart_initial : sharedStart.Initial := ⟨fun _ => rfl, fun _ => rfl, rfl, fun _ => rfl⟩

/-- The child with the join fences of some calls as its parents. -/
def childOf (parents : Vector UInt64 3) (parentsCnt : UInt32) : MsmHwFence :=
  { unsignaledChild with parentList := parents, parentsCnt := parentsCnt }

/-- The parents of the child once `a` and then the other call have registered. -/
def bothParents (a : Bool) : Vector UInt64 3 :=
  (unsignaledChild.parentList.setIfInBounds 0 (sharedEnv.hashJoinFence a)).setIfInBounds 1
    (sharedEnv.hashJoinFence !a)

theorem both_registered (a : Bool) :
    ∃ s, Relation.ReflTransGen (JoinsStepOk sharedEnv) sharedStart s ∧
      (s.calls false).pc = .cleanup 2 ∧ s.joined 0 = [a, !a] ∧
      s.children 0 = ⟨false, childOf (bothParents a) 2⟩ ∧
      s.children 1 = ⟨false, unsignaledChild⟩ := by
  let start (s : JoinsState Bool) (b : Bool) : JoinsState Bool :=
    { s with
      calls := update s.calls b
        { joinFence :=
            { reserveHwFence (s.calls b).joinFence hwFenceJoinFenceClientId 0 0
                (UInt32.ofNat (sharedEnv.array b).length) with
              waitClientMask := bit 1 }
          pc := .find 0
          signalJoinFence := false } }
  let s₁ := start sharedStart a
  let s₂ := start s₁ (!a)
  let s₃ := s₂.setPc a (.lockChild 0)
  let one := childOf (unsignaledChild.parentList.setIfInBounds 0 (sharedEnv.hashJoinFence a)) 1
  let s₄ := ((s₃.setChild 0 one).setPc a (.find 1)).setJoined 0 [a]
  let s₅ := s₄.setPc (!a) (.lockChild 0)
  let s₆ := ((s₅.setChild 0 (childOf (bothParents a) 2)).setPc (!a) (.find 1)).setJoined 0 [a, !a]
  let s₇ := s₆.setPc false (.cleanup 2)
  have h₁ : JoinsStep sharedEnv .none sharedStart s₁ := .start sharedStart a rfl
  have h₂ : JoinsStep sharedEnv .none s₁ s₂ := .start s₁ (!a) (by cases a <;> rfl)
  have h₃ : JoinsStep sharedEnv .none s₂ s₃ :=
    .findFence s₂ a 0 0 (by cases a <;> rfl) (by cases a <;> rfl)
  have h₄ : JoinsStep sharedEnv .none s₃ s₄ :=
    .lockRegister s₃ a 0 0 one (by cases a <;> rfl) (by cases a <;> rfl)
      (by cases a <;> decide +kernel) (by cases a <;> decide +kernel)
  have h₅ : JoinsStep sharedEnv .none s₄ s₅ :=
    .findFence s₄ (!a) 0 0 (by cases a <;> rfl) (by cases a <;> rfl)
  have h₆ : JoinsStep sharedEnv .none s₅ s₆ :=
    .lockRegister s₅ (!a) 0 0 _ (by cases a <;> rfl) (by cases a <;> rfl)
      (by cases a <;> decide +kernel) (by cases a <;> decide +kernel)
  have h₇ : JoinsStep sharedEnv .none s₆ s₇ := .fail s₆ false 1 1 (by cases a <;> rfl) rfl
  have hok : ∀ {s s'}, JoinsStep sharedEnv .none s s' → JoinsStepOk sharedEnv s s' :=
    fun hstep => ⟨.none, trivial, hstep⟩
  refine ⟨s₇, ((((((Relation.ReflTransGen.single (hok h₁)).tail (hok h₂)).tail (hok h₃)).tail
    (hok h₄)).tail (hok h₅)).tail (hok h₆)).tail (hok h₇), ?_, ?_, ?_, ?_⟩
  · rfl
  · rfl
  · rfl
  · rfl

/-- The second call registers first: the clean-up of the first erases the last parent. -/
theorem erasing_last_parent_exact :
    ∃ s, (s.calls false).pc = .returned eInval ∧ (s.children 0).hwFence.activeParents = [8] ∧
      ParentsExact sharedEnv s := by
  obtain ⟨s, hrun, hpc, -, hchild, hother⟩ := both_registered true
  let s₁ := s.cleaned false 1 1
  let s₂ := s₁.setPc false (.cleanLock 1)
  let s₃ := (s₂.setChild 0 (cleanupChildLocked (s₂.children 0).hwFence 7)).cleaned false 0 0
  let s₄ := s₃.setPc false (.returned eInval)
  have h₁ : JoinsStepOk sharedEnv s s₁ := by
    refine ⟨.miss false 1, fun _ => ?_, .cleanMissing s false 1 1 hpc rfl⟩
    rw [hother]
    decide +kernel
  have h₂ : JoinsStepOk sharedEnv s₁ s₂ := ⟨.none, trivial, .cleanFind s₁ false 0 0 rfl rfl⟩
  have h₃ : JoinsStepOk sharedEnv s₂ s₃ := by
    refine ⟨.erase false 0, fun _ => ?_, .cleanLock s₂ false 0 0 rfl rfl⟩
    refine ⟨[8], 1, ?_, by decide⟩
    change (s.children 0).hwFence.activeParents = _
    rw [hchild]
    decide +kernel
  have h₄ : JoinsStepOk sharedEnv s₃ s₄ := ⟨.none, trivial, .cleanDone s₃ false rfl⟩
  refine ⟨s₄, rfl, ?_, parents_exact_of_cleanupOk sharedStart_initial
    ((((hrun.tail h₁).tail h₂).tail h₃).tail h₄)⟩
  change (cleanupChildLocked (s.children 0).hwFence 7).activeParents = [8]
  rw [hchild]
  decide +kernel

/-- The second call registers last: after the clean-up of the first it is still joined to the
unsignaled child, whose only parent is an erased slot. -/
theorem erasing_first_parent_loses_second :
    ∃ s, Relation.ReflTransGen (fun s s' => ∃ label, JoinsStep sharedEnv label s s')
        sharedStart s ∧
      (s.calls false).pc = .returned eInval ∧ (s.children 0).signaled = false ∧
      s.joined 0 = [true] ∧
      (s.children 0).hwFence.activeParents = [hwFenceInvalidParentFence] := by
  obtain ⟨s, hrun, hpc, hjoined, hchild, -⟩ := both_registered false
  let s₁ := s.cleaned false 1 1
  let s₂ := s₁.setPc false (.cleanLock 1)
  let s₃ := (s₂.setChild 0 (cleanupChildLocked (s₂.children 0).hwFence 7)).cleaned false 0 0
  let s₄ := s₃.setPc false (.returned eInval)
  have hrun' : Relation.ReflTransGen (fun s s' => ∃ label, JoinsStep sharedEnv label s s')
      sharedStart s :=
    Relation.ReflTransGen.mono (fun _ _ ⟨label, _, hstep⟩ => ⟨label, hstep⟩) _ _ hrun
  have h₁ : JoinsStep sharedEnv (.miss false 1) s s₁ := .cleanMissing s false 1 1 hpc rfl
  have h₂ : JoinsStep sharedEnv .none s₁ s₂ := .cleanFind s₁ false 0 0 rfl rfl
  have h₃ : JoinsStep sharedEnv (.erase false 0) s₂ s₃ := .cleanLock s₂ false 0 0 rfl rfl
  have h₄ : JoinsStep sharedEnv .none s₃ s₄ := .cleanDone s₃ false rfl
  refine ⟨s₄, (((hrun'.tail ⟨_, h₁⟩).tail ⟨_, h₂⟩).tail ⟨_, h₃⟩).tail ⟨_, h₄⟩, rfl, ?_, ?_, ?_⟩
  · change (⟨(s.children 0).dmaSignaled, cleanupChildLocked (s.children 0).hwFence 7⟩ :
      ChildFence).signaled = false
    rw [hchild]
    decide +kernel
  · change (s.joined 0).filter (· ≠ false) = [true]
    rw [hjoined]
    rfl
  · change (cleanupChildLocked (s.children 0).hwFence 7).activeParents = _
    rw [hchild]
    decide +kernel

end QcomModules.HwFence
