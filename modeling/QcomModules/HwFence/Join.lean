import Mathlib.Data.Multiset.Count
import Mathlib.Data.Vector.Defs
import QcomModules.HwFence.WakeUp

/-! Join fences. One call of `hw_fence_process_fence_array` goes through the slots of an array
while any of the children is signaled; a slot is accounted either by the call or by the signal
of its child, and whoever accounts the last one signals the waiting client. -/

namespace QcomModules.HwFence

open List hiding Vector

/-- The array, the error each child is signaled with, and where the join fence lives. -/
structure JoinEnv where
  hashJoinFence : UInt64
  clientId : UInt32
  rxqClientsNum : UInt32
  clients : ℕ → Bool
  /-- The child in each slot; children may repeat. -/
  array : List ℕ
  error : ℕ → UInt32

/-- A child: whether its dma-fence is signaled, and its table entry. -/
structure ChildFence where
  dmaSignaled : Bool
  hwFence : MsmHwFence

/-- Where the call of `hw_fence_process_fence_array` stands; `update` has the slot's child
seen signaled with the error, `lockChild` has it found in the table. -/
inductive ArrayPc where
  | find (i : ℕ)
  | update (i : ℕ) (error : UInt32)
  | lockChild (i : ℕ)
  | finished
  | failed (i : ℕ)
deriving DecidableEq, Repr

/-- Where one round of `_signal_parent_fences` stands. -/
inductive ParentStage where
  | next
  /-- The join fence has no pending child left and its clients are to be signaled. -/
  | complete
  | calls (due : List Wakeup)
deriving DecidableEq, Repr

/-- A signal of a child that is going through the child's parents. -/
structure ParentSignal where
  child : ℕ
  parents : List UInt64
  clientData : UInt64
  stage : ParentStage
deriving DecidableEq, Repr

/-- The join fence, the children, the call, the signals in flight, and the wake-ups for the
join fence. `accounted` is ghost: the children whose slots were taken off the pending count. -/
structure JoinState where
  joinFence : MsmHwFence
  children : ℕ → ChildFence
  pc : ArrayPc
  signalJoinFence : Bool
  signaling : List ParentSignal
  wakeups : List Wakeup
  accounted : List ℕ

namespace JoinState

def setChild (s : JoinState) (c : ℕ) (child : ChildFence) : JoinState :=
  { s with children := Function.update s.children c child }

/-- Take one slot of child `c` off the pending count. -/
def account (s : JoinState) (c : ℕ) (error : UInt32) : JoinState :=
  { s with
    joinFence := (updateAndGetJoinFenceSignalStatus s.joinFence error).1
    accounted := c :: s.accounted }

end JoinState

/-- Whether the join fence is complete after one more slot is accounted. -/
def JoinState.completes (s : JoinState) (error : UInt32) : Bool :=
  (updateAndGetJoinFenceSignalStatus s.joinFence error).2

inductive JoinStep (env : JoinEnv) : JoinState → JoinState → Prop where
  /-- A child's dma-fence is signaled. -/
  | dmaSignal (s : JoinState) (c : ℕ) :
      JoinStep env s (s.setChild c { s.children c with dmaSignaled := true })
  /-- `hw_fence_find_with_dma_fence` sees the dma-fence signaled. -/
  | findSignaled (s : JoinState) (i c : ℕ) (hpc : s.pc = .find i) (hc : env.array[i]? = some c)
      (hdma : (s.children c).dmaSignaled = true) :
      JoinStep env s { s with pc := .update i (env.error c) }
  /-- `hw_fence_find_with_dma_fence` finds the child in the table. -/
  | findFence (s : JoinState) (i c : ℕ) (hpc : s.pc = .find i) (hc : env.array[i]? = some c) :
      JoinStep env s { s with pc := .lockChild i }
  /-- A check on the slot fails, and the call goes on to its clean-up. -/
  | fail (s : JoinState) (i c : ℕ) (hpc : s.pc = .find i) (hc : env.array[i]? = some c) :
      JoinStep env s { s with pc := .failed i }
  | lockSignaled (s : JoinState) (i c : ℕ) (hpc : s.pc = .lockChild i)
      (hc : env.array[i]? = some c)
      (hflag : (s.children c).hwFence.hasFlag msmHwFenceFlagSignal = true) :
      JoinStep env s { s with pc := .update i (s.children c).hwFence.error }
  | lockRegister (s : JoinState) (i c : ℕ) (hwFence : MsmHwFence) (hpc : s.pc = .lockChild i)
      (hc : env.array[i]? = some c)
      (hflag : (s.children c).hwFence.hasFlag msmHwFenceFlagSignal = false)
      (hadd : addParentLocked (s.children c).hwFence env.hashJoinFence = some hwFence) :
      JoinStep env s { s.setChild c { s.children c with hwFence := hwFence } with
        pc := .find (i + 1) }
  | lockFull (s : JoinState) (i c : ℕ) (hpc : s.pc = .lockChild i) (hc : env.array[i]? = some c)
      (hflag : (s.children c).hwFence.hasFlag msmHwFenceFlagSignal = false)
      (hadd : addParentLocked (s.children c).hwFence env.hashJoinFence = none) :
      JoinStep env s { s with pc := .failed i }
  /-- The call accounts a child that is already signaled. -/
  | update (s : JoinState) (i c : ℕ) (error : UInt32) (hpc : s.pc = .update i error)
      (hc : env.array[i]? = some c) :
      JoinStep env s { s.account c error with
        signalJoinFence := s.completes error
        pc := .find (i + 1) }
  /-- The loop is over and the flag is set. -/
  | finishSignal (s : JoinState) (hpc : s.pc = .find env.array.length)
      (hflag : s.signalJoinFence = true) :
      JoinStep env s { s with
        pc := .finished
        wakeups := .client env.clientId.toNat env.hashJoinFence 0 s.joinFence.error true ::
          s.wakeups }
  /-- The loop is over and a signal will complete, or has completed, the join fence. -/
  | finishQuiet (s : JoinState) (hpc : s.pc = .find env.array.length)
      (hflag : s.signalJoinFence = false) (hnum : env.array ≠ []) :
      JoinStep env s { s with pc := .finished }
  /-- An array without fences is refused. -/
  | finishEmpty (s : JoinState) (hpc : s.pc = .find env.array.length)
      (hflag : s.signalJoinFence = false) (hnum : env.array = []) :
      JoinStep env s { s with pc := .failed 0 }
  /-- A child's table entry is signaled. -/
  | signalLock (s : JoinState) (c : ℕ) (hwFence : MsmHwFence) (snapshot : SignalSnapshot)
      (hlocked : signalLocked (s.children c).hwFence (env.error c) = some (hwFence, snapshot)) :
      JoinStep env s { s.setChild c { s.children c with hwFence := hwFence } with
        signaling := { child := c
                       parents := hwFence.parentList.toList.take snapshot.parentsCnt.toNat
                       clientData := hwFence.clientData
                       stage := .next } :: s.signaling }
  /-- The next parent is another join fence, or no entry of the table. -/
  | signalOther (s : JoinState) (g : ParentSignal) (parent : UInt64) (rest : List UInt64)
      (others others' : List ParentSignal) (hsig : s.signaling = others ++ g :: others')
      (hstage : g.stage = .next) (hparents : g.parents = parent :: rest)
      (hne : parent ≠ env.hashJoinFence) :
      JoinStep env s { s with signaling := others ++ { g with parents := rest } :: others' }
  /-- The next parent is the join fence: its slot is accounted. -/
  | signalParent (s : JoinState) (g : ParentSignal) (rest : List UInt64)
      (others others' : List ParentSignal) (hsig : s.signaling = others ++ g :: others')
      (hstage : g.stage = .next) (hparents : g.parents = env.hashJoinFence :: rest) :
      JoinStep env s { s.account g.child (env.error g.child) with
        signaling := others ++ { g with
          parents := rest
          stage := if s.completes (env.error g.child) then .complete else .next } :: others' }
  /-- The join fence is complete: its wait mask and error are read. -/
  | signalComplete (s : JoinState) (g : ParentSignal) (others others' : List ParentSignal)
      (hsig : s.signaling = others ++ g :: others') (hstage : g.stage = .complete) :
      JoinStep env s { s with
        signaling := others ++ { g with
          stage := .calls (signalAllWaitClients env.rxqClientsNum env.clients s.joinFence
            s.joinFence.waitClientMask env.hashJoinFence g.clientData s.joinFence.error
            s.joinFence.hSynx) } :: others' }
  | signalCall (s : JoinState) (g : ParentSignal) (wakeup : Wakeup) (due : List Wakeup)
      (others others' : List ParentSignal) (hsig : s.signaling = others ++ g :: others')
      (hstage : g.stage = .calls (wakeup :: due)) :
      JoinStep env s { s with
        signaling := others ++ { g with stage := .calls due } :: others'
        wakeups := wakeup :: s.wakeups }
  | signalResume (s : JoinState) (g : ParentSignal) (others others' : List ParentSignal)
      (hsig : s.signaling = others ++ g :: others') (hstage : g.stage = .calls []) :
      JoinStep env s { s with signaling := others ++ { g with stage := .next } :: others' }
  /-- A signal is through with its parents. -/
  | signalDone (s : JoinState) (g : ParentSignal) (others others' : List ParentSignal)
      (hsig : s.signaling = others ++ g :: others') (hstage : g.stage = .next)
      (hparents : g.parents = []) :
      JoinStep env s { s with signaling := others ++ others' }

/-- The call has created the join fence and made its client wait; no child has it as a parent
yet, and the children signaled so far carry their error. -/
structure JoinState.Initial (env : JoinEnv) (s : JoinState) : Prop where
  pending : s.joinFence.pendingChildCnt.toNat = env.array.length
  error : s.joinFence.error = 0
  waiting : s.joinFence.waitClientMask = bit env.clientId
  pc : s.pc = .find 0
  flag : s.signalJoinFence = false
  signaling : s.signaling = []
  wakeups : s.wakeups = []
  accounted : s.accounted = []
  no_parent : ∀ c, env.hashJoinFence ∉ (s.children c).hwFence.activeParents
  signaled_error : ∀ c, (s.children c).hwFence.hasFlag msmHwFenceFlagSignal = true →
    (s.children c).hwFence.error = env.error c

/-! ## Accounting -/

/-- The slot that the call works on; past the last one when it is over. -/
def ArrayPc.slot (n : ℕ) : ArrayPc → ℕ
  | .find i => i
  | .update i _ => i
  | .lockChild i => i
  | .finished => n
  | .failed i => i

/-- The call has neither returned nor gone to its clean-up. -/
def ArrayPc.running : ArrayPc → Bool
  | .finished => false
  | .failed _ => false
  | _ => true

/-- Calls for a client, whoever makes them. -/
def Wakeup.isForClient (clientId : UInt32) : Wakeup → Bool
  | .client id _ _ _ _ => id = clientId.toNat
  | .synx _ _ => false

def Wakeup.error : Wakeup → UInt32
  | .client _ _ _ error _ => error
  | .synx _ error => error

/-- Calls for the client that a signal has to make before it goes to its next parent. -/
def ParentStage.due (clientId : UInt32) : ParentStage → ℕ
  | .next => 0
  | .complete => 1
  | .calls due => due.countP (Wakeup.isForClient clientId)

@[simp] theorem ParentStage.due_next (clientId : UInt32) :
    ParentStage.due clientId .next = 0 := rfl

@[simp] theorem ParentStage.due_complete (clientId : UInt32) :
    ParentStage.due clientId .complete = 1 := rfl

@[simp] theorem ParentStage.due_calls (clientId : UInt32) (due : List Wakeup) :
    ParentStage.due clientId (.calls due) = due.countP (Wakeup.isForClient clientId) := rfl

section Counts

variable (env : JoinEnv) (s : JoinState)

/-- Slots of child `c` that wait for the child's signal. -/
def JoinState.registered (c : ℕ) : ℕ :=
  (s.children c).hwFence.activeParents.count env.hashJoinFence

/-- Slots of child `c` that a signal in flight still has to account. -/
def JoinState.inFlight (c : ℕ) : ℕ :=
  (s.signaling.map fun g => if g.child = c then g.parents.count env.hashJoinFence else 0).sum

/-- Slots of child `c` that the call has not dealt with. -/
def JoinState.unprocessed (c : ℕ) : ℕ :=
  (env.array.drop (s.pc.slot env.array.length)).count c

/-- Calls made for the waiting client. -/
def JoinState.made : ℕ := s.wakeups.countP (Wakeup.isForClient env.clientId)

/-- Calls for the waiting client still to be made, by the array call and by signals. -/
def JoinState.due : ℕ :=
  (if s.signalJoinFence && s.pc.running then 1 else 0) +
    (s.signaling.map fun g => g.stage.due env.clientId).sum

/-- The bitwise or of the errors of some children. -/
def JoinEnv.errorOf (children : List ℕ) : UInt32 :=
  children.foldr (fun c error => error ||| env.error c) 0

end Counts

/-- A child counts as signaled once its dma-fence or its table entry is. -/
def ChildFence.signaled (child : ChildFence) : Bool :=
  child.dmaSignaled || child.hwFence.hasFlag msmHwFenceFlagSignal

/-- What links the pending count, the parent lists, the signals in flight and the calls. -/
structure JoinInvariant (env : JoinEnv) (s : JoinState) : Prop where
  slot_le : s.pc.slot env.array.length ≤ env.array.length
  counts : ∀ c, s.accounted.count c + s.registered env c + s.inFlight env c +
    s.unprocessed env c = env.array.count c
  pending : s.joinFence.pendingChildCnt.toNat + s.accounted.length = env.array.length
  error : s.joinFence.error = env.errorOf s.accounted
  waiting : hasBit s.joinFence.waitClientMask env.clientId = true
  signaled_error : ∀ c, (s.children c).hwFence.hasFlag msmHwFenceFlagSignal = true →
    (s.children c).hwFence.error = env.error c
  signaled_free : ∀ c, (s.children c).hwFence.hasFlag msmHwFenceFlagSignal = true →
    s.registered env c = 0
  update_error : ∀ i error c, s.pc = .update i error → env.array[i]? = some c →
    error = env.error c ∧ (s.children c).signaled = true
  accounted_signaled : ∀ c ∈ s.accounted, (s.children c).signaled = true
  inFlight_signaled : ∀ g ∈ s.signaling,
    (s.children g.child).hwFence.hasFlag msmHwFenceFlagSignal = true
  quiet : s.joinFence.pendingChildCnt ≠ 0 →
    s.wakeups = [] ∧ s.signalJoinFence = false ∧ ∀ g ∈ s.signaling, g.stage = .next
  made_error : ∀ w ∈ s.wakeups, w.error = s.joinFence.error
  due_error : ∀ g ∈ s.signaling, ∀ due, g.stage = .calls due →
    ∀ w ∈ due, w.error = s.joinFence.error
  calls : env.clientId.toNat ≤ env.rxqClientsNum.toNat → env.clients env.clientId.toNat = true →
    s.made env + s.due env =
      if s.joinFence.pendingChildCnt = 0 ∧ env.array ≠ [] then 1 else 0

theorem JoinState.Initial.joinInvariant {env : JoinEnv} {s : JoinState} (h : s.Initial env) :
    JoinInvariant env s where
  slot_le := by simp [h.pc, ArrayPc.slot]
  counts := by
    intro c
    have hreg : s.registered env c = 0 := count_eq_zero.mpr (h.no_parent c)
    simp [hreg, h.accounted, JoinState.inFlight, h.signaling, JoinState.unprocessed, h.pc,
      ArrayPc.slot]
  pending := by simp [h.pending, h.accounted]
  error := by simp [h.error, h.accounted, JoinEnv.errorOf]
  waiting := by
    rw [h.waiting]
    exact hasBit_bit env.clientId
  signaled_error := h.signaled_error
  signaled_free := fun c _ => count_eq_zero.mpr (h.no_parent c)
  update_error := by simp [h.pc]
  accounted_signaled := by simp [h.accounted]
  inFlight_signaled := by simp [h.signaling]
  quiet := fun _ => ⟨h.wakeups, h.flag, by simp [h.signaling]⟩
  made_error := by simp [h.wakeups]
  due_error := by simp [h.signaling]
  calls := by
    intro _ _
    have hempty : s.joinFence.pendingChildCnt = 0 → env.array = [] := by
      intro hzero
      have hpending := h.pending
      rw [hzero] at hpending
      exact length_eq_zero_iff.mp hpending.symm
    have hnot : ¬ (s.joinFence.pendingChildCnt = 0 ∧ env.array ≠ []) := fun hz => hz.2 (hempty hz.1)
    simp [JoinState.made, JoinState.due, h.wakeups, h.flag, h.signaling, if_neg hnot]

namespace JoinInvariant

variable {env : JoinEnv} {s : JoinState}

theorem accounted_le (h : JoinInvariant env s) :
    (s.accounted : Multiset ℕ) ≤ (env.array : Multiset ℕ) := by
  rw [Multiset.le_iff_count]
  intro c
  have hcounts := h.counts c
  simp only [Multiset.coe_count]
  omega

variable {c i : ℕ}

theorem pending_ne_zero (h : JoinInvariant env s) (hc : s.accounted.count c < env.array.count c) :
    s.joinFence.pendingChildCnt ≠ 0 := by
  intro hzero
  have hpending := h.pending
  rw [hzero, UInt32.toNat_zero, Nat.zero_add] at hpending
  have heq : (s.accounted : Multiset ℕ) = (env.array : Multiset ℕ) :=
    Multiset.eq_of_le_of_card_le h.accounted_le (by simp [hpending])
  have hcount := congrArg (Multiset.count c) heq
  simp only [Multiset.coe_count] at hcount
  omega

theorem error_of_complete (h : JoinInvariant env s) (hzero : s.joinFence.pendingChildCnt = 0) :
    s.joinFence.error = env.errorOf env.array := by
  have hpending := h.pending
  rw [hzero, UInt32.toNat_zero, Nat.zero_add] at hpending
  have heq : (s.accounted : Multiset ℕ) = (env.array : Multiset ℕ) :=
    Multiset.eq_of_le_of_card_le h.accounted_le (by simp [hpending])
  have hperm : s.accounted.Perm env.array := Multiset.coe_eq_coe.mp heq
  rw [h.error, JoinEnv.errorOf, JoinEnv.errorOf]
  have hcomm : LeftCommutative fun (c : ℕ) (error : UInt32) => error ||| env.error c :=
    ⟨fun a b e => by rw [UInt32.or_assoc, UInt32.or_comm (env.error b), ← UInt32.or_assoc]⟩
  exact hperm.foldr_eq 0

/-! ## Steps of the call -/

theorem setPc (h : JoinInvariant env s) {pc : ArrayPc}
    (hslot : pc.slot env.array.length = s.pc.slot env.array.length)
    (hrunning : s.signalJoinFence = true → pc.running = s.pc.running)
    (hupdate : ∀ i error c, pc = .update i error → env.array[i]? = some c →
      error = env.error c ∧ (s.children c).signaled = true) :
    JoinInvariant env { s with pc := pc } where
  slot_le := hslot.symm ▸ h.slot_le
  counts := by
    intro c
    have hcounts := h.counts c
    simp only [JoinState.unprocessed, hslot] at hcounts ⊢
    exact hcounts
  pending := h.pending
  error := h.error
  waiting := h.waiting
  signaled_error := h.signaled_error
  signaled_free := h.signaled_free
  update_error := hupdate
  accounted_signaled := h.accounted_signaled
  inFlight_signaled := h.inFlight_signaled
  quiet := h.quiet
  made_error := h.made_error
  due_error := h.due_error
  calls := by
    intro hid hclient
    have hcalls := h.calls hid hclient
    simp only [JoinState.made, JoinState.due] at hcalls ⊢
    by_cases hflag : s.signalJoinFence = true
    · rw [hrunning hflag]
      exact hcalls
    · simpa only [Bool.not_eq_true _ ▸ hflag, Bool.false_and] using hcalls

theorem flag_unset_of_slot (h : JoinInvariant env s) (hslot : s.pc.slot env.array.length = i)
    (hc : env.array[i]? = some c) : s.joinFence.pendingChildCnt ≠ 0 := by
  apply h.pending_ne_zero (c := c)
  have hcounts := h.counts c
  have hpos : 0 < s.unprocessed env c := by
    rw [JoinState.unprocessed, hslot, count_pos_iff]
    obtain ⟨hi, rfl⟩ := List.getElem?_eq_some_iff.mp hc
    exact mem_drop_iff_getElem.mpr ⟨0, by omega, rfl⟩
  omega

theorem unprocessed_succ (hc : env.array[i]? = some c) (c' : ℕ) :
    (env.array.drop i).count c' = (env.array.drop (i + 1)).count c' + if c = c' then 1 else 0 := by
  obtain ⟨hi, rfl⟩ := List.getElem?_eq_some_iff.mp hc
  rw [drop_eq_getElem_cons hi, count_cons]
  simp

theorem account_fence (h : JoinInvariant env s) (hpending : s.joinFence.pendingChildCnt ≠ 0) :
    let s' := s.account c (env.error c)
    s'.joinFence.pendingChildCnt.toNat + s'.accounted.length = env.array.length ∧
      s'.joinFence.error = env.errorOf s'.accounted ∧
      hasBit s'.joinFence.waitClientMask env.clientId = true ∧
      s.completes (env.error c) = (s'.joinFence.pendingChildCnt = 0 : Bool) := by
  have hcount := h.pending
  have hpos : s.joinFence.pendingChildCnt.toNat ≠ 0 := by
    intro hzero
    exact hpending (UInt32.toNat_inj.mp hzero)
  have hpred : (s.joinFence.pendingChildCnt - 1).toNat = s.joinFence.pendingChildCnt.toNat - 1 := by
    have hlt := s.joinFence.pendingChildCnt.toNat_lt
    rw [UInt32.toNat_sub, show (1 : UInt32).toNat = 1 from rfl]
    omega
  refine ⟨?_, ?_, h.waiting, ?_⟩
  · simp only [JoinState.account, updateAndGetJoinFenceSignalStatus, if_pos hpending,
      length_cons, hpred]
    omega
  · simp only [JoinState.account, updateAndGetJoinFenceSignalStatus, JoinEnv.errorOf,
      foldr_cons]
    rw [h.error, JoinEnv.errorOf]
  · rfl

theorem step_update (h : JoinInvariant env s) {error : UInt32} (hpc : s.pc = .update i error)
    (hc : env.array[i]? = some c) :
    JoinInvariant env { s.account c error with
      signalJoinFence := s.completes error
      pc := .find (i + 1) } := by
  obtain ⟨rfl, hsignaled⟩ := h.update_error i error c hpc hc
  have hslot : s.pc.slot env.array.length = i := by rw [hpc]; rfl
  have hpending := h.flag_unset_of_slot hslot hc
  obtain ⟨hquiet, hflag, hstages⟩ := h.quiet hpending
  obtain ⟨hcount, herror, hwait, hcompletes⟩ := h.account_fence (c := c) hpending
  refine
    { slot_le := ?_, counts := ?_, pending := hcount, error := herror, waiting := hwait,
      signaled_error := h.signaled_error, signaled_free := h.signaled_free,
      update_error := by simp, accounted_signaled := ?_,
      inFlight_signaled := h.inFlight_signaled, quiet := ?_, made_error := ?_,
      due_error := ?_, calls := ?_ }
  · obtain ⟨hi, _⟩ := List.getElem?_eq_some_iff.mp hc
    exact hi
  · intro c'
    have hcounts := h.counts c'
    have hsucc := unprocessed_succ hc c'
    simp only [JoinState.unprocessed, hslot] at hcounts
    simp only [JoinState.account, JoinState.unprocessed, ArrayPc.slot, count_cons, beq_iff_eq]
    simp only [JoinState.registered, JoinState.inFlight] at hcounts ⊢
    omega
  · intro c' hc'
    rcases mem_cons.mp hc' with rfl | hc'
    · exact hsignaled
    · exact h.accounted_signaled c' hc'
  · intro hne
    refine ⟨hquiet, ?_, hstages⟩
    show s.completes (env.error c) = false
    rw [hcompletes]
    simpa using hne
  · simp [JoinState.account, hquiet]
  · intro g hg due hdue
    rw [hstages g hg] at hdue
    cases hdue
  · intro hid hclient
    have hcalls := h.calls hid hclient
    have hne : env.array ≠ [] := by
      rintro hnil
      simp [hnil] at hc
    rw [if_neg (fun hz => hpending hz.1)] at hcalls
    simp only [JoinState.made, JoinState.due, hflag, Bool.false_and, Bool.false_eq_true,
      if_false] at hcalls
    simp only [JoinState.made, JoinState.due, JoinState.account, ArrayPc.running, Bool.and_true,
      hcompletes]
    by_cases hz : (updateAndGetJoinFenceSignalStatus s.joinFence
        (env.error c)).1.pendingChildCnt = 0
    · simp only [hz, decide_true, if_true, ne_eq, hne, not_false_eq_true, and_self]
      omega
    · simp only [hz, decide_false, Bool.false_eq_true, if_false, false_and]
      omega

theorem step_finishQuiet (h : JoinInvariant env s) (hpc : s.pc = .find env.array.length)
    (hflag : s.signalJoinFence = false) {pc : ArrayPc}
    (hslot : pc.slot env.array.length = env.array.length) (hnot : pc.running = false) :
    JoinInvariant env { s with pc := pc } := by
  apply h.setPc
  · rw [hslot, hpc]
    rfl
  · simp [hflag]
  · intro i error c hupdate
    rw [hupdate] at hnot
    cases hnot

theorem step_finishSignal (h : JoinInvariant env s) (hpc : s.pc = .find env.array.length)
    (hflag : s.signalJoinFence = true) :
    JoinInvariant env { s with
      pc := .finished
      wakeups := .client env.clientId.toNat env.hashJoinFence 0 s.joinFence.error true ::
        s.wakeups } := by
  have hzero : s.joinFence.pendingChildCnt = 0 := by
    by_contra hne
    rw [(h.quiet hne).2.1] at hflag
    cases hflag
  refine { h with slot_le := le_rfl, counts := ?_, update_error := by simp, quiet := ?_,
                  made_error := ?_, calls := ?_ }
  · intro c
    have hcounts := h.counts c
    simpa only [JoinState.registered, JoinState.inFlight, JoinState.unprocessed, hpc,
      ArrayPc.slot] using hcounts
  · intro hne
    exact absurd hzero hne
  · intro w hw
    rcases mem_cons.mp hw with rfl | hw
    · rfl
    · exact h.made_error w hw
  · intro hid hclient
    have hcalls := h.calls hid hclient
    simp only [JoinState.made, JoinState.due, hflag, hpc, ArrayPc.running, Bool.and_true,
      Bool.and_false, if_true, countP_cons, Wakeup.isForClient, decide_true] at hcalls ⊢
    simp only [Bool.false_eq_true, if_false]
    omega

end JoinInvariant

/-! ## Sections of a child -/

variable {hwFence hwFence' : MsmHwFence}

theorem addParentLocked_spec {hash : UInt64} (h : addParentLocked hwFence hash = some hwFence') :
    hwFence'.activeParents = hwFence.activeParents ++ [hash] ∧
      hwFence'.hasFlag msmHwFenceFlagSignal = hwFence.hasFlag msmHwFenceFlagSignal ∧
      hwFence'.error = hwFence.error := by
  unfold addParentLocked at h
  dsimp only at h
  split at h
  · cases h
  · rename_i hroom
    obtain rfl := Option.some.inj h
    refine ⟨?_, rfl, rfl⟩
    simp only [not_or, ge_iff_le, not_le, UInt32.lt_iff_toNat_lt, msmHwFenceMaxJoinParents,
      show (1 : UInt32).toNat = 1 from rfl, not_lt] at hroom
    have hlt := hwFence.parentsCnt.toNat_lt
    have hsucc : (hwFence.parentsCnt + 1).toNat = hwFence.parentsCnt.toNat + 1 := by
      rw [UInt32.toNat_add, show (1 : UInt32).toNat = 1 from rfl] at hroom ⊢
      omega
    have hcnt : hwFence.parentsCnt.toNat < hwFence.parentList.toList.length := by
      simp only [Vector.length_toList]
      omega
    simp only [MsmHwFence.activeParents, hsucc, Nat.add_sub_cancel, Vector.toList_setIfInBounds]
    rw [take_add_one, take_set_of_le (le_refl _), getElem?_set_self hcnt]
    rfl

theorem signalLocked_parents {error : UInt32} {snapshot : SignalSnapshot}
    (h : signalLocked hwFence error = some (hwFence', snapshot)) :
    hwFence'.error = error ∧ hwFence'.activeParents = [] ∧
      hwFence'.parentList.toList.take snapshot.parentsCnt.toNat = hwFence.activeParents := by
  unfold signalLocked at h
  split at h
  · cases h
  · obtain ⟨rfl, rfl⟩ := Prod.mk.inj (Option.some.inj h)
    exact ⟨rfl, by simp [MsmHwFence.activeParents], rfl⟩

namespace JoinInvariant

variable {env : JoinEnv} {s : JoinState}

@[simp] theorem setChild_self (c : ℕ) (child : ChildFence) :
    (s.setChild c child).children c = child := by
  simp [JoinState.setChild]

variable {c c' : ℕ} {hwFence : MsmHwFence} {g : ParentSignal}

@[simp] theorem setChild_of_ne (hc : c' ≠ c) (child : ChildFence) :
    (s.setChild c child).children c' = s.children c' := by
  simp [JoinState.setChild, hc]

theorem signaled_setChild {child : ChildFence}
    (hkeeps : (s.children c).signaled = true → child.signaled = true)
    (h : (s.children c').signaled = true) : ((s.setChild c child).children c').signaled = true := by
  by_cases hc : c' = c
  · subst hc
    rw [setChild_self]
    exact hkeeps h
  · rw [setChild_of_ne hc]
    exact h

theorem step_dmaSignal (h : JoinInvariant env s) (c : ℕ) :
    JoinInvariant env (s.setChild c { s.children c with dmaSignaled := true }) := by
  have hhw : ∀ c', ((s.setChild c { s.children c with dmaSignaled := true }).children c').hwFence =
      (s.children c').hwFence := by
    intro c'
    by_cases hc : c' = c
    · subst hc
      rw [setChild_self]
    · rw [setChild_of_ne hc]
  have hreg : ∀ c', (s.setChild c { s.children c with dmaSignaled := true }).registered env c' =
      s.registered env c' := fun c' => by rw [JoinState.registered, JoinState.registered, hhw]
  have hsignaled : ∀ c', (s.children c').signaled = true →
      ((s.setChild c { s.children c with dmaSignaled := true }).children c').signaled = true :=
    fun c' => signaled_setChild (by simp [ChildFence.signaled])
  refine { h with
    counts := fun c' => (hreg c').symm ▸ h.counts c'
    signaled_error := fun c' => (hhw c').symm ▸ h.signaled_error c'
    signaled_free := fun c' hflag => (hreg c').trans (h.signaled_free c' (hhw c' ▸ hflag))
    update_error := ?_
    accounted_signaled := fun c' hc' => hsignaled c' (h.accounted_signaled c' hc')
    inFlight_signaled := fun g hg => (hhw g.child).symm ▸ h.inFlight_signaled g hg }
  intro i error c' hpc hc'
  obtain ⟨herror, hsig⟩ := h.update_error i error c' hpc hc'
  exact ⟨herror, hsignaled c' hsig⟩

theorem step_lockRegister (h : JoinInvariant env s) {i : ℕ} (hpc : s.pc = .lockChild i)
    (hc : env.array[i]? = some c)
    (hflag : (s.children c).hwFence.hasFlag msmHwFenceFlagSignal = false)
    (hadd : addParentLocked (s.children c).hwFence env.hashJoinFence = some hwFence) :
    JoinInvariant env { s.setChild c { s.children c with hwFence := hwFence } with
      pc := .find (i + 1) } := by
  obtain ⟨hparents, hsame, _⟩ := addParentLocked_spec hadd
  have hunset : hwFence.hasFlag msmHwFenceFlagSignal = false := hsame.trans hflag
  have hslot : s.pc.slot env.array.length = i := by rw [hpc]; rfl
  obtain ⟨hquiet, hnoflag, hstages⟩ := h.quiet (h.flag_unset_of_slot hslot hc)
  have hsignaled : ∀ c', (s.children c').signaled = true →
      ((s.setChild c { s.children c with hwFence := hwFence }).children c').signaled = true :=
    fun c' => signaled_setChild (by simp [ChildFence.signaled, hflag, hunset])
  have hother : ∀ c',
      ((s.setChild c { s.children c with hwFence := hwFence }).children c').hwFence.hasFlag
        msmHwFenceFlagSignal = true → c' ≠ c := by
    rintro c' hset rfl
    rw [setChild_self, hunset] at hset
    cases hset
  refine { h with
    slot_le := ?_, counts := ?_, signaled_error := ?_, signaled_free := ?_,
    update_error := by simp
    accounted_signaled := fun c' hc' => hsignaled c' (h.accounted_signaled c' hc')
    inFlight_signaled := ?_, calls := ?_ }
  · obtain ⟨hi, _⟩ := List.getElem?_eq_some_iff.mp hc
    exact hi
  · intro c'
    have hcounts := h.counts c'
    have hsucc := unprocessed_succ hc c'
    simp only [JoinState.unprocessed, hslot, JoinState.registered, JoinState.inFlight]
      at hcounts
    simp only [JoinState.unprocessed, ArrayPc.slot, JoinState.registered, JoinState.inFlight]
    show s.accounted.count c' + _ + _ + _ = _
    by_cases hcc : c' = c
    · subst hcc
      simp only [setChild_self, hparents, count_append, count_singleton_self]
      simp only [if_true] at hsucc
      simp only [JoinState.setChild]
      omega
    · rw [setChild_of_ne hcc]
      rw [if_neg (Ne.symm hcc)] at hsucc
      simp only [JoinState.setChild]
      omega
  · intro c' hset
    have hcc := hother c' hset
    rw [setChild_of_ne hcc] at hset ⊢
    exact h.signaled_error c' hset
  · intro c' hset
    have hcc := hother c' hset
    rw [JoinState.registered]
    simp only [setChild_of_ne hcc] at hset ⊢
    exact h.signaled_free c' hset
  · intro g hg
    have hset := h.inFlight_signaled g hg
    have hcc : g.child ≠ c := by
      intro heq
      rw [heq, hflag] at hset
      cases hset
    rw [setChild_of_ne hcc]
    exact hset
  · intro hid hclient
    have hcalls := h.calls hid hclient
    simpa only [JoinState.made, JoinState.due, JoinState.setChild, hnoflag, Bool.false_and]
      using hcalls

theorem step_signalLock (h : JoinInvariant env s) {snapshot : SignalSnapshot}
    (hlocked : signalLocked (s.children c).hwFence (env.error c) = some (hwFence, snapshot)) :
    JoinInvariant env { s.setChild c { s.children c with hwFence := hwFence } with
      signaling := { child := c
                     parents := hwFence.parentList.toList.take snapshot.parentsCnt.toNat
                     clientData := hwFence.clientData
                     stage := .next } :: s.signaling } := by
  obtain ⟨hunset, hset, _⟩ := signalLocked_eq_some hlocked
  obtain ⟨herror, hnone, hparents⟩ := signalLocked_parents hlocked
  have hsignaled : ∀ c', (s.children c').signaled = true →
      ((s.setChild c { s.children c with hwFence := hwFence }).children c').signaled = true :=
    fun c' => signaled_setChild (by simp [ChildFence.signaled, hset])
  refine { h with
    counts := ?_, signaled_error := ?_, signaled_free := ?_, update_error := ?_
    accounted_signaled := fun c' hc' => hsignaled c' (h.accounted_signaled c' hc')
    inFlight_signaled := ?_, quiet := ?_, due_error := ?_, calls := ?_ }
  · intro c'
    have hcounts := h.counts c'
    simp only [JoinState.unprocessed, JoinState.registered, JoinState.inFlight] at hcounts
    simp only [JoinState.unprocessed, JoinState.registered, JoinState.inFlight, map_cons,
      sum_cons, hparents]
    show s.accounted.count c' + _ + _ + (env.array.drop (s.pc.slot env.array.length)).count c' = _
    by_cases hcc : c' = c
    · subst hcc
      simp only [setChild_self, hnone, count_nil, if_true]
      omega
    · rw [setChild_of_ne hcc, if_neg (Ne.symm hcc)]
      omega
  · intro c' hset'
    by_cases hcc : c' = c
    · subst hcc
      rw [setChild_self]
      exact herror
    · rw [setChild_of_ne hcc] at hset' ⊢
      exact h.signaled_error c' hset'
  · intro c' hset'
    rw [JoinState.registered]
    by_cases hcc : c' = c
    · subst hcc
      simp only [setChild_self, hnone, count_nil]
    · simp only [setChild_of_ne hcc] at hset' ⊢
      exact h.signaled_free c' hset'
  · intro i error c' hpc hc'
    obtain ⟨he, hsig⟩ := h.update_error i error c' hpc hc'
    exact ⟨he, hsignaled c' hsig⟩
  · intro g hg
    by_cases hcc : g.child = c
    · rw [hcc, setChild_self]
      exact hset
    · rw [setChild_of_ne hcc]
      rcases mem_cons.mp hg with rfl | hg
      · exact absurd rfl hcc
      · exact h.inFlight_signaled g hg
  · intro hne
    obtain ⟨hquiet, hnoflag, hstages⟩ := h.quiet hne
    refine ⟨hquiet, hnoflag, ?_⟩
    intro g hg
    rcases mem_cons.mp hg with rfl | hg
    · rfl
    · exact hstages g hg
  · intro g hg due hdue
    rcases mem_cons.mp hg with rfl | hg
    · cases hdue
    · exact h.due_error g hg due hdue
  · intro hid hclient
    have hcalls := h.calls hid hclient
    simp only [JoinState.made, JoinState.due] at hcalls
    simp only [JoinState.made, JoinState.due, JoinState.setChild, map_cons, sum_cons,
      ParentStage.due_next, Nat.zero_add]
    exact hcalls

/-! ## Steps of a signal in flight -/

theorem moveSignal (h : JoinInvariant env s) {g' : ParentSignal}
    {others others' : List ParentSignal} {wakeups : List Wakeup}
    (hsig : s.signaling = others ++ g :: others') (hchild : g'.child = g.child)
    (hparents : g'.parents.count env.hashJoinFence = g.parents.count env.hashJoinFence)
    (hquiet : s.joinFence.pendingChildCnt ≠ 0 → wakeups = [] ∧ g'.stage = .next)
    (hmade : ∀ w ∈ wakeups, w.error = s.joinFence.error)
    (hdue : ∀ due, g'.stage = .calls due → ∀ w ∈ due, w.error = s.joinFence.error)
    (hcalls : env.clientId.toNat ≤ env.rxqClientsNum.toNat →
      env.clients env.clientId.toNat = true →
      wakeups.countP (Wakeup.isForClient env.clientId) + g'.stage.due env.clientId =
        s.made env + g.stage.due env.clientId) :
    JoinInvariant env { s with signaling := others ++ g' :: others', wakeups := wakeups } := by
  have hmem : ∀ x ∈ others ++ g' :: others', x = g' ∨ x ∈ s.signaling := by
    intro x hx
    rw [hsig]
    simp only [mem_append, mem_cons] at hx ⊢
    tauto
  have hg : g ∈ s.signaling := by simp [hsig]
  refine { h with counts := ?_, inFlight_signaled := ?_, quiet := ?_, made_error := hmade,
                  due_error := ?_, calls := ?_ }
  · intro c
    have hcounts := h.counts c
    simp only [JoinState.registered, JoinState.unprocessed, JoinState.inFlight, hsig,
      map_append,
      map_cons, sum_append, sum_cons, hchild, hparents] at hcounts ⊢
    exact hcounts
  · intro x hx
    rcases hmem x hx with rfl | hx
    · rw [hchild]
      exact h.inFlight_signaled g hg
    · exact h.inFlight_signaled x hx
  · intro hne
    obtain ⟨hnone, hnext⟩ := hquiet hne
    obtain ⟨_, hflag, hstages⟩ := h.quiet hne
    refine ⟨hnone, hflag, ?_⟩
    intro x hx
    rcases hmem x hx with rfl | hx
    · exact hnext
    · exact hstages x hx
  · intro x hx due hstage
    rcases hmem x hx with rfl | hx
    · exact hdue due hstage
    · exact h.due_error x hx due hstage
  · intro hid hclient
    have hsame := hcalls hid hclient
    have hold := h.calls hid hclient
    simp only [JoinState.made, JoinState.due, hsig, map_append, map_cons,
      sum_append, sum_cons] at hsame hold ⊢
    omega

theorem step_signalDone (h : JoinInvariant env s) {others others' : List ParentSignal}
    (hsig : s.signaling = others ++ g :: others') (hstage : g.stage = .next)
    (hparents : g.parents = []) : JoinInvariant env { s with signaling := others ++ others' } := by
  have hmem : ∀ x ∈ others ++ others', x ∈ s.signaling := by
    intro x hx
    rw [hsig]
    simp only [mem_append, mem_cons] at hx ⊢
    tauto
  refine { h with
    counts := ?_
    inFlight_signaled := fun x hx => h.inFlight_signaled x (hmem x hx)
    quiet := ?_
    due_error := fun x hx => h.due_error x (hmem x hx)
    calls := ?_ }
  · intro c
    have hcounts := h.counts c
    simp only [JoinState.registered, JoinState.unprocessed, JoinState.inFlight, hsig,
      map_append, map_cons, sum_append, sum_cons, hparents, count_nil,
      ite_self, Nat.zero_add] at hcounts ⊢
    exact hcounts
  · intro hne
    obtain ⟨hquiet, hflag, hstages⟩ := h.quiet hne
    exact ⟨hquiet, hflag, fun x hx => hstages x (hmem x hx)⟩
  · intro hid hclient
    have hcalls := h.calls hid hclient
    simp only [JoinState.made, JoinState.due, hsig, map_append, map_cons,
      sum_append, sum_cons, hstage, ParentStage.due_next, Nat.zero_add] at hcalls ⊢
    exact hcalls

theorem complete_of_stage (h : JoinInvariant env s) (hg : g ∈ s.signaling)
    (hstage : g.stage ≠ .next) : s.joinFence.pendingChildCnt = 0 := by
  by_contra hne
  exact hstage ((h.quiet hne).2.2 g hg)

theorem countP_isForClient_signalAllWaitClients (hid : env.clientId.toNat ≤ env.rxqClientsNum.toNat)
    (hclient : env.clients env.clientId.toNat = true) {mask : UInt64}
    (hmask : hasBit mask env.clientId = true) (clientData : UInt64) (error hSynx : UInt32) :
    (signalAllWaitClients env.rxqClientsNum env.clients hwFence mask env.hashJoinFence clientData
      error hSynx).countP (Wakeup.isForClient env.clientId) = 1 := by
  let waitEnv : WaitEnv := ⟨env.hashJoinFence, env.rxqClientsNum, env.clients⟩
  have hcount := countP_signalAllWaitClients waitEnv hid hclient hwFence mask clientData
    error hSynx
  rw [if_pos hmask] at hcount
  rw [← hcount]
  apply countP_congr
  intro w hw
  rcases mem_append.mp hw with hw | hw
  · obtain ⟨id, _, rfl⟩ := mem_map.mp hw
    simp [Wakeup.isFor, Wakeup.isForClient]
  · split at hw
    · rw [mem_singleton.mp hw]
      simp [Wakeup.isFor, Wakeup.isForClient]
    · cases hw

theorem step_signalParent (h : JoinInvariant env s) {rest : List UInt64}
    {others others' : List ParentSignal} (hsig : s.signaling = others ++ g :: others')
    (hparents : g.parents = env.hashJoinFence :: rest) :
    JoinInvariant env { s.account g.child (env.error g.child) with
      signaling := others ++ { g with
        parents := rest
        stage := if s.completes (env.error g.child) then .complete else .next } :: others' } := by
  have hg : g ∈ s.signaling := by simp [hsig]
  have hgset := h.inFlight_signaled g hg
  have hpending : s.joinFence.pendingChildCnt ≠ 0 := by
    apply h.pending_ne_zero (c := g.child)
    have hcounts := h.counts g.child
    simp only [JoinState.inFlight, hsig, map_append, map_cons, sum_append,
      sum_cons, if_true, hparents, count_cons_self] at hcounts
    omega
  obtain ⟨hquiet, hflag, hstages⟩ := h.quiet hpending
  obtain ⟨hcount, herror, hwait, hcompletes⟩ := h.account_fence (c := g.child) hpending
  set g' : ParentSignal := { g with
    parents := rest
    stage := if s.completes (env.error g.child) then .complete else .next } with hg'
  have hmem : ∀ x ∈ others ++ g' :: others', x = g' ∨ x ∈ s.signaling := by
    intro x hx
    rw [hsig]
    simp only [mem_append, mem_cons] at hx ⊢
    tauto
  have hnocalls : ∀ due, g'.stage ≠ .calls due := by
    intro due hdue
    simp only [hg'] at hdue
    split at hdue <;> cases hdue
  refine
    { slot_le := h.slot_le, counts := ?_, pending := hcount, error := herror, waiting := hwait,
      signaled_error := h.signaled_error, signaled_free := h.signaled_free,
      update_error := h.update_error, accounted_signaled := ?_, inFlight_signaled := ?_,
      quiet := ?_, made_error := ?_, due_error := ?_, calls := ?_ }
  · intro c
    have hcounts := h.counts c
    simp only [JoinState.registered, JoinState.unprocessed, JoinState.inFlight, hsig,
      map_append, map_cons, sum_append, sum_cons, hparents,
      count_cons_self] at hcounts
    simp only [JoinState.account, JoinState.registered, JoinState.unprocessed, JoinState.inFlight,
      map_append, map_cons, sum_append, sum_cons, hg', count_cons,
      beq_iff_eq]
    by_cases hc : g.child = c
    · simp only [hc, if_true] at hcounts ⊢
      omega
    · simp only [hc, if_false] at hcounts ⊢
      omega
  · intro c hc
    rcases mem_cons.mp hc with rfl | hc
    · show ChildFence.signaled (s.children g.child) = true
      simp [ChildFence.signaled, hgset]
    · exact h.accounted_signaled c hc
  · intro x hx
    rcases hmem x hx with rfl | hx
    · exact hgset
    · exact h.inFlight_signaled x hx
  · intro hne
    refine ⟨hquiet, hflag, ?_⟩
    intro x hx
    rcases hmem x hx with rfl | hx
    · have hnot : s.completes (env.error g.child) = false := by
        rw [hcompletes]
        simpa using hne
      simp only [hg', hnot, Bool.false_eq_true, if_false]
    · exact hstages x hx
  · simp [JoinState.account, hquiet]
  · intro x hx due hdue
    rcases hmem x hx with rfl | hx
    · exact absurd hdue (hnocalls due)
    · rw [hstages x hx] at hdue
      cases hdue
  · intro hid hclient
    have hold := h.calls hid hclient
    have hne : env.array ≠ [] := by
      intro hnil
      have hp := h.pending
      rw [hnil, length_nil] at hp
      exact hpending (UInt32.toNat_inj.mp (by simp; omega))
    rw [if_neg (fun hz => hpending hz.1)] at hold
    simp only [JoinState.made, JoinState.due, hsig, hflag, map_append, map_cons,
      sum_append, sum_cons, Bool.false_and, Bool.false_eq_true, if_false] at hold
    simp only [JoinState.made, JoinState.due, JoinState.account, hflag, map_append,
      map_cons, sum_append, sum_cons, Bool.false_and, Bool.false_eq_true, if_false,
      hg', hcompletes]
    by_cases hz : (updateAndGetJoinFenceSignalStatus s.joinFence
        (env.error g.child)).1.pendingChildCnt = 0
    · simp only [hz, decide_true, if_true, ne_eq, hne, not_false_eq_true, and_self,
        ParentStage.due_complete]
      omega
    · simp only [hz, decide_false, Bool.false_eq_true, if_false, false_and, ParentStage.due_next]
      omega

/-! ## Runs -/

theorem step (h : JoinInvariant env s) {s' : JoinState} (hstep : JoinStep env s s') :
    JoinInvariant env s' := by
  cases hstep with
  | dmaSignal c => exact h.step_dmaSignal c
  | findSignaled i c hpc hc hdma =>
    refine h.setPc (by rw [hpc]; rfl) (by rw [hpc]; intro _; rfl) ?_
    rintro j error c' hupdate hc'
    obtain ⟨rfl, rfl⟩ := ArrayPc.update.inj hupdate
    obtain rfl := Option.some.inj (hc.symm.trans hc')
    exact ⟨rfl, by simp [ChildFence.signaled, hdma]⟩
  | findFence i c hpc hc =>
    exact h.setPc (by rw [hpc]; rfl) (by rw [hpc]; intro _; rfl) (by simp)
  | fail i c hpc hc =>
    have hslot : s.pc.slot env.array.length = i := by rw [hpc]; rfl
    obtain ⟨_, hflag, _⟩ := h.quiet (h.flag_unset_of_slot hslot hc)
    exact h.setPc (by rw [hpc]; rfl) (by simp [hflag]) (by simp)
  | lockSignaled i c hpc hc hflag =>
    refine h.setPc (by rw [hpc]; rfl) (by rw [hpc]; intro _; rfl) ?_
    rintro j error c' hupdate hc'
    obtain ⟨rfl, rfl⟩ := ArrayPc.update.inj hupdate
    obtain rfl := Option.some.inj (hc.symm.trans hc')
    exact ⟨h.signaled_error c hflag, by simp [ChildFence.signaled, hflag]⟩
  | lockRegister i c hwFence hpc hc hflag hadd => exact h.step_lockRegister hpc hc hflag hadd
  | lockFull i c hpc hc hflag hadd =>
    have hslot : s.pc.slot env.array.length = i := by rw [hpc]; rfl
    obtain ⟨_, hnoflag, _⟩ := h.quiet (h.flag_unset_of_slot hslot hc)
    exact h.setPc (by rw [hpc]; rfl) (by simp [hnoflag]) (by simp)
  | update i c error hpc hc => exact h.step_update hpc hc
  | finishSignal hpc hflag => exact h.step_finishSignal hpc hflag
  | finishQuiet hpc hflag hnum => exact h.step_finishQuiet hpc hflag rfl rfl
  | finishEmpty hpc hflag hnum =>
    exact h.step_finishQuiet hpc hflag (by simp [hnum, ArrayPc.slot]) rfl
  | signalLock c hwFence snapshot hlocked => exact h.step_signalLock hlocked
  | signalOther g parent rest others others' hsig hstage hparents hne =>
    have hg : g ∈ s.signaling := by simp [hsig]
    refine h.moveSignal hsig rfl ?_ (fun hp => ⟨(h.quiet hp).1, hstage⟩) h.made_error
      (fun due hdue => h.due_error g hg due hdue) (fun _ _ => rfl)
    rw [hparents, count_cons_of_ne hne]
  | signalParent g rest others others' hsig hstage hparents =>
    exact h.step_signalParent hsig hparents
  | signalComplete g others others' hsig hstage =>
    have hg : g ∈ s.signaling := by simp [hsig]
    have hzero := h.complete_of_stage hg (by simp [hstage])
    refine h.moveSignal hsig rfl rfl (fun hne => absurd hzero hne) h.made_error ?_ ?_
    · intro due hdue w hw
      obtain rfl := ParentStage.calls.inj hdue
      rcases mem_append.mp hw with hw | hw
      · obtain ⟨id, _, rfl⟩ := mem_map.mp hw
        rfl
      · split at hw
        · rw [mem_singleton.mp hw]
          rfl
        · cases hw
    · intro hid hclient
      rw [hstage, ParentStage.due_calls, ParentStage.due_complete,
        countP_isForClient_signalAllWaitClients hid hclient h.waiting]
      rfl
  | signalCall g wakeup due others others' hsig hstage =>
    have hg : g ∈ s.signaling := by simp [hsig]
    have hzero := h.complete_of_stage hg (by simp [hstage])
    have herror := h.due_error g hg _ hstage
    refine h.moveSignal hsig rfl rfl (fun hne => absurd hzero hne) ?_ ?_ ?_
    · intro w hw
      rcases mem_cons.mp hw with rfl | hw
      · exact herror w (by simp)
      · exact h.made_error w hw
    · intro due' hdue w hw
      obtain rfl := ParentStage.calls.inj hdue
      exact herror w (by simp [hw])
    · intro _ _
      simp only [hstage, ParentStage.due_calls, JoinState.made, countP_cons]
      omega
  | signalResume g others others' hsig hstage =>
    refine h.moveSignal hsig rfl rfl (fun hp => ⟨(h.quiet hp).1, rfl⟩) h.made_error
      (by simp) ?_
    intro _ _
    simp [hstage, JoinState.made]
  | signalDone g others others' hsig hstage hparents => exact h.step_signalDone hsig hstage hparents

end JoinInvariant

/-- In every interleaving of one array call with signals of the children, the pending count is
the number of slots not accounted, and only signaled children are accounted. The waiting
client, if it is registered and has an Rx queue, has one call made or due exactly from when the
last slot is accounted, so only when all children are signaled, and the call carries the or of
their errors; once the array call has returned and the signals of all children are over, the
call has been made. -/
theorem join_client_woken_once {env : JoinEnv} {s₀ s : JoinState} (hinit : s₀.Initial env)
    (hid : env.clientId.toNat ≤ env.rxqClientsNum.toNat)
    (hclient : env.clients env.clientId.toNat = true)
    (hrun : Relation.ReflTransGen (JoinStep env) s₀ s) :
    s.joinFence.pendingChildCnt.toNat = env.array.length - s.accounted.length ∧
    (∀ c, s.accounted.count c ≤ env.array.count c) ∧
    (∀ c ∈ s.accounted, (s.children c).signaled = true) ∧
    (s.made env + s.due env =
      if s.joinFence.pendingChildCnt = 0 ∧ env.array ≠ [] then 1 else 0) ∧
    (s.made env + s.due env = 1 → ∀ c ∈ env.array, (s.children c).signaled = true) ∧
    (∀ w ∈ s.wakeups, w.error = env.errorOf env.array) ∧
    (s.pc = .finished → s.signaling = [] →
      (∀ c ∈ env.array, (s.children c).hwFence.hasFlag msmHwFenceFlagSignal = true) →
      env.array ≠ [] → s.made env = 1) := by
  have h : JoinInvariant env s := by
    induction hrun with
    | refl => exact hinit.joinInvariant
    | tail _ hlast ih => exact ih.step hlast
  have hcalls := h.calls hid hclient
  have hpending := h.pending
  refine ⟨by omega, ?_, h.accounted_signaled, hcalls, ?_, ?_, ?_⟩
  · intro c
    have hcounts := h.counts c
    omega
  · intro hone c hc
    have hzero : s.joinFence.pendingChildCnt = 0 := by
      by_contra hne
      rw [if_neg (fun hz => hne hz.1)] at hcalls
      omega
    by_contra hunsignaled
    have hnot : c ∉ s.accounted := fun hmem => hunsignaled (h.accounted_signaled c hmem)
    refine h.pending_ne_zero (c := c) ?_ hzero
    rw [count_eq_zero.mpr hnot]
    exact count_pos_iff.mpr hc
  · intro w hw
    have hzero : s.joinFence.pendingChildCnt = 0 := by
      by_contra hne
      rw [(h.quiet hne).1] at hw
      cases hw
    rw [h.made_error w hw, h.error_of_complete hzero]
  · intro hpc hsig hall hne
    have hzero : s.joinFence.pendingChildCnt = 0 := by
      have hall' : ∀ c, s.accounted.count c = env.array.count c := by
        intro c
        have hcounts := h.counts c
        by_cases hc : c ∈ env.array
        · have hreg := h.signaled_free c (hall c hc)
          simp only [JoinState.inFlight, JoinState.unprocessed, hsig, hpc, ArrayPc.slot, hreg,
            map_nil, sum_nil, drop_length, count_nil] at hcounts
          omega
        · rw [count_eq_zero.mpr hc] at hcounts ⊢
          omega
      have hperm : s.accounted.Perm env.array := perm_iff_count.mpr hall'
      have hlen := hperm.length_eq
      exact UInt32.toNat_inj.mp (by simp; omega)
    rw [if_pos ⟨hzero, hne⟩] at hcalls
    simpa [JoinState.due, hpc, hsig, ArrayPc.running] using hcalls

/-! ## Fixed runs -/

/-- An array of one child, and four clients with Rx queues. -/
def oneChildEnv (clientId : UInt32) : JoinEnv where
  hashJoinFence := 7
  clientId := clientId
  rxqClientsNum := 4
  clients := fun _ => true
  array := [0]
  error := fun _ => 2

def oneChildStart (clientId : UInt32) (child : MsmHwFence) : JoinState where
  joinFence := { reserveHwFence {} hwFenceJoinFenceClientId 9 9 1 with
    waitClientMask := bit clientId }
  children := fun _ => { dmaSignaled := false, hwFence := child }
  pc := .find 0
  signalJoinFence := false
  signaling := []
  wakeups := []
  accounted := []

def unsignaledChild : MsmHwFence := reserveHwFence {} 1 1 1 0

def signaledChild : MsmHwFence :=
  { unsignaledChild with flags := msmHwFenceFlagSignal, error := 2 }

theorem oneChildStart_initial (clientId : UInt32) {child : MsmHwFence}
    (hparents : child.activeParents = [])
    (herror : child.hasFlag msmHwFenceFlagSignal = true → child.error = 2) :
    (oneChildStart clientId child).Initial (oneChildEnv clientId) where
  pending := rfl
  error := rfl
  waiting := rfl
  pc := rfl
  flag := rfl
  signaling := rfl
  wakeups := rfl
  accounted := rfl
  no_parent := by
    intro c
    show (7 : UInt64) ∉ child.activeParents
    simp [hparents]
  signaled_error := fun _ => herror

/-- The only child is signaled before the array call, which calls its client itself. -/
theorem signaled_child_join_client_woken_once :
    ∃ s, Relation.ReflTransGen (JoinStep (oneChildEnv 2)) (oneChildStart 2 signaledChild) s ∧
      s.pc = .finished ∧ s.made (oneChildEnv 2) = 1 := by
  have hinit : (oneChildStart 2 signaledChild).Initial (oneChildEnv 2) :=
    oneChildStart_initial 2 (by decide +kernel) (fun _ => rfl)
  have hflag : signaledChild.hasFlag msmHwFenceFlagSignal = true := by decide +kernel
  let s₀ := oneChildStart 2 signaledChild
  let s₁ : JoinState := { s₀ with pc := .lockChild 0 }
  let s₂ : JoinState := { s₁ with pc := .update 0 2 }
  let s₃ : JoinState := { s₂.account 0 2 with signalJoinFence := s₂.completes 2, pc := .find 1 }
  let s₄ : JoinState := { s₃ with
    pc := .finished
    wakeups := .client 2 7 0 s₃.joinFence.error true :: s₃.wakeups }
  have h₁ : JoinStep (oneChildEnv 2) s₀ s₁ := .findFence s₀ 0 0 rfl rfl
  have h₂ : JoinStep (oneChildEnv 2) s₁ s₂ := .lockSignaled s₁ 0 0 rfl rfl hflag
  have h₃ : JoinStep (oneChildEnv 2) s₂ s₃ := .update s₂ 0 0 2 rfl rfl
  have h₄ : JoinStep (oneChildEnv 2) s₃ s₄ := .finishSignal s₃ rfl (by decide +kernel)
  have hrun := (((Relation.ReflTransGen.single h₁).tail h₂).tail h₃).tail h₄
  obtain ⟨_, _, _, _, _, _, hmade⟩ := join_client_woken_once hinit (by decide) rfl hrun
  exact ⟨s₄, hrun, rfl, hmade rfl rfl (fun _ _ => hflag) (by decide)⟩

/-- The unsignaled child once the join fence is its parent, and once it is signaled. -/
def registeredChild : MsmHwFence :=
  { unsignaledChild with
    parentsCnt := 1
    parentList := unsignaledChild.parentList.setIfInBounds 0 7 }

def signaledRegisteredChild : MsmHwFence :=
  { registeredChild with flags := msmHwFenceFlagSignal, error := 2, parentsCnt := 0 }

/-- A client without an Rx queue waits; the child is signaled after the array call returned.
Everything is over and the client has not been called. -/
theorem join_client_without_rxq_not_woken :
    ∃ s, (oneChildStart 5 unsignaledChild).Initial (oneChildEnv 5) ∧
      Relation.ReflTransGen (JoinStep (oneChildEnv 5)) (oneChildStart 5 unsignaledChild) s ∧
      s.pc = .finished ∧ s.signaling = [] ∧
      (∀ c ∈ (oneChildEnv 5).array,
        (s.children c).hwFence.hasFlag msmHwFenceFlagSignal = true) ∧
      s.made (oneChildEnv 5) = 0 := by
  have hinit : (oneChildStart 5 unsignaledChild).Initial (oneChildEnv 5) :=
    oneChildStart_initial 5 (by decide +kernel) (fun h => absurd h (by decide +kernel))
  let s₀ := oneChildStart 5 unsignaledChild
  let s₁ : JoinState := { s₀ with pc := .lockChild 0 }
  let s₂ : JoinState := { s₁.setChild 0 ⟨false, registeredChild⟩ with pc := .find 1 }
  let s₃ : JoinState := { s₂ with pc := .finished }
  let g₀ : ParentSignal := ⟨0, [7], 0, .next⟩
  let s₄ : JoinState := { s₃.setChild 0 ⟨false, signaledRegisteredChild⟩ with signaling := [g₀] }
  let g₁ : ParentSignal := ⟨0, [], 0, if s₄.completes 2 then .complete else .next⟩
  let s₅ : JoinState := { s₄.account 0 2 with signaling := [g₁] }
  let g₂ : ParentSignal := ⟨0, [], 0, .calls (signalAllWaitClients 4 (fun _ => true) s₅.joinFence
    s₅.joinFence.waitClientMask 7 0 s₅.joinFence.error s₅.joinFence.hSynx)⟩
  let s₆ : JoinState := { s₅ with signaling := [g₂] }
  let s₇ : JoinState := { s₆ with signaling := [⟨0, [], 0, .next⟩] }
  let s₈ : JoinState := { s₇ with signaling := [] }
  have h₁ : JoinStep (oneChildEnv 5) s₀ s₁ := .findFence s₀ 0 0 rfl rfl
  have h₂ : JoinStep (oneChildEnv 5) s₁ s₂ :=
    .lockRegister s₁ 0 0 registeredChild rfl rfl (by decide +kernel) (by decide +kernel)
  have h₃ : JoinStep (oneChildEnv 5) s₂ s₃ := .finishQuiet s₂ rfl rfl (by decide)
  have h₄ : JoinStep (oneChildEnv 5) s₃ s₄ :=
    .signalLock s₃ 0 signaledRegisteredChild ⟨0, 0, 1, 0⟩ (by decide +kernel)
  have h₅ : JoinStep (oneChildEnv 5) s₄ s₅ := .signalParent s₄ g₀ [] [] [] rfl rfl rfl
  have h₆ : JoinStep (oneChildEnv 5) s₅ s₆ := .signalComplete s₅ g₁ [] [] rfl (by decide +kernel)
  have h₇ : JoinStep (oneChildEnv 5) s₆ s₇ := .signalResume s₆ g₂ [] [] rfl (by decide +kernel)
  have h₈ : JoinStep (oneChildEnv 5) s₇ s₈ := .signalDone s₇ _ [] [] rfl rfl rfl
  have hrun := (((((((Relation.ReflTransGen.single h₁).tail h₂).tail h₃).tail h₄).tail h₅).tail
    h₆).tail h₇).tail h₈
  exact ⟨s₈, hinit, hrun, rfl, rfl, by decide +kernel, rfl⟩

end QcomModules.HwFence
