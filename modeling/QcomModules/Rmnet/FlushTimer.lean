import QcomModules.Library.Threads
import QcomModules.Rmnet.Aggregation

/-! The flush timer of uplink aggregation. Senders, commands, the timer and the flush work take
turns at the lock, and a sender cancels the timer after it has released the lock. -/

namespace QcomModules.Rmnet

open Library Relation List

variable {overhead : Overhead}

/-! ## Calls -/

/-- The aggregation state with its lock, its timer and its work. -/
structure Uplink (overhead : Overhead) where
  agg : AggState overhead
  /-- `agg_lock` is held by a call that has yet to start the timer. -/
  locked : Bool
  armed : Bool
  /-- `agg_wq` is scheduled and has not begun to run. -/
  scheduled : Bool

inductive UplinkOp where
  | txAggregate (fmt : BitVec 32) (skb : TxSkb)
  | sendAggSkb
  | txQmapCmd (fmt : BitVec 32) (cmd : List UInt8) (flush : Bool)
  | flushTxPacketQueue
  | flushTxPacketWork

/-- What a call does after it has cancelled the timer. -/
inductive AfterCancel where
  | newPacket (fmt : BitVec 32) (skb : TxSkb)
  | send (frame : Frame)
  | done

/-- What is next: a section under the lock, a step of the timer, or a frame that is sent without
the lock. -/
inductive UplinkPc where
  | newPacket (fmt : BitVec 32) (skb : TxSkb)
  | sendAggSkb
  | qmapCmd (cmd : List UInt8)
  | startTimer
  | cancelTimer (next : AfterCancel)
  | send (frame : Frame)
  | expiry
  | beginWork
  | flushWork
  | done
  | panicked

def AfterCancel.pc : AfterCancel → UplinkPc
  | .newPacket fmt skb => .newPacket fmt skb
  | .send frame => .send frame
  | .done => .done

def UplinkOp.enter : UplinkOp → UplinkPc
  | .txAggregate fmt skb => .newPacket fmt skb
  | .sendAggSkb => .sendAggSkb
  | .txQmapCmd fmt cmd flush =>
    if flush ∧ fmt &&& egressFormatAggregation ≠ 0 then .qmapCmd cmd else .send (.command cmd)
  | .flushTxPacketQueue => .expiry
  | .flushTxPacketWork => .beginWork

/-- A call that has begun and not returned. A timer that has not expired and work that has not
begun are no calls. -/
def UplinkPc.inCall : UplinkPc → Bool
  | .expiry | .beginWork | .done => false
  | _ => true

/-! ## Sections -/

/-- The label `schedule`: the timer is started if aggregation was not in progress. -/
def afterSchedule (before after : AggState overhead) : UplinkPc :=
  if after.inProgress && !before.inProgress then .startTimer else .done

/-- `rmnet_map_tx_aggregate` from `new_packet` to the next release of the lock; `none` for
`skb_over_panic`. -/
def newPacketSection (s : AggState overhead) (fmt : BitVec 32) (skb : TxSkb) (pass : Pass) :
    Option (AggState overhead × UplinkPc) :=
  let last := s.aggLast
  let s := { s with aggLast := pass.now }
  if skb.prioritized fmt then
    match s.aggSkb with
    | none => some (s, .send (.packets skb.bytes))
    | some aggSkb => some (s.ship aggSkb, .cancelTimer (.send (.packets skb.bytes)))
  else
    match s.aggSkb with
    | none => (openBuffer s last skb pass).map fun s' => (s', afterSchedule s s')
    | some aggSkb =>
      if s.full aggSkb skb then some (s.ship aggSkb, .cancelTimer (.newPacket fmt skb))
      else
        aggSkb.put skb.bytes |>.map fun aggSkb =>
          let s' := { s with aggSkb := some aggSkb, aggCount := s.aggCount + 1 }.schedule
          (s', afterSchedule s s')

/-- `rmnet_map_send_agg_skb`, with what its caller does next. -/
def sendSection (s : AggState overhead) (next : AfterCancel) : AggState overhead × UplinkPc :=
  match s.aggSkb with
  | none => (s, next.pc)
  | some aggSkb => (s.ship aggSkb, .cancelTimer next)

def UplinkPc.isStart : UplinkPc → Bool
  | .startTimer => true
  | _ => false

/-- A section ends, with the lock still held if the timer is to be started. -/
def Uplink.leave (s : Uplink overhead) (r : AggState overhead × UplinkPc) :
    Uplink overhead × UplinkPc :=
  ({ s with agg := r.1, locked := r.2.isStart }, r.2)

def UplinkPc.enabled (s : Uplink overhead) : UplinkPc → Bool
  | .newPacket _ _ | .sendAggSkb | .qmapCmd _ | .flushWork => !s.locked
  | .expiry => s.armed
  | .beginWork => s.scheduled
  | .done | .panicked => false
  | _ => true

def UplinkPc.act (pass : Pass) (s : Uplink overhead) : UplinkPc → Uplink overhead × UplinkPc
  | .newPacket fmt skb =>
    match newPacketSection s.agg fmt skb pass with
    | none => (s, .panicked)
    | some r => s.leave r
  | .sendAggSkb => s.leave (sendSection s.agg .done)
  | .qmapCmd cmd => s.leave (sendSection s.agg (.send (.command cmd)))
  | .startTimer => ({ s with armed := true, locked := false }, .done)
  | .cancelTimer next => ({ s with armed := false }, next.pc)
  | .send frame => ({ s with agg := s.agg.send frame }, .done)
  -- `rmnet_map_flush_tx_packet_queue`, as the timer expires
  | .expiry => ({ s with armed := false, scheduled := true }, .done)
  | .beginWork => ({ s with scheduled := false }, .flushWork)
  | .flushWork => s.leave (Rmnet.flushTxPacketWork s.agg, .done)
  | .done => (s, .done)
  | .panicked => (s, .panicked)

/-- Any number of calls on one aggregation state. -/
def uplinkSystem (overhead : Overhead) : ThreadSystem (Uplink overhead) UplinkPc UplinkOp Pass where
  enter := UplinkOp.enter
  enabled := UplinkPc.enabled
  act := UplinkPc.act

/-! ## What is flushed -/

/-- The flush work finds the buffer, and something leads to it: the timer, the work, or a call
that has the lock and starts the timer. -/
structure Flushed (s : Uplink overhead) (pcs : List UplinkPc) : Prop where
  inProgress : s.agg.inProgress = s.agg.aggSkb.isSome
  starting : pcs.countP UplinkPc.isStart = s.locked.toNat
  flushed : s.agg.aggSkb.isSome →
    s.armed ∨ s.scheduled ∨ s.locked ∨ UplinkPc.flushWork ∈ pcs

/-- A cancelled timer leaves no buffer behind: it was not armed, there is no buffer, or the flush
work is scheduled. -/
def UplinkPc.CancelOk (s : Uplink overhead) : UplinkPc → Prop
  | .cancelTimer _ => s.armed → s.agg.aggSkb.isSome → s.scheduled
  | _ => True

instance (s : Uplink overhead) : (pc : UplinkPc) → Decidable (pc.CancelOk s)
  | .cancelTimer _ => inferInstanceAs (Decidable (_ → _ → _))
  | .newPacket _ _ | .sendAggSkb | .qmapCmd _ | .startTimer | .send _ | .expiry | .beginWork
  | .flushWork | .done | .panicked => inferInstanceAs (Decidable True)

variable {s : Uplink overhead} {pcs : List UplinkPc} {r : AggState overhead × UplinkPc}

theorem Flushed.perm {pcs' : List UplinkPc} (hperm : pcs.Perm pcs') (h : Flushed s pcs) :
    Flushed s pcs' := by
  refine ⟨h.inProgress, (hperm.countP_eq _).symm.trans h.starting, ?_⟩
  intro hsome
  rw [← hperm.mem_iff]
  exact h.flushed hsome

theorem UplinkOp.isStart_enter (op : UplinkOp) : op.enter.isStart = false := by
  cases op with
  | txQmapCmd fmt cmd flush =>
    rw [UplinkOp.enter]
    split <;> rfl
  | txAggregate | sendAggSkb | flushTxPacketQueue | flushTxPacketWork => rfl

theorem Flushed.start (h : Flushed s pcs) (op : UplinkOp) : Flushed s (op.enter :: pcs) := by
  refine ⟨h.inProgress, ?_, ?_⟩
  · rw [countP_cons, op.isStart_enter, h.starting]
    rfl
  · intro hsome
    exact (h.flushed hsome).imp_right (Or.imp_right (Or.imp_right (mem_cons_of_mem _)))

/-! ## Sections -/

/-- After a section aggregation is in progress exactly when there is a buffer, and a buffer that
was not there before makes the call start the timer. -/
structure Arms (s : AggState overhead) (r : AggState overhead × UplinkPc) : Prop where
  inProgress : r.1.inProgress = r.1.aggSkb.isSome
  starts : r.1.aggSkb.isSome → s.aggSkb.isSome ∨ r.2.isStart

theorem arms_ship (s : AggState overhead) (aggSkb : AggSkb overhead) (next : UplinkPc) :
    Arms s (s.ship aggSkb, next) :=
  ⟨rfl, fun h => nomatch h⟩

theorem arms_schedule {s s' : AggState overhead} (h : s.inProgress = s.aggSkb.isSome)
    (hsome : s'.aggSkb.isSome) : Arms s (s'.schedule, afterSchedule s s'.schedule) := by
  refine ⟨hsome.symm, fun _ => ?_⟩
  cases hp : s.inProgress with
  | false =>
    right
    simp [afterSchedule, AggState.schedule, hp, UplinkPc.isStart]
  | true => exact .inl (h.symm.trans hp)

theorem arms_same {s s' : AggState overhead} (h : s.inProgress = s.aggSkb.isSome)
    (hp : s'.inProgress = s.inProgress) (hskb : s'.aggSkb = s.aggSkb) (next : UplinkPc) :
    Arms s (s', next) := by
  refine ⟨?_, fun hsome => .inl ?_⟩
  · rw [hp, hskb, h]
  · rwa [← hskb]

theorem arms_openBuffer {s s' : AggState overhead} {last : ℤ} {skb : TxSkb} {pass : Pass}
    (h : s.inProgress = s.aggSkb.isSome) (hnone : s.aggSkb = none)
    (hopen : openBuffer s last skb pass = some s') : Arms s (s', afterSchedule s s') := by
  rw [openBuffer] at hopen
  split at hopen
  · cases hopen
    refine arms_same h ?_ ?_ _ <;> rfl
  · split at hopen
    · obtain ⟨aggSkb, -, rfl⟩ := Option.map_eq_some_iff.mp hopen
      exact arms_schedule h rfl
    · cases hopen
      exact arms_same h (by rfl) hnone.symm _

theorem arms_newPacketSection {s : AggState overhead} {fmt : BitVec 32} {skb : TxSkb} {pass : Pass}
    (h : s.inProgress = s.aggSkb.isSome) (hsection : newPacketSection s fmt skb pass = some r) :
    Arms s r := by
  rw [newPacketSection] at hsection
  dsimp only at hsection
  split at hsection
  · split at hsection
    · cases hsection
      refine arms_same h ?_ ?_ _ <;> rfl
    · cases hsection
      exact ⟨rfl, fun h => nomatch h⟩
  · split at hsection
    · rename_i hnone
      obtain ⟨s', hopen, rfl⟩ := Option.map_eq_some_iff.mp hsection
      obtain ⟨hprogress, hstarts⟩ := arms_openBuffer (by exact h) (by exact hnone) hopen
      exact ⟨hprogress, hstarts⟩
    · split at hsection
      · cases hsection
        exact ⟨rfl, fun h => nomatch h⟩
      · obtain ⟨aggSkb', -, rfl⟩ := Option.map_eq_some_iff.mp hsection
        rename_i aggSkb hsome _
        refine ⟨rfl, fun _ => .inl ?_⟩
        rw [hsome]
        rfl

theorem arms_sendSection {s : AggState overhead} (h : s.inProgress = s.aggSkb.isSome)
    (next : AfterCancel) : Arms s (sendSection s next) := by
  rw [sendSection]
  split
  · exact arms_same h rfl rfl _
  · exact arms_ship s _ _

theorem flushTxPacketWork_ships {s : AggState overhead} (h : s.inProgress = s.aggSkb.isSome) :
    (Rmnet.flushTxPacketWork s).inProgress = false ∧
      (Rmnet.flushTxPacketWork s).aggSkb = none := by
  rw [Rmnet.flushTxPacketWork]
  cases hskb : s.aggSkb with
  | none =>
    rw [hskb] at h
    simp [h, hskb]
  | some aggSkb =>
    rw [hskb] at h
    simp [h, AggState.ship, AggState.send]

/-! ## Steps -/

theorem Flushed.leave {pc : UplinkPc} (h : Flushed s (pc :: pcs)) (hunlocked : s.locked = false)
    (hstart : pc.isStart = false) (hflush : UplinkPc.flushWork ≠ pc) (harms : Arms s.agg r) :
    Flushed (s.leave r).1 ((s.leave r).2 :: pcs) := by
  have hcount : pcs.countP UplinkPc.isStart = 0 := by
    have := h.starting
    rwa [countP_cons, hstart, hunlocked] at this
  refine ⟨harms.inProgress, ?_, ?_⟩
  · rw [countP_cons, hcount, Uplink.leave]
    cases r.2.isStart <;> rfl
  · intro hsome
    rcases harms.starts hsome with hold | hstarts
    · rcases h.flushed hold with harmed | hscheduled | hlocked | hmem
      · exact .inl harmed
      · exact .inr (.inl hscheduled)
      · rw [hunlocked] at hlocked
        cases hlocked
      · refine .inr (.inr (.inr (mem_cons_of_mem _ ?_)))
        exact (mem_cons.mp hmem).resolve_left hflush
    · exact .inr (.inr (.inl hstarts))

theorem Flushed.next {s' : Uplink overhead} {pc next : UplinkPc} (h : Flushed s (pc :: pcs))
    (hprogress : s'.agg.inProgress = s.agg.inProgress) (hskb : s'.agg.aggSkb = s.agg.aggSkb)
    (hlocked : s'.locked = s.locked) (hpc : pc.isStart = false) (hnext : next.isStart = false)
    (hflushed : s.agg.aggSkb.isSome →
      s.armed ∨ s.scheduled ∨ s.locked ∨ UplinkPc.flushWork ∈ pc :: pcs →
      s'.armed ∨ s'.scheduled ∨ s'.locked ∨ UplinkPc.flushWork ∈ next :: pcs) :
    Flushed s' (next :: pcs) := by
  refine ⟨?_, ?_, ?_⟩
  · rw [hprogress, hskb, h.inProgress]
  · have hstarting := h.starting
    rw [countP_cons, hpc] at hstarting
    rw [countP_cons, hnext, hlocked]
    exact hstarting
  · intro hsome
    rw [hskb] at hsome
    exact hflushed hsome (h.flushed hsome)

theorem UplinkPc.inCall_of_isStart {pc : UplinkPc} (h : pc.isStart = true) :
    pc.inCall = true := by
  cases pc <;> first | rfl | cases h

theorem AfterCancel.isStart_pc (next : AfterCancel) : next.pc.isStart = false := by
  cases next <;> rfl

theorem Flushed.startTimer (h : Flushed s (.startTimer :: pcs)) :
    Flushed { s with armed := true, locked := false } (.done :: pcs) := by
  refine ⟨h.inProgress, ?_, fun _ => .inl rfl⟩
  have hstarting := h.starting
  rw [countP_cons, UplinkPc.isStart, if_pos rfl] at hstarting
  have hle := Bool.toNat_le s.locked
  have hcount : pcs.countP UplinkPc.isStart = 0 := by omega
  rw [countP_cons, hcount]
  rfl

theorem Flushed.flushWork (h : Flushed s (.flushWork :: pcs)) (hunlocked : s.locked = false) :
    Flushed (s.leave (Rmnet.flushTxPacketWork s.agg, .done)).1 (.done :: pcs) := by
  obtain ⟨hprogress, hnone⟩ := flushTxPacketWork_ships h.inProgress
  refine ⟨?_, ?_, ?_⟩
  · rw [Uplink.leave, hprogress, hnone]
    rfl
  · have hstarting := h.starting
    rw [countP_cons, hunlocked] at hstarting
    exact hstarting
  · intro hsome
    rw [Uplink.leave, hnone] at hsome
    cases hsome

theorem Flushed.act {pc : UplinkPc} (h : Flushed s (pc :: pcs)) (pass : Pass)
    (henabled : pc.enabled s = true) (hok : pc.CancelOk s) :
    Flushed (pc.act pass s).1 ((pc.act pass s).2 :: pcs) := by
  cases pc with
  | newPacket fmt skb =>
    have hunlocked : s.locked = false := by simpa [UplinkPc.enabled] using henabled
    rw [UplinkPc.act]
    split
    · refine h.next rfl rfl rfl rfl rfl ?_
      intro _ hflushed
      simpa using hflushed
    · rename_i r hsection
      exact h.leave hunlocked rfl nofun (arms_newPacketSection h.inProgress hsection)
  | sendAggSkb =>
    have hunlocked : s.locked = false := by simpa [UplinkPc.enabled] using henabled
    exact h.leave hunlocked rfl nofun (arms_sendSection h.inProgress _)
  | qmapCmd cmd =>
    have hunlocked : s.locked = false := by simpa [UplinkPc.enabled] using henabled
    exact h.leave hunlocked rfl nofun (arms_sendSection h.inProgress _)
  | startTimer => exact h.startTimer
  | cancelTimer next =>
    refine h.next rfl rfl rfl rfl next.isStart_pc ?_
    intro hsome hflushed
    rcases hflushed with harmed | hscheduled | hlocked | hmem
    · exact .inr (.inl (hok harmed hsome))
    · exact .inr (.inl hscheduled)
    · exact .inr (.inr (.inl hlocked))
    · exact .inr (.inr (.inr (mem_cons_of_mem _ (by simpa using hmem))))
  | send frame =>
    refine h.next rfl rfl rfl rfl rfl ?_
    intro _ hflushed
    simpa [UplinkPc.act] using hflushed
  | expiry =>
    refine h.next rfl rfl rfl rfl rfl ?_
    intro _ _
    exact .inr (.inl rfl)
  | beginWork =>
    refine h.next rfl rfl rfl rfl rfl ?_
    intro _ _
    exact .inr (.inr (.inr mem_cons_self))
  | flushWork =>
    have hunlocked : s.locked = false := by simpa [UplinkPc.enabled] using henabled
    exact h.flushWork hunlocked
  | done => cases henabled
  | panicked => cases henabled

/-! ## Runs -/

/-- No buffer, no aggregation in progress, and nobody at the lock. -/
structure Uplink.Idle (s : Uplink overhead) : Prop where
  aggSkb : s.agg.aggSkb = none
  inProgress : s.agg.inProgress = false
  locked : s.locked = false

theorem Flushed.idle (h : s.Idle) : Flushed s [] := by
  refine ⟨?_, ?_, ?_⟩
  · rw [h.aggSkb, h.inProgress]
    rfl
  · rw [h.locked]
    rfl
  · intro hsome
    rw [h.aggSkb] at hsome
    cases hsome

/-- In every run in which no cancelled timer leaves a buffer behind, a buffer that is there while
no call is in progress is sent by the timer or by the flush work. -/
theorem no_packet_stranded {s₀ : Uplink overhead} (hidle : s₀.Idle)
    {s : Threads (Uplink overhead) UplinkPc}
    (hrun : ReflTransGen (GuardedStep (ThreadSystem.StepOk (fun _ => True)
      fun s _ pc => pc.CancelOk s) (uplinkSystem overhead).step) ⟨s₀, []⟩ s)
    (hreturned : ∀ pc ∈ s.pcs, pc.inCall = false) (hskb : s.shared.agg.aggSkb.isSome) :
    s.shared.armed ∨ s.shared.scheduled := by
  have hflushed : Flushed s.shared s.pcs := by
    refine ThreadSystem.invariant (fun _ _ _ hperm h => h.perm hperm) (fun _ _ _ _ _ hok => hok)
      (fun _ _ op h _ => h.start op) ?_ (Flushed.idle hidle) hrun
    intro pass s pc pcs h henabled hok
    exact h.act pass henabled hok
  rcases hflushed.flushed hskb with harmed | hscheduled | hlocked | hmem
  · exact .inl harmed
  · exact .inr hscheduled
  · have hstart : 0 < s.pcs.countP UplinkPc.isStart := by
      rw [hflushed.starting, hlocked]
      exact Nat.one_pos
    obtain ⟨pc, hpc, hpcStart⟩ := countP_pos_iff.mp hstart
    have hreturnedPc := hreturned pc hpc
    rw [UplinkPc.inCall_of_isStart hpcStart] at hreturnedPc
    cases hreturnedPc
  · cases hreturned _ hmem

/-! ## A timer of another sender -/

def freshUplink : Uplink ⟨320, by decide⟩ where
  agg := aggInit _
  locked := false
  armed := false
  scheduled := false

def oneByte : TxSkb := ⟨[7], 0, by decide⟩

def uplinkSteps (call n : ℕ) : List (ThreadInput UplinkOp Pass) :=
  List.replicate n (.run call ⟨0, 0, true⟩)

/-- A buffer is opened and sent again; before the timer is cancelled the next sender opens another
buffer and starts the timer. -/
def cancelsOther : List (ThreadInput UplinkOp Pass) :=
  .start (.txAggregate 0 oneByte) :: uplinkSteps 0 2 ++
  .start .sendAggSkb :: uplinkSteps 1 1 ++
  .start (.txAggregate 0 oneByte) :: uplinkSteps 2 2 ++ uplinkSteps 1 1

/-- The second buffer is opened after the timer is cancelled. -/
def cancelsOwn : List (ThreadInput UplinkOp Pass) :=
  .start (.txAggregate 0 oneByte) :: uplinkSteps 0 2 ++
  .start .sendAggSkb :: uplinkSteps 1 2 ++
  .start (.txAggregate 0 oneByte) :: uplinkSteps 2 2

theorem no_packet_stranded_cancelsOwn :
    (cancelsOwn.foldl (uplinkSystem _).step ⟨freshUplink, []⟩).shared.armed ∨
      (cancelsOwn.foldl (uplinkSystem _).step ⟨freshUplink, []⟩).shared.scheduled :=
  no_packet_stranded ⟨rfl, rfl, rfl⟩ (guarded_foldl (by decide +kernel)) (by decide +kernel)
    (by decide +kernel)

theorem packet_stranded : ¬ ∀ s : Threads (Uplink ⟨320, by decide⟩) UplinkPc,
    ReflTransGen (GuardedStep (ThreadSystem.StepOk (fun _ => True) fun _ _ _ => True)
      (uplinkSystem _).step) ⟨freshUplink, []⟩ s →
    (∀ pc ∈ s.pcs, pc.inCall = false) → s.shared.agg.aggSkb.isSome →
    s.shared.armed ∨ s.shared.scheduled := by
  intro h
  have hstranded := h (cancelsOther.foldl (uplinkSystem _).step ⟨freshUplink, []⟩)
    (guarded_foldl (by decide +kernel)) (by decide +kernel) (by decide +kernel)
  revert hstranded
  decide +kernel

end QcomModules.Rmnet
