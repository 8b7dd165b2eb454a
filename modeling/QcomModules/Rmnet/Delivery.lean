import QcomModules.Rmnet.Aggregation

/-! Aggregation delivers every packet once and in order, exactly where the first packet of each
buffer fits it. -/

namespace QcomModules.Rmnet

open Library List

variable {overhead : Overhead}

/-! ## What is submitted and what is sent -/

def AggState.pending (s : AggState overhead) : List UInt8 :=
  match s.aggSkb with
  | none => []
  | some aggSkb => aggSkb.bytes

def Frame.bytes : Frame → List UInt8
  | .packets bytes | .command bytes => bytes

def Frame.packetBytes : Frame → List UInt8
  | .packets bytes => bytes
  | .command _ => []

def Frame.commands : Frame → List (List UInt8)
  | .packets _ => []
  | .command bytes => [bytes]

section Log

variable {β : Type}

/-- What a view shows of the frames sent and of the buffer behind them. -/
def AggState.log (s : AggState overhead) (view : Frame → List β) : List β :=
  s.sent.flatMap view ++ view (.packets s.pending)

/-- What a view shows of an operation's packet or command. -/
def AggOp.log (view : Frame → List β) : AggOp → List β
  | .txAggregate _ skb _ _ => view (.packets skb.bytes)
  | .txQmapCmd _ cmd _ => view (.command cmd)
  | .updateUlAggConfig .. | .flushTxPacketWork => []

end Log

/-- A command finds no buffer, or sends it first. -/
def AggOp.Flushes (s : AggState overhead) : AggOp → Prop
  | .txQmapCmd fmt _ flush => s.aggSkb = none ∨ flush ∧ fmt &&& egressFormatAggregation ≠ 0
  | _ => True

/-- The packet becomes the first one of a buffer, if it is admitted. -/
def AggState.StartsBuffer (s : AggState overhead) (fmt : BitVec 32) (skb : TxSkb)
    (pass again : Pass) : Prop :=
  ¬ skb.prioritized fmt ∧
    match s.aggSkb with
    | none => ¬ exceeds (pass.now - s.aggLast) aggBypassTime ∧ pass.built
    | some aggSkb => { s with aggLast := pass.now }.full aggSkb skb ∧
        ¬ exceeds (again.now - pass.now) aggBypassTime ∧ again.built

/-- A packet admitted as the first one of a buffer fits it. -/
def AggOp.HasRoom (s : AggState overhead) : AggOp → Prop
  | .txAggregate fmt skb pass again => s.StartsBuffer fmt skb pass again → s.params.admits skb →
      skb.bytes.length ≤ bufferRoom overhead s.aggSizeOrder
  | _ => True

/-- All packets are sent or wait in the buffer, each once and in order, and so are all commands; a
command is behind the packets submitted before it where it flushes; the flush work leaves nothing
behind. -/
structure Delivers (ops : List AggOp) (s : AggState overhead) : Prop where
  packets : s.log Frame.packetBytes = ops.flatMap (·.log Frame.packetBytes)
  commands : s.log Frame.commands = ops.flatMap (·.log Frame.commands)
  ordered : AllMeet (fun s op => op.Flushes s) aggStep (aggInit overhead) ops →
    s.log Frame.bytes = ops.flatMap (·.log Frame.bytes)
  flushed : (flushTxPacketWork s).aggSkb = none

/-! ## Copies -/

theorem AggSkb.put_isSome_iff (aggSkb : AggSkb overhead) (data : List UInt8) :
    (∃ aggSkb', aggSkb.put data = some aggSkb') ↔ data.length ≤ aggSkb.tailroom := by
  rw [put]
  split
  · rename_i h
    exact ⟨fun _ => h, fun _ => ⟨_, rfl⟩⟩
  · rename_i h
    exact ⟨fun hput => hput.elim fun _ hput => (by cases hput), fun hle => absurd hle h⟩

theorem AggSkb.put_bytes {aggSkb aggSkb' : AggSkb overhead} {data : List UInt8}
    (h : aggSkb.put data = some aggSkb') : aggSkb'.bytes = aggSkb.bytes ++ data := by
  rw [put] at h
  split at h
  · cases h
    rfl
  · cases h

theorem exists_map_eq_some {α β : Type} (o : Option α) (f : α → β) :
    (∃ b, o.map f = some b) ↔ ∃ a, o = some a := by
  cases o with
  | none => exact ⟨fun h => h.elim fun _ h => (by cases h), fun h => h.elim fun _ h => (by cases h)⟩
  | some a => exact ⟨fun _ => ⟨a, rfl⟩, fun _ => ⟨f a, rfl⟩⟩

@[simp] theorem aggSkb_sendAggSkb (s : AggState overhead) : (sendAggSkb s).aggSkb = none := by
  rw [sendAggSkb]
  split
  · assumption
  · rfl

@[simp] theorem params_sendAggSkb (s : AggState overhead) : (sendAggSkb s).params = s.params := by
  rw [sendAggSkb]
  split <;> rfl

@[simp] theorem aggSizeOrder_sendAggSkb (s : AggState overhead) :
    (sendAggSkb s).aggSizeOrder = s.aggSizeOrder := by
  rw [sendAggSkb]
  split <;> rfl

theorem openBuffer_isSome_iff (s : AggState overhead) (last : ℤ) (skb : TxSkb) (pass : Pass) :
    (∃ s', openBuffer s last skb pass = some s') ↔
      (¬ exceeds (s.aggLast - last) aggBypassTime ∧ pass.built = true → s.params.admits skb →
        skb.bytes.length ≤ bufferRoom overhead s.aggSizeOrder) := by
  rw [openBuffer]
  split
  · rename_i hsend
    refine ⟨fun _ hstart hadmits => ?_, fun _ => ⟨_, rfl⟩⟩
    exact hsend.elim (fun hlate => absurd hlate hstart.1) fun h => absurd hadmits h
  rename_i hopen
  obtain ⟨hlate, hadmits⟩ := not_or.1 hopen
  split
  · rename_i hbuilt
    have hput := (AggSkb.build s.aggSizeOrder : AggSkb overhead).put_isSome_iff skb.bytes
    rw [exists_map_eq_some, hput]
    exact ⟨fun h _ _ => h, fun h => h ⟨hlate, hbuilt⟩ (Decidable.not_not.1 hadmits)⟩
  · rename_i hbuilt
    exact ⟨fun _ hstart => absurd hstart.2 hbuilt, fun _ => ⟨_, rfl⟩⟩

theorem aggStep_isSome_iff (s : AggState overhead) (op : AggOp) :
    (∃ s', aggStep s op = some s') ↔ op.HasRoom s := by
  cases op with
  | updateUlAggConfig size count features time => exact ⟨fun _ => trivial, fun _ => ⟨_, rfl⟩⟩
  | flushTxPacketWork => exact ⟨fun _ => trivial, fun _ => ⟨_, rfl⟩⟩
  | txQmapCmd fmt cmd flush => exact ⟨fun _ => trivial, fun _ => ⟨_, rfl⟩⟩
  | txAggregate fmt skb pass again =>
    rw [aggStep, txAggregate, AggOp.HasRoom, AggState.StartsBuffer]
    dsimp only
    split
    · rename_i hprio
      exact ⟨fun _ hstart => absurd hprio hstart.1, fun _ => ⟨_, rfl⟩⟩
    rename_i hprio
    cases hskb : s.aggSkb with
    | none =>
      dsimp only
      rw [openBuffer_isSome_iff]
      exact ⟨fun h hstart => h hstart.2, fun h hstart => h ⟨hprio, hstart⟩⟩
    | some aggSkb =>
      dsimp only
      split
      · rename_i hfull
        rw [openBuffer_isSome_iff]
        simp only [params_sendAggSkb, aggSizeOrder_sendAggSkb]
        exact ⟨fun h hstart => h hstart.2.2, fun h hstart => h ⟨hprio, hfull, hstart⟩⟩
      · rename_i hfull
        rw [exists_map_eq_some, AggSkb.put_isSome_iff]
        refine ⟨fun _ hstart => absurd hstart.2.1 hfull, fun _ => ?_⟩
        exact Nat.le_of_not_lt fun hlt => hfull (.inl hlt)

/-! ## Logs -/

section Log

variable {β : Type} {view : Frame → List β}

/-- What a view shows of packets, it shows packet by packet. -/
def Additive (view : Frame → List β) : Prop :=
  ∀ front back, view (.packets (front ++ back)) = view (.packets front) ++ view (.packets back)

theorem Additive.nil (hview : Additive view) : view (.packets []) = [] :=
  self_eq_append_right.1 (hview [] [])

theorem log_aggLast (s : AggState overhead) (t : ℤ) :
    ({ s with aggLast := t } : AggState overhead).log view = s.log view := rfl

variable {s s' : AggState overhead} {fmt : BitVec 32}

theorem log_send (hview : Additive view) (hnone : s.aggSkb = none) (frame : Frame) :
    (s.send frame).log view = s.log view ++ view frame := by
  have hpending : s.pending = [] := by rw [AggState.pending, hnone]
  have hsent : (s.send frame).pending = [] := hpending
  rw [AggState.log, AggState.log, hpending, hsent, hview.nil, append_nil, append_nil]
  exact flatMap_append.trans (by rw [flatMap_singleton])

theorem log_ship {aggSkb : AggSkb overhead} (hview : Additive view)
    (hskb : s.aggSkb = some aggSkb) : (s.ship aggSkb).log view = s.log view := by
  have hpending : s.pending = aggSkb.bytes := by rw [AggState.pending, hskb]
  rw [AggState.ship, log_send hview rfl, AggState.log, AggState.log, hpending]
  exact congrArg (· ++ _) ((congrArg (_ ++ ·) hview.nil).trans (append_nil _))

theorem log_sendAggSkb (hview : Additive view) (s : AggState overhead) :
    (sendAggSkb s).log view = s.log view := by
  rw [sendAggSkb]
  split
  · rfl
  · rename_i aggSkb hskb
    exact log_ship hview hskb

theorem log_flushTxPacketWork (hview : Additive view) (s : AggState overhead) :
    (flushTxPacketWork s).log view = s.log view := by
  rw [flushTxPacketWork]
  split
  · split
    · rename_i hnone
      rfl
    · rename_i aggSkb hskb
      exact log_ship hview hskb
  · rfl

theorem log_openBuffer {last : ℤ} {skb : TxSkb} {pass : Pass} (hview : Additive view)
    (h : openBuffer s last skb pass = some s') (hnone : s.aggSkb = none) :
    s'.log view = s.log view ++ view (.packets skb.bytes) := by
  rw [openBuffer] at h
  split at h
  · cases h
    exact log_send hview hnone _
  split at h
  · obtain ⟨aggSkb, hput, rfl⟩ := Option.map_eq_some_iff.1 h
    have hbytes : aggSkb.bytes = skb.bytes := AggSkb.put_bytes hput
    have hpending : s.pending = [] := by rw [AggState.pending, hnone]
    rw [AggState.log, AggState.log, hpending, hview.nil, append_nil, ← hbytes]
    rfl
  · cases h
    rw [log_send hview rfl, AggState.log, AggState.log]
    have hpending : s.pending = [] := by rw [AggState.pending, hnone]
    rw [hpending]
    rfl

theorem log_txAggregate {skb : TxSkb} {pass again : Pass} (hview : Additive view)
    (h : txAggregate s fmt skb pass again = some s') :
    s'.log view = s.log view ++ view (.packets skb.bytes) := by
  rw [txAggregate] at h
  dsimp only at h
  split at h
  · cases h
    rw [log_send hview (aggSkb_sendAggSkb _), log_sendAggSkb hview]
    rfl
  split at h
  · rename_i hnone
    rw [log_openBuffer hview h hnone, log_aggLast]
  rename_i aggSkb hskb
  split at h
  · rw [log_openBuffer hview h (aggSkb_sendAggSkb _), log_aggLast, log_sendAggSkb hview,
      log_aggLast]
  · obtain ⟨aggSkb', hput, rfl⟩ := Option.map_eq_some_iff.1 h
    have hpending : s.pending = aggSkb.bytes := by
      rw [AggState.pending, show s.aggSkb = some aggSkb from hskb]
    rw [AggState.log, AggState.log, hpending, append_assoc, ← hview, ← AggSkb.put_bytes hput]
    rfl

/-- A command keeps a view's order where the view shows no packets, or no commands, or nothing is
pending when it is sent. -/
theorem log_txQmapCmd {cmd : List UInt8} {flush : Bool} (hview : Additive view)
    (h : (AggOp.txQmapCmd fmt cmd flush).Flushes s ∨
      view (.command cmd) = [] ∨ ∀ bytes, view (.packets bytes) = []) :
    (txQmapCmd s fmt cmd flush).log view = s.log view ++ view (.command cmd) := by
  rw [txQmapCmd]
  split
  · rw [log_send hview (aggSkb_sendAggSkb s), log_sendAggSkb hview]
  · rename_i hkept
    obtain h | hcmd | hpackets := h
    · exact log_send hview (h.resolve_right hkept) _
    · rw [hcmd, append_nil, AggState.log, AggState.log]
      refine congrArg (· ++ _) (flatMap_append.trans ?_)
      rw [flatMap_singleton, hcmd, append_nil]
    · rw [AggState.log, AggState.log, hpackets, hpackets, append_nil, append_nil]
      exact flatMap_append.trans (by rw [flatMap_singleton])

theorem log_aggStep {op : AggOp} (hview : Additive view)
    (h : op.Flushes s ∨ (∀ cmd, view (.command cmd) = []) ∨ ∀ bytes, view (.packets bytes) = [])
    (hstep : aggStep s op = some s') : s'.log view = s.log view ++ op.log view := by
  cases op with
  | updateUlAggConfig size count features time =>
    cases hstep
    rw [AggOp.log, append_nil, updateUlAggConfig]
    dsimp only
    split <;> rfl
  | flushTxPacketWork =>
    cases hstep
    rw [AggOp.log, append_nil, log_flushTxPacketWork hview]
  | txQmapCmd fmt cmd flush =>
    cases hstep
    exact log_txQmapCmd hview (h.imp_right (·.imp_left (· cmd)))
  | txAggregate fmt skb pass again => exact log_txAggregate hview hstep

end Log

/-! ## Runs -/

/-- A buffer is there only while the flush work is due. -/
def AggState.Due (s : AggState overhead) : Prop :=
  s.inProgress = false → s.aggSkb = none

variable {s s' : AggState overhead} {ops : List AggOp}

theorem due_sendAggSkb (h : s.Due) : (sendAggSkb s).Due := by
  rw [sendAggSkb]
  split
  · exact h
  · exact fun _ => rfl

theorem due_openBuffer {last : ℤ} {skb : TxSkb} {pass : Pass}
    (h : openBuffer s last skb pass = some s') (hnone : s.aggSkb = none) : s'.Due := by
  rw [openBuffer] at h
  split at h
  · cases h
    exact fun _ => hnone
  split at h
  · obtain ⟨aggSkb, -, rfl⟩ := Option.map_eq_some_iff.1 h
    exact fun hidle => (by cases hidle)
  · cases h
    exact fun _ => rfl

theorem due_aggStep {op : AggOp} (h : s.Due) (hstep : aggStep s op = some s') : s'.Due := by
  cases op with
  | updateUlAggConfig size count features time =>
    cases hstep
    rw [updateUlAggConfig]
    dsimp only
    split <;> exact h
  | flushTxPacketWork =>
    cases hstep
    rw [flushTxPacketWork]
    split
    · split
      · rename_i hnone
        exact fun _ => hnone
      · exact fun _ => rfl
    · exact h
  | txQmapCmd fmt cmd flush =>
    cases hstep
    rw [txQmapCmd]
    split
    · exact due_sendAggSkb h
    · exact h
  | txAggregate fmt skb pass again =>
    rw [aggStep, txAggregate] at hstep
    dsimp only at hstep
    split at hstep
    · cases hstep
      exact due_sendAggSkb h
    split at hstep
    · rename_i hnone
      exact due_openBuffer hstep hnone
    split at hstep
    · exact due_openBuffer hstep (aggSkb_sendAggSkb _)
    · obtain ⟨aggSkb, -, rfl⟩ := Option.map_eq_some_iff.1 hstep
      exact fun hidle => (by cases hidle)

theorem aggSkb_flushTxPacketWork (h : s.Due) : (flushTxPacketWork s).aggSkb = none := by
  rw [flushTxPacketWork]
  split
  · split
    · assumption
    · rfl
  · rename_i hidle
    exact h (Bool.eq_false_iff.2 hidle)

theorem log_aggInit {β : Type} {view : Frame → List β} (hview : Additive view) :
    (aggInit overhead).log view = [] :=
  hview.nil

theorem log_run {β : Type} {view : Frame → List β} (hview : Additive view)
    (h : AllMeet (fun s op => op.Flushes s ∨ (∀ cmd, view (.command cmd) = []) ∨
      ∀ bytes, view (.packets bytes) = []) aggStep (aggInit overhead) ops)
    (hrun : ops.foldlM aggStep (aggInit overhead) = some s) :
    s.log view = ops.flatMap (·.log view) := by
  have hlog := log_of_run (fun _ _ _ hok hstep => log_aggStep hview hok hstep) h hrun
  rwa [log_aggInit hview, nil_append] at hlog

theorem delivers_of_run (hrun : ops.foldlM aggStep (aggInit overhead) = some s) :
    Delivers ops s := by
  have hdue : s.Due := invariant_of_run (fun _ _ _ h hstep => due_aggStep h hstep)
    (show (aggInit overhead).Due from fun _ => rfl) hrun
  have hpackets : Additive Frame.packetBytes := fun _ _ => rfl
  have hcommands : Additive Frame.commands := fun _ _ => rfl
  have hbytes : Additive Frame.bytes := fun _ _ => rfl
  constructor
  case packets =>
    exact log_run hpackets (allMeet_of_forall (fun _ _ => .inr (.inl fun _ => rfl)) _ _ _) hrun
  case commands =>
    exact log_run hcommands (allMeet_of_forall (fun _ _ => .inr (.inr fun _ => rfl)) _ _ _) hrun
  case ordered => exact fun hflush => log_run hbytes (hflush.imp fun _ _ h => .inl h) hrun
  case flushed => exact aggSkb_flushTxPacketWork hdue

/-- Every copy of a run fits its buffer and the run delivers its packets, exactly where the packets
admitted as first ones fit their buffers. -/
theorem aggregation_delivers (overhead : Overhead) (ops : List AggOp) :
    (∃ s, ops.foldlM aggStep (aggInit overhead) = some s ∧ Delivers ops s) ↔
      AllMeet (fun s op => op.HasRoom s) aggStep (aggInit overhead) ops := by
  rw [← run_isSome_iff aggStep_isSome_iff]
  constructor
  · intro h
    obtain ⟨s, hrun, -⟩ := h
    exact ⟨s, hrun⟩
  · intro h
    obtain ⟨s, hrun⟩ := h
    exact ⟨s, hrun, delivers_of_run hrun⟩

/-- A packet of 3800 bytes is admitted by the configuration the driver starts with, but does not
fit the page it is copied to. -/
theorem not_aggregation_delivers : ¬ ∀ (overhead : Overhead) (ops : List AggOp),
    ∃ s, ops.foldlM aggStep (aggInit overhead) = some s ∧ Delivers ops s := by
  intro h
  let skb : TxSkb := ⟨replicate 3800 0, 0, by rw [length_replicate]; decide⟩
  obtain ⟨s, hrun, -⟩ :=
    h ⟨320, by decide, by decide⟩ [.txAggregate 0 skb ⟨0, 0, true⟩ ⟨0, 0, true⟩]
  have hroom := ((run_isSome_iff aggStep_isSome_iff _ _).1 ⟨s, hrun⟩).1
  have hadmits : (aggInit ⟨320, by decide, by decide⟩).params.admits skb := by
    rw [AggParams.admits, TxSkb.len, length_replicate]
    decide
  have hle := hroom ⟨by decide, by decide, rfl⟩ hadmits
  rw [length_replicate] at hle
  exact absurd hle (by decide)

end QcomModules.Rmnet
