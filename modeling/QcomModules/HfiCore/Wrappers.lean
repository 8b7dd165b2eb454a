import Mathlib.Data.Multiset.Count

/-! The host side of the HFI queues: buffers and tokens move between the list of unused wrappers,
the pool of available buffers and the virtqueue shared with the device. -/

namespace QcomModules.HfiCore

def EINVAL : ℤ := 22
def ENOMEM : ℤ := 12
def ENOBUFS : ℤ := 105
def EALREADY : ℤ := 114

structure HfiQueueBuffer where
  kva : UInt64
  dva : UInt64
  bufLen : UInt32
  idx : UInt32
  deriving DecidableEq

def zeroBuffer : HfiQueueBuffer := ⟨0, 0, 0, 0⟩

inductive HfiQueueBufferQueueDir
  | tx
  | rx

/-! ## The virtqueue of the kernel -/

/-- The virtqueue calls of the driver. The state also decides which buffers the device has used
and will use; `contents` is the tokens that are stored in it. -/
structure Virtqueue (σ : Type) where
  contents : σ → Multiset ℕ
  /-- `virtqueue_add_inbuf` and `virtqueue_add_outbuf`. -/
  add : HfiQueueBufferQueueDir → UInt64 → UInt32 → ℕ → σ → ℤ × σ
  getBuf : σ → Option ℕ × σ
  detachUnusedBuf : σ → Option ℕ × σ

variable {σ : Type}

/-- The virtqueue is a set of tokens: an addition stores its token or fails storing nothing, what
is got or detached was stored, and nothing is detached only from an empty virtqueue. -/
structure LawfulVirtqueue (vq : Virtqueue σ) : Prop where
  add_ok : ∀ dir dva len token s, (vq.add dir dva len token s).1 = 0 →
    vq.contents (vq.add dir dva len token s).2 = token ::ₘ vq.contents s
  add_fail : ∀ dir dva len token s, (vq.add dir dva len token s).1 ≠ 0 →
    vq.contents (vq.add dir dva len token s).2 = vq.contents s
  get_some : ∀ s token s', vq.getBuf s = (some token, s') →
    vq.contents s = token ::ₘ vq.contents s'
  get_none : ∀ s s', vq.getBuf s = (none, s') → vq.contents s' = vq.contents s
  detach_some : ∀ s token s', vq.detachUnusedBuf s = (some token, s') →
    vq.contents s = token ::ₘ vq.contents s'
  detach_none : ∀ s s', vq.detachUnusedBuf s = (none, s') →
    vq.contents s = 0 ∧ vq.contents s' = 0

/-! ## The queue -/

/-- `struct virtqueuehfi`. Wrappers are numbered, and `buffer` is what they hold. -/
structure VirtqueueHfi (σ : Type) where
  buffer : ℕ → HfiQueueBuffer
  availList : List ℕ
  wrapperList : List ℕ
  vq : σ

/-- `create_buffer_pool_wrappers`, when the memory is there. -/
def createBufferPoolWrappers (qdepth : ℕ) (vq : σ) : VirtqueueHfi σ where
  buffer := fun _ => zeroBuffer
  availList := []
  wrapperList := List.range qdepth
  vq := vq

/-- `get_buffer_pool_wrapper`. The cursor of its loop over an empty list is not `NULL`: it is
computed from the list head itself and is no wrapper (`none`). -/
def getBufferPoolWrapper (handle : VirtqueueHfi σ) : Option (ℕ × VirtqueueHfi σ) :=
  match handle.wrapperList with
  | [] => none
  | entry :: rest => some (entry, { handle with wrapperList := rest })

def returnBufferPoolWrapper (handle : VirtqueueHfi σ) (entry : ℕ) : VirtqueueHfi σ :=
  { handle with
    buffer := Function.update handle.buffer entry zeroBuffer
    wrapperList := handle.wrapperList ++ [entry] }

/-- The checks on a buffer that is handed in. -/
def HfiQueueBuffer.Valid (buffer : HfiQueueBuffer) : Prop :=
  buffer.kva ≠ 0 ∧ buffer.dva ≠ 0 ∧ buffer.bufLen ≠ 0

instance (buffer : HfiQueueBuffer) : Decidable buffer.Valid :=
  inferInstanceAs (Decidable (_ ∧ _ ∧ _))

/-- Two buffers that share an address. -/
def HfiQueueBuffer.Clashes (buffer buffer' : HfiQueueBuffer) : Prop :=
  buffer.kva = buffer'.kva ∨ buffer.dva = buffer'.dva

instance (buffer buffer' : HfiQueueBuffer) : Decidable (buffer.Clashes buffer') :=
  inferInstanceAs (Decidable (_ ∨ _))

def checkBufferInPool (handle : VirtqueueHfi σ) (pbuffer : HfiQueueBuffer) : Bool :=
  handle.availList.any fun entry => (handle.buffer entry).Clashes pbuffer

/-- `set_hfi_buffer_pool`; no payload stands for `NULL` and for a wrong size. There is no result
where the handle itself is written over, through the cursor of an empty list: the test for
`NULL` before it never fires. -/
def setHfiBufferPool (handle : VirtqueueHfi σ) :
    Option HfiQueueBuffer → Option (ℤ × VirtqueueHfi σ)
  | none => some (-EINVAL, handle)
  | some pbuffer =>
    if ¬ pbuffer.Valid then some (-EINVAL, handle)
    else if checkBufferInPool handle pbuffer then some (-EALREADY, handle)
    else
      match getBufferPoolWrapper handle with
      | none => none
      | some (buffer, handle) =>
        some (0, { handle with
          buffer := Function.update handle.buffer buffer pbuffer
          availList := handle.availList ++ [buffer] })

/-- `get_hfi_buffer_pool`: result, the buffer copied out, handle. -/
def getHfiBufferPool (handle : VirtqueueHfi σ) (payloadOk : Bool) :
    ℤ × HfiQueueBuffer × VirtqueueHfi σ :=
  if !payloadOk then (-EINVAL, zeroBuffer, handle)
  else
    match handle.availList with
    | [] => (-ENOBUFS, zeroBuffer, handle)
    | entry :: rest =>
      (0, handle.buffer entry, returnBufferPoolWrapper { handle with availList := rest } entry)

variable (vq : Virtqueue σ)

/-- `set_hfi_buffer_queue`. A token that the virtqueue does not take is not put back. -/
def setHfiBufferQueue (handle : VirtqueueHfi σ) :
    Option (HfiQueueBufferQueueDir × HfiQueueBuffer) → Option (ℤ × VirtqueueHfi σ)
  | none => some (-EINVAL, handle)
  | some (dir, pbuffer) =>
    if ¬ pbuffer.Valid then some (-EINVAL, handle)
    else
      match getBufferPoolWrapper handle with
      | none => none
      | some (token, handle) =>
        let (ret, s) := vq.add dir pbuffer.dva pbuffer.bufLen token handle.vq
        some (ret, { handle with
          buffer := Function.update handle.buffer token pbuffer
          vq := s })

def getHfiBufferQueue (handle : VirtqueueHfi σ) (payloadOk : Bool) :
    ℤ × HfiQueueBuffer × VirtqueueHfi σ :=
  if !payloadOk then (-EINVAL, zeroBuffer, handle)
  else
    match vq.getBuf handle.vq with
    | (none, s) => (-ENOBUFS, zeroBuffer, { handle with vq := s })
    | (some token, s) =>
      (0, handle.buffer token, returnBufferPoolWrapper { handle with vq := s } token)

/-- The first loop of `set_hfi_buffer_reset`: the used buffers go back to the pool. -/
def resetUsedLoop : ℕ → VirtqueueHfi σ → Option (VirtqueueHfi σ)
  | 0, _ => none
  | fuel + 1, handle =>
    let (ret, buffer, handle) := getHfiBufferQueue vq handle true
    if ret ≠ 0 then some handle
    else
      match setHfiBufferPool handle (some buffer) with
      | none => none
      | some (_, handle) => resetUsedLoop fuel handle

/-- The second loop: the buffers that the device has not used. -/
def resetUnusedLoop : ℕ → VirtqueueHfi σ → Option (VirtqueueHfi σ)
  | 0, _ => none
  | fuel + 1, handle =>
    match vq.detachUnusedBuf handle.vq with
    | (none, s) => some { handle with vq := s }
    | (some token, s) =>
      let buffer := handle.buffer token
      match setHfiBufferPool (returnBufferPoolWrapper { handle with vq := s } token)
          (some buffer) with
      | none => none
      | some (_, handle) => resetUnusedLoop fuel handle

def setHfiBufferReset (fuel : ℕ) (handle : VirtqueueHfi σ) : Option (ℤ × VirtqueueHfi σ) :=
  match resetUsedLoop vq fuel handle with
  | none => none
  | some handle => (resetUnusedLoop vq fuel handle).map fun handle => (0, handle)

def getHfiBuffer (handle : VirtqueueHfi σ) (payloadOk : Bool) :
    ℤ × HfiQueueBuffer × VirtqueueHfi σ :=
  let (ret, buffer, handle) := getHfiBufferPool handle payloadOk
  if ret = -ENOBUFS then getHfiBufferQueue vq handle payloadOk else (ret, buffer, handle)

/-! ## Calls -/

inductive HfiCall
  | setPool (payload : Option HfiQueueBuffer)
  | getPool (payloadOk : Bool)
  | setQueue (payload : Option (HfiQueueBufferQueueDir × HfiQueueBuffer))
  | getQueue (payloadOk : Bool)
  | getBuffer (payloadOk : Bool)
  | reset

def HfiCall.step (fuel : ℕ) (handle : VirtqueueHfi σ) : HfiCall → Option (ℤ × VirtqueueHfi σ)
  | .setPool payload => setHfiBufferPool handle payload
  | .getPool payloadOk =>
    let (ret, _, handle) := getHfiBufferPool handle payloadOk
    some (ret, handle)
  | .setQueue payload => setHfiBufferQueue vq handle payload
  | .getQueue payloadOk =>
    let (ret, _, handle) := getHfiBufferQueue vq handle payloadOk
    some (ret, handle)
  | .getBuffer payloadOk =>
    let (ret, _, handle) := getHfiBuffer vq handle payloadOk
    some (ret, handle)
  | .reset => setHfiBufferReset vq fuel handle

end QcomModules.HfiCore
