import QcomModules.HfiCore.Wrappers
import QcomModules.Library.Runs
import Mathlib.Data.Multiset.Range

/-! Where the wrappers of an HFI queue are over any run of its calls. -/

namespace QcomModules.HfiCore

open Library List Function

variable {σ : Type} {vq : Virtqueue σ} {qDepth fuel : ℕ} {handle handle' : VirtqueueHfi σ}

/-- How often a token is in the two lists and the virtqueue together. -/
def VirtqueueHfi.total (vq : Virtqueue σ) (handle : VirtqueueHfi σ) (token : ℕ) : ℕ :=
  handle.availList.count token + handle.wrapperList.count token +
    (vq.contents handle.vq).count token

/-- Each of the wrappers is in exactly one place, and nothing else is in any. -/
def Conserved (vq : Virtqueue σ) (qDepth : ℕ) (handle : VirtqueueHfi σ) : Prop :=
  ∀ token, handle.total vq token = if token < qDepth then 1 else 0

/-- The wrappers are conserved, and the virtqueue holds buffers that were checked. -/
structure QueueOk (vq : Virtqueue σ) (qDepth : ℕ) (handle : VirtqueueHfi σ) : Prop where
  conserved : Conserved vq qDepth handle
  valid : ∀ token ∈ vq.contents handle.vq, (handle.buffer token).Valid

/-! ## Disjointness -/

section
variable (h : Conserved vq qDepth handle) {token entry : ℕ}
include h

theorem Conserved.total_le (token : ℕ) : handle.total vq token ≤ 1 := by
  rw [h token]
  split <;> omega

theorem Conserved.ne_of_avail (htoken : token ∈ vq.contents handle.vq)
    (hentry : entry ∈ handle.availList) : entry ≠ token := by
  rintro rfl
  have hle := h.total_le entry
  have hpos := Multiset.count_pos.2 htoken
  have hpos' := count_pos_iff.2 hentry
  rw [VirtqueueHfi.total] at hle
  omega

theorem Conserved.ne_of_wrapper (htoken : token ∈ vq.contents handle.vq)
    (hentry : entry ∈ handle.wrapperList) : entry ≠ token := by
  rintro rfl
  have hle := h.total_le entry
  have hpos := Multiset.count_pos.2 htoken
  have hpos' := count_pos_iff.2 hentry
  rw [VirtqueueHfi.total] at hle
  omega

theorem Conserved.avail_ne_wrapper (htoken : token ∈ handle.availList)
    (hentry : entry ∈ handle.wrapperList) : entry ≠ token := by
  rintro rfl
  have hle := h.total_le entry
  have hpos := count_pos_iff.2 htoken
  have hpos' := count_pos_iff.2 hentry
  rw [VirtqueueHfi.total] at hle
  omega

end

theorem Conserved.of_total_eq (h : Conserved vq qDepth handle)
    (htotal : ∀ token, handle'.total vq token = handle.total vq token) :
    Conserved vq qDepth handle' := fun token => (htotal token).trans (h token)

/-! ## The calls one by one -/

/-- What a call does that fails: nothing to the lists or the contents of the virtqueue. -/
def Unchanged (vq : Virtqueue σ) (handle handle' : VirtqueueHfi σ) : Prop :=
  handle'.availList = handle.availList ∧ handle'.wrapperList = handle.wrapperList ∧
    vq.contents handle'.vq = vq.contents handle.vq

variable {pbuffer : HfiQueueBuffer}

theorem setHfiBufferPool_new (hvalid : pbuffer.Valid)
    (hnew : checkBufferInPool handle pbuffer = false) {entry : ℕ} {rest : List ℕ}
    (hwrapper : handle.wrapperList = entry :: rest) :
    setHfiBufferPool handle (some pbuffer) =
      some (0, { handle with
        buffer := Function.update handle.buffer entry pbuffer
        availList := handle.availList ++ [entry]
        wrapperList := rest }) := by
  simp [setHfiBufferPool, hvalid, hnew, getBufferPoolWrapper, hwrapper]

theorem QueueOk.setPool (h : QueueOk vq qDepth handle) (pbuffer : HfiQueueBuffer) {entry : ℕ}
    {rest : List ℕ} (hwrapper : handle.wrapperList = entry :: rest) :
    QueueOk vq qDepth { handle with
      buffer := Function.update handle.buffer entry pbuffer
      availList := handle.availList ++ [entry]
      wrapperList := rest } where
  conserved := by
    refine h.conserved.of_total_eq fun token => ?_
    simp only [VirtqueueHfi.total, count_append, count_cons, count_nil, hwrapper]
    omega
  valid token htoken := by
    have hne : entry ≠ token :=
      h.conserved.ne_of_wrapper htoken (hwrapper ▸ mem_cons_self)
    change (update handle.buffer entry pbuffer token).Valid
    rw [update_of_ne hne.symm]
    exact h.valid token htoken

theorem QueueOk.returnAvail (h : QueueOk vq qDepth handle) {entry : ℕ} {rest : List ℕ}
    (havail : handle.availList = entry :: rest) :
    QueueOk vq qDepth (returnBufferPoolWrapper { handle with availList := rest } entry) where
  conserved := by
    refine h.conserved.of_total_eq fun token => ?_
    simp only [returnBufferPoolWrapper, VirtqueueHfi.total, count_append, count_cons,
      count_nil, havail]
    omega
  valid token htoken := by
    have hne : entry ≠ token := h.conserved.ne_of_avail htoken (havail ▸ mem_cons_self)
    change (update handle.buffer entry zeroBuffer token).Valid
    rw [update_of_ne hne.symm]
    exact h.valid token htoken

theorem QueueOk.returnToken (h : QueueOk vq qDepth handle) {token : ℕ} {s : σ}
    (hcontents : vq.contents handle.vq = token ::ₘ vq.contents s) :
    QueueOk vq qDepth (returnBufferPoolWrapper { handle with vq := s } token) where
  conserved := by
    refine h.conserved.of_total_eq fun token' => ?_
    simp only [returnBufferPoolWrapper, VirtqueueHfi.total, count_append, count_cons,
      count_nil, hcontents, Multiset.count_cons, beq_iff_eq, eq_comm (a := token)]
    omega
  valid token' htoken' := by
    change token' ∈ vq.contents s at htoken'
    have hne : token' ≠ token := by
      rintro rfl
      have hle := h.conserved.total_le token'
      have hpos := Multiset.count_pos.2 htoken'
      rw [VirtqueueHfi.total, hcontents, Multiset.count_cons_self] at hle
      omega
    change (update handle.buffer token zeroBuffer token').Valid
    rw [update_of_ne hne]
    exact h.valid token' (hcontents ▸ Multiset.mem_cons_of_mem htoken')

theorem QueueOk.setQueue (h : QueueOk vq qDepth handle) (hvalid : pbuffer.Valid) {token : ℕ}
    {rest : List ℕ} (hwrapper : handle.wrapperList = token :: rest) {s : σ}
    (hcontents : vq.contents s = token ::ₘ vq.contents handle.vq) :
    QueueOk vq qDepth { handle with
      buffer := Function.update handle.buffer token pbuffer
      wrapperList := rest
      vq := s } where
  conserved := by
    refine h.conserved.of_total_eq fun token' => ?_
    simp only [VirtqueueHfi.total, count_cons, hwrapper, hcontents, Multiset.count_cons,
      beq_iff_eq, eq_comm (a := token)]
    omega
  valid token' htoken' := by
    rw [hcontents, Multiset.mem_cons] at htoken'
    change (update handle.buffer token pbuffer token').Valid
    by_cases heq : token' = token
    · rw [heq, update_self]
      exact hvalid
    · rw [update_of_ne heq]
      exact h.valid token' (htoken'.resolve_left heq)

theorem QueueOk.setVq (h : QueueOk vq qDepth handle) {s : σ}
    (hcontents : vq.contents s = vq.contents handle.vq) :
    QueueOk vq qDepth { handle with vq := s } where
  conserved := by
    refine h.conserved.of_total_eq fun token => ?_
    simp only [VirtqueueHfi.total, hcontents]
  valid token htoken := h.valid token (hcontents ▸ htoken)

/-! ## Emptying the virtqueue -/

/-- A buffer that the virtqueue held at the start is in the pool, or could not be: the pool held
another one with one of its addresses, or the virtqueue did, and that one is in the pool. -/
def Settled (vq : Virtqueue σ) (start handle : VirtqueueHfi σ) (token : ℕ) : Prop :=
  (∃ entry ∈ handle.availList, handle.buffer entry = start.buffer token) ∨
    (∃ entry ∈ start.availList, (start.buffer entry).Clashes (start.buffer token)) ∨
    ∃ token' ∈ vq.contents start.vq, token' ≠ token ∧
      (start.buffer token').Clashes (start.buffer token) ∧
      ∃ entry ∈ handle.availList, handle.buffer entry = start.buffer token'

/-- Some tokens have left the virtqueue since the start, and their buffers are settled. -/
structure Draining (vq : Virtqueue σ) (start handle : VirtqueueHfi σ) : Prop where
  contents : ∀ token ∈ vq.contents handle.vq,
    token ∈ vq.contents start.vq ∧ handle.buffer token = start.buffer token
  pool : ∀ entry ∈ handle.availList,
    entry ∈ start.availList ∧ handle.buffer entry = start.buffer entry ∨
      ∃ token ∈ vq.contents start.vq, token ∉ vq.contents handle.vq ∧
        handle.buffer entry = start.buffer token
  settled : ∀ token ∈ vq.contents start.vq,
    token ∈ vq.contents handle.vq ∨ Settled vq start handle token

theorem draining_refl : Draining vq handle handle where
  contents _ htoken := ⟨htoken, rfl⟩
  pool _ hentry := .inl ⟨hentry, rfl⟩
  settled _ htoken := .inl htoken

theorem Settled.grow {start : VirtqueueHfi σ} {token : ℕ} (h : Settled vq start handle token)
    (hgrow : ∀ entry ∈ handle.availList,
      entry ∈ handle'.availList ∧ handle'.buffer entry = handle.buffer entry) :
    Settled vq start handle' token := by
  have hkept {buffer : HfiQueueBuffer} (h : ∃ entry ∈ handle.availList,
      handle.buffer entry = buffer) :
      ∃ entry ∈ handle'.availList, handle'.buffer entry = buffer := by
    obtain ⟨entry, hentry, hbuffer⟩ := h
    exact ⟨entry, (hgrow entry hentry).1, (hgrow entry hentry).2.trans hbuffer⟩
  rcases h with hpool | hclash | ⟨token', htoken', hne, hclash, hpool⟩
  · exact .inl (hkept hpool)
  · exact .inr (.inl hclash)
  · exact .inr (.inr ⟨token', htoken', hne, hclash, hkept hpool⟩)

section
variable {start : VirtqueueHfi σ} {token : ℕ} {s : σ}

/-- A token has left the virtqueue and is put back, but its buffer is not settled yet. -/
structure Taken (vq : Virtqueue σ) (start handle : VirtqueueHfi σ) (token : ℕ) : Prop where
  start_mem : token ∈ vq.contents start.vq
  gone : token ∉ vq.contents handle.vq
  contents : ∀ token' ∈ vq.contents handle.vq,
    token' ∈ vq.contents start.vq ∧ handle.buffer token' = start.buffer token'
  pool : ∀ entry ∈ handle.availList,
    entry ∈ start.availList ∧ handle.buffer entry = start.buffer entry ∨
      ∃ token' ∈ vq.contents start.vq, token' ∉ vq.contents handle.vq ∧ token' ≠ token ∧
        handle.buffer entry = start.buffer token'
  settled : ∀ token' ∈ vq.contents start.vq,
    token' = token ∨ token' ∈ vq.contents handle.vq ∨ Settled vq start handle token'

theorem Draining.take (h : Draining vq start handle) (hok : QueueOk vq qDepth handle)
    (hcontents : vq.contents handle.vq = token ::ₘ vq.contents s) :
    Taken vq start (returnBufferPoolWrapper { handle with vq := s } token) token := by
  have hmem : token ∈ vq.contents handle.vq := hcontents ▸ Multiset.mem_cons_self token _
  have hgone : token ∉ vq.contents s := by
    intro hin
    have hle := hok.conserved.total_le token
    have hpos := Multiset.count_pos.2 hin
    rw [VirtqueueHfi.total, hcontents, Multiset.count_cons_self] at hle
    omega
  have hkept : ∀ entry ∈ handle.availList,
      update handle.buffer token zeroBuffer entry = handle.buffer entry :=
    fun entry hentry => update_of_ne (hok.conserved.ne_of_avail hmem hentry) _ _
  refine ⟨(h.contents token hmem).1, hgone, ?_, ?_, ?_⟩
  · intro token' htoken'
    change token' ∈ vq.contents s at htoken'
    have hne : token' ≠ token := fun heq => hgone (heq ▸ htoken')
    change _ ∧ update handle.buffer token zeroBuffer token' = _
    rw [update_of_ne hne]
    exact h.contents token' (hcontents ▸ Multiset.mem_cons_of_mem htoken')
  · intro entry hentry
    change _ ∧ update handle.buffer token zeroBuffer entry = _ ∨ ∃ token' ∈
      vq.contents start.vq, token' ∉ vq.contents s ∧ token' ≠ token ∧
        update handle.buffer token zeroBuffer entry = _
    rw [hkept entry hentry]
    rcases h.pool entry hentry with hold | ⟨token', htoken', hout, heq⟩
    · exact .inl hold
    · have hne : token' ≠ token := fun heq => hout (heq ▸ hmem)
      exact .inr ⟨token', htoken', fun hin => hout (hcontents ▸ Multiset.mem_cons_of_mem hin),
        hne, heq⟩
  · intro token' htoken'
    rcases h.settled token' htoken' with hin | hsettled
    · rw [hcontents, Multiset.mem_cons] at hin
      exact hin.imp_right .inl
    · exact .inr (.inr (hsettled.grow fun entry hentry => ⟨hentry, hkept entry hentry⟩))

theorem Taken.clash (h : Taken vq start handle token)
    (hcheck : checkBufferInPool handle (start.buffer token) = true) :
    Draining vq start handle := by
  refine ⟨h.contents, ?_, ?_⟩
  · intro entry hentry
    rcases h.pool entry hentry with hold | ⟨token', htoken', hout, -, heq⟩
    · exact .inl hold
    · exact .inr ⟨token', htoken', hout, heq⟩
  · intro token' htoken'
    rcases h.settled token' htoken' with rfl | hrest
    · rw [checkBufferInPool, any_eq_true] at hcheck
      obtain ⟨entry, hentry, hclash⟩ := hcheck
      rw [decide_eq_true_eq] at hclash
      rcases h.pool entry hentry with ⟨hold, heq⟩ | ⟨other, hother, -, hne, heq⟩
      · exact .inr (.inr (.inl ⟨entry, hold, heq ▸ hclash⟩))
      · exact .inr (.inr (.inr ⟨other, hother, hne, heq ▸ hclash, entry, hentry, heq⟩))
    · exact hrest

theorem Taken.pooled (h : Taken vq start handle token) (hok : QueueOk vq qDepth handle)
    {entry : ℕ} {rest : List ℕ} (hwrapper : handle.wrapperList = entry :: rest) :
    Draining vq start { handle with
      buffer := Function.update handle.buffer entry (start.buffer token)
      availList := handle.availList ++ [entry]
      wrapperList := rest } := by
  have hentry : entry ∈ handle.wrapperList := hwrapper ▸ mem_cons_self
  have havail : ∀ other ∈ handle.availList,
      update handle.buffer entry (start.buffer token) other = handle.buffer other :=
    fun other hother =>
      update_of_ne (hok.conserved.avail_ne_wrapper hother hentry).symm _ _
  refine ⟨?_, ?_, ?_⟩
  · intro token' htoken'
    have hne : entry ≠ token' := hok.conserved.ne_of_wrapper htoken' hentry
    change _ ∧ update handle.buffer entry (start.buffer token) token' = _
    rw [update_of_ne hne.symm]
    exact h.contents token' htoken'
  · intro other hother
    change _ ∧ update handle.buffer entry (start.buffer token) other = _ ∨ ∃ token' ∈
      vq.contents start.vq, token' ∉ vq.contents handle.vq ∧
        update handle.buffer entry (start.buffer token) other = _
    rcases mem_append.1 hother with hold | hlast
    · rw [havail other hold]
      rcases h.pool other hold with hold' | ⟨token', htoken', hout, -, heq⟩
      · exact .inl hold'
      · exact .inr ⟨token', htoken', hout, heq⟩
    · rw [mem_singleton.1 hlast, update_self]
      exact .inr ⟨token, h.start_mem, h.gone, rfl⟩
  · intro token' htoken'
    rcases h.settled token' htoken' with rfl | hin | hsettled
    · exact .inr (.inl ⟨entry, mem_append_right _ mem_cons_self,
        update_self ..⟩)
    · exact .inl hin
    · exact .inr (hsettled.grow fun other hother =>
        ⟨mem_append_left _ hother, havail other hother⟩)

theorem Draining.recycle (h : Draining vq start handle) (hok : QueueOk vq qDepth handle)
    (hcontents : vq.contents handle.vq = token ::ₘ vq.contents s) :
    ∃ ret handle', setHfiBufferPool (returnBufferPoolWrapper { handle with vq := s } token)
        (some (handle.buffer token)) = some (ret, handle') ∧
      handle'.vq = s ∧ QueueOk vq qDepth handle' ∧ Draining vq start handle' := by
  have hok' := hok.returnToken hcontents
  have htaken := h.take hok hcontents
  have hmem : token ∈ vq.contents handle.vq := hcontents ▸ Multiset.mem_cons_self token _
  have hvalid := hok.valid token hmem
  rw [(h.contents token hmem).2] at hvalid ⊢
  cases hcheck : checkBufferInPool (returnBufferPoolWrapper { handle with vq := s } token)
      (start.buffer token) with
  | true =>
    refine ⟨-EALREADY, _, ?_, rfl, hok', htaken.clash hcheck⟩
    simp [setHfiBufferPool, hvalid, hcheck]
  | false =>
    obtain ⟨entry, rest, hwrapper⟩ :
        ∃ entry rest, handle.wrapperList ++ [token] = entry :: rest :=
      exists_cons_of_ne_nil (by simp)
    exact ⟨0, _, setHfiBufferPool_new hvalid hcheck hwrapper, rfl,
      hok'.setPool (start.buffer token) hwrapper, htaken.pooled hok' hwrapper⟩

theorem Draining.setVq (h : Draining vq start handle)
    (hcontents : vq.contents s = vq.contents handle.vq) :
    Draining vq start { handle with vq := s } where
  contents token htoken := h.contents token (hcontents ▸ htoken)
  pool := by
    intro entry hentry
    simp only [hcontents]
    exact h.pool entry hentry
  settled := by
    intro token htoken
    simp only [hcontents]
    exact h.settled token htoken

theorem resetUsedLoop_ends (hvq : LawfulVirtqueue vq) (h : Draining vq start handle)
    (hok : QueueOk vq qDepth handle) (hfuel : (vq.contents handle.vq).card < fuel) :
    ∃ handle', resetUsedLoop vq fuel handle = some handle' ∧ QueueOk vq qDepth handle' ∧
      (vq.contents handle'.vq).card ≤ (vq.contents handle.vq).card ∧
      Draining vq start handle' := by
  induction fuel generalizing handle with
  | zero => omega
  | succ fuel ih =>
    rw [resetUsedLoop]
    rcases hget : vq.getBuf handle.vq with ⟨got, s⟩
    cases got with
    | none =>
      have hcontents := hvq.get_none _ _ hget
      refine ⟨{ handle with vq := s }, ?_, hok.setVq hcontents, ?_, h.setVq hcontents⟩
      · simp [getHfiBufferQueue, hget, ENOBUFS]
      · exact (congrArg Multiset.card hcontents).le
    | some token =>
      have hcontents := hvq.get_some _ _ _ hget
      obtain ⟨ret, next, hpool, hs, hok', h'⟩ := h.recycle hok hcontents
      have hcard : (vq.contents next.vq).card + 1 = (vq.contents handle.vq).card := by
        rw [hs, hcontents, Multiset.card_cons]
      obtain ⟨last, hloop, hrest⟩ := ih h' hok' (by omega)
      refine ⟨last, ?_, hrest.1, by omega, hrest.2.2⟩
      simp only [getHfiBufferQueue, hget, Bool.not_true, Bool.false_eq_true, if_false, ne_eq,
        not_true_eq_false, hpool]
      exact hloop

theorem resetUnusedLoop_ends (hvq : LawfulVirtqueue vq) (h : Draining vq start handle)
    (hok : QueueOk vq qDepth handle) (hfuel : (vq.contents handle.vq).card < fuel) :
    ∃ handle', resetUnusedLoop vq fuel handle = some handle' ∧ QueueOk vq qDepth handle' ∧
      vq.contents handle'.vq = 0 ∧ Draining vq start handle' := by
  induction fuel generalizing handle with
  | zero => omega
  | succ fuel ih =>
    rw [resetUnusedLoop]
    rcases hdetach : vq.detachUnusedBuf handle.vq with ⟨got, s⟩
    cases got with
    | none =>
      obtain ⟨hempty, hempty'⟩ := hvq.detach_none _ _ hdetach
      have hcontents := hempty'.trans hempty.symm
      exact ⟨{ handle with vq := s }, rfl, hok.setVq hcontents, hempty', h.setVq hcontents⟩
    | some token =>
      have hcontents := hvq.detach_some _ _ _ hdetach
      obtain ⟨ret, next, hpool, hs, hok', h'⟩ := h.recycle hok hcontents
      have hcard : (vq.contents next.vq).card + 1 = (vq.contents handle.vq).card := by
        rw [hs, hcontents, Multiset.card_cons]
      obtain ⟨last, hloop, hrest⟩ := ih h' hok' (by omega)
      refine ⟨last, ?_, hrest⟩
      simp only [hpool]
      exact hloop

theorem setHfiBufferReset_ends (hvq : LawfulVirtqueue vq) (hok : QueueOk vq qDepth handle)
    (hfuel : (vq.contents handle.vq).card < fuel) :
    ∃ handle', setHfiBufferReset vq fuel handle = some (0, handle') ∧
      QueueOk vq qDepth handle' ∧ vq.contents handle'.vq = 0 ∧
      ∀ token ∈ vq.contents handle.vq, Settled vq handle handle' token := by
  obtain ⟨next, hused, hok', hcard, hdraining⟩ := resetUsedLoop_ends hvq draining_refl hok hfuel
  obtain ⟨last, hunused, hok'', hempty, hdraining'⟩ :=
    resetUnusedLoop_ends hvq hdraining hok' (hcard.trans_lt hfuel)
  refine ⟨last, by simp [setHfiBufferReset, hused, hunused], hok'', hempty, fun token htoken => ?_⟩
  refine (hdraining'.settled token htoken).resolve_left fun hin => ?_
  rw [hempty] at hin
  exact Multiset.notMem_zero token hin

end

/-! ## Every call -/

namespace HfiCall

/-- The call asks for an unused wrapper: a checked buffer, for the pool one that is new. -/
def TakesWrapper (handle : VirtqueueHfi σ) : HfiCall → Prop
  | .setPool (some pbuffer) => pbuffer.Valid ∧ checkBufferInPool handle pbuffer = false
  | .setQueue (some (_, pbuffer)) => pbuffer.Valid
  | _ => False

/-- A call that asks for a wrapper finds one, and the virtqueue takes the token it is given. -/
def Served (vq : Virtqueue σ) (handle : VirtqueueHfi σ) : HfiCall → Prop
  | .setPool (some pbuffer) =>
    pbuffer.Valid → checkBufferInPool handle pbuffer = false → handle.wrapperList ≠ []
  | .setQueue (some (dir, pbuffer)) =>
    pbuffer.Valid → ∃ token rest, handle.wrapperList = token :: rest ∧
      (vq.add dir pbuffer.dva pbuffer.bufLen token handle.vq).1 = 0
  | _ => True

/-- What is expected of a call: it returns, every wrapper is still in one place, a failure changes
nothing, a call that needs a wrapper says `-ENOMEM` exactly when there is none, and a reset empties
the virtqueue into the pool. -/
def Right (vq : Virtqueue σ) (fuel qDepth : ℕ) (handle : VirtqueueHfi σ) (call : HfiCall) : Prop :=
  ∃ ret handle', call.step vq fuel handle = some (ret, handle') ∧
    Conserved vq qDepth handle' ∧ (ret ≠ 0 → Unchanged vq handle handle') ∧
    (call.TakesWrapper handle → (ret = -ENOMEM ↔ handle.wrapperList = [])) ∧
    (call = .reset → vq.contents handle'.vq = 0 ∧
      ∀ token ∈ vq.contents handle.vq, Settled vq handle handle' token)

end HfiCall

theorem Conserved.card_le (h : Conserved vq qDepth handle) :
    (vq.contents handle.vq).card ≤ qDepth := by
  have hnodup : (vq.contents handle.vq).Nodup := by
    refine Multiset.nodup_iff_count_le_one.2 fun token => ?_
    have hle := h.total_le token
    rw [VirtqueueHfi.total] at hle
    omega
  have hsubset : vq.contents handle.vq ⊆ Multiset.range qDepth := by
    intro token htoken
    have htotal := h token
    have hpos := Multiset.count_pos.2 htoken
    rw [VirtqueueHfi.total] at htotal
    rw [Multiset.mem_range]
    by_contra hout
    rw [if_neg hout] at htotal
    omega
  have hle := Multiset.card_le_card ((Multiset.le_iff_subset hnodup).2 hsubset)
  rwa [Multiset.card_range] at hle

theorem QueueOk.getPool (h : QueueOk vq qDepth handle) (payloadOk : Bool) :
    QueueOk vq qDepth (getHfiBufferPool handle payloadOk).2.2 ∧
      ((getHfiBufferPool handle payloadOk).1 ≠ 0 →
        (getHfiBufferPool handle payloadOk).2.2 = handle) := by
  rw [getHfiBufferPool]
  split
  · exact ⟨h, fun _ => rfl⟩
  · split
    · exact ⟨h, fun _ => rfl⟩
    · next entry rest havail => exact ⟨h.returnAvail havail, fun hret => absurd rfl hret⟩

theorem QueueOk.getQueue (h : QueueOk vq qDepth handle) (hvq : LawfulVirtqueue vq)
    (payloadOk : Bool) :
    QueueOk vq qDepth (getHfiBufferQueue vq handle payloadOk).2.2 ∧
      ((getHfiBufferQueue vq handle payloadOk).1 ≠ 0 →
        Unchanged vq handle (getHfiBufferQueue vq handle payloadOk).2.2) := by
  rw [getHfiBufferQueue]
  split
  · exact ⟨h, fun _ => ⟨rfl, rfl, rfl⟩⟩
  · split
    · next s hget =>
        have hcontents := hvq.get_none _ _ hget
        exact ⟨h.setVq hcontents, fun _ => ⟨rfl, rfl, hcontents⟩⟩
    · next token s hget =>
        exact ⟨h.returnToken (hvq.get_some _ _ _ hget), fun hret => absurd rfl hret⟩

theorem QueueOk.getBuffer (h : QueueOk vq qDepth handle) (hvq : LawfulVirtqueue vq)
    (payloadOk : Bool) :
    QueueOk vq qDepth (getHfiBuffer vq handle payloadOk).2.2 ∧
      ((getHfiBuffer vq handle payloadOk).1 ≠ 0 →
        Unchanged vq handle (getHfiBuffer vq handle payloadOk).2.2) := by
  obtain ⟨hok, hfail⟩ := h.getPool payloadOk
  rw [getHfiBuffer]
  by_cases hret : (getHfiBufferPool handle payloadOk).1 = -ENOBUFS
  · have hsame := hfail (by rw [hret]; decide)
    simp only [hret, if_true, hsame]
    exact h.getQueue hvq payloadOk
  · simp only [hret, if_false]
    refine ⟨hok, fun hne => ?_⟩
    rw [hfail hne]
    exact ⟨rfl, rfl, rfl⟩

theorem QueueOk.step (h : QueueOk vq qDepth handle) (hvq : LawfulVirtqueue vq)
    (hfuel : qDepth < fuel) {call : HfiCall} (hserved : call.Served vq handle) :
    ∃ ret handle', call.step vq fuel handle = some (ret, handle') ∧
      QueueOk vq qDepth handle' ∧ (ret ≠ 0 → Unchanged vq handle handle') ∧
      (call.TakesWrapper handle → (ret = -ENOMEM ↔ handle.wrapperList = [])) ∧
      (call = .reset → vq.contents handle'.vq = 0 ∧
        ∀ token ∈ vq.contents handle.vq, Settled vq handle handle' token) := by
  cases call with
  | setPool payload =>
    cases payload with
    | none => exact ⟨_, _, rfl, h, fun _ => ⟨rfl, rfl, rfl⟩, False.elim, nofun⟩
    | some pbuffer =>
      by_cases hvalid : pbuffer.Valid
      · cases hcheck : checkBufferInPool handle pbuffer with
        | true =>
          refine ⟨-EALREADY, handle, ?_, h, fun _ => ⟨rfl, rfl, rfl⟩, fun htakes => ?_, nofun⟩
          · simp [HfiCall.step, setHfiBufferPool, hvalid, hcheck]
          · exact absurd (hcheck.symm.trans htakes.2) Bool.noConfusion
        | false =>
          obtain ⟨entry, rest, hwrapper⟩ :=
            exists_cons_of_ne_nil (hserved hvalid hcheck)
          refine ⟨0, _, setHfiBufferPool_new hvalid hcheck hwrapper,
            h.setPool pbuffer hwrapper, fun hret => absurd rfl hret,
            fun _ => iff_of_false (by decide) ?_, nofun⟩
          rw [hwrapper]
          exact cons_ne_nil entry rest
      · refine ⟨-EINVAL, handle, ?_, h, fun _ => ⟨rfl, rfl, rfl⟩, fun htakes => ?_, nofun⟩
        · simp [HfiCall.step, setHfiBufferPool, hvalid]
        · exact absurd htakes.1 hvalid
  | getPool payloadOk =>
    obtain ⟨hok, hfail⟩ := h.getPool payloadOk
    refine ⟨(getHfiBufferPool handle payloadOk).1, (getHfiBufferPool handle payloadOk).2.2, rfl,
      hok, fun hret => ?_, False.elim, nofun⟩
    rw [hfail hret]
    exact ⟨rfl, rfl, rfl⟩
  | setQueue payload =>
    rcases payload with - | ⟨dir, pbuffer⟩
    · exact ⟨_, _, rfl, h, fun _ => ⟨rfl, rfl, rfl⟩, False.elim, nofun⟩
    · by_cases hvalid : pbuffer.Valid
      · obtain ⟨token, rest, hwrapper, hadd⟩ := hserved hvalid
        refine ⟨0, { handle with
          buffer := update handle.buffer token pbuffer
          wrapperList := rest
          vq := (vq.add dir pbuffer.dva pbuffer.bufLen token handle.vq).2 }, ?_,
          h.setQueue hvalid hwrapper (hvq.add_ok _ _ _ _ _ hadd), fun hret => absurd rfl hret,
          fun _ => iff_of_false (by decide) ?_, nofun⟩
        · simp [HfiCall.step, setHfiBufferQueue, hvalid, getBufferPoolWrapper, hwrapper, hadd]
        · rw [hwrapper]
          exact cons_ne_nil token rest
      · refine ⟨-EINVAL, handle, ?_, h, fun _ => ⟨rfl, rfl, rfl⟩, fun htakes => ?_, nofun⟩
        · simp [HfiCall.step, setHfiBufferQueue, hvalid]
        · exact absurd htakes hvalid
  | getQueue payloadOk =>
    obtain ⟨hok, hfail⟩ := h.getQueue hvq payloadOk
    exact ⟨_, _, rfl, hok, hfail, False.elim, nofun⟩
  | getBuffer payloadOk =>
    obtain ⟨hok, hfail⟩ := h.getBuffer hvq payloadOk
    exact ⟨_, _, rfl, hok, hfail, False.elim, nofun⟩
  | reset =>
    obtain ⟨handle', hreset, hok, hempty, hsettled⟩ :=
      setHfiBufferReset_ends hvq h (h.conserved.card_le.trans_lt hfuel)
    exact ⟨0, handle', hreset, hok, fun hret => absurd rfl hret, False.elim,
      fun _ => ⟨hempty, hsettled⟩⟩

theorem HfiCall.Right.served {call : HfiCall} (h : call.Right vq fuel qDepth handle) :
    call.Served vq handle := by
  obtain ⟨ret, handle', hstep, -, hfail, -⟩ := h
  cases call with
  | setPool payload =>
    cases payload with
    | none => trivial
    | some pbuffer =>
      intro hvalid hnew hempty
      simp [step, setHfiBufferPool, hvalid, hnew, getBufferPoolWrapper, hempty] at hstep
  | setQueue payload =>
    rcases payload with - | ⟨dir, pbuffer⟩
    · trivial
    · intro hvalid
      cases hwrapper : handle.wrapperList with
      | nil =>
        simp [step, setHfiBufferQueue, hvalid, getBufferPoolWrapper, hwrapper] at hstep
      | cons token rest =>
        refine ⟨token, rest, rfl, ?_⟩
        by_contra hret
        simp only [step, setHfiBufferQueue, hvalid, not_true_eq_false, if_false,
          getBufferPoolWrapper, hwrapper, Option.some.injEq, Prod.mk.injEq] at hstep
        obtain ⟨rfl, rfl⟩ := hstep
        have hsame := (hfail hret).2.1
        rw [hwrapper] at hsame
        exact cons_ne_self token rest hsame.symm
  | getPool payloadOk => trivial
  | getQueue payloadOk => trivial
  | getBuffer payloadOk => trivial
  | reset => trivial

/-! ## Runs -/

def ServedStep (vq : Virtqueue σ) (fuel : ℕ) (handle handle' : VirtqueueHfi σ) : Prop :=
  ∃ call ret, HfiCall.Served vq handle call ∧ call.step vq fuel handle = some (ret, handle')

/-- Where every call is served, each wrapper is in one place in every state, and the next call is
right exactly if it is served as well. -/
theorem wrappers_conserved_iff (hvq : LawfulVirtqueue vq) {s : σ} (hempty : vq.contents s = 0)
    (hfuel : qDepth < fuel)
    (hrun : Relation.ReflTransGen (ServedStep vq fuel) (createBufferPoolWrappers qDepth s)
      handle) :
    Conserved vq qDepth handle ∧
      ∀ call : HfiCall, call.Right vq fuel qDepth handle ↔ call.Served vq handle := by
  have hok : QueueOk vq qDepth handle := by
    induction hrun with
    | refl =>
      refine ⟨fun token => ?_, fun token htoken => ?_⟩
      · simp [VirtqueueHfi.total, createBufferPoolWrappers, hempty, count_range]
      · exact absurd (hempty ▸ htoken : token ∈ (0 : Multiset ℕ)) (Multiset.notMem_zero token)
    | tail _ hlast ih =>
      obtain ⟨call, ret, hserved, hstep⟩ := hlast
      obtain ⟨ret', handle', hstep', hok', -⟩ := ih.step hvq hfuel hserved
      obtain ⟨-, rfl⟩ := Prod.mk.inj (Option.some.inj (hstep.symm.trans hstep'))
      exact hok'
  refine ⟨hok.conserved, fun call => ⟨HfiCall.Right.served, fun hserved => ?_⟩⟩
  obtain ⟨ret, handle', hstep, hok', hrest⟩ := hok.step hvq hfuel hserved
  exact ⟨ret, handle', hstep, hok'.conserved, hrest⟩

/-- A virtqueue of some capacity: the tokens the device has not used and those it has. -/
def listVirtqueue (capacity : ℕ) : Virtqueue (List ℕ × List ℕ) where
  contents s := s.1 + s.2
  add _ _ _ token s :=
    if s.1.length + s.2.length < capacity then (0, token :: s.1, s.2) else (-28, s)
  getBuf
    | (unused, []) => (none, unused, [])
    | (unused, token :: used) => (some token, unused, used)
  detachUnusedBuf
    | ([], []) => (none, [], [])
    | ([], token :: used) => (some token, [], used)
    | (token :: unused, used) => (some token, unused, used)

theorem listVirtqueue_lawful (capacity : ℕ) : LawfulVirtqueue (listVirtqueue capacity) where
  add_ok dir dva len token s hret := by
    by_cases hroom : s.1.length + s.2.length < capacity
    · simp [listVirtqueue, hroom]
    · simp [listVirtqueue, hroom] at hret
  add_fail dir dva len token s hret := by
    by_cases hroom : s.1.length + s.2.length < capacity
    · simp [listVirtqueue, hroom] at hret
    · simp [listVirtqueue, hroom]
  get_some s token s' hget := by
    rcases s with ⟨unused, - | ⟨head, used⟩⟩
    · simp [listVirtqueue] at hget
    · simp only [listVirtqueue, Prod.mk.injEq, Option.some.injEq] at hget
      obtain ⟨rfl, rfl⟩ := hget
      simp [listVirtqueue]
  get_none s s' hget := by
    rcases s with ⟨unused, - | ⟨head, used⟩⟩
    · simp only [listVirtqueue, Prod.mk.injEq, true_and] at hget
      rw [hget]
    · simp [listVirtqueue] at hget
  detach_some s token s' hdetach := by
    rcases s with ⟨- | ⟨head, unused⟩, - | ⟨head', used⟩⟩
    all_goals
      simp only [listVirtqueue, Prod.mk.injEq, Option.some.injEq, reduceCtorEq,
        false_and] at hdetach
    all_goals
      obtain ⟨rfl, rfl⟩ := hdetach
      simp [listVirtqueue]
  detach_none s s' hdetach := by
    rcases s with ⟨- | ⟨head, unused⟩, - | ⟨head', used⟩⟩
    all_goals simp [listVirtqueue] at hdetach
    subst hdetach
    simp [listVirtqueue]

/-- The same once the device is broken: it takes no token any more. -/
def brokenVirtqueue (capacity : ℕ) : Virtqueue (List ℕ × List ℕ) :=
  { listVirtqueue capacity with add := fun _ _ _ _ s => (-5, s) }

def sampleQueue : VirtqueueHfi (List ℕ × List ℕ) := createBufferPoolWrappers 1 ([], [])

def sampleBuffer (address : UInt64) : HfiQueueBuffer := ⟨address, address, 64, 0⟩

def sampleFull : VirtqueueHfi (List ℕ × List ℕ) where
  buffer := Function.update (fun _ => zeroBuffer) 0 (sampleBuffer 1)
  availList := [0]
  wrapperList := []
  vq := ([], [])

/-- Two buffers for the device and one for the pool, of which the last clashes with the first: what
the reset makes of them is right. -/
theorem sampleCalls_conserved : ∃ handle : VirtqueueHfi (List ℕ × List ℕ),
    Conserved (listVirtqueue 3) 3 handle ∧ handle.availList = [2] ∧ handle.vq = ([1, 0], []) ∧
      HfiCall.reset.Right (listVirtqueue 3) 4 3 handle := by
  have hrun := ((Relation.ReflTransGen.single (r := ServedStep (listVirtqueue 3) 4)
    (a := createBufferPoolWrappers 3 ([], []))
    ⟨.setQueue (some (.tx, sampleBuffer 1)), 0, fun _ => ⟨0, [1, 2], rfl, rfl⟩, rfl⟩).tail
    ⟨.setQueue (some (.rx, sampleBuffer 2)), 0, fun _ => ⟨1, [2], rfl, rfl⟩, rfl⟩).tail
    ⟨.setPool (some (sampleBuffer 1)), 0, fun _ _ => cons_ne_nil _ _, rfl⟩
  have h := wrappers_conserved_iff (listVirtqueue_lawful 3) rfl (by decide : 3 < 4) hrun
  exact ⟨_, h.1, rfl, rfl, (h.2 .reset).2 trivial⟩

/-- With no wrapper left, `set_hfi_buffer_pool` writes over the queue, and a virtqueue that is
broken makes `set_hfi_buffer_queue` lose its wrapper. -/
theorem exhausted_not_right :
    sampleFull.wrapperList = [] ∧
      ((HfiCall.setPool (some (sampleBuffer 2))).step (listVirtqueue 1) 2 sampleFull).isNone =
        true ∧
      ((HfiCall.setQueue (some (.tx, sampleBuffer 1))).step (brokenVirtqueue 1) 2 sampleQueue).map
        (fun result => (result.1, result.2.total (brokenVirtqueue 1) 0)) = some (-5, 0) := by
  decide +kernel

end QcomModules.HfiCore
