import QcomModules.RxReo.EntryKeys

/-! What each part that holds the lock of a list does to it. -/

namespace QcomModules.RxReo

open List

variable {config : ReoConfig} {lastReleasedFrame : Option MgmtRxReoParams}
  {egress ingress : List ReoListEntry} {desc : FrameDescriptor} {new : Option ReoListEntry}
  {now : BitVec 64} {r : ListUpdate}

/-! ## A frame and the last released one -/

theorem isStaleFrame_eq (lastReleasedFrame : Option MgmtRxReoParams) (desc : FrameDescriptor) :
    ∃ stale parallel, isStaleFrame lastReleasedFrame desc =
      { desc with isStale := stale, isParallelRx := parallel } := by
  unfold isStaleFrame
  dsimp only
  by_cases hreq : (!desc.reoRequired) = true
  · rw [if_pos hreq]
    exact ⟨_, _, rfl⟩
  · rw [if_neg hreq]
    cases lastReleasedFrame with
    | none => exact ⟨_, _, rfl⟩
    | some last =>
      dsimp only
      split <;> exact ⟨_, _, rfl⟩

@[simp] theorem needsEntry_isStaleFrame :
    (isStaleFrame lastReleasedFrame desc).needsEntry = desc.needsEntry := by
  obtain ⟨stale, parallel, h⟩ := isStaleFrame_eq lastReleasedFrame desc
  rw [h]
  rfl

@[simp] theorem reoParams_isStaleFrame :
    (isStaleFrame lastReleasedFrame desc).reoParams = desc.reoParams := by
  obtain ⟨stale, parallel, h⟩ := isStaleFrame_eq lastReleasedFrame desc
  rw [h]

@[simp] theorem globalTs_isStaleFrame :
    (isStaleFrame lastReleasedFrame desc).globalTs = desc.globalTs := by
  obtain ⟨stale, parallel, h⟩ := isStaleFrame_eq lastReleasedFrame desc
  rw [h]
  rfl

@[simp] theorem queuedList_isStaleFrame :
    (isStaleFrame lastReleasedFrame desc).queuedList = desc.queuedList := by
  obtain ⟨stale, parallel, h⟩ := isStaleFrame_eq lastReleasedFrame desc
  rw [h]

@[simp] theorem reoRequired_isStaleFrame :
    (isStaleFrame lastReleasedFrame desc).reoRequired = desc.reoRequired := by
  obtain ⟨stale, parallel, h⟩ := isStaleFrame_eq lastReleasedFrame desc
  rw [h]

@[simp] theorem waitCount_isStaleFrame :
    (isStaleFrame lastReleasedFrame desc).waitCount = desc.waitCount := by
  obtain ⟨stale, parallel, h⟩ := isStaleFrame_eq lastReleasedFrame desc
  rw [h]

@[simp] theorem pktCtrDelta_isStaleFrame :
    (isStaleFrame lastReleasedFrame desc).pktCtrDelta = desc.pktCtrDelta := by
  obtain ⟨stale, parallel, h⟩ := isStaleFrame_eq lastReleasedFrame desc
  rw [h]

/-! ## The egress list -/

/-- The assertion fails where a stale frame finds an entry that was not received in parallel. -/
theorem updateEgressList_eq_none (h : updateEgressList config lastReleasedFrame egress desc new =
    none) : (isStaleFrame lastReleasedFrame desc).isStale = true ∧
      ∃ entry ∈ olderEntries desc.globalTs egress, entry.isParallelRx = false := by
  unfold updateEgressList at h
  split at h
  · cases h
  · dsimp only at h
    split at h
    · next hstale =>
        split at h
        · cases h
        · next hall =>
            rw [globalTs_isStaleFrame, Bool.not_eq_true, all_eq_false] at hall
            obtain ⟨entry, hentry, hpar⟩ := hall
            exact ⟨hstale, entry, hentry, by simpa using hpar⟩
    · split at h
      · split at h <;> cases h
      · cases h

def egressEntry (desc : FrameDescriptor) (new leastGreater : ReoListEntry) : ReoListEntry :=
  let new := new.boundBy leastGreater.waitCount
  { new with
    isParallelRx := desc.isParallelRx
    status := { new.status with olderThanReadyToDeliverFrames := true } }

theorem updateEgressList_cases (hneed : desc.needsEntry = new.isSome)
    (h : updateEgressList config lastReleasedFrame egress desc new = some r) :
    (r = { status := .success, list := egress, desc := isStaleFrame lastReleasedFrame desc } ∧
      ((isStaleFrame lastReleasedFrame desc).isStale = false → new.isSome = true →
        ∀ last ∈ egress.getLast?,
          compareGlobalTimestampsGte desc.globalTs last.globalTs = true)) ∨
    ∃ entry first newer, new = some entry ∧
      (isStaleFrame lastReleasedFrame desc).isStale = false ∧
      newerEntries desc.globalTs egress = first :: newer ∧
      r =
        { status := .success
          list := handleEgressOverflow config (olderEntries desc.globalTs egress ++
            egressEntry (isStaleFrame lastReleasedFrame desc) entry first ::
              newerEntries desc.globalTs egress)
          desc :=
            { isStaleFrame lastReleasedFrame desc with
              waitCount :=
                (egressEntry (isStaleFrame lastReleasedFrame desc) entry first).waitCount
              queuedList := .egress } } := by
  rw [updateEgressList, if_neg (by rw [hneed]; simp)] at h
  dsimp only at h
  split at h
  · next hstale =>
      left
      split at h
      · refine ⟨(Option.some.inj h).symm, fun hfresh => ?_⟩
        rw [hstale] at hfresh
        cases hfresh
      · cases h
  · next hfresh =>
      split at h
      · next entry last hlast =>
          split at h
          · next hgte =>
              left
              refine ⟨(Option.some.inj h).symm, fun _ _ l hl => ?_⟩
              obtain rfl : last = l := Option.some.inj (hlast.symm.trans hl)
              rwa [globalTs_isStaleFrame] at hgte
          · next hgte =>
              right
              have hmem : last ∈ newerEntries desc.globalTs egress := by
                have hlast := mem_of_getLast? hlast
                rw [← older_append_newer desc.globalTs egress, mem_append] at hlast
                obtain hold | hnew := hlast
                · rw [globalTs_isStaleFrame] at hgte
                  exact absurd (older_upto hold) hgte
                · exact hnew
              obtain ⟨first, newer, hnewer⟩ := exists_cons_of_ne_nil (ne_nil_of_mem hmem)
              refine ⟨entry, first, newer, rfl, by simpa using hfresh, hnewer, ?_⟩
              rw [← Option.some.inj h, ← @globalTs_isStaleFrame lastReleasedFrame desc]
              rw [← @globalTs_isStaleFrame lastReleasedFrame desc] at hnewer
              rw [insertEgress, hnewer]
              rfl
      · next hnone =>
          left
          refine ⟨(Option.some.inj h).symm, fun _ hsome last hlast => ?_⟩
          obtain ⟨entry, rfl⟩ := Option.isSome_iff_exists.1 hsome
          exact absurd hlast (fun hlast => hnone entry last rfl hlast)

/-! ## The ingress list -/

theorem updateIngressList_eq_none (h : updateIngressList now ingress desc new = none) :
    desc.isStale = true ∧
      ∃ entry ∈ olderEntries desc.globalTs ingress, entry.isParallelRx = false := by
  unfold updateIngressList at h
  split at h
  · cases h
  · dsimp only at h
    split at h
    · next hbad =>
        rw [Bool.and_eq_true, Bool.not_eq_true', all_eq_false] at hbad
        obtain ⟨hstale, entry, hentry, hpar⟩ := hbad
        exact ⟨hstale, entry, hentry, by simpa using hpar⟩
    · split at h
      · split at h <;> cases h
      · cases h

def ingressEntry (now : BitVec 64) (desc : FrameDescriptor) (new : ReoListEntry)
    (newer : List ReoListEntry) : ReoListEntry :=
  { boundNew new newer with
    isParallelRx := desc.isParallelRx
    ingressListInsertionTs := now }

theorem updateIngressList_cases (hneed : desc.needsEntry = new.isSome)
    (h : updateIngressList now ingress desc new = some r) :
    (desc.entersIngress = false ∧
      r =
        { status := .success
          list := (olderEntries desc.globalTs ingress).map (·.boundBy desc.waitCount) ++
            (newerEntries desc.globalTs ingress).map
              (·.countDown desc.reoParams.linkId (BitVec.ofInt 16 desc.pktCtrDelta).toNat)
          desc := desc }) ∨
    ∃ entry, new = some entry ∧ desc.entersIngress = true ∧
      r =
        { status := .success
          list := (olderEntries desc.globalTs ingress).map (·.boundBy desc.waitCount) ++
            ingressEntry now desc entry (newerEntries desc.globalTs ingress) ::
              (newerEntries desc.globalTs ingress).map
                (·.countDown desc.reoParams.linkId (BitVec.ofInt 16 desc.pktCtrDelta).toNat)
          desc :=
            { desc with
              waitCount :=
                (ingressEntry now desc entry (newerEntries desc.globalTs ingress)).waitCount
              queuedList := .ingress } } := by
  rw [updateIngressList, if_neg (by rw [hneed]; simp)] at h
  dsimp only at h
  split at h
  · cases h
  · split at h
    · next entry =>
        split at h
        · next hent => exact .inr ⟨entry, rfl, hent, (Option.some.inj h).symm⟩
        · next hent => exact .inl ⟨by simpa using hent, (Option.some.inj h).symm⟩
    · refine .inl ⟨?_, (Option.some.inj h).symm⟩
      have hnot : desc.needsEntry = false := hneed
      rw [FrameDescriptor.needsEntry] at hnot
      rw [FrameDescriptor.entersIngress]
      grind

end QcomModules.RxReo
