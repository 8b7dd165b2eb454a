import QcomModules.Library.Runs
import QcomModules.Wlan.MloAid

/-! Runs of association id operations on an AP MLD. -/

namespace QcomModules.Wlan

open Library List Function

variable {n : ℕ}

/-! ## The MLD with the ids its peers hold -/

structure Mld (n : ℕ) where
  mgr : MlVdevAidMgr n
  held : AidPeer n → List ℕ

inductive AidOp (n : ℕ) where
  | alloc (t2lmPeer : Bool) (peer : AidPeer n)
  | set (peer : AidPeer n) (id : BitVec 16)
  | free (peer : AidPeer n) (id : ℕ)

def AidPeer.linkIx : AidPeer n → Option (Fin (n + 1))
  | .mlo => none
  | .single link => some link

namespace Mld

/-- No vdev has a bit set and no peer holds an id. -/
def idle (range : AidRange) (links : Fin (n + 1) → Option AidRange) : Mld n where
  mgr :=
    { toAidRange := range
      aidBitmap := fun _ => false
      aidMgr := fun link =>
        (links link).map fun r => { toAidRange := r, aidBitmap := fun _ => false } }
  held := fun _ => []

def step (s : Mld n) : AidOp n → Mld n
  | .alloc t2lmPeer peer =>
    let r := wlanMloPeerAllocAid s.mgr t2lmPeer peer
    if r.2 = noAid then { s with mgr := r.1 }
    else { mgr := r.1, held := Function.update s.held peer (r.2 :: s.held peer) }
  | .set peer id =>
    match wlanMloPeerSetAid s.mgr peer id with
    | none => s
    | some mgr =>
      { mgr := mgr, held := Function.update s.held peer (id.toNat :: s.held peer) }
  -- only ids that are held are freed
  | .free peer id =>
    if id ∈ s.held peer then
      { mgr := wlanMloPeerFreeAid s.mgr peer.linkIx id
        held := Function.update s.held peer ((s.held peer).erase id) }
    else s

/-- The ids of the peers of each link are distinct and in the range, and the bitmaps say which they
are. -/
structure Sound (s : Mld n) : Prop where
  nodup : ∀ link, (s.held .mlo ++ s.held (.single link)).Nodup
  range : ∀ peer, ∀ a ∈ s.held peer, s.mgr.startAid < a ∧ a ≤ s.mgr.maxAid
  mlBit : ∀ a : ℕ, s.mgr.aidBitmap (a - 1) = true ↔ a ∈ s.held .mlo
  linkBit : ∀ link, (s.mgr.links link).isSome → ∀ a : ℕ,
    s.mgr.LinkBit link (a - 1) ↔ a ∈ s.held .mlo ∨ a ∈ s.held (.single link)
  absent : ∀ link, s.mgr.links link = none → s.held (.single link) = []

end Mld

def HasVdev (links : Fin (n + 1) → Option AidRange) : AidPeer n → Prop
  | .mlo => True
  | .single link => (links link).isSome

/-- No peer that the id would clash with holds it. -/
def Mld.Unheld (s : Mld n) (a : ℕ) : AidPeer n → Prop
  | .mlo => ∀ peer, a ∉ s.held peer
  | .single link => a ∉ s.held .mlo ∧ a ∉ s.held (.single link)

/-- After the step the ids are sound, and if it is an allocation that fails there was no id. -/
structure Mld.StepOk (s : Mld n) (op : AidOp n) : Prop where
  sound : (s.step op).Sound
  full : ∀ t2lmPeer peer, op = .alloc t2lmPeer peer →
    (wlanMloPeerAllocAid s.mgr t2lmPeer peer).2 = noAid → HasVdev s.mgr.links peer →
      ∀ a, s.mgr.startAid < a → a ≤ s.mgr.maxAid → ¬s.Unheld a peer

/-- The bounds that explicit assignment checks the id against. -/
def AidInBounds (range : AidRange) (links : Fin (n + 1) → Option AidRange) (id : ℕ) :
    AidPeer n → Prop
  | .mlo => range.startAid ≤ id ∧ id < range.maxAid
  | .single link => ∃ r ∈ links link, r.startAid ≤ id ∧ id < r.maxAid

/-- An allocation has a range that is not empty, and an id that is in bounds is in the range. -/
def AidOp.WithinRange (range : AidRange) (links : Fin (n + 1) → Option AidRange) : AidOp n → Prop
  | .alloc _ peer => HasVdev links peer → range.startAid ≠ range.maxAid
  | .set peer id =>
    AidInBounds range links id.toNat peer → range.startAid < id.toNat ∧ id.toNat ≤ range.maxAid
  | .free _ _ => True

/-! ## Bits -/

variable {mgr : MlVdevAidMgr n} {i j : ℤ} {f : AidBitmap → AidBitmap} {peer : AidPeer n}

theorem hasVdev_single {link : Fin (n + 1)} :
    (mgr.links link).isSome = (mgr.aidMgr link).isSome := Option.isSome_map

theorem LinkBit.hasVdev {link : Fin (n + 1)} (h : mgr.LinkBit link i) :
    (mgr.links link).isSome := by
  obtain ⟨vdev, hvdev, -⟩ := h
  rw [hasVdev_single]
  exact Option.isSome_of_mem hvdev

theorem linkBit_mapLinks {link : Fin (n + 1)} :
    (mgr.mapLinks f).LinkBit link i ↔ ∃ vdev ∈ mgr.aidMgr link, f vdev.aidBitmap i = true := by
  simp [MlVdevAidMgr.LinkBit, MlVdevAidMgr.mapLinks]

theorem linkBit_mapLink {link link' : Fin (n + 1)} :
    (mgr.mapLink link f).LinkBit link' i ↔
      if link' = link then ∃ vdev ∈ mgr.aidMgr link, f vdev.aidBitmap i = true
      else mgr.LinkBit link' i := by
  by_cases h : link' = link
  · subst h
    simp [MlVdevAidMgr.LinkBit, MlVdevAidMgr.mapLink]
  · simp [MlVdevAidMgr.LinkBit, MlVdevAidMgr.mapLink, h]

theorem links_mapLinks (mgr : MlVdevAidMgr n) (f : AidBitmap → AidBitmap) :
    (mgr.mapLinks f).links = mgr.links := by
  funext link
  simp [MlVdevAidMgr.links, MlVdevAidMgr.mapLinks, comp_def]

theorem links_mapLink (mgr : MlVdevAidMgr n) (link : Fin (n + 1)) (f : AidBitmap → AidBitmap) :
    (mgr.mapLink link f).links = mgr.links := by
  funext link'
  by_cases h : link' = link
  · subst h
    simp [MlVdevAidMgr.links, MlVdevAidMgr.mapLink, comp_def]
  · simp [MlVdevAidMgr.links, MlVdevAidMgr.mapLink, h]

/-! ### An id that is taken -/

theorem range_markAid (mgr : MlVdevAidMgr n) (i : ℤ) (peer : AidPeer n) :
    (markAid mgr i peer).toAidRange = mgr.toAidRange := by
  cases peer <;> rfl

theorem links_markAid (mgr : MlVdevAidMgr n) (i : ℤ) (peer : AidPeer n) :
    (markAid mgr i peer).links = mgr.links := by
  cases peer with
  | mlo => exact links_mapLinks mgr _
  | single link => exact links_mapLink mgr link _

theorem aidBitmap_markAid :
    (markAid mgr i peer).aidBitmap j = true ↔ mgr.aidBitmap j = true ∨ j = i ∧ .mlo = peer := by
  cases peer with
  | mlo => exact qdfSetBit_iff.trans (by tauto)
  | single link => simp [markAid, MlVdevAidMgr.mapLink]

theorem linkBit_markAid {link : Fin (n + 1)} (h : (mgr.links link).isSome) :
    (markAid mgr i peer).LinkBit link j ↔
      mgr.LinkBit link j ∨ j = i ∧ (.mlo = peer ∨ .single link = peer) := by
  rw [hasVdev_single] at h
  obtain ⟨vdev, hvdev⟩ := Option.isSome_iff_exists.1 h
  have hold : mgr.LinkBit link j ↔ vdev.aidBitmap j = true := linkBit_iff hvdev
  have hnew : (∃ v ∈ mgr.aidMgr link, qdfSetBit i v.aidBitmap j = true) ↔
      mgr.LinkBit link j ∨ j = i := by
    rw [hold, hvdev]
    simp [or_comm]
  cases peer with
  | mlo => exact linkBit_mapLinks.trans (hnew.trans (by simp))
  | single link' =>
    refine linkBit_mapLink.trans ?_
    by_cases hlink : link = link'
    · subst hlink
      rw [if_pos rfl, hnew]
      simp
    · simp [hlink]

/-! ### An id that is released -/

/-- Releasing an id whose MLD bit says which kind of peer holds it clears the bits of that peer. -/
structure Released (mgr mgr' : MlVdevAidMgr n) (i : ℤ) (peer : AidPeer n) : Prop where
  range : mgr'.toAidRange = mgr.toAidRange
  links : mgr'.links = mgr.links
  aidBitmap : ∀ j, mgr'.aidBitmap j = true ↔ mgr.aidBitmap j = true ∧ ¬(j = i ∧ .mlo = peer)
  linkBit : ∀ link j, mgr'.LinkBit link j ↔
    mgr.LinkBit link j ∧ ¬(j = i ∧ (.mlo = peer ∨ .single link = peer))

theorem linkBit_clear {link : Fin (n + 1)} :
    (∃ v ∈ mgr.aidMgr link, qdfClearBit i v.aidBitmap j = true) ↔ mgr.LinkBit link j ∧ j ≠ i := by
  simp only [MlVdevAidMgr.LinkBit, qdfClearBit_iff]
  constructor
  · rintro ⟨v, hv, hne, hbit⟩
    exact ⟨⟨v, hv, hbit⟩, hne⟩
  · rintro ⟨⟨v, hv, hbit⟩, hne⟩
    exact ⟨v, hv, hne, hbit⟩

theorem wlanMloPeerFreeAid_spec {a : ℕ} (hpos : 0 < a) (hle : a ≤ wlanUmacMaxAid)
    (hbit : mgr.aidBitmap (a - 1) = true ↔ .mlo = peer) :
    Released mgr (wlanMloPeerFreeAid mgr peer.linkIx a) (a - 1) peer := by
  have hmax : a ≤ 1991 := hle
  have hindex : (((wlanAid a + 2 ^ 16 - 1) % 2 ^ 16 : ℕ) : ℤ) = a - 1 := by
    rw [wlanAid]
    omega
  unfold wlanMloPeerFreeAid
  dsimp only
  rw [hindex]
  cases peer with
  | mlo =>
    rw [if_pos (hbit.2 rfl)]
    refine ⟨rfl, links_mapLinks mgr _, fun j => ?_, fun link j => ?_⟩
    · exact qdfClearBit_iff.trans (by tauto)
    · exact linkBit_mapLinks.trans (linkBit_clear.trans (by simp))
  | single link =>
    have hclear : ¬mgr.aidBitmap (a - 1) = true := fun h => by cases hbit.1 h
    rw [if_neg hclear]
    refine ⟨rfl, links_mapLink mgr link _, fun j => ?_, fun link' j => ?_⟩
    · simp [AidPeer.linkIx, MlVdevAidMgr.mapLink]
    · refine linkBit_mapLink.trans ?_
      by_cases hlink : link' = link
      · subst hlink
        rw [if_pos rfl, linkBit_clear]
        simp
      · simp [hlink]

/-! ## Soundness is kept -/

namespace Mld

def take (s : Mld n) (peer : AidPeer n) (a : ℕ) : Mld n where
  mgr := markAid s.mgr (a - 1) peer
  held := Function.update s.held peer (a :: s.held peer)

variable {peer : AidPeer n} {mgr : MlVdevAidMgr n}

theorem mem_take {s : Mld n} {p : AidPeer n} {a b : ℕ} :
    b ∈ (s.take peer a).held p ↔ b ∈ s.held p ∨ b = a ∧ p = peer := by
  by_cases h : p = peer
  · subst h
    simp [take, or_comm]
  · simp [take, h]

theorem nodup_iff {s : Mld n} :
    (∀ link, (s.held .mlo ++ s.held (.single link)).Nodup) ↔
      (∀ peer, (s.held peer).Nodup) ∧
        ∀ link, ∀ a ∈ s.held .mlo, a ∉ s.held (.single link) := by
  constructor
  · intro h
    refine ⟨fun peer => ?_, fun link a ha ha' => ?_⟩
    · cases peer with
      | mlo => exact (nodup_append.1 (h 0)).1
      | single link => exact (nodup_append.1 (h link)).2.1
    · exact (nodup_append.1 (h link)).2.2 a ha a ha' rfl
  · rintro ⟨hnodup, hdisjoint⟩ link
    refine nodup_append.2 ⟨hnodup .mlo, hnodup (.single link), ?_⟩
    rintro a ha b hb rfl
    exact hdisjoint link a ha hb

theorem nodup_update {s : Mld n} (h : ∀ p, (s.held p).Nodup) {ids : List ℕ} (hids : ids.Nodup)
    (p : AidPeer n) : (Function.update s.held peer ids p).Nodup := by
  by_cases hp : p = peer
  · subst hp
    rw [update_self]
    exact hids
  · rw [update_of_ne hp]
    exact h p

namespace Sound

variable {s : Mld n} (h : s.Sound)
include h

variable {a : ℕ} {peer : AidPeer n}

theorem aidFree_iff : AidFree s.mgr (a - 1) peer ↔ HasVdev s.mgr.links peer ∧ s.Unheld a peer := by
  have hml : s.mgr.aidBitmap (a - 1) = false ↔ a ∉ s.held .mlo := by
    rw [← h.mlBit, Bool.not_eq_true]
  cases peer with
  | mlo =>
    have hlink (link : Fin (n + 1)) (hnot : a ∉ s.held .mlo) :
        ¬s.mgr.LinkBit link (a - 1) ↔ a ∉ s.held (.single link) := by
      cases hvdev : s.mgr.links link with
      | none =>
        have hbit : ¬s.mgr.LinkBit link (a - 1) := fun hbit => by
          have hsome := LinkBit.hasVdev hbit
          rw [hvdev] at hsome
          exact Bool.false_ne_true hsome
        rw [h.absent link hvdev]
        exact iff_of_true hbit not_mem_nil
      | some r =>
        rw [h.linkBit link (by rw [hvdev]; rfl)]
        tauto
    constructor
    · rintro ⟨hbit, hlinks⟩
      refine ⟨trivial, fun p => ?_⟩
      cases p with
      | mlo => exact hml.1 hbit
      | single link => exact (hlink link (hml.1 hbit)).1 (hlinks link)
    · rintro ⟨-, hnone⟩
      exact ⟨hml.2 (hnone .mlo), fun link => (hlink link (hnone .mlo)).2 (hnone (.single link))⟩
  | single link =>
    rw [AidFree, hml, ← hasVdev_single]
    constructor
    · rintro ⟨hnot, hvdev, hbit⟩
      rw [h.linkBit link hvdev] at hbit
      exact ⟨hvdev, hnot, fun hmem => hbit (.inr hmem)⟩
    · rintro ⟨hvdev, hnot, hnot'⟩
      refine ⟨hnot, hvdev, ?_⟩
      rw [h.linkBit link hvdev]
      tauto

theorem take (hvdev : HasVdev s.mgr.links peer) (hfree : s.Unheld a peer)
    (hrange : s.mgr.startAid < a ∧ a ≤ s.mgr.maxAid) : (s.take peer a).Sound := by
  obtain ⟨hnodup, hdisjoint⟩ := nodup_iff.1 h.nodup
  have hrangeEq : (s.take peer a).mgr.toAidRange = s.mgr.toAidRange := range_markAid _ _ _
  have hlinks : (s.take peer a).mgr.links = s.mgr.links := links_markAid _ _ _
  have hunheld : a ∉ s.held .mlo ∧ ∀ link, .mlo = peer ∨ .single link = peer →
      a ∉ s.held (.single link) := by
    cases peer with
    | mlo => exact ⟨hfree .mlo, fun link _ => hfree (.single link)⟩
    | single link =>
      refine ⟨hfree.1, fun link' hlink => ?_⟩
      obtain rfl : link' = link := by simpa using hlink
      exact hfree.2
  have hown : a ∉ s.held peer := by
    cases peer with
    | mlo => exact hfree .mlo
    | single link => exact hfree.2
  have hindex (b : ℕ) : (b : ℤ) - 1 = a - 1 ↔ b = a := by omega
  refine ⟨nodup_iff.2 ⟨nodup_update hnodup (nodup_cons.2 ⟨hown, hnodup peer⟩), ?_⟩,
    ?_, ?_, ?_, ?_⟩
  · intro link b hb hb'
    rw [mem_take] at hb hb'
    have hdisj := hdisjoint link b
    rcases hb with hb | ⟨hba, hp⟩
    · rcases hb' with hb' | ⟨hba, -⟩
      · exact hdisj hb hb'
      · exact hunheld.1 (hba ▸ hb)
    · rcases hb' with hb' | ⟨-, hp'⟩
      · exact hunheld.2 link (.inl hp) (hba ▸ hb')
      · cases hp.trans hp'.symm
  · intro p b hb
    rw [hrangeEq]
    rcases mem_take.1 hb with hb | ⟨rfl, -⟩
    · exact h.range p b hb
    · exact hrange
  · intro b
    rw [mem_take, ← h.mlBit, ← hindex b]
    exact aidBitmap_markAid
  · intro link hlink b
    rw [hlinks] at hlink
    rw [mem_take, mem_take, ← hindex b]
    refine (linkBit_markAid hlink).trans ?_
    rw [h.linkBit link hlink]
    tauto
  · intro link hlink
    rw [hlinks] at hlink
    have hne : .single link ≠ peer := by
      rintro rfl
      rw [HasVdev, hlink] at hvdev
      exact Bool.false_ne_true hvdev
    exact (update_of_ne hne _ _).trans (h.absent link hlink)

theorem mem_erase {p : AidPeer n} {b : ℕ} :
    b ∈ Function.update s.held peer ((s.held peer).erase a) p ↔
      b ∈ s.held p ∧ ¬(b = a ∧ p = peer) := by
  by_cases hp : p = peer
  · subst hp
    rw [update_self, ((nodup_iff.1 h.nodup).1 p).mem_erase_iff]
    tauto
  · simp [hp]

theorem free (ha : a ∈ s.held peer) :
    Sound { mgr := wlanMloPeerFreeAid s.mgr peer.linkIx a
            held := Function.update s.held peer ((s.held peer).erase a) } := by
  obtain ⟨hnodup, hdisjoint⟩ := nodup_iff.1 h.nodup
  obtain ⟨hlt, hle⟩ := h.range peer a ha
  have hbit : s.mgr.aidBitmap (a - 1) = true ↔ .mlo = peer := by
    rw [h.mlBit]
    cases peer with
    | mlo => exact iff_of_true ha rfl
    | single link => exact iff_of_false (fun hml => hdisjoint link a hml ha) (by simp)
  have hreleased := wlanMloPeerFreeAid_spec (Nat.zero_lt_of_lt hlt)
    (hle.trans s.mgr.maxAid_le) hbit
  have hindex (b : ℕ) : (b : ℤ) - 1 = a - 1 ↔ b = a := by omega
  refine ⟨nodup_iff.2 ⟨nodup_update hnodup ((hnodup peer).erase a), ?_⟩, ?_, ?_, ?_, ?_⟩
  · intro link b hb hb'
    exact hdisjoint link b (h.mem_erase.1 hb).1 (h.mem_erase.1 hb').1
  · intro p b hb
    rw [hreleased.range]
    exact h.range p b (h.mem_erase.1 hb).1
  · intro b
    rw [h.mem_erase, ← h.mlBit, ← hindex b]
    exact hreleased.aidBitmap _
  · intro link hlink b
    rw [hreleased.links] at hlink
    rw [h.mem_erase, h.mem_erase, ← hindex b]
    refine (hreleased.linkBit link _).trans ?_
    rw [h.linkBit link hlink]
    -- a peer that holds the id on the link is the one that releases it
    have hother (p q : AidPeer n) (hb : b ∈ s.held p) (hdisj : b ∉ s.held q) :
        ¬((b : ℤ) - 1 = a - 1 ∧ q = peer) := by
      rintro ⟨hba, rfl⟩
      exact hdisj ((hindex b).1 hba ▸ ha)
    constructor
    · rintro ⟨hml | hsingle, hnot⟩
      · exact .inl ⟨hml, fun h => hnot ⟨h.1, .inl h.2⟩⟩
      · exact .inr ⟨hsingle, fun h => hnot ⟨h.1, .inr h.2⟩⟩
    · rintro (⟨hml, hnot⟩ | ⟨hsingle, hnot⟩)
      · refine ⟨.inl hml, fun h => h.2.elim (fun hp => hnot ⟨h.1, hp⟩) fun hp => ?_⟩
        exact hother .mlo (.single link) hml (hdisjoint link b hml) ⟨h.1, hp⟩
      · refine ⟨.inr hsingle, fun h => h.2.elim (fun hp => ?_) fun hp => hnot ⟨h.1, hp⟩⟩
        exact hother (.single link) .mlo hsingle
          (fun hml => hdisjoint link b hml hsingle) ⟨h.1, hp⟩
  · intro link hlink
    rw [hreleased.links] at hlink
    have hne : .single link ≠ peer := by
      rintro rfl
      rw [h.absent link hlink] at ha
      exact absurd ha not_mem_nil
    exact (update_of_ne hne _ _).trans (h.absent link hlink)

end Sound

/-! ## One step -/

theorem inBounds_le {id : ℕ} (h : AidInBounds mgr.toAidRange mgr.links id peer) :
    wlanAid id = id := by
  have hlt : id < 1991 := by
    cases peer with
    | mlo => exact h.2.trans_le mgr.maxAid_le
    | single link =>
      obtain ⟨r, -, -, hr⟩ := h
      exact hr.trans_le r.maxAid_le
  exact Nat.mod_eq_of_lt (by omega)

theorem inBounds_single {link : Fin (n + 1)} {vdev : VdevAidMgr} (h : mgr.aidMgr link = some vdev)
    {id : ℕ} :
    AidInBounds mgr.toAidRange mgr.links id (.single link) ↔
      vdev.startAid ≤ id ∧ id < vdev.maxAid := by
  simp [AidInBounds, MlVdevAidMgr.links, h]

theorem wlanMloPeerSetAid_spec (mgr : MlVdevAidMgr n) (peer : AidPeer n) (id : BitVec 16) :
    wlanMloPeerSetAid mgr peer id = some (markAid mgr (id.toNat - 1) peer) ∧
        AidInBounds mgr.toAidRange mgr.links id.toNat peer ∧ AidFree mgr (id.toNat - 1) peer ∨
      wlanMloPeerSetAid mgr peer id = none ∧
        ¬(AidInBounds mgr.toAidRange mgr.links id.toNat peer ∧
          AidFree mgr (id.toNat - 1) peer) := by
  by_cases hbounds : AidInBounds mgr.toAidRange mgr.links id.toNat peer
  · unfold wlanMloPeerSetAid
    dsimp only
    rw [inBounds_le hbounds]
    by_cases hbit : mgr.aidBitmap (id.toNat - 1) = true
    · rw [if_pos hbit]
      refine .inr ⟨rfl, fun h => ?_⟩
      cases peer with
      | mlo => exact Bool.false_ne_true (h.2.1.symm.trans hbit)
      | single link => exact Bool.false_ne_true (h.2.1.symm.trans hbit)
    · rw [if_neg hbit]
      cases peer with
      | mlo =>
        have hin : ¬(id.toNat < mgr.startAid ∨ mgr.maxAid ≤ id.toNat) := fun h =>
          h.elim (Nat.not_lt.2 hbounds.1) (Nat.not_le.2 hbounds.2)
        dsimp only
        rw [if_neg hin]
        by_cases hlink : ∃ link, mgr.LinkBit link (id.toNat - 1)
        · rw [if_pos hlink]
          exact .inr ⟨rfl, fun h => hlink.elim h.2.2⟩
        · rw [if_neg hlink]
          exact .inl ⟨rfl, hbounds, Bool.eq_false_iff.2 hbit, not_exists.1 hlink⟩
      | single link =>
        dsimp only
        cases hvdev : mgr.aidMgr link with
        | none =>
          refine .inr ⟨rfl, fun h => ?_⟩
          have hsome := h.2.2.1
          rw [hvdev] at hsome
          exact Bool.false_ne_true hsome
        | some vdev =>
          have hin := (inBounds_single hvdev).1 hbounds
          have hin' : ¬(id.toNat < vdev.startAid ∨ vdev.maxAid ≤ id.toNat) := fun h =>
            h.elim (Nat.not_lt.2 hin.1) (Nat.not_le.2 hin.2)
          dsimp only
          rw [if_neg hin']
          by_cases hlink : vdev.aidBitmap (id.toNat - 1) = true
          · rw [if_pos hlink]
            exact .inr ⟨rfl, fun h => h.2.2.2 ((linkBit_iff hvdev).2 hlink)⟩
          · rw [if_neg hlink]
            exact .inl ⟨rfl, hbounds, Bool.eq_false_iff.2 hbit, by rw [hvdev]; rfl,
              fun h => hlink ((linkBit_iff hvdev).1 h)⟩
  · refine .inr ⟨?_, fun h => hbounds h.1⟩
    unfold wlanMloPeerSetAid
    dsimp only
    by_cases hbit : mgr.aidBitmap (wlanAid id.toNat - 1) = true
    · rw [if_pos hbit]
    · rw [if_neg hbit]
      cases peer with
      | mlo => exact if_pos (by rw [AidInBounds] at hbounds; omega)
      | single link =>
        dsimp only
        cases hvdev : mgr.aidMgr link with
        | none => rfl
        | some vdev =>
          rw [inBounds_single hvdev] at hbounds
          exact if_pos (by omega)

theorem AidInBounds.hasVdev {range : AidRange} {links : Fin (n + 1) → Option AidRange} {id : ℕ}
    (h : AidInBounds range links id peer) : HasVdev links peer := by
  cases peer with
  | mlo => trivial
  | single link =>
    obtain ⟨r, hr, -⟩ := h
    exact Option.isSome_of_mem hr

namespace Sound

variable {s : Mld n} (h : s.Sound)
include h

variable {peer : AidPeer n}

theorem unheld_of_range {a : ℕ} (hout : ¬(s.mgr.startAid < a ∧ a ≤ s.mgr.maxAid)) :
    s.Unheld a peer := by
  have hunheld (p : AidPeer n) : a ∉ s.held p := fun hmem => hout (h.range p a hmem)
  cases peer with
  | mlo => exact hunheld
  | single link => exact ⟨hunheld .mlo, hunheld (.single link)⟩

theorem stepOk_set {id : BitVec 16} :
    s.StepOk (.set peer id) ↔ (AidOp.set peer id).WithinRange s.mgr.toAidRange s.mgr.links := by
  rcases wlanMloPeerSetAid_spec s.mgr peer id with ⟨hset, hbounds, hfree⟩ | ⟨hset, hnot⟩
  · have hstep : s.step (.set peer id) = s.take peer id.toNat := by
      rw [step, hset, Mld.take]
    rw [h.aidFree_iff] at hfree
    have hmem : id.toNat ∈ (s.take peer id.toNat).held peer := mem_take.2 (.inr ⟨rfl, rfl⟩)
    have hrange : (s.take peer id.toNat).mgr.toAidRange = s.mgr.toAidRange := range_markAid _ _ _
    constructor
    · intro hok _
      have hid := hok.sound
      rw [hstep] at hid
      have hin := hid.range peer _ hmem
      rwa [hrange] at hin
    · intro hwithin
      refine ⟨?_, fun _ _ hop => by cases hop⟩
      rw [hstep]
      exact h.take hfree.1 hfree.2 (hwithin hbounds)
  · have hstep : s.step (.set peer id) = s := by
      rw [step, hset]
    refine iff_of_true ⟨by rwa [hstep], fun _ _ hop => by cases hop⟩ fun hbounds => ?_
    by_contra hout
    exact hnot ⟨hbounds, h.aidFree_iff.2 ⟨AidInBounds.hasVdev hbounds, h.unheld_of_range hout⟩⟩

theorem stepOk_alloc {t2lmPeer : Bool} :
    s.StepOk (.alloc t2lmPeer peer) ↔
      (AidOp.alloc t2lmPeer peer).WithinRange s.mgr.toAidRange s.mgr.links := by
  have hfailed (hfail : wlanMloPeerAllocAid s.mgr t2lmPeer peer = (s.mgr, noAid)) :
      s.step (.alloc t2lmPeer peer) = s := by
    rw [step, hfail]
    exact if_pos rfl
  rcases Nat.lt_or_ge s.mgr.maxAid s.mgr.startAid with hgt | hle
  · have hfail := wlanMloPeerAllocAid_of_gt hgt t2lmPeer peer
    refine iff_of_true ⟨?_, fun _ _ _ _ _ a ha ha' => absurd (ha.trans_le ha') hgt.asymm⟩
      fun _ => hgt.ne'
    rwa [hfailed hfail]
  · have hspec := wlanMloPeerAllocAid_spec hle t2lmPeer peer
    have hmax : s.mgr.maxAid ≤ 1991 := s.mgr.maxAid_le
    generalize hr : wlanMloPeerAllocAid s.mgr t2lmPeer peer = r at hspec
    cases hspec with
    | none hnone =>
      refine iff_of_true ⟨by rwa [hfailed hr], ?_⟩ fun hvdev hempty => ?_
      · rintro _ _ ⟨⟩ - hvdev a hlt hle' hunheld
        refine hnone (a - 1) ⟨by omega, .inl (by omega)⟩ ?_
        have hfree := h.aidFree_iff.2 ⟨hvdev, hunheld⟩
        have hindex : ((a - 1 : ℕ) : ℤ) = a - 1 := by omega
        rwa [hindex]
      · -- with an empty range no id is held, so the first index is free
        have hout : ¬(s.mgr.startAid < s.mgr.startAid + 1 ∧
            s.mgr.startAid + 1 ≤ s.mgr.maxAid) := by
          have hempty : s.mgr.startAid = s.mgr.maxAid := hempty
          omega
        refine hnone s.mgr.startAid ⟨le_rfl, .inr rfl⟩ ?_
        have hfree := h.aidFree_iff.2 ⟨hvdev, h.unheld_of_range hout⟩
        have hindex : ((s.mgr.startAid + 1 : ℕ) : ℤ) - 1 = s.mgr.startAid := by omega
        rwa [hindex] at hfree
    | @some i hi hfree =>
      have hid : (i + 1) % 2 ^ 16 = i + 1 := Nat.mod_eq_of_lt (by omega)
      have hnoAid : i + 1 ≠ noAid := by
        have hval : noAid = 65535 := rfl
        omega
      have hindex : ((i + 1 : ℕ) : ℤ) - 1 = i := by omega
      rw [hid] at hr
      have hstep : s.step (.alloc t2lmPeer peer) = s.take peer (i + 1) := by
        rw [step, hr, Mld.take, hindex]
        exact if_neg hnoAid
      rw [← hindex, h.aidFree_iff] at hfree
      have hmem : i + 1 ∈ (s.take peer (i + 1)).held peer := mem_take.2 (.inr ⟨rfl, rfl⟩)
      have hrange : (s.take peer (i + 1)).mgr.toAidRange = s.mgr.toAidRange :=
        range_markAid _ _ _
      constructor
      · intro hok _
        have hsound := hok.sound
        rw [hstep] at hsound
        have hin := hsound.range peer _ hmem
        rw [hrange] at hin
        exact (Nat.lt_of_lt_of_le hin.1 hin.2).ne
      · intro hwithin
        have hne : s.mgr.startAid ≠ s.mgr.maxAid := hwithin hfree.1
        refine ⟨?_, fun _ _ hop hnone => ?_⟩
        · rw [hstep]
          exact h.take hfree.1 hfree.2 (by omega)
        · cases hop
          rw [hr] at hnone
          exact absurd hnone hnoAid

theorem stepOk_free {id : ℕ} : s.StepOk (.free peer id) := by
  refine ⟨?_, fun _ _ hop => by cases hop⟩
  rw [step]
  split
  · rename_i hmem
    exact h.free hmem
  · exact h

theorem stepOk_iff {op : AidOp n} :
    s.StepOk op ↔ op.WithinRange s.mgr.toAidRange s.mgr.links := by
  cases op with
  | alloc t2lmPeer peer => exact h.stepOk_alloc
  | set peer id => exact h.stepOk_set
  | free peer id => exact iff_of_true h.stepOk_free trivial

end Sound

/-! ## Runs -/

theorem config_free (mgr : MlVdevAidMgr n) (linkIx : Option (Fin (n + 1))) (id : ℕ) :
    (wlanMloPeerFreeAid mgr linkIx id).toAidRange = mgr.toAidRange ∧
      (wlanMloPeerFreeAid mgr linkIx id).links = mgr.links := by
  unfold wlanMloPeerFreeAid
  dsimp only
  split
  · exact ⟨rfl, links_mapLinks mgr _⟩
  · cases linkIx with
    | none => exact ⟨rfl, rfl⟩
    | some link => exact ⟨rfl, links_mapLink mgr link _⟩

theorem config_alloc (mgr : MlVdevAidMgr n) (t2lmPeer : Bool) (peer : AidPeer n) :
    (wlanMloPeerAllocAid mgr t2lmPeer peer).1.toAidRange = mgr.toAidRange ∧
      (wlanMloPeerAllocAid mgr t2lmPeer peer).1.links = mgr.links := by
  rcases Nat.lt_or_ge mgr.maxAid mgr.startAid with hgt | hle
  · rw [wlanMloPeerAllocAid_of_gt hgt]
    exact ⟨rfl, rfl⟩
  · have hspec := wlanMloPeerAllocAid_spec hle t2lmPeer peer
    generalize wlanMloPeerAllocAid mgr t2lmPeer peer = r at hspec ⊢
    cases hspec with
    | none => exact ⟨rfl, rfl⟩
    | some => exact ⟨range_markAid _ _ _, links_markAid _ _ _⟩

theorem config_step (s : Mld n) (op : AidOp n) :
    (s.step op).mgr.toAidRange = s.mgr.toAidRange ∧ (s.step op).mgr.links = s.mgr.links := by
  cases op with
  | alloc t2lmPeer peer =>
    have hkept := config_alloc s.mgr t2lmPeer peer
    rw [step]
    split
    · exact hkept
    · exact hkept
  | set peer id =>
    rw [step]
    rcases wlanMloPeerSetAid_spec s.mgr peer id with ⟨hset, -⟩ | ⟨hset, -⟩
    · rw [hset]
      exact ⟨range_markAid _ _ _, links_markAid _ _ _⟩
    · rw [hset]
      exact ⟨rfl, rfl⟩
  | free peer id =>
    rw [step]
    split
    · exact config_free s.mgr peer.linkIx id
    · exact ⟨rfl, rfl⟩

theorem links_idle (range : AidRange) (links : Fin (n + 1) → Option AidRange) :
    (idle range links).mgr.links = links := by
  funext link
  simp [idle, MlVdevAidMgr.links, comp_def]

theorem sound_idle (range : AidRange) (links : Fin (n + 1) → Option AidRange) :
    (idle range links).Sound where
  nodup _ := nodup_nil
  range _ _ ha := absurd ha not_mem_nil
  mlBit _ := iff_of_false Bool.false_ne_true not_mem_nil
  linkBit link _ a := by
    refine iff_of_false ?_ (not_or.2 ⟨not_mem_nil, not_mem_nil⟩)
    rintro ⟨vdev, hvdev, hbit⟩
    obtain ⟨r, -, rfl⟩ := Option.map_eq_some_iff.1 hvdev
    exact Bool.false_ne_true hbit
  absent _ _ := rfl

end Mld

/-- In every run the ids stay distinct and in range, the bitmaps say which are held, and an
allocation fails only when there is no id, exactly where no peer of a vdev is allocated an id from
an empty range and no id outside the range is assigned. -/
theorem mlo_aids_unique_iff (range : AidRange) (links : Fin (n + 1) → Option AidRange)
    (ops : List (AidOp n)) :
    EachStep Mld.StepOk Mld.step (Mld.idle range links) ops ↔
      ∀ op ∈ ops, op.WithinRange range links := by
  let Inv (s : Mld n) : Prop :=
    s.Sound ∧ s.mgr.toAidRange = range ∧ s.mgr.links = links
  have hiff (s : Mld n) (op : AidOp n) (h : Inv s) (_ : True) :
      s.StepOk op ↔ op.WithinRange range links := by
    obtain ⟨hsound, rfl, rfl⟩ := h
    exact hsound.stepOk_iff
  have hkeep (s : Mld n) (op : AidOp n) (h : Inv s) (_ : True) (hok : s.StepOk op) :
      Inv (s.step op) := by
    obtain ⟨-, rfl, rfl⟩ := h
    exact ⟨hok.sound, s.config_step op⟩
  have hidle : Inv (Mld.idle range links) :=
    ⟨Mld.sound_idle range links, rfl, Mld.links_idle range links⟩
  exact (eachStep_iff hiff hkeep hidle fun _ _ => trivial).trans eachStep_forall_iff

/-- With an empty range the first allocation gives the id after it. -/
theorem empty_range_allocated :
    ¬∀ (range : AidRange) (links : Fin (1 + 1) → Option AidRange) (ops : List (AidOp 1)),
      range.startAid ≤ range.maxAid → EachStep Mld.StepOk Mld.step (Mld.idle range links) ops := by
  intro hall
  let range : AidRange := { startAid := 5, maxAid := 5, maxAid_le := by decide }
  obtain ⟨hok, -⟩ := hall range (fun _ => some range) [.alloc false .mlo] le_rfl
  have hheld : 6 ∈ ((Mld.idle range fun _ : Fin (1 + 1) => some range).step
      (.alloc false .mlo)).held .mlo := by decide
  exact absurd (hok.sound.range .mlo 6 hheld).2 (by decide)

end QcomModules.Wlan
