import QcomModules.Library.Insertion
import QcomModules.RxReo.Sections

/-! What stays of the entries of a list while they are counted down, marked and moved: which frame
each one is, and the order that the timestamps give. -/

namespace QcomModules.RxReo

open Library List

/-! ## Entries as frames -/

structure EntryKey where
  id : ℕ
  reoParams : MgmtRxReoParams
  isParallelRx : Bool

def ReoListEntry.key (entry : ReoListEntry) : EntryKey where
  id := entry.id
  reoParams := entry.reoParams
  isParallelRx := entry.isParallelRx

def EntryKey.globalTs (key : EntryKey) : BitVec 32 :=
  key.reoParams.globalTimestamp

@[simp] theorem ReoListEntry.key_clearWait (entry : ReoListEntry) :
    entry.clearWait.key = entry.key := by
  unfold ReoListEntry.clearWait
  split <;> rfl

@[simp] theorem ReoListEntry.key_boundBy (new : WaitCount) (entry : ReoListEntry) :
    (entry.boundBy new).key = entry.key := by
  rw [ReoListEntry.boundBy, ReoListEntry.key_clearWait]
  rfl

@[simp] theorem ReoListEntry.key_countDown (link : Fin MAX_MLO_LINKS) (pktCtrDelta : ℕ)
    (entry : ReoListEntry) : (entry.countDown link pktCtrDelta).key = entry.key := by
  unfold ReoListEntry.countDown
  split
  · rw [ReoListEntry.key_clearWait]
    rfl
  · rfl

@[simp] theorem ReoListEntry.key_overflowsEgress (entry : ReoListEntry) :
    entry.overflowsEgress.key = entry.key := rfl

@[simp] theorem ReoListEntry.key_overflowsIngress (entry : ReoListEntry) :
    entry.overflowsIngress.key = entry.key := rfl

@[simp] theorem key_boundNew (new : ReoListEntry) (newer : List ReoListEntry) :
    (boundNew new newer).key = new.key := by
  cases newer with
  | nil => rfl
  | cons leastGreater newer => exact ReoListEntry.key_boundBy _ new

theorem map_key_map {f : ReoListEntry → ReoListEntry} (h : ∀ entry, (f entry).key = entry.key)
    (list : List ReoListEntry) : (list.map f).map ReoListEntry.key = list.map ReoListEntry.key := by
  rw [map_map]
  exact map_congr_left fun entry _ => h entry

@[simp] theorem map_key_handleEgressOverflow (config : ReoConfig) (egress : List ReoListEntry) :
    (handleEgressOverflow config egress).map ReoListEntry.key =
      egress.map ReoListEntry.key := by
  unfold handleEgressOverflow markEgressOverflow
  split
  · rw [map_append, map_key_map ReoListEntry.key_overflowsEgress, ← map_append,
      take_append_drop]
  · rfl

@[simp] theorem map_key_ageoutEntries (config : ReoConfig) (now : BitVec 64)
    (ingress : List ReoListEntry) :
    (ageoutEntries config now ingress).map ReoListEntry.key = ingress.map ReoListEntry.key := by
  induction ingress with
  | nil => rfl
  | cons entry ingress ih =>
    rw [ageoutEntries, map_cons, map_cons, ih]
    rfl

theorem map_key_splitReady (numOverflowFrames : ℕ) (list : List ReoListEntry) :
    (splitReady numOverflowFrames list).1.map ReoListEntry.key ++
        (splitReady numOverflowFrames list).2.map ReoListEntry.key =
      list.map ReoListEntry.key := by
  induction list generalizing numOverflowFrames with
  | nil => rfl
  | cons entry list ih =>
    rw [splitReady, map_cons, ← ih (numOverflowFrames - 1)]
    by_cases hover : 0 < numOverflowFrames
    · simp only [hover, if_true]
      split
      · rfl
      · simp [ih]
    · simp only [hover, if_false]
      split
      · rfl
      · simp [ih]

/-! ## Where a frame is put -/

def Follows (first second : EntryKey) : Prop :=
  compareGlobalTimestampsGte second.globalTs first.globalTs = true

theorem compareGlobalTimestampsGte_total {ts1 ts2 : BitVec 32}
    (h : compareGlobalTimestampsGte ts1 ts2 = false) :
    compareGlobalTimestampsGte ts2 ts1 = true := by
  rw [compareGlobalTimestampsGte, serialGte, decide_eq_false_iff_not] at h
  rw [compareGlobalTimestampsGte, serialGte, decide_eq_true_eq]
  bv_omega

theorem older_append_newer (tsNew : BitVec 32) (list : List ReoListEntry) :
    olderEntries tsNew list ++ newerEntries tsNew list = list :=
  takeWhile_append_dropWhile

variable {tsNew : BitVec 32}

theorem older_upto {list : List ReoListEntry} {entry : ReoListEntry}
    (h : entry ∈ olderEntries tsNew list) :
    compareGlobalTimestampsGte tsNew entry.globalTs = true := by
  have hall : (olderEntries tsNew list).all
      (fun cur => compareGlobalTimestampsGte tsNew cur.globalTs) = true := all_takeWhile
  exact all_eq_true.1 hall entry h

theorem newer_after {list newer : List ReoListEntry} {first : ReoListEntry}
    (h : newerEntries tsNew list = first :: newer) :
    compareGlobalTimestampsGte tsNew first.globalTs = false := by
  have hhead := head?_dropWhile_not
    (fun cur => compareGlobalTimestampsGte tsNew cur.globalTs) list
  rw [newerEntries] at h
  rw [h] at hhead
  exact hhead

theorem isChain_insertKey {pre list post : List ReoListEntry} {key : EntryKey}
    (h : ((pre ++ list ++ post).map ReoListEntry.key).IsChain Follows)
    (hpre : ∀ last ∈ pre.getLast?, compareGlobalTimestampsGte key.globalTs last.globalTs = true)
    (hpost : post = [] ∨ newerEntries key.globalTs list ≠ []) :
    ((pre ++ olderEntries key.globalTs list).map ReoListEntry.key ++
      key :: (newerEntries key.globalTs list ++ post).map ReoListEntry.key).IsChain Follows := by
  rw [← older_append_newer key.globalTs list, ← append_assoc, append_assoc,
    map_append] at h
  refine isChain_insert h ?_ ?_
  · intro y hy
    rw [getLast?_map, getLast?_append, Option.mem_def] at hy
    obtain ⟨last, hlast, rfl⟩ := Option.map_eq_some_iff.1 hy
    cases hold : (olderEntries key.globalTs list).getLast? with
    | none =>
      rw [hold, Option.none_or] at hlast
      exact hpre last hlast
    | some entry =>
      rw [hold, Option.some_or] at hlast
      obtain rfl := Option.some.inj hlast
      exact older_upto (mem_of_getLast? hold)
  · intro y hy
    rw [head?_map, head?_append, Option.mem_def] at hy
    obtain ⟨first, hfirst, rfl⟩ := Option.map_eq_some_iff.1 hy
    cases hnew : newerEntries key.globalTs list with
    | nil =>
      rw [hnew, head?_nil, Option.none_or] at hfirst
      obtain rfl | hne := hpost
      · cases hfirst
      · exact absurd hnew hne
    | cons entry newer =>
      rw [hnew, head?_cons, Option.some_or] at hfirst
      obtain rfl := Option.some.inj hfirst
      exact compareGlobalTimestampsGte_total (newer_after hnew)

end QcomModules.RxReo
