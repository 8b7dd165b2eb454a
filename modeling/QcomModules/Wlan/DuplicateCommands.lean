import QcomModules.Wlan.SerializationRuns

/-! Whether the name of a command tells one queued command from the others.

A request looks for its command in the one queue that it is about to enter. A command can so be
active and pending at once, but never twice in the same list. -/

namespace QcomModules.Wlan

open Library List

variable {V : Type} [DecidableEq V]

/-- In each list at most one command has a given type, id and vdev. -/
def SerPdev.NamedOnce (s : SerPdev V) : Prop :=
  ∀ isActive cmd, (s.list isActive).countP (matchCmd cmd) ≤ 1

theorem countP_match_le_one {l : List (CommandList V)}
    (h : l.Pairwise fun e e' => ¬ sameCmd e.cmd e'.cmd) (cmd : SerCommand V) :
    l.countP (matchCmd cmd) ≤ 1 := by
  induction l with
  | nil => exact Nat.zero_le _
  | cons e l ih =>
    obtain ⟨hfirst, hrest⟩ := pairwise_cons.mp h
    by_cases hmatch : matchCmd cmd e = true
    · rw [countP_cons_of_pos hmatch, countP_eq_zero.mpr]
      intro e' he' hmatch'
      obtain ⟨hid, htype, hvdev⟩ := (matchCmd_iff cmd e).mp hmatch
      obtain ⟨hid', htype', hvdev'⟩ := (matchCmd_iff cmd e').mp hmatch'
      exact hfirst e' he'
        ⟨hid'.trans hid.symm, htype'.trans htype.symm, hvdev'.trans hvdev.symm⟩
    · rw [countP_cons_of_neg hmatch]
      exact ih hrest

theorem Tracked.namedOnce {s : SerPdev V} {fs : List (SerFrame V)} (h : Tracked s.view fs) :
    s.NamedOnce := by
  intro isActive cmd
  refine countP_match_le_one ?_ cmd
  cases isActive with
  | true =>
    -- active commands are of different vdevs
    have hvdevs := h.vdevs.of_append_left
    rw [SerPdev.view, map_map, Nodup, pairwise_map] at hvdevs
    exact hvdevs.imp fun hne hsame => hne hsame.2.2.symm
  | false =>
    have hkeys := h.keys
    rw [SerPdev.view, pairwise_map] at hkeys
    exact hkeys

variable [Fintype V]

/-- A name is found once in a list at most, whether the operations are executed one after another or
their sections interleave. -/
theorem commands_namedOnce (cfg : SerConfig V) :
    (∀ s : SerTask V, Relation.ReflTransGen
      (GuardedStep (SerTask.StepOk fun _ _ _ => True) (SerTask.step cfg)) (.create cfg) s →
        s.pdev.NamedOnce) ∧
    ∀ s : SerSystem V, Relation.ReflTransGen
      (GuardedStep (SerSystem.StepOk fun s f => f.CursorOk s) (SerSystem.step cfg))
      (.create cfg) s →
        s.pdev.NamedOnce := by
  refine ⟨fun s hrun => ?_, fun s hrun => ?_⟩
  · exact (Tracked.of_run cfg hrun).namedOnce
  · have hstep : ∀ (s : SerSystem V) c, Tracked s.pdev.view s.threads.flatten →
        s.StepOk (fun s f => f.CursorOk s) c →
          Tracked (s.step cfg c).pdev.view (s.step cfg c).threads.flatten :=
      fun s c h _ => h.step cfg s c
    exact (invariant_of_guarded hstep (Tracked.create cfg) hrun).namedOnce

def roamTwice : List (SerTaskStep (Fin 3)) :=
  [.start (.request (.roam 1 0)), .run true, .run true, .start (.request (.roam 1 0)), .run true]

theorem roamTwice_queued_twice :
    let s := roamTwice.foldl (SerTask.step .threeVdevs) (.create .threeVdevs)
    s.todo = [] ∧ (s.pdev.activeList ++ s.pdev.pendingList).map (·.cmd) =
      [.roam 1 0, .roam 1 0] := by
  decide +kernel

theorem commands_namedOnce_roamTwice :
    (roamTwice.foldl (SerTask.step .threeVdevs) (.create .threeVdevs)).pdev.NamedOnce :=
  (commands_namedOnce .threeVdevs).1 _ (guarded_foldl (by decide +kernel))

end QcomModules.Wlan
