import Mathlib.Order.Interval.Finset.Nat

/-! Doubly linked chains threaded through a flat array of slots. The first `n` slots
start chains, the later ones extend them, and 0 is the null link. The invariant is
local: it relates each occupied slot only to its two neighbours. -/

namespace QcomModules.Library

open List Function

/-- The slots met by following `next` until it is 0. -/
inductive Chain (next : Nat → Nat) : Nat → List Nat → Prop where
  | last {i} : next i = 0 → Chain next i [i]
  | step {i l} : next i ≠ 0 → Chain next (next i) l → Chain next i (i :: l)

def OnChain (next : Nat → Nat) (b x : Nat) : Prop := ∃ l, Chain next b l ∧ x ∈ l

/-- Following `next` from an occupied head ends at 0 without a repetition, every
occupied extension slot lies on exactly one chain, and `prev` undoes `next`. -/
structure WellFormedChains (n : Nat) (occ : Nat → Bool) (next prev : Nat → Nat) : Prop where
  ends : ∀ b, b < n → occ b = true → ∃ l, Chain next b l ∧ l.Nodup ∧
    ∀ x ∈ l, occ x = true ∧ (x = b ∨ n ≤ x)
  unique : ∀ x, n ≤ x → occ x = true → ∃! b, b < n ∧ occ b = true ∧ OnChain next b x
  prev_next : ∀ b, b < n → occ b = true → ∀ x, OnChain next b x → next x ≠ 0 →
    prev (next x) = x

/-- The local form. `rank` grows along every chain and `root` names its head; both
are ghost labels of the slots. -/
structure Linked (n N : Nat) (occ : Nat → Bool) (next prev rank root : Nat → Nat) : Prop where
  zero_free : occ 0 = false
  lt_of_occ : ∀ i, occ i = true → i < N
  next_occ : ∀ i, occ i = true → next i ≠ 0 →
    n ≤ next i ∧ occ (next i) = true ∧ prev (next i) = i
  prev_occ : ∀ x, n ≤ x → occ x = true → occ (prev x) = true ∧ next (prev x) = x
  rank_prev : ∀ x, n ≤ x → occ x = true → rank (prev x) < rank x
  root_prev : ∀ x, n ≤ x → occ x = true → root x = root (prev x)
  root_head : ∀ b, b < n → root b = b
  prev_head : ∀ b, b < n → occ b = true → prev b = 0

namespace Chain

variable {next : Nat → Nat}

variable {i : Nat} {l : List Nat}

theorem mem_head (h : Chain next i l) : i ∈ l := by
  cases h with
  | last _ => simp
  | step _ _ => simp

theorem ne_nil (h : Chain next i l) : l ≠ [] :=
  ne_nil_of_mem h.mem_head

theorem mem_next {x : Nat} (h : Chain next i l) (hx : x ∈ l) (hne : next x ≠ 0) : next x ∈ l := by
  induction h with
  | last h0 => exact absurd h0 (mem_singleton.mp hx ▸ hne)
  | step _ hrest ih =>
    rcases mem_cons.mp hx with rfl | hx
    · exact mem_cons_of_mem _ hrest.mem_head
    · exact mem_cons_of_mem _ (ih hx)

theorem next_getLast (h : Chain next i l) : next (l.getLast h.ne_nil) = 0 := by
  induction h with
  | last h0 => exact h0
  | step _ hrest ih => simpa only [getLast_cons hrest.ne_nil] using ih

end Chain

namespace Linked

variable {n N : Nat} {occ : Nat → Bool} {next prev rank root : Nat → Nat}

variable {i x b : Nat} {l : List Nat}

theorem rank_next (h : Linked n N occ next prev rank root) (hi : occ i = true) (hne : next i ≠ 0) :
    rank i < rank (next i) := by
  obtain ⟨hn, hocc, hprev⟩ := h.next_occ i hi hne
  simpa only [hprev] using h.rank_prev (next i) hn hocc

theorem root_next (h : Linked n N occ next prev rank root) (hi : occ i = true) (hne : next i ≠ 0) :
    root (next i) = root i := by
  obtain ⟨hn, hocc, hprev⟩ := h.next_occ i hi hne
  simpa only [hprev] using h.root_prev (next i) hn hocc

theorem exists_chain (h : Linked n N occ next prev rank root) (hi : occ i = true) :
    ∃ l, Chain next i l := by
  induction hm : ((Finset.range N).filter (fun j => rank i < rank j)).card
    using Nat.strong_induction_on generalizing i with
  | _ m ih =>
    by_cases hne : next i = 0
    · exact ⟨_, .last hne⟩
    · have hocc := (h.next_occ i hi hne).2.1
      have hrank := h.rank_next hi hne
      have hlt : ((Finset.range N).filter (fun j => rank (next i) < rank j)).card < m := by
        rw [← hm]
        apply Finset.card_lt_card
        refine ⟨fun j hj => ?_, fun hsub => ?_⟩
        · simp only [Finset.mem_filter] at hj ⊢
          exact ⟨hj.1, hrank.trans hj.2⟩
        · have hself := hsub (Finset.mem_filter.mpr
            ⟨Finset.mem_range.mpr (h.lt_of_occ _ hocc), hrank⟩)
          exact lt_irrefl _ (Finset.mem_filter.mp hself).2
      obtain ⟨l, hl⟩ := ih _ hlt hocc rfl
      exact ⟨i :: l, .step hne hl⟩

theorem chain_mem (h : Linked n N occ next prev rank root) (hl : Chain next i l)
    (hi : occ i = true) :
    ∀ x ∈ l, occ x = true ∧ root x = root i ∧ rank i ≤ rank x ∧ (x = i ∨ n ≤ x) := by
  induction hl with
  | last _ =>
    intro x hx
    rw [mem_singleton.mp hx]
    exact ⟨hi, rfl, le_refl _, .inl rfl⟩
  | step hne _ ih =>
    have hnext := h.next_occ _ hi hne
    have hrank := h.rank_next hi hne
    intro x hx
    rcases mem_cons.mp hx with rfl | hx
    · exact ⟨hi, rfl, le_refl _, .inl rfl⟩
    · obtain ⟨hocc, hroot, hle, hpos⟩ := ih hnext.2.1 x hx
      refine ⟨hocc, hroot.trans (h.root_next hi hne), hrank.le.trans hle, .inr ?_⟩
      rcases hpos with rfl | hpos
      · exact hnext.1
      · exact hpos

theorem chain_nodup (h : Linked n N occ next prev rank root) (hl : Chain next i l)
    (hi : occ i = true) : l.Nodup := by
  induction hl with
  | last _ => simp
  | step hne hrest ih =>
    have hocc := (h.next_occ _ hi hne).2.1
    have hrank := h.rank_next hi hne
    refine nodup_cons.mpr ⟨fun hmem => ?_, ih hocc⟩
    have hle := (h.chain_mem hrest hocc _ hmem).2.2.1
    omega

theorem chain_length_le (h : Linked n N occ next prev rank root) (hl : Chain next i l)
    (hi : occ i = true) : l.length ≤ N := by
  have hsub : l.toFinset ⊆ Finset.range N := by
    intro x hx
    exact Finset.mem_range.mpr (h.lt_of_occ x (h.chain_mem hl hi x (mem_toFinset.mp hx)).1)
  have hcard := Finset.card_le_card hsub
  rwa [toFinset_card_of_nodup (h.chain_nodup hl hi), Finset.card_range] at hcard

theorem onChain_root (h : Linked n N occ next prev rank root) (hx : occ x = true) :
    root x < n ∧ occ (root x) = true ∧ OnChain next (root x) x := by
  induction hm : rank x using Nat.strong_induction_on generalizing x with
  | _ m ih =>
    by_cases hxn : x < n
    · obtain ⟨l, hl⟩ := h.exists_chain hx
      rw [h.root_head x hxn]
      exact ⟨hxn, hx, l, hl, hl.mem_head⟩
    · have hn : n ≤ x := not_lt.mp hxn
      obtain ⟨hocc, hnext⟩ := h.prev_occ x hn hx
      have hne : next (prev x) ≠ 0 := by
        rw [hnext]
        rintro rfl
        exact absurd hx (by simp [h.zero_free])
      obtain ⟨hlt, hroot, l, hl, hmem⟩ := ih _ (hm ▸ h.rank_prev x hn hx) hocc rfl
      rw [h.root_prev x hn hx]
      exact ⟨hlt, hroot, l, hl, hnext ▸ hl.mem_next hmem hne⟩

theorem root_of_onChain (h : Linked n N occ next prev rank root) (hb : b < n) (hocc : occ b = true)
    (hx : OnChain next b x) : root x = b := by
  obtain ⟨l, hl, hmem⟩ := hx
  rw [(h.chain_mem hl hocc x hmem).2.1, h.root_head b hb]

theorem wellFormed (h : Linked n N occ next prev rank root) :
    WellFormedChains n occ next prev where
  ends b _ hocc := by
    obtain ⟨l, hl⟩ := h.exists_chain hocc
    refine ⟨l, hl, h.chain_nodup hl hocc, fun x hx => ?_⟩
    obtain ⟨hx, _, _, hpos⟩ := h.chain_mem hl hocc x hx
    exact ⟨hx, hpos⟩
  unique x _ hocc := by
    refine ⟨root x, h.onChain_root hocc, ?_⟩
    rintro b ⟨hb, hb', hx⟩
    exact (h.root_of_onChain hb hb' hx).symm
  prev_next b _ hocc x hx hne := by
    obtain ⟨l, hl, hmem⟩ := hx
    exact (h.next_occ x (h.chain_mem hl hocc x hmem).1 hne).2.2

/-! ## Operations -/

variable {occ' : Nat → Bool} {next' prev' : Nat → Nat}

/-- Only what the occupied slots hold matters. -/
theorem congr (h : Linked n N occ next prev rank root) (hocc : ∀ i, occ' i = occ i)
    (hnext : ∀ i, occ i = true → next' i = next i)
    (hprev : ∀ i, occ i = true → prev' i = prev i) :
    Linked n N occ' next' prev' rank root := by
  obtain rfl : occ' = occ := funext hocc
  refine { h with
    next_occ := ?_
    prev_occ := ?_
    rank_prev := ?_
    root_prev := ?_
    prev_head := ?_ }
  · intro i hi hne
    rw [hnext i hi] at hne ⊢
    obtain ⟨hn, hi', hp⟩ := h.next_occ i hi hne
    exact ⟨hn, hi', (hprev _ hi').trans hp⟩
  · intro x hn hx
    rw [hprev x hx]
    obtain ⟨hx', hnx⟩ := h.prev_occ x hn hx
    exact ⟨hx', (hnext _ hx').trans hnx⟩
  · intro x hn hx
    rw [hprev x hx]
    exact h.rank_prev x hn hx
  · intro x hn hx
    rw [hprev x hx]
    exact h.root_prev x hn hx
  · intro b hb hx
    rw [hprev b hx]
    exact h.prev_head b hb hx

theorem insertHead (h : Linked n N occ next prev rank root) (hb : b ≠ 0) (hbn : b < n) (hbN : b < N)
    (hfree : occ b = false) (hocc : ∀ i, occ' i = if i = b then true else occ i)
    (hnext : ∀ i, occ' i = true → next' i = if i = b then 0 else next i)
    (hprev : ∀ i, occ' i = true → prev' i = if i = b then 0 else prev i) :
    Linked n N occ' next' prev' rank root := by
  have hold : ∀ i, occ i = true → occ' i = true ∧ next' i = next i ∧ prev' i = prev i := by
    intro i hi
    have hne : i ≠ b := fun heq => by simp [heq, hfree] at hi
    have hi' : occ' i = true := by rw [hocc, if_neg hne, hi]
    exact ⟨hi', by rw [hnext i hi', if_neg hne], by rw [hprev i hi', if_neg hne]⟩
  have hcases : ∀ i, occ' i = true → i = b ∨ occ i = true := by
    intro i hi
    rw [hocc] at hi
    split at hi
    · exact .inl ‹_›
    · exact .inr hi
  have hb' : occ' b = true := by rw [hocc, if_pos rfl]
  refine ⟨?_, ?_, ?_, ?_, ?_, ?_, h.root_head, ?_⟩
  · rw [hocc, if_neg hb.symm, h.zero_free]
  · intro i hi
    rcases hcases i hi with rfl | hi
    · exact hbN
    · exact h.lt_of_occ i hi
  · intro i hi hne
    rcases hcases i hi with rfl | hi
    · exact absurd (by rw [hnext _ hi, if_pos rfl]) hne
    · obtain ⟨_, hnx, _⟩ := hold i hi
      rw [hnx] at hne ⊢
      obtain ⟨hn, hi', hp⟩ := h.next_occ i hi hne
      obtain ⟨hi'', _, hpv⟩ := hold _ hi'
      exact ⟨hn, hi'', hpv.trans hp⟩
  · intro x hn hx
    rcases hcases x hx with rfl | hx
    · omega
    · obtain ⟨hp, hpn⟩ := h.prev_occ x hn hx
      obtain ⟨hp', hnx, _⟩ := hold _ hp
      rw [(hold x hx).2.2]
      exact ⟨hp', hnx.trans hpn⟩
  · intro x hn hx
    rcases hcases x hx with rfl | hx
    · omega
    · rw [(hold x hx).2.2]
      exact h.rank_prev x hn hx
  · intro x hn hx
    rcases hcases x hx with rfl | hx
    · omega
    · rw [(hold x hx).2.2]
      exact h.root_prev x hn hx
  · intro i hi hx
    rcases hcases i hx with rfl | hx
    · rw [hprev _ hb', if_pos rfl]
    · rw [(hold i hx).2.2]
      exact h.prev_head i hi hx

theorem insertTail (h : Linked n N occ next prev rank root) {p : Nat} (hp : occ p = true)
    (hlast : next p = 0) (hn : 0 < n) (hx : n ≤ x) (hxN : x < N) (hfree : occ x = false)
    (hocc : ∀ i, occ' i = if i = x then true else occ i)
    (hnext : ∀ i, occ' i = true → next' i = if i = x then 0 else if i = p then x else next i)
    (hprev : ∀ i, occ' i = true → prev' i = if i = x then p else prev i) :
    Linked n N occ' next' prev' (Function.update rank x (rank p + 1))
      (Function.update root x (root p)) := by
  have hne : ∀ i, occ i = true → i ≠ x := fun i hi heq => by simp [heq, hfree] at hi
  have hold : ∀ i, occ i = true → occ' i = true ∧ prev' i = prev i := by
    intro i hi
    have hi' : occ' i = true := by rw [hocc, if_neg (hne i hi), hi]
    exact ⟨hi', by rw [hprev i hi', if_neg (hne i hi)]⟩
  have holdNext : ∀ i, occ i = true → i ≠ p → next' i = next i := by
    intro i hi hip
    rw [hnext i (hold i hi).1, if_neg (hne i hi), if_neg hip]
  have hcases : ∀ i, occ' i = true → i = x ∨ occ i = true := by
    intro i hi
    rw [hocc] at hi
    split at hi
    · exact .inl ‹_›
    · exact .inr hi
  have hx' : occ' x = true := by rw [hocc, if_pos rfl]
  have hprevx : prev' x = p := by rw [hprev x hx', if_pos rfl]
  have hnextp : next' p = x := by rw [hnext p (hold p hp).1, if_neg (hne p hp), if_pos rfl]
  refine ⟨?_, ?_, ?_, ?_, ?_, ?_, ?_, ?_⟩
  · rw [hocc, if_neg (by omega), h.zero_free]
  · intro i hi
    rcases hcases i hi with rfl | hi
    · exact hxN
    · exact h.lt_of_occ i hi
  · intro i hi hi0
    rcases hcases i hi with rfl | hi
    · exact absurd (by rw [hnext _ hi, if_pos rfl]) hi0
    · by_cases hip : i = p
      · rw [hip, hnextp]
        exact ⟨hx, hx', hprevx⟩
      · rw [holdNext i hi hip] at hi0 ⊢
        obtain ⟨hin, hi', hpi⟩ := h.next_occ i hi hi0
        obtain ⟨hi'', hpv⟩ := hold _ hi'
        exact ⟨hin, hi'', hpv.trans hpi⟩
  · intro i hin hi
    rcases hcases i hi with rfl | hi
    · rw [hprevx]
      exact ⟨(hold p hp).1, hnextp⟩
    · obtain ⟨hpi, hpn⟩ := h.prev_occ i hin hi
      rw [(hold i hi).2]
      refine ⟨(hold _ hpi).1, ?_⟩
      have hip : prev i ≠ p := by
        intro heq
        rw [heq, hlast] at hpn
        omega
      rw [holdNext _ hpi hip, hpn]
  · intro i hin hi
    rcases hcases i hi with rfl | hi
    · rw [hprevx, update_self, update_of_ne (hne p hp)]
      omega
    · rw [(hold i hi).2, update_of_ne (hne i hi),
        update_of_ne (hne _ (h.prev_occ i hin hi).1)]
      exact h.rank_prev i hin hi
  · intro i hin hi
    rcases hcases i hi with rfl | hi
    · rw [hprevx, update_self, update_of_ne (hne p hp)]
    · rw [(hold i hi).2, update_of_ne (hne i hi),
        update_of_ne (hne _ (h.prev_occ i hin hi).1)]
      exact h.root_prev i hin hi
  · intro b hb
    rw [update_of_ne (by omega)]
    exact h.root_head b hb
  · intro b hb hi
    rcases hcases b hi with rfl | hi
    · omega
    · rw [(hold b hi).2]
      exact h.prev_head b hb hi

theorem removeHead (h : Linked n N occ next prev rank root) (hbn : b < n) (hlast : next b = 0)
    (hocc : ∀ i, occ' i = if i = b then false else occ i)
    (hnext : ∀ i, occ' i = true → next' i = next i)
    (hprev : ∀ i, occ' i = true → prev' i = prev i) : Linked n N occ' next' prev' rank root := by
  have hcases : ∀ i, occ' i = true → i ≠ b ∧ occ i = true := by
    intro i hi
    rw [hocc] at hi
    split at hi
    · cases hi
    · exact ⟨‹_›, hi⟩
  have hold : ∀ i, i ≠ b → occ i = true → occ' i = true := by
    intro i hib hi
    rw [hocc, if_neg hib, hi]
  refine ⟨?_, ?_, ?_, ?_, ?_, ?_, h.root_head, ?_⟩
  · rw [hocc]
    split
    · rfl
    · exact h.zero_free
  · intro i hi
    exact h.lt_of_occ i (hcases i hi).2
  · intro i hi hi0
    rw [hnext i hi] at hi0 ⊢
    obtain ⟨hin, hi', hpi⟩ := h.next_occ i (hcases i hi).2 hi0
    have hi'' := hold _ (by omega) hi'
    exact ⟨hin, hi'', (hprev _ hi'').trans hpi⟩
  · intro i hin hi
    obtain ⟨hpi, hpn⟩ := h.prev_occ i hin (hcases i hi).2
    rw [hprev i hi]
    have hib : prev i ≠ b := by
      intro heq
      rw [heq, hlast] at hpn
      omega
    have hpi' := hold _ hib hpi
    exact ⟨hpi', (hnext _ hpi').trans hpn⟩
  · intro i hin hi
    rw [hprev i hi]
    exact h.rank_prev i hin (hcases i hi).2
  · intro i hin hi
    rw [hprev i hi]
    exact h.root_prev i hin (hcases i hi).2
  · intro i hib hi
    rw [hprev i hi]
    exact h.prev_head i hib (hcases i hi).2

theorem unlink (h : Linked n N occ next prev rank root) (hx : n ≤ x) (hxo : occ x = true)
    (hocc : ∀ i, occ' i = if i = x then false else occ i)
    (hnext : ∀ i, occ' i = true → next' i = if i = prev x then next x else next i)
    (hprev : ∀ i, occ' i = true → prev' i = if i = next x then prev x else prev i) :
    Linked n N occ' next' prev' rank root := by
  obtain ⟨hpo, hpn⟩ := h.prev_occ x hx hxo
  have hrank := h.rank_prev x hx hxo
  have hroot := h.root_prev x hx hxo
  have hcases : ∀ i, occ' i = true → i ≠ x ∧ occ i = true := by
    intro i hi
    rw [hocc] at hi
    split at hi
    · cases hi
    · exact ⟨‹_›, hi⟩
  have hold : ∀ i, i ≠ x → occ i = true → occ' i = true := by
    intro i hix hi
    rw [hocc, if_neg hix, hi]
  have hpx : prev x ≠ x := fun heq => by rw [heq] at hrank; omega
  refine ⟨?_, ?_, ?_, ?_, ?_, ?_, h.root_head, ?_⟩
  · rw [hocc]
    split
    · rfl
    · exact h.zero_free
  · intro i hi
    exact h.lt_of_occ i (hcases i hi).2
  · intro i hi hi0
    obtain ⟨hix, hio⟩ := hcases i hi
    rw [hnext i hi] at hi0 ⊢
    split at hi0
    next hip =>
      -- the predecessor now points past `x`
      rw [if_pos hip]
      obtain ⟨hin, hqo, hqp⟩ := h.next_occ x hxo hi0
      have hqx : next x ≠ x := fun heq => by rw [heq] at hqp; exact hpx hqp
      have hq := hold _ hqx hqo
      exact ⟨hin, hq, by rw [hprev _ hq, if_pos rfl, hip]⟩
    next hip =>
      rw [if_neg hip]
      obtain ⟨hin, hio', hpi⟩ := h.next_occ i hio hi0
      have hnx : next i ≠ x := fun heq => hip (by rw [← hpi, heq])
      have hi' := hold _ hnx hio'
      have hnq : next i ≠ next x := by
        intro heq
        have hxp := (h.next_occ x hxo (heq ▸ hi0)).2.2
        rw [← heq, hpi] at hxp
        exact hix hxp
      exact ⟨hin, hi', by rw [hprev _ hi', if_neg hnq, hpi]⟩
  · intro i hin hi
    obtain ⟨hix, hio⟩ := hcases i hi
    rw [hprev i hi]
    split
    next hiq =>
      have hp' := hold _ hpx hpo
      exact ⟨hp', by rw [hnext _ hp', if_pos rfl, hiq]⟩
    next hiq =>
      obtain ⟨hpi, hpni⟩ := h.prev_occ i hin hio
      have hpix : prev i ≠ x := fun heq => hiq (by rw [← hpni, heq])
      have hpip : prev i ≠ prev x := fun heq => hix (by rw [← hpni, heq, hpn])
      have hp' := hold _ hpix hpi
      exact ⟨hp', by rw [hnext _ hp', if_neg hpip, hpni]⟩
  · intro i hin hi
    obtain ⟨hix, hio⟩ := hcases i hi
    rw [hprev i hi]
    split
    next hiq =>
      have hlt := h.rank_prev i hin hio
      have hi0 : next x ≠ 0 := fun heq => by rw [hiq, heq, h.zero_free] at hio; cases hio
      rw [hiq, (h.next_occ x hxo hi0).2.2] at hlt
      rw [hiq]
      omega
    next => exact h.rank_prev i hin hio
  · intro i hin hi
    obtain ⟨hix, hio⟩ := hcases i hi
    rw [hprev i hi]
    split
    next hiq =>
      have hi0 : next x ≠ 0 := fun heq => by rw [hiq, heq, h.zero_free] at hio; cases hio
      rw [hiq, h.root_next hxo hi0, hroot]
    next => exact h.root_prev i hin hio
  · intro i hib hi
    obtain ⟨_, hio⟩ := hcases i hi
    rw [hprev i hi, if_neg]
    · exact h.prev_head i hib hio
    · intro heq
      have hi0 : next x ≠ 0 := fun h0 => by rw [heq, h0, h.zero_free] at hio; cases hio
      have := (h.next_occ x hxo hi0).1
      omega

end Linked

/-! ## Counting the occupied slots -/

/-- The number of occupied slots from `a` up to `b`. -/
def occupied (a b : Nat) (occ : Nat → Bool) : Nat :=
  ((Finset.Ico a b).filter (fun i => occ i = true)).card

theorem occupied_le (a b : Nat) (occ : Nat → Bool) : occupied a b occ ≤ b - a := by
  rw [← Nat.card_Ico]
  exact Finset.card_filter_le _ _

variable {a b x : Nat}

theorem occupied_congr {occ occ' : Nat → Bool} (h : ∀ i, a ≤ i → i < b → occ' i = occ i) :
    occupied a b occ' = occupied a b occ := by
  rw [occupied, occupied]
  congr 1
  apply Finset.filter_congr
  intro i hi
  rw [Finset.mem_Ico] at hi
  rw [h i hi.1 hi.2]

theorem occupied_insert {occ occ' : Nat → Bool} (ha : a ≤ x) (hb : x < b) (hfree : occ x = false)
    (h : ∀ i, occ' i = if i = x then true else occ i) :
    occupied a b occ' = occupied a b occ + 1 := by
  have hset : (Finset.Ico a b).filter (fun i => occ' i = true) =
      insert x ((Finset.Ico a b).filter (fun i => occ i = true)) := by
    ext i
    simp only [Finset.mem_filter, Finset.mem_Ico, Finset.mem_insert, h i]
    split <;> grind
  rw [occupied, hset, Finset.card_insert_of_notMem (by simp [hfree]), occupied]

theorem occupied_update (occ : Nat → Bool) (v : Bool) (ha : a ≤ x) (hb : x < b) :
    occupied a b (Function.update occ x v) + (occ x).toNat = occupied a b occ + v.toNat := by
  cases hx : occ x with
  | false =>
    cases v with
    | false => rw [← hx, update_eq_self]
    | true =>
      rw [occupied_insert ha hb hx fun i => by rw [update_apply]]
      rfl
  | true =>
    cases v with
    | true => rw [← hx, update_eq_self]
    | false =>
      have hfree : update occ x false x = false := update_self ..
      have hset : ∀ i, occ i = if i = x then true else update occ x false i := by
        intro i
        split
        · next hi => rw [hi, hx]
        · next hi => rw [update_of_ne hi]
      exact (occupied_insert ha hb hfree hset).symm

end QcomModules.Library
