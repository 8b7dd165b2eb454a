import Mathlib

/-! The copy of a packet into the aggregation buffer. The loop over the parts of the packet ends
when it has counted all bytes, and goes from one socket buffer to the next without coming back. -/

namespace QcomModules.Rmnet

open List

/-! ## Packets -/

/-- A socket buffer as its pointers show it: its linear bytes, its page fragments, `frag_list` and
`next`. -/
inductive SkBuff where
  | null
  | node (linear : List UInt8) (frags : List (List UInt8)) (fragList next : SkBuff)

/-- The bytes of a buffer, of its `frag_list`, and of those behind it. -/
def SkBuff.bytes : SkBuff → List UInt8
  | .null => []
  | .node linear frags fragList next => linear ++ frags.flatten ++ fragList.bytes ++ next.bytes

/-- A packet whose `len` counts all its bytes. -/
structure TxPacket where
  linear : List UInt8
  frags : List (List UInt8)
  fragList : SkBuff
  len_lt : (linear ++ frags.flatten ++ fragList.bytes).length < 2 ^ 32

def TxPacket.bytes (src : TxPacket) : List UInt8 :=
  src.linear ++ src.frags.flatten ++ src.fragList.bytes

def TxPacket.len (src : TxPacket) : UInt32 := .ofNat src.bytes.length

def TxPacket.skb (src : TxPacket) : SkBuff := .node src.linear src.frags src.fragList .null

/-! ## The copy -/

/-- One page fragment is put behind `dst` and taken off `target`. -/
def putFrag (s : UInt32 × List UInt8) (frag : List UInt8) : UInt32 × List UInt8 :=
  (s.1 - .ofNat frag.length, s.2 ++ frag)

def SkBuff.frags : SkBuff → List (List UInt8)
  | .null => []
  | .node _ frags _ _ => frags

/-- The buffer of the next round: the first of `frag_list`, else `next`, else the same again. -/
def SkBuff.following : SkBuff → SkBuff
  | .null => .null
  | .node linear frags .null .null => .node linear frags .null .null
  | .node _ _ .null next => next
  | .node _ _ fragList _ => fragList

def linearizeLoop : ℕ → SkBuff → UInt32 × List UInt8 → Option (List UInt8)
  | 0, _, _ => none
  | fuel + 1, skb, s =>
    if s.1 = 0 then some s.2
    else linearizeLoop fuel skb.following (skb.frags.foldl putFrag s)

def linearizeCopy (fuel : ℕ) (dst : List UInt8) (src : TxPacket) : Option (List UInt8) :=
  linearizeLoop fuel src.skb (src.len - .ofNat src.linear.length, dst ++ src.linear)

/-- The copy ends, and the bytes of the packet are then behind those of `dst`. -/
def Linearized (src : TxPacket) : Prop :=
  ∀ dst, ∃ fuel, linearizeCopy fuel dst src = some (dst ++ src.bytes)

/-- The page fragments of the buffers that the rounds come to, each once. -/
def SkBuff.visited : SkBuff → List UInt8
  | .null => []
  | .node _ frags .null next => frags.flatten ++ next.visited
  | .node _ frags (.node linear' frags' fragList' next') _ =>
    frags.flatten ++ (SkBuff.node linear' frags' fragList' next').visited

/-- The page fragments of the buffer that the rounds stay at. -/
def SkBuff.lastVisited : SkBuff → List UInt8
  | .null => []
  | .node _ frags .null .null => frags.flatten
  | .node _ _ .null (.node linear' frags' fragList' next') =>
    (SkBuff.node linear' frags' fragList' next').lastVisited
  | .node _ _ (.node linear' frags' fragList' next') _ =>
    (SkBuff.node linear' frags' fragList' next').lastVisited

/-! ## Rounds -/

def SkBuff.rounds : ℕ → SkBuff → List UInt8
  | 0, _ => []
  | n + 1, skb => skb.frags.flatten ++ skb.following.rounds n

theorem foldl_putFrag (frags : List (List UInt8)) (s : UInt32 × List UInt8) :
    frags.foldl putFrag s = (s.1 - .ofNat frags.flatten.length, s.2 ++ frags.flatten) := by
  induction frags generalizing s with
  | nil => simp
  | cons frag frags ih =>
    have hsub : s.1 - .ofNat frag.length - .ofNat frags.flatten.length =
        s.1 - (.ofNat frag.length + .ofNat frags.flatten.length) := by grind
    rw [foldl_cons, ih, putFrag, flatten_cons, length_append, UInt32.ofNat_add, hsub,
      append_assoc]

theorem rounds_take {m n : ℕ} (h : m ≤ n) (skb : SkBuff) : skb.rounds m <+: skb.rounds n := by
  induction n generalizing m skb with
  | zero =>
    obtain rfl := Nat.le_zero.mp h
    exact prefix_rfl
  | succ n ih =>
    cases m with
    | zero => exact nil_prefix
    | succ m => exact (prefix_append_right_inj _).mpr (ih (Nat.le_of_succ_le_succ h) _)

/-- The loop ends behind the first rounds that put as many bytes as it still counts. -/
theorem linearizeLoop_eq_some_iff {fuel : ℕ} {skb : SkBuff} {target : UInt32}
    {dst out : List UInt8} :
    linearizeLoop fuel skb (target, dst) = some out ↔
      ∃ n < fuel, target = .ofNat (skb.rounds n).length ∧ out = dst ++ skb.rounds n ∧
        ∀ m < n, target ≠ .ofNat (skb.rounds m).length := by
  induction fuel generalizing skb target dst with
  | zero => exact iff_of_false (by simp [linearizeLoop]) (by simp)
  | succ fuel ih =>
    have hzero : (.ofNat (skb.rounds 0).length : UInt32) = 0 := rfl
    rw [linearizeLoop]
    by_cases htarget : target = 0
    · rw [if_pos htarget, Option.some.injEq]
      constructor
      · rintro rfl
        exact ⟨0, Nat.succ_pos _, htarget, (append_nil _).symm, nofun⟩
      · rintro ⟨n, -, -, rfl, hfirst⟩
        obtain rfl : n = 0 := by
          by_contra hn
          exact hfirst 0 (Nat.pos_of_ne_zero hn) htarget
        exact (append_nil _).symm
    · have hnext (n : ℕ) : target = .ofNat (skb.rounds (n + 1)).length ↔
          target - .ofNat skb.frags.flatten.length =
            .ofNat (skb.following.rounds n).length := by
        rw [SkBuff.rounds, length_append, UInt32.ofNat_add]
        grind
      rw [if_neg htarget, foldl_putFrag, ih]
      constructor
      · rintro ⟨n, hn, hlen, rfl, hfirst⟩
        refine ⟨n + 1, Nat.succ_lt_succ hn, (hnext n).mpr hlen, append_assoc .., fun m hm => ?_⟩
        cases m with
        | zero => exact hzero ▸ htarget
        | succ m => exact fun heq => hfirst m (Nat.lt_of_succ_lt_succ hm) ((hnext m).mp heq)
      · rintro ⟨n, hn, hlen, rfl, hfirst⟩
        cases n with
        | zero => exact absurd (hlen.trans hzero) htarget
        | succ n =>
          exact ⟨n, Nat.lt_of_succ_lt_succ hn, (hnext n).mp hlen, (append_assoc ..).symm,
            fun m hm heq => hfirst (m + 1) (Nat.succ_lt_succ hm) ((hnext m).mpr heq)⟩

theorem linearized_iff_rounds (src : TxPacket) :
    Linearized src ↔ ∃ n, src.linear ++ src.skb.rounds n = src.bytes := by
  have htarget : src.len - .ofNat src.linear.length =
      .ofNat (src.frags.flatten ++ src.fragList.bytes).length := by
    rw [TxPacket.len, TxPacket.bytes, append_assoc, length_append, UInt32.ofNat_add]
    grind
  have hlt := src.len_lt
  have hbytes : src.bytes = src.linear ++ (src.frags.flatten ++ src.fragList.bytes) :=
    append_assoc ..
  rw [append_assoc, length_append] at hlt
  simp only [Linearized, linearizeCopy, htarget, linearizeLoop_eq_some_iff, hbytes]
  constructor
  · intro hcopy
    obtain ⟨fuel, n, -, -, hout, -⟩ := hcopy []
    exact ⟨n, hout.symm⟩
  · rintro ⟨n, hn⟩ dst
    have hrest := append_cancel_left hn
    have hex : ∃ m, (.ofNat (src.frags.flatten ++ src.fragList.bytes).length : UInt32) =
        .ofNat (src.skb.rounds m).length := ⟨n, by rw [hrest]⟩
    have hpre : src.skb.rounds (Nat.find hex) <+: src.frags.flatten ++ src.fragList.bytes :=
      (rounds_take (Nat.find_min' hex (by rw [hrest])) _).trans ⟨[], by rw [append_nil, hrest]⟩
    have hlen := congrArg UInt32.toNat (Nat.find_spec hex)
    have hle := hpre.length_le
    rw [UInt32.toNat_ofNat', UInt32.toNat_ofNat', Nat.mod_eq_of_lt (by omega),
      Nat.mod_eq_of_lt (by omega)] at hlen
    refine ⟨_, _, Nat.lt_succ_self _, Nat.find_spec hex, ?_, fun m hm => Nat.find_min hex hm⟩
    rw [hpre.eq_of_length hlen.symm, append_assoc]

/-! ## What is visited -/

theorem visited_length_le (skb : SkBuff) : skb.visited.length ≤ skb.bytes.length := by
  induction skb with
  | null => exact Nat.le_refl _
  | node linear frags fragList next ihList ihNext =>
    cases fragList with
    | null =>
      simp only [SkBuff.visited, SkBuff.bytes, length_append, length_nil]
      omega
    | node linear' frags' fragList' next' =>
      rw [SkBuff.visited, SkBuff.bytes]
      simp only [length_append]
      omega

theorem exists_rounds (skb : SkBuff) :
    ∃ n, ∀ k, skb.rounds (n + k) = skb.visited ++ (replicate k skb.lastVisited).flatten := by
  induction skb with
  | null =>
    refine ⟨0, fun k => ?_⟩
    induction k with
    | zero => rfl
    | succ k ih => exact ih
  | node linear frags fragList next ihList ihNext =>
    cases fragList with
    | null =>
      cases next with
      | null =>
        refine ⟨1, fun k => ?_⟩
        have hstay : (SkBuff.node linear frags .null .null).rounds k =
            (replicate k frags.flatten).flatten := by
          induction k with
          | zero => rfl
          | succ k ih =>
            rw [replicate_succ, flatten_cons, ← ih]
            rfl
        rw [Nat.add_comm, SkBuff.rounds, SkBuff.following, hstay, SkBuff.visited,
          SkBuff.visited, append_nil]
        rfl
      | node linear' frags' fragList' next' =>
        obtain ⟨n, hn⟩ := ihNext
        refine ⟨n + 1, fun k => ?_⟩
        rw [Nat.add_right_comm, SkBuff.rounds, SkBuff.following, hn, SkBuff.visited,
          append_assoc]
        · rfl
        · exact SkBuff.noConfusion
    | node linear' frags' fragList' next' =>
      obtain ⟨n, hn⟩ := ihList
      refine ⟨n + 1, fun k => ?_⟩
      rw [Nat.add_right_comm, SkBuff.rounds, SkBuff.following, hn, SkBuff.visited, append_assoc]
      · rfl
      · exact SkBuff.noConfusion
      · exact SkBuff.noConfusion

theorem visited_packet (src : TxPacket) :
    src.skb.visited = src.frags.flatten ++ src.fragList.visited := by
  rw [TxPacket.skb]
  cases src.fragList <;> rfl

/-- The copy is right exactly where the bytes behind the linear ones are the page fragments
visited, the last buffer's possibly over and over. -/
theorem linearized_iff (src : TxPacket) :
    Linearized src ↔ ∃ k, src.linear ++
      (src.skb.visited ++ (replicate k src.skb.lastVisited).flatten) = src.bytes := by
  obtain ⟨n, hn⟩ := exists_rounds src.skb
  rw [linearized_iff_rounds]
  refine ⟨fun ⟨m, hm⟩ => ?_, fun ⟨k, hk⟩ => ⟨n + k, (hn k).symm ▸ hk⟩⟩
  rcases Nat.le_total n m with hle | hle
  · obtain ⟨k, rfl⟩ := Nat.exists_eq_add_of_le hle
    exact ⟨k, hn k ▸ hm⟩
  · -- the rounds not made put nothing
    have hpre : src.skb.rounds m <+: src.skb.visited := by
      have hall := rounds_take hle src.skb
      rwa [← Nat.add_zero n, hn, replicate_zero, flatten_nil, append_nil] at hall
    have hlen := congrArg length hm
    have hvisited := visited_length_le src.fragList
    rw [TxPacket.bytes] at hlen
    simp only [length_append] at hlen
    have heq : src.skb.rounds m = src.skb.visited := by
      refine hpre.eq_of_length_le ?_
      rw [visited_packet, length_append]
      omega
    exact ⟨0, by rw [replicate_zero, flatten_nil, append_nil, ← heq, hm]⟩

/-- The copy goes on for ever where a buffer of `frag_list` has a linear byte. -/
theorem linear_byte_left : ¬ Linearized ⟨[], [], .node [0] [] .null .null, by decide⟩ := by
  rw [linearized_iff_rounds]
  rintro ⟨n, hn⟩
  have hnone : ∀ n, (SkBuff.node [0] [] .null .null).rounds n = [] := by
    intro n
    induction n with
    | zero => rfl
    | succ n ih => exact ih
  cases n with
  | zero => cases hn
  | succ n => cases (hnone n).symm.trans hn

end QcomModules.Rmnet
