import QcomModules.Library.Insertion

/-! Binary search trees: descents, and links at the place a descent ends. How a tree is
balanced afterwards is left to its operations. -/

namespace QcomModules.Library

open List

universe u

/-- A tree with a colour at each node. -/
inductive SearchTree (α : Type u) where
  | leaf
  | node (red : Bool) (left : SearchTree α) (x : α) (right : SearchTree α)
deriving Repr

/-- The balancing operations of a red-black tree. -/
structure RbOps (α : Type u) where
  insertColor : SearchTree α → SearchTree α
  erase : SearchTree α → α → SearchTree α

namespace SearchTree

variable {α : Type u}

def toList : SearchTree α → List α
  | .leaf => []
  | .node _ left x right => left.toList ++ x :: right.toList

def descend (side : α → Ordering) : SearchTree α → Option α
  | .leaf => none
  | .node _ left x right =>
    match side x with
    | .lt => left.descend side
    | .gt => right.descend side
    | .eq => some x

/-- A red node linked where the descent ends, unless it meets its place taken. -/
def link (side : α → Ordering) (new : α) : SearchTree α → Option (SearchTree α)
  | .leaf => some (.node true .leaf new .leaf)
  | .node red left x right =>
    match side x with
    | .lt => (left.link side new).map fun left' => .node red left' x right
    | .gt => (right.link side new).map fun right' => .node red left x right'
    | .eq => none

/-- The sides agree with the order of the nodes: behind a node that is too far all are, and
so are all before one that is not far enough. -/
def Monotone (side : α → Ordering) (xs : List α) : Prop :=
  xs.Pairwise fun y z => (side y = .lt → side z = .lt) ∧ (side z = .gt → side y = .gt)

variable {side : α → Ordering} {t : SearchTree α}

variable {xs ys : List α} {x new : α} {p : α → Bool}

theorem Monotone.around (h : Monotone side (xs ++ x :: ys)) :
    Monotone side xs ∧ Monotone side ys ∧
      (side x = .lt → ∀ y ∈ ys, side y = .lt) ∧ (side x = .gt → ∀ y ∈ xs, side y = .gt) := by
  obtain ⟨hxs, hcons, hcross⟩ := pairwise_append.mp h
  obtain ⟨hfirst, hys⟩ := pairwise_cons.mp hcons
  exact ⟨hxs, hys, fun hx y hy => (hfirst y hy).1 hx,
    fun hx y hy => (hcross y hy x mem_cons_self).2 hx⟩

theorem descend_some (h : t.descend side = some x) : x ∈ t.toList ∧ side x = .eq := by
  induction t with
  | leaf => cases h
  | node red left y right ihl ihr =>
    rw [descend] at h
    rw [toList, mem_append, mem_cons]
    split at h
    case h_1 =>
      obtain ⟨hmem, hx⟩ := ihl h
      exact ⟨Or.inl hmem, hx⟩
    case h_2 =>
      obtain ⟨hmem, hx⟩ := ihr h
      exact ⟨Or.inr (Or.inr hmem), hx⟩
    case h_3 hy =>
      cases h
      exact ⟨Or.inr (Or.inl rfl), hy⟩

theorem descend_none (hmono : Monotone side t.toList) (h : t.descend side = none) :
    ∀ x ∈ t.toList, side x ≠ .eq := by
  induction t with
  | leaf =>
    intro x hx
    cases hx
  | node red left y right ihl ihr =>
    rw [toList] at hmono ⊢
    obtain ⟨hleft, hright, hlt, hgt⟩ := hmono.around
    rw [descend] at h
    intro x hx
    rw [mem_append, mem_cons] at hx
    split at h
    case h_1 hy =>
      rcases hx with hx | hx | hx
      · exact ihl hleft h x hx
      · rw [hx, hy]
        decide
      · rw [hlt hy x hx]
        decide
    case h_2 hy =>
      rcases hx with hx | hx | hx
      · rw [hgt hy x hx]
        decide
      · rw [hx, hy]
        decide
      · exact ihr hright h x hx
    case h_3 => cases h

theorem insertBefore_append_of_pos (hx : p x = true) :
    insertBefore p new (xs ++ x :: ys) = insertBefore p new xs ++ x :: ys := by
  induction xs with
  | nil =>
    rw [nil_append]
    exact if_pos hx
  | cons y xs ih =>
    rw [cons_append, insertBefore, insertBefore, ih]
    split <;> rfl

theorem insertBefore_append_of_neg (hxs : ∀ x ∈ xs, p x = false) :
    insertBefore p new (xs ++ ys) = xs ++ insertBefore p new ys := by
  induction xs with
  | nil => rfl
  | cons x xs ih =>
    have hx : ¬ p x = true := by
      rw [hxs x mem_cons_self]
      decide
    rw [cons_append, insertBefore, if_neg hx, ih fun y hy => hxs y (mem_cons_of_mem _ hy)]
    rfl

theorem link_some {t' : SearchTree α} (hmono : Monotone side t.toList)
    (h : t.link side new = some t') :
    t'.toList = insertBefore (fun x => side x == .lt) new t.toList ∧
      ∀ x ∈ t.toList, side x ≠ .eq := by
  induction t generalizing t' with
  | leaf =>
    cases h
    refine ⟨rfl, ?_⟩
    intro x hx
    cases hx
  | node red left y right ihl ihr =>
    rw [toList] at hmono ⊢
    obtain ⟨hleft, hright, hlt, hgt⟩ := hmono.around
    rw [link] at h
    split at h
    case h_1 hy =>
      obtain ⟨left', hlink, heq⟩ := Option.map_eq_some_iff.mp h
      obtain ⟨hlist, hfree⟩ := ihl hleft hlink
      refine ⟨?_, ?_⟩
      · rw [← heq, toList, hlist, insertBefore_append_of_pos (by rw [hy]; rfl)]
      · intro x hx
        rw [mem_append, mem_cons] at hx
        rcases hx with hx | hx | hx
        · exact hfree x hx
        · rw [hx, hy]
          decide
        · rw [hlt hy x hx]
          decide
    case h_2 hy =>
      obtain ⟨right', hlink, heq⟩ := Option.map_eq_some_iff.mp h
      obtain ⟨hlist, hfree⟩ := ihr hright hlink
      refine ⟨?_, ?_⟩
      · have hbefore : ∀ x ∈ left.toList, (side x == .lt) = false := by
          intro x hx
          rw [hgt hy x hx]
          rfl
        have hnot : ¬ (side y == .lt) = true := by
          rw [hy]
          decide
        rw [← heq, toList, hlist, insertBefore_append_of_neg hbefore, insertBefore, if_neg hnot]
      · intro x hx
        rw [mem_append, mem_cons] at hx
        rcases hx with hx | hx | hx
        · rw [hgt hy x hx]
          decide
        · rw [hx, hy]
          decide
        · exact hfree x hx
    case h_3 => cases h

theorem link_none (h : t.link side new = none) : ∃ x ∈ t.toList, side x = .eq := by
  induction t with
  | leaf => cases h
  | node red left y right ihl ihr =>
    rw [link] at h
    rw [toList]
    split at h
    case h_1 =>
      obtain ⟨x, hx, heq⟩ := ihl (Option.map_eq_none_iff.mp h)
      exact ⟨x, mem_append_left _ hx, heq⟩
    case h_2 =>
      obtain ⟨x, hx, heq⟩ := ihr (Option.map_eq_none_iff.mp h)
      exact ⟨x, mem_append_right _ (mem_cons_of_mem _ hx), heq⟩
    case h_3 hy => exact ⟨y, mem_append_right _ mem_cons_self, hy⟩

end SearchTree

/-- Balancing keeps the nodes and their order, and erasing takes one node out. -/
structure RbOps.Lawful {α : Type u} [DecidableEq α] (rb : RbOps α) : Prop where
  insertColor : ∀ t, (rb.insertColor t).toList = t.toList
  erase : ∀ t x, (rb.erase t x).toList = t.toList.erase x

section Spine

variable {α : Type u}

def SearchTree.ofList : List α → SearchTree α
  | [] => .leaf
  | x :: xs => .node false .leaf x (ofList xs)

theorem SearchTree.toList_ofList (xs : List α) : (SearchTree.ofList xs).toList = xs := by
  induction xs with
  | nil => rfl
  | cons x xs ih =>
    rw [ofList, toList, ih]
    rfl

/-- Operations that do not balance. -/
def RbOps.unbalanced [DecidableEq α] : RbOps α where
  insertColor t := t
  erase t x := .ofList (t.toList.erase x)

theorem RbOps.unbalanced_lawful [DecidableEq α] : (RbOps.unbalanced : RbOps α).Lawful where
  insertColor _ := rfl
  erase _ _ := SearchTree.toList_ofList _

end Spine

end QcomModules.Library
