import Mathlib.Data.List.Basic
import Descent.Proofs.Token.Preorder

/-! Places in a tree. A place is the list of child numbers on the way down to a token, so equal
tokens of a tree are told apart by their places. The walk meets the tokens in the lexicographic
order of their places, and each place once. -/

namespace Descent.Token

/-- The token at a place. -/
def at? : Token → List Nat → Option Token
  | t, [] => some t
  | t, i :: place => t.children[i]?.bind fun c => c.at? place

@[simp] theorem at?_nil (t : Token) : t.at? [] = some t := rfl

theorem at?_cons (t : Token) (i : Nat) (place : List Nat) :
    t.at? (i :: place) = t.children[i]?.bind (·.at? place) := rfl

/-- A token and its place as they stand below child `i`, with the place seen from above. -/
def behind (i : Nat) (entry : List Nat × Token) : List Nat × Token := (i :: entry.1, entry.2)

mutual

/-- Every token of a tree with its place, each before its children. -/
def placed : Token → List (List Nat × Token)
  | leaf type text => [([], leaf type text)]
  | node type children => ([], node type children) :: placedFrom 0 children

/-- The same for the children from number `i` on. -/
def placedFrom (i : Nat) : List Token → List (List Nat × Token)
  | [] => []
  | t :: ts => t.placed.map (behind i) ++ placedFrom (i + 1) ts

end

theorem placed_eq (t : Token) : t.placed = ([], t) :: placedFrom 0 t.children := by
  cases t <;> rfl

theorem placedFrom_eq_flatMap (i : Nat) (ts : List Token) :
    placedFrom i ts = (ts.zipIdx i).flatMap fun child => child.1.placed.map (behind child.2) := by
  induction ts generalizing i with
  | nil => rfl
  | cons t ts ih => rw [placedFrom, ih, List.zipIdx_cons, List.flatMap_cons]

section

variable {children : List Token} {entry : List Nat × Token}

theorem mem_placedFrom : entry ∈ placedFrom 0 children ↔
    ∃ i c below, children[i]? = some c ∧ below ∈ c.placed ∧ behind i below = entry := by
  rw [placedFrom_eq_flatMap, List.mem_flatMap]
  constructor
  · rintro ⟨⟨c, i⟩, hc, hentry⟩
    obtain ⟨below, hbelow, rfl⟩ := List.mem_map.1 hentry
    exact ⟨i, c, below, List.mk_mem_zipIdx_iff_getElem?.1 hc, hbelow, rfl⟩
  · rintro ⟨i, c, below, hc, hbelow, rfl⟩
    exact ⟨(c, i), List.mk_mem_zipIdx_iff_getElem?.2 hc, List.mem_map_of_mem hbelow⟩

/-- A choice among the tokens below a node that looks at the child and at the place below it is
made child by child. -/
theorem filter_placedFrom {p : List Nat × Token → Bool} {q : Token → List Nat × Token → Bool}
    (h : ∀ i c, children[i]? = some c → ∀ entry, p (behind i entry) = q c entry) :
    ((placedFrom 0 children).filter p).map (·.2) =
      children.flatMap fun c => (c.placed.filter (q c)).map (·.2) := by
  have hchild : ∀ child ∈ children.zipIdx,
      ((child.1.placed.map (behind child.2)).filter p).map (·.2) =
        (child.1.placed.filter (q child.1)).map (·.2) := by
    rintro ⟨c, i⟩ hc
    have hp : p ∘ behind i = q c := funext (h i c (List.mk_mem_zipIdx_iff_getElem?.1 hc))
    rw [List.filter_map, hp, List.map_map]
    rfl
  calc ((placedFrom 0 children).filter p).map (·.2)
      = children.zipIdx.flatMap fun child =>
          ((child.1.placed.map (behind child.2)).filter p).map (·.2) := by
        rw [placedFrom_eq_flatMap, List.filter_flatMap, List.map_flatMap]
    _ = children.zipIdx.flatMap fun child => (child.1.placed.filter (q child.1)).map (·.2) :=
        List.flatMap_congr hchild
    _ = (children.zipIdx.map (·.1)).flatMap fun c => (c.placed.filter (q c)).map (·.2) := by
        rw [List.flatMap_map]
    _ = children.flatMap fun c => (c.placed.filter (q c)).map (·.2) := by
        rw [List.zipIdx_map_fst]

end

theorem mem_placed {t u : Token} {place : List Nat} :
    (place, u) ∈ t.placed ↔ t.at? place = some u := by
  -- The induction goes down the place, one child at a time, and so needs no more of the tree.
  induction place generalizing t with
  | nil =>
      rw [placed_eq, List.mem_cons, mem_placedFrom, at?_nil]
      constructor
      · rintro (h | ⟨_, _, _, -, -, h⟩)
        · rw [(Prod.mk.inj h).2]
        · cases h
      · rintro ⟨⟩
        exact .inl rfl
  | cons i place ih =>
      rw [placed_eq, List.mem_cons, mem_placedFrom, at?_cons, Option.bind_eq_some_iff]
      constructor
      · rintro (h | ⟨_, c, _, hc, hbelow, h⟩)
        · cases h
        · cases h
          exact ⟨c, hc, ih.1 hbelow⟩
      · rintro ⟨c, hc, hu⟩
        exact .inr ⟨i, c, (place, u), hc, ih.2 hu, rfl⟩

theorem map_placed (t : Token) : t.placed.map (·.2) = t.preorder := by
  induction t with
  | leaf type text => rfl
  | node type children ih =>
      have hbelow : (placedFrom 0 children).map (·.2) =
          children.flatMap fun c => c.placed.map (·.2) := by
        simpa only [List.filter_true] using
          @filter_placedFrom children (fun _ => true) (fun _ _ => true) fun _ _ _ _ => rfl
      rw [placed, preorder, List.map_cons, hbelow, preorderAll_eq_flatMap, List.flatMap_congr ih]

/-- A token comes before its children, and what is below a child before the next child. -/
theorem pairwise_placed (t : Token) : t.placed.Pairwise (·.1 < ·.1) := by
  induction t with
  | leaf type text => exact List.pairwise_singleton _ _
  | node type children ih =>
      have hnumbers : children.zipIdx.Pairwise (·.2 < ·.2) := by
        rw [← List.pairwise_map, List.zipIdx_map_snd]
        exact List.pairwise_lt_range'
      have hbelow : (placedFrom 0 children).Pairwise (·.1 < ·.1) := by
        rw [placedFrom_eq_flatMap, List.pairwise_flatMap]
        constructor
        -- Below one child the places share their first number; below two they differ in it.
        · intro child hchild
          have hmem : child.1 ∈ children := (List.mem_zipIdx' hchild).2 ▸ List.getElem_mem _
          refine List.pairwise_map.2 ((ih _ hmem).imp fun hlt => ?_)
          exact List.cons_lt_cons_iff.2 (.inr ⟨rfl, hlt⟩)
        · refine hnumbers.imp fun hlt entry hentry entry' hentry' => ?_
          obtain ⟨_, -, rfl⟩ := List.mem_map.1 hentry
          obtain ⟨_, -, rfl⟩ := List.mem_map.1 hentry'
          exact List.cons_lt_cons_iff.2 (.inl hlt)
      refine List.pairwise_cons.2 ⟨fun entry hentry => ?_, hbelow⟩
      obtain ⟨_, _, _, -, -, rfl⟩ := mem_placedFrom.1 hentry
      exact List.nil_lt_cons _ _

/-- The entries are the walk from `t` itself on, each token with its place: every place of the tree
once, in lexicographic order. -/
structure IsWalk (t : Token) (entries : List (List Nat × Token)) : Prop where
  tokens : entries.map (·.2) = t :: t.descendants
  places : ∀ place u, (place, u) ∈ entries ↔ t.at? place = some u
  ordered : entries.Pairwise (·.1 < ·.1)

theorem isWalk_placed (t : Token) : t.IsWalk t.placed where
  tokens := by rw [map_placed, preorder_eq_cons_descendants]
  places := fun _ _ => mem_placed
  ordered := t.pairwise_placed

end Descent.Token
