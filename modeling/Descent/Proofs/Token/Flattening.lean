import Descent.Proofs.Token.Places
import Descent.Proofs.Token.Values
import Descent.Token.Flatten

/-! What flattening does to a tree. The nodes of its own type that hang together from the top on
give way to what hangs below them, in the order of the walk and as it stands there. -/

namespace Descent.Token

/-- A node of the type; a leaf of the type is none. -/
def IsNode (type : Text) (t : Token) : Prop := t.isLeaf = false ∧ t.type = type

instance (type : Text) : DecidablePred (IsNode type) := fun _ => inferInstanceAs (Decidable (_ ∧ _))

section

variable {type : Text} {t : Token}

theorem spread_of_not_isNode (h : ¬IsNode type t) : spread type t = [t] := by
  cases t with
  | leaf type' text => rfl
  | node type' children => exact if_neg fun htype => h ⟨rfl, htype⟩

theorem spread_of_isNode (h : IsNode type t) : spread type t = t.children.flatMap (spread type) := by
  cases t with
  | leaf type' text => cases h.1
  | node type' children =>
      obtain rfl : type' = type := h.2
      rw [spread, if_pos rfl, spreads_eq_flatMap]
      rfl

theorem not_isNode_of_mem_spread {c : Token} (h : c ∈ spread type t) : ¬IsNode type c := by
  induction t with
  | leaf type' text =>
      rw [spread, List.mem_singleton] at h
      rintro ⟨hleaf, -⟩
      rw [h] at hleaf
      cases hleaf
  | node type' children ih =>
      by_cases hnode : IsNode type (node type' children)
      · rw [spread_of_isNode hnode] at h
        obtain ⟨child, hchild, hc⟩ := List.mem_flatMap.1 h
        exact ih child hchild hc
      · rw [spread_of_not_isNode hnode, List.mem_singleton] at h
        rwa [h]

theorem flatMap_leaves_spread (type : Text) (t : Token) :
    (spread type t).flatMap leaves = t.leaves := by
  induction t with
  | leaf type' text => rw [spread, List.flatMap_singleton]
  | node type' children ih =>
      by_cases hnode : IsNode type (node type' children)
      · rw [spread_of_isNode hnode, List.flatMap_assoc, leaves_node]
        exact List.flatMap_congr ih
      · rw [spread_of_not_isNode hnode, List.flatMap_singleton]

theorem flatten_node (type : Text) (children : List Token) :
    (node type children).flatten = node type (children.flatMap (spread type)) := by
  rw [flatten, spreads_eq_flatMap]

theorem children_flatten (h : IsNode type t) : t.flatten.children = spread type t := by
  cases t with
  | leaf type' text => cases h.1
  | node type' children =>
      obtain rfl : type' = type := h.2
      rw [spread_of_isNode h, flatten_node]
      rfl

theorem type_flatten (t : Token) : t.flatten.type = t.type := by
  cases t <;> rfl

theorem leaves_flatten (t : Token) : t.flatten.leaves = t.leaves := by
  cases t with
  | leaf type text => rfl
  | node type children =>
      rw [flatten_node, leaves_node, leaves_node, List.flatMap_assoc]
      exact List.flatMap_congr fun c _ => flatMap_leaves_spread type c

theorem value_flatten (t : Token) : t.flatten.value = t.value := by
  rw [value_eq_flatMap_leaves, leaves_flatten, ← value_eq_flatMap_leaves]

theorem not_isNode_of_mem_flatten {c : Token} (h : c ∈ t.flatten.children) : ¬IsNode t.type c := by
  cases t with
  | leaf type text => cases h
  | node type children =>
      rw [flatten_node] at h
      obtain ⟨child, -, hc⟩ := List.mem_flatMap.1 h
      exact not_isNode_of_mem_spread hc

theorem flatten_flatten (t : Token) : t.flatten.flatten = t.flatten := by
  cases t with
  | leaf type text => rfl
  | node type children =>
      have hkept : ∀ c ∈ children.flatMap (spread type), spread type c = [c] := by
        intro c hc
        obtain ⟨child, -, hc⟩ := List.mem_flatMap.1 hc
        exact spread_of_not_isNode (not_isNode_of_mem_spread hc)
      rw [flatten_node, flatten_node, List.flatMap_congr hkept, List.flatMap_singleton']

end

/-! The children of the flattened token by their places. -/

/-- From `t` on, nodes of the type lead down to the place, and the token there is none. -/
def EndsChain (type : Text) (t : Token) (entry : List Nat × Token) : Prop :=
  (∀ k < entry.1.length, ∀ u ∈ t.at? (entry.1.take k), IsNode type u) ∧ ¬IsNode type entry.2

instance (type : Text) (t : Token) : DecidablePred (EndsChain type t) :=
  fun _ => inferInstanceAs (Decidable (_ ∧ _))

/-- Below `t`, nothing but nodes of its type stands above the token, which is itself none. -/
def Surfaces (t : Token) (entry : List Nat × Token) : Prop :=
  0 < entry.1.length ∧
  (∀ k < entry.1.length, 0 < k → ∀ u ∈ t.at? (entry.1.take k), IsNode t.type u) ∧
  ¬IsNode t.type entry.2

instance (t : Token) : DecidablePred t.Surfaces :=
  fun _ => inferInstanceAs (Decidable (_ ∧ _ ∧ _))

section

variable {type : Text} {t : Token} {entry : List Nat × Token}

theorem endsChain_nil_iff : EndsChain type t ([], t) ↔ ¬IsNode type t := by
  simp [EndsChain]

/-- A chain below a child goes on from the token above it. -/
theorem endsChain_behind_iff {i : Nat} {c : Token} (hc : t.children[i]? = some c) :
    EndsChain type t (behind i entry) ↔ IsNode type t ∧ EndsChain type c entry := by
  simp only [EndsChain, behind, List.length_cons, Nat.forall_lt_succ_left, List.take_zero,
    List.take_succ_cons, at?_nil, at?_cons, hc, Option.bind_some, Option.mem_some_iff,
    forall_eq', and_assoc]

theorem filter_endsChain_of_not_isNode (h : ¬IsNode type t) :
    t.placed.filter (EndsChain type t ·) = [([], t)] := by
  have hbelow : (placedFrom 0 t.children).filter (EndsChain type t ·) = [] := by
    refine List.filter_eq_nil_iff.2 fun entry hentry hends => ?_
    obtain ⟨i, c, below, hc, -, rfl⟩ := mem_placedFrom.1 hentry
    exact h ((endsChain_behind_iff hc).1 (of_decide_eq_true hends)).1
  have hself : EndsChain type t ([], t) := endsChain_nil_iff.2 h
  rw [placed_eq, List.filter_cons_of_pos (by simpa using hself), hbelow]

/-- What stands for a token under a node of the type is found at the ends of the chains. -/
theorem spread_eq_filter (type : Text) (t : Token) :
    spread type t = (t.placed.filter (EndsChain type t ·)).map (·.2) := by
  induction t with
  -- Only a node of the type passes the chain on to its children; at any other token it ends.
  | leaf type' text =>
      have hnode : ¬IsNode type (leaf type' text) := fun h => Bool.noConfusion h.1
      rw [filter_endsChain_of_not_isNode hnode]
      rfl
  | node type' children ih =>
      by_cases hnode : IsNode type (node type' children)
      · have hself : ¬EndsChain type (node type' children) ([], node type' children) :=
          fun h => endsChain_nil_iff.1 h hnode
        have hbelow := @filter_placedFrom children (EndsChain type (node type' children) ·)
          (fun c => (EndsChain type c ·)) fun i c hc entry =>
            decide_eq_decide.2 ((endsChain_behind_iff hc).trans (and_iff_right hnode))
        rw [spread_of_isNode hnode, placed, List.filter_cons_of_neg (by simpa using hself), hbelow]
        exact List.flatMap_congr ih
      · rw [spread_of_not_isNode hnode, filter_endsChain_of_not_isNode hnode]
        rfl

/-- The chain of a node starts at the node itself, so only what is below it counts. -/
theorem surfaces_iff (ht : t.isLeaf = false) (h : entry ∈ t.placed) :
    t.Surfaces entry ↔ EndsChain t.type t entry := by
  have hself : IsNode t.type t := ⟨ht, rfl⟩
  obtain ⟨place, u⟩ := entry
  cases place with
  | nil =>
      obtain rfl : t = u := Option.some.inj (mem_placed.1 h)
      rw [endsChain_nil_iff]
      exact iff_of_false (fun hsurfaces => Nat.lt_irrefl 0 hsurfaces.1) (not_not_intro hself)
  | cons i place =>
      simp only [Surfaces, EndsChain, List.length_cons, Nat.succ_pos, Nat.forall_lt_succ_left,
        Nat.lt_irrefl, List.take_zero, at?_nil, Option.mem_some_iff, forall_eq', hself, false_imp_iff,
        true_imp_iff, true_and]

theorem flatten_eq (t : Token) :
    t.flatten =
      if t.isLeaf then t else node t.type ((t.placed.filter (t.Surfaces ·)).map (·.2)) := by
  cases t with
  | leaf type text => rfl
  | node type children =>
      have hself : IsNode type (node type children) := ⟨rfl, rfl⟩
      have hsurfaces : (node type children).placed.filter ((node type children).Surfaces ·) =
          (node type children).placed.filter (EndsChain type (node type children) ·) :=
        List.filter_congr fun entry hentry => decide_eq_decide.2 (surfaces_iff rfl hentry)
      rw [hsurfaces, ← spread_eq_filter, ← children_flatten hself]
      rfl

end

/-- Flattening collapses the chain of a type and loses nothing. A leaf stays as it is. A node keeps
its type and gets as children, in the order of the walk and unchanged, the tokens below it above
which there are only nodes of its type and which are none themselves. So the text and its leaves
stay, no child is a node of the type, and nothing is left for a second flattening. -/
theorem flatten_collapses_chain (t : Token) :
    t.flatten.type = t.type ∧ t.flatten.value = t.value ∧
    t.IsWalk t.placed ∧
    (t.flatten =
      if t.isLeaf then t else node t.type ((t.placed.filter (t.Surfaces ·)).map (·.2))) ∧
    (∀ c ∈ t.flatten.children, ¬IsNode t.type c) ∧
    t.flatten.leaves = t.leaves ∧ t.flatten.flatten = t.flatten :=
  ⟨t.type_flatten, t.value_flatten, t.isWalk_placed, t.flatten_eq,
    fun _ => not_isNode_of_mem_flatten, t.leaves_flatten, t.flatten_flatten⟩

/-- A leaf of the type stays, and so does a node of the type below another type. -/
example :
    (node ['n'] [node ['n'] [leaf ['n'] ['a'], node ['n'] []], node ['m'] [node ['n'] []]]).flatten =
      node ['n'] [leaf ['n'] ['a'], node ['m'] [node ['n'] []]] :=
  rfl

end Descent.Token
