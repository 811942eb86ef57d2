import Descent.Evaluation
import Descent.Token.Walk

/-! The tokens of a tree in the order of the walk. The walk with a stack visits the same tokens as
the recursion over the tree, so what is found on a walk is proved by induction over the tree. -/

namespace Descent

namespace Token

/-- Induction over a tree, with the children of a node as they are. -/
@[elab_as_elim, induction_eliminator]
theorem induction {motive : Token → Prop} (leaf : ∀ type text, motive (.leaf type text))
    (node : ∀ type children, (∀ t ∈ children, motive t) → motive (.node type children))
    (t : Token) : motive t :=
  match t with
  | .leaf type text => leaf type text
  | .node type children => node type children fun t _ => induction leaf node t

mutual

/-- A token and all tokens below it, each before its children. -/
def preorder : Token → List Token
  | leaf type text => [leaf type text]
  | node type children => node type children :: preorderAll children

def preorderAll : List Token → List Token
  | [] => []
  | t :: ts => preorder t ++ preorderAll ts

end

theorem preorder_eq (t : Token) : preorder t = t :: preorderAll t.children := by
  cases t <;> rfl

theorem preorderAll_eq_flatMap (ts : List Token) : preorderAll ts = ts.flatMap preorder := by
  induction ts with
  | nil => rfl
  | cons t ts ih => simp [preorderAll, ih]

/-- What holds of a node and of all trees below it holds of all tokens of its tree. -/
theorem forall_mem_preorder_node_iff {P : Token → Prop} {type : Text} {children : List Token} :
    (∀ u ∈ (node type children).preorder, P u) ↔
      P (node type children) ∧ ∀ t ∈ children, ∀ u ∈ t.preorder, P u := by
  rw [preorder_eq, preorderAll_eq_flatMap, List.forall_mem_cons]
  exact and_congr_right fun _ => List.forall_mem_flatMap

end Token

namespace Walk

/-- A step of the walk takes the first token off what is left to visit. -/
theorem preorder_next? (pending : List (List Token)) :
    (next? pending = none ∧ pending.flatMap Token.preorderAll = []) ∨
    ∃ t after, next? pending = some (t, after) ∧
      pending.flatMap Token.preorderAll = t :: after.flatMap Token.preorderAll := by
  induction pending with
  | nil => exact .inl ⟨rfl, rfl⟩
  | cons siblings rest ih =>
      cases siblings with
      | nil => exact ih
      | cons t siblings =>
          refine .inr ⟨t, t.children :: siblings :: rest, rfl, ?_⟩
          simp [Token.preorderAll, Token.preorder_eq]

theorem visits_eq (pending : List (List Token)) :
    visits pending = pending.flatMap Token.preorderAll := by
  induction pending using visits.induct with
  | case1 pending h =>
      rw [visits]
      obtain ⟨-, hp⟩ | ⟨_, _, hn, -⟩ := preorder_next? pending
      · rw [hp, h]
      · rw [h] at hn
        cases hn
  | case2 pending t after h ih =>
      rw [visits]
      obtain ⟨hn, -⟩ | ⟨_, _, hn, hp⟩ := preorder_next? pending
      · rw [h] at hn
        cases hn
      · obtain ⟨rfl, rfl⟩ := Prod.mk.inj (Option.some.inj (h.symm.trans hn))
        rw [hp, h, ← ih]

end Walk

namespace Token

theorem descendants_eq (t : Token) : t.descendants = preorderAll t.children := by
  simp [descendants, Walk.under, Walk.toList, Walk.visits_eq]

theorem preorder_eq_cons_descendants (t : Token) : t.preorder = t :: t.descendants := by
  rw [preorder_eq, descendants_eq]

theorem frontier_eq (t : Token) : t.frontier = t.preorder.filter (·.children.isEmpty) := by
  rw [frontier, descendants_eq, preorder_eq]
  by_cases h : t.children = []
  · simp [h, preorderAll]
  · simp [h]

theorem frontier_node (type : Text) {children : List Token} (h : children ≠ []) :
    (node type children).frontier = children.flatMap frontier := by
  rw [frontier_eq, preorder, List.filter_cons_of_neg (by simpa [Token.children] using h),
    preorderAll_eq_flatMap, List.filter_flatMap]
  exact congrArg (children.flatMap ·) (funext fun t => (frontier_eq t).symm)

/-- The texts of the tokens without children, which are empty below a node without children. -/
def texts (t : Token) : List Text := t.frontier.map value

theorem texts_leaf (type text : Text) : (leaf type text).texts = [text] := rfl

theorem texts_node (type : Text) {children : List Token} (h : children ≠ []) :
    (node type children).texts = children.flatMap texts := by
  unfold texts
  rw [frontier_node type h, List.map_flatMap]

theorem value_eq_flatten_texts (t : Token) : t.value = t.texts.flatten := by
  induction t with
  | leaf type text => simp [texts_leaf, value]
  | node type children ih =>
      by_cases h : children = []
      · subst h
        rfl
      · rw [texts_node type h, value, values_eq_flatMap, List.flatMap_def, List.flatMap_def,
          List.flatten_flatten, List.map_map]
        exact congrArg List.flatten (List.map_congr_left ih)

theorem texts_relabel (type : Text) (t : Token) : (t.relabel type).texts = t.texts := by
  cases t with
  | leaf _ text => rfl
  | node type' children =>
      by_cases h : children = []
      · subst h
        rfl
      · rw [relabel, texts_node type h, texts_node type' h]

/-- The leaves of a tree in the order of the walk, the token itself if it is one. -/
def leaves (t : Token) : List Token := (t :: t.descendants).filter (·.isLeaf)

theorem leaves_eq (t : Token) : t.leaves = t.preorder.filter (·.isLeaf) := by
  rw [leaves, preorder_eq_cons_descendants]

theorem leaves_leaf (type text : Text) : (leaf type text).leaves = [leaf type text] := leaves_eq _

theorem leaves_node (type : Text) (children : List Token) :
    (node type children).leaves = children.flatMap leaves := by
  rw [leaves_eq, preorder, List.filter_cons_of_neg Bool.false_ne_true, preorderAll_eq_flatMap,
    List.filter_flatMap]
  exact congrArg (children.flatMap ·) (funext fun t => (leaves_eq t).symm)

/-- A leaf has no children, so the frontier has all leaves. -/
theorem filter_isLeaf_frontier (t : Token) : t.frontier.filter (·.isLeaf) = t.leaves := by
  rw [frontier_eq, leaves_eq, List.filter_filter]
  exact List.filter_congr fun u _ => by cases u <;> rfl

/-- The texts of the leaves alone. -/
def leafTexts (t : Token) : List Text := (t.frontier.filter (·.isLeaf)).map value

theorem leafTexts_eq (t : Token) : t.leafTexts = t.leaves.map value := by
  rw [leafTexts, filter_isLeaf_frontier]

theorem leafTexts_node (type : Text) (children : List Token) :
    (node type children).leafTexts = children.flatMap leafTexts := by
  rw [leafTexts_eq, leaves_node, List.map_flatMap]
  exact congrArg (children.flatMap ·) (funext fun t => (leafTexts_eq t).symm)

theorem leafTexts_relabel (type : Text) (t : Token) : (t.relabel type).leafTexts = t.leafTexts := by
  cases t with
  | leaf _ text => rfl
  | node type' children => rw [relabel, leafTexts_node, leafTexts_node]

theorem type_relabel (type : Text) (t : Token) : (t.relabel type).type = type := by
  cases t <;> rfl

theorem children_relabel (type : Text) (t : Token) : (t.relabel type).children = t.children := by
  cases t <;> rfl

theorem relabel_type (t : Token) : t.relabel t.type = t := by
  cases t <;> rfl

end Token

theorem Match.type_typedAfter (m : Match) (name : Text) : (m.typedAfter name).type = name := by
  unfold Match.typedAfter
  split
  · next h => exact h
  · split
    · rfl
    · exact Token.type_relabel name m.token

/-- A rule names what was matched and leaves its texts as they are. -/
theorem Match.texts_typedAfter (m : Match) (name : Text) :
    (m.typedAfter name).texts = m.token.texts := by
  unfold Match.typedAfter
  split
  · rfl
  · split
    · rw [Token.texts_node name (List.cons_ne_nil _ _), List.flatMap_singleton]
    · exact Token.texts_relabel name m.token

end Descent
