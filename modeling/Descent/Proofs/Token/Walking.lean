import Descent.Proofs.Token.Places

/-! The walk below a token. Call by call it answers with the tokens of the recursion over the tree,
which are the tokens at the places of the tree, and then it has ended. -/

namespace Descent

namespace Walk

/-- The answer to call number `n` of `next?`, from zero on. -/
def answer? : Nat → List (List Token) → Option Token
  | 0, pending => (next? pending).map (·.1)
  | n + 1, pending => (next? pending).bind fun step => answer? n step.2

/-- The calls take the tokens off what is left to visit one by one, until nothing is left. -/
theorem answer?_eq (n : Nat) (pending : List (List Token)) :
    answer? n pending = (pending.flatMap Token.preorderAll)[n]? := by
  induction n generalizing pending with
  | zero =>
      obtain ⟨hnext, hleft⟩ | ⟨t, after, hnext, hleft⟩ := preorder_next? pending
      · rw [answer?, hnext, hleft]
        rfl
      · rw [answer?, hnext, hleft]
        rfl
  | succ n ih =>
      obtain ⟨hnext, hleft⟩ | ⟨t, after, hnext, hleft⟩ := preorder_next? pending
      · rw [answer?, hnext, hleft]
        rfl
      · rw [answer?, hnext, hleft, List.getElem?_cons_succ, ← ih]
        rfl

theorem answer?_under (n : Nat) (t : Token) :
    answer? n (under t).pending = (Token.preorderAll t.children)[n]? := by
  rw [answer?_eq, under, List.flatMap_singleton]

end Walk

namespace Token

theorem preorderAll_eq_flatMap_cons (ts : List Token) :
    preorderAll ts = ts.flatMap fun t => t :: preorderAll t.children := by
  rw [preorderAll_eq_flatMap]
  exact List.flatMap_congr fun t _ => preorder_eq t

theorem length_preorderAll {ts : List Token} (h : ∀ t ∈ ts, t.preorder.length = t.count) :
    (preorderAll ts).length = counts ts := by
  induction ts with
  | nil => rfl
  | cons t ts ih =>
      obtain ⟨ht, hts⟩ := List.forall_mem_cons.1 h
      rw [preorderAll, List.length_append, ht, ih hts, counts]

theorem length_preorder (t : Token) : t.preorder.length = t.count := by
  induction t with
  | leaf type text => rfl
  | node type children ih => rw [preorder, List.length_cons, length_preorderAll ih, count]

/-- The walk from a token on is a part of the walk below any token above it. -/
theorem preorder_sublist_descendants {t u : Token} (h : u ∈ t.descendants) :
    u.preorder.Sublist t.descendants := by
  induction t with
  | leaf type text =>
      rw [descendants_eq] at h
      cases h
  | node type children ih =>
      rw [descendants_eq, preorderAll_eq_flatMap, List.mem_flatMap] at h
      obtain ⟨c, hc, hu⟩ := h
      have hbelow : c.preorder.Sublist (node type children).descendants := by
        rw [descendants_eq, preorderAll_eq_flatMap, List.flatMap_def]
        exact List.sublist_flatten_of_mem (List.mem_map_of_mem hc)
      rw [preorder_eq_cons_descendants, List.mem_cons] at hu
      obtain rfl | hu := hu
      · exact hbelow
      · rw [preorder_eq_cons_descendants c] at hbelow
        exact (ih c hc hu).trans ((List.sublist_cons_self _ _).trans hbelow)

theorem not_mem_descendants (t : Token) : t ∉ t.descendants := by
  intro h
  have hle := (preorder_sublist_descendants h).length_le
  rw [preorder_eq_cons_descendants, List.length_cons] at hle
  omega

/-- The walk is the preorder of the tree: call by call it answers with the tokens of the recursion,
each child before what is below it, and then with nothing. It takes one call for each token below
`t`; these stand at the places of the tree below the top, each place once, so `t` itself is never
met. Tokens are found by type and the frontier is read off in this order. -/
theorem walk_in_preorder (t : Token) :
    (∀ n, Walk.answer? n (Walk.under t).pending = (preorderAll t.children)[n]?) ∧
    (∀ ts, preorderAll ts = ts.flatMap fun c => c :: preorderAll c.children) ∧
    t.descendants = preorderAll t.children ∧ t.count = t.descendants.length + 1 ∧
    t.IsWalk t.placed ∧ t ∉ t.descendants ∧
    (∀ type, t.ofType type = (preorderAll t.children).filter (·.type = type)) ∧
    t.frontier = if t.children.isEmpty then [t]
      else (preorderAll t.children).filter (·.children.isEmpty) := by
  refine ⟨fun n => Walk.answer?_under n t, preorderAll_eq_flatMap_cons, t.descendants_eq, ?_,
    t.isWalk_placed, t.not_mem_descendants, fun type => ?_, ?_⟩
  · rw [← length_preorder, preorder_eq_cons_descendants, List.length_cons]
  · rw [ofType, descendants_eq]
  · rw [frontier, descendants_eq]

end Token

end Descent
