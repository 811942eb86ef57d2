import Mathlib
import Descent.Proofs.Evaluation.Soundness
import Descent.Proofs.Evaluation.Termination

/-! Progress. A rule of grammar text matches no empty text: its literals are not empty, and neither are
its sequences, so a match has a piece and no piece of it is empty. For the same reason nothing in the
tree of a match is empty. -/

namespace Descent

namespace Token

/-- A leaf has a text, and a node has a child. -/
def Solid : Token → Prop
  | leaf _ text => text ≠ []
  | node _ children => children ≠ []

/-- Nothing in the tree is empty. -/
def AllSolid (t : Token) : Prop := ∀ u ∈ t.preorder, u.Solid

variable {type text name : Text} {children : List Token} {t : Token}

theorem allSolid_leaf_iff : (leaf type text).AllSolid ↔ text ≠ [] := List.forall_mem_singleton

theorem allSolid_node_iff :
    (node type children).AllSolid ↔ children ≠ [] ∧ ∀ t ∈ children, t.AllSolid :=
  forall_mem_preorder_node_iff

theorem AllSolid.relabel (h : t.AllSolid) : (t.relabel name).AllSolid := by
  cases t with
  | leaf => exact allSolid_leaf_iff.2 (allSolid_leaf_iff.1 h)
  | node => exact allSolid_node_iff.2 (allSolid_node_iff.1 h)

end Token

/-- A rule gives its name to a token or puts the token below a node. -/
theorem Match.allSolid_typedAfter {m : Match} (h : m.token.AllSolid) (name : Text) :
    (m.typedAfter name).AllSolid := by
  unfold typedAfter
  split
  · exact h
  · split
    · exact Token.allSolid_node_iff.2 ⟨List.cons_ne_nil _ _, List.forall_mem_singleton.2 h⟩
    · exact h.relabel

namespace Reading

variable {C : Text → Token → Prop} {r : Reading}

/-- A regular reading makes a tree without empty tokens, if the matching functions do. -/
theorem Regular.allSolid (hC : ∀ text token, C text token → token.AllSolid) (h : r.Regular C) :
    r.token.AllSolid := by
  induction r with
  | literal gap text => exact Token.allSolid_leaf_iff.2 h
  | custom gap text spaced token => exact hC text token h
  | reference name body ih => exact Match.allSolid_typedAfter (ih h) name
  | sequence items ih =>
      obtain ⟨hne, hall⟩ := h
      rw [token, tokens_eq_map, Token.allSolid_node_iff]
      refine ⟨?_, ?_⟩
      · rwa [ne_eq, List.map_eq_nil_iff]
      · intro t ht
        obtain ⟨item, hitem, rfl⟩ := List.mem_map.1 ht
        exact ih item hitem (regularAll_iff.1 hall item hitem)

end Reading

theorem Rule.Progresses.compiled {rule : Rule} (h : rule.Progresses) (hc : rule.spec.NoCustom) :
    rule.spec.Compiled := by
  refine h.resolve_right ?_
  rintro ⟨matcher, hm, -⟩
  exact hc.ne_custom matcher hm

namespace Evaluation

section

variable {e : Evaluation} {rule : Rule} {input rest : Text} {r : Reading}

/-- A rule whose reading takes pieces leaves a shorter end of its input. -/
theorem ReadsRule.shortens (h : e.ReadsRule rule input r rest)
    (hreg : ∀ q ∈ rule :: e.registry.rules, q.spec.Regular Takes) :
    rest <:+ input ∧ rest.size < input.size :=
  ⟨⟨_, h.spells.written.symm⟩, h.spells.size_lt_of_regular (h.regular hreg)⟩

/-- Where there are no matching functions, literals make all leaves. -/
theorem ReadsRule.allSolid (h : e.ReadsRule rule input r rest)
    (hcompiled : ∀ q ∈ rule :: e.registry.rules, q.spec.Compiled) :
    (Reading.reference rule.name r).token.AllSolid := by
  have hregular : r.Regular fun _ _ => False :=
    h.regular fun q hq => (hcompiled q hq).regular _
  have hnamed : (Reading.reference rule.name r).Regular fun _ _ => False := hregular
  exact hnamed.allSolid fun _ _ hfalse => hfalse.elim

end

/-- A match of a rule leaves a shorter end of its input, if all rules are compiled from grammar text
or are matching functions that take something. The policy may be any. Without matching functions no
leaf of the tree is empty, and every node has a child. -/
theorem match_takes_something (e : Evaluation) {rule : Rule} {input rest : Text} {token : Token}
    (hrules : ∀ q ∈ rule :: e.registry.rules, q.Progresses)
    (h : (e.rule rule input).outcome = .ok (some token, rest)) :
    rest <:+ input ∧ rest.size < input.size ∧
      ((∀ q ∈ rule :: e.registry.rules, q.spec.NoCustom) →
        ∀ t ∈ token :: token.descendants, t.Solid) := by
  obtain ⟨r, hr, rfl⟩ := readsRule_of_rule h
  obtain ⟨hsuffix, hsize⟩ := hr.shortens fun q hq => (hrules q hq).regular
  refine ⟨hsuffix, hsize, ?_⟩
  intro hcustom
  rw [← Token.preorder_eq_cons_descendants]
  exact hr.allSolid fun q hq => (hrules q hq).compiled (hcustom q hq)

/-- Letters behind underscores, which a policy function skips. -/
def underscored : Evaluation :=
  ⟨letters.registry, .custom (·.dropWhile (· = '_')), "_a__b_!".toList⟩

theorem progresses_of_underscored : ∀ q ∈ aThenB :: underscored.registry.rules, q.Progresses := by
  intro q hq
  simp only [underscored, letters, Registry.rules_ofRules, List.mem_cons, List.not_mem_nil,
    or_false] at hq
  have hchoice : aThenB.Progresses := .inl ⟨"'a' s | literal".toList, .inl (by cbv)⟩
  rcases hq with rfl | rfl | rfl
  · exact hchoice
  · exact hchoice
  · exact .inl ⟨"'b'".toList, .inl (by cbv)⟩

/-- A match through a matching function, and one without any behind a policy function. -/
theorem match_takes_something_underscored :
    ((∀ q ∈ numberList :: numbers.registry.rules, q.Progresses) ∧
      ∃ token, (numbers.rule numberList "1 x".toList).outcome = .ok (some token, " x".toList) ∧
        Text.size " x".toList < Text.size "1 x".toList) ∧
    (∀ q ∈ aThenB :: underscored.registry.rules, q.Progresses) ∧
    (∀ q ∈ aThenB :: underscored.registry.rules, q.spec.NoCustom) ∧
    ∃ token, (underscored.rule aThenB underscored.source).outcome = .ok (some token, "_!".toList) ∧
      Text.size "_!".toList < underscored.source.size ∧
      ∀ t ∈ token :: token.descendants, t.Solid := by
  have hnumbers : ∀ q ∈ numberList :: numbers.registry.rules, q.Progresses :=
    List.forall_mem_cons.2 ⟨progresses_of_numbers _ List.mem_cons_self, progresses_of_numbers⟩
  have hnumber : (numbers.rule numberList "1 x".toList).outcome =
      .ok (some (.node ['l'] [.node ['n'] [.leaf "digit".toList ['1']]]), " x".toList) := by cbv
  obtain ⟨-, hshorter, -⟩ := match_takes_something numbers hnumbers hnumber
  have hcustom : ∀ q ∈ aThenB :: underscored.registry.rules, q.spec.NoCustom := by
    intro q hq
    simp only [underscored, letters, Registry.rules_ofRules, List.mem_cons, List.not_mem_nil,
      or_false] at hq
    rcases hq with rfl | rfl | rfl
    · simp [Spec.NoCustom, aThenB, Spec.parts, Spec.partsAll]
    · simp [Spec.NoCustom, aThenB, Spec.parts, Spec.partsAll]
    · simp [Spec.NoCustom, Spec.parts]
  have hmatch : (underscored.rule aThenB underscored.source).outcome =
      .ok (some (.node ['s'] [.leaf Token.literalType ['a'],
        .node ['s'] [.leaf Token.literalType ['b']]]), "_!".toList) := by cbv
  obtain ⟨-, hsize, hsolid⟩ :=
    match_takes_something underscored progresses_of_underscored hmatch
  exact ⟨⟨hnumbers, _, hnumber, hshorter⟩, progresses_of_underscored, hcustom, _, hmatch, hsize,
    hsolid hcustom⟩

end Evaluation

end Descent
