import Descent.Proofs.Evaluation.Contract
import Descent.Proofs.Spec.Parts
import Descent.Proofs.Token.Preorder

/-! The types in a parse tree. A token is typed after the rule or the matching function that made it,
or has a general type; so what holds of these names holds of every type in the tree. -/

namespace Descent

namespace Token

/-- Every token of the tree has a type of the kind. -/
def Typed (kind : Text → Prop) (t : Token) : Prop := ∀ u ∈ t.preorder, kind u.type

instance (kind : Text → Prop) [DecidablePred kind] (t : Token) : Decidable (t.Typed kind) :=
  inferInstanceAs (Decidable (∀ u ∈ t.preorder, kind u.type))

variable {kind : Text → Prop} {name text : Text} {children : List Token} {t : Token}

theorem typed_leaf_iff : (leaf name text).Typed kind ↔ kind name := List.forall_mem_singleton

theorem typed_node_iff :
    (node name children).Typed kind ↔ kind name ∧ ∀ t ∈ children, t.Typed kind :=
  forall_mem_preorder_node_iff

theorem Typed.type_self (h : t.Typed kind) : kind t.type :=
  h t (preorder_eq t ▸ List.mem_cons_self)

theorem Typed.relabel (h : t.Typed kind) (hname : kind name) : (t.relabel name).Typed kind := by
  cases t with
  | leaf => exact typed_leaf_iff.2 hname
  | node => exact typed_node_iff.2 ⟨hname, (typed_node_iff.1 h).2⟩

end Token

theorem Match.typed_typedAfter {kind : Text → Prop} {m : Match} {name : Text}
    (h : m.token.Typed kind) (hname : kind name) : (m.typedAfter name).Typed kind := by
  unfold typedAfter
  split
  · exact h
  · split
    · exact Token.typed_node_iff.2 ⟨hname, List.forall_mem_singleton.2 h⟩
    · exact h.relabel hname

/-- The matching functions among bodies make trees with types of the kind. -/
def Spec.MakeTyped (kind : Text → Prop) (ss : List Spec) : Prop :=
  ∀ matcher, .custom matcher ∈ ss → ∀ input token rest,
    matcher input = (some token, rest) → token.Typed kind

/-- The rule has a name of the kind, and its matching functions make trees with types of the kind. -/
structure Rule.MakesTyped (kind : Text → Prop) (rule : Rule) : Prop where
  name : kind rule.name
  functions : Spec.MakeTyped kind rule.spec.parts

namespace Evaluation

open Spec (MakeTyped)

/-- What a step matched has types of the kind, if it matched. -/
def MatchesTyped (kind : Text → Prop) (x : Outcome Attempt) : Prop :=
  x.Ensures True (fun _ => True) fun attempt => ∀ m ∈ attempt.1, m.token.Typed kind

section

variable {e : Evaluation} {call : Text → Text → Run Attempt} {kind : Text → Prop}

theorem literal_typed (hliteral : kind Token.literalType) (text input : Text) :
    MatchesTyped kind (e.literal text input).outcome := by
  by_cases htext : text = []
  · subst htext
    exact nofun
  · rw [outcome_literal htext]
    refine (skipsOn_any e input input (List.suffix_refl input)).of_finished.bind fun skipped _ _ => ?_
    cases Text.after? text skipped with
    | none => exact nofun
    | some rest =>
        rintro m ⟨⟩
        exact Token.typed_leaf_iff.2 hliteral

theorem custom_typed {matcher : Matcher} (h : MakeTyped kind [.custom matcher]) (input : Text) :
    MatchesTyped kind (custom matcher input).outcome := by
  rcases outcome_custom matcher input with ⟨token, rest, hmatch, -, hdone⟩ | hdone
  · rw [hdone]
    rintro m ⟨⟩
    exact h matcher (List.mem_singleton_self _) input token rest hmatch
  · rw [hdone]
    exact nofun

/-- The general types and those that names lead to are all that a body adds to its functions. -/
theorem body_typed (hliteral : kind Token.literalType) (hsequence : kind Token.sequenceType)
    (hcall : ∀ name input, MatchesTyped kind (call name input).outcome) (s : Spec) (input : Text) :
    MakeTyped kind s.parts → MatchesTyped kind (e.body call s input).outcome := by
  induction s, input using step_induction
    (A := fun branches input => MakeTyped kind (Spec.partsAll branches) →
      MatchesTyped kind (e.alternation call branches input).outcome)
    (S := fun items input => MakeTyped kind (Spec.partsAll items) →
      (e.sequence call items input).outcome.Ensures True (fun _ => True)
        fun r => ∀ found ∈ r, ∀ t ∈ found.1, t.Typed kind) with
  | literal text input => exact fun _ => literal_typed hliteral text input
  | reference name input => exact fun _ => hcall name input
  | custom matcher input => exact fun h => custom_typed h input
  | alternation branches input ih =>
      exact fun h => ih fun matcher hm => h matcher (Spec.mem_parts_alternation hm)
  | sequence items input ih =>
      intro h
      rw [outcome_body_sequence]
      refine (ih fun matcher hm => h matcher (Spec.mem_parts_sequence hm)).bind fun r _ hr => ?_
      cases r with
      | none => exact nofun
      | some found =>
          rintro m ⟨⟩
          exact Token.typed_node_iff.2 ⟨hsequence, hr found rfl⟩
  | noBranch input => exact fun _ => nofun
  | branch b bs input ihb ihbs h =>
      rw [outcome_alternation_cons]
      refine (ihb fun matcher hm => h matcher (Spec.mem_partsAll_head hm)).bind fun r _ hr => ?_
      obtain ⟨_ | m, rest⟩ := r
      · exact ihbs fun matcher hm => h matcher (Spec.mem_partsAll_tail hm)
      · exact hr
  | noItem input h =>
      rintro found ⟨⟩
      exact List.forall_mem_nil _
  | item i is input ihi ihis h =>
      rw [outcome_sequence_cons]
      refine (ihi fun matcher hm => h matcher (Spec.mem_partsAll_head hm)).bind fun r _ hr => ?_
      obtain ⟨_ | m, rest⟩ := r
      · exact nofun
      · refine (ihis rest fun matcher hm => h matcher (Spec.mem_partsAll_tail hm)).bind
          fun r _ hrs => ?_
        cases r with
        | none => exact nofun
        | some found =>
            rintro _ ⟨⟩
            exact List.forall_mem_cons.2 ⟨hr m rfl, hrs found rfl⟩

theorem apply_typed (hliteral : kind Token.literalType) (hsequence : kind Token.sequenceType)
    (hcall : ∀ name input, MatchesTyped kind (call name input).outcome) {rule : Rule}
    (hrule : rule.MakesTyped kind) (input : Text) :
    MatchesTyped kind (e.apply call rule input).outcome := by
  rw [outcome_apply]
  have hstart := start_contract (skipsOn_any e input) rule (List.suffix_refl input)
  refine hstart.of_finished.bind fun start _ _ => ?_
  refine (body_typed hliteral hsequence hcall rule.spec start hrule.functions).bind fun r _ hr => ?_
  obtain ⟨_ | m, rest⟩ := r
  · exact nofun
  · rintro _ ⟨⟩
    exact Match.typed_typedAfter (hr m rfl) hrule.name

theorem call_typed (hliteral : kind Token.literalType) (hsequence : kind Token.sequenceType)
    (hrules : ∀ rule ∈ e.registry.rules, rule.MakesTyped kind) (n : Nat) (name input : Text) :
    MatchesTyped kind (e.call n name input).outcome := by
  induction n generalizing name input with
  | zero => trivial
  | succ n ih =>
      unfold call
      split
      · next rule hrule =>
          exact apply_typed hliteral hsequence ih (hrules rule (Registry.mem_of_lookup? hrule)) input
      · trivial

end

end Evaluation

/-- Where all rules keep to the kind, and the two general types are of it, so is every type in a parse
tree. -/
theorem Parser.parse_typed {p : Parser} {kind : Text → Prop} (hliteral : kind Token.literalType)
    (hsequence : kind Token.sequenceType) (hrules : ∀ rule ∈ p.registry.rules, rule.MakesTyped kind)
    (input : Text) (options : ParseOptions) :
    (p.parse input options).outcome.Ensures True (fun _ => True) (·.Typed kind) := by
  rw [outcome_parse]
  cases hentry : p.registry.entry options.start with
  | error err => trivial
  | ok rule =>
      dsimp only
      rw [Evaluation.rule, Run.outcome_bind, Outcome.bind_assoc]
      refine (Evaluation.apply_typed hliteral hsequence
        (Evaluation.call_typed hliteral hsequence hrules _)
        (hrules rule (Registry.mem_of_entry hentry)) input).bind fun r _ hr => ?_
      obtain ⟨_ | m, rest⟩ := r
      · trivial
      · have htoken := hr m rfl
        show Outcome.Ensures _ _ _ (if _ then _ else _)
        split
        · exact htoken
        · trivial

end Descent
