import Mathlib
import Descent.Proofs.Evaluation.Fuel
import Descent.Proofs.Grammar.Shape
import Descent.Proofs.Registry.Names
import Descent.Proofs.Text.Spacing

/-! One policy and two texts. Where blanks are skipped and no literal has one, the amount and the
kind of the blanks in the input make no difference: evaluations of respaced texts take the same
steps, and what is left of the one is respaced from what is left of the other. The two need not
allow themselves the same depth, so they are compared at every depth that both can have. -/

namespace Descent

open Outcome (Related)
open Text (Respaced)

/-- No literal of the body has a blank. -/
def Spec.Unspaced (s : Spec) : Prop :=
  ∀ text, .literal text ∈ s.parts → ∀ c ∈ text, isBlank c = false

/-- The same error, but for the blanks in the input that it tells, and for where these stand. -/
inductive Error.Respaced : Error → Error → Prop
  | same {e : Error} : Respaced e e
  | notFound {input input' : Text} : Text.Respaced input input' →
      Respaced (.notFound input) (.notFound input')
  | incomplete {position position' : Nat} {rest rest' : Text} : Text.Respaced rest rest' →
      Respaced (.incomplete position rest) (.incomplete position' rest')

/-- The two outcomes are of one kind; nothing is free. -/
abbrev Outcome.Respaced {α β : Type} (values : α → β → Prop) (x : Outcome α) (y : Outcome β) :
    Prop :=
  Related (fun _ => False) Error.Respaced values x y

/-- Where values belong together only if they are equal, a run that ends is answered by its like. -/
theorem Outcome.Respaced.of_ne_unfinished {α : Type} {x y : Outcome α}
    (h : Outcome.Respaced Eq x y) (hx : x ≠ .unfinished) :
    (∃ a, x = .ok a ∧ y = .ok a) ∨
      ∃ err err', x = .error err ∧ y = .error err' ∧ err.Respaced err' := by
  cases h with
  | freeUnfinished hfree => exact hfree.elim
  | freeError hfree => exact hfree.elim
  | unfinished => exact absurd rfl hx
  | error herr => exact .inr ⟨_, _, rfl, rfl, herr⟩
  | ok hvalue => exact .inl ⟨_, rfl, hvalue ▸ rfl⟩

theorem Spec.Compiled.noCustom {s : Spec} (h : s.Compiled) : s.NoCustom :=
  fun _ hmatcher => h.allProper _ hmatcher

namespace Evaluation

/-- The evaluation of a text by some rules, with blanks skipped. -/
def ignoring (r : Registry) (source : Text) : Evaluation := ⟨r, .ignore, source⟩

section

variable {r : Registry} {s s' t t' : Text}

theorem registry_ignoring : (ignoring r s).registry = r := rfl

theorem skip_respaced (ht : Respaced t t') :
    Outcome.Respaced Respaced
      ((ignoring r s).whitespace.skip t (ignoring r s).source).outcome
      ((ignoring r s').whitespace.skip t' (ignoring r s').source).outcome := .ok ht.trimStart

theorem literal_respaced {text : Text} (htext : ∀ c ∈ text, isBlank c = false)
    (ht : Respaced t t') :
    Outcome.Respaced (Agree Respaced) ((ignoring r s).literal text t).outcome
      ((ignoring r s').literal text t').outcome := by
  by_cases hempty : text = []
  · subst hempty
    exact .ok ⟨rfl, ht⟩
  · rw [outcome_literal hempty, outcome_literal hempty]
    refine (skip_respaced ht).bind fun skipped skipped' hs => ?_
    have hafter := hs.map_after? htext
    cases hr : Text.after? text skipped with
    | none =>
        rw [hr] at hafter
        rw [Option.map_eq_none_iff.1 hafter.symm]
        exact .ok ⟨rfl, ht⟩
    | some rest =>
        rw [hr] at hafter
        obtain ⟨rest', hr', hrest⟩ := Option.map_eq_some_iff.1 hafter.symm
        rw [hr']
        exact .ok ⟨rfl, hrest.symm⟩

/-- Names are answered alike on respaced texts. -/
def CallsRespaced (call call' : Text → Text → Run Attempt) : Prop :=
  ∀ name t t', Respaced t t' →
    Outcome.Respaced (Agree Respaced) (call name t).outcome (call' name t').outcome

theorem apply_respaced {call call' : Text → Text → Run Attempt}
    (hcall : CallsRespaced call call') {rule : Rule} (hcustom : rule.spec.NoCustom)
    (hliterals : rule.spec.Unspaced) (ht : Respaced t t') :
    Outcome.Respaced (Agree Respaced) ((ignoring r s).apply call rule t).outcome
      ((ignoring r s').apply call' rule t').outcome := by
  have hstart : ∀ source u, (ignoring r source).start rule u = pure u := by
    intro source u
    rcases start_eq (ignoring r source) rule u with ⟨matcher, hm, -, -⟩ | ⟨-, h⟩
    · exact absurd hm (hcustom.ne_custom matcher)
    · exact h
  refine apply_related ht ?_ ?_
  · rw [hstart, hstart]
    exact .ok ht
  · intro a ha hatom u u' hu
    cases a with
    | literal text => exact literal_respaced (hliterals text ha) hu
    | reference name => exact hcall name u u' hu
    | custom matcher => exact absurd ha (hcustom matcher)
    | sequence items => exact absurd hatom id
    | alternation branches => exact absurd hatom id

theorem calls_respaced
    (hrules : ∀ rule ∈ r.rules, rule.spec.NoCustom ∧ rule.spec.Unspaced) (n : Nat) :
    CallsRespaced ((ignoring r s).call n) ((ignoring r s').call n) := by
  induction n with
  | zero => exact fun _ _ _ _ => .unfinished
  | succ n ih =>
      intro name t t' ht
      rw [call_succ, call_succ, registry_ignoring, registry_ignoring]
      cases hl : r.lookup? name with
      | none => exact .error .same
      | some rule =>
          obtain ⟨hcustom, hliterals⟩ := hrules rule (Registry.mem_of_lookup? hl)
          exact apply_respaced ih hcustom hliterals ht

/-- A rule ends alike on respaced texts, each at the depth of its own evaluation. -/
theorem rule_respaced (hrules : ∀ rule ∈ r.rules, rule.spec.NoCustom ∧ rule.spec.Unspaced)
    {rule : Rule} (hrule : rule ∈ r.rules) (h : Respaced s s') :
    Outcome.Respaced (fun a b => a.1 = b.1 ∧ Respaced a.2 b.2)
      ((ignoring r s).rule rule s).outcome ((ignoring r s').rule rule s').outcome := by
  obtain ⟨hcustom, hliterals⟩ := hrules rule hrule
  unfold Evaluation.rule
  rw [Run.outcome_bind, Run.outcome_bind,
    apply_depth_eq (List.suffix_refl s) (le_max_left _ ((ignoring r s').depth s')),
    apply_depth_eq (List.suffix_refl s') (le_max_right ((ignoring r s).depth s) _)]
  refine (apply_respaced (calls_respaced hrules _) hcustom hliterals h).bind ?_
  rintro ⟨m, rest⟩ ⟨m', rest'⟩ ⟨rfl, hrest⟩
  exact .ok ⟨rfl, hrest⟩

end

end Evaluation

namespace Parser

variable {p : Parser} {s s' : Text}

theorem parse_related_of_respaced
    (hrules : ∀ rule ∈ p.registry.rules, rule.spec.NoCustom ∧ rule.spec.Unspaced)
    (h : Respaced s s') (options : ParseOptions) :
    Outcome.Respaced Eq ((p.withPolicy .ignore).parse s options).outcome
      ((p.withPolicy .ignore).parse s' options).outcome := by
  rw [outcome_parse, outcome_parse]
  cases hentry : (p.withPolicy .ignore).registry.entry options.start with
  | error err => exact .error .same
  | ok rule =>
      have hrule := Evaluation.rule_respaced hrules (Registry.mem_of_entry hentry) h
      refine hrule.bind ?_
      rintro ⟨token, rest⟩ ⟨token', rest'⟩ ⟨rfl, hrest⟩
      cases token with
      | none => exact .error (.notFound h)
      | some token =>
          dsimp only
          rw [hrest.isEmpty_eq]
          split
          · exact .ok rfl
          · exact .error (.incomplete hrest)

/-- With rules from grammar text whose literals have no blanks, and with blanks skipped, inputs that
differ only in the amount and the kind of their blanks are parsed alike: if one parse ends, so does
the other, with the same tree, or with the same error up to the blanks of the texts in it. -/
theorem parse_respaced
    (hcompiled : ∀ rule ∈ p.registry.rules, rule.spec.Compiled)
    (hliterals : ∀ rule ∈ p.registry.rules, ∀ text, .literal text ∈ rule.spec.parts →
      ∀ c ∈ text, isBlank c = false)
    (h : s.collapse = s'.collapse) (options : ParseOptions)
    (hends : ((p.withPolicy .ignore).parse s options).outcome ≠ .unfinished) :
    (∃ token, ((p.withPolicy .ignore).parse s options).outcome = .ok token ∧
      ((p.withPolicy .ignore).parse s' options).outcome = .ok token) ∨
    ∃ err err', ((p.withPolicy .ignore).parse s options).outcome = .error err ∧
      ((p.withPolicy .ignore).parse s' options).outcome = .error err' ∧ err.Respaced err' := by
  have hrules : ∀ rule ∈ p.registry.rules, rule.spec.NoCustom ∧ rule.spec.Unspaced :=
    fun rule hrule => ⟨(hcompiled rule hrule).noCustom, hliterals rule hrule⟩
  exact (parse_related_of_respaced hrules h options).of_ne_unfinished hends

/-- Two letters in a row, one rule for each. -/
def twoLetters : Parser :=
  { registry := .ofRules
      [⟨['p'], .sequence [.literal ['a'], .reference ['q']], false⟩,
        ⟨['q'], .alternation [.literal ['b'], .literal ['c']], false⟩] (some 0) }

/-- A tabulator and a line feed stand for two spaces, and one blank that is left for another. -/
theorem parse_respaced_two_letters :
    (∀ rule ∈ twoLetters.registry.rules, rule.spec.Compiled) ∧
    (∀ rule ∈ twoLetters.registry.rules, ∀ text, .literal text ∈ rule.spec.parts →
      ∀ c ∈ text, isBlank c = false) ∧
    Text.collapse "a  c ".toList = Text.collapse "a\t\n\tc\n\n".toList ∧
    ∃ err err', ((twoLetters.withPolicy .ignore).parse "a  c ".toList {}).outcome = .error err ∧
      ((twoLetters.withPolicy .ignore).parse "a\t\n\tc\n\n".toList {}).outcome = .error err' ∧
      err = .incomplete 4 [' '] ∧ err.Respaced err' := by
  have hcompiled : ∀ rule ∈ twoLetters.registry.rules, rule.spec.Compiled := by
    refine List.forall_mem_cons.2 ⟨⟨"'a' q".toList, .inl (by cbv)⟩, ?_⟩
    exact List.forall_mem_singleton.2 ⟨"'b' | 'c'".toList, .inl (by cbv)⟩
  have hliterals : ∀ rule ∈ twoLetters.registry.rules, ∀ text,
      .literal text ∈ rule.spec.parts → ∀ c ∈ text, isBlank c = false := by
    intro rule hrule text htext
    simp only [twoLetters, Registry.rules_ofRules, List.mem_cons, List.not_mem_nil,
      or_false] at hrule
    rcases hrule with rfl | rfl
    · simp only [Spec.parts, Spec.partsAll, List.mem_cons, List.mem_append, List.not_mem_nil,
        reduceCtorEq, Spec.literal.injEq, or_false, false_or] at htext
      exact htext ▸ List.forall_mem_singleton.2 (by decide)
    · simp only [Spec.parts, Spec.partsAll, List.mem_cons, List.mem_append, List.not_mem_nil,
        reduceCtorEq, Spec.literal.injEq, or_false, false_or] at htext
      rcases htext with rfl | rfl
      · exact List.forall_mem_singleton.2 (by decide)
      · exact List.forall_mem_singleton.2 (by decide)
  have hspaces : Text.collapse "a  c ".toList = Text.collapse "a\t\n\tc\n\n".toList := by decide
  have herr : ((twoLetters.withPolicy .ignore).parse "a  c ".toList {}).outcome =
      .error (.incomplete 4 [' ']) := by cbv
  have hfinished :
      ((twoLetters.withPolicy .ignore).parse "a  c ".toList {}).outcome ≠ .unfinished := by
    rw [herr]
    intro h
    cases h
  refine ⟨hcompiled, hliterals, hspaces, ?_⟩
  rcases parse_respaced hcompiled hliterals hspaces {} hfinished with
    ⟨token, h, -⟩ | ⟨err, err', h, h', hrespaced⟩
  · rw [herr] at h
    cases h
  · refine ⟨err, err', h, h', ?_, hrespaced⟩
    rw [herr] at h
    cases h
    rfl

end Parser

end Descent
