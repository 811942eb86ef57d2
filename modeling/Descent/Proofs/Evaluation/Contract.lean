import Descent.Parser
import Descent.Proofs.Evaluation.Step
import Descent.Proofs.Registry.Lookup

/-! What an evaluation leaves. A step that matches leaves a text that ends its input, a step that
fails leaves its input as it was, whatever the matching functions and the policy answer, and an
error tells the byte offset of a text that ends the source. -/

namespace Descent

/-- The position is the byte offset of a text that ends the source; it is neither outside the source
nor inside a character. -/
def Text.Offset (source : Text) (position : Nat) (rest : Text) : Prop :=
  rest <:+ source ∧ position + rest.size = source.size ∧ source.fromByte? position = some rest

theorem Text.offset_of_suffix {source rest : Text} (h : rest <:+ source) :
    source.Offset (source.offsetOf rest) rest :=
  ⟨h, offsetOf_add_size h, fromByte?_offsetOf h⟩

/-- An error tells an offset in the source, if it tells a position at all. -/
def Error.PlacedIn (source : Text) : Error → Prop
  | .delimiter position _ => ∃ rest, source.Offset position rest
  | .incomplete position remaining => source.Offset position remaining
  | _ => True

namespace Evaluation

/-- A match leaves an end of the input, and a failure all of it. -/
def Keeps {α : Type} (input : Text) : Option α × Text → Prop
  | (some _, rest) => rest <:+ input
  | (none, rest) => rest = input

/-- The contract of a step on `input`, with what is known of its errors and when the fuel ran
out. -/
def Contract {α : Type} (pending : Prop) (errors : Error → Prop) (input : Text)
    (x : Outcome (Option α × Text)) : Prop :=
  x.Ensures pending errors (Keeps input)

/-- On all ends of `base` the policy has no other errors than the given ones. -/
def SkipsOn (e : Evaluation) (errors : Error → Prop) (base : Text) : Prop :=
  ∀ input, input <:+ base →
    (e.whitespace.skip input e.source).outcome.Ensures False errors (· <:+ input)

section

variable {e : Evaluation} {call : Text → Text → Run Attempt} {errors : Error → Prop} {base : Text}
variable {pending : Prop}

theorem literal_contract (hskip : e.SkipsOn errors base) (text : Text) {input : Text}
    (h : input <:+ base) : Contract pending errors input (e.literal text input).outcome := by
  by_cases ht : text = []
  · subst ht
    exact rfl
  · rw [outcome_literal ht]
    refine (hskip input h).of_finished.bind fun skipped _ hs => ?_
    cases hr : Text.after? text skipped with
    | some rest => exact List.IsSuffix.trans ⟨text, (Text.after?_eq_some_iff.1 hr).symm⟩ hs
    | none => exact rfl

theorem custom_contract (matcher : Matcher) (input : Text) :
    Contract pending errors input (custom matcher input).outcome := by
  rcases outcome_custom matcher input with ⟨token, rest, -, hr, h⟩ | h
  · rw [h]
    exact hr
  · rw [h]
    exact rfl

theorem body_contract (hskip : e.SkipsOn errors base)
    (hcall : ∀ name input, input <:+ base →
      Contract pending errors input (call name input).outcome)
    (s : Spec) (input : Text) :
    input <:+ base → Contract pending errors input (e.body call s input).outcome := by
  induction s, input using step_induction
    (A := fun branches input => input <:+ base →
      Contract pending errors input (e.alternation call branches input).outcome)
    (S := fun items input => input <:+ base →
      (e.sequence call items input).outcome.Ensures pending errors
        fun r => ∀ tokens rest, r = some (tokens, rest) → rest <:+ input) with
  | literal text input => exact literal_contract hskip text
  | reference name input => exact hcall name input
  | custom matcher input => exact fun _ => custom_contract matcher input
  | alternation branches input ih => exact ih
  | sequence items input ih =>
      intro h
      rw [outcome_body_sequence]
      refine (ih h).bind fun r _ hr => ?_
      cases r with
      | some r => exact hr r.1 r.2 rfl
      | none => exact rfl
  | noBranch input h => exact rfl
  | branch b bs input ihb ihbs h =>
      rw [outcome_alternation_cons]
      refine (ihb h).bind fun r _ hr => ?_
      obtain ⟨m, rest⟩ := r
      cases m with
      | some m => exact hr
      | none => exact ihbs h
  | noItem input h =>
      rintro tokens rest ⟨⟩
      exact List.suffix_refl _
  | item i is input ihi ihis h =>
      rw [outcome_sequence_cons]
      refine (ihi h).bind fun r _ hr => ?_
      obtain ⟨m, rest⟩ := r
      cases m with
      | some m =>
          refine (ihis rest (hr.trans h)).bind fun r _ hrs => ?_
          cases r with
          | some r =>
              rintro tokens rest' ⟨⟩
              exact (hrs r.1 r.2 rfl).trans hr
          | none => exact fun _ _ h => nomatch h
      | none => exact fun _ _ h => nomatch h

theorem start_contract (hskip : e.SkipsOn errors base) (rule : Rule) {input : Text}
    (h : input <:+ base) :
    (e.start rule input).outcome.Ensures False errors (· <:+ input) := by
  rcases start_eq e rule input with ⟨_, -, -, hs⟩ | ⟨-, hs⟩
  · rw [hs]
    exact hskip input h
  · rw [hs]
    exact List.suffix_refl _

theorem apply_contract (hskip : e.SkipsOn errors base)
    (hcall : ∀ name input, input <:+ base →
      Contract pending errors input (call name input).outcome)
    (rule : Rule) {input : Text} (h : input <:+ base) :
    Contract pending errors input (e.apply call rule input).outcome := by
  rw [outcome_apply]
  refine (start_contract hskip rule h).of_finished.bind fun start _ hs => ?_
  refine (body_contract hskip hcall rule.spec start (hs.trans h)).bind fun r _ hr => ?_
  obtain ⟨m, rest⟩ := r
  cases m with
  | some m => exact List.IsSuffix.trans hr hs
  | none => exact rfl

/-- The contract holds of a name met at any depth, also when the fuel runs out below it. -/
theorem call_contract (hskip : e.SkipsOn errors base)
    (hname : ∀ name, errors (.unresolvedReference name)) (n : Nat) (name input : Text)
    (h : input <:+ base) : Contract True errors input (e.call n name input).outcome := by
  induction n generalizing name input with
  | zero => trivial
  | succ n ih =>
      unfold call
      split
      · exact apply_contract hskip ih _ h
      · exact hname name

theorem Contract.strip {input : Text} {x : Run Attempt}
    (h : Contract pending errors input x.outcome) :
    Contract pending errors input (do let step ← x; pure (Evaluation.strip step) : Run _).outcome := by
  rw [Run.outcome_bind]
  refine Outcome.Ensures.bind h fun r _ hr => ?_
  obtain ⟨m, rest⟩ := r
  cases m with
  | some m => exact hr
  | none => exact hr

end

section

variable {e : Evaluation} {input : Text}

theorem skipsOn_of_errors {errors : Error → Prop} {base : Text}
    (h : ∀ input err, input <:+ base →
      (e.whitespace.skip input e.source).outcome = .error err → errors err) :
    e.SkipsOn errors base := by
  intro input hinput
  cases hs : (e.whitespace.skip input e.source).outcome with
  | unfinished => exact Whitespace.skip_ne_unfinished hs
  | error err => exact h input err hinput hs
  | ok skipped => exact Whitespace.suffix_of_skip hs

/-- Of the errors nothing need be known: then the input may be any text. -/
theorem skipsOn_any (e : Evaluation) (base : Text) : e.SkipsOn (fun _ => True) base :=
  skipsOn_of_errors fun _ _ _ _ => trivial

/-- On the ends of the source a policy tells their offsets. -/
theorem skipsOn_source (e : Evaluation) : e.SkipsOn (·.PlacedIn e.source) e.source := by
  refine skipsOn_of_errors fun input err hinput herr => ?_
  obtain ⟨phrase, trim, -, -, -, -, rfl⟩ := Whitespace.error_of_skip herr
  exact ⟨input, Text.offset_of_suffix hinput⟩

/-- What a body leaves at any fuel, on any text. -/
theorem body_keeps (e : Evaluation) (n : Nat) (s : Spec) (input : Text) :
    Contract True (fun _ => True) input (e.body (e.call n) s input).outcome :=
  body_contract (skipsOn_any e input) (call_contract (skipsOn_any e input) (fun _ => trivial) n)
    s input (List.suffix_refl _)

theorem spec_contract (s : Spec) (h : input <:+ e.source) :
    Contract True (·.PlacedIn e.source) input (e.spec s input).outcome :=
  (body_contract (skipsOn_source e) (call_contract (skipsOn_source e) (fun _ => trivial) _)
    s input h).strip

theorem rule_contract_of_skipsOn {errors : Error → Prop} {base : Text}
    (hskip : e.SkipsOn errors base) (hname : ∀ name, errors (.unresolvedReference name))
    (rule : Rule) (h : input <:+ base) : Contract True errors input (e.rule rule input).outcome :=
  (apply_contract hskip (call_contract hskip hname _) rule h).strip

theorem rule_contract (rule : Rule) (h : input <:+ e.source) :
    Contract True (·.PlacedIn e.source) input (e.rule rule input).outcome :=
  rule_contract_of_skipsOn (skipsOn_source e) (fun _ => trivial) rule h

end

/-- What an evaluation of `input` comes to, if it comes to an end. -/
structure Leaves (source input : Text) (x : Outcome (Option Token × Text)) : Prop where
  matched : ∀ token rest, x = .ok (some token, rest) → rest <:+ input ∧ rest <:+ source
  failed : ∀ rest, x = .ok (none, rest) → rest = input
  placed : ∀ err, x = .error err → err.PlacedIn source

theorem Contract.leaves {source input : Text} {x : Outcome (Option Token × Text)}
    (h : Contract True (·.PlacedIn source) input x) (hs : input <:+ source) :
    Leaves source input x := by
  refine ⟨?_, ?_, ?_⟩
  · rintro token rest rfl
    exact ⟨h, List.IsSuffix.trans h hs⟩
  · rintro rest rfl
    exact h
  · rintro err rfl
    exact h

end Evaluation

theorem Registry.placed_of_entry {r : Registry} {name : Option Text} {err : Error}
    (h : r.entry name = .error err) (source : Text) : err.PlacedIn source := by
  rcases r.error_of_entry h with rfl | ⟨other, rfl⟩
  · trivial
  · trivial

/-- What a parse makes of the rule that it starts from. -/
theorem Parser.outcome_parse (p : Parser) (input : Text) (options : ParseOptions) :
    (p.parse input options).outcome =
      match p.registry.entry options.start with
      | .error err => .error err
      | .ok rule =>
          ((Evaluation.mk p.registry p.whitespace input).rule rule input).outcome.bind fun
            | (none, _) => .error (.notFound input)
            | (some token, rest) =>
                if rest.isEmpty || options.mayLeaveRest then .ok token
                else .error (.incomplete (input.offsetOf rest) rest) := by
  unfold parse
  cases p.registry.entry options.start with
  | error err => rfl
  | ok rule =>
      dsimp only
      rw [Run.outcome_bind, Run.outcome_note, Outcome.bind, Run.outcome_bind]
      congr 1
      funext found
      obtain ⟨token, rest⟩ := found
      cases token with
      | none => rfl
      | some token =>
          dsimp only
          split <;> rfl

theorem Parser.placed_of_parse (p : Parser) (input : Text) (options : ParseOptions) :
    (p.parse input options).outcome.Ensures True (·.PlacedIn input) fun _ => True := by
  unfold parse
  cases hr : p.registry.entry options.start with
  | error err => exact Registry.placed_of_entry hr input
  | ok rule =>
      rw [Run.outcome_bind, Run.outcome_note, Outcome.bind, Run.outcome_bind]
      refine (Evaluation.rule_contract rule (List.suffix_refl input)).bind fun r _ hr => ?_
      obtain ⟨token, rest⟩ := r
      cases token with
      | none => trivial
      | some token =>
          dsimp only
          split
          · trivial
          · exact Text.offset_of_suffix hr

namespace Evaluation

/-- Whatever the matching functions and the policy answer, a match leaves an end of the input, and
a failure the input itself, so that what was skipped before it is given back. No offset that is
computed on the way leaves the source or cuts a character: an offset of a policy ends the evaluation
as an error, one of a parse is its error, and a text that a function answers is cut out only where
it ends the input. -/
theorem evaluation_leaves_suffix (e : Evaluation) {input : Text} (h : input <:+ e.source) :
    (∀ s, Leaves e.source input (e.spec s input).outcome) ∧
    (∀ rule, Leaves e.source input (e.rule rule input).outcome) ∧
    (∀ (p : Parser) (source : Text) options err, (p.parse source options).outcome = .error err →
      err.PlacedIn source) ∧
    (∀ source answer : Text, answer <:+ source →
      source.asSuffix? answer = some answer ∧ source.Offset (source.offsetOf answer) answer) := by
  refine ⟨fun s => (spec_contract s h).leaves h, fun rule => (rule_contract rule h).leaves h,
    ?_, ?_⟩
  · intro p source options err he
    have hp := p.placed_of_parse source options
    rwa [he] at hp
  · intro source answer ha
    exact ⟨Text.asSuffix?_eq_some_iff.2 ⟨ha, rfl⟩, Text.offset_of_suffix ha⟩

theorem evaluation_leaves_suffix_inside :
    ['é', 'b'] <:+ ['a', 'é', 'b'] ∧
    ((Evaluation.mk {} .oneSpace ['a', 'é', 'b']).spec (.literal ['b']) ['é', 'b']).outcome =
      .error (.delimiter 1 [' ']) ∧
    Leaves ['a', 'é', 'b'] ['é', 'b']
      ((Evaluation.mk {} .oneSpace ['a', 'é', 'b']).spec (.literal ['b']) ['é', 'b']).outcome :=
  ⟨by decide, rfl, (evaluation_leaves_suffix (.mk {} .oneSpace ['a', 'é', 'b']) (by decide)).1 _⟩

end Evaluation

end Descent
