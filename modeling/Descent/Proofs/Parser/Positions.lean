import Mathlib
import Descent.Proofs.Evaluation.Contract
import Descent.Proofs.Registry.Names

/-! Where the errors of a parse point. A parse is an attempt with its start rule and a verdict on
what the attempt left. The attempt ends with an error only for a name that is not there or for a
phrase that is missing strictly inside the input; that input remains is found by the verdict alone,
so nothing but the verdict depends on whether input may remain. -/

namespace Descent

theorem Text.offsetOf_behind (before rest : Text) : offsetOf (before ++ rest) rest = size before := by
  rw [offsetOf, size_append, Nat.add_sub_cancel]

namespace Evaluation

variable {e : Evaluation} {input : Text}

/-- The errors that an evaluation ends with: a name has no rule, or the policy demands a phrase that
does not stand there, behind a part of the source and before another one. -/
inductive Stops (e : Evaluation) : Error → Prop
  | undefinedName (name : Text) : Stops e (.unresolvedReference name)
  | missingPhrase {phrase before rest : Text} {trim : Bool}
      (hpolicy : e.whitespace = .require phrase trim) (hsource : e.source = before ++ rest)
      (hbefore : before ≠ []) (hrest : rest ≠ []) (hmissing : ¬phrase <+: rest) :
      Stops e (.delimiter before.size phrase)

/-- A policy is applied to the ends of the source only, so that the bytes before the input are those
of a text. -/
theorem skipsOn_stops (e : Evaluation) : e.SkipsOn e.Stops e.source := by
  refine skipsOn_of_errors fun input err hinput herr => ?_
  obtain ⟨phrase, trim, hpolicy, hsize, hrest, hmissing, rfl⟩ := Whitespace.error_of_skip herr
  obtain ⟨before, hsource⟩ := hinput
  have hbefore : before ≠ [] := by
    rintro rfl
    rw [← hsource] at hsize
    exact Nat.lt_irrefl _ hsize
  rw [← hsource, Text.offsetOf_behind]
  exact .missingPhrase hpolicy hsource.symm hbefore hrest hmissing

theorem rule_stops (rule : Rule) (h : input <:+ e.source) :
    Contract True e.Stops input (e.rule rule input).outcome :=
  rule_contract_of_skipsOn (skipsOn_stops e) .undefinedName rule h

end Evaluation

namespace Parser

/-- What the start rule makes of the input, and what it leaves. -/
def attempt (p : Parser) (input : Text) (start : Option Text) : Outcome (Option Token × Text) :=
  match p.registry.entry start with
  | .error err => .error err
  | .ok rule => ((Evaluation.mk p.registry p.whitespace input).rule rule input).outcome

/-- What a parse answers for an attempt that came to an end. -/
def verdict (input : Text) (mayLeaveRest : Bool) : Option Token × Text → Outcome Token
  | (none, _) => .error (.notFound input)
  | (some token, rest) =>
      if rest.isEmpty || mayLeaveRest then .ok token
      else .error (.incomplete (input.offsetOf rest) rest)

/-- The start rule takes the token from the input and leaves the rest. -/
def Takes (p : Parser) (input : Text) (start : Option Text) (token : Token) (rest : Text) : Prop :=
  p.attempt input start = .ok (some token, rest)

/-- The errors that an attempt ends with. -/
inductive Stops (p : Parser) (input : Text) : Error → Prop
  | noEntryPoint : Stops p input .noEntryPoint
  | unknownEntryPoint (name : Text) : Stops p input (.unknownEntryPoint name)
  | evaluation {err : Error} :
      (Evaluation.mk p.registry p.whitespace input).Stops err → Stops p input err

variable {p : Parser} {input rest remaining phrase : Text} {start : Option Text} {token : Token}
variable {options : ParseOptions} {mayLeaveRest : Bool} {position : Nat} {err : Error}

theorem outcome_parse_eq_bind (p : Parser) (input : Text) (options : ParseOptions) :
    (p.parse input options).outcome =
      (p.attempt input options.start).bind (verdict input options.mayLeaveRest) := by
  rw [outcome_parse, attempt]
  cases p.registry.entry options.start with
  | error err => rfl
  | ok rule => rfl

theorem attempt_ensures (p : Parser) (input : Text) (start : Option Text) :
    (p.attempt input start).Ensures True (p.Stops input) (Evaluation.Keeps input) := by
  unfold attempt
  cases hentry : p.registry.entry start with
  | error err =>
      rcases p.registry.error_of_entry hentry with rfl | ⟨name, rfl⟩
      · exact .noEntryPoint
      · exact .unknownEntryPoint name
  | ok rule =>
      exact Outcome.Ensures.mono (Evaluation.rule_stops rule (List.suffix_refl input)) .evaluation

theorem Takes.suffix (h : p.Takes input start token rest) : rest <:+ input := by
  have hkeeps := p.attempt_ensures input start
  rwa [h] at hkeeps

theorem stops_of_attempt (h : p.attempt input start = .error err) : p.Stops input err := by
  have hstops := p.attempt_ensures input start
  rwa [h] at hstops

theorem verdict_eq_ok_iff {found : Option Token × Text} :
    verdict input mayLeaveRest found = .ok token ↔
      ∃ rest, found = (some token, rest) ∧ (rest = [] ∨ mayLeaveRest = true) := by
  rcases found with ⟨_ | found, left⟩
  · exact iff_of_false nofun nofun
  · cases left <;> cases mayLeaveRest <;> simp [verdict]

theorem verdict_eq_error_iff {found : Option Token × Text} :
    verdict input mayLeaveRest found = .error err ↔
      (∃ rest, found = (none, rest) ∧ err = .notFound input) ∨
      ∃ token rest, found = (some token, rest) ∧ rest ≠ [] ∧ mayLeaveRest = false ∧
        err = .incomplete (input.offsetOf rest) rest := by
  rcases found with ⟨_ | found, left⟩
  · simp [verdict, eq_comm]
  · cases left <;> cases mayLeaveRest <;> simp [verdict, eq_comm]

theorem parse_eq_ok_iff : (p.parse input options).outcome = .ok token ↔
    ∃ rest, p.Takes input options.start token rest ∧
      (rest = [] ∨ options.mayLeaveRest = true) := by
  rw [outcome_parse_eq_bind, Outcome.bind_eq_ok_iff]
  constructor
  · rintro ⟨found, hfound, hverdict⟩
    obtain ⟨rest, rfl, hrest⟩ := verdict_eq_ok_iff.1 hverdict
    exact ⟨rest, hfound, hrest⟩
  · rintro ⟨rest, htakes, hrest⟩
    exact ⟨_, htakes, verdict_eq_ok_iff.2 ⟨rest, rfl, hrest⟩⟩

/-- A parse ends with the error of the attempt, with nothing found, or with input that remains. -/
theorem parse_eq_error_iff : (p.parse input options).outcome = .error err ↔
    p.attempt input options.start = .error err ∨
    (∃ rest, p.attempt input options.start = .ok (none, rest) ∧ err = .notFound input) ∨
    ∃ token rest, p.Takes input options.start token rest ∧ rest ≠ [] ∧
      options.mayLeaveRest = false ∧ err = .incomplete (input.offsetOf rest) rest := by
  rw [outcome_parse_eq_bind, Outcome.bind_eq_error_iff]
  refine or_congr_right ?_
  constructor
  · rintro ⟨found, hfound, hverdict⟩
    rcases verdict_eq_error_iff.1 hverdict with ⟨rest, rfl, herr⟩ | ⟨token, rest, rfl, herr⟩
    · exact .inl ⟨rest, hfound, herr⟩
    · exact .inr ⟨token, rest, hfound, herr⟩
  · rintro (⟨rest, hfound, herr⟩ | ⟨token, rest, hfound, herr⟩)
    · exact ⟨_, hfound, verdict_eq_error_iff.2 (.inl ⟨rest, rfl, herr⟩)⟩
    · exact ⟨_, hfound, verdict_eq_error_iff.2 (.inr ⟨token, rest, rfl, herr⟩)⟩

/-- That input remains is no error of the attempt. -/
theorem takes_of_incomplete
    (h : (p.parse input options).outcome = .error (.incomplete position remaining)) :
    ∃ token, p.Takes input options.start token remaining ∧ remaining ≠ [] ∧
      position = input.offsetOf remaining := by
  rcases parse_eq_error_iff.1 h with hattempt | ⟨_, -, herr⟩ | ⟨token, rest, htakes, hrest, -, herr⟩
  · cases stops_of_attempt hattempt with
    | evaluation hstops => cases hstops
  · cases herr
  · cases herr
    exact ⟨token, htakes, hrest, rfl⟩

/-- A missing phrase is an error of the attempt. -/
theorem stops_of_delimiter
    (h : (p.parse input options).outcome = .error (.delimiter position phrase)) :
    (Evaluation.mk p.registry p.whitespace input).Stops (.delimiter position phrase) := by
  rcases parse_eq_error_iff.1 h with hattempt | ⟨_, -, herr⟩ | ⟨_, _, -, -, -, herr⟩
  · cases stops_of_attempt hattempt with
    | evaluation hstops => exact hstops
  · cases herr
  · cases herr

theorem placed_of_incomplete
    (h : (p.parse input options).outcome = .error (.incomplete position remaining)) :
    remaining ≠ [] ∧
      (∃ before, input.uptoByte? position = some before ∧ input = before ++ remaining) ∧
      ∃ token, (p.parse input { options with mayLeaveRest := true }).outcome = .ok token := by
  obtain ⟨token, htakes, hremaining, rfl⟩ := takes_of_incomplete h
  obtain ⟨before, rfl⟩ := htakes.suffix
  refine ⟨hremaining, ⟨before, ?_, rfl⟩, token, ?_⟩
  · rw [Text.offsetOf_behind]
    exact Text.uptoByte?_eq_some_iff.2 ⟨remaining, rfl, rfl⟩
  · exact parse_eq_ok_iff.2 ⟨remaining, htakes, .inr rfl⟩

theorem placed_of_delimiter
    (h : (p.parse input options).outcome = .error (.delimiter position phrase)) :
    (∃ trim, p.whitespace = .require phrase trim) ∧ 0 < position ∧ position < input.size ∧
      ∃ rest, input.fromByte? position = some rest ∧ ¬phrase <+: rest := by
  cases stops_of_delimiter h with
  | @missingPhrase _ before rest trim hpolicy hsource hbefore hrest hmissing =>
      obtain rfl : input = before ++ rest := hsource
      refine ⟨⟨trim, hpolicy⟩, Text.size_pos hbefore, ?_, rest, ?_, hmissing⟩
      · rw [Text.size_append]
        exact Nat.lt_add_of_pos_right (Text.size_pos hrest)
      · exact Text.fromByte?_eq_some_iff.2 ⟨before, rfl, rfl⟩

theorem parse_whole_iff : (p.parse input ⟨start, false⟩).outcome = .ok token ↔
    (p.parse input ⟨start, true⟩).outcome = .ok token ∧ p.Takes input start token [] := by
  rw [parse_eq_ok_iff, parse_eq_ok_iff]
  constructor
  · rintro ⟨rest, htakes, rfl | hrest⟩
    · exact ⟨⟨[], htakes, .inl rfl⟩, htakes⟩
    · cases hrest
  · rintro ⟨-, htakes⟩
    exact ⟨[], htakes, .inl rfl⟩

/-- Any other error than input that remains comes from the attempt, or from finding nothing. -/
theorem parse_eq_error_iff_of_ne_incomplete
    (h : ∀ position remaining, err ≠ .incomplete position remaining) :
    (p.parse input options).outcome = .error err ↔
      p.attempt input options.start = .error err ∨
      ∃ rest, p.attempt input options.start = .ok (none, rest) ∧ err = .notFound input := by
  rw [parse_eq_error_iff]
  refine or_congr_right (or_iff_left ?_)
  rintro ⟨_, _, -, -, -, herr⟩
  exact h _ _ herr

/-- The errors of a parse point at the right place. If input remains, it is what stands behind the
offset, and the same parse succeeds where input may remain; if a phrase is missing, the policy
demands it, and the offset is strictly inside the input, before a text that does not start with it.
A parse of the whole input succeeds if the parse of its start does and takes all of it, and but for
the input that remains both end with the same errors. -/
theorem parse_errors_placed (p : Parser) (input : Text) :
    (∀ options position remaining,
      (p.parse input options).outcome = .error (.incomplete position remaining) →
      remaining ≠ [] ∧
      (∃ before, input.uptoByte? position = some before ∧ input = before ++ remaining) ∧
      ∃ token, (p.parse input { options with mayLeaveRest := true }).outcome = .ok token) ∧
    (∀ options position phrase,
      (p.parse input options).outcome = .error (.delimiter position phrase) →
      (∃ trim, p.whitespace = .require phrase trim) ∧ 0 < position ∧ position < input.size ∧
      ∃ rest, input.fromByte? position = some rest ∧ ¬phrase <+: rest) ∧
    (∀ start token, (p.parse input ⟨start, false⟩).outcome = .ok token ↔
      (p.parse input ⟨start, true⟩).outcome = .ok token ∧ p.Takes input start token []) ∧
    ∀ start err, (∀ position remaining, err ≠ .incomplete position remaining) →
      ((p.parse input ⟨start, false⟩).outcome = .error err ↔
        (p.parse input ⟨start, true⟩).outcome = .error err) := by
  refine ⟨fun _ _ _ => placed_of_incomplete, fun _ _ _ => placed_of_delimiter,
    fun _ _ => parse_whole_iff, fun start err herr => ?_⟩
  rw [parse_eq_error_iff_of_ne_incomplete herr, parse_eq_error_iff_of_ne_incomplete herr]

/-- Offsets count bytes: the first letter has two of them. One exclamation mark remains behind the
pair, and between the letters a space is missing. -/
theorem parse_errors_placed_pair :
    let p : Parser :=
      { registry := .ofRules [⟨['p'], .sequence [.literal ['é'], .literal ['b']], false⟩] (some 0)
        whitespace := .oneSpace }
    (p.parse "é b!".toList {}).outcome = .error (.incomplete 4 ['!']) ∧
    (∃ token, (p.parse "é b!".toList { mayLeaveRest := true }).outcome = .ok token) ∧
    (p.parse "éb".toList {}).outcome = .error (.delimiter 2 [' ']) ∧
    (∃ rest, Text.fromByte? "éb".toList 2 = some rest ∧ ¬[' '] <+: rest) ∧
    (p.parse "éb".toList { mayLeaveRest := true }).outcome = .error (.delimiter 2 [' ']) := by
  intro p
  have hother : ∀ position remaining, Error.delimiter 2 [' '] ≠ .incomplete position remaining :=
    nofun
  have hremains : (p.parse "é b!".toList {}).outcome = .error (.incomplete 4 ['!']) := by cbv
  have hmissing : (p.parse "éb".toList {}).outcome = .error (.delimiter 2 [' ']) := by cbv
  obtain ⟨-, -, hsucceeds⟩ := (parse_errors_placed p "é b!".toList).1 _ _ _ hremains
  obtain ⟨-, hdelimiter, -, hmodes⟩ := parse_errors_placed p "éb".toList
  obtain ⟨-, -, -, hrest⟩ := hdelimiter _ _ _ hmissing
  exact ⟨hremains, hsucceeds, hmissing, hrest, (hmodes none _ hother).1 hmissing⟩

end Parser

end Descent
