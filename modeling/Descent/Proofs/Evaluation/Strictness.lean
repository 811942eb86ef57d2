import Mathlib
import Descent.Proofs.Evaluation.Fuel
import Descent.Proofs.Registry.Names

/-! Two policies for the same rules. Where a strict policy skips what a lenient one skips or else
ends the evaluation, so does every evaluation: it ends early, or it comes to what the lenient one
comes to. A policy that demands a phrase of blanks and then skips blanks is strict in this sense
towards the policy that skips blanks, for texts that start with no blank. -/

namespace Descent

open Outcome (Related)

theorem Text.eq_of_suffix {t s : Text} (h : t <:+ s) (hsize : s.size ≤ t.size) : t = s := by
  obtain ⟨p, rfl⟩ := h
  rw [size_append] at hsize
  have hp : size p = 0 := by omega
  rw [size_eq_zero.1 hp, List.nil_append]

theorem Text.trimStart_of_head {s : Text} (h : ∀ c ∈ s.head?, isBlank c = false) :
    trimStart s = s := by
  cases s with
  | nil => rfl
  | cons c s => exact List.dropWhile_cons_of_neg (by simp [h c rfl])

/-- The evaluation ended because the phrase was missing at some position. -/
def Error.Lacks (phrase : Text) (stopped : Option Error) : Prop :=
  ∃ position, stopped = some (.delimiter position phrase)

namespace Whitespace

/-- On the ends of the source the first policy ends freely or skips what the second one skips. -/
def StricterOn (free : Option Error → Prop) (source : Text) (strict lenient : Whitespace) : Prop :=
  ∀ t, t <:+ source → Related free Eq (Evaluation.Same source) (strict.skip t source).outcome
    (lenient.skip t source).outcome

/-- A phrase of blanks is skipped together with the blanks behind it, so only its lack makes a
difference. At the start of the source no phrase is due, and there are no blanks to be skipped. -/
theorem require_stricterOn_ignore {phrase source : Text} (hphrase : ∀ c ∈ phrase, isBlank c = true)
    (hsource : ∀ c ∈ source.head?, isBlank c = false) :
    StricterOn (Error.Lacks phrase) source (.require phrase true) .ignore := by
  intro t ht
  show Related _ Eq _ (skipPhrase phrase true t source).outcome (.ok (Text.trimStart t))
  unfold skipPhrase
  split
  · next hdue =>
      cases hr : Text.after? phrase t with
      | none => exact .freeError ⟨_, rfl⟩
      | some rest =>
          obtain rfl := Text.after?_eq_some_iff.1 hr
          have hskip : Text.trimStart (phrase ++ rest) = Text.trimStart rest :=
            List.dropWhile_append_of_pos hphrase
          have hsuffix : Text.trimStart rest <:+ phrase ++ rest :=
            (List.dropWhile_suffix _).trans (List.suffix_append phrase rest)
          exact .ok ⟨hskip.symm, hsuffix.trans ht⟩
  · next hdue =>
      have hstart : Text.trimStart t = t := by
        by_cases hempty : t = []
        · rw [hempty]
          rfl
        · have hsize : source.size ≤ Text.size t := by
            by_contra hlt
            exact hdue ⟨Nat.lt_of_not_le hlt, hempty⟩
          obtain rfl := Text.eq_of_suffix ht hsize
          exact Text.trimStart_of_head hsource
      exact .ok ⟨hstart.symm, ht⟩

end Whitespace

namespace Evaluation

/-- The same evaluation with another policy. -/
def withPolicy (e : Evaluation) (policy : Whitespace) : Evaluation := { e with whitespace := policy }

theorem registry_withPolicy (e : Evaluation) (policy : Whitespace) :
    (e.withPolicy policy).registry = e.registry := rfl

section

variable {e : Evaluation} {policy : Whitespace} {free : Option Error → Prop}

theorem rule_related (hskip : Whitespace.StricterOn free e.source e.whitespace policy)
    (rule : Rule) :
    Related free Eq Eq (e.rule rule e.source).outcome
      ((e.withPolicy policy).rule rule e.source).outcome := by
  have hskips : e.SkipsAlike (e.withPolicy policy) free Eq e.source := hskip
  exact rule_of_skips hskips (registry_withPolicy e policy) (fun _ => rfl) rule (List.suffix_refl _)

end

end Evaluation

namespace Parser

theorem registry_withPolicy (p : Parser) (policy : Whitespace) :
    (p.withPolicy policy).registry = p.registry := rfl

variable {p : Parser} {policy : Whitespace} {input : Text} {free : Option Error → Prop}

/-- A parse does with the strict policy what it does with the lenient one, or ends freely. -/
theorem parse_related (hskip : Whitespace.StricterOn free input p.whitespace policy)
    (options : ParseOptions) :
    Related free Eq Eq (p.parse input options).outcome
      ((p.withPolicy policy).parse input options).outcome := by
  rw [outcome_parse, outcome_parse, registry_withPolicy]
  cases p.registry.entry options.start with
  | error err => exact .error rfl
  | ok rule =>
      refine (Evaluation.rule_related (e := .mk p.registry p.whitespace input) hskip rule).bind ?_
      rintro step _ rfl
      exact Related.refl (fun _ => rfl) _ fun _ _ => rfl

/-- A parse that demands a phrase of blanks, and skips the blanks behind it, ends because the phrase
is missing, or as a parse that skips blanks: with the same tree, with the same error, or never. -/
theorem strict_parse_refines_lenient (p : Parser) {phrase input : Text}
    (hphrase : ∀ c ∈ phrase, isBlank c = true) (hinput : ∀ c ∈ input.head?, isBlank c = false)
    (options : ParseOptions) :
    (∃ position, ((p.withPolicy (.require phrase true)).parse input options).outcome =
      .error (.delimiter position phrase)) ∨
    ((p.withPolicy (.require phrase true)).parse input options).outcome =
      ((p.withPolicy .ignore).parse input options).outcome := by
  have hskip := Whitespace.require_stricterOn_ignore hphrase hinput
  rcases (parse_related (p := p.withPolicy (.require phrase true)) hskip options).eq_or_free id with
    h | ⟨-, position, h⟩ | ⟨err, herr, position, h⟩
  · exact .inr h.symm
  · cases h
  · cases h
    exact .inl ⟨position, herr⟩

def pairOfLetters : Parser :=
  { registry := .ofRules [⟨['p'], .sequence [.literal ['a'], .literal ['b']], false⟩] (some 0) }

/-- Two spaces are more than the demanded one, and the lenient tree comes out; no space is an
error. -/
theorem strict_parse_refines_lenient_pair :
    (∀ c ∈ [' '], isBlank c = true) ∧ (∀ c ∈ "a  b".toList.head?, isBlank c = false) ∧
    ((pairOfLetters.withPolicy (.require [' '] true)).parse "a  b".toList {}).outcome =
      ((pairOfLetters.withPolicy .ignore).parse "a  b".toList {}).outcome ∧
    ((pairOfLetters.withPolicy (.require [' '] true)).parse "a  b".toList {}).outcome =
      .ok (.node ['p'] [.leaf Token.literalType ['a'], .leaf Token.literalType ['b']]) ∧
    ((pairOfLetters.withPolicy (.require [' '] true)).parse "ab".toList {}).outcome =
      .error (.delimiter 1 [' ']) := by
  have hphrase : ∀ c ∈ [' '], isBlank c = true := List.forall_mem_singleton.2 rfl
  have hinput : ∀ c ∈ "a  b".toList.head?, isBlank c = false := by
    rintro c ⟨⟩
    rfl
  have htree : ((pairOfLetters.withPolicy (.require [' '] true)).parse "a  b".toList {}).outcome =
      .ok (.node ['p'] [.leaf Token.literalType ['a'], .leaf Token.literalType ['b']]) := by cbv
  refine ⟨hphrase, hinput, ?_, htree, by cbv⟩
  rcases strict_parse_refines_lenient pairOfLetters hphrase hinput {} with ⟨position, h⟩ | h
  · rw [htree] at h
    cases h
  · exact h

end Parser

end Descent
