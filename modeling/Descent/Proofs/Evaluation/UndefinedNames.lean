import Mathlib.Data.List.Basic
import Descent.Proofs.Evaluation.Lookups
import Descent.Proofs.Registry.Names

/-! The names without a rule. The list of them is found by reading the bodies once, and it is all
that an evaluation can miss: whatever body an evaluation comes to is part of the body of a rule, so
a name that it looks up stands in the body of a rule. -/

namespace Descent

namespace Registry

variable {r : Registry} {seen names : List Text} {name first second : Text}

theorem known_iff : (r.contains name || seen.contains name) = true ↔
    name ∈ r.names ∨ name ∈ seen := by
  rw [Bool.or_eq_true, contains_iff, List.contains_iff_mem]

theorem mem_missing_iff : first ∈ r.missing seen names ↔
    first ∈ names ∧ first ∉ r.names ∧ first ∉ seen := by
  induction names generalizing seen with
  | nil => exact iff_of_false List.not_mem_nil fun h => List.not_mem_nil h.1
  | cons name names ih =>
      rw [missing]
      split
      · next hknown =>
          rw [known_iff] at hknown
          rw [ih, List.mem_cons]
          constructor
          · exact fun h => ⟨.inr h.1, h.2⟩
          · rintro ⟨rfl | hnames, hfree, hseen⟩
            · exact absurd hknown (not_or.2 ⟨hfree, hseen⟩)
            · exact ⟨hnames, hfree, hseen⟩
      · next hknown =>
          rw [known_iff, not_or] at hknown
          rw [List.mem_cons, ih, List.mem_cons, List.mem_cons, not_or]
          constructor
          · rintro (rfl | ⟨hnames, hfree, -, hseen⟩)
            · exact ⟨.inl rfl, hknown⟩
            · exact ⟨.inr hnames, hfree, hseen⟩
          · rintro ⟨rfl | hnames, hfree, hseen⟩
            · exact .inl rfl
            · by_cases heq : first = name
              · exact .inl heq
              · exact .inr ⟨hnames, hfree, heq, hseen⟩

theorem idxOf_cons_lt (hfirst : first ≠ name) (hsecond : second ≠ name)
    (h : names.idxOf first < names.idxOf second) :
    (name :: names).idxOf first < (name :: names).idxOf second := by
  rw [List.idxOf_cons_ne _ hfirst.symm, List.idxOf_cons_ne _ hsecond.symm]
  exact Nat.succ_lt_succ h

/-- Each name is listed where it first appears. -/
theorem pairwise_missing : (r.missing seen names).Pairwise fun first second =>
    names.idxOf first < names.idxOf second := by
  induction names generalizing seen with
  | nil => exact .nil
  | cons name names ih =>
      rw [missing]
      split
      · next hknown =>
          rw [known_iff] at hknown
          have hne : ∀ other ∈ r.missing seen names, other ≠ name := by
            rintro _ hother rfl
            exact absurd hknown (not_or.2 (mem_missing_iff.1 hother).2)
          exact ih.imp_of_mem fun hfirst hsecond => idxOf_cons_lt (hne _ hfirst) (hne _ hsecond)
      · have hne : ∀ other ∈ r.missing (name :: seen) names, other ≠ name := by
          rintro _ hother rfl
          exact (mem_missing_iff.1 hother).2.2 List.mem_cons_self
        refine List.pairwise_cons.2 ⟨fun other hother => ?_, ?_⟩
        · rw [List.idxOf_cons_self, List.idxOf_cons_ne _ (hne other hother).symm]
          exact Nat.succ_pos _
        · exact ih.imp_of_mem fun hfirst hsecond => idxOf_cons_lt (hne _ hfirst) (hne _ hsecond)

/-- The names that the bodies of the rules name, rule by rule and from left to right. -/
def mentions (r : Registry) : List Text :=
  (r.rules.flatMap (·.spec.parts)).filterMap Spec.reference?

theorem mentions_eq (r : Registry) : r.mentions = r.rules.flatMap (·.spec.references) := by
  rw [mentions, List.filterMap_flatMap]
  exact congrArg (r.rules.flatMap ·) (funext fun rule => rule.spec.references_eq_filterMap.symm)

theorem undefinedNames_eq (r : Registry) : r.undefinedNames = r.missing [] r.mentions := by
  rw [undefinedNames, mentions_eq]

theorem mem_mentions_iff : name ∈ r.mentions ↔ ∃ rule ∈ r.rules, name ∈ rule.spec.references := by
  rw [mentions_eq, List.mem_flatMap]

theorem mem_undefinedNames_iff : name ∈ r.undefinedNames ↔
    name ∈ r.mentions ∧ r.lookup? name = none := by
  rw [undefinedNames_eq, mem_missing_iff, lookup?_eq_none_iff]
  exact and_congr_right' (and_iff_left List.not_mem_nil)

/-- The errors of an evaluation: the input is to blame, or a name without a rule. -/
def Explains (r : Registry) (err : Error) : Prop :=
  err.blamesInput = true ∨ ∃ name ∈ r.undefinedNames, err = .unresolvedReference name

/-- A name that some rule names is answered with a rule, whose names rules name too, or it is
listed. -/
theorem answer_of_mem_mentions (h : name ∈ r.mentions) :
    Answer (fun _ => False) (fun err _ => r.Explains err) (· ∈ r.mentions) r r name := by
  cases hlookup : r.lookup? name with
  | none =>
      have hname : name ∈ r.undefinedNames := mem_undefinedNames_iff.2 ⟨h, hlookup⟩
      exact .missing hlookup hlookup (.inr ⟨name, hname, rfl⟩)
  | some rule =>
      exact .rule hlookup hlookup fun other hother =>
        mem_mentions_iff.2 ⟨rule, mem_of_lookup? hlookup, hother⟩

theorem explains_of_parse {policy : Whitespace} {requestedStart : Option Text} {input : Text}
    {options : ParseOptions} {rule : Rule} {err : Error}
    (hentry : r.entry options.start = .ok rule)
    (h : ((Parser.mk r policy requestedStart).parse input options).outcome = .error err) :
    r.Explains err := by
  have hrule : ∀ name ∈ rule.spec.references, name ∈ r.mentions :=
    fun name hname => mem_mentions_iff.2 ⟨rule, mem_of_entry hentry, hname⟩
  -- The parse stands beside itself, so that what is said of pairs of errors is said of each.
  have hself := Parser.parse_answered (p := .mk r policy requestedStart)
    (q := .mk r policy requestedStart) rfl rfl (fun _ => Or.inl)
    (fun _ => answer_of_mem_mentions) hentry hentry hrule input
  rw [h] at hself
  obtain ⟨_, -, hexplains⟩ := hself.of_error
  exact hexplains

/-- The list of undefined names has each name that a rule names and that has no rule, once, and
orders them by where they first appear. A parse misses no other names; so if there are none, a parse
that has a rule to start from has only errors that blame the input. -/
theorem undefinedNames_sound (r : Registry) :
    (∀ name, name ∈ r.undefinedNames ↔
      (∃ rule ∈ r.rules, .reference name ∈ rule.spec.parts) ∧ r.lookup? name = none) ∧
    r.undefinedNames.Nodup ∧
    (r.undefinedNames.Pairwise fun first second =>
      r.mentions.idxOf first < r.mentions.idxOf second) ∧
    (∀ policy requestedStart input options name,
      ((Parser.mk r policy requestedStart).parse input options).outcome =
        .error (.unresolvedReference name) → name ∈ r.undefinedNames) ∧
    (r.undefinedNames = [] → ∀ policy requestedStart input options rule err,
      r.entry options.start = .ok rule →
      ((Parser.mk r policy requestedStart).parse input options).outcome = .error err →
      err.blamesInput = true) := by
  have hpairwise := undefinedNames_eq r ▸ pairwise_missing
  refine ⟨fun name => ?_, ?_, hpairwise, ?_, ?_⟩
  · simp only [mem_undefinedNames_iff, mem_mentions_iff, Spec.mem_references_iff]
  · refine hpairwise.imp fun h heq => ?_
    rw [heq] at h
    exact Nat.lt_irrefl _ h
  · intro policy requestedStart input options name h
    cases hentry : r.entry options.start with
    | error err =>
        rw [Parser.outcome_parse, hentry] at h
        cases h
        rcases error_of_entry hentry with heq | ⟨other, heq⟩
        · cases heq
        · cases heq
    | ok rule =>
        rcases explains_of_parse hentry h with hblames | ⟨other, hother, heq⟩
        · cases hblames
        · cases heq
          exact hother
  · intro hnone policy requestedStart input options rule err hentry h
    rcases explains_of_parse hentry h with hblames | ⟨other, hother, -⟩
    · exact hblames
    · rw [hnone] at hother
      cases hother

/-- Two rules that name two others. -/
def openRules : Registry :=
  .ofRules
    [⟨['a'], .alternation [.sequence [.literal ['x'], .reference ['c']], .reference ['b']], false⟩,
      ⟨['b'], .sequence [.literal ['y'], .reference ['d'], .reference ['c']], false⟩] (some 0)

/-- Rules that name each other and nothing else. -/
def closedRules : Registry :=
  .ofRules
    [⟨['a'], .sequence [.literal ['x'], .reference ['b']], false⟩,
      ⟨['b'], .alternation [.reference ['c'], .literal ['y']], false⟩,
      ⟨['c'], .sequence [.literal ['z'], .reference ['a']], false⟩] (some 0)

/-- The name that comes first is listed first, and the parse that comes to it ends there. Where no
name is undefined, what is wrong is the input. -/
theorem undefinedNames_sound_letters :
    openRules.undefinedNames = [['c'], ['d']] ∧
    ((Parser.mk openRules .keep none).parse ['x'] {}).outcome =
      .error (.unresolvedReference ['c']) ∧
    ['c'] ∈ openRules.undefinedNames ∧
    closedRules.undefinedNames = [] ∧
    ∃ err, ((Parser.mk closedRules .keep none).parse ['x', 'y', 'x'] {}).outcome = .error err ∧
      err.blamesInput = true := by
  have hmissed : ((Parser.mk openRules .keep none).parse ['x'] {}).outcome =
      .error (.unresolvedReference ['c']) := rfl
  have hnone : closedRules.undefinedNames = [] := rfl
  have herr : ((Parser.mk closedRules .keep none).parse ['x', 'y', 'x'] {}).outcome =
      .error (.incomplete 2 ['x']) := rfl
  obtain ⟨-, -, -, hlisted, -⟩ := undefinedNames_sound openRules
  obtain ⟨-, -, -, -, hblames⟩ := undefinedNames_sound closedRules
  exact ⟨rfl, hmissed, hlisted _ _ _ _ _ hmissed, hnone, _, herr,
    hblames hnone _ _ _ _ _ _ rfl herr⟩

end Registry

end Descent
