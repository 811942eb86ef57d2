import Mathlib.Logic.Relation
import Descent.Proofs.Evaluation.Lookups
import Descent.Proofs.Parser.Reordering
import Descent.Proofs.Registry.History

/-! What a parse depends on. A parse from a name looks up the names that its rules name, directly or
through other rules, and no others; so registries in which these names stand for the same rules
parse alike, however the rules came into them. -/

namespace Descent

open Outcome (Related)

namespace Registry

variable {r r' : Registry} {name : Text}

/-- The rule that `a` stands for names `b`. -/
def Refers (r : Registry) (a b : Text) : Prop :=
  ∃ rule, r.lookup? a = some rule ∧ b ∈ rule.spec.references

/-- A name reaches itself, and the names that the rules of reached names name. -/
def Reaches (r : Registry) (name other : Text) : Prop := Relation.ReflTransGen r.Refers name other

/-- What is reached stays among names that the rules of these names keep to. -/
theorem Reaches.mem_of_closed {names : List Text} {other : Text} (h : r.Reaches name other)
    (hname : name ∈ names)
    (hclosed : ∀ rule ∈ r.rules, rule.name ∈ names → ∀ next ∈ rule.spec.references, next ∈ names) :
    other ∈ names := by
  induction h with
  | refl => exact hname
  | tail _ hstep ih =>
      obtain ⟨rule, hlookup, hnext⟩ := hstep
      exact hclosed rule (mem_of_lookup? hlookup) ((name_of_lookup? hlookup).symm ▸ ih) _ hnext

/-- With the rules of either registry all parses from the name come to the same tree, to the same
error, or to no end. -/
def ParsesAlike (name : Text) (r r' : Registry) : Prop :=
  ∀ policy requestedStart input mayLeaveRest,
    ((Parser.mk r policy requestedStart).parse input ⟨some name, mayLeaveRest⟩).outcome =
      ((Parser.mk r' policy requestedStart).parse input ⟨some name, mayLeaveRest⟩).outcome

theorem parse_of_lookup?_eq_none (h : r.lookup? name = none) (policy : Whitespace)
    (requestedStart : Option Text) (input : Text) (mayLeaveRest : Bool) :
    ((Parser.mk r policy requestedStart).parse input ⟨some name, mayLeaveRest⟩).outcome =
      .error (.unknownEntryPoint name) := by
  have hentry : r.entry (some name) = .error (.unknownEntryPoint name) := by rw [entry, h]
  rw [Parser.outcome_parse, hentry]

/-- A name that is reached is answered alike, and so are the names of its rule. -/
theorem answer_of_reaches (h : ∀ other, r.Reaches name other → r.lookup? other = r'.lookup? other)
    {other : Text} (hother : r.Reaches name other) :
    Answer (fun _ => False) Eq (r.Reaches name) r r' other := by
  cases hlookup : r.lookup? other with
  | none => exact .missing hlookup ((h other hother).symm.trans hlookup) rfl
  | some rule =>
      refine .rule hlookup ((h other hother).symm.trans hlookup) fun next hnext => ?_
      exact Relation.ReflTransGen.tail hother ⟨rule, hlookup, hnext⟩

theorem parsesAlike_of_reaches
    (h : ∀ other, r.Reaches name other → r.lookup? other = r'.lookup? other) :
    ParsesAlike name r r' := by
  intro policy requestedStart input mayLeaveRest
  have hname := h name Relation.ReflTransGen.refl
  cases hlookup : r.lookup? name with
  | none =>
      rw [parse_of_lookup?_eq_none hlookup, parse_of_lookup?_eq_none (hname.symm.trans hlookup)]
  | some rule =>
      have hrule : ∀ next ∈ rule.spec.references, r.Reaches name next :=
        fun next hnext => Relation.ReflTransGen.single ⟨rule, hlookup, hnext⟩
      exact (Parser.parse_answered (p := .mk r policy requestedStart)
        (q := .mk r' policy requestedStart) rfl rfl (fun _ _ => rfl)
        (fun _ => answer_of_reaches h) (entry_of_lookup? hlookup)
        (entry_of_lookup? (hname.symm.trans hlookup)) hrule input).eq_of_strict id

theorem parsesAlike_of_lookup? (h : ∀ other, r.lookup? other = r'.lookup? other) :
    ParsesAlike name r r' := parsesAlike_of_reaches fun other _ => h other

/-- A name that was free, and is registered and then replaced, stands for what it stands for if it
is registered once. -/
theorem lookup?_insert_replaced {place : Text} (hfree : place ∉ r.names) (old new : Spec)
    {first again once : Registration} (hreplace : again.replace = true)
    (hwhitespace : once.whitespace = again.whitespace) (other : Text) :
    ((r.insert place old first).state.insert place new again).state.lookup? other =
      (r.insert place new once).state.lookup? other := by
  rw [lookup?_insert (.inr hreplace), lookup?_insert (.inl hfree), lookup?_insert (.inl hfree),
    hwhitespace]
  split
  · rfl
  · rfl

/-- Parses from a name depend on what stands for the names that it reaches, and on nothing else of
the registry. So the lines of a block may be loaded in any order, rules that are not reached may be
added and replaced, and a rule may be replaced instead of being registered as it is. -/
theorem parse_depends_on_reachable :
    (∀ (r r' : Registry) name,
      (∀ other, r.Reaches name other → r.lookup? other = r'.lookup? other) →
      ParsesAlike name r r') ∧
    (∀ text text' ds, (Text.lines text).Perm (Text.lines text') →
      Grammar.compile text = .ok ds →
      ∃ ds', Grammar.compile text' = .ok ds' ∧ ∀ (p : Parser) name,
        ParsesAlike name (p.load text).state.registry (p.load text').state.registry) ∧
    (∀ (r : Registry) name ops,
      (∀ rule ∈ Operation.history r ops, ¬r.Reaches name rule.name) →
      ParsesAlike name r (Operation.performAll r ops)) ∧
    ∀ (r : Registry) place old new first again once, place ∉ r.names → again.replace = true →
      once.whitespace = again.whitespace → ∀ name,
      ParsesAlike name ((r.insert place old first).state.insert place new again).state
        (r.insert place new once).state := by
  refine ⟨fun r r' name => parsesAlike_of_reaches, ?_, ?_, ?_⟩
  · intro text text' ds hlines hcompile
    obtain ⟨ds', hcompile', hlookup⟩ := Parser.lookup?_load_perm hlines hcompile
    exact ⟨ds', hcompile', fun p name => parsesAlike_of_lookup? (hlookup p)⟩
  · intro r name ops hops
    refine parsesAlike_of_reaches fun other hother => ?_
    exact (lookup?_performAll fun rule hrule heq => hops rule hrule (heq ▸ hother)).symm
  · intro r place old new first again once hfree hreplace hwhitespace name
    exact parsesAlike_of_lookup? (lookup?_insert_replaced hfree old new hreplace hwhitespace)

/-- A list of letters, and a rule that no list comes to. -/
def listOfLetters : Registry :=
  .ofRules
    [⟨['a'], .alternation [.sequence [.reference ['b'], .reference ['a']], .reference ['b']], false⟩,
      ⟨['b'], .literal ['x'], false⟩, ⟨['c'], .reference ['a'], false⟩] (some 0)

def listBlock : Text := "a := b a | b\nb := 'x'\nc := a".toList

/-- The same block upside down. -/
def listBlockTurned : Text := "c := a\nb := 'x'\na := b a | b".toList

/-- A list of one letter is parsed alike from the block upside down. The rule that no list comes to
may be replaced, also by one that ends no parse. -/
theorem parse_depends_on_reachable_list :
    let ops := [Operation.insert ['c'] (.reference ['c']) { replace := true }]
    (Text.lines listBlock).Perm (Text.lines listBlockTurned) ∧
    (∃ ds, Grammar.compile listBlock = .ok ds) ∧
    (∀ rule ∈ Operation.history listOfLetters ops, ¬listOfLetters.Reaches ['a'] rule.name) ∧
    ((Parser.mk (Parser.load {} listBlockTurned).state.registry .keep none).parse ['x']
      { start := some ['a'] }).outcome = .ok (.node ['a'] [.leaf ['b'] ['x']]) ∧
    ((Parser.mk (Operation.performAll listOfLetters ops) .keep none).parse ['x']
      { start := some ['a'] }).outcome = .ok (.node ['a'] [.leaf ['b'] ['x']]) := by
  intro ops
  have hlines : Text.lines listBlock =
      ["a := b a | b".toList, "b := 'x'".toList, "c := a".toList] := by cbv
  have hlines' : Text.lines listBlockTurned =
      ["c := a".toList, "b := 'x'".toList, "a := b a | b".toList] := by cbv
  have hperm : (Text.lines listBlock).Perm (Text.lines listBlockTurned) := by
    rw [hlines, hlines']
    exact (List.reverse_perm _).symm
  have hcompile : Grammar.compile listBlock =
      .ok [⟨['a'], .alternation [.sequence [.reference ['b'], .reference ['a']], .reference ['b']], 1⟩,
        ⟨['b'], .literal ['x'], 2⟩, ⟨['c'], .reference ['a'], 3⟩] := by cbv
  have hclosed : ∀ rule ∈ listOfLetters.rules, rule.name ∈ [['a'], ['b']] →
      ∀ next ∈ rule.spec.references, next ∈ [['a'], ['b']] := by
    intro rule hrule
    simp only [listOfLetters, Registry.rules_ofRules, List.mem_cons, List.not_mem_nil,
      or_false] at hrule
    rcases hrule with rfl | rfl | rfl
    · simp [Spec.references, Spec.referencesAll]
    · simp [Spec.references]
    · simp
  have hunreached : ∀ rule ∈ Operation.history listOfLetters ops,
      ¬listOfLetters.Reaches ['a'] rule.name := by
    intro rule hrule hreach
    have hname : rule.name = ['c'] := by
      rw [List.mem_singleton.1 hrule]
    have hmem := hreach.mem_of_closed List.mem_cons_self hclosed
    rw [hname] at hmem
    exact absurd hmem (by decide)
  obtain ⟨-, hload, hops, -⟩ := parse_depends_on_reachable
  obtain ⟨-, -, hsame⟩ := hload listBlock listBlockTurned _ hperm hcompile
  refine ⟨hperm, ⟨_, hcompile⟩, hunreached, ?_, ?_⟩
  · exact (hsame {} ['a'] .keep none ['x'] false).symm.trans (by cbv)
  · exact (hops listOfLetters ['a'] ops hunreached .keep none ['x'] false).symm.trans (by cbv)

end Registry

end Descent
