import Descent.Proofs.Evaluation.Termination
import Descent.Proofs.Parser.Requests
import Descent.Proofs.Token.Flattening

/-! Lists. A rule that takes an item and then itself, or else one item, takes items for as long as
there are any. The last item is read twice: the rule fails behind it, and only then the second
branch takes it alone. The tree leans to the right, and flattening puts the items side by side. -/

namespace Descent

namespace Token

/-- The tree of a rule that names itself behind every item but the last. -/
def chain (type : Text) : List Token → Token
  | [] => .node type []
  | [t] => .node type [t]
  | t :: u :: ts => .node type [t, chain type (u :: ts)]

theorem type_chain (type : Text) (ts : List Token) : (chain type ts).type = type := by
  unfold chain
  split <;> rfl

theorem isLeaf_chain (type : Text) (ts : List Token) : (chain type ts).isLeaf = false := by
  unfold chain
  split <;> rfl

/-- Flattening takes a list of items of another type out of its tree. -/
theorem flatten_chain {type : Text} {ts : List Token} (h : ∀ t ∈ ts, t.type ≠ type) :
    (chain type ts).flatten = .node type ts := by
  induction ts using chain.induct with
  | case1 => rfl
  | case2 t =>
      have ht : ¬IsNode type t := fun hnode => h t (List.mem_singleton_self t) hnode.2
      rw [chain, flatten_node, List.flatMap_singleton, spread_of_not_isNode ht]
  | case3 t u ts ih =>
      have ht : ¬IsNode type t := fun hnode => h t List.mem_cons_self hnode.2
      have hmore : IsNode type (chain type (u :: ts)) := ⟨isLeaf_chain type _, type_chain type _⟩
      rw [chain, flatten_node, List.flatMap_cons, List.flatMap_singleton, spread_of_not_isNode ht,
        ← children_flatten hmore, ih fun t' ht' => h t' (List.mem_cons_of_mem t ht')]
      rfl

end Token

/-- An item with the list behind it, or else one item. -/
def Spec.listOf (item list : Text) : Spec :=
  .alternation [.sequence [.reference item, .reference list], .reference item]

theorem Match.typedAfter_named {token : Token} {name : Text} (h : token.type ≠ name) :
    Match.typedAfter ⟨token, true⟩ name = .node name [token] := if_neg h

theorem Match.typedAfter_sequence (tokens : List Token) (name : Text) :
    Match.typedAfter ⟨.node Token.sequenceType tokens, false⟩ name = .node name tokens := by
  by_cases h : Token.sequenceType = name
  · subst h
    exact if_pos rfl
  · exact if_neg h

namespace Evaluation

/-- The name is evaluated on the input and then on what each success leaves, until it fails. -/
inductive Repeats (e : Evaluation) (name : Text) : Text → List Token → Text → Prop
  | failed {input : Text} : (e.spec (.reference name) input).outcome = .ok (none, input) →
      Repeats e name input [] input
  | matched {input mid rest : Text} {token : Token} {tokens : List Token} :
      (e.spec (.reference name) input).outcome = .ok (some token, mid) →
      Repeats e name mid tokens rest → Repeats e name input (token :: tokens) rest

section

variable {e : Evaluation} {item list base input rest : Text} {token : Token} {tokens : List Token}

/-- The token of a name is typed after it. -/
theorem typed_of_call {n : Nat} {name : Text} {m : Match}
    (h : (e.call n name input).outcome = .ok (some m, rest)) :
    m.named = true ∧ m.token.type = name := by
  cases n with
  | zero => cases h
  | succ n =>
      rw [call_succ] at h
      cases hlookup : e.registry.lookup? name with
      | none =>
          rw [hlookup] at h
          cases h
      | some rule =>
          rw [hlookup, outcome_apply] at h
          obtain ⟨start, -, h⟩ := Outcome.bind_eq_ok_iff.1 h
          obtain ⟨⟨m', rest'⟩, -, h⟩ := Outcome.bind_eq_ok_iff.1 h
          cases m' with
          | none => cases h
          | some m' =>
              cases h
              refine ⟨rfl, ?_⟩
              rw [Match.type_typedAfter, Registry.name_of_lookup? hlookup]

/-- What a name comes to on an end of `base` it also comes to with the depth for `base`. -/
theorem call_of_reference {name : Text} {found : Option Token} (hbase : input <:+ base)
    (h : (e.spec (.reference name) input).outcome = .ok (found, rest)) :
    (e.call (e.depth base) name input).outcome = .ok (found.map (⟨·, true⟩), rest) := by
  unfold Evaluation.spec at h
  rw [Run.outcome_bind] at h
  obtain ⟨⟨m, rest'⟩, hbody, hstrip⟩ := Outcome.bind_eq_ok_iff.1 h
  have hcall : (e.call (e.depth base) name input).outcome = .ok (m, rest') :=
    (body_at_depth hbase (hbody ▸ nofun)).trans hbody
  cases m with
  | none =>
      cases hstrip
      exact hcall
  | some m =>
      obtain ⟨token, named⟩ := m
      obtain ⟨rfl, -⟩ : named = true ∧ token.type = name := typed_of_call hcall
      cases hstrip
      exact hcall

theorem type_of_reference {name : Text}
    (h : (e.spec (.reference name) input).outcome = .ok (some token, rest)) :
    token.type = name :=
  (typed_of_call (call_of_reference (List.suffix_refl input) h)).2

theorem suffix_of_reference {name : Text}
    (h : (e.spec (.reference name) input).outcome = .ok (some token, rest)) : rest <:+ input := by
  have hbody : (e.body (e.call (e.depth input)) (.reference name) input).outcome =
      .ok (some ⟨token, true⟩, rest) := call_of_reference (List.suffix_refl input) h
  exact suffix_of_body hbody

theorem Repeats.type_eq (h : e.Repeats item input tokens rest) : ∀ t ∈ tokens, t.type = item := by
  induction h with
  | failed _ => exact nofun
  | matched hitem _ ih => exact List.forall_mem_cons.2 ⟨type_of_reference hitem, ih⟩

theorem Repeats.eq_of_nil (h : e.Repeats item input [] rest) : rest = input := by
  cases h
  rfl

section

variable {call : Text → Text → Run Attempt} {m m' : Match} {mid : Text}

theorem body_listOf_of_none (hitem : (call item input).outcome = .ok (none, mid)) :
    (e.body call (.listOf item list) input).outcome = .ok (none, input) := by
  simp only [Spec.listOf, body_alternation, body_reference, alternation_nil, outcome_alternation_cons,
    outcome_body_sequence, outcome_sequence_cons, Outcome.bind, Run.outcome_pure, hitem]

/-- Where no list follows, the item is met again by the second branch. -/
theorem body_listOf_of_last (hitem : (call item input).outcome = .ok (some m, mid))
    (hlist : (call list mid).outcome = .ok (none, rest)) :
    (e.body call (.listOf item list) input).outcome = .ok (some m, mid) := by
  simp only [Spec.listOf, body_alternation, body_reference, outcome_alternation_cons,
    outcome_body_sequence, outcome_sequence_cons, Outcome.bind, hitem, hlist]

theorem body_listOf_of_more (hitem : (call item input).outcome = .ok (some m, mid))
    (hlist : (call list mid).outcome = .ok (some m', rest)) :
    (e.body call (.listOf item list) input).outcome =
      .ok (some ⟨.node Token.sequenceType [m.token, m'.token], false⟩, rest) := by
  simp only [Spec.listOf, body_alternation, body_reference, sequence_nil, outcome_alternation_cons,
    outcome_body_sequence, outcome_sequence_cons, Outcome.bind, Run.outcome_pure, hitem, hlist]

end

/-- What a list of items is found as: no items are no list. -/
def foundAs (list : Text) : List Token → Option Token
  | [] => none
  | token :: tokens => some (.chain list (token :: tokens))

/-- The step with a name, where nothing is skipped before its rule. -/
theorem outcome_call_body {rule : Rule} (hlookup : e.registry.lookup? rule.name = some rule)
    (hspec : ∀ matcher, rule.spec = .custom matcher → rule.whitespace = false)
    (hbase : input <:+ base) :
    (e.call (e.depth base) rule.name input).outcome =
      (e.body (e.call (e.depth base)) rule.spec input).outcome.bind fun
        | (some m, rest) => .ok (some ⟨m.typedAfter rule.name, true⟩, rest)
        | (none, _) => .ok (none, input) := by
  rw [outcome_call_depth hbase hlookup, outcome_apply, start_eq_pure hspec, Run.outcome_pure]
  rfl

/-- The list takes the items for as long as there are any. -/
theorem call_listOf {rule : Rule} (hlookup : e.registry.lookup? rule.name = some rule)
    (hspec : rule.spec = .listOf item rule.name) (hne : item ≠ rule.name)
    (h : e.Repeats item input tokens rest) (hbase : input <:+ base) :
    (e.call (e.depth base) rule.name input).outcome =
      .ok ((foundAs rule.name tokens).map (⟨·, true⟩), rest) := by
  have hcustom : ∀ matcher, rule.spec = .custom matcher → rule.whitespace = false :=
    fun _ h => nomatch hspec.symm.trans h
  induction h with
  | failed hitem =>
      rw [outcome_call_body hlookup hcustom hbase, hspec,
        body_listOf_of_none (call_of_reference hbase hitem)]
      rfl
  | @matched input mid rest token tokens hitem hmore ih =>
      have hcall := call_of_reference hbase hitem
      have hlist := ih ((suffix_of_reference hitem).trans hbase)
      rw [outcome_call_body hlookup hcustom hbase, hspec]
      cases tokens with
      | nil =>
          have htype : token.type ≠ rule.name := type_of_reference hitem ▸ hne
          rw [body_listOf_of_last hcall hlist, hmore.eq_of_nil]
          show Outcome.ok (some (Match.mk (Match.typedAfter ⟨token, true⟩ rule.name) true), mid) = _
          rw [Match.typedAfter_named htype]
          rfl
      | cons next tokens =>
          rw [body_listOf_of_more hcall hlist]
          show Outcome.ok (some (Match.mk (Match.typedAfter
            ⟨.node Token.sequenceType [token, _], false⟩ rule.name) true), rest) = _
          rw [Match.typedAfter_sequence]
          rfl

theorem reference_listOf {rule : Rule} (hlookup : e.registry.lookup? rule.name = some rule)
    (hspec : rule.spec = .listOf item rule.name) (hne : item ≠ rule.name)
    (h : e.Repeats item input tokens rest) :
    (e.spec (.reference rule.name) input).outcome = .ok (foundAs rule.name tokens, rest) := by
  unfold Evaluation.spec
  rw [body_reference, Run.outcome_bind, call_listOf hlookup hspec hne h (List.suffix_refl input)]
  cases tokens <;> rfl

theorem rule_eq_reference {rule : Rule} (hlookup : e.registry.lookup? rule.name = some rule) :
    (e.rule rule input).outcome = (e.spec (.reference rule.name) input).outcome := by
  unfold Evaluation.rule Evaluation.spec
  rw [body_reference, Run.outcome_bind, Run.outcome_bind,
    outcome_call_depth (List.suffix_refl input) hlookup]

end

section

variable {e : Evaluation} {type : Text} {inClass : Char → Bool} {whitespace : Bool}

/-- Where nothing is skipped, the name of a function for one character comes to what the function
answers. -/
theorem reference_one
    (hlookup : e.registry.lookup? type =
      some ⟨type, .custom (CharacterRule.one type inClass), whitespace⟩)
    (hkeep : e.whitespace = .keep) (input : Text) :
    (e.spec (.reference type) input).outcome = .ok (CharacterRule.one type inClass input) := by
  have hstart : ∀ rule, e.start rule input = pure input := by
    intro rule
    rcases start_eq e rule input with ⟨_, -, -, hstart⟩ | ⟨-, hstart⟩
    · rw [hstart, hkeep]
      rfl
    · exact hstart
  have hrule : (e.rule ⟨type, .custom (CharacterRule.one type inClass), whitespace⟩ input).outcome =
      (e.spec (.reference type) input).outcome := rule_eq_reference hlookup
  rw [← hrule]
  unfold Evaluation.rule
  rw [Run.outcome_bind, outcome_apply, hstart, Run.outcome_pure]
  show ((custom (CharacterRule.one type inClass) input).outcome.bind _).bind _ = _
  cases input with
  | nil => rfl
  | cons c rest =>
      by_cases hc : inClass c = true
      · have hmatch : CharacterRule.one type inClass ([c] ++ rest) =
            (some (.leaf type [c]), rest) := if_pos hc
        rw [← List.singleton_append, outcome_custom_of_match hmatch, hmatch]
        exact congrArg (fun t => Outcome.ok (some t, rest)) (if_pos rfl)
      · have hfail : CharacterRule.one type inClass (c :: rest) = (none, c :: rest) := if_neg hc
        unfold custom
        rw [hfail]
        rfl

/-- The characters of the class are taken one after the other. -/
theorem repeats_one
    (hlookup : e.registry.lookup? type =
      some ⟨type, .custom (CharacterRule.one type inClass), whitespace⟩)
    (hkeep : e.whitespace = .keep) (input : Text) :
    e.Repeats type input ((input.takeWhile inClass).map fun c => .leaf type [c])
      (input.dropWhile inClass) := by
  induction input with
  | nil => exact .failed (reference_one hlookup hkeep [])
  | cons c input ih =>
      have hone := reference_one hlookup hkeep (c :: input)
      rw [CharacterRule.one] at hone
      by_cases hc : inClass c = true
      · rw [if_pos hc] at hone
        rw [List.takeWhile_cons_of_pos hc, List.dropWhile_cons_of_pos hc]
        exact .matched hone ih
      · rw [if_neg hc] at hone
        rw [List.takeWhile_cons_of_neg hc, List.dropWhile_cons_of_neg hc]
        exact .failed hone

end

end Evaluation

namespace Parser

/-- What a parse of a list comes to: the items are taken, and nothing may be left behind them. -/
theorem parse_listOf {p : Parser} {rule : Rule} {item input rest : Text} {tokens : List Token}
    {start : Option Text} (hentry : p.registry.entry start = .ok rule)
    (hlookup : p.registry.lookup? rule.name = some rule)
    (hspec : rule.spec = .listOf item rule.name) (hne : item ≠ rule.name)
    (h : (Evaluation.mk p.registry p.whitespace input).Repeats item input tokens rest)
    (token : Token) :
    (p.parse input ⟨start, false⟩).outcome = .ok token ↔
      tokens ≠ [] ∧ rest = [] ∧ token = .chain rule.name tokens := by
  have hrule := (Evaluation.rule_eq_reference hlookup).trans
    (Evaluation.reference_listOf hlookup hspec hne h)
  rw [outcome_parse, hentry]
  show Outcome.bind _ _ = _ ↔ _
  rw [hrule]
  cases tokens with
  | nil => exact iff_of_false nofun fun h => h.1 rfl
  | cons t ts =>
      cases rest with
      | nil =>
          show Outcome.ok (Token.chain rule.name (t :: ts)) = .ok token ↔ _
          simp [eq_comm]
      | cons c rest => exact iff_of_false nofun fun h => nomatch h.2.1

/-- A rule that takes an item and then itself, or else one item, takes as many items as there are
and at least one; flattened, its token has just these items. With letters as items it accepts the
texts of letters. -/
theorem list_takes_all_items :
    (∀ (e : Evaluation) rule item, e.registry.lookup? rule.name = some rule →
      rule.spec = .listOf item rule.name → item ≠ rule.name → ∀ input tokens rest,
      e.Repeats item input tokens rest →
        (tokens = [] → (e.spec (.reference rule.name) input).outcome = .ok (none, input)) ∧
        (tokens ≠ [] → ∃ token, (e.spec (.reference rule.name) input).outcome =
            .ok (some token, rest) ∧ token.isLeaf = false ∧ token.type = rule.name ∧
          token.flatten = .node rule.name tokens)) ∧
    ∀ (p : Parser) rule start whitespace, p.whitespace = .keep →
      p.registry.lookup? "alpha".toList =
        some ⟨"alpha".toList, .custom CharacterRule.alpha, whitespace⟩ →
      p.registry.lookup? rule.name = some rule → rule.spec = .listOf "alpha".toList rule.name →
      p.registry.entry start = .ok rule → ∀ input,
        ((∃ token, (p.parse input ⟨start, false⟩).outcome = .ok token) ↔
          input ≠ [] ∧ ∀ c ∈ input, isAlphabetic c = true) ∧
        ∀ token, (p.parse input ⟨start, false⟩).outcome = .ok token →
          token.flatten = .node rule.name (input.map fun c => .leaf "alpha".toList [c]) := by
  refine ⟨fun e rule item hlookup hspec hne input tokens rest h => ?_, ?_⟩
  · have hfound := Evaluation.reference_listOf hlookup hspec hne h
    refine ⟨?_, fun htokens => ?_⟩
    · rintro rfl
      rw [hfound, h.eq_of_nil]
      rfl
    · obtain ⟨token, more, rfl⟩ := List.exists_cons_of_ne_nil htokens
      refine ⟨_, hfound, Token.isLeaf_chain _ _, Token.type_chain _ _, Token.flatten_chain ?_⟩
      exact fun t ht => h.type_eq t ht ▸ hne
  · intro p rule start whitespace hkeep halpha hlookup hspec hentry input
    have hne : "alpha".toList ≠ rule.name := by
      intro hname
      rw [← hname, halpha] at hlookup
      cases hlookup
      cases hspec
    have hrepeats := Evaluation.repeats_one (e := .mk p.registry p.whitespace input) halpha hkeep input
    have hparse := parse_listOf hentry hlookup hspec hne hrepeats
    refine ⟨?_, fun token htoken => ?_⟩
    · constructor
      · rintro ⟨token, htoken⟩
        obtain ⟨htaken, hrest, -⟩ := (hparse token).1 htoken
        refine ⟨?_, List.dropWhile_eq_nil_iff.1 hrest⟩
        rintro rfl
        exact htaken rfl
      · rintro ⟨hne, hall⟩
        refine ⟨_, (hparse _).2 ⟨?_, List.dropWhile_eq_nil_iff.2 hall, rfl⟩⟩
        rw [List.takeWhile_eq_self_iff.2 hall]
        exact fun h => hne (List.map_eq_nil_iff.1 h)
    · obtain ⟨-, hrest, rfl⟩ := (hparse token).1 htoken
      rw [Token.flatten_chain fun t ht => hrepeats.type_eq t ht ▸ hne,
        List.takeWhile_eq_self_iff.2 (List.dropWhile_eq_nil_iff.1 hrest)]

/-- A list of letters, and the character rules. -/
def nameParser : Parser :=
  Request.performAll {} [.define "name".toList "alpha name | alpha".toList {},
    .loadCharacterRules {}]

def nameRule : Rule := ⟨"name".toList, .listOf "alpha".toList "name".toList, false⟩

/-- A text with a letter of two bytes is a list of letters, and of a text with a digit the letters
before it are one. -/
theorem list_takes_all_items_letters :
    let e : Evaluation := ⟨nameParser.registry, nameParser.whitespace, "né1".toList⟩
    let letters : List Token := [.leaf "alpha".toList ['n'], .leaf "alpha".toList ['é']]
    nameParser.registry.lookup? "alpha".toList =
      some ⟨"alpha".toList, .custom CharacterRule.alpha, false⟩ ∧
    nameParser.registry.lookup? nameRule.name = some nameRule ∧
    nameParser.registry.entry none = .ok nameRule ∧
    e.Repeats "alpha".toList e.source letters ['1'] ∧
    (∃ token, (e.spec (.reference nameRule.name) e.source).outcome = .ok (some token, ['1']) ∧
      token.flatten = .node nameRule.name letters) ∧
    (∃ token, (nameParser.parse "né".toList {}).outcome = .ok token) ∧
    ∀ token, (nameParser.parse "né".toList {}).outcome = .ok token →
      token.flatten = .node nameRule.name letters := by
  intro e letters
  have halpha : nameParser.registry.lookup? "alpha".toList =
      some ⟨"alpha".toList, .custom CharacterRule.alpha, false⟩ := by cbv
  have hname : nameParser.registry.lookup? nameRule.name = some nameRule := by cbv
  have hentry : nameParser.registry.entry none = .ok nameRule := by cbv
  have hkeep : nameParser.whitespace = .keep := by cbv
  have hletters : ∀ c ∈ "né".toList, isAlphabetic c = true := List.all_eq_true.1 (by decide +kernel)
  have hrepeats : e.Repeats "alpha".toList e.source letters ['1'] :=
    Evaluation.repeats_one (e := e) halpha hkeep e.source
  obtain ⟨hlists, hnames⟩ := list_takes_all_items
  obtain ⟨token, hspec, -, -, hflat⟩ := (hlists e nameRule _ hname rfl (by decide) _ _ _ hrepeats).2
    (List.cons_ne_nil _ _)
  obtain ⟨haccepts, hflatten⟩ := hnames nameParser nameRule none _ hkeep halpha hname rfl hentry
    "né".toList
  exact ⟨halpha, hname, hentry, hrepeats, ⟨token, hspec, hflat⟩,
    haccepts.2 ⟨List.cons_ne_nil _ _, hletters⟩, hflatten⟩

end Parser

end Descent
