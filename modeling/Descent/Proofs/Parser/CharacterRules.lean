import Descent.Proofs.Evaluation.Reachability
import Descent.Proofs.Parser.StartHistory

/-! Loading the character rules beside a block. The rules stand in another order, and have other
handles, if the block is loaded first; but names are all that a parse looks at, and with different
names the order does not show. The rules are loaded once, whatever was there before. -/

namespace Descent

open Grammar (Fresh)
open Registry (matcherRule)

namespace Registry

variable {r : Registry} {name : Text}

/-- The start rule is the rule to start from if none is asked for. -/
theorem StartsFrom.entry (h : StartsFrom r (some name)) : r.entry none = r.entry (some name) := by
  have hstart : r.start? = r.lookup? name := h.start?_eq
  have hsome : (r.lookup? name).isSome := by
    rw [isSome_lookup?]
    exact contains_iff.2 (h.known name rfl)
  obtain ⟨rule, hrule⟩ := Option.isSome_iff_exists.1 hsome
  rw [Registry.entry, Registry.entry, hstart, hrule]

end Registry

namespace Parser

variable {p q : Parser} {first : Option Text} {text : Text} {ds : List Definition}
variable {options : Registration}

/-- Two parsers that cannot be told apart by the names of their rules and by what they parse. Their
rules may have different handles. -/
structure Interchangeable (p q : Parser) : Prop where
  start : p.registry.start?.map (·.name) = q.registry.start?.map (·.name)
  lookup? : ∀ name, p.registry.lookup? name = q.registry.lookup? name
  parse : ∀ input options, (p.parse input options).outcome = (q.parse input options).outcome

theorem Led.interchangeable (hp : p.Led first) (hq : q.Led first)
    (hpolicy : q.whitespace = p.whitespace)
    (hlookup : ∀ name, p.registry.lookup? name = q.registry.lookup? name) :
    Interchangeable p q where
  start := hp.startsFrom.name_start?.trans hq.startsFrom.name_start?.symm
  lookup? := hlookup
  parse input options := by
    have hnamed : ∀ name mayLeaveRest, (p.parse input ⟨some name, mayLeaveRest⟩).outcome =
        (q.parse input ⟨some name, mayLeaveRest⟩).outcome := by
      intro name mayLeaveRest
      have hq' : q = ⟨q.registry, p.whitespace, p.requestedStart⟩ := by
        rw [← hpolicy, hp.unasked, ← hq.unasked]
      rw [hq']
      exact Registry.parsesAlike_of_lookup? hlookup p.whitespace p.requestedStart input mayLeaveRest
    obtain ⟨_ | name, mayLeaveRest⟩ := options
    · cases first with
      | none =>
          have hentry : ∀ {p : Parser}, p.Led none → p.registry.entry none = .error .noEntryPoint := by
            intro p hp
            rw [Registry.entry, hp.startsFrom.start?_eq]
            rfl
          rw [outcome_parse, outcome_parse, hentry hp, hentry hq]
      | some name =>
          have hentry : ∀ {p : Parser}, p.Led (some name) →
              (p.parse input ⟨none, mayLeaveRest⟩).outcome =
                (p.parse input ⟨some name, mayLeaveRest⟩).outcome := by
            intro p hp
            rw [outcome_parse, outcome_parse, hp.startsFrom.entry]
          rw [hentry hp, hentry hq, hnamed]
    · exact hnamed name mayLeaveRest

theorem exists_of_load {handles : List Nat} (h : (p.load text).result = .ok handles) :
    ∃ ds, Grammar.compile text = .ok ds ∧ Fresh p.registry.names ds := by
  have hnodup : ∀ ds, Grammar.compile text = .ok ds → (ds.map (·.name)).Nodup :=
    fun _ => Grammar.nodup_of_compileEntries
  rcases loadCompiled_cases (p := p) hnodup with ⟨_, herr, -⟩ | ⟨ds, hds, hfresh, -⟩
  · rw [load, herr] at h
    cases h
  · exact ⟨ds, hds, hfresh⟩

/-- A block that compiles is loaded wherever its names are free. -/
theorem load_of_fresh (hcompile : Grammar.compile text = .ok ds) (h : Fresh p.registry.names ds) :
    (p.load text).result = .ok (List.range' p.registry.size ds.length) ∧
      Registers {} p (ds.map Definition.rule) (p.load text).state := by
  rw [load, hcompile, loadCompiled, registerTogether, find?_eq_none_iff.2 h.free]
  exact ⟨(registerAll_of_fresh h).1, registers_registerAll h⟩

/-- Where all names are taken nothing is registered. -/
theorem registerMissing_of_taken {fs : List (Text × Matcher)}
    (h : ∀ f ∈ fs, f.1 ∈ p.registry.names) : p.registerMissing options fs = .ok p 0 := by
  induction fs with
  | nil => rfl
  | cons f fs ih =>
      obtain ⟨hf, hfs⟩ := List.forall_mem_cons.1 h
      rw [registerMissing, if_pos (Registry.contains_iff.2 hf)]
      exact ih hfs

/-- Once the character rules are loaded all their names are taken. -/
theorem mem_names_loadCharacterRules (p : Parser) (options : Registration) :
    ∀ f ∈ CharacterRule.all, f.1 ∈ (p.loadCharacterRules options).state.registry.names := by
  intro f hf
  rw [(Registry.appended_loadCharacterRules p options).2.names, List.mem_append]
  by_cases hname : f.1 ∈ p.registry.names
  · exact .inl hname
  · refine .inr (List.mem_map.2 ⟨_, List.mem_map_of_mem (List.mem_filter.2 ⟨hf, ?_⟩), rfl⟩)
    rw [Bool.not_eq_true', ← Bool.not_eq_true, Registry.contains_iff]
    exact hname

theorem loadCharacterRules_again (p : Parser) (options options' : Registration) :
    (p.loadCharacterRules options).state.loadCharacterRules options' =
      .ok (p.loadCharacterRules options).state 0 := by
  rw [loadCharacterRules, registerMissing_of_taken (p.mem_names_loadCharacterRules options)]
  -- The start rule that is put back has not moved.
  unfold Change.andThen
  cases options'.start with
  | true => rfl
  | false => rfl

/-- The block takes no name that a character rule has, so the same character rules are free. -/
theorem filter_contains_of_appended {rules : List Rule} (h : Appended p rules q)
    (hrules : ∀ rule ∈ rules, rule.name ∉ CharacterRule.all.map Prod.fst) :
    CharacterRule.all.filter (!q.registry.contains ·.1) =
      CharacterRule.all.filter (!p.registry.contains ·.1) := by
  refine List.filter_congr fun f hf => congrArg (!·) ?_
  rw [Bool.eq_iff_iff, Registry.contains_iff, Registry.contains_iff, h.names, List.mem_append]
  refine or_iff_left fun hname => ?_
  obtain ⟨rule, hrule, heq⟩ := List.mem_map.1 hname
  exact hrules rule hrule (heq ▸ List.mem_map_of_mem hf)

/-- Rules of different names are found in either order. -/
theorem or_find?_comm {rules rules' : List Rule} {names : List Text}
    (h : ∀ rule ∈ rules, rule.name ∉ names) (h' : ∀ rule ∈ rules', rule.name ∈ names)
    (name : Text) : (rules.find? (·.name = name)).or (rules'.find? (·.name = name)) =
      (rules'.find? (·.name = name)).or (rules.find? (·.name = name)) := by
  cases hfind : rules.find? (·.name = name) with
  | none => exact Option.or_none.symm
  | some rule =>
      have hname : rule.name = name := by simpa using List.find?_some hfind
      have hnone : rules'.find? (·.name = name) = none := by
        refine List.find?_eq_none.2 fun rule' hrule' heq => ?_
        have hrule : rule'.name = rule.name := (of_decide_eq_true heq).trans hname.symm
        exact h rule (List.mem_of_find?_eq_some hfind) (hrule ▸ h' rule' hrule')
      rw [hnone]
      rfl

/-- A block that takes no name of a character rule. -/
theorem load_comm (hp : p.Led first) (hstart : options.start = false)
    (hcompile : Grammar.compile text = .ok ds) (hfresh : Fresh p.registry.names ds)
    (hds : ∀ d ∈ ds, d.name ∉ CharacterRule.all.map Prod.fst) :
    ((p.load text).state.loadCharacterRules options).result =
        .ok (CharacterRule.all.filter (!p.registry.contains ·.1)).length ∧
      ((p.loadCharacterRules options).state.load text).result =
        .ok (List.range' (p.registry.size +
          (CharacterRule.all.filter (!p.registry.contains ·.1)).length) ds.length) ∧
      Interchangeable ((p.load text).state.loadCharacterRules options).state
        ((p.loadCharacterRules options).state.load text).state := by
  have hrules : ∀ rule ∈ ds.map Definition.rule, rule.name ∉ CharacterRule.all.map Prod.fst := by
    intro _ hrule
    obtain ⟨d, hd, rfl⟩ := List.mem_map.1 hrule
    exact hds d hd
  have hcharacter : ∀ rule ∈ (CharacterRule.all.filter (!p.registry.contains ·.1)).map
      (matcherRule options), rule.name ∈ CharacterRule.all.map Prod.fst := by
    intro _ hrule
    obtain ⟨f, hf, rfl⟩ := List.mem_map.1 hrule
    exact List.mem_map_of_mem (List.mem_of_mem_filter hf)
  -- The block first, and then the character rules.
  obtain ⟨-, hblock⟩ := load_of_fresh hcompile hfresh
  obtain ⟨hcount, hbehind⟩ :=
    Registry.appended_loadCharacterRules (p.load text).state options
  rw [filter_contains_of_appended hblock.appended hrules] at hcount hbehind
  have hled := (hblock.led hp).loadCharacterRules_of_plain hstart
  -- The character rules first, and then the block.
  obtain ⟨-, hbefore⟩ := Registry.appended_loadCharacterRules p options
  have hled' := hp.loadCharacterRules_of_plain hstart
  have hfresh' : Fresh (p.loadCharacterRules options).state.registry.names ds := by
    refine ⟨hfresh.nodup, fun d hd hname => ?_⟩
    rw [hbefore.names, List.mem_append] at hname
    rcases hname with hname | hname
    · exact hfresh.free d hd hname
    · obtain ⟨rule, hrule, heq⟩ := List.mem_map.1 hname
      exact hds d hd (heq ▸ hcharacter rule hrule)
  obtain ⟨hhandles, hblock'⟩ := load_of_fresh hcompile hfresh'
  refine ⟨hcount, ?_, hled.interchangeable (hblock'.led hled') ?_ fun name => ?_⟩
  · rw [hhandles, hbefore.size, List.length_map]
  · rw [hblock'.appended.whitespace, hbefore.whitespace, hbehind.whitespace,
      hblock.appended.whitespace]
  · rw [hbehind.lookup?, hblock.appended.lookup?, hblock'.appended.lookup?, hbefore.lookup?,
      Option.or_assoc, Option.or_assoc]
    exact congrArg _ (or_find?_comm hrules hcharacter name)

/-- After any requests to a new parser whose settings ask for no start rule, and so also before any,
a block that is accepted and takes no name of a character rule may be loaded before the character
rules or after them: both are accepted, with the handles shifted, and the parsers are
interchangeable. From every parser, the character rules are loaded once. -/
theorem load_beside_character_rules :
    (∀ policy requests text handles (options : Registration),
      let p := Request.performAll (ofWhitespace policy) requests
      let free := CharacterRule.all.filter (!p.registry.contains ·.1)
      (p.load text).result = .ok handles →
      (∀ ds, Grammar.compile text = .ok ds →
        ∀ d ∈ ds, d.name ∉ CharacterRule.all.map Prod.fst) →
      options.start = false →
      ((p.load text).state.loadCharacterRules options).result = .ok free.length ∧
        ((p.loadCharacterRules options).state.load text).result =
          .ok (handles.map (free.length + ·)) ∧
        Interchangeable ((p.load text).state.loadCharacterRules options).state
          ((p.loadCharacterRules options).state.load text).state) ∧
    ∀ (p : Parser) options options',
      (p.loadCharacterRules options).state.loadCharacterRules options' =
        .ok (p.loadCharacterRules options).state 0 := by
  refine ⟨?_, loadCharacterRules_again⟩
  intro policy requests text handles options p free hload hnew hstart
  obtain ⟨ds, hcompile, hfresh⟩ := exists_of_load hload
  have hhandles := hload.symm.trans (load_of_fresh hcompile hfresh).1
  obtain ⟨hcount, hhandles', hsame⟩ :=
    load_comm (Request.led_performAll (led_ofWhitespace policy) requests) hstart hcompile hfresh
      (hnew ds hcompile)
  refine ⟨hcount, ?_, hsame⟩
  rw [hhandles', Except.ok.inj hhandles, List.map_add_range', Nat.add_comm]

/-- A block of one rule, which names a character rule. -/
def numberBlock : Text := "n := digit n | digit".toList

/-- Numbers are parsed alike whether the rule of the digits stands behind the block or before it. -/
theorem load_beside_character_rules_number :
    ((ofWhitespace .keep).load numberBlock).result = .ok [0] ∧
      (((ofWhitespace .keep).loadCharacterRules {}).state.load numberBlock).result = .ok [9] ∧
      Interchangeable (((ofWhitespace .keep).load numberBlock).state.loadCharacterRules {}).state
        (((ofWhitespace .keep).loadCharacterRules {}).state.load numberBlock).state ∧
      (((ofWhitespace .keep).load numberBlock).state.loadCharacterRules {}).state.registry.start?.map
        (·.name) = some ['n'] := by
  have hload : ((ofWhitespace .keep).load numberBlock).result = .ok [0] := by cbv
  have hcompile : Grammar.compile numberBlock = .ok [⟨['n'], .alternation [.sequence
      [.reference "digit".toList, .reference ['n']], .reference "digit".toList], 1⟩] := by cbv
  have hnew : ∀ ds, Grammar.compile numberBlock = .ok ds →
      ∀ d ∈ ds, d.name ∉ CharacterRule.all.map Prod.fst := by
    intro ds hds d hd
    rw [← Except.ok.inj (hcompile.symm.trans hds), List.mem_singleton] at hd
    rw [hd]
    decide +kernel
  obtain ⟨-, hhandles, hsame⟩ :=
    load_beside_character_rules.1 .keep [] numberBlock [0] {} hload hnew rfl
  exact ⟨hload, hhandles, hsame, by cbv⟩

end Parser

end Descent
