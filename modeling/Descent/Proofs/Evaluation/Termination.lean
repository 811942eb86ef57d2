import Mathlib
import Descent.Proofs.CharacterRule
import Descent.Proofs.Evaluation.Pieces
import Descent.Proofs.Grammar.Shape
import Descent.Proofs.Registry.Names

/-! Termination. Every match takes something, so a rule that is met again with the same input has
been met at leftmost places only. Where these come back to no rule, every evaluation ends. -/

namespace Descent

/-- The name stands where the body starts to read. -/
inductive Spec.Leftmost (name : Text) : Spec → Prop
  | reference : Leftmost name (.reference name)
  | sequence {item : Spec} {items : List Spec} :
      Leftmost name item → Leftmost name (.sequence (item :: items))
  | alternation {branch : Spec} {branches : List Spec} :
      branch ∈ branches → Leftmost name branch → Leftmost name (.alternation branches)

namespace Registry

/-- The body of rule `a` names `b` at a leftmost place. -/
def LeftmostRef (r : Registry) (a b : Text) : Prop :=
  ∃ rule, r.lookup? a = some rule ∧ rule.spec.Leftmost b

theorem mem_names_of_leftmostRef {r : Registry} {a b : Text} (h : r.LeftmostRef a b) :
    a ∈ r.rules.map (·.name) := by
  obtain ⟨rule, hl, -⟩ := h
  by_contra ha
  rw [lookup?_eq_none_iff.2 ha] at hl
  cases hl

theorem acyclic_of_rank {r : Registry} (rank : Text → Nat)
    (h : ∀ a b, r.LeftmostRef a b → rank b < rank a) (name : Text) :
    ¬Relation.TransGen r.LeftmostRef name name := by
  have hdown : ∀ b, Relation.TransGen r.LeftmostRef name b → rank b < rank name := by
    intro b hb
    induction hb with
    | single hb => exact h _ _ hb
    | tail _ hc ih => exact (h _ _ hc).trans ih
  exact fun hcycle => Nat.lt_irrefl _ (hdown name hcycle)

/-- There are finitely many rules, so a chain of leftmost names that never comes back ends. -/
theorem wellFounded_leftmostRef {r : Registry}
    (h : ∀ name, ¬Relation.TransGen r.LeftmostRef name name) :
    WellFounded fun b a => r.LeftmostRef a b := by
  let Name := {name // name ∈ r.rules.map (·.name)}
  let Below : Name → Name → Prop := fun b a => Relation.TransGen r.LeftmostRef a b
  have hwf : WellFounded Below := by
    have : IsTrans Name Below := ⟨fun _ _ _ hba hcb => hcb.trans hba⟩
    have : Std.Irrefl Below := ⟨fun a => h a⟩
    have : Finite Name := (r.rules.map (·.name)).finite_toSet.to_subtype
    exact Finite.wellFounded_of_trans_of_irrefl _
  have houtside : ∀ a ∉ r.rules.map (·.name), Acc (fun b a => r.LeftmostRef a b) a := by
    intro a ha
    exact .intro a fun b hb => absurd (mem_names_of_leftmostRef hb) ha
  have hinside : ∀ a : Name, Acc (fun b a => r.LeftmostRef a b) a.1 := by
    intro a
    induction a using hwf.induction with
    | _ a ih =>
      refine .intro a.1 fun b hb => ?_
      by_cases hmem : b ∈ r.rules.map (·.name)
      · exact ih ⟨b, hmem⟩ (.single hb)
      · exact houtside b hmem
  refine ⟨fun a => ?_⟩
  by_cases ha : a ∈ r.rules.map (·.name)
  · exact hinside ⟨a, ha⟩
  · exact houtside a ha

end Registry

/-- What was taken is not empty. -/
def Takes (text : Text) (_ : Token) : Prop := text ≠ []

theorem Spec.Compiled.regular {s : Spec} (h : s.Compiled) (C : Text → Token → Prop) :
    s.Regular C := by
  intro a ha
  have hproper := h.allProper a ha
  cases a with
  | literal text => trivial
  | reference name => trivial
  | alternation branches => trivial
  | sequence items => exact hproper
  | custom matcher => exact hproper.elim

theorem Matcher.Shrinks.regular {matcher : Matcher} (h : matcher.Shrinks) :
    (Spec.custom matcher).Regular Takes := by
  intro a ha
  obtain rfl := List.mem_singleton.1 ha
  rintro text token rest hm rfl
  exact Nat.lt_irrefl _ (h _ _ _ hm)

/-- A rule that is compiled from grammar text, or a matching function that takes something. -/
def Rule.Progresses (rule : Rule) : Prop :=
  rule.spec.Compiled ∨ ∃ matcher : Matcher, rule.spec = .custom matcher ∧ matcher.Shrinks

theorem Rule.Progresses.regular {rule : Rule} (h : rule.Progresses) : rule.spec.Regular Takes := by
  rcases h with h | ⟨matcher, hm, h⟩
  · exact h.regular Takes
  · rw [hm]
    exact h.regular

namespace Evaluation

section

variable {e : Evaluation} {n : Nat} {s : Spec} {input rest : Text} {m : Match}

/-- A reading without empty pieces takes something. -/
theorem Spells.size_lt_of_regular {r : Reading} (h : e.Spells input r.pieces rest)
    (hr : r.Regular Takes) : rest.size < input.size :=
  h.size_lt hr.pieces_ne_nil (hr.of_mem_pieces (fun _ _ htext => htext) fun _ _ _ _ htaken => htaken)

/-- A body that matches leaves less than it was given. -/
theorem size_lt_of_body (hreg : ∀ rule ∈ e.registry.rules, rule.spec.Regular Takes)
    (hs : s.Regular Takes) (h : (e.body (e.call n) s input).outcome = .ok (some m, rest)) :
    rest.size < input.size := by
  obtain ⟨r, hr, -⟩ := reads_of_body (reads_of_call e n) s input m rest h
  exact hr.spells.size_lt_of_regular (hr.regular hreg hs)

/-- All names end on all that is shorter than the input and ends it. -/
def FinishesBelow (e : Evaluation) (n : Nat) (input : Text) : Prop :=
  ∀ name (t : Text), t <:+ input → t.size < input.size →
    (e.call n name t).outcome ≠ .unfinished

theorem suffix_of_body (h : (e.body (e.call n) s input).outcome = .ok (some m, rest)) :
    rest <:+ input := by
  have hkeeps := body_keeps e n s input
  rw [h] at hkeeps
  exact hkeeps

theorem custom_finishes (matcher : Matcher) (input : Text) :
    (custom matcher input).outcome ≠ .unfinished := by
  have hcontract : Contract False (fun _ => True) input (custom matcher input).outcome :=
    custom_contract matcher input
  exact hcontract.ne_unfinished

/-- A body ends if its leftmost names do, and all names on what is shorter. -/
theorem body_finishes (hreg : ∀ rule ∈ e.registry.rules, rule.spec.Regular Takes)
    (s : Spec) (input : Text) :
    s.Regular Takes →
    (∀ name, s.Leftmost name → (e.call n name input).outcome ≠ .unfinished) →
    e.FinishesBelow n input → (e.body (e.call n) s input).outcome ≠ .unfinished := by
  induction s, input using step_induction
    (A := fun branches input =>
      (∀ a ∈ Spec.partsAll branches, a.RegularPart Takes) →
      (∀ name, ∀ b ∈ branches, b.Leftmost name → (e.call n name input).outcome ≠ .unfinished) →
      e.FinishesBelow n input → (e.alternation (e.call n) branches input).outcome ≠ .unfinished)
    (S := fun items input =>
      (∀ a ∈ Spec.partsAll items, a.RegularPart Takes) →
      (∀ name, (Spec.sequence items).Leftmost name →
        (e.call n name input).outcome ≠ .unfinished) →
      e.FinishesBelow n input → (e.sequence (e.call n) items input).outcome ≠ .unfinished) with
  | literal text input =>
      intro _ _ _
      exact (literal_contract (skipsOn_any e input) text (List.suffix_refl _)).ne_unfinished
  | reference name input => exact fun _ hleft _ => hleft name .reference
  | custom matcher input => exact fun _ _ _ => custom_finishes matcher input
  | alternation branches input ih =>
      intro hs hleft hshort
      exact ih (fun a ha => hs a (Spec.mem_parts_alternation ha))
        (fun name b hb hl => hleft name (.alternation hb hl)) hshort
  | sequence items input ih =>
      intro hs hleft hshort
      rw [outcome_body_sequence]
      refine Outcome.bind_ne_unfinished
        (ih (fun a ha => hs a (Spec.mem_parts_sequence ha)) hleft hshort) fun r _ => ?_
      cases r with
      | none => exact nofun
      | some r => exact nofun
  | noBranch input _ _ _ => exact nofun
  | branch b bs input ihb ihbs hs hleft hshort =>
      rw [outcome_alternation_cons]
      refine Outcome.bind_ne_unfinished (ihb (fun a ha => hs a (Spec.mem_partsAll_head ha))
        (fun name => hleft name b List.mem_cons_self) hshort) fun r _ => ?_
      obtain ⟨m, rest⟩ := r
      cases m with
      | some m => exact nofun
      | none =>
          exact ihbs (fun a ha => hs a (Spec.mem_partsAll_tail ha))
            (fun name b' hb' => hleft name b' (List.mem_cons_of_mem _ hb')) hshort
  | noItem input _ _ _ => exact nofun
  | item i is input ihi ihis hs hleft hshort =>
      have hi : i.Regular Takes := fun a ha => hs a (Spec.mem_partsAll_head ha)
      rw [outcome_sequence_cons]
      refine Outcome.bind_ne_unfinished (ihi hi (fun name hl => hleft name (.sequence hl)) hshort)
        fun r hr => ?_
      obtain ⟨m, rest⟩ := r
      cases m with
      | none => exact nofun
      | some m =>
          -- What is left is shorter, so there all names end, not only the leftmost ones.
          have hlt := size_lt_of_body hreg hi hr
          have hsuffix := suffix_of_body hr
          have his := ihis rest (fun a ha => hs a (Spec.mem_partsAll_tail ha))
            (fun name _ => hshort name rest hsuffix hlt)
            (fun name t ht hlt' => hshort name t (ht.trans hsuffix) (hlt'.trans hlt))
          refine Outcome.bind_ne_unfinished his fun r _ => ?_
          cases r with
          | none => exact nofun
          | some r => exact nofun

theorem apply_finishes {call : Text → Text → Run Attempt} {rule : Rule}
    (h : ∀ start, (e.start rule input).outcome = .ok start →
      (e.body call rule.spec start).outcome ≠ .unfinished) :
    (e.apply call rule input).outcome ≠ .unfinished := by
  have hstart : (e.start rule input).outcome ≠ .unfinished :=
    (start_contract (skipsOn_any e input) rule (List.suffix_refl input)).ne_unfinished
  rw [outcome_apply]
  refine Outcome.bind_ne_unfinished hstart fun start hs => ?_
  refine Outcome.bind_ne_unfinished (h start hs) fun r _ => ?_
  obtain ⟨m, rest⟩ := r
  cases m with
  | none => exact nofun
  | some m => exact nofun

theorem apply_finishes_of_progresses {rule : Rule}
    (hrules : ∀ rule ∈ e.registry.rules, rule.Progresses) (hrule : rule.Progresses)
    (hleft : ∀ name, rule.spec.Leftmost name → (e.call n name input).outcome ≠ .unfinished)
    (hshort : e.FinishesBelow n input) :
    (e.apply (e.call n) rule input).outcome ≠ .unfinished := by
  refine apply_finishes fun start hs => ?_
  rcases start_eq e rule input with ⟨matcher, hm, -, -⟩ | ⟨-, hstart⟩
  · rw [hm]
    exact custom_finishes matcher start
  · rw [hstart] at hs
    cases hs
    exact body_finishes (fun rule hr => (hrules rule hr).regular) rule.spec input hrule.regular
      hleft hshort

/-- At the depth of an evaluation a name and its rule come to the same outcome. -/
theorem outcome_call_depth {base t name : Text} {rule : Rule} (ht : t <:+ base)
    (hl : e.registry.lookup? name = some rule) :
    (e.call (e.depth base) name t).outcome = (e.apply (e.call (e.depth base)) rule t).outcome := by
  rw [e.settled_depth (Nat.le_succ _) name t ht]
  show (e.call (e.depth base + 1) name t).outcome = _
  unfold call
  rw [hl]

theorem call_finishes (hrules : ∀ rule ∈ e.registry.rules, rule.Progresses)
    (hacyclic : ∀ name, ¬Relation.TransGen e.registry.LeftmostRef name name) {base : Text}
    (name t : Text) (ht : t <:+ base) :
    (e.call (e.depth base) name t).outcome ≠ .unfinished := by
  have hwf := Registry.wellFounded_leftmostRef hacyclic
  -- On shorter texts every name ends; on the same text the names below it do.
  induction hsize : t.size using Nat.strong_induction_on generalizing name t with
  | _ size ihsize =>
    induction name using hwf.induction with
    | _ name ihname =>
      cases hl : e.registry.lookup? name with
      | none =>
          rw [e.settled_depth (Nat.le_succ _) name t ht]
          simp [call, hl]
      | some rule =>
          rw [outcome_call_depth ht hl]
          refine apply_finishes_of_progresses hrules (hrules rule (Registry.mem_of_lookup? hl))
            (fun b hb => ihname b ⟨rule, hl, hb⟩) fun b t' ht' hlt => ?_
          exact ihsize t'.size (hsize ▸ hlt) b t' (ht'.trans ht) rfl

/-- Where all names end, every rule does, whatever its body is. -/
theorem apply_finishes_of_calls {base : Text} {rule : Rule}
    (h : ∀ name (t : Text), t <:+ base → (e.call n name t).outcome ≠ .unfinished)
    (hbase : input <:+ base) : (e.apply (e.call n) rule input).outcome ≠ .unfinished := by
  have hcalls : ∀ name (t : Text), t <:+ base →
      Contract False (fun _ => True) t (e.call n name t).outcome := by
    intro name t ht
    have hcontract : Contract True (fun _ => True) t (e.call n name t).outcome :=
      call_contract (skipsOn_any e base) (fun _ => trivial) n name t ht
    exact Outcome.Ensures.of_ne_unfinished hcontract (h name t ht)
  exact (apply_contract (skipsOn_any e base) hcalls rule hbase).ne_unfinished

end

/-- If no rule comes back to itself by leftmost names, every evaluation ends. Rules may name
themselves and each other at all other places. -/
theorem rule_finishes :
    (∀ name matcher, (name, matcher) ∈ CharacterRule.all → matcher.Shrinks) ∧
    ∀ e : Evaluation, (∀ rule ∈ e.registry.rules, rule.Progresses) →
      (∀ name, ¬Relation.TransGen e.registry.LeftmostRef name name) → ∀ rule input,
      (∃ step, (e.rule rule input).outcome = .ok step) ∨
        ∃ err, (e.rule rule input).outcome = .error err := by
  refine ⟨fun _ _ h => (CharacterRule.verbatim_of_mem_all h).shrinks, ?_⟩
  intro e hrules hacyclic rule input
  have happly : (e.apply (e.call (e.depth input)) rule input).outcome ≠ .unfinished :=
    apply_finishes_of_calls (call_finishes hrules hacyclic) (List.suffix_refl input)
  have hrule : (e.rule rule input).outcome ≠ .unfinished := by
    unfold Evaluation.rule
    rw [Run.outcome_bind]
    exact Outcome.bind_ne_unfinished happly fun _ _ => nofun
  cases ho : (e.rule rule input).outcome with
  | unfinished => exact absurd ho hrule
  | error err => exact .inr ⟨err, rfl⟩
  | ok step => exact .inl ⟨step, rfl⟩

def numberList : Rule :=
  ⟨['l'], .alternation [.sequence [.reference ['n'], .reference ['l']], .reference ['n']], false⟩

def numbers : Evaluation :=
  ⟨.ofRules [numberList, ⟨['n'], .custom CharacterRule.digit, true⟩] (some 0), .ignore,
    "1 2".toList⟩

theorem progresses_of_numbers : ∀ rule ∈ numbers.registry.rules, rule.Progresses := by
  intro rule hr
  simp only [numbers, Registry.rules_ofRules, List.mem_cons, List.not_mem_nil, or_false] at hr
  rcases hr with rfl | rfl
  · exact .inl ⟨"n l | n".toList, .inl (by cbv)⟩
  · exact .inr ⟨CharacterRule.digit, rfl, (CharacterRule.one_verbatim _ _).shrinks⟩

/-- The list names only the number at a leftmost place, and the number names nothing. -/
theorem leftmostRef_numbers {a b : Text} (h : numbers.registry.LeftmostRef a b) :
    a = ['l'] ∧ b = ['n'] := by
  obtain ⟨rule, hl, hleft⟩ := h
  have hname := Registry.name_of_lookup? hl
  have hr := Registry.mem_of_lookup? hl
  simp only [numbers, Registry.rules_ofRules, List.mem_cons, List.not_mem_nil, or_false] at hr
  rcases hr with rfl | rfl
  · refine ⟨hname.symm, ?_⟩
    cases hleft with
    | alternation hb hleft =>
        simp only [List.mem_cons, List.not_mem_nil, or_false] at hb
        rcases hb with rfl | rfl
        · cases hleft with
          | sequence hleft => cases hleft; rfl
        · cases hleft
          rfl
  · cases hleft

theorem rule_finishes_numbers :
    (∀ rule ∈ numbers.registry.rules, rule.Progresses) ∧
    (∀ name, ¬Relation.TransGen numbers.registry.LeftmostRef name name) ∧
    ((∃ step, (numbers.rule numberList numbers.source).outcome = .ok step) ∨
      ∃ err, (numbers.rule numberList numbers.source).outcome = .error err) := by
  have hacyclic : ∀ name, ¬Relation.TransGen numbers.registry.LeftmostRef name name := by
    refine Registry.acyclic_of_rank (fun name => if name = ['l'] then 1 else 0) fun a b hab => ?_
    obtain ⟨rfl, rfl⟩ := leftmostRef_numbers hab
    decide
  exact ⟨progresses_of_numbers, hacyclic,
    rule_finishes.2 numbers progresses_of_numbers hacyclic numberList numbers.source⟩
end Evaluation

end Descent
