import Descent.Proofs.Evaluation.Lookups
import Descent.Proofs.Registry.History
import Descent.Proofs.Token.Preorder

/-! A part of a body that becomes a rule of its own. The new name shows itself in the types of a
tree alone: where the one evaluation comes to the part, the other one comes to a rule with the part
as its body, which leaves the texts of what it matches as they are. The new name costs fuel, so each
of the two evaluations is followed for as long as it runs, and the other one is given the fuel that
it needs. -/

namespace Descent

open Outcome (Related)

namespace Spec

/-- The second body is the first one with one occurrence of `s` replaced by `t`. -/
inductive Replaced (s t : Spec) : Spec → Spec → Prop
  | here : Replaced s t s t
  | item {a b : Spec} (front back : List Spec) : Replaced s t a b →
      Replaced s t (.sequence (front ++ a :: back)) (.sequence (front ++ b :: back))
  | branch {a b : Spec} (front back : List Spec) : Replaced s t a b →
      Replaced s t (.alternation (front ++ a :: back)) (.alternation (front ++ b :: back))

variable {s t a b : Spec}

theorem Replaced.symm (h : s.Replaced t a b) : t.Replaced s b a := by
  induction h with
  | here => exact .here
  | item front back _ ih => exact .item front back ih
  | branch front back _ ih => exact .branch front back ih

theorem Replaced.mem_parts (h : s.Replaced t a b) {x : Spec} (hx : x ∈ s.parts) : x ∈ a.parts := by
  induction h with
  | here => exact hx
  | item front back _ ih =>
      exact mem_parts_sequence (mem_partsAll.2 ⟨_, List.mem_append_right _ List.mem_cons_self, ih⟩)
  | branch front back _ ih =>
      exact mem_parts_alternation
        (mem_partsAll.2 ⟨_, List.mem_append_right _ List.mem_cons_self, ih⟩)

theorem Replaced.ne_custom {name : Text} (h : s.Replaced (.reference name) a b)
    (matcher : Matcher) : b ≠ .custom matcher := by
  cases h <;> exact nofun

end Spec

namespace Token

/-- The same texts at the ends of the trees, and the same text in all. -/
structure SameTexts (t u : Token) : Prop where
  texts : t.texts = u.texts
  value : t.value = u.value

theorem sameTexts_of_texts {t u : Token} (h : t.texts = u.texts) : t.SameTexts u where
  texts := h
  value := by rw [value_eq_flatten_texts, value_eq_flatten_texts, h]

theorem map_texts_eq {ts us : List Token} (h : List.Forall₂ SameTexts ts us) :
    ts.map texts = us.map texts := by
  induction h with
  | nil => rfl
  | cons h _ ih => exact congrArg₂ List.cons h.texts ih

theorem sameTexts_node (type type' : Text) {ts us : List Token}
    (h : List.Forall₂ SameTexts ts us) : SameTexts (.node type ts) (.node type' us) := by
  have htexts := map_texts_eq h
  cases h with
  | nil => exact ⟨rfl, rfl⟩
  | cons h hs =>
      refine sameTexts_of_texts ?_
      rw [texts_node _ (List.cons_ne_nil _ _), texts_node _ (List.cons_ne_nil _ _),
        List.flatMap_def, List.flatMap_def, htexts]

end Token

namespace Evaluation

/-- Matches of the same texts. -/
def SameTexts (m m' : Match) : Prop := m.token.SameTexts m'.token

theorem congruence_sameTexts : Congruence Token.SameTexts SameTexts where
  token h := h
  sequence h := Token.sameTexts_node _ _ h
  typed {m m'} name h := Token.sameTexts_of_texts <|
    (m.texts_typedAfter name).trans (h.texts.trans (m'.texts_typedAfter name).symm)

section

variable {e e' : Evaluation} {call call' : Text → Text → Run Attempt}
variable {free : Option Error → Prop} {errors : Error → Error → Prop} {texts : Text → Text → Prop}
variable {tokens : Token → Token → Prop} {like : Match → Match → Prop} {s t a b : Spec}

/-- All atoms that both bodies have do alike. -/
def AtomsAlike (e e' : Evaluation) (call call' : Text → Text → Run Attempt)
    (free : Option Error → Prop) (errors : Error → Error → Prop) (like : Match → Match → Prop)
    (texts : Text → Text → Prop) (parts parts' : List Spec) : Prop :=
  ∀ x ∈ parts, x ∈ parts' → x.IsAtom → BodiesAlike e e' call call' free errors like texts x x

/-- Lists of bodies that differ in one place, where the one does what the other does. -/
theorem forall₂_alike_of_place (hc : Congruence tokens like) {front back : List Spec}
    (hatoms : AtomsAlike e e' call call' free errors like texts
      (Spec.partsAll (front ++ a :: back)) (Spec.partsAll (front ++ b :: back)))
    (hplace : AtomsAlike e e' call call' free errors like texts a.parts b.parts →
      BodiesAlike e e' call call' free errors like texts a b) :
    List.Forall₂ (BodiesAlike e e' call call' free errors like texts) (front ++ a :: back)
      (front ++ b :: back) := by
  have hself : ∀ item, item ∈ front ++ a :: back → item ∈ front ++ b :: back →
      BodiesAlike e e' call call' free errors like texts item item := by
    intro item hitem hitem'
    exact bodiesAlike_of_atoms hc item fun x hx =>
      hatoms x (Spec.mem_partsAll.2 ⟨item, hitem, hx⟩) (Spec.mem_partsAll.2 ⟨item, hitem', hx⟩)
  refine List.rel_append (List.forall₂_same.2 fun item hitem => ?_)
    (.cons (hplace fun x hx hx' => ?_) (List.forall₂_same.2 fun item hitem => ?_))
  · exact hself item (List.mem_append_left _ hitem) (List.mem_append_left _ hitem)
  · exact hatoms x (Spec.mem_partsAll.2 ⟨a, List.mem_append_right _ List.mem_cons_self, hx⟩)
      (Spec.mem_partsAll.2 ⟨b, List.mem_append_right _ List.mem_cons_self, hx'⟩)
  · exact hself item (List.mem_append_right _ (List.mem_cons_of_mem _ hitem))
      (List.mem_append_right _ (List.mem_cons_of_mem _ hitem))

/-- Bodies that differ in one part do alike if the two parts do, and all atoms that both have. -/
theorem bodiesAlike_of_replaced (hc : Congruence tokens like) (h : s.Replaced t a b)
    (hpart : BodiesAlike e e' call call' free errors like texts s t)
    (hatoms : AtomsAlike e e' call call' free errors like texts a.parts b.parts) :
    BodiesAlike e e' call call' free errors like texts a b := by
  induction h with
  | here => exact hpart
  | item front back _ ih =>
      refine bodiesAlike_sequence hc (forall₂_alike_of_place hc (fun x hx hx' => ?_) ih)
      exact hatoms x (Spec.mem_parts_sequence hx) (Spec.mem_parts_sequence hx')
  | branch front back _ ih =>
      refine bodiesAlike_alternation (forall₂_alike_of_place hc (fun x hx hx' => ?_) ih)
      exact hatoms x (Spec.mem_parts_alternation hx) (Spec.mem_parts_alternation hx')

end

theorem sameTexts_symm {a b : Attempt} (h : Alike SameTexts Eq a b) : Alike SameTexts Eq b a := by
  obtain ⟨m, rest⟩ := a
  obtain ⟨m', rest'⟩ := b
  obtain ⟨hm, hrest⟩ := h
  refine ⟨?_, hrest.symm⟩
  cases hm with
  | none => exact .none
  | some hm => exact .some ⟨hm.texts.symm, hm.value.symm⟩

theorem sameTexts_trans {a b c : Attempt} (h : Alike SameTexts Eq a b)
    (h' : Alike SameTexts Eq b c) : Alike SameTexts Eq a c := by
  obtain ⟨m, rest⟩ := a
  obtain ⟨m', rest'⟩ := b
  obtain ⟨m'', rest''⟩ := c
  obtain ⟨hm, hrest⟩ := h
  obtain ⟨hm', hrest'⟩ := h'
  refine ⟨?_, hrest.trans hrest'⟩
  cases hm with
  | none =>
      cases hm' with
      | none => exact .none
  | some hm =>
      cases hm' with
      | some hm' => exact .some ⟨hm.texts.trans hm'.texts, hm.value.trans hm'.value⟩

/-- A rule without whitespace before it does what its body does, up to the types of the tokens. -/
theorem apply_sameTexts {e : Evaluation} {call : Text → Text → Run Attempt} {name : Text} {s : Spec}
    {t : Text} (h : Contract True (fun _ => True) t (e.body call s t).outcome) :
    Related (fun _ => False) Eq (Alike SameTexts Eq) (e.apply call ⟨name, s, false⟩ t).outcome
      (e.body call s t).outcome := by
  rw [outcome_apply, start_eq_pure fun _ _ => rfl, Run.outcome_pure, Outcome.bind]
  cases hbody : (e.body call s t).outcome with
  | unfinished => exact .unfinished
  | error err => exact .error rfl
  | ok a =>
      obtain ⟨m, rest⟩ := a
      cases m with
      | none =>
          rw [hbody] at h
          exact .ok ⟨.none, Eq.symm h⟩
      | some m => exact .ok ⟨.some (Token.sameTexts_of_texts (m.texts_typedAfter name)), rfl⟩

end Evaluation

/-- The second rule is the first one, or has the name of the part in place of one occurrence of the
part in the body. -/
structure Rule.Extracted (name : Text) (part : Spec) (rule rule' : Rule) : Prop where
  sameName : rule'.name = rule.name
  start : ∀ e input, Evaluation.start e rule' input = Evaluation.start e rule input
  spec : rule'.spec = rule.spec ∨ part.Replaced (.reference name) rule.spec rule'.spec
  unused : name ∉ rule.spec.references

/-- In the second registry the name stands for the part, and all other names stand for the rules
that they stand for in the first one, up to the occurrences of the part. -/
structure Registry.Extracted (name : Text) (part : Spec) (r r' : Registry) : Prop where
  lookup : r'.lookup? name = some ⟨name, part, false⟩
  rules : ∀ other, other ≠ name →
    Option.Rel (Rule.Extracted name part) (r.lookup? other) (r'.lookup? other)
  fresh : name ∉ part.references

namespace Evaluation

section

variable {name : Text} {part : Spec} {r r' : Registry} {policy : Whitespace} {source : Text}
variable {call call' : Text → Text → Run Attempt}

/-- All names but one come to the same texts, for as long as the first run goes on. -/
abbrev NamesKept (name : Text) (call call' : Text → Text → Run Attempt) : Prop :=
  CallsAnswered (· = none) Eq SameTexts (· ≠ name) call call'

/-- The one body comes to the texts of the other one, for as long as the first run goes on. -/
abbrev TextsKept (e e' : Evaluation) (call call' : Text → Text → Run Attempt) (s s' : Spec) : Prop :=
  BodiesAlike e e' call call' (· = none) Eq SameTexts Eq s s'

theorem textsKept_of_replaced (hcall : NamesKept name call call') {s t a b : Spec}
    (hspec : b = a ∨ s.Replaced t a b)
    (hpart : TextsKept (mk r policy source) (mk r' policy source) call call' s t)
    (hunused : name ∉ a.references ∨ name ∉ b.references) :
    TextsKept (mk r policy source) (mk r' policy source) call call' a b := by
  have hatoms : AtomsAlike (mk r policy source) (mk r' policy source) call call' (· = none) Eq
      SameTexts Eq a.parts b.parts := by
    intro x hx hx' hatom
    -- The new name is not among these atoms, for only one of the two bodies may have it.
    refine atom_answered (fun _ _ => rfl) (fun _ => ⟨rfl, rfl⟩) hcall hatom ?_
    rintro _ rfl rfl
    rw [← Spec.mem_references_iff] at hx hx'
    exact hunused.elim (· hx) (· hx')
  rcases hspec with rfl | hreplaced
  · exact bodiesAlike_of_atoms congruence_sameTexts _ fun x hx => hatoms x hx hx
  · exact bodiesAlike_of_replaced congruence_sameTexts hreplaced hpart hatoms

theorem CallsAnswered.later {n k k' : Nat} (hk : k ≤ k') {followed : Text → Prop}
    {like : Match → Match → Prop}
    (h : CallsAnswered (· = none) Eq like followed ((mk r policy source).call n)
      ((mk r' policy source).call k)) :
    CallsAnswered (· = none) Eq like followed ((mk r policy source).call n)
      ((mk r' policy source).call k') :=
  fun other hother t => (h other hother t).of_later fun hne => call_eq_of_le hk hne

/-- The name of the part comes to what the part comes to with one unit of fuel less. -/
theorem call_sameTexts (h : Registry.Extracted name part r r') (policy : Whitespace) (source : Text)
    (n : Nat) (t : Text) :
    Related (fun _ => False) Eq (Alike SameTexts Eq)
      ((mk r' policy source).call (n + 1) name t).outcome
      ((mk r' policy source).body ((mk r' policy source).call n) part t).outcome := by
  rw [call_succ, h.lookup]
  exact apply_sameTexts (body_keeps (mk r' policy source) n part t)

theorem part_answered {r₁ r₂ : Registry} (h : Registry.Extracted name part r r')
    (hcall : NamesKept name call call') :
    TextsKept (mk r₁ policy source) (mk r₂ policy source) call call' part part := by
  refine body_answered congruence_sameTexts (fun _ _ => rfl) (fun _ => ⟨rfl, rfl⟩) hcall ?_
  rintro _ hother rfl
  exact h.fresh hother

/-- The part and its name, which costs a unit of fuel more. -/
theorem part_extracted (h : Registry.Extracted name part r r') {n : Nat}
    (hcall : NamesKept name ((mk r policy source).call n) ((mk r' policy source).call (2 * n))) :
    TextsKept (mk r policy source) (mk r' policy source) ((mk r policy source).call n)
      ((mk r' policy source).call (2 * n + 1)) part (.reference name) := by
  rintro t _ rfl
  have hname := (call_sameTexts h policy source (2 * n) t).symm_of_strict sameTexts_symm
  exact (part_answered h hcall t t rfl).trans hname.of_strict sameTexts_trans

theorem apply_extracted (h : Registry.Extracted name part r r') {rule rule' : Rule}
    (hrule : Rule.Extracted name part rule rule') {n : Nat}
    (hcall : NamesKept name ((mk r policy source).call n) ((mk r' policy source).call (2 * n)))
    (input : Text) :
    Related (· = none) Eq (Alike SameTexts Eq)
      ((mk r policy source).apply ((mk r policy source).call n) rule input).outcome
      ((mk r' policy source).apply ((mk r' policy source).call (2 * n + 1)) rule' input).outcome := by
  refine apply_alike congruence_sameTexts hrule.sameName rfl ?_ ?_
  · rw [hrule.start]
    exact start_answered (fun _ _ => rfl) rule input
  · exact textsKept_of_replaced (hcall.later (Nat.le_succ _)) hrule.spec
      (part_extracted h hcall) (.inl hrule.unused)

/-- With the part as a rule names nest up to twice as deep. -/
theorem calls_extracted (h : Registry.Extracted name part r r') (policy : Whitespace)
    (source : Text) (n : Nat) :
    NamesKept name ((mk r policy source).call n) ((mk r' policy source).call (2 * n)) := by
  induction n with
  | zero => exact fun _ _ _ => .freeUnfinished rfl
  | succ n ih =>
      intro other hother t
      rw [show 2 * (n + 1) = 2 * n + 1 + 1 by omega, call_succ, call_succ]
      have hrules := h.rules other hother
      generalize r.lookup? other = found, r'.lookup? other = found' at hrules
      cases hrules with
      | none => exact .error rfl
      | some hrule => exact apply_extracted h hrule ih t

theorem apply_restored {rule rule' : Rule} (hrule : Rule.Extracted name part rule rule')
    (hcall : NamesKept name call' call)
    (hpart : TextsKept (mk r' policy source) (mk r policy source) call' call (.reference name) part)
    (input : Text) :
    Related (· = none) Eq (Alike SameTexts Eq)
      ((mk r' policy source).apply call' rule' input).outcome
      ((mk r policy source).apply call rule input).outcome := by
  refine apply_alike congruence_sameTexts hrule.sameName.symm rfl ?_ ?_
  · rw [hrule.start]
    exact start_answered (fun _ _ => rfl) rule input
  · exact textsKept_of_replaced hcall (hrule.spec.imp Eq.symm Spec.Replaced.symm) hpart
      (.inr hrule.unused)

/-- Without the name of the part no more fuel is needed. The name is followed too, for the part
stands where it stood. -/
theorem calls_restored (h : Registry.Extracted name part r r') (policy : Whitespace)
    (source : Text) (n : Nat) :
    NamesKept name ((mk r' policy source).call n) ((mk r policy source).call n) ∧
    TextsKept (mk r' policy source) (mk r policy source) ((mk r' policy source).call n)
      ((mk r policy source).call n) (.reference name) part := by
  induction n with
  | zero => exact ⟨fun _ _ _ => .freeUnfinished rfl, fun _ _ _ => .freeUnfinished rfl⟩
  | succ n ih =>
      obtain ⟨hcall, hpart⟩ := ih
      refine ⟨fun other hother t => ?_, ?_⟩
      · rw [call_succ, call_succ]
        have hrules := h.rules other hother
        generalize r.lookup? other = found, r'.lookup? other = found' at hrules
        cases hrules with
        | none => exact .error rfl
        | some hrule => exact apply_restored hrule hcall hpart t
      · rintro t _ rfl
        have hname := call_sameTexts h policy source n t
        exact (hname.of_strict.trans (part_answered h hcall t t rfl) sameTexts_trans).of_later
          fun hne => body_eq_of_le n.le_succ hne

/-- Both evaluations of a rule have an end, or neither has one, and they end alike. -/
theorem apply_depths_extracted (h : Registry.Extracted name part r r') {rule rule' : Rule}
    (hrule : Rule.Extracted name part rule rule') (input : Text) :
    Related (fun _ => False) Eq (Alike SameTexts Eq)
      ((mk r policy source).apply ((mk r policy source).call ((mk r policy source).depth input))
        rule input).outcome
      ((mk r' policy source).apply
        ((mk r' policy source).call ((mk r' policy source).depth input)) rule' input).outcome := by
  have hcalls := calls_extracted h policy source ((mk r policy source).depth input)
  have hforth := apply_extracted h hrule hcalls input
  obtain ⟨hcall, hpart⟩ := calls_restored h policy source ((mk r' policy source).depth input)
  have hback := apply_restored hrule hcall hpart input
  refine (hforth.of_later fun hne => ?_).of_mutual (hback.of_later fun hne => ?_)
  · exact apply_at_depth (List.suffix_refl input) hne
  · exact apply_at_depth (List.suffix_refl input) hne

theorem rule_extracted (h : Registry.Extracted name part r r') {rule rule' : Rule}
    (hrule : Rule.Extracted name part rule rule') (input : Text) :
    Related (fun _ => False) Eq (fun a b => Option.Rel Token.SameTexts a.1 b.1 ∧ a.2 = b.2)
      ((mk r policy source).rule rule input).outcome
      ((mk r' policy source).rule rule' input).outcome := by
  unfold Evaluation.rule
  rw [Run.outcome_bind, Run.outcome_bind]
  refine (apply_depths_extracted h hrule input).bind ?_
  rintro ⟨m, rest⟩ ⟨m', rest'⟩ ⟨hm, hrest⟩
  cases hm with
  | none => exact .ok ⟨.none, hrest⟩
  | some hm => exact .ok ⟨.some hm, hrest⟩

end

end Evaluation

namespace Registry

variable {r r' : Registry} {name : Text} {host : Rule} {body part : Spec}

/-- The body of a rule is replaced, and a part of it is registered as a rule of its own. -/
def extraction (host : Rule) (body : Spec) (name : Text) (part : Spec) : List Operation :=
  [.insert host.name body { replace := true, whitespace := host.whitespace },
    .insert name part {}]

theorem lookup?_extraction (hfree : name ∉ r.names) (hne : name ≠ host.name) (body part : Spec)
    (other : Text) :
    (Operation.performAll r (extraction host body name part)).lookup? other =
      if other = name then some ⟨name, part, false⟩
      else if other = host.name then some ⟨host.name, body, host.whitespace⟩
      else r.lookup? other := by
  let options : Registration := { replace := true, whitespace := host.whitespace }
  have hfree' : name ∉ (r.insert host.name body options).state.names := by
    refine lookup?_eq_none_iff.1 ?_
    rw [lookup?_insert (.inr rfl), if_neg hne]
    exact lookup?_eq_none_iff.2 hfree
  show ((r.insert host.name body options).state.insert name part {}).state.lookup? other = _
  rw [lookup?_insert (.inl hfree'), lookup?_insert (.inr rfl)]

theorem extracted_extraction (hnodup : r.names.Nodup) (hhost : host ∈ r.rules)
    (hpart : part.Replaced (.reference name) host.spec body)
    (hcustom : ∀ matcher, host.spec = .custom matcher → host.whitespace = false)
    (hfree : name ∉ r.names) (hunused : ∀ rule ∈ r.rules, name ∉ rule.spec.references) :
    Extracted name part r (Operation.performAll r (extraction host body name part)) := by
  have hne := (name_ne_of_notMem hfree hhost).symm
  refine ⟨?_, fun other hother => ?_, fun hname => ?_⟩
  · rw [lookup?_extraction hfree hne, if_pos rfl]
  · rw [lookup?_extraction hfree hne, if_neg hother]
    split
    · next heq =>
        rw [heq, lookup?_of_mem hnodup hhost]
        refine .some ⟨rfl, fun e input => ?_, .inr hpart, hunused host hhost⟩
        rw [Evaluation.start_eq_pure hcustom,
          Evaluation.start_eq_pure fun matcher h => absurd h (hpart.ne_custom matcher)]
    · cases hlookup : r.lookup? other with
      | none => exact .none
      | some rule =>
          exact .some ⟨rfl, fun _ _ => rfl, .inl rfl, hunused rule (mem_of_lookup? hlookup)⟩
  · rw [Spec.mem_references_iff] at hname
    exact hunused host hhost (Spec.mem_references_iff.2 (hpart.mem_parts hname))

/-- A part of the body of a rule may be registered under a new name, which then stands in its
place. Whichever rule is evaluated or parsed from, both registries come to the same error, or to
trees of the same texts with the same rest, or to no end. The whole body of a matching function that
asks for whitespace before it is no such part, for nothing is skipped before a name. -/
theorem extraction_keeps_texts {ops : List Operation}
    (hhost : host ∈ (Operation.performAll {} ops).rules)
    (hpart : part.Replaced (.reference name) host.spec body)
    (hcustom : ∀ matcher, host.spec = .custom matcher → host.whitespace = false)
    (hfree : name ∉ (Operation.performAll {} ops).names)
    (hunused : ∀ rule ∈ (Operation.performAll {} ops).rules, name ∉ rule.spec.references) :
    let r := Operation.performAll {} ops
    let r' := Operation.performAll r (extraction host body name part)
    (∀ other, r'.lookup? other =
      if other = name then some ⟨name, part, false⟩
      else if other = host.name then some ⟨host.name, body, host.whitespace⟩
      else r.lookup? other) ∧
    ∀ start rule, r.entry start = .ok rule → ∃ rule', r'.entry start = .ok rule' ∧
      rule'.name = rule.name ∧
      (∀ policy source input,
        Related (fun _ => False) Eq (fun a b => Option.Rel Token.SameTexts a.1 b.1 ∧ a.2 = b.2)
          ((Evaluation.mk r policy source).rule rule input).outcome
          ((Evaluation.mk r' policy source).rule rule' input).outcome) ∧
      ∀ policy requestedStart mayLeaveRest input,
        Related (fun _ => False) Eq Token.SameTexts
          ((Parser.mk r policy requestedStart).parse input ⟨start, mayLeaveRest⟩).outcome
          ((Parser.mk r' policy requestedStart).parse input ⟨start, mayLeaveRest⟩).outcome := by
  intro r r'
  have hholds : Holds r (Operation.history {} ops) := holds_performAll holds_empty ops
  have hholds' : Holds r' _ := holds_performAll hholds (extraction host body name part)
  have hextracted : Extracted name part r r' :=
    extracted_extraction hholds.nodup hhost hpart hcustom hfree hunused
  have hne := (name_ne_of_notMem hfree hhost).symm
  have hstart : ∀ place, r.start = some place → r'.start = some place :=
    fun place h => start_insert (start_insert h rfl _ _) rfl _ _
  refine ⟨lookup?_extraction hfree hne body part, fun start rule hentry => ?_⟩
  obtain ⟨rule', hentry', hname⟩ :=
    entry_of_names_prefix (hholds.names_prefix hholds') hstart hentry
  have hrule : Rule.Extracted name part rule rule' := by
    have hrel := hextracted.rules rule.name (name_ne_of_notMem hfree (mem_of_entry hentry))
    rw [lookup?_of_mem hholds.nodup (mem_of_entry hentry), ← hname,
      lookup?_of_mem hholds'.nodup (mem_of_entry hentry')] at hrel
    cases hrel with
    | some hrule => exact hrule
  refine ⟨rule', hentry', hname, fun policy source input => ?_, ?_⟩
  · exact Evaluation.rule_extracted hextracted hrule input
  · intro policy requestedStart mayLeaveRest input
    exact Parser.parse_of_rules (p := .mk r policy requestedStart)
      (q := .mk r' policy requestedStart) rfl (fun _ _ => rfl) hentry hentry'
      (Evaluation.rule_extracted hextracted hrule input)

/-- One letter after the other: a letter with a list behind it, or the last letter. -/
def letters : Spec :=
  .alternation [.sequence [.literal ['x'], .reference ['a']], .literal ['x']]

/-- The same list with a name for what is not its last letter. -/
def namedLetters : Spec := .alternation [.reference ['b'], .literal ['x']]

/-- The list is met below the part that becomes a rule, and the part is met below the list again.
The trees differ by a node, and their texts do not. -/
theorem extraction_keeps_texts_letters :
    let r := Operation.performAll {} [.insert ['a'] letters {}]
    let r' := Operation.performAll r (extraction ⟨['a'], letters, false⟩ namedLetters ['b']
      (.sequence [.literal ['x'], .reference ['a']]))
    ((Parser.mk r .keep none).parse ['x', 'x'] {}).outcome =
      .ok (.node ['a'] [.leaf Token.literalType ['x'], .leaf ['a'] ['x']]) ∧
    ((Parser.mk r' .keep none).parse ['x', 'x'] {}).outcome =
      .ok (.node ['a'] [.node ['b'] [.leaf Token.literalType ['x'], .leaf ['a'] ['x']]]) ∧
    Related (fun _ => False) Eq Token.SameTexts
      ((Parser.mk r .keep none).parse ['x', 'x'] {}).outcome
      ((Parser.mk r' .keep none).parse ['x', 'x'] {}).outcome := by
  intro r r'
  have hrules : r.rules = [⟨['a'], letters, false⟩] := by cbv
  have hpart : Spec.Replaced (.sequence [.literal ['x'], .reference ['a']]) (.reference ['b'])
      letters namedLetters := .branch [] _ .here
  have hunused : ∀ rule ∈ r.rules, ['b'] ∉ rule.spec.references := by
    rw [hrules]
    decide
  obtain ⟨-, hentries⟩ := extraction_keeps_texts (hrules ▸ List.mem_singleton_self _) hpart
    (fun _ _ => rfl) (by decide) hunused
  obtain ⟨_, -, -, -, hparse⟩ := hentries none _ rfl
  exact ⟨by cbv, by cbv, hparse .keep none false ['x', 'x']⟩

end Registry

end Descent
