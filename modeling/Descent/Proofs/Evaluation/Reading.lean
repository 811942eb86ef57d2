import Descent.Proofs.Evaluation.Fuel

/-! Readings. A reading records how a body came to match: which literals and matching functions took
which text, behind which gap, in which rules. Every match has exactly one reading, and the token of
a match is a function of its reading. -/

namespace Descent

inductive Reading where
  /-- A literal, behind the gap that the policy skipped. -/
  | literal (gap text : Text)
  /-- What a matching function took, and the token that it made; `spaced` tells whether the policy
  ran before it. -/
  | custom (gap text : Text) (spaced : Bool) (token : Token)
  | sequence (items : List Reading)
  | reference (name : Text) (body : Reading)

namespace Reading

/-- Whether a rule or a matching function has typed the token. -/
def named : Reading → Bool
  | literal _ _ | sequence _ => false
  | custom _ _ _ _ | reference _ _ => true

mutual

def token : Reading → Token
  | literal _ text => .leaf Token.literalType text
  | custom _ _ _ token => token
  | sequence items => .node Token.sequenceType (tokens items)
  | reference name body => (Match.mk body.token body.named).typedAfter name

def tokens : List Reading → List Token
  | [] => []
  | r :: rs => r.token :: tokens rs

end

def toMatch (r : Reading) : Match := ⟨r.token, r.named⟩

end Reading

namespace Evaluation

/-- A body that leaves the text as it is, at some depth and hence at every greater one. -/
def Fails (e : Evaluation) (s : Spec) (input : Text) : Prop :=
  ∃ n, (e.body (e.call n) s input).outcome = .ok (none, input)

mutual

/-- A body reads the input up to a rest. -/
inductive Reads (e : Evaluation) : Spec → Text → Reading → Text → Prop
  | literal {text input gap rest : Text} : text ≠ [] →
      (e.whitespace.skip input e.source).outcome = .ok (text ++ rest) →
      input = gap ++ (text ++ rest) → Reads e (.literal text) input (.literal gap text) rest
  | custom {matcher : Matcher} {input text rest : Text} {token : Token} :
      matcher input = (some token, rest) → input = text ++ rest →
      Reads e (.custom matcher) input (.custom [] text false token) rest
  | reference {name input rest : Text} {rule : Rule} {r : Reading} :
      e.registry.lookup? name = some rule → ReadsRule e rule input r rest →
      Reads e (.reference name) input (.reference name r) rest
  | sequence {items : List Spec} {input rest : Text} {rs : List Reading} :
      ReadsAll e items input rs rest → Reads e (.sequence items) input (.sequence rs) rest
  | alternation {branches : List Spec} {input rest : Text} {r : Reading} :
      ReadsFirst e branches input r rest → Reads e (.alternation branches) input r rest

/-- The policy runs before a rule only if the rule is a matching function that asks for it. -/
inductive ReadsRule (e : Evaluation) : Rule → Text → Reading → Text → Prop
  | body {rule : Rule} {input rest : Text} {r : Reading} :
      (∀ matcher, rule.spec = .custom matcher → rule.whitespace = false) →
      Reads e rule.spec input r rest → ReadsRule e rule input r rest
  | spaced {rule : Rule} {matcher : Matcher} {input gap text rest : Text} {token : Token} :
      rule.spec = .custom matcher → rule.whitespace = true →
      (e.whitespace.skip input e.source).outcome = .ok (text ++ rest) →
      input = gap ++ (text ++ rest) → matcher (text ++ rest) = (some token, rest) →
      ReadsRule e rule input (.custom gap text true token) rest

inductive ReadsAll (e : Evaluation) : List Spec → Text → List Reading → Text → Prop
  | nil {input : Text} : ReadsAll e [] input [] input
  | cons {s : Spec} {ss : List Spec} {input mid rest : Text} {r : Reading} {rs : List Reading} :
      Reads e s input r mid → ReadsAll e ss mid rs rest →
      ReadsAll e (s :: ss) input (r :: rs) rest

/-- The first branch that does not fail reads the input. -/
inductive ReadsFirst (e : Evaluation) : List Spec → Text → Reading → Text → Prop
  | here {s : Spec} {ss : List Spec} {input rest : Text} {r : Reading} :
      Reads e s input r rest → ReadsFirst e (s :: ss) input r rest
  | later {s : Spec} {ss : List Spec} {input rest : Text} {r : Reading} :
      Fails e s input → ReadsFirst e ss input r rest → ReadsFirst e (s :: ss) input r rest

end

/-- Induction over a reading; `R` speaks of rules, `A` of the items of a sequence and `F` of the
branches of a choice. -/
@[elab_as_elim]
theorem Reads.induction {e : Evaluation}
    {motive : ∀ s input r rest, e.Reads s input r rest → Prop}
    {R : Rule → Text → Reading → Text → Prop} {A : List Spec → Text → List Reading → Text → Prop}
    {F : List Spec → Text → Reading → Text → Prop}
    (literal : ∀ {text input gap rest} (ht : text ≠ [])
      (hs : (e.whitespace.skip input e.source).outcome = .ok (text ++ rest))
      (hi : input = gap ++ (text ++ rest)),
      motive (.literal text) input (.literal gap text) rest (.literal ht hs hi))
    (custom : ∀ {matcher input text rest token} (hm : matcher input = (some token, rest))
      (hi : input = text ++ rest),
      motive (.custom matcher) input (.custom [] text false token) rest (.custom hm hi))
    (reference : ∀ {name input rest rule r} (hl : e.registry.lookup? name = some rule)
      (hr : e.ReadsRule rule input r rest), R rule input r rest →
      motive (.reference name) input (.reference name r) rest (.reference hl hr))
    (sequence : ∀ {items input rest rs} (h : e.ReadsAll items input rs rest),
      A items input rs rest → motive (.sequence items) input (.sequence rs) rest (.sequence h))
    (alternation : ∀ {branches input rest r} (h : e.ReadsFirst branches input r rest),
      F branches input r rest → motive (.alternation branches) input r rest (.alternation h))
    (body : ∀ {rule input rest r}
      (_ : ∀ matcher, rule.spec = .custom matcher → rule.whitespace = false)
      (h : e.Reads rule.spec input r rest), motive rule.spec input r rest h → R rule input r rest)
    (spaced : ∀ {rule matcher input gap text rest token} (_ : rule.spec = .custom matcher)
      (_ : rule.whitespace = true)
      (_ : (e.whitespace.skip input e.source).outcome = .ok (text ++ rest))
      (_ : input = gap ++ (text ++ rest)) (_ : matcher (text ++ rest) = (some token, rest)),
      R rule input (.custom gap text true token) rest)
    (nil : ∀ {input}, A [] input [] input)
    (cons : ∀ {s ss input mid rest r rs} (h : e.Reads s input r mid)
      (_ : e.ReadsAll ss mid rs rest), motive s input r mid h → A ss mid rs rest →
      A (s :: ss) input (r :: rs) rest)
    (here : ∀ {s ss input rest r} (h : e.Reads s input r rest), motive s input r rest h →
      F (s :: ss) input r rest)
    (later : ∀ {s ss input rest r} (_ : e.Fails s input) (_ : e.ReadsFirst ss input r rest),
      F ss input r rest → F (s :: ss) input r rest)
    {s : Spec} {input : Text} {r : Reading} {rest : Text} (h : e.Reads s input r rest) :
    motive s input r rest h :=
  @Reads.rec e motive (fun rule input r rest _ => R rule input r rest)
    (fun ss input rs rest _ => A ss input rs rest) (fun ss input r rest _ => F ss input r rest)
    literal custom reference sequence alternation body spaced nil cons here later s input r rest h

section

variable {e : Evaluation} {s : Spec} {input rest : Text} {r : Reading}

theorem Fails.eventually (h : e.Fails s input) :
    ∃ k, ∀ n, k ≤ n → (e.body (e.call n) s input).outcome = .ok (none, input) := by
  obtain ⟨k, hk⟩ := h
  refine ⟨k, fun n hn => ?_⟩
  rw [body_eq_of_le hn (by rw [hk]; exact nofun), hk]

theorem outcome_literal_of_skip {text : Text} (ht : text ≠ [])
    (hs : (e.whitespace.skip input e.source).outcome = .ok (text ++ rest)) :
    (e.literal text input).outcome = .ok (some ⟨.leaf Token.literalType text, false⟩, rest) := by
  rw [outcome_literal ht, hs, Outcome.bind, Text.after?_eq_some_iff.2 rfl]

theorem outcome_custom_of_match {matcher : Matcher} {token : Token} {text : Text}
    (hm : matcher (text ++ rest) = (some token, rest)) :
    (custom matcher (text ++ rest)).outcome = .ok (some ⟨token, true⟩, rest) := by
  unfold custom
  rw [hm]
  simp only [Text.asSuffix?_eq_some_iff.2 ⟨List.suffix_append text rest, rfl⟩]
  rfl

/-- What is read is what the evaluation finds with fuel enough. -/
theorem Reads.eventually (h : e.Reads s input r rest) :
    ∃ k, ∀ n, k ≤ n →
      (e.body (e.call n) s input).outcome = .ok (some r.toMatch, rest) := by
  induction h using Reads.induction
    (R := fun rule input r rest => ∃ k, ∀ n, k ≤ n → (e.apply (e.call n) rule input).outcome =
      .ok (some ⟨r.toMatch.typedAfter rule.name, true⟩, rest))
    (A := fun ss input rs rest => ∃ k, ∀ n, k ≤ n → (e.sequence (e.call n) ss input).outcome =
      .ok (some (Reading.tokens rs, rest)))
    (F := fun ss input r rest => ∃ k, ∀ n, k ≤ n → (e.alternation (e.call n) ss input).outcome =
      .ok (some r.toMatch, rest)) with
  | literal ht hs _ => exact ⟨0, fun n _ => outcome_literal_of_skip ht hs⟩
  | custom hm hi =>
      subst hi
      exact ⟨0, fun n _ => outcome_custom_of_match hm⟩
  | @reference name input rest rule r hl _ ih =>
      obtain ⟨k, hk⟩ := ih
      refine ⟨k + 1, fun n hn => ?_⟩
      obtain ⟨n, rfl⟩ : ∃ j, n = j + 1 := ⟨n - 1, by omega⟩
      show (e.call (n + 1) name input).outcome = _
      unfold call
      rw [hl]
      show (e.apply (e.call n) rule input).outcome = _
      rw [hk n (Nat.le_of_succ_le_succ hn), Registry.name_of_lookup? hl]
      rfl
  | sequence _ ih =>
      obtain ⟨k, hk⟩ := ih
      refine ⟨k, fun n hn => ?_⟩
      rw [outcome_body_sequence, hk n hn]
      rfl
  | alternation _ ih => exact ih
  | @body rule input rest r hw _ ih =>
      obtain ⟨k, hk⟩ := ih
      refine ⟨k, fun n hn => ?_⟩
      -- The start of the rule is decided by its body, not by the reading.
      rcases start_eq e rule input with ⟨matcher, hm, hws, -⟩ | ⟨-, hs⟩
      · rw [hw matcher hm] at hws
        cases hws
      · rw [outcome_apply, hs, Run.outcome_pure, Outcome.bind, hk n hn]
        rfl
  | @spaced rule matcher input gap text rest token hm hws hs _ hmatch =>
      refine ⟨0, fun n _ => ?_⟩
      rcases start_eq e rule input with ⟨_, -, -, hstart⟩ | ⟨hw, -⟩
      · rw [outcome_apply, hstart, hs, Outcome.bind, hm]
        show ((Evaluation.custom matcher (text ++ rest)).outcome.bind _) = _
        rw [outcome_custom_of_match hmatch]
        rfl
      · rw [hw matcher hm] at hws
        cases hws
  | nil => exact ⟨0, fun _ _ => rfl⟩
  | cons _ _ ihr ihrs =>
      obtain ⟨k, hk⟩ := ihr
      obtain ⟨l, hl⟩ := ihrs
      refine ⟨max k l, fun n hn => ?_⟩
      rw [outcome_sequence_cons, hk n (le_trans (le_max_left k l) hn), Outcome.bind]
      simp only [hl n (le_trans (le_max_right k l) hn)]
      rfl
  | here _ ih =>
      obtain ⟨k, hk⟩ := ih
      refine ⟨k, fun n hn => ?_⟩
      rw [outcome_alternation_cons, hk n hn]
      rfl
  | later hf _ ih =>
      obtain ⟨k, hk⟩ := hf.eventually
      obtain ⟨l, hl⟩ := ih
      refine ⟨max k l, fun n hn => ?_⟩
      rw [outcome_alternation_cons, hk n (le_trans (le_max_left k l) hn), Outcome.bind]
      exact hl n (le_trans (le_max_right k l) hn)

theorem Reads.not_fails (h : e.Reads s input r rest) : ¬e.Fails s input := by
  intro hf
  obtain ⟨k, hk⟩ := h.eventually
  obtain ⟨l, hl⟩ := hf.eventually
  have hkl := (hk (max k l) (le_max_left k l)).symm.trans (hl (max k l) (le_max_right k l))
  cases hkl

/-- A body reads an input in one way only. -/
theorem Reads.unique (h : e.Reads s input r rest) {r' : Reading} {rest' : Text}
    (h' : e.Reads s input r' rest') : r' = r ∧ rest' = rest := by
  induction h using Reads.induction
    (R := fun rule input r rest => ∀ r' rest', e.ReadsRule rule input r' rest' →
      r' = r ∧ rest' = rest)
    (A := fun ss input rs rest => ∀ rs' rest', e.ReadsAll ss input rs' rest' →
      rs' = rs ∧ rest' = rest)
    (F := fun ss input r rest => ∀ r' rest', e.ReadsFirst ss input r' rest' →
      r' = r ∧ rest' = rest) generalizing r' rest' with
  | literal _ hs hi =>
      cases h' with
      | literal _ hs' hi' =>
          obtain rfl := List.append_cancel_left (Outcome.ok.inj (hs.symm.trans hs'))
          obtain rfl := List.append_cancel_right (hi.symm.trans hi')
          exact ⟨rfl, rfl⟩
  | custom hm hi =>
      cases h' with
      | custom hm' hi' =>
          obtain ⟨ht, rfl⟩ := Prod.mk.inj (hm.symm.trans hm')
          obtain rfl := Option.some.inj ht
          obtain rfl := List.append_cancel_right (hi.symm.trans hi')
          exact ⟨rfl, rfl⟩
  | reference hl _ ih =>
      cases h' with
      | reference hl' hr' =>
          obtain rfl := Option.some.inj (hl.symm.trans hl')
          obtain ⟨rfl, rfl⟩ := ih _ _ hr'
          exact ⟨rfl, rfl⟩
  | sequence _ ih =>
      cases h' with
      | sequence h' =>
          obtain ⟨rfl, rfl⟩ := ih _ _ h'
          exact ⟨rfl, rfl⟩
  | alternation _ ih =>
      cases h' with
      | alternation h' => exact ih _ _ h'
  | body hw _ ih r' rest' h' =>
      cases h' with
      | body _ h' => exact ih h'
      | spaced hm hws => rw [hw _ hm] at hws; cases hws
  | spaced hm hws hs hi hmatch r' rest' h' =>
      cases h' with
      | body hw => rw [hw _ hm] at hws; cases hws
      | spaced hm' _ hs' hi' hmatch' =>
          obtain rfl := Spec.custom.inj (hm.symm.trans hm')
          have hstart := Outcome.ok.inj (hs.symm.trans hs')
          rw [← hstart] at hmatch' hi'
          obtain ⟨ht, rfl⟩ := Prod.mk.inj (hmatch.symm.trans hmatch')
          obtain rfl := Option.some.inj ht
          obtain rfl := List.append_cancel_right hstart
          obtain rfl := List.append_cancel_right (hi.symm.trans hi')
          exact ⟨rfl, rfl⟩
  | nil rs' rest' h' =>
      cases h' with
      | nil => exact ⟨rfl, rfl⟩
  | cons _ _ ihr ihrs rs' rest' h' =>
      cases h' with
      | cons hr' hrs' =>
          obtain ⟨rfl, rfl⟩ := ihr hr'
          obtain ⟨rfl, rfl⟩ := ihrs _ _ hrs'
          exact ⟨rfl, rfl⟩
  | here hr ih r' rest' h' =>
      cases h' with
      | here hr' => exact ih hr'
      | later hf _ => exact absurd hf hr.not_fails
  | later hf _ ih r' rest' h' =>
      cases h' with
      | here hr' => exact absurd hf hr'.not_fails
      | later _ h' => exact ih _ _ h'

end

section

variable {e : Evaluation} {n : Nat} {input rest : Text} {m : Match}

theorem reads_of_literal {text : Text}
    (h : (e.literal text input).outcome = .ok (some m, rest)) :
    ∃ r, e.Reads (.literal text) input r rest ∧ r.toMatch = m := by
  by_cases ht : text = []
  · rw [ht] at h
    cases h
  · rw [outcome_literal ht, Outcome.bind_eq_ok_iff] at h
    obtain ⟨skipped, hs, h⟩ := h
    cases hr : Text.after? text skipped with
    | none => rw [hr] at h; cases h
    | some rest' =>
        rw [hr] at h
        cases h
        obtain rfl := Text.after?_eq_some_iff.1 hr
        obtain ⟨gap, hg⟩ := Whitespace.suffix_of_skip hs
        exact ⟨_, .literal ht hs hg.symm, rfl⟩

theorem exists_text_of_custom {matcher : Matcher}
    (h : (custom matcher input).outcome = .ok (some m, rest)) :
    ∃ token text, input = text ++ rest ∧ matcher input = (some token, rest) ∧
      m = ⟨token, true⟩ := by
  rcases outcome_custom matcher input with ⟨token, rest', hm, ⟨text, ht⟩, ho⟩ | ho
  · rw [ho] at h
    cases h
    exact ⟨token, text, ht.symm, hm, rfl⟩
  · rw [ho] at h
    cases h

theorem fails_of_body {s : Spec} {rest : Text}
    (h : (e.body (e.call n) s input).outcome = .ok (none, rest)) : e.Fails s input := by
  have hk := body_keeps e n s input
  rw [h] at hk
  exact ⟨n, by rw [h]; exact congrArg (fun t => Outcome.ok (none, t)) hk⟩

/-- Every match of a name within the depth has a reading. -/
def CallsRead (e : Evaluation) (n : Nat) : Prop :=
  ∀ name input m rest, (e.call n name input).outcome = .ok (some m, rest) →
    ∃ r, e.Reads (.reference name) input r rest ∧ r.toMatch = m

/-- Every match of a body has a reading, if every match of a name has one. -/
theorem reads_of_body (hcall : e.CallsRead n) (s : Spec) (input : Text) :
    ∀ m rest, (e.body (e.call n) s input).outcome = .ok (some m, rest) →
      ∃ r, e.Reads s input r rest ∧ r.toMatch = m := by
  induction s, input using step_induction
    (A := fun ss input => ∀ m rest,
      (e.alternation (e.call n) ss input).outcome = .ok (some m, rest) →
      ∃ r, e.ReadsFirst ss input r rest ∧ r.toMatch = m)
    (S := fun ss input => ∀ tokens rest,
      (e.sequence (e.call n) ss input).outcome = .ok (some (tokens, rest)) →
      ∃ rs, e.ReadsAll ss input rs rest ∧ Reading.tokens rs = tokens) with
  | literal text input => exact fun m rest h => reads_of_literal h
  | reference name input => exact hcall name input
  | custom matcher input =>
      intro m rest h
      obtain ⟨token, text, hi, hm, rfl⟩ := exists_text_of_custom h
      exact ⟨_, .custom hm hi, rfl⟩
  | alternation branches input ih =>
      intro m rest h
      obtain ⟨r, hr, hm⟩ := ih m rest h
      exact ⟨r, .alternation hr, hm⟩
  | sequence items input ih =>
      intro m rest h
      rw [outcome_body_sequence, Outcome.bind_eq_ok_iff] at h
      obtain ⟨o, ho, h⟩ := h
      cases o with
      | none => cases h
      | some o =>
          obtain ⟨tokens, rest'⟩ := o
          cases h
          obtain ⟨rs, hrs, rfl⟩ := ih tokens _ ho
          exact ⟨_, .sequence hrs, rfl⟩
  | noBranch input m rest h => cases h
  | branch b bs input ihb ihbs m rest h =>
      rw [outcome_alternation_cons, Outcome.bind_eq_ok_iff] at h
      obtain ⟨⟨o, rest'⟩, ho, h⟩ := h
      cases o with
      | some m' =>
          cases h
          obtain ⟨r, hr, hm⟩ := ihb _ _ ho
          exact ⟨r, .here hr, hm⟩
      | none =>
          obtain ⟨r, hr, hm⟩ := ihbs m rest h
          exact ⟨r, .later (fails_of_body ho) hr, hm⟩
  | noItem input tokens rest h =>
      cases h
      exact ⟨[], .nil, rfl⟩
  | item i is input ihi ihis tokens rest h =>
      rw [outcome_sequence_cons, Outcome.bind_eq_ok_iff] at h
      obtain ⟨⟨o, mid⟩, ho, h⟩ := h
      cases o with
      | none => cases h
      | some m =>
          obtain ⟨r, hr, rfl⟩ := ihi m mid ho
          obtain ⟨o', ho', h⟩ := Outcome.bind_eq_ok_iff.1 h
          cases o' with
          | none => cases h
          | some o' =>
              obtain ⟨tokens', rest'⟩ := o'
              cases h
              obtain ⟨rs, hrs, rfl⟩ := ihis mid tokens' _ ho'
              exact ⟨r :: rs, .cons hr hrs, rfl⟩

theorem readsRule_of_apply (hcall : e.CallsRead n) {rule : Rule}
    (h : (e.apply (e.call n) rule input).outcome = .ok (some m, rest)) :
    ∃ r, e.ReadsRule rule input r rest ∧ ⟨r.toMatch.typedAfter rule.name, true⟩ = m := by
  rw [outcome_apply, Outcome.bind_eq_ok_iff] at h
  obtain ⟨start, hstart, h⟩ := h
  rw [Outcome.bind_eq_ok_iff] at h
  obtain ⟨⟨o, rest'⟩, ho, h⟩ := h
  cases o with
  | none => cases h
  | some m' =>
      cases h
      rcases start_eq e rule input with ⟨matcher, hm, hws, hs⟩ | ⟨hw, hs⟩
      · rw [hs] at hstart
        rw [hm] at ho
        obtain ⟨token, text, rfl, hmatch, rfl⟩ := exists_text_of_custom ho
        obtain ⟨gap, hg⟩ := Whitespace.suffix_of_skip hstart
        exact ⟨_, .spaced hm hws hstart hg.symm hmatch, rfl⟩
      · rw [hs] at hstart
        cases hstart
        obtain ⟨r, hr, rfl⟩ := reads_of_body hcall rule.spec input _ _ ho
        exact ⟨r, .body hw hr, rfl⟩

theorem reads_of_call (e : Evaluation) (n : Nat) : e.CallsRead n := by
  induction n with
  | zero => exact fun _ _ _ _ h => nomatch h
  | succ n ih =>
      intro name input m rest h
      unfold call at h
      cases hl : e.registry.lookup? name with
      | none => rw [hl] at h; cases h
      | some rule =>
          rw [hl] at h
          obtain ⟨r, hr, rfl⟩ := readsRule_of_apply ih h
          rw [Registry.name_of_lookup? hl]
          exact ⟨_, .reference hl hr, rfl⟩

/-- The token of an evaluation is that of a reading of the rule. -/
theorem readsRule_of_rule {rule : Rule} {token : Token}
    (h : (e.rule rule input).outcome = .ok (some token, rest)) :
    ∃ r, e.ReadsRule rule input r rest ∧ (Reading.reference rule.name r).token = token := by
  unfold Evaluation.rule at h
  rw [Run.outcome_bind, Outcome.bind_eq_ok_iff] at h
  obtain ⟨⟨m, rest'⟩, ho, h⟩ := h
  cases m with
  | none => cases h
  | some m =>
      cases h
      obtain ⟨r, hr, rfl⟩ := readsRule_of_apply (reads_of_call e _) ho
      exact ⟨r, hr, rfl⟩

end

end Evaluation

end Descent
