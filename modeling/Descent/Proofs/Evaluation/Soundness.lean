import Mathlib
import Descent.Proofs.Evaluation.Reading
import Descent.Proofs.Grammar.Derivation
import Descent.Proofs.Registry.Names

/-! Soundness of the trees. Without matching functions every token is the image of a derivation in
the rules, read as a context-free grammar. -/

namespace Descent

namespace Reading

mutual

/-- The derivation that a reading follows. What a matching function took counts as a literal. -/
def derivation : Reading → Derivation
  | literal _ text => .literal text
  | custom _ text _ _ => .literal text
  | sequence items => .sequence (derivations items)
  | reference name body => .reference name (derivation body)

def derivations : List Reading → List Derivation
  | [] => []
  | r :: rs => derivation r :: derivations rs

end

end Reading

namespace Evaluation

section

variable {e : Evaluation} {s : Spec} {input rest : Text} {r : Reading}

/-- What is typed without a matching function is typed by a rule that reads all of it. -/
theorem Reads.of_named (h : e.Reads s input r rest) :
    s.NoCustom → r.named = true →
      ∃ name body, r = .reference name body ∧ e.Reads (.reference name) input r rest := by
  induction h using Reads.induction
    (R := fun _ _ _ _ => True) (A := fun _ _ _ _ => True)
    (F := fun ss input r rest => (∀ s ∈ ss, s.NoCustom) → r.named = true →
      ∃ name body, r = .reference name body ∧ e.Reads (.reference name) input r rest) with
  | literal => exact fun _ hn => nomatch hn
  | custom => exact fun hs _ => absurd rfl (hs.ne_custom _)
  | reference hl hr _ => exact fun _ _ => ⟨_, _, rfl, .reference hl hr⟩
  | sequence => exact fun _ hn => nomatch hn
  | alternation _ ih => exact fun hs => ih hs.of_alternation
  | body => trivial
  | spaced => trivial
  | nil => trivial
  | cons => trivial
  | here _ ih hs hn => exact ih (hs _ List.mem_cons_self) hn
  | later _ _ ih hs hn => exact ih (fun s hmem => hs s (List.mem_cons_of_mem _ hmem)) hn

/-- A rule never comes to its own name without reading anything before it. -/
theorem Reads.not_reads_body {name : Text}
    (h : e.Reads (.reference name) input (.reference name r) rest) :
    ¬e.Reads (.reference name) input r rest := by
  intro hbody
  obtain ⟨heq, -⟩ := h.unique hbody
  have hsize := congrArg sizeOf heq
  simp only [Reading.reference.sizeOf_spec] at hsize
  omega

/-- The token of a rule is the image of its derivation if the token of its body is. -/
theorem Reads.token_reference {name : Text}
    (h : e.Reads (.reference name) input (.reference name r) rest)
    (hnamed : r.named = true →
      ∃ name body, r = .reference name body ∧ e.Reads (.reference name) input r rest)
    (himage : r.derivation.image = r.token) (href : r.derivation.isReference = r.named) :
    (Derivation.reference name r.derivation).image = (Reading.reference name r).token := by
  rw [Derivation.image, Reading.token, himage, href]
  cases hn : r.named with
  | false =>
      rw [if_neg Bool.false_ne_true]
      unfold Match.typedAfter
      by_cases ht : r.token.type = name
      · subst ht
        rw [if_pos rfl, Token.relabel_type]
      · rw [if_neg ht, if_neg Bool.false_ne_true]
  | true =>
      -- The rule of the body reads the same input, so it is another one, and its name stays.
      obtain ⟨name', body, rfl, hbody⟩ := hnamed hn
      have hne : name' ≠ name := by
        rintro rfl
        exact h.not_reads_body hbody
      have ht : (Reading.reference name' body).token.type = name' := Match.type_typedAfter _ _
      rw [if_pos rfl]
      unfold Match.typedAfter
      rw [if_neg fun heq => hne (ht.symm.trans heq), if_pos rfl]

/-- A reading without matching functions follows a derivation, and its token is the image. -/
theorem Reads.derives (hc : ∀ rule ∈ e.registry.rules, rule.spec.NoCustom)
    (h : e.Reads s input r rest) :
    s.NoCustom → e.registry.Derives s r.derivation ∧ r.derivation.image = r.token ∧
      r.derivation.isReference = r.named := by
  induction h using Reads.induction
    (R := fun rule _ r _ => rule.spec.NoCustom → e.registry.Derives rule.spec r.derivation ∧
      r.derivation.image = r.token ∧ r.derivation.isReference = r.named)
    (A := fun ss _ rs _ => (∀ s ∈ ss, s.NoCustom) →
      e.registry.DerivesAll ss (Reading.derivations rs) ∧
        Derivation.images (Reading.derivations rs) = Reading.tokens rs)
    (F := fun ss _ r _ => (∀ s ∈ ss, s.NoCustom) → ∃ s ∈ ss, e.registry.Derives s r.derivation ∧
      r.derivation.image = r.token ∧ r.derivation.isReference = r.named) with
  | literal => exact fun _ => ⟨.literal, rfl, rfl⟩
  | custom => exact fun hs => absurd rfl (hs.ne_custom _)
  | @reference name input rest rule r hl hr ih =>
      intro _
      have hrule := hc rule (Registry.mem_of_lookup? hl)
      have hreads : e.Reads (.reference name) input (.reference name r) rest := .reference hl hr
      obtain ⟨hderives, himage, href⟩ := ih hrule
      refine ⟨.reference hl hderives, hreads.token_reference (fun hn => ?_) himage href, rfl⟩
      cases hr with
      | body _ h => exact h.of_named hrule hn
      | spaced hm => exact absurd hm (hrule.ne_custom _)
  | sequence _ ih =>
      intro hs
      obtain ⟨hderives, himages⟩ := ih hs.of_sequence
      refine ⟨.sequence hderives, ?_, rfl⟩
      rw [Reading.derivation, Derivation.image, himages, Reading.token]
  | alternation _ ih =>
      intro hs
      obtain ⟨s, hmem, hderives, himage⟩ := ih hs.of_alternation
      exact ⟨.alternation hmem hderives, himage⟩
  | body _ _ ih hrule => exact ih hrule
  | spaced hm _ _ _ _ hrule => exact absurd hm (hrule.ne_custom _)
  | nil hs => exact ⟨.nil, rfl⟩
  | cons _ _ ihr ihrs hs =>
      obtain ⟨hd, himage, -⟩ := ihr (hs _ List.mem_cons_self)
      obtain ⟨hds, himages⟩ := ihrs fun s hmem => hs s (List.mem_cons_of_mem _ hmem)
      refine ⟨.cons hd hds, ?_⟩
      rw [Reading.derivations, Derivation.images, himage, himages, Reading.tokens]
  | here _ ih hs => exact ⟨_, List.mem_cons_self, ih (hs _ List.mem_cons_self)⟩
  | later _ _ ih hs =>
      obtain ⟨s, hmem, hd⟩ := ih fun s hmem => hs s (List.mem_cons_of_mem _ hmem)
      exact ⟨s, List.mem_cons_of_mem _ hmem, hd⟩

end

/-- Without matching functions the tree of a rule is the image of the derivation that the evaluation
followed. Its root is typed after the rule, every rule that was applied has a token of its name, and
the texts of its leaves are a word of the language of the rule. -/
theorem tree_follows_derivation (e : Evaluation) {name : Text} {rule : Rule} {input rest : Text}
    {token : Token} (hl : e.registry.lookup? name = some rule)
    (hc : ∀ q ∈ e.registry.rules, q.spec.NoCustom)
    (h : (e.rule rule input).outcome = .ok (some token, rest)) :
    ∃ r, e.Reads (.reference name) input r rest ∧
      e.registry.Derives (.reference name) r.derivation ∧ token = r.derivation.image ∧
      token.type = name ∧
      r.derivation.names.Sublist ((token :: token.descendants).map Token.type) ∧
      (token.frontier.filter (·.isLeaf)).map Token.value ∈ e.registry.language name := by
  obtain ⟨r, hr, htoken⟩ := readsRule_of_rule h
  rw [Registry.name_of_lookup? hl] at htoken
  have hreads : e.Reads (.reference name) input (.reference name r) rest := .reference hl hr
  have hname : (Spec.reference name).NoCustom := fun _ hm => nomatch List.mem_singleton.1 hm
  obtain ⟨hderives, himage, -⟩ := hreads.derives hc hname
  have himage : token = (Reading.reference name r).derivation.image := by rw [himage, htoken]
  refine ⟨.reference name r, hreads, hderives, himage, ?_, ?_, ?_⟩
  · rw [himage]
    exact Derivation.type_image_reference name _
  · rw [← Token.preorder_eq_cons_descendants, himage]
    exact (Derivation.names_sublist _).1
  · have hword := hderives.word_mem_language
    rw [← Derivation.leafTexts_image, ← himage] at hword
    exact hword

def aThenB : Rule :=
  ⟨['s'], .alternation [.sequence [.literal ['a'], .reference ['s']],
    .reference Token.literalType], false⟩

/-- A rule has the name of the general type of literals. -/
def letters : Evaluation :=
  ⟨.ofRules [aThenB, ⟨Token.literalType, .literal ['b'], false⟩] (some 0), .keep, ['a', 'b']⟩

theorem tree_follows_derivation_letters :
    letters.registry.lookup? ['s'] = some aThenB ∧
    (∀ q ∈ letters.registry.rules, q.spec.NoCustom) ∧
    (letters.rule aThenB ['a', 'b']).outcome =
      .ok (some (.node ['s'] [.leaf Token.literalType ['a'],
        .node ['s'] [.leaf Token.literalType ['b']]]), []) ∧
    [['a'], ['b']] ∈ letters.registry.language ['s'] := by
  have hl : letters.registry.lookup? ['s'] = some aThenB := by rfl
  have hc : ∀ q ∈ letters.registry.rules, q.spec.NoCustom := by
    intro q hq
    simp only [letters, Registry.rules_ofRules, List.mem_cons, List.not_mem_nil, or_false] at hq
    rcases hq with rfl | rfl
    · simp [Spec.NoCustom, aThenB, Spec.parts, Spec.partsAll]
    · simp [Spec.NoCustom, Spec.parts]
  have hr : (letters.rule aThenB ['a', 'b']).outcome =
      .ok (some (.node ['s'] [.leaf Token.literalType ['a'],
        .node ['s'] [.leaf Token.literalType ['b']]]), []) := by cbv
  obtain ⟨r, -, -, -, -, -, hword⟩ := tree_follows_derivation letters hl hc hr
  have htexts : ((Token.node ['s'] [.leaf Token.literalType ['a'],
      .node ['s'] [.leaf Token.literalType ['b']]]).frontier.filter (·.isLeaf)).map Token.value =
        [['a'], ['b']] := by cbv
  rw [htexts] at hword
  exact ⟨hl, hc, hr, hword⟩
end Evaluation

end Descent
