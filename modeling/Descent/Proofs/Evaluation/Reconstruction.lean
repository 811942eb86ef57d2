import Mathlib
import Descent.Proofs.CharacterRule
import Descent.Proofs.Evaluation.Pieces
import Descent.Proofs.Grammar.Shape
import Descent.Proofs.Registry.Names

/-! The tree of a match and the source. The texts of the tree, in order and each behind the gap that
the policy prescribes at its place, are what was consumed of the source. -/

namespace Descent

/-- The run of characters of the class before `after`, which does not go on with the class. -/
def IsRun (inClass : Char → Bool) (run after : Text) : Prop :=
  (∀ c ∈ run, inClass c = true) ∧ ∀ c ∈ after.head?, inClass c = false

theorem isRun_of_dropWhile {inClass : Char → Bool} {run after : Text}
    (h : (run ++ after).dropWhile inClass = after) : IsRun inClass run after := by
  have htake : (run ++ after).takeWhile inClass = run := by
    have hsplit := List.takeWhile_append_dropWhile (p := inClass) (l := run ++ after)
    rw [h] at hsplit
    exact List.append_cancel_right hsplit
  constructor
  · intro c hc
    rw [← htake] at hc
    exact List.mem_takeWhile_imp hc
  · intro c hc
    have hhead := List.head?_dropWhile_not inClass (run ++ after)
    rw [h, Option.mem_def.1 hc] at hhead
    simpa using hhead

namespace Whitespace

/-- The gap that the policy leaves between what stands before it and `after`; `first` tells that
nothing stands before it. A policy function may leave any gap. -/
def IsGap (policy : Whitespace) (first : Prop) (gap after : Text) : Prop :=
  match policy with
  | keep => gap = []
  | ignore => IsRun isBlank gap after
  | ignoreSpecific chars => IsRun (chars.contains ·) gap after
  | require phrase trim =>
      (first → gap = []) ∧
        (¬first → ∃ blanks, gap = phrase ++ blanks ∧
          if trim then IsRun isBlank blanks after else blanks = [])
  | custom skip => gap = [] ∨ skip (gap ++ after) = after

theorem isGap_of_skipPhrase {phrase gap after source : Text} {trim : Bool} {first : Prop}
    (ha : after ≠ []) (hfirst : first ↔ source.size ≤ (gap ++ after).size)
    (h : (skipPhrase phrase trim (gap ++ after) source).outcome = .ok after) :
    (require phrase trim).IsGap first gap after := by
  have hinput : gap ++ after ≠ [] := fun hn => ha (List.append_eq_nil_iff.1 hn).2
  unfold skipPhrase at h
  by_cases hf : first
  · rw [if_neg fun hb => Nat.not_lt_of_le (hfirst.1 hf) hb.1] at h
    have hgap := List.append_left_eq_self.1 (Outcome.ok.inj h)
    exact ⟨fun _ => hgap, fun hn => absurd hf hn⟩
  · refine ⟨fun hf' => absurd hf' hf, fun _ => ?_⟩
    rw [if_pos ⟨Nat.lt_of_not_le fun hle => hf (hfirst.2 hle), hinput⟩] at h
    split at h
    · next rest hr =>
        have hrest := Text.after?_eq_some_iff.1 hr
        have hskip := Outcome.ok.inj h
        cases trim with
        | false =>
            refine ⟨[], ?_, rfl⟩
            rw [if_neg Bool.false_ne_true] at hskip
            rw [hskip] at hrest
            rw [List.append_nil]
            exact List.append_cancel_right hrest
        | true =>
            rw [if_pos rfl] at hskip
            obtain ⟨blanks, hblanks⟩ : after <:+ rest := hskip ▸ List.dropWhile_suffix _
            refine ⟨blanks, ?_, isRun_of_dropWhile (hblanks ▸ hskip)⟩
            rw [← hblanks, ← List.append_assoc] at hrest
            exact List.append_cancel_right hrest
    · cases h

theorem isGap_of_skip {policy : Whitespace} {gap after source : Text} {first : Prop}
    (ha : after ≠ []) (hfirst : first ↔ source.size ≤ (gap ++ after).size)
    (h : (policy.skip (gap ++ after) source).outcome = .ok after) :
    policy.IsGap first gap after := by
  cases policy with
  | keep => exact List.append_left_eq_self.1 (Outcome.ok.inj h)
  | ignore => exact isRun_of_dropWhile (Outcome.ok.inj h)
  | ignoreSpecific chars => exact isRun_of_dropWhile (Outcome.ok.inj h)
  | require phrase trim => exact isGap_of_skipPhrase ha hfirst h
  | custom skip =>
      simp only [Whitespace.skip] at h
      split at h
      · next rest hr =>
          cases h
          exact .inr (Text.asSuffix?_eq_some_iff.1 hr).2
      · exact .inl (List.append_left_eq_self.1 (Outcome.ok.inj h))

end Whitespace

/-- Bodies without empty sequences, whose matching functions take the text of their leaf. -/
structure Spec.Verbatim (s : Spec) : Prop where
  items : .sequence [] ∉ s.parts
  matchers : ∀ matcher, .custom matcher ∈ s.parts → Matcher.Verbatim matcher

theorem Spec.Compiled.verbatim {s : Spec} (h : s.Compiled) : s.Verbatim where
  items hs := h.allProper _ hs rfl
  matchers _ hm := (h.allProper _ hm).elim

/-- A leaf with the text that was taken. -/
def IsLeafOf (text : Text) (token : Token) : Prop := text ≠ [] ∧ ∃ type, token = .leaf type text

theorem Spec.Verbatim.regular {s : Spec} (h : s.Verbatim) : s.Regular IsLeafOf := by
  intro a ha
  cases a with
  | literal text => trivial
  | reference name => trivial
  | alternation branches => trivial
  | sequence items =>
      rintro rfl
      exact h.items ha
  | custom matcher =>
      intro text token rest hm
      obtain ⟨type, text', rfl, ht, he⟩ := h.matchers matcher ha _ _ _ hm
      obtain rfl := List.append_cancel_right he
      exact ⟨ht, type, rfl⟩

/-- Bodies with neither empty sequences nor matching functions take all their text by literals. -/
theorem Spec.NoCustom.regular {s : Spec} (hc : s.NoCustom) (hs : .sequence [] ∉ s.parts) :
    s.Regular fun _ _ => False := by
  intro a ha
  cases a with
  | literal text => trivial
  | reference name => trivial
  | alternation branches => trivial
  | sequence items =>
      rintro rfl
      exact hs ha
  | custom matcher => exact absurd ha (hc matcher)

theorem intercalate_cons_eq (phrase x : Text) (xs : List Text) :
    phrase.intercalate (x :: xs) = x ++ xs.flatMap (phrase ++ ·) := by
  induction xs generalizing x with
  | nil => simp
  | cons y xs ih => rw [List.intercalate_cons_cons, ih, List.flatMap_cons, List.append_assoc,
      List.append_assoc]

namespace Evaluation

section

variable {e : Evaluation} {input rest : Text} {ps : List Piece}

/-- A piece has the gap that its policy leaves at its place; without the policy it has none. -/
def GapsIn (e : Evaluation) (ps : List Piece) (rest : Text) : Prop :=
  ∀ before p after, ps = before ++ p :: after →
    if p.spaced then
      e.whitespace.IsGap (before = []) p.gap (p.text ++ (after.flatMap Piece.written ++ rest))
    else p.gap = []

theorem Spells.gapsIn (h : e.Spells e.source ps rest) (ht : ∀ p ∈ ps, p.text ≠ []) :
    e.GapsIn ps rest := by
  rintro before p after rfl
  obtain ⟨mid, hbefore, hafter⟩ := h.split
  -- The policy sees whether anything was taken before by the length of what is left.
  have hfirst : before = [] ↔ e.source.size ≤ mid.size := by
    constructor
    · rintro rfl
      rw [hbefore.written]
      exact Nat.le_refl _
    · intro hle
      by_contra hne
      have hlt := hbefore.size_lt hne fun p hp => ht p (List.mem_append_left _ hp)
      omega
  have htext : p.text ≠ [] := ht p (List.mem_append_right _ List.mem_cons_self)
  cases hafter with
  | unspaced _ => rfl
  | @spaced gap text rest' _ _ hskip hrest =>
      rw [if_pos rfl, ← hrest.written]
      exact Whitespace.isGap_of_skip (fun hn => htext (List.append_eq_nil_iff.1 hn).1) hfirst hskip

theorem GapsIn.of_mem (h : e.GapsIn ps rest) {p : Piece} (hp : p ∈ ps) :
    p.gap = [] ∨ ∃ first after, e.whitespace.IsGap first p.gap after := by
  obtain ⟨before, after, hs⟩ := List.append_of_mem hp
  have hgap := h before p after hs
  split at hgap
  · exact .inr ⟨_, _, hgap⟩
  · exact .inl hgap

theorem GapsIn.written_keep (h : e.GapsIn ps rest) (hk : e.whitespace = .keep) :
    ps.flatMap Piece.written = (ps.map (·.text)).flatten := by
  rw [List.flatMap_def]
  congr 1
  refine List.map_congr_left fun p hp => ?_
  have hgap : p.gap = [] := by
    rcases h.of_mem hp with hgap | ⟨_, _, hgap⟩
    · exact hgap
    · rw [hk] at hgap
      exact hgap
  rw [Piece.written, hgap, List.nil_append]

theorem GapsIn.written_require (h : e.GapsIn ps rest) {phrase : Text}
    (hr : e.whitespace = .require phrase false) (hs : ∀ p ∈ ps, p.spaced = true) :
    ps.flatMap Piece.written = phrase.intercalate (ps.map (·.text)) := by
  cases ps with
  | nil => rfl
  | cons p ps =>
      have hfirst : p.gap = [] := by
        have hgap := h [] p ps rfl
        rw [if_pos (hs p List.mem_cons_self), hr] at hgap
        exact hgap.1 rfl
      have hlater : ∀ q ∈ ps, q.written = phrase ++ q.text := by
        intro q hq
        obtain ⟨before, after, rfl⟩ := List.append_of_mem hq
        have hgap := h (p :: before) q after rfl
        rw [if_pos (hs q (List.mem_cons_of_mem _ hq)), hr] at hgap
        obtain ⟨blanks, hq, rfl⟩ := hgap.2 (List.cons_ne_nil _ _)
        rw [Piece.written, hq, List.append_nil]
      rw [List.flatMap_cons, Piece.written, hfirst, List.nil_append, List.flatMap_congr hlater,
        List.map_cons, intercalate_cons_eq, List.flatMap_map]

end

/-- The source is what the pieces wrote and the rest, and the token has their texts. -/
structure Reconstructs (e : Evaluation) (ps : List Piece) (token : Token) (rest : Text) : Prop where
  some_piece : ps ≠ []
  source_eq : e.source = ps.flatMap Piece.written ++ rest
  texts_eq : token.frontier.map Token.value = ps.map (·.text)
  value_eq : token.value = (ps.map (·.text)).flatten
  text_ne_nil : ∀ p ∈ ps, p.text ≠ []
  gaps : e.GapsIn ps rest

theorem ReadsRule.reconstructs {e : Evaluation} {rule : Rule} {r : Reading} {rest : Text}
    (h : e.ReadsRule rule e.source r rest)
    (hv : ∀ q ∈ rule :: e.registry.rules, q.spec.Verbatim) :
    e.Reconstructs r.pieces (Reading.reference rule.name r).token rest := by
  have hr : r.Regular IsLeafOf := h.regular fun q hq => (hv q hq).regular
  have htexts : (Reading.reference rule.name r).token.texts = r.pieces.map (·.text) := by
    have hreg : (Reading.reference rule.name r).Regular IsLeafOf := hr
    refine hreg.texts_token ?_
    rintro text token ⟨-, type, rfl⟩
    exact Token.texts_leaf type text
  have ht : ∀ p ∈ r.pieces, p.text ≠ [] :=
    hr.of_mem_pieces (fun _ _ h => h) fun _ _ _ _ h => h.1
  exact {
    some_piece := hr.pieces_ne_nil
    source_eq := h.spells.written
    texts_eq := htexts
    value_eq := by rw [Token.value_eq_flatten_texts, htexts]
    text_ne_nil := ht
    gaps := h.spells.gapsIn ht }

/-- The texts of a tree, each behind the gap that the policy prescribes at its place, are the part
of the source that was consumed. The pieces are those that the evaluation took: with the record of
a match it is told where a matching function ran without the policy. -/
theorem evaluation_reconstructs_source :
    (∀ name matcher, (name, matcher) ∈ CharacterRule.all → matcher.Verbatim) ∧
    (∀ s : Spec, s.Compiled → s.Verbatim) ∧
    ∀ (e : Evaluation) (rule : Rule) (token : Token) (rest : Text),
      (∀ q ∈ rule :: e.registry.rules, q.spec.Verbatim) →
      (e.rule rule e.source).outcome = .ok (some token, rest) →
      ∃ r, e.ReadsRule rule e.source r rest ∧ token = (Reading.reference rule.name r).token ∧
        e.Reconstructs r.pieces token rest ∧
        (e.whitespace = .keep → token.value ++ rest = e.source) ∧
        ∀ phrase, e.whitespace = .require phrase false →
          (∀ q ∈ rule :: e.registry.rules, q.spec.NoCustom) →
          phrase.intercalate (token.frontier.map Token.value) ++ rest = e.source := by
  refine ⟨fun _ _ => CharacterRule.verbatim_of_mem_all, fun _ => Spec.Compiled.verbatim, ?_⟩
  intro e rule token rest hv h
  obtain ⟨r, hr, rfl⟩ := readsRule_of_rule h
  have hrec := hr.reconstructs hv
  refine ⟨r, hr, rfl, hrec, ?_, ?_⟩
  · intro hk
    rw [hrec.value_eq, ← hrec.gaps.written_keep hk]
    exact hrec.source_eq.symm
  · intro phrase hreq hc
    have hspaced : ∀ p ∈ r.pieces, p.spaced = true := by
      have hlit : r.Regular fun _ _ => False :=
        hr.regular fun q hq => (hc q hq).regular (hv q hq).items
      exact hlit.of_mem_pieces (fun _ _ _ => rfl) fun _ _ _ _ h => h.elim
    rw [hrec.texts_eq, ← hrec.gaps.written_require hreq hspaced]
    exact hrec.source_eq.symm

/-- Two digits by a matching function before which the policy runs, and a letter. -/
def twoDigits : Rule :=
  ⟨['p'], .sequence [.reference ['n'], .reference ['n'], .literal ['b']], false⟩

def digits : Evaluation :=
  ⟨.ofRules [twoDigits, ⟨['n'], .custom CharacterRule.digit, true⟩] (some 0), .require ['-'] true,
    "1-2- \tb!".toList⟩

theorem evaluation_reconstructs_digits :
    (∀ q ∈ twoDigits :: digits.registry.rules, q.spec.Verbatim) ∧
    ∃ token r, (digits.rule twoDigits digits.source).outcome = .ok (some token, ['!']) ∧
      digits.ReadsRule twoDigits digits.source r ['!'] ∧
      digits.Reconstructs r.pieces token ['!'] := by
  have hv : ∀ q ∈ twoDigits :: digits.registry.rules, q.spec.Verbatim := by
    intro q hq
    simp only [digits, Registry.rules_ofRules, List.mem_cons, List.not_mem_nil, or_false] at hq
    have htwo : twoDigits.spec.Verbatim :=
      ⟨by simp [twoDigits, Spec.parts, Spec.partsAll],
        by simp [twoDigits, Spec.parts, Spec.partsAll]⟩
    rcases hq with rfl | rfl | rfl
    · exact htwo
    · exact htwo
    · refine ⟨by simp [Spec.parts], fun matcher hm => ?_⟩
      obtain rfl := Spec.custom.inj (List.mem_singleton.1 hm)
      exact CharacterRule.one_verbatim _ _
  have hr : (digits.rule twoDigits digits.source).outcome =
      .ok (some (.node ['p'] [.node ['n'] [.leaf "digit".toList ['1']],
        .node ['n'] [.leaf "digit".toList ['2']], .leaf "literal".toList ['b']]), ['!']) := by cbv
  obtain ⟨r, hread, -, hrec, -⟩ :=
    evaluation_reconstructs_source.2.2 digits twoDigits _ _ hv hr
  exact ⟨hv, _, r, hr, hread, hrec⟩

end Evaluation

end Descent
