import Descent.Proofs.Evaluation.Reading
import Descent.Proofs.Token.Preorder

/-! Pieces. A reading takes its text piece by piece, and the pieces stand in the input one after the
other, each behind what the policy skipped. -/

namespace Descent

/-- What a literal or a matching function took, and the gap before it; `spaced` tells whether the
policy ran there. -/
structure Piece where
  gap : Text
  text : Text
  spaced : Bool

def Piece.written (p : Piece) : Text := p.gap ++ p.text

namespace Reading

@[elab_as_elim, induction_eliminator]
theorem induction {motive : Reading → Prop} (literal : ∀ gap text, motive (.literal gap text))
    (custom : ∀ gap text spaced token, motive (.custom gap text spaced token))
    (sequence : ∀ items, (∀ r ∈ items, motive r) → motive (.sequence items))
    (reference : ∀ name body, motive body → motive (.reference name body))
    (r : Reading) : motive r :=
  match r with
  | .literal gap text => literal gap text
  | .custom gap text spaced token => custom gap text spaced token
  | .sequence items =>
      sequence items fun r _ => induction literal custom sequence reference r
  | .reference name body =>
      reference name body (induction literal custom sequence reference body)

theorem tokens_eq_map (rs : List Reading) : tokens rs = rs.map token := by
  induction rs with
  | nil => rfl
  | cons r rs ih => rw [tokens, ih, List.map_cons]

mutual

def pieces : Reading → List Piece
  | literal gap text => [⟨gap, text, true⟩]
  | custom gap text spaced _ => [⟨gap, text, spaced⟩]
  | sequence items => piecesAll items
  | reference _ body => pieces body

def piecesAll : List Reading → List Piece
  | [] => []
  | r :: rs => pieces r ++ piecesAll rs

end

theorem piecesAll_eq_flatMap (rs : List Reading) : piecesAll rs = rs.flatMap pieces := by
  induction rs with
  | nil => rfl
  | cons r rs ih => rw [piecesAll, ih, List.flatMap_cons]

mutual

/-- No sequence is empty, no literal is, and the matching functions took and made what `C` says. -/
def Regular (C : Text → Token → Prop) : Reading → Prop
  | literal _ text => text ≠ []
  | custom _ text _ token => C text token
  | sequence items => items ≠ [] ∧ RegularAll C items
  | reference _ body => Regular C body

def RegularAll (C : Text → Token → Prop) : List Reading → Prop
  | [] => True
  | r :: rs => Regular C r ∧ RegularAll C rs

end

theorem regularAll_iff {C : Text → Token → Prop} {rs : List Reading} :
    RegularAll C rs ↔ ∀ r ∈ rs, Regular C r := by
  induction rs with
  | nil => simp [RegularAll]
  | cons r rs ih => simp [RegularAll, ih]

section

variable {C : Text → Token → Prop} {r : Reading}

theorem Regular.pieces_ne_nil (h : r.Regular C) : r.pieces ≠ [] := by
  induction r with
  | literal gap text => exact List.cons_ne_nil _ _
  | custom gap text spaced token => exact List.cons_ne_nil _ _
  | reference name body ih => exact ih h
  | sequence items ih =>
      obtain ⟨hne, hall⟩ := h
      cases items with
      | nil => exact absurd rfl hne
      | cons r rs =>
          have hr : r.pieces ≠ [] := ih r List.mem_cons_self hall.1
          intro hp
          exact hr (List.append_eq_nil_iff.1 hp).1

theorem Regular.of_mem_pieces {P : Piece → Prop}
    (hl : ∀ gap text, text ≠ [] → P ⟨gap, text, true⟩)
    (hc : ∀ gap text spaced token, C text token → P ⟨gap, text, spaced⟩) (h : r.Regular C) :
    ∀ p ∈ r.pieces, P p := by
  induction r with
  | literal gap text =>
      intro p hp
      obtain rfl := List.mem_singleton.1 hp
      exact hl gap text h
  | custom gap text spaced token =>
      intro p hp
      obtain rfl := List.mem_singleton.1 hp
      exact hc gap text spaced token h
  | reference name body ih => exact ih h
  | sequence items ih =>
      intro p hp
      rw [pieces, piecesAll_eq_flatMap, List.mem_flatMap] at hp
      obtain ⟨r, hr, hp⟩ := hp
      exact ih r hr (regularAll_iff.1 h.2 r hr) p hp

/-- The tokens without children are those of the pieces. -/
theorem Regular.texts_token (hC : ∀ text token, C text token → token.texts = [text])
    (h : r.Regular C) : r.token.texts = r.pieces.map (·.text) := by
  induction r with
  | literal gap text => rfl
  | custom gap text spaced token => exact hC text token h
  | reference name body ih => exact (Match.texts_typedAfter _ name).trans (ih h)
  | sequence items ih =>
      obtain ⟨hne, hall⟩ := h
      have hts : items.map token ≠ [] := fun hm => hne (List.map_eq_nil_iff.1 hm)
      rw [token, tokens_eq_map, Token.texts_node _ hts, List.flatMap_map, pieces,
        piecesAll_eq_flatMap, List.map_flatMap]
      exact List.flatMap_congr fun r hr => ih r hr (regularAll_iff.1 hall r hr)

end

end Reading

/-- What makes readings of a part regular. -/
def Spec.RegularPart (C : Text → Token → Prop) : Spec → Prop
  | sequence items => items ≠ []
  | custom matcher => ∀ text token rest, matcher (text ++ rest) = (some token, rest) → C text token
  | _ => True

def Spec.Regular (C : Text → Token → Prop) (s : Spec) : Prop := ∀ a ∈ s.parts, a.RegularPart C

theorem Spec.Regular.of_custom {C : Text → Token → Prop} {s : Spec} {matcher : Matcher}
    (h : s.Regular C) (hs : s = .custom matcher) {text rest : Text} {token : Token}
    (hm : matcher (text ++ rest) = (some token, rest)) : C text token := by
  subst hs
  exact h _ (self_mem_parts _) text token rest hm

namespace Evaluation

section

variable {e : Evaluation} {s : Spec} {input rest : Text} {r : Reading}
variable {C : Text → Token → Prop}

theorem ReadsAll.length_eq {ss : List Spec} {rs : List Reading} (h : e.ReadsAll ss input rs rest) :
    rs.length = ss.length := by
  induction rs generalizing ss input with
  | nil => cases h; rfl
  | cons r rs ih =>
      cases h with
      | cons _ h => simp [ih h]

theorem Reads.regular (hreg : ∀ rule ∈ e.registry.rules, rule.spec.Regular C)
    (h : e.Reads s input r rest) : s.Regular C → r.Regular C := by
  induction h using Reads.induction
    (R := fun rule _ r _ => rule.spec.Regular C → r.Regular C)
    (A := fun ss _ rs _ => (∀ a ∈ Spec.partsAll ss, a.RegularPart C) → Reading.RegularAll C rs)
    (F := fun ss _ r _ => (∀ a ∈ Spec.partsAll ss, a.RegularPart C) → r.Regular C) with
  | literal ht _ _ => exact fun _ => ht
  | custom hm hi =>
      subst hi
      exact fun hs => hs.of_custom rfl hm
  | reference hl _ ih => exact fun _ => ih (hreg _ (Registry.mem_of_lookup? hl))
  | sequence h ih =>
      intro hs
      refine ⟨?_, ih fun a ha => hs a (Spec.mem_parts_sequence ha)⟩
      rintro rfl
      -- An empty reading is one of an empty sequence.
      have hne := hs _ (Spec.self_mem_parts _)
      exact hne (List.length_eq_zero_iff.1 h.length_eq.symm)
  | alternation _ ih => exact fun hs => ih fun a ha => hs a (Spec.mem_parts_alternation ha)
  | body _ _ ih hs => exact ih hs
  | spaced hm _ _ _ hmatch hs => exact hs.of_custom hm hmatch
  | nil hs => trivial
  | cons _ _ ihr ihrs hs =>
      exact ⟨ihr fun a ha => hs a (Spec.mem_partsAll_head ha),
        ihrs fun a ha => hs a (Spec.mem_partsAll_tail ha)⟩
  | here _ ih hs => exact ih fun a ha => hs a (Spec.mem_partsAll_head ha)
  | later _ _ ih hs => exact ih fun a ha => hs a (Spec.mem_partsAll_tail ha)

theorem ReadsRule.regular {rule : Rule}
    (hreg : ∀ q ∈ rule :: e.registry.rules, q.spec.Regular C)
    (h : e.ReadsRule rule input r rest) : r.Regular C := by
  have hs := hreg rule List.mem_cons_self
  cases h with
  | body _ h => exact h.regular (fun q hq => hreg q (List.mem_cons_of_mem _ hq)) hs
  | spaced hm _ _ _ hmatch => exact hs.of_custom hm hmatch

/-- The pieces stand one after the other between the input and the rest. A piece before which the
policy ran stands where it skipped to. -/
inductive Spells (e : Evaluation) : Text → List Piece → Text → Prop
  | nil {rest : Text} : Spells e rest [] rest
  | spaced {gap text after rest : Text} {ps : List Piece} :
      (e.whitespace.skip (gap ++ (text ++ after)) e.source).outcome = .ok (text ++ after) →
      Spells e after ps rest → Spells e (gap ++ (text ++ after)) (⟨gap, text, true⟩ :: ps) rest
  | unspaced {text after rest : Text} {ps : List Piece} :
      Spells e after ps rest → Spells e (text ++ after) (⟨[], text, false⟩ :: ps) rest

namespace Spells

variable {mid : Text} {ps qs : List Piece}

theorem append (h : e.Spells input ps mid) (h' : e.Spells mid qs rest) :
    e.Spells input (ps ++ qs) rest := by
  induction h with
  | nil => exact h'
  | spaced hs _ ih => exact .spaced hs (ih h')
  | unspaced _ ih => exact .unspaced (ih h')

theorem split (h : e.Spells input (ps ++ qs) rest) :
    ∃ mid, e.Spells input ps mid ∧ e.Spells mid qs rest := by
  induction ps generalizing input with
  | nil => exact ⟨input, .nil, h⟩
  | cons p ps ih =>
      cases h with
      | spaced hs h =>
          obtain ⟨mid, hp, hq⟩ := ih h
          exact ⟨mid, .spaced hs hp, hq⟩
      | unspaced h =>
          obtain ⟨mid, hp, hq⟩ := ih h
          exact ⟨mid, .unspaced hp, hq⟩

theorem written (h : e.Spells input ps rest) : input = ps.flatMap Piece.written ++ rest := by
  induction h with
  | nil => rfl
  | spaced _ _ ih => simp [Piece.written, ← ih]
  | unspaced _ ih => simp [Piece.written, ← ih]

theorem size_lt (h : e.Spells input ps rest) (hne : ps ≠ []) (ht : ∀ p ∈ ps, p.text ≠ []) :
    rest.size < input.size := by
  cases ps with
  | nil => exact absurd rfl hne
  | cons p ps =>
      have hp := Text.size_pos (ht p List.mem_cons_self)
      rw [h.written, List.flatMap_cons, Piece.written]
      simp only [Text.size_append]
      omega

end Spells

theorem Reads.spells (h : e.Reads s input r rest) : e.Spells input r.pieces rest := by
  induction h using Reads.induction
    (R := fun _ input r rest => e.Spells input r.pieces rest)
    (A := fun _ input rs rest => e.Spells input (Reading.piecesAll rs) rest)
    (F := fun _ input r rest => e.Spells input r.pieces rest) with
  | literal _ hs hi =>
      subst hi
      exact .spaced hs .nil
  | custom _ hi =>
      subst hi
      exact .unspaced .nil
  | reference _ _ ih => exact ih
  | sequence _ ih => exact ih
  | alternation _ ih => exact ih
  | body _ _ ih => exact ih
  | spaced _ _ hs hi _ =>
      subst hi
      exact .spaced hs .nil
  | nil => exact .nil
  | cons _ _ ihr ihrs => exact ihr.append ihrs
  | here _ ih => exact ih
  | later _ _ ih => exact ih

theorem ReadsRule.spells {rule : Rule} (h : e.ReadsRule rule input r rest) :
    e.Spells input r.pieces rest := by
  cases h with
  | body _ h => exact h.spells
  | spaced _ _ hs hi _ =>
      subst hi
      exact .spaced hs .nil

end

end Evaluation

end Descent
