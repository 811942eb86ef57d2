import Mathlib.Data.List.Basic
import Mathlib.Data.List.Flatten
import Mathlib.Logic.Relation
import Descent.Proofs.Registry.Lookup
import Descent.Proofs.Token.Preorder

/-! The rules as a context-free grammar. Literals are its terminals, and every other body is a
nonterminal that is rewritten to its items, to one of its branches or to the body of its rule. -/

namespace Descent

/-- A derivation tree. A choice has no place of its own: below it stands the tree of a branch. -/
inductive Derivation where
  | literal (text : Text)
  | sequence (items : List Derivation)
  | reference (name : Text) (body : Derivation)

namespace Registry

mutual

/-- The tree derives from the body. -/
inductive Derives (r : Registry) : Spec → Derivation → Prop
  | literal {text : Text} : Derives r (.literal text) (.literal text)
  | sequence {items : List Spec} {ds : List Derivation} :
      DerivesAll r items ds → Derives r (.sequence items) (.sequence ds)
  | alternation {branch : Spec} {branches : List Spec} {d : Derivation} :
      branch ∈ branches → Derives r branch d → Derives r (.alternation branches) d
  | reference {name : Text} {rule : Rule} {d : Derivation} :
      r.lookup? name = some rule → Derives r rule.spec d →
      Derives r (.reference name) (.reference name d)

inductive DerivesAll (r : Registry) : List Spec → List Derivation → Prop
  | nil : DerivesAll r [] []
  | cons {s : Spec} {ss : List Spec} {d : Derivation} {ds : List Derivation} :
      Derives r s d → DerivesAll r ss ds → DerivesAll r (s :: ss) (d :: ds)

end

/-- One production of the grammar. -/
inductive Production (r : Registry) : Spec → List Spec → Prop
  | sequence {items : List Spec} : Production r (.sequence items) items
  | alternation {branch : Spec} {branches : List Spec} :
      branch ∈ branches → Production r (.alternation branches) [branch]
  | reference {name : Text} {rule : Rule} :
      r.lookup? name = some rule → Production r (.reference name) [rule.spec]

/-- A production is used at some place of a sentential form. -/
inductive Rewrites (r : Registry) : List Spec → List Spec → Prop
  | within {s : Spec} {ss : List Spec} (before after : List Spec) :
      Production r s ss → Rewrites r (before ++ s :: after) (before ++ (ss ++ after))

/-- The words of literals that are derived from a rule. -/
def language (r : Registry) (name : Text) : Set (List Text) :=
  {word | Relation.ReflTransGen r.Rewrites [.reference name] (word.map .literal)}

end Registry

namespace Derivation

@[elab_as_elim, induction_eliminator]
theorem induction {motive : Derivation → Prop} (literal : ∀ text, motive (.literal text))
    (sequence : ∀ items, (∀ d ∈ items, motive d) → motive (.sequence items))
    (reference : ∀ name body, motive body → motive (.reference name body))
    (d : Derivation) : motive d :=
  match d with
  | .literal text => literal text
  | .sequence items => sequence items fun d _ => induction literal sequence reference d
  | .reference name body => reference name body (induction literal sequence reference body)

def isReference : Derivation → Bool
  | literal _ | sequence _ => false
  | reference _ _ => true

mutual

/-- The literals of a derivation from left to right. -/
def word : Derivation → List Text
  | literal text => [text]
  | sequence items => words items
  | reference _ body => word body

def words : List Derivation → List Text
  | [] => []
  | d :: ds => word d ++ words ds

end

mutual

/-- The names of the rules that were applied, each before those below it. -/
def names : Derivation → List Text
  | literal _ => []
  | sequence items => namesAll items
  | reference name body => name :: names body

def namesAll : List Derivation → List Text
  | [] => []
  | d :: ds => names d ++ namesAll ds

end

mutual

/-- The token of a derivation. A rule relabels what a literal or a sequence made and wraps what
another rule made. -/
def image : Derivation → Token
  | literal text => .leaf Token.literalType text
  | sequence items => .node Token.sequenceType (images items)
  | reference name body =>
      if body.isReference then .node name [image body] else (image body).relabel name

def images : List Derivation → List Token
  | [] => []
  | d :: ds => image d :: images ds

end

theorem words_eq_flatMap (ds : List Derivation) : words ds = ds.flatMap word := by
  induction ds with
  | nil => rfl
  | cons d ds ih => rw [words, ih, List.flatMap_cons]

theorem namesAll_eq_flatMap (ds : List Derivation) : namesAll ds = ds.flatMap names := by
  induction ds with
  | nil => rfl
  | cons d ds ih => rw [namesAll, ih, List.flatMap_cons]

theorem images_eq_map (ds : List Derivation) : images ds = ds.map image := by
  induction ds with
  | nil => rfl
  | cons d ds ih => rw [images, ih, List.map_cons]

theorem type_image_reference (name : Text) (body : Derivation) :
    (reference name body).image.type = name := by
  rw [image]
  split
  · rfl
  · exact Token.type_relabel name _

theorem leafTexts_image (d : Derivation) : d.image.leafTexts = d.word := by
  induction d with
  | literal text => rfl
  | sequence items ih =>
      rw [image, Token.leafTexts_node, images_eq_map, List.flatMap_map, word, words_eq_flatMap]
      exact List.flatMap_congr ih
  | reference name body ih =>
      rw [image, word, ← ih]
      split
      · rw [Token.leafTexts_node, List.flatMap_singleton]
      · exact Token.leafTexts_relabel name _

/-- A rule that was applied has a token of its name; below a body that is no rule these are tokens
below its own. -/
theorem names_sublist (d : Derivation) :
    d.names.Sublist (d.image.preorder.map Token.type) ∧
      (d.isReference = false →
        d.names.Sublist ((Token.preorderAll d.image.children).map Token.type)) := by
  induction d with
  | literal text => exact ⟨List.nil_sublist _, fun _ => List.nil_sublist _⟩
  | sequence items ih =>
      have hbelow : (namesAll items).Sublist
          ((Token.preorderAll (images items)).map Token.type) := by
        rw [namesAll_eq_flatMap, Token.preorderAll_eq_flatMap, images_eq_map, List.flatMap_map,
          List.map_flatMap]
        exact List.Sublist.flatMap_right items fun d hd => (ih d hd).1
      exact ⟨hbelow.cons _, fun _ => hbelow⟩
  | reference name body ih =>
      refine ⟨?_, nofun⟩
      rw [image, names]
      split
      · rw [Token.preorder, Token.preorderAll_eq_flatMap, List.flatMap_singleton, List.map_cons]
        exact ih.1.cons_cons name
      · next hb =>
          rw [Token.preorder_eq, Token.children_relabel, List.map_cons, Token.type_relabel]
          exact (ih.2 (Bool.not_eq_true _ ▸ hb)).cons_cons name

end Derivation

namespace Registry

section

variable {r : Registry}

theorem Rewrites.append_left {ss ts : List Spec} (before : List Spec) (h : r.Rewrites ss ts) :
    r.Rewrites (before ++ ss) (before ++ ts) := by
  cases h with
  | within before' after hp =>
      rw [← List.append_assoc, ← List.append_assoc]
      exact .within (before ++ before') after hp

theorem Rewrites.append_right {ss ts : List Spec} (after : List Spec) (h : r.Rewrites ss ts) :
    r.Rewrites (ss ++ after) (ts ++ after) := by
  cases h with
  | within before after' hp =>
      rw [List.append_assoc, List.append_assoc, List.append_assoc]
      exact .within before (after' ++ after) hp

theorem Production.rewrites {s : Spec} {ss : List Spec} (h : r.Production s ss) :
    r.Rewrites [s] ss := by
  have hstep := Rewrites.within [] [] h
  rwa [List.append_nil] at hstep

mutual

theorem Derives.rewrites {s : Spec} {d : Derivation} (h : r.Derives s d) :
    Relation.ReflTransGen r.Rewrites [s] (d.word.map .literal) :=
  match h with
  | .literal => .refl
  | .sequence h => .head (Production.rewrites .sequence) h.rewrites
  | .alternation hb h => .head (Production.rewrites (.alternation hb)) h.rewrites
  | .reference hl h => .head (Production.rewrites (.reference hl)) h.rewrites

theorem DerivesAll.rewrites {ss : List Spec} {ds : List Derivation} (h : r.DerivesAll ss ds) :
    Relation.ReflTransGen r.Rewrites ss ((Derivation.words ds).map .literal) :=
  match h with
  | .nil => .refl
  | @DerivesAll.cons _ _ ss d _ h hs => by
      rw [Derivation.words, List.map_append]
      exact (h.rewrites.lift (· ++ ss) fun _ _ => Rewrites.append_right ss).trans
        (hs.rewrites.lift (d.word.map Spec.literal ++ ·) fun _ _ => Rewrites.append_left _)

end

theorem Derives.word_mem_language {name : Text} {d : Derivation}
    (h : r.Derives (.reference name) d) : d.word ∈ r.language name := h.rewrites

end

end Registry

end Descent
