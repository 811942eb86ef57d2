import Mathlib.Data.List.Forall2
import Descent.Grammar.Body

/-! What a rule is made of. Names and bodies are compiled from the kinds and the texts of lexemes
alone, so lexemes of two sources that are spelled alike compile alike, wherever they stand. -/

namespace Descent

/-- The lexemes are of one kind and have the same text, each in its own source. -/
def Lexeme.SpelledAlike (source source' : Text) (l l' : Lexeme) : Prop :=
  l.kind = l'.kind ∧ Grammar.lexemeText source l = Grammar.lexemeText source' l'

theorem Except.mapM_congr {ε α β γ : Type} {f : α → Except ε γ} {g : β → Except ε γ} {as : List α}
    {bs : List β} (h : List.Forall₂ (fun a b => f a = g b) as bs) : as.mapM f = bs.mapM g := by
  induction h with
  | nil => rfl
  | cons hab _ ih => rw [List.mapM_cons, List.mapM_cons, hab, ih]

namespace Grammar

open Lexeme (SpelledAlike)

variable {source source' : Text} {l l' : Lexeme} {ls ls' : List Lexeme}

theorem item_congr (h : SpelledAlike source source' l l') : item source l = item source' l' := by
  rw [item, item, h.1, h.2]

theorem alternatives_congr (h : List.Forall₂ (SpelledAlike source source') ls ls') :
    List.Forall₂ (List.Forall₂ (SpelledAlike source source')) (alternatives ls)
      (alternatives ls') := by
  induction h with
  | nil => exact .cons .nil .nil
  | @cons l l' ls ls' hl _ ih =>
      rw [alternatives, alternatives, ← hl.1]
      split
      · exact .cons .nil ih
      · generalize alternatives ls = groups, alternatives ls' = groups' at ih
        cases ih with
        | nil => exact .cons (.cons hl .nil) .nil
        | cons hgroup hgroups => exact .cons (.cons hl hgroup) hgroups

theorem alternative_congr (h : List.Forall₂ (SpelledAlike source source') ls ls') :
    alternative source ls = alternative source' ls' := by
  have hitems : ls.mapM (item source) = ls'.mapM (item source') :=
    Except.mapM_congr (h.imp fun _ _ => item_congr)
  cases h with
  | nil => rfl
  | cons => exact congrArg (· >>= fun items => pure (unwrap .sequence items)) hitems

theorem body_congr (h : List.Forall₂ (SpelledAlike source source') ls ls') :
    body source ls = body source' ls' := by
  have hbranches : (alternatives ls).mapM (alternative source) =
      (alternatives ls').mapM (alternative source') :=
    Except.mapM_congr ((alternatives_congr h).imp fun _ _ => alternative_congr)
  cases h with
  | nil => rfl
  | cons => exact congrArg (· >>= fun branches => pure (unwrap .alternation branches)) hbranches

theorem ruleName_congr (h : List.Forall₂ (SpelledAlike source source') ls ls') :
    ruleName source ls = ruleName source' ls' := by
  cases h with
  | nil => rfl
  | cons hl hls =>
      cases hls with
      | nil => rw [ruleName, ruleName, hl.1, hl.2]
      | cons => rfl

end Grammar

end Descent
