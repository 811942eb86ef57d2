import Mathlib.Data.List.Basic
import Descent.Proofs.Token.Preorder

/-! The text of a token. It is spread over the leaves, and what is asked about it on the leaves, on
the walk or by length has the same answer as on the text itself. -/

namespace Descent.Token

theorem value_eq_flatMap_leaves (t : Token) : t.value = t.leaves.flatMap value := by
  induction t with
  | leaf type text => rw [leaves_leaf, List.flatMap_singleton]
  | node type children ih =>
      rw [value, values_eq_flatMap, leaves_node, List.flatMap_assoc, List.flatMap_congr ih]

/-- A node has no text of its own. -/
theorem flatten_filterMap_text? (ts : List Token) :
    (ts.filterMap text?).flatten = (ts.filter (·.isLeaf)).flatMap value := by
  induction ts with
  | nil => rfl
  | cons t ts ih =>
      cases t with
      | leaf type text => exact congrArg (text ++ ·) ih
      | node type children => exact ih

theorem value_eq_text?_getD (t : Token) :
    t.value = t.text?.getD (t.descendants.filterMap text?).flatten := by
  cases t with
  | leaf type text => rfl
  | node type children =>
      rw [value_eq_flatMap_leaves, leaves, List.filter_cons_of_neg Bool.false_ne_true,
        ← flatten_filterMap_text?]
      rfl

theorem size_values {ts : List Token} (h : ∀ t ∈ ts, t.size = t.value.size) :
    sizes ts = (values ts).size := by
  induction ts with
  | nil => rfl
  | cons t ts ih =>
      obtain ⟨ht, hts⟩ := List.forall_mem_cons.1 h
      rw [sizes, values, Text.size_append, ht, ih hts]

/-- The length is that of the text, summed up along the tree. -/
theorem size_eq_size_value (t : Token) : t.size = t.value.size := by
  induction t with
  | leaf type text => rfl
  | node type children ih => exact size_values ih

theorem isEmpty_iff_value_eq_nil {t : Token} : t.isEmpty = true ↔ t.value = [] := by
  rw [isEmpty, decide_eq_true_iff, size_eq_size_value, Text.size_eq_zero]

/-- Texts of different length are different, so the comparison of the lengths loses nothing. -/
theorem covers_iff {t : Token} {s : Text} : t.covers s = true ↔ t.value = s := by
  rw [covers, Bool.and_eq_true, decide_eq_true_iff, decide_eq_true_iff, size_eq_size_value]
  exact and_iff_right_of_imp (congrArg Text.size)

/-- The queries about the text of a token agree. The text is that of the frontier and that of the
leaves on the walk; its length in bytes is the sum over the tree, so the token counts as empty if
and only if each leaf is, and it compares equal to a text if and only if it has this text. -/
theorem value_queries_agree (t : Token) :
    t.value = (t.frontier.map value).flatten ∧
    t.value = t.text?.getD (t.descendants.filterMap text?).flatten ∧
    t.size = t.value.bytes.length ∧
    (t.isEmpty = true ↔ ∀ text ∈ (t :: t.descendants).filterMap text?, text = []) ∧
    ∀ s, t.covers s = true ↔ t.value = s := by
  refine ⟨t.value_eq_flatten_texts, t.value_eq_text?_getD, ?_, ?_, fun s => covers_iff⟩
  · rw [Text.length_bytes, size_eq_size_value]
  · rw [isEmpty_iff_value_eq_nil, value_eq_flatMap_leaves, leaves, ← flatten_filterMap_text?,
      List.flatten_eq_nil_iff]

example : (node ['a'] [leaf ['b'] ['é'], node ['c'] [], leaf ['b'] ['!']]).covers ['é', '!'] :=
  rfl

end Descent.Token
