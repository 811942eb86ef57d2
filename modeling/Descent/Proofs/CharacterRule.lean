import Descent.CharacterRule

/-! The ready-made matching functions take a text from the start of the input and make a leaf of
it. -/

namespace Descent

namespace Matcher

/-- A match is a leaf with a text that is not empty, and that text and the rest are the input. -/
def Verbatim (matcher : Matcher) : Prop :=
  ∀ input token rest, matcher input = (some token, rest) →
    ∃ type text, token = .leaf type text ∧ text ≠ [] ∧ text ++ rest = input

/-- A match leaves less than it was given. -/
def Shrinks (matcher : Matcher) : Prop :=
  ∀ input token rest, matcher input = (some token, rest) → rest.size < input.size

theorem Verbatim.shrinks {matcher : Matcher} (h : matcher.Verbatim) : matcher.Shrinks := by
  intro input token rest hm
  obtain ⟨type, text, -, ht, rfl⟩ := h input token rest hm
  have hpos := Text.size_pos ht
  rw [Text.size_append]
  omega

end Matcher

namespace CharacterRule

theorem leaf_of_one {type : Text} {inClass : Char → Bool} {input rest : Text} {token : Token}
    (h : one type inClass input = (some token, rest)) :
    ∃ text, token = .leaf type text ∧ text ≠ [] ∧ text ++ rest = input := by
  cases input with
  | nil => cases h
  | cons c input =>
      by_cases hc : inClass c = true
      · rw [one, if_pos hc] at h
        cases h
        exact ⟨[c], rfl, List.cons_ne_nil _ _, rfl⟩
      · rw [one, if_neg hc] at h
        cases h

theorem leaf_of_run {type : Text} {inClass : Char → Bool} {input rest : Text} {token : Token}
    (h : run type inClass input = (some token, rest)) :
    ∃ text, token = .leaf type text ∧ text ≠ [] ∧ text ++ rest = input := by
  unfold run at h
  split at h
  · cases h
  · next c text ht =>
      cases h
      refine ⟨c :: text, rfl, List.cons_ne_nil _ _, ?_⟩
      rw [← ht, List.takeWhile_append_dropWhile]

theorem one_verbatim (type : Text) (inClass : Char → Bool) : Matcher.Verbatim (one type inClass) := by
  intro input token rest h
  obtain ⟨text, htoken, htext⟩ := leaf_of_one h
  exact ⟨type, text, htoken, htext⟩

/-- Every function takes one character of a class or a run of them, and types its leaves by the name
of its rule. -/
theorem eq_of_mem_all {name : Text} {matcher : Matcher} (h : (name, matcher) ∈ all) :
    ∃ inClass, matcher = one name inClass ∨ matcher = run name inClass := by
  simp only [all, List.mem_cons, Prod.mk.injEq, List.not_mem_nil, or_false] at h
  rcases h with ⟨rfl, rfl⟩ | ⟨rfl, rfl⟩ | ⟨rfl, rfl⟩ | ⟨rfl, rfl⟩ | ⟨rfl, rfl⟩ | ⟨rfl, rfl⟩ |
    ⟨rfl, rfl⟩ | ⟨rfl, rfl⟩ | ⟨rfl, rfl⟩
  · exact ⟨_, .inl rfl⟩
  · exact ⟨_, .inl rfl⟩
  · exact ⟨_, .inl rfl⟩
  · exact ⟨_, .inl rfl⟩
  · exact ⟨_, .inr rfl⟩
  · exact ⟨_, .inr rfl⟩
  · exact ⟨_, .inr rfl⟩
  · exact ⟨_, .inr rfl⟩
  · exact ⟨_, .inr rfl⟩

theorem leaf_of_mem_all {name input rest : Text} {matcher : Matcher} {token : Token}
    (h : (name, matcher) ∈ all) (hmatch : matcher input = (some token, rest)) :
    ∃ text, token = .leaf name text ∧ text ≠ [] ∧ text ++ rest = input := by
  obtain ⟨inClass, rfl | rfl⟩ := eq_of_mem_all h
  · exact leaf_of_one hmatch
  · exact leaf_of_run hmatch

theorem verbatim_of_mem_all {name : Text} {matcher : Matcher} (h : (name, matcher) ∈ all) :
    matcher.Verbatim := by
  intro input token rest hmatch
  obtain ⟨text, htoken, htext⟩ := leaf_of_mem_all h hmatch
  exact ⟨name, text, htoken, htext⟩

end CharacterRule

end Descent
