import Descent.Proofs.CharacterRule

/-! Runs of characters. The end of a run is the byte offset of the first character outside the class,
and the run is cut off there in one piece. It is what the function for one character of the class
takes when it is repeated until it fails, whatever the number of bytes of each character. -/

namespace Descent

namespace Text

/-- Each character with the byte offset at which it starts; the text starts at `start`. -/
def charOffsets (start : Nat) : Text → List (Nat × Char)
  | [] => []
  | c :: s => (start, c) :: charOffsets (start + c.utf8Size) s

/-- The offset of the first character outside the class, or the size of a text without one. -/
def classEnd (inClass : Char → Bool) (s : Text) : Nat :=
  (((charOffsets 0 s).find? fun p => !inClass p.2).map Prod.fst).getD s.size

theorem offset_find?_charOffsets (inClass : Char → Bool) (start : Nat) (s : Text) :
    (((charOffsets start s).find? fun p => !inClass p.2).map Prod.fst).getD (start + s.size) =
      start + size (s.takeWhile inClass) := by
  induction s generalizing start with
  | nil => rfl
  | cons c s ih =>
      by_cases hc : inClass c = true
      · -- In the rest the offsets count from behind the first character.
        have hrest := ih (start + c.utf8Size)
        simp only [Nat.add_assoc] at hrest
        simpa [charOffsets, size, hc] using hrest
      · simp [charOffsets, size, hc]

theorem classEnd_eq (inClass : Char → Bool) (s : Text) :
    s.classEnd inClass = size (s.takeWhile inClass) := by
  simpa [classEnd] using offset_find?_charOffsets inClass 0 s

variable {inClass : Char → Bool} {s : Text}

theorem uptoByte?_classEnd : s.uptoByte? (s.classEnd inClass) = some (s.takeWhile inClass) :=
  uptoByte?_eq_some_iff.2
    ⟨s.dropWhile inClass, List.takeWhile_append_dropWhile.symm, (classEnd_eq inClass s).symm⟩

theorem fromByte?_classEnd : s.fromByte? (s.classEnd inClass) = some (s.dropWhile inClass) :=
  fromByte?_eq_some_iff.2
    ⟨s.takeWhile inClass, List.takeWhile_append_dropWhile.symm, (classEnd_eq inClass s).symm⟩

theorem classEnd_pos_iff : 0 < s.classEnd inClass ↔ s.takeWhile inClass ≠ [] := by
  rw [classEnd_eq, Nat.pos_iff_ne_zero, ne_eq, size_eq_zero]

end Text

namespace Matcher

/-- The function is applied to the text, and again to what it leaves, until it fails: the tokens that
it makes, and the text on which it fails. -/
inductive Iterates (matcher : Matcher) : Text → List Token → Text → Prop
  | stop {input : Text} : (matcher input).1 = none → Iterates matcher input [] input
  | step {input mid rest : Text} {token : Token} {tokens : List Token} :
      matcher input = (some token, mid) → Iterates matcher mid tokens rest →
      Iterates matcher input (token :: tokens) rest

/-- A repetition is determined by the text that it starts on. -/
theorem Iterates.unique {matcher : Matcher} {input rest rest' : Text} {tokens tokens' : List Token}
    (h : matcher.Iterates input tokens rest) (h' : matcher.Iterates input tokens' rest') :
    tokens' = tokens ∧ rest' = rest := by
  induction h generalizing tokens' with
  | stop hfails =>
      cases h' with
      | stop => exact ⟨rfl, rfl⟩
      | step hmatch =>
          rw [hmatch] at hfails
          cases hfails
  | step hmatch _ ih =>
      cases h' with
      | stop hfails =>
          rw [hmatch] at hfails
          cases hfails
      | step hmatch' h' =>
          obtain ⟨htoken, rfl⟩ := Prod.mk.inj (hmatch'.symm.trans hmatch)
          obtain rfl := Option.some.inj htoken
          obtain ⟨rfl, rfl⟩ := ih h'
          exact ⟨rfl, rfl⟩

end Matcher

namespace CharacterRule

variable {type : Text} {inClass : Char → Bool} {input rest : Text} {token : Token}

theorem isSome_one_iff : (one type inClass input).1.isSome = true ↔ input.takeWhile inClass ≠ [] := by
  cases input with
  | nil => simp [one]
  | cons c input =>
      by_cases hc : inClass c = true
      · simp [one, hc]
      · simp [one, hc]

/-- Repeated, the function takes the characters of the class that the text starts with, one by
one. -/
theorem iterates_one (type : Text) (inClass : Char → Bool) (input : Text) :
    (one type inClass : Matcher).Iterates input
      ((input.takeWhile inClass).map fun c => .leaf type [c]) (input.dropWhile inClass) := by
  induction input with
  | nil => exact .stop rfl
  | cons c input ih =>
      by_cases hc : inClass c = true
      · rw [List.takeWhile_cons_of_pos hc, List.dropWhile_cons_of_pos hc, List.map_cons]
        have hmatch : one type inClass (c :: input) = (some (.leaf type [c]), input) := by
          simp [one, hc]
        exact .step hmatch ih
      · rw [List.takeWhile_cons_of_neg hc, List.dropWhile_cons_of_neg hc, List.map_nil]
        apply Matcher.Iterates.stop
        simp [one, hc]

theorem run_of_takeWhile_eq_nil (h : input.takeWhile inClass = []) :
    run type inClass input = (none, input) := by
  simp [run, h]

theorem run_of_takeWhile_ne_nil (h : input.takeWhile inClass ≠ []) :
    run type inClass input =
      (some (.leaf type (input.takeWhile inClass)), input.dropWhile inClass) := by
  obtain ⟨c, text, htext⟩ := List.exists_cons_of_ne_nil h
  simp [run, htext]

theorem run_eq_some_iff :
    run type inClass input = (some token, rest) ↔
      input.takeWhile inClass ≠ [] ∧ token = .leaf type (input.takeWhile inClass) ∧
        rest = input.dropWhile inClass := by
  by_cases h : input.takeWhile inClass = []
  · simp [run_of_takeWhile_eq_nil h, h]
  · simp [run_of_takeWhile_ne_nil h, h, eq_comm]

theorem isSome_run_iff : (run type inClass input).1.isSome = true ↔ input.takeWhile inClass ≠ [] := by
  by_cases h : input.takeWhile inClass = []
  · simp [run_of_takeWhile_eq_nil h, h]
  · simp [run_of_takeWhile_ne_nil h, h]

theorem flatMap_value_leaves (type text : Text) :
    (text.map fun c => Token.leaf type [c]).flatMap Token.value = text := by
  rw [List.flatMap_map]
  exact List.flatMap_singleton' text

/-- The second function takes in one piece what the first one takes when it is repeated until it
fails, and it fails where the first one does. -/
structure TakesRuns (inClass : Char → Bool) (type : Text) (single many : Matcher) : Prop where
  succeeds_iff (input : Text) :
    (many input).1.isSome = true ↔ (single input).1.isSome = true
  failed (input rest : Text) : many input = (none, rest) → rest = input
  iterated (input rest : Text) (token : Token) : many input = (some token, rest) ↔
    ∃ tokens, tokens ≠ [] ∧ single.Iterates input tokens rest ∧
      token = .leaf type (tokens.flatMap Token.value)
  whole (input rest : Text) (token : Token) :
    many input = (some token, rest) → token.value ++ rest = input
  cut (input rest : Text) (token : Token) : many input = (some token, rest) ↔
    0 < input.classEnd inClass ∧ input.fromByte? (input.classEnd inClass) = some rest ∧
      ∃ text, input.uptoByte? (input.classEnd inClass) = some text ∧ token = .leaf type text

theorem takesRuns_run (single many : Text) (inClass : Char → Bool) :
    TakesRuns inClass many (one single inClass) (run many inClass) where
  succeeds_iff input := isSome_run_iff.trans isSome_one_iff.symm
  failed input rest h := by
    by_cases htext : input.takeWhile inClass = []
    · rw [run_of_takeWhile_eq_nil htext] at h
      cases h
      rfl
    · rw [run_of_takeWhile_ne_nil htext] at h
      cases h
  iterated input rest token := by
    have htaken := iterates_one single inClass input
    rw [run_eq_some_iff]
    constructor
    · rintro ⟨htext, rfl, rfl⟩
      refine ⟨_, ?_, htaken, ?_⟩
      · rwa [ne_eq, List.map_eq_nil_iff]
      · rw [flatMap_value_leaves]
    · rintro ⟨tokens, hne, htokens, rfl⟩
      obtain ⟨rfl, rfl⟩ := htaken.unique htokens
      rw [flatMap_value_leaves]
      rw [ne_eq, List.map_eq_nil_iff] at hne
      exact ⟨hne, rfl, rfl⟩
  whole input rest token h := by
    obtain ⟨text, rfl, -, htext⟩ := leaf_of_run h
    exact htext
  cut input rest token := by
    rw [run_eq_some_iff, Text.classEnd_pos_iff, Text.uptoByte?_classEnd, Text.fromByte?_classEnd]
    refine and_congr_right fun _ => ?_
    constructor
    · rintro ⟨rfl, rfl⟩
      exact ⟨rfl, _, rfl, rfl⟩
    · rintro ⟨hrest, text, htext, rfl⟩
      obtain rfl := Option.some.inj hrest
      obtain rfl := Option.some.inj htext
      exact ⟨rfl, rfl⟩

/-- For any class the function for runs takes what the function for one character takes when it is
repeated until it fails: it succeeds on the same texts, its text is the texts of the repetition one
after the other, and it leaves the same rest. The cut stands at the offset at which the class
ends. -/
theorem run_repeats_one :
    (∀ (single many : Text) (inClass : Char → Bool),
      TakesRuns inClass many (one single inClass) (run many inClass)) ∧
    TakesRuns isLowercase "lower_run".toList lower lowerRun ∧
    TakesRuns isUppercase "upper_run".toList upper upperRun ∧
    TakesRuns isAlphabetic "alpha_run".toList alpha alphaRun ∧
    TakesRuns isDigit "digit_run".toList digit digitRun :=
  ⟨takesRuns_run, takesRuns_run _ _ _, takesRuns_run _ _ _, takesRuns_run _ _ _,
    takesRuns_run _ _ _⟩

/-- Three characters of five bytes are one run. -/
example : run ['r'] (· ≠ '!') "aßé!".toList = (some (.leaf ['r'] "aßé".toList), ['!']) ∧
    Text.classEnd (· ≠ '!') "aßé!".toList = 5 := by decide

end CharacterRule

end Descent
