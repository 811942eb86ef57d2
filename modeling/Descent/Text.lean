/-! Texts as lists of characters, measured and cut in UTF-8 bytes. A cut is total: it answers
`none` outside the text or inside a character. -/

namespace Descent

abbrev Text := List Char

namespace Text

/-- The UTF-8 form of a text. -/
def bytes (s : Text) : List UInt8 := s.flatMap String.utf8EncodeChar

/-- The number of bytes of the UTF-8 form. -/
def size : Text → Nat
  | [] => 0
  | c :: s => c.utf8Size + size s

@[simp] theorem size_append (s t : Text) : size (s ++ t) = size s + size t := by
  induction s with
  | nil => simp [size]
  | cons c s ih => simp [size, ih, Nat.add_assoc]

theorem size_pos {s : Text} (h : s ≠ []) : 0 < size s := by
  cases s with
  | nil => exact absurd rfl h
  | cons c s => exact Nat.add_pos_left c.utf8Size_pos _

@[simp] theorem size_eq_zero {s : Text} : size s = 0 ↔ s = [] := by
  cases s with
  | nil => simp [size]
  | cons c s => simp [size, Nat.ne_of_gt c.utf8Size_pos]

@[simp] theorem bytes_nil : bytes [] = [] := rfl

@[simp] theorem bytes_cons (c : Char) (s : Text) :
    bytes (c :: s) = String.utf8EncodeChar c ++ bytes s := rfl

@[simp] theorem bytes_append (s t : Text) : bytes (s ++ t) = bytes s ++ bytes t := by
  simp [bytes]

@[simp] theorem length_bytes (s : Text) : (bytes s).length = size s := by
  induction s with
  | nil => rfl
  | cons c s ih => simp [size, ih]

/-- The text from byte `n` on. -/
def fromByte? : Text → Nat → Option Text
  | s, 0 => some s
  | [], _ + 1 => none
  | c :: s, n + 1 => if n + 1 < c.utf8Size then none else fromByte? s (n + 1 - c.utf8Size)

/-- The text before byte `n`. -/
def uptoByte? : Text → Nat → Option Text
  | _, 0 => some []
  | [], _ + 1 => none
  | c :: s, n + 1 =>
      if n + 1 < c.utf8Size then none
      else (uptoByte? s (n + 1 - c.utf8Size)).map (c :: ·)

/-- The text from byte `start` up to byte `stop`. -/
def slice? (s : Text) (start stop : Nat) : Option Text :=
  if start ≤ stop then (fromByte? s start).bind (uptoByte? · (stop - start)) else none

theorem fromByte?_zero (s : Text) : fromByte? s 0 = some s := by
  cases s <;> rfl

theorem fromByte?_eq_some_iff {s r : Text} {n : Nat} :
    fromByte? s n = some r ↔ ∃ p, s = p ++ r ∧ size p = n := by
  induction s generalizing n with
  | nil =>
    cases n with
    | zero =>
      simp only [fromByte?_zero, Option.some.injEq, size_eq_zero]
      exact ⟨fun h => ⟨[], h, rfl⟩, fun ⟨_, h, hp⟩ => by simpa [hp] using h⟩
    | succ n =>
      simp only [fromByte?, reduceCtorEq, false_iff, not_exists, not_and]
      intro p hp
      simp [(List.append_eq_nil_iff.1 hp.symm).1, size]
  | cons c s ih =>
    cases n with
    | zero =>
      simp only [fromByte?_zero, Option.some.injEq, size_eq_zero]
      exact ⟨fun h => ⟨[], h, rfl⟩, fun ⟨_, h, hp⟩ => by simpa [hp] using h⟩
    | succ n =>
      have hc := c.utf8Size_pos
      have cut : (∃ p, c :: s = p ++ r ∧ size p = n + 1) ↔
          ∃ p, s = p ++ r ∧ c.utf8Size + size p = n + 1 := by
        constructor
        · rintro ⟨p, hp, hn⟩
          cases p with
          | nil => simp [size] at hn
          | cons d p =>
            obtain ⟨rfl, rfl⟩ := List.cons.inj hp
            exact ⟨p, rfl, hn⟩
        · rintro ⟨p, rfl, hn⟩
          exact ⟨c :: p, rfl, hn⟩
      rw [fromByte?, cut]
      split
      · simp only [reduceCtorEq, false_iff, not_exists, not_and]
        intro p _
        omega
      · rw [ih]
        exact exists_congr fun p => and_congr_right fun _ => by omega

theorem uptoByte?_eq_some_iff {s p : Text} {n : Nat} :
    uptoByte? s n = some p ↔ ∃ r, s = p ++ r ∧ size p = n := by
  induction s generalizing n p with
  | nil =>
    cases n with
    | zero => cases p <;> simp [uptoByte?]
    | succ n =>
      simp only [uptoByte?, reduceCtorEq, false_iff, not_exists, not_and]
      intro r hr
      simp [(List.append_eq_nil_iff.1 hr.symm).1, size]
  | cons c s ih =>
    cases n with
    | zero => cases p <;> simp [uptoByte?]
    | succ n =>
      have hc := c.utf8Size_pos
      rw [uptoByte?]
      split
      · simp only [reduceCtorEq, false_iff, not_exists, not_and]
        intro r hr
        cases p with
        | nil => simp [size]
        | cons d p =>
          obtain ⟨rfl, _⟩ := List.cons.inj hr
          simp only [size]
          omega
      · simp only [Option.map_eq_some_iff, ih]
        constructor
        · rintro ⟨q, ⟨r, rfl, hn⟩, rfl⟩
          exact ⟨r, rfl, by simp only [size]; omega⟩
        · rintro ⟨r, hr, hn⟩
          cases p with
          | nil => simp [size] at hn
          | cons d p =>
            obtain ⟨rfl, rfl⟩ := List.cons.inj hr
            exact ⟨p, ⟨r, rfl, by simp only [size] at hn; omega⟩, rfl⟩

/-- A slice is cut out at both ends: neither end lies inside a character or outside the text. -/
theorem slice?_eq_some_iff {s m : Text} {start stop : Nat} :
    slice? s start stop = some m ↔
      ∃ p r, s = p ++ (m ++ r) ∧ size p = start ∧ size p + size m = stop := by
  simp only [slice?, Option.ite_none_right_eq_some, Option.bind_eq_some_iff, fromByte?_eq_some_iff,
    uptoByte?_eq_some_iff]
  constructor
  · rintro ⟨hle, t, ⟨p, rfl, rfl⟩, r, rfl, hm⟩
    exact ⟨p, r, rfl, rfl, by omega⟩
  · rintro ⟨p, r, rfl, rfl, hm⟩
    exact ⟨by omega, m ++ r, ⟨p, rfl, rfl⟩, r, rfl, by omega⟩

/-- The byte offset in `s` of a text that ends it. -/
def offsetOf (s rest : Text) : Nat := s.size - rest.size

theorem size_le_of_suffix {s rest : Text} (h : rest <:+ s) : rest.size ≤ s.size := by
  obtain ⟨p, rfl⟩ := h
  simp

theorem offsetOf_add_size {s rest : Text} (h : rest <:+ s) :
    offsetOf s rest + rest.size = s.size :=
  Nat.sub_add_cancel (size_le_of_suffix h)

theorem fromByte?_offsetOf {s rest : Text} (h : rest <:+ s) :
    s.fromByte? (offsetOf s rest) = some rest := by
  obtain ⟨p, rfl⟩ := h
  exact fromByte?_eq_some_iff.2 ⟨p, rfl, by simp [offsetOf]⟩

/-- A text that ends `s`, cut out of `s`; any other text is refused. -/
def asSuffix? (s rest : Text) : Option Text :=
  if rest.isSuffixOf s then s.fromByte? (offsetOf s rest) else none

theorem asSuffix?_eq_some_iff {s rest r : Text} :
    asSuffix? s rest = some r ↔ rest <:+ s ∧ rest = r := by
  by_cases h : rest <:+ s
  · simp [asSuffix?, h, fromByte?_offsetOf h]
  · simp [asSuffix?, h]

/-- What follows `phrase` in a text that starts with it. -/
def after? : Text → Text → Option Text
  | [], s => some s
  | _ :: _, [] => none
  | p :: phrase, c :: s => if p = c then after? phrase s else none

theorem after?_eq_some_iff {phrase s rest : Text} :
    after? phrase s = some rest ↔ s = phrase ++ rest := by
  induction phrase generalizing s with
  | nil => simp [after?]
  | cons p phrase ih =>
    cases s with
    | nil => simp [after?]
    | cons c s =>
      by_cases h : p = c
      · simp [after?, h, ih]
      · simp [after?, h, Ne.symm h]

theorem length_of_after? {phrase s rest : Text} (h : after? phrase s = some rest) :
    s.length = phrase.length + rest.length := by
  rw [after?_eq_some_iff.1 h, List.length_append]

/-- A first piece is extended by one character. -/
def consFirst (c : Char) : List Text → List Text
  | [] => [[c]]
  | piece :: pieces => (c :: piece) :: pieces

/-- The pieces between the occurrences of the delimiter `d :: ds`, found from the left. -/
def split (d : Char) (ds : Text) (s : Text) : List Text :=
  match s with
  | [] => [[]]
  | c :: r =>
      match _h : after? (d :: ds) (c :: r) with
      | some rest => [] :: split d ds rest
      | none => consFirst c (split d ds r)
termination_by s.length
decreasing_by
  · have := length_of_after? _h
    simp only [List.length_cons] at this ⊢
    omega
  · simp

/-- A line feed, and a carriage return before it, ends a line; what follows the last line feed is
a line only if it is not empty. -/
def lines : Text → List Text
  | [] => []
  | '\n' :: s => [] :: lines s
  | '\r' :: '\n' :: s => [] :: lines s
  | c :: s => consFirst c (lines s)

/-- The decimal form of a number. -/
def decimal (n : Nat) : Text := Nat.toDigits 10 n

end Text

end Descent
