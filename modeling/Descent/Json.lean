import Descent.Binary64
import Descent.Text

/-! JSON texts, read from left to right. The first problem decides. A value that is only skipped may
be read loosely: its numbers may have any size and its escapes may spell half a surrogate pair. -/

namespace Descent

namespace Json

inductive Problem where
  /-- The text ends too early. -/
  | ended
  /-- The text is no JSON. -/
  | malformed
  /-- The value has the wrong shape. -/
  | mismatched
  deriving DecidableEq

def isSpace (c : Char) : Bool := c = ' ' || c = '\n' || c = '\t' || c = '\r'

def skipSpace (s : Text) : Text := s.dropWhile isSpace

/-- What follows the letters of a keyword. -/
def keyword : Text → Text → Except Problem Text
  | [], s => .ok s
  | _ :: _, [] => .error .ended
  | k :: letters, c :: s => if k = c then keyword letters s else .error .malformed

def hexDigit? (c : Char) : Option Nat :=
  if '0' ≤ c && c ≤ '9' then some (c.toNat - 48)
  else if 'a' ≤ c && c ≤ 'f' then some (c.toNat - 87)
  else if 'A' ≤ c && c ≤ 'F' then some (c.toNat - 55)
  else none

/-- Four hexadecimal digits. Fewer than four bytes are too few whatever they are. -/
def fourHexDigits (s : Text) : Except Problem (Nat × Text) :=
  if s.size < 4 then .error .ended
  else
    match (s.take 4).mapM hexDigit? with
    | some digits => .ok (digits.foldl (fun n d => 16 * n + d) 0, s.drop 4)
    | none => .error .malformed

def isLeadingSurrogate (n : Nat) : Bool := 0xD800 ≤ n && n ≤ 0xDBFF

def isTrailingSurrogate (n : Nat) : Bool := 0xDC00 ≤ n && n ≤ 0xDFFF

/-- The second half of a surrogate pair. -/
def trailingSurrogate : Text → Except Problem (Nat × Text)
  | [] => .error .ended
  | ['\\'] => .error .ended
  | '\\' :: 'u' :: s => do
      let (n, s) ← fourHexDigits s
      if isTrailingSurrogate n then .ok (n, s) else .error .malformed
  | _ => .error .malformed

/-- The character that stands behind a backslash and `u`. -/
def unicodeEscape (loose : Bool) (s : Text) : Except Problem (Char × Text) := do
  let (n, s) ← fourHexDigits s
  if loose then .ok ('\ufffd', s)
  else if isTrailingSurrogate n then .error .malformed
  else if isLeadingSurrogate n then do
    let (m, s) ← trailingSurrogate s
    .ok (Char.ofNat (0x10000 + 0x400 * (n - 0xD800) + (m - 0xDC00)), s)
  else .ok (Char.ofNat n, s)

/-- The character that stands behind a backslash. -/
def escape (loose : Bool) : Text → Except Problem (Char × Text)
  | [] => .error .ended
  | '"' :: s => .ok ('"', s)
  | '\\' :: s => .ok ('\\', s)
  | '/' :: s => .ok ('/', s)
  | 'b' :: s => .ok ('\x08', s)
  | 'f' :: s => .ok ('\x0c', s)
  | 'n' :: s => .ok ('\n', s)
  | 'r' :: s => .ok ('\r', s)
  | 't' :: s => .ok ('\t', s)
  | 'u' :: s => unicodeEscape loose s
  | _ => .error .malformed

/-- The rest of a string of at most `fuel` characters, up to its quote. -/
def stringWithin (loose : Bool) : Nat → Text → Except Problem (Text × Text)
  | 0, _ => .error .ended
  | _ + 1, [] => .error .ended
  | _ + 1, '"' :: s => .ok ([], s)
  | fuel + 1, '\\' :: s => do
      let (c, s) ← escape loose s
      let (text, s) ← stringWithin loose fuel s
      .ok (c :: text, s)
  | fuel + 1, c :: s =>
      if c.toNat < 32 then .error .malformed
      else do
        let (text, s) ← stringWithin loose fuel s
        .ok (c :: text, s)

/-- The rest of a string behind its first quote. -/
def string (loose : Bool) (s : Text) : Except Problem (Text × Text) :=
  stringWithin loose (s.length + 1) s

def isDigit (c : Char) : Bool := '0' ≤ c && c ≤ '9'

/-- The problem of a number that lacks a digit. -/
def lackOfDigit (loose : Bool) (s : Text) : Problem :=
  if s.isEmpty && !loose then .ended else .malformed

/-- At least one digit. -/
def digits (loose : Bool) (s : Text) : Except Problem (Text × Text) :=
  match s.takeWhile isDigit with
  | [] => .error (lackOfDigit loose s)
  | d :: ds => .ok (d :: ds, s.dropWhile isDigit)

/-- The digits before the point; a zero stands alone. -/
def wholePart (loose : Bool) (s : Text) : Except Problem (Text × Text) := do
  let (ds, s) ← digits loose s
  if ds.head? = some '0' ∧ ds.length ≠ 1 then .error .malformed else .ok (ds, s)

/-- The digits behind the point, if there is one. -/
def fraction (loose : Bool) : Text → Except Problem (Text × Text)
  | '.' :: s => digits loose s
  | s => .ok ([], s)

def natural (ds : Text) : Nat := ds.foldl (fun n d => 10 * n + (d.toNat - 48)) 0

/-- The power of ten, if one is given. -/
def exponent (loose : Bool) (s : Text) : Except Problem (Int × Text) :=
  match s with
  | c :: s =>
      if c = 'e' ∨ c = 'E' then
        match s with
        | '-' :: s => do
            let (ds, s) ← digits loose s
            .ok (-(natural ds), s)
        | '+' :: s => do
            let (ds, s) ← digits loose s
            .ok (natural ds, s)
        | s => do
            let (ds, s) ← digits loose s
            .ok (natural ds, s)
      else .ok (0, c :: s)
  | [] => .ok (0, [])

/-- The number that `n` becomes with the digits behind it as long as it stays below 2^64, and how
many digits are left out. -/
def significand (n : Nat) : Text → Nat × Nat
  | [] => (n, 0)
  | d :: ds =>
      let m := 10 * n + (d.toNat - 48)
      if m < Nat.pow 2 64 then significand m ds else (n, ds.length + 1)

/-- Whether the digits times a power of ten are no finite number. A power that is no binary64 number
itself makes all but zero too large. -/
def isTooLarge (ds : Text) (power : Int) : Bool :=
  let (n, left) := significand 0 ds
  let power := power + left
  n ≠ 0 && 0 ≤ power && (308 < power || !Binary64.isFinite (Binary64.scaled n power.toNat))

/-- What follows a number. -/
def number (loose : Bool) (s : Text) : Except Problem Text := do
  let unsigned := match s with
    | '-' :: s => s
    | s => s
  let (whole, s) ← wholePart loose unsigned
  let (part, s) ← fraction loose s
  let (power, s) ← exponent loose s
  if !loose && isTooLarge (whole ++ part) (power - part.length) then .error .malformed else .ok s

/-- What follows the colon behind a key. -/
def colon (s : Text) : Except Problem Text :=
  match skipSpace s with
  | [] => .error .ended
  | ':' :: s => .ok s
  | _ => .error .malformed

/-- The string at the start of a member. -/
def key (loose : Bool) (s : Text) : Except Problem (Text × Text) :=
  match skipSpace s with
  | [] => .error .ended
  | '"' :: s => string loose s
  | _ => .error .malformed

/-- The key of the next member, or the end of the object. -/
def nextKey (first : Bool) (s : Text) : Except Problem (Option Text × Text) :=
  match skipSpace s with
  | [] => .error .ended
  | '\x7d' :: s => .ok (none, s)
  | c :: s =>
      if first then do
        let (k, s) ← key false (c :: s)
        .ok (some k, s)
      else if c = ',' then do
        let (k, s) ← key false s
        .ok (some k, s)
      else .error .malformed

/-- Whether there is a next element, which then follows, or the end of the array. -/
def nextElement (first : Bool) (s : Text) : Except Problem (Bool × Text) :=
  match skipSpace s with
  | [] => .error .ended
  | ']' :: s => .ok (false, s)
  | c :: s =>
      if first then .ok (true, c :: s)
      else if c = ',' then
        match skipSpace s with
        | [] => .error .ended
        | ']' :: _ => .error .malformed
        | s => .ok (true, s)
      else .error .malformed

/-- An array or object that is not closed. -/
inductive Frame where
  | array
  | object

mutual

/-- What follows a value, and then the frames around it. At most `room` frames may be open. -/
def skipValue (loose : Bool) (room : Nat) : Nat → List Frame → Text → Except Problem Text
  | 0, _, _ => .error .ended
  | fuel + 1, frames, s =>
      match skipSpace s with
      | [] => .error .ended
      | 'n' :: s => do skipFrames loose room fuel frames (← keyword "ull".toList s)
      | 't' :: s => do skipFrames loose room fuel frames (← keyword "rue".toList s)
      | 'f' :: s => do skipFrames loose room fuel frames (← keyword "alse".toList s)
      | '"' :: s => do skipFrames loose room fuel frames (← string loose s).2
      | '[' :: s =>
          if frames.length < room then
            match skipSpace s with
            | ']' :: s => skipFrames loose room fuel frames s
            | s => skipValue loose room fuel (.array :: frames) s
          else .error .malformed
      | '\x7b' :: s =>
          if frames.length < room then
            match skipSpace s with
            | '\x7d' :: s => skipFrames loose room fuel frames s
            | s => skipMember loose room fuel frames s
          else .error .malformed
      | c :: s =>
          if c = '-' ∨ isDigit c then do skipFrames loose room fuel frames (← number loose (c :: s))
          else .error .malformed

/-- What follows the frames, behind a value in the innermost one. -/
def skipFrames (loose : Bool) (room : Nat) : Nat → List Frame → Text → Except Problem Text
  | 0, _, _ => .error .ended
  | _ + 1, [], s => .ok s
  | fuel + 1, .array :: frames, s =>
      match skipSpace s with
      | [] => .error .ended
      | ',' :: s => skipValue loose room fuel (.array :: frames) s
      | ']' :: s => skipFrames loose room fuel frames s
      | _ => .error .malformed
  | fuel + 1, .object :: frames, s =>
      match skipSpace s with
      | [] => .error .ended
      | ',' :: s => skipMember loose room fuel frames s
      | '\x7d' :: s => skipFrames loose room fuel frames s
      | _ => .error .malformed

/-- What follows an object that goes on with a member, and then the frames around it. -/
def skipMember (loose : Bool) (room : Nat) : Nat → List Frame → Text → Except Problem Text
  | 0, _, _ => .error .ended
  | fuel + 1, frames, s => do
      let (_, s) ← key loose s
      skipValue loose room fuel (.object :: frames) (← colon s)

end

/-- What follows a value that nobody reads. -/
def ignored (s : Text) : Except Problem Text :=
  skipValue true s.length (2 * s.length + 2) [] s

/-- What follows a value in which at most `room` arrays and objects nest. -/
def anyValue (room : Nat) (s : Text) : Except Problem Text :=
  skipValue false room (2 * s.length + 2) [] s

/-- The problem where a value of another shape is expected. Of a scalar the whole is read first, of
an array or object only its bracket. -/
def mismatch (s : Text) : Problem :=
  match skipSpace s with
  | '[' :: _ => .mismatched
  | '\x7b' :: _ => .mismatched
  | s =>
      match anyValue 0 s with
      | .ok _ => .mismatched
      | .error p => p

def bool (s : Text) : Except Problem (Bool × Text) :=
  match skipSpace s with
  | 't' :: s => do .ok (true, ← keyword "rue".toList s)
  | 'f' :: s => do .ok (false, ← keyword "alse".toList s)
  | s => .error (mismatch s)

def text (s : Text) : Except Problem (Text × Text) :=
  match skipSpace s with
  | '"' :: s => string false s
  | s => .error (mismatch s)

/-- Nothing for `null`, and else what `read` finds. -/
def optional {α : Type} (read : Text → Except Problem (α × Text)) (s : Text) :
    Except Problem (Option α × Text) :=
  match skipSpace s with
  | 'n' :: s => do .ok (none, ← keyword "ull".toList s)
  | s => do
      let (a, s) ← read s
      .ok (some a, s)

end Json

end Descent
