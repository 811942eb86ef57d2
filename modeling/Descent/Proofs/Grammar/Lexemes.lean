import Descent.Grammar.Body
import Descent.Proofs.Text.Ascii

/-! Lexemes as texts. Reading goes from byte to byte and meets in the bytes of a text just the lexeme
of its characters: a word as long as it can be, a bar, a separator, or a literal with what stands
between its quotes. Where no lexeme stands none is read. -/

namespace Descent

open Text (bytes lead trail IsAscii)

namespace Lexeme

/-- What may stand between quotes: characters other than the quote and the backslash, and
backslashes with the character that they protect. -/
inductive Units (quote : Char) : Text → Prop
  | nil : Units quote []
  | plain {c : Char} {s : Text} : c ≠ quote → c ≠ '\\' → Units quote s → Units quote (c :: s)
  | escape {c : Char} {s : Text} : Units quote s → Units quote ('\\' :: c :: s)

/-- The text is a lexeme of the kind. -/
inductive Written : Kind → Text → Prop
  | ident {text : Text} : text ≠ [] → (∀ b ∈ bytes text, isWord b = true) → Written .ident text
  | literal {quote : Char} {inner : Text} : quote = '"' ∨ quote = '\'' → Units quote inner →
      Written .literal (quote :: (inner ++ [quote]))
  | pipe : Written .pipe ['|']
  | define : Written .define [':', '=']

theorem Written.ne_nil {kind : Kind} {text : Text} (h : Written kind text) : text ≠ [] := by
  cases h with
  | ident hne => exact hne
  | literal => exact List.cons_ne_nil _ _
  | pipe => exact List.cons_ne_nil _ _
  | define => exact List.cons_ne_nil _ _

/-- A word goes on as long as it can; the other lexemes end by themselves. -/
def Ends (kind : Kind) (rest : Text) : Prop :=
  kind = .ident → ∀ b ∈ (bytes rest).head?, isWord b = false

/-- What follows a lexeme does not lengthen it, if neither what follows at first nor what follows
then does. -/
theorem Ends.append {kind : Kind} {rest after : Text} (hrest : Ends kind rest)
    (hafter : Ends kind after) : Ends kind (rest ++ after) := by
  intro hkind b hb
  rw [Text.bytes_append] at hb
  cases hbytes : bytes rest with
  | nil =>
      rw [hbytes] at hb
      exact hafter hkind b hb
  | cons b' more =>
      rw [hbytes] at hb
      cases hb
      exact hrest hkind b (by rw [hbytes]; rfl)

theorem Ends.of_append {kind : Kind} {rest after : Text} (h : Ends kind (rest ++ after)) :
    Ends kind rest := by
  intro hkind b hb
  refine h hkind b ?_
  cases hbytes : bytes rest with
  | nil =>
      rw [hbytes] at hb
      cases hb
  | cons b' more =>
      rw [hbytes] at hb
      rw [Text.bytes_append, hbytes]
      exact hb

theorem isAscii_isSpace : IsAscii isSpace := by
  intro b hb
  have hn : 0x80 ≤ b.toNat := UInt8.le_iff_toNat_le.1 hb
  simp [isSpace, ← UInt8.toNat_inj]
  omega

theorem isAscii_isWord : IsAscii isWord := by
  intro b hb
  have hn : 0x80 ≤ b.toNat := UInt8.le_iff_toNat_le.1 hb
  simp [isWord, isDigit, ← UInt8.toNat_inj, UInt8.le_iff_toNat_le]
  omega

theorem afterLiteral_cons_of_ne {q b : UInt8} (hslash : b ≠ 0x5C) (hq : b ≠ q)
    (rest : List UInt8) : afterLiteral q (b :: rest) = afterLiteral q rest := by
  rw [afterLiteral.eq_def]
  exact (if_neg hslash).trans (if_neg hq)

theorem afterLiteral_cons_self {q : UInt8} (hslash : q ≠ 0x5C) (rest : List UInt8) :
    afterLiteral q (q :: rest) = some rest := by
  rw [afterLiteral.eq_def]
  exact (if_neg hslash).trans (if_pos rfl)

/-- Bytes of longer characters neither end a literal nor protect a byte. -/
theorem afterLiteral_append_of_high {q : UInt8} (hq : q < 0x80) {high : List UInt8}
    (h : ∀ b ∈ high, 0x80 ≤ b) (rest : List UInt8) :
    afterLiteral q (high ++ rest) = afterLiteral q rest := by
  induction high with
  | nil => rfl
  | cons b high ih =>
      obtain ⟨hb, hhigh⟩ := List.forall_mem_cons.1 h
      have hslash : b ≠ 0x5C := by
        rintro rfl
        exact absurd hb (by decide)
      have hquote : b ≠ q := by
        rintro rfl
        exact UInt8.not_le.2 hq hb
      rw [List.cons_append, afterLiteral_cons_of_ne hslash hquote, ih hhigh]

section

/- Both quotes are ASCII and no backslash. -/
variable {quote : Char} (hq : quote = '"' ∨ quote = '\'')
include hq

theorem lead_quote_lt : lead quote < 0x80 := by
  rcases hq with rfl | rfl <;> decide

theorem lead_eq_lead_quote_iff {c : Char} : lead c = lead quote ↔ c = quote := by
  rcases hq with rfl | rfl <;> exact Text.lead_eq_lead_iff (by decide)

theorem quote_ne_backslash : quote ≠ '\\' := by
  rcases hq with rfl | rfl <;> decide

theorem read_quote (rest : List UInt8) :
    read (lead quote) rest =
      match afterLiteral (lead quote) rest with
      | some rest => .ok (.literal, rest)
      | none => .error .unterminated := by
  rcases hq with rfl | rfl
  · rfl
  · rfl

theorem afterLiteral_plain {c : Char} (hquote : c ≠ quote) (hslash : c ≠ '\\') (s : Text) :
    afterLiteral (lead quote) (bytes (c :: s)) = afterLiteral (lead quote) (bytes s) := by
  have hlead : lead c ≠ lead '\\' := fun h => hslash ((Text.lead_eq_lead_iff (by decide)).1 h)
  rw [Text.bytes_cons_eq,
    afterLiteral_cons_of_ne hlead fun h => hquote ((lead_eq_lead_quote_iff hq).1 h),
    afterLiteral_append_of_high (lead_quote_lt hq) Text.le_of_mem_trail]

/-- After a backslash one byte is passed over; the rest of its character is passed over anyway. -/
theorem afterLiteral_escape (c : Char) (s : Text) :
    afterLiteral (lead quote) (bytes ('\\' :: c :: s)) = afterLiteral (lead quote) (bytes s) := by
  rw [Text.bytes_cons_eq '\\', Text.bytes_cons_eq c]
  show afterLiteral _ (0x5C :: (lead c :: (trail c ++ bytes s))) = _
  rw [afterLiteral, if_pos rfl,
    afterLiteral_append_of_high (lead_quote_lt hq) Text.le_of_mem_trail]

theorem afterLiteral_quote (s : Text) :
    afterLiteral (lead quote) (bytes (quote :: s)) = some (bytes s) := by
  have hlead : lead quote ≠ lead '\\' := fun h =>
    quote_ne_backslash hq ((Text.lead_eq_lead_iff (by decide)).1 h)
  rw [Text.bytes_cons_eq, Text.trail_eq_nil (lead_quote_lt hq)]
  exact afterLiteral_cons_self hlead _

theorem afterLiteral_of_units {inner : Text} (h : Units quote inner) (after : Text) :
    afterLiteral (lead quote) (bytes (inner ++ quote :: after)) = some (bytes after) := by
  induction h with
  | nil => exact afterLiteral_quote hq after
  | plain hquote hslash _ ih => rw [List.cons_append, afterLiteral_plain hq hquote hslash, ih]
  | escape _ ih => rw [List.cons_append, List.cons_append, afterLiteral_escape hq, ih]

theorem exists_of_afterLiteral {rest : List UInt8} (s : Text)
    (h : afterLiteral (lead quote) (bytes s) = some rest) :
    ∃ inner after : Text, s = inner ++ quote :: after ∧ Units quote inner ∧ rest = bytes after := by
  match s with
  | [] => cases h
  | c :: s =>
      by_cases hslash : c = '\\'
      · subst hslash
        match s with
        | [] => cases h
        | c :: s =>
            rw [afterLiteral_escape hq] at h
            obtain ⟨inner, after, rfl, hinner, hrest⟩ := exists_of_afterLiteral s h
            exact ⟨'\\' :: c :: inner, after, rfl, .escape hinner, hrest⟩
      by_cases hquote : c = quote
      · subst hquote
        rw [afterLiteral_quote hq] at h
        exact ⟨[], s, rfl, .nil, (Option.some.inj h).symm⟩
      · rw [afterLiteral_plain hq hquote hslash] at h
        obtain ⟨inner, after, rfl, hinner, hrest⟩ := exists_of_afterLiteral s h
        exact ⟨c :: inner, after, rfl, .plain hquote hslash hinner, hrest⟩

end

theorem eq_of_lead {c d : Char} (hd : d.toNat < 0x80) (h : lead c = lead d) : c = d :=
  (Text.lead_eq_lead_iff hd).1 h

/-- What is read from the bytes of a text is a lexeme at its start, and the bytes of what follows. -/
theorem exists_of_read {c : Char} {s : Text} {b : UInt8} {more rest : List UInt8} {kind : Kind}
    (hb : bytes (c :: s) = b :: more) (h : read b more = .ok (kind, rest)) :
    ∃ text after : Text, c :: s = text ++ after ∧ Written kind text ∧ Ends kind after ∧
      rest = bytes after := by
  rw [Text.bytes_cons_eq] at hb
  obtain ⟨rfl, rfl⟩ := List.cons.inj hb
  unfold read at h
  split at h
  · next hpipe =>
      obtain rfl : c = '|' := eq_of_lead (by decide) hpipe
      cases h
      exact ⟨['|'], s, rfl, .pipe, nofun, rfl⟩
  split at h
  · next hdefine =>
      obtain rfl : c = ':' := eq_of_lead (by decide) hdefine.1
      cases s with
      | nil => cases hdefine.2
      | cons d s =>
          have hd := hdefine.2
          rw [Text.trail_eq_nil (c := ':') (by decide), Text.bytes_cons_eq] at hd
          obtain rfl : d = '=' := eq_of_lead (by decide) (Option.some.inj hd)
          cases h
          exact ⟨[':', '='], s, rfl, .define, nofun, rfl⟩
  split at h
  · next hquote =>
      have hq : c = '"' ∨ c = '\'' :=
        hquote.imp (eq_of_lead (by decide)) (eq_of_lead (by decide))
      rw [Text.trail_eq_nil (lead_quote_lt hq), List.nil_append] at h
      split at h
      · next rest' hafter =>
          cases h
          obtain ⟨inner, after, rfl, hinner, hrest⟩ := exists_of_afterLiteral hq s hafter
          refine ⟨c :: (inner ++ [c]), after, ?_, .literal hq hinner, nofun, hrest⟩
          simp
      · cases h
  split at h
  · next hword =>
      cases h
      have htrail : trail c = [] := Text.trail_eq_nil (Text.lt_of_isAscii isAscii_isWord hword)
      obtain ⟨before, after, rfl, hbefore, hafter, hdrop⟩ :=
        Text.exists_of_dropWhile_bytes isAscii_isWord s
      refine ⟨c :: before, after, rfl, .ident (List.cons_ne_nil _ _) ?_, fun _ => hafter, ?_⟩
      · rw [Text.bytes_cons_eq, htrail]
        exact List.forall_mem_cons.2 ⟨hword, hbefore⟩
      · rw [htrail]
        exact hdrop
  · cases h

theorem ne_of_isWord {b d : UInt8} (h : isWord b = true) (hd : isWord d = false) : b ≠ d := by
  rintro rfl
  rw [h] at hd
  cases hd

theorem isSpace_of_isWord {b : UInt8} (h : isWord b = true) : isSpace b = false := by
  simp only [isSpace, Bool.or_eq_false_iff, decide_eq_false_iff_not]
  exact ⟨⟨⟨⟨ne_of_isWord h (by decide), ne_of_isWord h (by decide)⟩,
    ne_of_isWord h (by decide)⟩, ne_of_isWord h (by decide)⟩, ne_of_isWord h (by decide)⟩

/-- A lexeme at the start of a text is read from its bytes. -/
theorem Written.read {kind : Kind} {text after : Text} (h : Written kind text)
    (hends : Ends kind after) :
    ∃ b more, bytes (text ++ after) = b :: more ∧ isSpace b = false ∧
      Lexeme.read b more = .ok (kind, bytes after) := by
  cases h with
  | pipe => exact ⟨_, _, rfl, by decide, rfl⟩
  | define => exact ⟨_, _, rfl, by decide, rfl⟩
  | @literal quote inner hq hinner =>
      refine ⟨lead quote, bytes (inner ++ quote :: after), ?_, ?_, ?_⟩
      · rw [List.cons_append, List.append_assoc, Text.bytes_cons_eq,
          Text.trail_eq_nil (lead_quote_lt hq)]
        rfl
      · rcases hq with rfl | rfl <;> decide
      · rw [read_quote hq, afterLiteral_of_units hq hinner after]
  | ident hne hword =>
      obtain ⟨c, text, rfl⟩ := List.exists_cons_of_ne_nil hne
      rw [Text.bytes_cons_eq] at hword
      obtain ⟨hlead, hrest⟩ := List.forall_mem_cons.1 hword
      have htrail : trail c = [] := Text.trail_eq_nil (Text.lt_of_isAscii isAscii_isWord hlead)
      rw [htrail] at hrest
      refine ⟨lead c, bytes (text ++ after), ?_, isSpace_of_isWord hlead, ?_⟩
      · rw [List.cons_append, Text.bytes_cons_eq, htrail]
        rfl
      · have hquote : ¬(lead c = 0x22 ∨ lead c = 0x27) := by
          rintro (h | h)
          · exact ne_of_isWord hlead (by decide) h
          · exact ne_of_isWord hlead (by decide) h
        unfold Lexeme.read
        rw [if_neg (ne_of_isWord hlead (by decide)),
          if_neg (fun h => ne_of_isWord hlead (by decide) h.1), if_neg hquote, if_pos hlead,
          Text.dropWhile_bytes_append hrest (hends rfl)]

/-- No lexeme stands at the start of the text. -/
def NoneAt (s : Text) : Prop := ∀ kind text, Written kind text → ¬text <+: s

theorem NoneAt.of_prefix {s t : Text} (h : NoneAt s) (ht : t <+: s) : NoneAt t :=
  fun kind text hw htext => h kind text hw (htext.trans ht)

/-- A text with no lexeme at its start does not go on with a word. -/
theorem NoneAt.ends {s : Text} (h : NoneAt s) (kind : Kind) : Ends kind s := by
  rintro - b hb
  cases s with
  | nil => cases hb
  | cons c s =>
      rw [Text.bytes_cons_eq] at hb
      cases hb
      refine Bool.eq_false_iff.2 fun hword => ?_
      have htrail := Text.trail_eq_nil (Text.lt_of_isAscii isAscii_isWord hword)
      have hone : ∀ b ∈ bytes [c], isWord b = true := by
        rw [Text.bytes_cons_eq, htrail]
        exact List.forall_mem_singleton.2 hword
      exact h .ident [c] (.ident (List.cons_ne_nil _ _) hone) ⟨s, rfl⟩

/-- A word may be cut short, but then it goes on to where it ends. -/
theorem Written.exists_ends {kind : Kind} {text : Text} (h : Written kind text) (rest : Text) :
    ∃ more after, rest = more ++ after ∧ Written kind (text ++ more) ∧ Ends kind after := by
  cases h with
  | ident hne hword =>
      obtain ⟨more, after, rfl, hmore, hafter, -⟩ :=
        Text.exists_of_dropWhile_bytes isAscii_isWord rest
      refine ⟨more, after, rfl, .ident (List.append_ne_nil_of_left_ne_nil hne _) ?_, fun _ => hafter⟩
      rw [Text.bytes_append]
      exact List.forall_mem_append.2 ⟨hword, hmore⟩
  | literal hq hinner => exact ⟨[], rest, rfl, (List.append_nil _).symm ▸ .literal hq hinner, nofun⟩
  | pipe => exact ⟨[], rest, rfl, .pipe, nofun⟩
  | define => exact ⟨[], rest, rfl, .define, nofun⟩

/-- The fault of a character that no lexeme starts with. -/
def faultAt (c : Char) : Fault := if c = '"' ∨ c = '\'' then .unterminated else .unexpected

theorem fault_of_read {b : UInt8} {more : List UInt8} {fault : Fault}
    (h : read b more = .error fault) :
    fault = if b = 0x22 ∨ b = 0x27 then .unterminated else .unexpected := by
  unfold read at h
  split at h
  · cases h
  split at h
  · cases h
  split at h
  · next hquote =>
      rw [if_pos hquote]
      split at h
      · cases h
      · cases h
        rfl
  · next hquote =>
      rw [if_neg hquote]
      split at h
      · cases h
      · cases h
        rfl

/-- Where no lexeme stands none is read, and the character tells why. -/
theorem read_of_noneAt {c : Char} {s : Text} {b : UInt8} {more : List UInt8}
    (hb : bytes (c :: s) = b :: more) (h : NoneAt (c :: s)) :
    read b more = .error (faultAt c) := by
  cases hread : read b more with
  | ok found =>
      obtain ⟨text, after, heq, hw, -, -⟩ := exists_of_read hb hread
      exact absurd ⟨after, heq.symm⟩ (h _ text hw)
  | error fault =>
      rw [Text.bytes_cons_eq] at hb
      obtain ⟨rfl, -⟩ := List.cons.inj hb
      have hquote : (lead c = 0x22 ∨ lead c = 0x27) ↔ (c = '"' ∨ c = '\'') :=
        or_congr (Text.lead_eq_lead_iff (d := '"') (by decide))
          (Text.lead_eq_lead_iff (d := '\'') (by decide))
      rw [fault_of_read hread]
      exact congrArg Except.error (ite_congr (propext hquote) (fun _ => rfl) fun _ => rfl)

end Lexeme

end Descent
