import Descent.Proofs.Grammar.Branches
import Descent.Proofs.Spec.Literals

/-! Branches as grammar text. Atoms stand one space apart and bars between the branches, with the
literals quoted in some way. Reading finds just these words, so the text compiles to the branches,
up to what the way of quoting makes of the literals. -/

namespace Descent

namespace Grammar

open Lexeme (Kind Written Ends Units)

/-- Texts in turn, one space apart. -/
def spaced : List Text → Text
  | [] => []
  | s :: ss => s ++ ss.flatMap (' ' :: ·)

theorem spaced_append {ss : List Text} (h : ss ≠ []) (rs : List Text) :
    spaced (ss ++ rs) = spaced ss ++ rs.flatMap (' ' :: ·) := by
  obtain ⟨s, ss, rfl⟩ := List.exists_cons_of_ne_nil h
  simp [spaced]

theorem flatMap_eq_cons_spaced {ss : List Text} (h : ss ≠ []) :
    ss.flatMap (' ' :: ·) = ' ' :: spaced ss := by
  obtain ⟨s, ss, rfl⟩ := List.exists_cons_of_ne_nil h
  simp [spaced]

/-- A way of quoting gives literals, and each has a text again, the sense of what was quoted. -/
structure Quotes (quote sense : Text → Text) : Prop where
  written : ∀ s, Written .literal (quote s)
  text? : ∀ s, Literal.text? (quote s) = some (sense s)
  ne_nil : ∀ s, s ≠ [] → sense s ≠ []

theorem Quotes.of_escape {escape sense : Char → Text}
    (h : ∀ c, Units '"' (escape c) ∧ Literal.unescape (escape c) = sense c)
    (hne : ∀ c, sense c ≠ []) :
    Quotes (fun s => '"' :: (s.flatMap escape ++ ['"'])) (·.flatMap sense) := by
  refine ⟨fun s => ?_, fun s => ?_, fun s hs => ?_⟩
  · exact .literal (.inl rfl) (Literal.unescape_flatMap h s).1
  · rw [Literal.text?_of_quotes (.inl rfl), (Literal.unescape_flatMap h s).2]
  · obtain ⟨c, s, rfl⟩ := List.exists_cons_of_ne_nil hs
    exact fun hnil => hne c (List.append_eq_nil_iff.1 hnil).1

section

variable (quote : Text → Text)

/-- The lexeme that an atom is written as. -/
def word : Spec → Kind × Text
  | .literal text => (.literal, quote text)
  | .reference name => (.ident, name)
  | .sequence _ | .alternation _ | .custom _ => (.ident, [])

/-- The lexemes of branches that stand behind others, each behind a bar. -/
def laterWords (branches : List (List Spec)) : List (Kind × Text) :=
  branches.flatMap fun b => (.pipe, ['|']) :: b.map (word quote)

theorem laterWords_cons (b : List Spec) (bs : List (List Spec)) :
    laterWords quote (b :: bs) =
      (.pipe, ['|']) :: (b.map (word quote) ++ laterWords quote bs) := rfl

/-- The lexemes that a list of branches is written as. -/
def words : List (List Spec) → List (Kind × Text)
  | [] => []
  | b :: bs => b.map (word quote) ++ laterWords quote bs

/-- A list of branches as grammar text. -/
def write (branches : List (List Spec)) : Text := spaced ((words quote branches).map Prod.snd)

end

/-- A lexeme that was found, without its place. -/
def form (l : Lexeme × Text) : Kind × Text := (l.1.kind, l.2)

theorem ends_flatMap (kind : Kind) (ss : List Text) : Ends kind (ss.flatMap (' ' :: ·)) := by
  intro _ b hb
  cases ss with
  | nil => cases hb
  | cons s ss =>
      cases hb
      rfl

theorem exists_lexed_flatMap (pos : Nat) {ws : List (Kind × Text)}
    (h : ∀ w ∈ ws, Written w.1 w.2) :
    ∃ found, Lexed pos ((ws.map Prod.snd).flatMap (' ' :: ·)) found ∧ found.map form = ws := by
  induction ws generalizing pos with
  | nil => exact ⟨[], .done nofun, rfl⟩
  | cons w ws ih =>
      obtain ⟨hw, hws⟩ := List.forall_mem_cons.1 h
      obtain ⟨found, hfound, rfl⟩ := ih (pos + Text.size [' '] + Text.size w.2) hws
      have hblank : ∀ b ∈ Text.bytes [' '], Lexeme.isSpace b = true :=
        List.forall_mem_singleton.2 rfl
      exact ⟨_, .next hblank hw (ends_flatMap _ _) hfound, rfl⟩

/-- Words one space apart are read as these words. -/
theorem exists_lexed_spaced {ws : List (Kind × Text)} (h : ∀ w ∈ ws, Written w.1 w.2) :
    ∃ found, Lexed 0 (spaced (ws.map Prod.snd)) found ∧ found.map form = ws := by
  cases ws with
  | nil => exact ⟨[], .done nofun, rfl⟩
  | cons w ws =>
      obtain ⟨hw, hws⟩ := List.forall_mem_cons.1 h
      obtain ⟨found, hfound, rfl⟩ := exists_lexed_flatMap (0 + Text.size [] + Text.size w.2) hws
      have hblank : ∀ b ∈ Text.bytes [], Lexeme.isSpace b = true := nofun
      exact ⟨_, .next hblank hw (ends_flatMap _ _) hfound, rfl⟩

section

variable {quote sense : Text → Text}

theorem word_ne_pipe (s : Spec) : (word quote s).1 ≠ .pipe := by
  cases s <;> exact Kind.noConfusion

theorem Quotes.written_word (hquote : Quotes quote sense) {a : Spec} (ha : NormalAtom a) :
    Written (word quote a).1 (word quote a).2 := by
  cases ha with
  | reference hne hword => exact .ident hne hword
  | literal _ => exact hquote.written _

/-- What branches are written with are bars and the words of their atoms. -/
theorem forall_mem_words {P : Kind × Text → Prop} {branches : List (List Spec)}
    (h : NormalBranches branches) (hbar : P (.pipe, ['|']))
    (hword : ∀ a, NormalAtom a → P (word quote a)) : ∀ w ∈ words quote branches, P w := by
  have hbranch : ∀ b : List Spec, (∀ a ∈ b, NormalAtom a) → ∀ w ∈ b.map (word quote), P w := by
    intro b hb
    exact List.forall_mem_map.2 fun a ha => hword a (hb a ha)
  cases branches with
  | nil => exact nofun
  | cons b bs =>
      obtain ⟨hb, hbs⟩ := List.forall_mem_cons.1 h
      refine List.forall_mem_append.2 ⟨hbranch b hb.2, ?_⟩
      intro w hw
      obtain ⟨b', hb', hw⟩ := List.mem_flatMap.1 hw
      rcases List.mem_cons.1 hw with rfl | hw
      · exact hbar
      · exact hbranch b' (hbs b' hb').2 w hw

theorem Quotes.written_words (hquote : Quotes quote sense) {branches : List (List Spec)}
    (h : NormalBranches branches) : ∀ w ∈ words quote branches, Written w.1 w.2 :=
  forall_mem_words h .pipe fun _ => hquote.written_word

/-- If the lexeme is the word of an atom, it stands for the atom with its sense. -/
def Sensed (quote sense : Text → Text) (source : Text) (l : Lexeme × Text) : Prop :=
  ∀ a, NormalAtom a → form l = word quote a → Stands source l.1 (a.mapLiterals sense)

theorem Quotes.sensed (hquote : Quotes quote sense) {source : Text} {l : Lexeme × Text}
    (hl : l.1.span.text? source = some l.2) : Sensed quote sense source l := by
  intro a ha h
  obtain ⟨hkind, htext⟩ := Prod.mk.inj h
  rw [htext] at hl
  cases ha with
  | reference => exact .reference hkind hl
  | literal hne => exact .literal hkind hl (hquote.text? _) (hquote.ne_nil _ hne)

variable {source : Text} {found : List (Lexeme × Text)}

theorem ne_pipe_of_form {b : List Spec} (h : found.map form = b.map (word quote)) :
    ∀ l ∈ found.map Prod.fst, l.kind ≠ .pipe := by
  refine List.forall_mem_map.2 fun l hl => ?_
  have hform : form l ∈ b.map (word quote) := h ▸ List.mem_map_of_mem hl
  obtain ⟨a, _, ha⟩ := List.mem_map.1 hform
  have hkind : l.1.kind = (word quote a).1 := congrArg Prod.fst ha.symm
  rw [hkind]
  exact word_ne_pipe a

theorem stands_of_form (hsense : ∀ l ∈ found, Sensed quote sense source l) {b : List Spec}
    (hb : ∀ a ∈ b, NormalAtom a) (h : found.map form = b.map (word quote)) :
    List.Forall₂ (Stands source) (found.map Prod.fst) (b.map (Spec.mapLiterals sense)) := by
  induction b generalizing found with
  | nil =>
      obtain rfl := List.map_eq_nil_iff.1 h
      exact .nil
  | cons a b ih =>
      obtain ⟨l, found, rfl, hl, hfound⟩ := List.map_eq_cons_iff.1 h
      obtain ⟨ha, hb⟩ := List.forall_mem_cons.1 hb
      obtain ⟨hsense, hsenses⟩ := List.forall_mem_cons.1 hsense
      exact .cons (hsense a ha hl) (ih hsenses hb hfound)

theorem branch_of_form (hsense : ∀ l ∈ found, Sensed quote sense source l) {b : List Spec}
    (hb : b ≠ [] ∧ ∀ a ∈ b, NormalAtom a) (h : found.map form = b.map (word quote)) :
    Branch source (found.map Prod.fst) (b.map (Spec.mapLiterals sense)) := by
  refine ⟨?_, stands_of_form hsense hb.2 h⟩
  rintro hnil
  rw [List.map_eq_nil_iff.1 hnil] at h
  exact hb.1 (List.map_eq_nil_iff.1 h.symm)

/-- Bars stand between the words of one branch and the words of the next. -/
theorem exists_groups {first rest : List (Lexeme × Text)} {b : List Spec} {bs : List (List Spec)}
    (hsense : ∀ l ∈ first ++ rest, Sensed quote sense source l) (hnormal : NormalBranches (b :: bs))
    (hfirst : first.map form = b.map (word quote))
    (hrest : rest.map form = laterWords quote bs) :
    ∃ groups, Barred ((first ++ rest).map Prod.fst) groups ∧ List.Forall₂ (Branch source) groups
      ((b :: bs).map (·.map (Spec.mapLiterals sense))) := by
  -- On the branches behind the first one: the bar before each ends the group that is open.
  induction bs generalizing b first rest with
  | nil =>
      obtain rfl := List.map_eq_nil_iff.1 hrest
      rw [List.append_nil] at hsense ⊢
      have hbranch := branch_of_form hsense (hnormal b List.mem_cons_self) hfirst
      exact ⟨_, .last (ne_pipe_of_form hfirst), .cons hbranch .nil⟩
  | cons b' bs ih =>
      obtain ⟨hb, hbs⟩ := List.forall_mem_cons.1 hnormal
      rw [laterWords_cons] at hrest
      obtain ⟨bar, rest, rfl, hbar, hrest⟩ := List.map_eq_cons_iff.1 hrest
      obtain ⟨second, rest, rfl, hsecond, hrest⟩ := List.map_eq_append_iff.1 hrest
      obtain ⟨hsensefirst, hsenserest⟩ := List.forall_mem_append.1 hsense
      have hbranch := branch_of_form hsensefirst hb hfirst
      obtain ⟨groups, hgroups, hbranches⟩ :=
        ih (List.forall_mem_cons.1 hsenserest).2 hbs hsecond hrest
      refine ⟨first.map Prod.fst :: groups, ?_, .cons hbranch hbranches⟩
      rw [List.map_append, List.map_cons]
      exact .bar (ne_pipe_of_form hfirst) (congrArg Prod.fst hbar) hgroups

theorem mapLiterals_unwrap {wrap : List Spec → Spec}
    (hwrap : ∀ ss, (wrap ss).mapLiterals sense = wrap (ss.map (Spec.mapLiterals sense)))
    (ss : List Spec) :
    (unwrap wrap ss).mapLiterals sense = unwrap wrap (ss.map (Spec.mapLiterals sense)) := by
  match ss with
  | [] => exact hwrap []
  | [s] => rfl
  | s :: s' :: ss => exact hwrap (s :: s' :: ss)

theorem mapLiterals_ofBranches (branches : List (List Spec)) :
    (ofBranches branches).mapLiterals sense =
      ofBranches (branches.map (·.map (Spec.mapLiterals sense))) := by
  have hsequence : ∀ ss, (Spec.sequence ss).mapLiterals sense =
      .sequence (ss.map (Spec.mapLiterals sense)) := fun ss => by
    rw [Spec.mapLiterals, Spec.mapLiteralsAll_eq_map]
  have halternation : ∀ ss, (Spec.alternation ss).mapLiterals sense =
      .alternation (ss.map (Spec.mapLiterals sense)) := fun ss => by
    rw [Spec.mapLiterals, Spec.mapLiteralsAll_eq_map]
  rw [ofBranches, mapLiterals_unwrap halternation, ofBranches, List.map_map, List.map_map]
  have hmap : Spec.mapLiterals sense ∘ unwrap .sequence =
      unwrap .sequence ∘ (·.map (Spec.mapLiterals sense)) :=
    funext (mapLiterals_unwrap hsequence)
  rw [hmap]

/-- A text that is read as the words of branches compiles to what the quotes make of these. -/
theorem compileBody_of_words (hquote : Quotes quote sense) {branches : List (List Spec)}
    (hne : branches ≠ []) (hnormal : NormalBranches branches) (hfound : Lexed 0 source found)
    (hform : found.map form = words quote branches) :
    compileBody source = .ok ((ofBranches branches).mapLiterals sense) := by
  obtain ⟨b, bs, rfl⟩ := List.exists_cons_of_ne_nil hne
  have hsense : ∀ l ∈ found, Sensed quote sense source l :=
    fun l hl => hquote.sensed (hfound.text? [] rfl l hl)
  obtain ⟨first, rest, rfl, hfirst, hrest⟩ := List.map_eq_append_iff.1 hform
  obtain ⟨groups, hgroups, hbranches⟩ := exists_groups hsense hnormal hfirst hrest
  rw [mapLiterals_ofBranches]
  exact compileBody_eq_ok_iff.2
    ⟨_, groups, _, lex_eq_ok_iff.2 ⟨_, hfound, rfl⟩, hgroups, hbranches, rfl⟩

/-- Branches that are written compile to what the quotes make of them. -/
theorem compileBody_write (hquote : Quotes quote sense) {branches : List (List Spec)}
    (hne : branches ≠ []) (hnormal : NormalBranches branches) :
    compileBody (write quote branches) = .ok ((ofBranches branches).mapLiterals sense) := by
  obtain ⟨found, hfound, hform⟩ := exists_lexed_spaced (hquote.written_words hnormal)
  exact compileBody_of_words hquote hne hnormal hfound hform

theorem words_ne_nil {branches : List (List Spec)} (hne : branches ≠ [])
    (hnormal : NormalBranches branches) : words quote branches ≠ [] := by
  obtain ⟨b, bs, rfl⟩ := List.exists_cons_of_ne_nil hne
  obtain ⟨a, b, rfl⟩ := List.exists_cons_of_ne_nil (hnormal b List.mem_cons_self).1
  exact List.cons_ne_nil _ _

/-- They also do so behind a space. -/
theorem compileBody_cons_write (hquote : Quotes quote sense) {branches : List (List Spec)}
    (hne : branches ≠ []) (hnormal : NormalBranches branches) :
    compileBody (' ' :: write quote branches) = .ok ((ofBranches branches).mapLiterals sense) := by
  have htexts : (words quote branches).map Prod.snd ≠ [] :=
    fun h => words_ne_nil hne hnormal (List.map_eq_nil_iff.1 h)
  obtain ⟨found, hfound, hform⟩ := exists_lexed_flatMap 0 (hquote.written_words hnormal)
  rw [flatMap_eq_cons_spaced htexts] at hfound
  exact compileBody_of_words hquote hne hnormal hfound hform

end

end Grammar

end Descent
