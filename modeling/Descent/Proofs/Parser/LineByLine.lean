import Descent.Proofs.Grammar.Width
import Descent.Proofs.Parser.Block

/-! Blocks line by line. Loading a block does what defining its rules one after the other would do,
if none of these is refused; the lexemes of a whole line and those of a body by itself come out the
same, and so do the two checks for names that are taken. A body has fewer bytes than its line, so
there are bodies within 32 bits on lines that are not. -/

namespace Descent

open Grammar (Entries Fits compileRule isBlankEntry isRuleName compileBody compileBody? longRule
  longWord)
open Text (size)

namespace Change

variable {σ τ α β : Type}

/-- The state and the answer of an operation, unless it answers with an error. -/
def success? (x : Change σ α) : Option (σ × α) :=
  match x.result with
  | .ok a => some (x.state, a)
  | .error _ => none

theorem success?_eq_some_iff {x : Change σ α} {state : σ} {a : α} :
    x.success? = some (state, a) ↔ x.result = .ok a ∧ x.state = state := by
  obtain ⟨log, state', err | a'⟩ := x
  · exact iff_of_false nofun nofun
  · simp [success?, and_comm]

theorem success?_andThen (x : Change σ α) (f : α → σ → Change σ β) :
    (x.andThen f).success? = x.success?.bind fun (state, a) => (f a state).success? := by
  obtain ⟨log, state, err | a⟩ := x
  · rfl
  · rfl

theorem success?_map (f : α → β) (x : Change σ α) :
    (x.map f).success? = x.success?.map fun (state, a) => (state, f a) := by
  obtain ⟨log, state, err | a⟩ := x
  · rfl
  · rfl

end Change

namespace Parser

/-- Defines the rule of a line, which is cut at its first separator. -/
def defineLine (p : Parser) (line : Text) : Option (Parser × Nat) :=
  (Text.separated? line).bind fun (name, body) =>
    (p.define? (Text.trimAscii name) body {}).bind Change.success?

/-- Defines the rules of lines one after the other, as long as none is refused. -/
def defineLines (p : Parser) : List Text → Option (Parser × List Nat)
  | [] => some (p, [])
  | line :: lines =>
      if isBlankEntry line then p.defineLines lines
      else
        (p.defineLine line).bind fun (q, handle) =>
          (q.defineLines lines).map fun (q', handles) => (q', handle :: handles)

variable {p : Parser}

theorem define?_eq_some_iff {name body : Text} {options : Registration} {a : Parser × Nat} :
    (p.define? name body options).bind Change.success? = some a ↔
      isRuleName name = true ∧ ∃ spec, compileBody? body = some (.ok spec) ∧
        (p.register name spec options).success? = some a := by
  unfold define?
  by_cases hname : isRuleName name = true
  · rw [if_pos hname, and_iff_right hname]
    rcases compileBody? body with _ | cause | spec
    · exact iff_of_false nofun nofun
    · exact iff_of_false nofun nofun
    · simp [registerCompiled]
  · rw [if_neg hname]
    exact iff_of_false nofun fun h => hname h.1

theorem success?_registerAll_cons (p : Parser) (d : Definition) (ds : List Definition) :
    (p.registerAll (d :: ds)).success? =
      (p.register d.name d.spec {}).success?.bind fun (q, handle) =>
        (q.registerAll ds).success?.map fun (q', handles) => (q', handle :: handles) := by
  rw [registerAll, Change.success?_andThen]
  exact congrArg _ (funext fun _ => Change.success?_map _ _)

/-- The rule of a line is defined if the line compiles, and its name is free. -/
theorem defineLine_eq_some_iff {line : Text} (h : size line < Cursor.limit) {a : Parser × Nat} :
    p.defineLine line = some a ↔ ∃ name spec, compileRule line = .ok (name, spec) ∧
      (p.register name spec {}).success? = some a := by
  constructor
  · intro hline
    obtain ⟨⟨before, after⟩, hbefore, hdefine⟩ := Option.bind_eq_some_iff.1 hline
    obtain ⟨hname, spec, hspec, hregister⟩ := define?_eq_some_iff.1 hdefine
    have hbody := (Grammar.compileBody?_eq_ok_iff.1 hspec).2
    exact ⟨_, spec, Grammar.compileRule_eq_ok_iff.2 ⟨hname, before, after, hbefore, rfl, hbody⟩,
      hregister⟩
  · rintro ⟨_, spec, hrule, hregister⟩
    obtain ⟨hname, before, after, hbefore, rfl, hbody⟩ := Grammar.compileRule_eq_ok_iff.1 hrule
    have hafter : size after < Cursor.limit := by
      rw [Text.eq_of_separated? hbefore, Text.size_append, size, size] at h
      omega
    have hspec := Grammar.compileBody?_eq_ok_iff.2 ⟨hafter, hbody⟩
    exact Option.bind_eq_some_iff.2
      ⟨(before, after), hbefore, define?_eq_some_iff.2 ⟨hname, spec, hspec, hregister⟩⟩

/-- Lines are defined one after the other if all of them compile by themselves, and what they
compile to can be registered one after the other. -/
theorem defineLines_eq_some_iff {lines : List Text} (number : Nat)
    (h : ∀ line ∈ lines, isBlankEntry line = false → size line < Cursor.limit)
    {a : Parser × List Nat} :
    p.defineLines lines = some a ↔
      ∃ ds, Entries number lines ds ∧ (p.registerAll ds).success? = some a := by
  induction lines generalizing p number a with
  | nil =>
      constructor
      · exact fun h => ⟨[], .nil, h⟩
      · rintro ⟨ds, hds, h⟩
        cases hds
        exact h
  | cons line lines ih =>
      obtain ⟨hsize, hsizes⟩ := List.forall_mem_cons.1 h
      rw [defineLines]
      cases hblank : isBlankEntry line with
      | true =>
          rw [if_pos rfl, ih (number + 1) hsizes]
          exact exists_congr fun ds => and_congr_left' (Grammar.entries_cons_of_blank hblank).symm
      | false =>
          rw [if_neg Bool.false_ne_true]
          have hline? := @defineLine_eq_some_iff p line (hsize hblank)
          -- Both ways do the first line and then the others, from the parser that it left.
          constructor
          · intro h
            obtain ⟨⟨q, handle⟩, hline, h⟩ := Option.bind_eq_some_iff.1 h
            obtain ⟨⟨q', handles⟩, hlines, heq⟩ := Option.map_eq_some_iff.1 h
            cases heq
            obtain ⟨name, spec, hrule, hregister⟩ := hline?.1 hline
            obtain ⟨ds, hds, hall⟩ := (ih (number + 1) hsizes).1 hlines
            refine ⟨⟨name, spec, number⟩ :: ds, .rule hblank hrule hds, ?_⟩
            rw [success?_registerAll_cons, hregister, Option.bind_some]
            dsimp only
            rw [hall]
            rfl
          · rintro ⟨_, hentries, hall⟩
            obtain ⟨name, spec, ds, hrule, hds, rfl⟩ :=
              (Grammar.entries_cons_of_rule hblank).1 hentries
            rw [success?_registerAll_cons] at hall
            obtain ⟨⟨q, handle⟩, hregister, hall⟩ := Option.bind_eq_some_iff.1 hall
            obtain ⟨⟨q', handles⟩, hrest, heq⟩ := Option.map_eq_some_iff.1 hall
            cases heq
            rw [hline?.2 ⟨name, spec, hrule, hregister⟩, Option.bind_some]
            dsimp only
            rw [(ih (number + 1) hsizes).2 ⟨ds, hds, hrest⟩]
            rfl

/-- A block is loaded if all its lines compile by themselves, and what they compile to can be
registered one after the other. -/
theorem load_eq_some_iff {text : Text} {a : Parser × List Nat} :
    (p.load text).success? = some a ↔
      ∃ ds, Entries 1 text.lines ds ∧ (p.registerAll ds).success? = some a := by
  constructor
  · intro h
    rw [load] at h
    have hnodup : ∀ ds, Grammar.compile text = .ok ds → (ds.map (·.name)).Nodup :=
      fun _ => Grammar.nodup_of_compileEntries
    rcases loadCompiled_cases (p := p) hnodup with ⟨err, herr, -⟩ | ⟨ds, hds, -, hresult, hstate⟩
    · rw [(Change.success?_eq_some_iff.1 h).1] at herr
      cases herr
    · refine ⟨ds, (Grammar.compileEntries_eq_ok_iff.1 hds).1, ?_⟩
      rw [← h, Change.success?, Change.success?, hresult, hstate]
  · rintro ⟨ds, hds, hall⟩
    obtain ⟨hresult, hstate⟩ := Change.success?_eq_some_iff.1 hall
    have hfresh := fresh_of_registerAll hresult
    have hcompile : Grammar.compile text = .ok ds :=
      Grammar.compileEntries_eq_ok_iff.2 ⟨hds, hfresh.nodup, fun _ _ => List.not_mem_nil⟩
    rw [load, hcompile, loadCompiled, registerTogether, find?_eq_none_iff.2 hfresh.free]
    exact hall

/-- A block is loaded within 32 bits if it is loaded and its lines are short enough. -/
theorem load?_eq_some_iff {text : Text} {a : Parser × List Nat} :
    (p.load? text).bind Change.success? = some a ↔ (p.load text).success? = some a ∧
      ∀ line ∈ text.lines, isBlankEntry line = false → size line < Cursor.limit := by
  constructor
  · intro h
    obtain ⟨x, hx, hsuccess⟩ := Option.bind_eq_some_iff.1 h
    obtain ⟨block, hblock, rfl⟩ := Option.map_eq_some_iff.1 hx
    cases block with
    | error err => cases hsuccess
    | ok ds =>
        obtain ⟨hcompile, hsizes⟩ := Grammar.compileEntries?_eq_ok_iff.1 hblock
        rw [load, Grammar.compile, hcompile]
        exact ⟨hsuccess, hsizes⟩
  · rintro ⟨h, hsizes⟩
    have hfits : ∀ line ∈ text.lines, isBlankEntry line = false → Fits line :=
      fun line hline hblank => Grammar.fits_of_size_lt (hsizes line hline hblank)
    rw [load?, Grammar.compile?, Grammar.compileEntries?_of_fits hfits]
    exact h

/-- A block of one rule is registered, or refused, as the rule is. -/
theorem registerTogether_singleton (p : Parser) (d : Definition) :
    (p.registerTogether [d]).result = (p.register d.name d.spec {}).result.map ([·]) := by
  by_cases hname : p.registry.contains d.name = true
  · have hfind : [d].find? (p.registry.contains ·.name) = some d := List.find?_cons_of_pos hname
    rw [registerTogether, hfind, register_of_mem (Registry.contains_iff.1 hname) d.spec rfl]
    rfl
  · have hfind : [d].find? (p.registry.contains ·.name) = none := List.find?_cons_of_neg hname
    rw [registerTogether, hfind]
    dsimp only [registerAll]
    rcases p.register d.name d.spec {} with ⟨log, q, err | handle⟩
    · rfl
    · rfl

end Parser

theorem Text.lines_of_notMem {s : Text} (hfeed : '\n' ∉ s) (hne : s ≠ []) : s.lines = [s] := by
  induction s using lines.induct with
  | case1 => exact absurd rfl hne
  | case2 s => exact absurd List.mem_cons_self hfeed
  | case3 s => exact absurd (List.mem_cons_of_mem _ List.mem_cons_self) hfeed
  | case4 c s hc hc' ih =>
      rw [lines]
      · cases s with
        | nil => rfl
        | cons d s =>
            rw [ih (fun hmem => hfeed (List.mem_cons_of_mem _ hmem)) (List.cons_ne_nil _ _)]
            rfl
      · exact hc
      · exact hc'

namespace Parser

section

/- A block of one line, with a name and a body. -/
variable {name body : Text} (hname : isRuleName name = true) (hbody : '\n' ∉ body)
include hname hbody

theorem lines_singleton :
    (name ++ [':', '='] ++ body).lines = [name ++ [':', '='] ++ body] := by
  obtain ⟨-, hword⟩ := Grammar.word_of_isRuleName hname
  refine Text.lines_of_notMem ?_ (by simp)
  rw [List.mem_append, List.mem_append]
  rintro ((hmem | hmem) | hmem)
  · rw [Text.forall_mem_bytes_iff Lexeme.isAscii_isWord] at hword
    exact absurd (hword _ hmem) (by decide)
  · exact absurd hmem (by decide)
  · exact hbody hmem

/-- The block is loaded, or refused, as the definition of its rule is. -/
theorem load_singleton (p : Parser) :
    (p.load (name ++ [':', '='] ++ body)).result = (p.define name body {}).result.map ([·]) := by
  rw [load, Grammar.compile, lines_singleton hname hbody, Grammar.compileEntries,
    Grammar.isBlankEntry_append_separator, if_neg Bool.false_ne_true,
    (Grammar.head_self name).compileRule_append hname, define, if_pos hname]
  cases compileBody body with
  | error cause => rfl
  | ok spec => exact registerTogether_singleton p ⟨name, spec, 1⟩

/-- The block has an answer if and only if its line is within 32 bits. -/
theorem compile?_singleton :
    Grammar.compile? (name ++ [':', '='] ++ body) =
      if Fits (name ++ [':', '='] ++ body) then some (Grammar.compile (name ++ [':', '='] ++ body))
      else none := by
  rw [Grammar.compile?, Grammar.compile, lines_singleton hname hbody]
  by_cases hfits : Fits (name ++ [':', '='] ++ body)
  · rw [if_pos hfits]
    exact Grammar.compileEntries?_of_fits (List.forall_mem_singleton.2 fun _ => hfits)
  · rw [Grammar.compileEntries?, Grammar.isBlankEntry_append_separator,
      if_neg Bool.false_ne_true, Grammar.compileRule?_eq, if_neg hfits, if_neg hfits]
    exact Option.bind_none _

theorem load?_singleton_eq_some_iff (p : Parser) {x : Change Parser (List Nat)} :
    p.load? (name ++ [':', '='] ++ body) = some x ↔
      Fits (name ++ [':', '='] ++ body) ∧ p.load (name ++ [':', '='] ++ body) = x := by
  rw [load?, compile?_singleton hname hbody, apply_ite (Option.map p.loadCompiled)]
  exact Option.ite_none_right_eq_some.trans (and_congr_right' Option.some_inj)

end

/-- The rule of a long line is defined if its body is within 32 bits. -/
theorem defineLines_longRule {n : Nat} (h : 0 < n) (hlimit : n < Cursor.limit) :
    ∃ q, ({} : Parser).defineLines (longRule n).lines = some (q, [0]) := by
  have hlines : (longRule n).lines = [longRule n] :=
    lines_singleton (by decide) (Grammar.notMem_longWord n)
  have hcut : Text.separated? (longRule n) = some (['a'], longWord n) :=
    @Text.separated?_append ['a'] (List.forall_mem_singleton.2 (by decide)) (longWord n)
  have hname : isRuleName (Text.trimAscii ['a']) = true := by decide
  rw [hlines, defineLines, Grammar.isBlankEntry_longRule, if_neg Bool.false_ne_true, defineLine,
    hcut, Option.bind_some]
  dsimp only
  rw [define?, if_pos hname, Grammar.compileBody?_longWord h hlimit]
  exact ⟨_, rfl⟩

theorem load?_longRule_eq_none (p : Parser) {n : Nat} (h : 0 < n) (hlimit : Cursor.limit ≤ 3 + n) :
    p.load? (longRule n) = none := by
  have hnone : ¬Fits (longRule n) := fun hfits =>
    Nat.not_lt.2 hlimit ((Grammar.fits_longRule_iff h).1 hfits)
  refine Option.eq_none_iff_forall_ne_some.2 fun x hx => hnone ?_
  have hname : isRuleName ['a'] = true := by decide
  exact ((load?_singleton_eq_some_iff hname (Grammar.notMem_longWord n) p).1 hx).1

end Parser

end Descent
