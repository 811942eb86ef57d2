import Descent.Grammar.Block
import Descent.Proofs.Grammar.Shape

/-! Blocks as entries. A block compiles if and only if every entry that is not blank compiles by
itself and no two of them define the same name; its definitions stand in the order of the
entries. -/

namespace Descent.Grammar

/-- Definitions of different names, none of which is taken. -/
structure Fresh (taken : List Text) (ds : List Definition) : Prop where
  nodup : (ds.map (·.name)).Nodup
  free : ∀ d ∈ ds, d.name ∉ taken

theorem fresh_nil (taken : List Text) : Fresh taken [] := ⟨List.nodup_nil, nofun⟩

theorem fresh_cons_iff {taken : List Text} {d : Definition} {ds : List Definition} :
    Fresh taken (d :: ds) ↔ d.name ∉ taken ∧ Fresh (d.name :: taken) ds := by
  constructor
  · rintro ⟨hnodup, hfree⟩
    obtain ⟨hd, hds⟩ := List.forall_mem_cons.1 hfree
    obtain ⟨hname, hnodup⟩ := List.nodup_cons.1 hnodup
    refine ⟨hd, hnodup, fun d' hd' => List.not_mem_cons_of_ne_of_not_mem ?_ (hds d' hd')⟩
    intro heq
    exact hname (List.mem_map.2 ⟨d', hd', heq⟩)
  · rintro ⟨hd, hnodup, hfree⟩
    refine ⟨List.nodup_cons.2 ⟨?_, hnodup⟩, List.forall_mem_cons.2 ⟨hd, ?_⟩⟩
    · intro hname
      obtain ⟨d', hd', heq⟩ := List.mem_map.1 hname
      exact hfree d' hd' (heq ▸ List.mem_cons_self)
    · exact fun d' hd' hname => hfree d' hd' (List.mem_cons_of_mem _ hname)

theorem fresh_congr {taken taken' : List Text} (h : ∀ name, name ∈ taken ↔ name ∈ taken')
    (ds : List Definition) : Fresh taken ds ↔ Fresh taken' ds := by
  have hfree : (∀ d ∈ ds, d.name ∉ taken) ↔ ∀ d ∈ ds, d.name ∉ taken' :=
    forall₂_congr fun d _ => not_congr (h d.name)
  exact ⟨fun hds => ⟨hds.nodup, hfree.1 hds.free⟩, fun hds => ⟨hds.nodup, hfree.2 hds.free⟩⟩

/-- The definitions of entries from number `line` on: an entry that is not blank is the definition
that it compiles to. -/
inductive Entries : Nat → List Text → List Definition → Prop
  | nil {line : Nat} : Entries line [] []
  | blank {line : Nat} {source : Text} {sources : List Text} {ds : List Definition} :
      isBlankEntry source = true → Entries (line + 1) sources ds →
      Entries line (source :: sources) ds
  | rule {line : Nat} {source name : Text} {sources : List Text} {spec : Spec}
      {ds : List Definition} : isBlankEntry source = false →
      compileRule source = .ok (name, spec) → Entries (line + 1) sources ds →
      Entries line (source :: sources) (⟨name, spec, line⟩ :: ds)

variable {line : Nat} {seen : List Text} {source : Text} {sources : List Text}
variable {ds : List Definition}

theorem entries_cons_of_blank (h : isBlankEntry source = true) :
    Entries line (source :: sources) ds ↔ Entries (line + 1) sources ds := by
  constructor
  · rintro (_ | ⟨-, hds⟩ | ⟨hrule, -, -⟩)
    · exact hds
    · rw [h] at hrule
      cases hrule
  · exact .blank h

theorem entries_cons_of_rule (h : isBlankEntry source = false) :
    Entries line (source :: sources) ds ↔
      ∃ name spec rest, compileRule source = .ok (name, spec) ∧ Entries (line + 1) sources rest ∧
        ds = ⟨name, spec, line⟩ :: rest := by
  constructor
  · rintro (_ | ⟨hblank, -⟩ | ⟨-, hrule, hrest⟩)
    · rw [h] at hblank
      cases hblank
    · exact ⟨_, _, _, hrule, hrest, rfl⟩
  · rintro ⟨name, spec, rest, hrule, hrest, rfl⟩
    exact .rule h hrule hrest

/-- What an entry that is not blank compiles to, if it compiles. -/
def entryRule? (source : Text) : Option (Text × Spec) :=
  if isBlankEntry source then none else (compileRule source).toOption

/-- What definitions say, wherever their entries stand. -/
theorem Entries.contents (h : Entries line sources ds) :
    ds.map (fun d => (d.name, d.spec)) = sources.filterMap entryRule? := by
  induction h with
  | nil => rfl
  | blank hblank _ ih =>
      rw [ih, List.filterMap_cons_none]
      rw [entryRule?, if_pos hblank]
  | rule hblank hrule _ ih =>
      rw [List.map_cons, ih, List.filterMap_cons_some]
      rw [entryRule?, hblank, if_neg Bool.false_ne_true, hrule]
      rfl

/-- Entries have definitions if each entry is blank or compiles by itself. -/
theorem exists_entries_iff : (∃ ds, Entries line sources ds) ↔
    ∀ source ∈ sources, isBlankEntry source = true ∨
      ∃ name spec, compileRule source = .ok (name, spec) := by
  induction sources generalizing line with
  | nil => exact iff_of_true ⟨[], .nil⟩ nofun
  | cons source sources ih =>
      rw [List.forall_mem_cons, ← @ih (line + 1)]
      cases hblank : isBlankEntry source with
      | true =>
          rw [and_iff_right (Or.inl rfl)]
          exact exists_congr fun ds => entries_cons_of_blank hblank
      | false =>
          simp only [entries_cons_of_rule hblank, Bool.false_eq_true, false_or]
          constructor
          · rintro ⟨_, name, spec, rest, hrule, hrest, -⟩
            exact ⟨⟨name, spec, hrule⟩, rest, hrest⟩
          · rintro ⟨⟨name, spec, hrule⟩, rest, hrest⟩
            exact ⟨_, name, spec, rest, hrule, hrest, rfl⟩

theorem compileEntries_eq_ok_iff :
    compileEntries line seen sources = .ok ds ↔ Entries line sources ds ∧ Fresh seen ds := by
  induction sources generalizing line seen ds with
  | nil =>
      constructor
      · intro h
        cases h
        exact ⟨.nil, fresh_nil seen⟩
      · rintro ⟨h, -⟩
        cases h
        rfl
  | cons source sources ih =>
      rw [compileEntries]
      cases hblank : isBlankEntry source with
      | true => rw [if_pos rfl, ih, entries_cons_of_blank hblank]
      | false =>
          rw [if_neg Bool.false_ne_true, entries_cons_of_rule hblank]
          cases hrule : compileRule source with
          | error cause => simp
          | ok rule =>
              obtain ⟨name, spec⟩ := rule
              dsimp only
              by_cases hseen : seen.contains name = true
              · rw [if_pos hseen]
                refine iff_of_false nofun ?_
                rintro ⟨⟨_, _, rest, hrule', -, rfl⟩, hfresh⟩
                cases hrule'
                exact (fresh_cons_iff.1 hfresh).1 (List.contains_iff_mem.1 hseen)
              · rw [if_neg hseen, Except.bind_eq_ok_iff]
                simp only [ih]
                constructor
                · rintro ⟨rest, ⟨hrest, hfresh⟩, hds⟩
                  cases hds
                  have hname : name ∉ seen := fun h => hseen (List.contains_iff_mem.2 h)
                  exact ⟨⟨name, spec, rest, rfl, hrest, rfl⟩, fresh_cons_iff.2 ⟨hname, hfresh⟩⟩
                · rintro ⟨⟨_, _, rest, hrule', hrest, rfl⟩, hfresh⟩
                  cases hrule'
                  exact ⟨rest, ⟨hrest, (fresh_cons_iff.1 hfresh).2⟩, rfl⟩

end Descent.Grammar
