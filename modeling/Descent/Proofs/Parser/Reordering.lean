import Mathlib.Data.List.Nodup
import Descent.Proofs.Parser.Block

/-! The lines of a block in another order. They compile too, to the same rules in another order, and
because these have different names a name stands for the same rule whichever block is loaded. -/

namespace Descent

open Grammar (Fresh)

namespace Registry

variable {rules rules' : List Rule}

theorem find?_eq_of_perm (hperm : rules.Perm rules') (h : (rules.map (·.name)).Nodup)
    (name : Text) : rules.find? (·.name = name) = rules'.find? (·.name = name) := by
  have h' : (rules'.map (·.name)).Nodup := (hperm.map _).nodup_iff.1 h
  refine Option.ext fun rule => ?_
  rw [find?_eq_some_iff_of_nodup h, find?_eq_some_iff_of_nodup h', hperm.mem_iff]

end Registry

namespace Grammar

variable {sources sources' : List Text} {ds ds' : List Definition}

theorem Fresh.of_perm {taken : List Text} (h : Fresh taken ds)
    (hperm : (ds.map Definition.rule).Perm (ds'.map Definition.rule)) : Fresh taken ds' := by
  have hnames : (ds.map (·.name)).Perm (ds'.map (·.name)) := by
    have hmap := hperm.map Rule.name
    rwa [List.map_map, List.map_map] at hmap
  refine ⟨hnames.nodup_iff.1 h.nodup, fun d hd => ?_⟩
  obtain ⟨d', hd', heq⟩ := List.mem_map.1 (hnames.mem_iff.2 (List.mem_map_of_mem hd))
  exact heq ▸ h.free d' hd'

theorem Entries.rules {line : Nat} (h : Entries line sources ds) :
    ds.map Definition.rule =
      (sources.filterMap entryRule?).map fun content => ⟨content.1, content.2, false⟩ := by
  rw [← h.contents, List.map_map]
  rfl

/-- Entries in another order compile, to the same rules in another order. -/
theorem compileEntries_perm (hperm : sources.Perm sources')
    (h : compileEntries 1 [] sources = .ok ds) :
    ∃ ds', compileEntries 1 [] sources' = .ok ds' ∧
      (ds.map Definition.rule).Perm (ds'.map Definition.rule) := by
  obtain ⟨hentries, hfresh⟩ := compileEntries_eq_ok_iff.1 h
  obtain ⟨ds', hentries'⟩ : ∃ ds', Entries 1 sources' ds' := exists_entries_iff.2
    fun source hsource => exists_entries_iff.1 ⟨ds, hentries⟩ source (hperm.mem_iff.2 hsource)
  have hrules : (ds.map Definition.rule).Perm (ds'.map Definition.rule) := by
    rw [hentries.rules, hentries'.rules]
    exact (hperm.filterMap _).map _
  exact ⟨ds', compileEntries_eq_ok_iff.2 ⟨hentries', hfresh.of_perm hrules⟩, hrules⟩

end Grammar

namespace Parser

variable {p : Parser} {ds ds' : List Definition}

theorem appended_loadCompiled (h : Fresh p.registry.names ds) :
    Appended p (ds.map Definition.rule) (p.loadCompiled (.ok ds)).state := by
  rw [loadCompiled, registerTogether, find?_eq_none_iff.2 h.free]
  exact (registerAll_of_fresh h).2

theorem state_loadCompiled_of_not_fresh (hnodup : (ds.map (·.name)).Nodup)
    (h : ¬Fresh p.registry.names ds) : (p.loadCompiled (.ok ds)).state = p := by
  have hblock : ∀ ds', (Except.ok ds : Except Error _) = .ok ds' → (ds'.map (·.name)).Nodup := by
    rintro _ ⟨⟩
    exact hnodup
  rcases loadCompiled_cases (p := p) hblock with ⟨_, -, hstate⟩ | ⟨_, hds, hfresh, -⟩
  · exact hstate
  · cases hds
    exact absurd hfresh h

/-- Loaded in another order, a block is refused too, or it makes every name stand for the same
rule. -/
theorem lookup?_loadCompiled_perm (hnodup : (ds.map (·.name)).Nodup)
    (hperm : (ds.map Definition.rule).Perm (ds'.map Definition.rule)) (name : Text) :
    (p.loadCompiled (.ok ds)).state.registry.lookup? name =
      (p.loadCompiled (.ok ds')).state.registry.lookup? name := by
  have hnodup' : (ds'.map (·.name)).Nodup :=
    (Fresh.of_perm ⟨hnodup, fun _ _ => List.not_mem_nil⟩ hperm).nodup
  by_cases hfresh : Fresh p.registry.names ds
  · have hrules : ((ds.map Definition.rule).map (·.name)).Nodup := by
      rw [List.map_map]
      exact hnodup
    rw [(appended_loadCompiled hfresh).lookup?, (appended_loadCompiled (hfresh.of_perm hperm)).lookup?,
      Registry.find?_eq_of_perm hperm hrules]
  · rw [state_loadCompiled_of_not_fresh hnodup hfresh,
      state_loadCompiled_of_not_fresh hnodup' fun h => hfresh (h.of_perm hperm.symm)]

theorem lookup?_load_perm {text text' : Text} (hlines : text.lines.Perm text'.lines)
    (hcompile : Grammar.compile text = .ok ds) :
    ∃ ds', Grammar.compile text' = .ok ds' ∧ ∀ (p : Parser) name,
      (p.load text).state.registry.lookup? name = (p.load text').state.registry.lookup? name := by
  obtain ⟨ds', hcompile', hperm⟩ := Grammar.compileEntries_perm hlines hcompile
  refine ⟨ds', hcompile', fun p name => ?_⟩
  rw [load, load, hcompile, Grammar.compile, hcompile']
  exact lookup?_loadCompiled_perm (Grammar.nodup_of_compileEntries hcompile) hperm name

end Parser

end Descent
