import Mathlib.Data.List.Nodup
import Descent.Registry

/-! Which rule a name stands for, and which rule a parse starts from. -/

namespace Descent.Registry

variable {r : Registry} {name : Text} {rule : Rule}

theorem mem_of_lookup? (h : r.lookup? name = some rule) : rule ∈ r.rules := by
  rw [lookup?_eq_find?] at h
  exact List.mem_of_find?_eq_some h

theorem lookup?_eq_none_iff : r.lookup? name = none ↔ name ∉ r.rules.map (·.name) := by
  rw [lookup?_eq_find?, List.find?_eq_none, List.mem_map]
  constructor
  · rintro h ⟨rule, hr, hn⟩
    exact h rule hr (decide_eq_true hn)
  · intro h rule hr hn
    exact h ⟨rule, hr, of_decide_eq_true hn⟩

theorem find?_eq_some_iff_of_nodup {rules : List Rule} (h : (rules.map (·.name)).Nodup) :
    rules.find? (·.name = name) = some rule ↔ rule ∈ rules ∧ rule.name = name := by
  constructor
  · intro hfind
    exact ⟨List.mem_of_find?_eq_some hfind, by simpa using List.find?_some hfind⟩
  · rintro ⟨hrule, rfl⟩
    cases hfind : rules.find? (·.name = rule.name) with
    | none => exact absurd (decide_eq_true rfl) (List.find?_eq_none.1 hfind rule hrule)
    | some found =>
        have hfound := List.mem_of_find?_eq_some hfind
        have hname : found.name = rule.name := by simpa using List.find?_some hfind
        exact congrArg some (List.inj_on_of_nodup_map h hfound hrule hname)

/-- Where no two rules share a name, each is the one that its name stands for. -/
theorem lookup?_of_mem (h : (r.rules.map (·.name)).Nodup) (hrule : rule ∈ r.rules) :
    r.lookup? rule.name = some rule := by
  rw [lookup?_eq_find?]
  exact (find?_eq_some_iff_of_nodup h).2 ⟨hrule, rfl⟩

theorem entry_of_lookup? (h : r.lookup? name = some rule) : r.entry (some name) = .ok rule := by
  rw [entry, h]

theorem mem_of_entry {start : Option Text} (h : r.entry start = .ok rule) : rule ∈ r.rules := by
  unfold entry at h
  split at h
  · split at h
    · next hl =>
        cases h
        exact mem_of_lookup? hl
    · cases h
  · split at h
    · next hs =>
        cases h
        obtain ⟨handle, -, hget⟩ := Option.bind_eq_some_iff.1 hs
        exact List.mem_of_getElem? hget
    · cases h

theorem error_of_entry {start : Option Text} {err : Error} (h : r.entry start = .error err) :
    err = .noEntryPoint ∨ ∃ other, err = .unknownEntryPoint other := by
  unfold entry at h
  split at h
  · split at h
    · cases h
    · cases h
      exact .inr ⟨_, rfl⟩
  · split at h
    · cases h
    · cases h
      exact .inl rfl

end Descent.Registry
