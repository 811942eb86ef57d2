import Descent.Proofs.Registry.Lookup
import Descent.Proofs.Registry.Names

/-! Registrations by cases: of a free name, of a taken one that may be replaced, and of a taken one
that may not. What a name stands for afterwards changes for that name alone. -/

namespace Descent.Registry

variable {r : Registry} {name : Text} {place : Nat} {spec : Spec} {options : Registration}

theorem insert_of_notMem (h : name ∉ r.names) (spec : Spec) (options : Registration) :
    r.insert name spec options = .noting (.ruleDefined name)
      (.ok ((r.added ⟨name, spec, options.whitespace⟩ (handle?_eq_none_iff.2 h)).withStart
        (r.startAfter options r.size)) r.size) := by
  unfold insert
  split
  · next hplace => exact absurd (mem_names_of_handle? hplace) h
  · rfl

theorem insert_of_handle? (h : r.handle? name = some place) (spec : Spec)
    (hreplace : options.replace = true) :
    r.insert name spec options = .noting (.ruleRedefined name)
      (.ok ((r.replaced ⟨name, spec, options.whitespace⟩ h).withStart
        (r.startAfter options place)) place) := by
  unfold insert
  split
  · next hplace =>
      cases hplace.symm.trans h
      exact if_pos hreplace
  · next hnone => cases hnone.symm.trans h

theorem insert_of_mem (h : name ∈ r.names) (spec : Spec) (hreplace : options.replace = false) :
    r.insert name spec options = .refused r (.duplicateRule name) := by
  unfold insert
  split
  · exact if_neg (Bool.not_eq_true _ ▸ hreplace)
  · next hnone => exact absurd h (handle?_eq_none_iff.1 hnone)

/-- All that a registration can do. -/
theorem insert_eq_cases (r : Registry) (name : Text) (spec : Spec) (options : Registration) :
    (∃ h : r.handle? name = none, r.insert name spec options = .noting (.ruleDefined name)
      (.ok ((r.added ⟨name, spec, options.whitespace⟩ h).withStart
        (r.startAfter options r.size)) r.size)) ∨
    (∃ place, ∃ h : r.handle? name = some place, options.replace = true ∧
      r.insert name spec options = .noting (.ruleRedefined name)
        (.ok ((r.replaced ⟨name, spec, options.whitespace⟩ h).withStart
          (r.startAfter options place)) place)) ∨
    (name ∈ r.names ∧ options.replace = false ∧
      r.insert name spec options = .refused r (.duplicateRule name)) := by
  rcases Option.eq_none_or_eq_some (r.handle? name) with hplace | ⟨place, hplace⟩
  · exact .inl ⟨hplace, insert_of_notMem (handle?_eq_none_iff.1 hplace) spec options⟩
  · cases hreplace : options.replace with
    | true => exact .inr (.inl ⟨place, hplace, rfl, insert_of_handle? hplace spec hreplace⟩)
    | false =>
        have hname := mem_names_of_handle? hplace
        exact .inr (.inr ⟨hname, rfl, insert_of_mem hname spec hreplace⟩)

theorem lookup?_added {rule : Rule} (h : r.handle? rule.name = none) (start : Option Nat)
    (other : Text) :
    ((r.added rule h).withStart start).lookup? other =
      if other = rule.name then some rule else r.lookup? other := by
  rw [lookup?_eq_find?, lookup?_eq_find?]
  show (r.rules ++ [rule]).find? (·.name = other) = _
  rw [List.find?_append]
  by_cases hother : other = rule.name
  · subst hother
    have hnone : r.rules.find? (·.name = rule.name) = none := by
      rw [← lookup?_eq_find?]
      exact lookup?_eq_none_iff.2 (handle?_eq_none_iff.1 h)
    simp [hnone]
  · simp [hother, Ne.symm hother]

theorem lookup?_replaced {rule : Rule} (h : r.handle? rule.name = some place) (start : Option Nat)
    (other : Text) :
    ((r.replaced rule h).withStart start).lookup? other =
      if other = rule.name then some rule else r.lookup? other := by
  have hplace : place < r.rules.length := lt_size_of_handle? h
  show (r.handle? other).bind (fun handle => (r.rules.set place rule)[handle]?) = _
  by_cases hother : other = rule.name
  · subst hother
    rw [if_pos rfl, h]
    exact List.getElem?_set_self hplace
  · rw [if_neg hother, lookup?]
    cases hfound : r.handle? other with
    | none => rfl
    | some place' =>
        -- Two names never have one place.
        have hne : place ≠ place' := by
          rintro rfl
          have hname := (getElem?_of_handle? hfound).symm.trans (getElem?_of_handle? h)
          exact hother (Option.some.inj hname)
        exact List.getElem?_set_ne hne

/-- A registration that is not refused makes its name stand for the new rule, and it changes no
other name. -/
theorem lookup?_insert (h : name ∉ r.names ∨ options.replace = true) (spec : Spec) (other : Text) :
    (r.insert name spec options).state.lookup? other =
      if other = name then some ⟨name, spec, options.whitespace⟩ else r.lookup? other := by
  rcases r.insert_eq_cases name spec options with
    ⟨hfree, hinsert⟩ | ⟨place, hplace, -, hinsert⟩ | ⟨hname, hreplace, -⟩
  · rw [hinsert]
    exact lookup?_added hfree _ other
  · rw [hinsert]
    exact lookup?_replaced hplace _ other
  · rcases h with h | h
    · exact absurd hname h
    · rw [h] at hreplace
      cases hreplace

/-- A start rule stays, unless another one is asked for. -/
theorem start_insert (h : r.start = some place) (hoptions : options.start = false) (name : Text)
    (spec : Spec) : (r.insert name spec options).state.start = some place := by
  rcases r.insert_cases name spec options with ⟨-, hinsert⟩ | ⟨_, _, _, hinsert, -, hinserted⟩
  · rw [hinsert]
    exact h
  · rw [hinsert]
    refine hinserted.start.trans ?_
    rw [startAfter, hoptions, h]
    rfl

/-- With more rules behind those that are there, and with the same start rule, a request for a rule
to start from is answered by the rule of the same name. -/
theorem entry_of_names_prefix {r' : Registry} {start : Option Text} {rule : Rule}
    (hnames : r.names <+: r'.names) (hstart : ∀ place, r.start = some place → r'.start = some place)
    (h : r.entry start = .ok rule) : ∃ rule', r'.entry start = .ok rule' ∧ rule'.name = rule.name := by
  unfold entry at h
  split at h
  · next name =>
      split at h
      · next hlookup =>
          cases h
          have hname : name ∈ r'.names := by
            rw [← name_of_lookup? hlookup]
            exact hnames.subset (List.mem_map_of_mem (mem_of_lookup? hlookup))
          cases hlookup' : r'.lookup? name with
          | none => exact absurd hname (lookup?_eq_none_iff.1 hlookup')
          | some rule' =>
              exact ⟨rule', entry_of_lookup? hlookup',
                (name_of_lookup? hlookup').trans (name_of_lookup? hlookup).symm⟩
      · cases h
  · split at h
    · next hrule =>
        cases h
        have hplace := r.map_name_start?
        have hplace' := r'.map_name_start?
        rw [hrule, Option.map_some] at hplace
        obtain ⟨place, hfirst, hname⟩ := Option.bind_eq_some_iff.1 hplace.symm
        rw [hstart place hfirst, Option.bind_some, getElem?_mono hnames hname] at hplace'
        obtain ⟨rule', hrule', heq⟩ := Option.map_eq_some_iff.1 hplace'
        refine ⟨rule', ?_, heq⟩
        rw [entry, hrule']
    · cases h

end Descent.Registry
