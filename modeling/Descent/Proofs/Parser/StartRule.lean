import Mathlib
import Descent.Proofs.Parser.Requests

/-! The start rule that the settings ask for. It is the start rule from the first registration of
its name on, in whatever order requests are made, except that loading the character rules puts the
start rule back to what it was, also when one of them has the name. -/

namespace Descent

namespace Parser

/-- The requested rule starts if its name is among those registered so far. If not, no rule of that
name starts, and only a character rule can have it. -/
structure Tracks (name : Text) (seen : List Text) (p : Parser) : Prop where
  requested : p.requestedStart = some name
  started : name ∈ seen → ∃ place, p.registry.handle? name = some place ∧
    p.registry.start = some place
  other : name ∉ seen → ∀ place, p.registry.start = some place →
    ∃ rule, rule ≠ name ∧ p.registry.names[place]? = some rule
  character : name ∉ seen → name ∈ p.registry.names → name ∈ CharacterRule.all.map Prod.fst

variable {name : Text} {seen : List Text} {p : Parser}

theorem tracks_ofSettings {s : Settings} (h : s.start = some name) : Tracks name [] (ofSettings s) :=
  ⟨h, nofun, fun _ _ => nofun, fun _ => nofun⟩

/-- More names and the same start rule keep what is tracked, if the names are character rules. -/
theorem Tracks.filled {q : Parser} (h : Tracks name seen p)
    (hfilled : Filled p (CharacterRule.all.map Prod.fst) q)
    (hstart : q.registry.start = p.registry.start) : Tracks name seen q where
  requested := hfilled.requested.trans h.requested
  started hname := by
    obtain ⟨place, hplace, hp⟩ := h.started hname
    exact ⟨place, Registry.handle?_mono hfilled.grows hplace, hstart.trans hp⟩
  other hname place hplace := by
    obtain ⟨rule, hne, hrule⟩ := h.other hname place (hstart.symm.trans hplace)
    exact ⟨rule, hne, Registry.getElem?_mono hfilled.grows hrule⟩
  character hname hmem := (hfilled.mem name hmem).elim (h.character hname) id

/-- Registering the requested name makes its rule the start rule. -/
theorem Tracks.inserted_self {options : Registration} {place : Nat} {r' : Registry}
    (h : Tracks name seen p)
    (hinserted : Registry.Inserted p.registry name { options with start := true } place r') :
    Tracks name (seen ++ [name]) { p with registry := r' } where
  requested := h.requested
  started _ := ⟨place, hinserted.handle, hinserted.start⟩
  other hname := absurd (List.mem_append_right _ List.mem_cons_self) hname
  character hname := absurd (List.mem_append_right _ List.mem_cons_self) hname

/-- Registering another name keeps the start rule, or makes the first rule start. -/
theorem Tracks.inserted_other {other : Text} {options : Registration} {place : Nat} {r' : Registry}
    (h : Tracks name seen p) (hne : other ≠ name) (hstart : options.start = false)
    (hinserted : Registry.Inserted p.registry other options place r') :
    Tracks name (seen ++ [other]) { p with registry := r' } := by
  have hseen : name ∈ seen ++ [other] ↔ name ∈ seen := by
    rw [List.mem_append, List.mem_singleton, or_iff_left hne.symm]
  have hkept : ∀ first, p.registry.start = some first → r'.start = some first := by
    intro first hfirst
    rw [hinserted.start, Registry.startAfter, hstart, hfirst]
    rfl
  refine ⟨h.requested, fun hname => ?_, fun hname first hfirst => ?_, fun hname hmem => ?_⟩
  · obtain ⟨first, hfirst, hp⟩ := h.started (hseen.1 hname)
    exact ⟨first, Registry.handle?_mono hinserted.grows hfirst, hkept first hp⟩
  · cases hp : p.registry.start with
    | some first' =>
        obtain rfl : first' = first := Option.some.inj ((hkept first' hp).symm.trans hfirst)
        obtain ⟨rule, hrule, hplace⟩ := h.other (mt hseen.2 hname) first' hp
        exact ⟨rule, hrule, Registry.getElem?_mono hinserted.grows hplace⟩
    | none =>
        -- The first rule of all starts; its name is the one that was registered.
        have hfirst' : r'.start = some place := by
          rw [hinserted.start, Registry.startAfter, hp]
          exact if_pos (Bool.or_true _)
        obtain rfl : place = first := Option.some.inj (hfirst'.symm.trans hfirst)
        exact ⟨other, hne, Registry.getElem?_of_handle? hinserted.handle⟩
  · rcases hinserted.mem name hmem with hmem | rfl
    · exact h.character (mt hseen.2 hname) hmem
    · exact absurd rfl hne

/-- The names that a change registers are tracked with those before them. -/
def Follows {α : Type} (name : Text) (seen : List Text) (x : Change Parser α) : Prop :=
  Tracks name (seen ++ registeredNames x.log) x.state

/-- An operation that writes no log and leaves the parser as it was. -/
theorem Tracks.unlogged {α : Type} (h : Tracks name seen p) (result : Except Error α) :
    Follows name seen ⟨[], p, result⟩ := by
  rw [Follows]
  exact (List.append_nil seen).symm ▸ h

theorem Follows.andThen {α β : Type} {x : Change Parser α} {f : α → Parser → Change Parser β}
    (hx : Follows name seen x)
    (hf : ∀ a p seen, Tracks name seen p → Follows name seen (f a p)) :
    Follows name seen (x.andThen f) := by
  unfold Change.andThen
  split
  · exact hx
  · next a _ =>
      have hfollow := hf a x.state _ hx
      rw [Follows, List.append_assoc, ← registeredNames_append] at hfollow
      exact hfollow

theorem Tracks.register {other : Text} {spec : Spec} {options : Registration}
    (h : Tracks name seen p) (hstart : options.start = false) :
    Follows name seen (p.register other spec options) := by
  rcases p.register_cases other spec options with
    ⟨-, hrefused⟩ | ⟨record, place, r', hdone, hrecord, hinserted⟩
  · rw [hrefused]
    exact h.unlogged _
  · have hlog : registeredNames (record :: []) = [other] := by
      rcases hrecord with rfl | rfl
      · rfl
      · rfl
    rw [hdone]
    show Tracks name (seen ++ registeredNames (record :: [])) { p with registry := r' }
    rw [hlog]
    rw [h.requested] at hinserted
    by_cases hother : other = name
    · subst hother
      rw [if_pos rfl] at hinserted
      exact h.inserted_self hinserted
    · rw [if_neg fun heq => hother (Option.some.inj heq).symm] at hinserted
      exact h.inserted_other hother hstart hinserted

theorem Tracks.registerAll {ds : List Definition} (h : Tracks name seen p) :
    Follows name seen (p.registerAll ds) := by
  induction ds generalizing p seen with
  | nil => exact h.unlogged _
  | cons d ds ih =>
      exact (h.register rfl).andThen fun _ _ _ h => ih h

theorem Tracks.loadCompiled {block : Except Error (List Definition)} (h : Tracks name seen p) :
    Follows name seen (p.loadCompiled block) := by
  cases block with
  | error e => exact h.unlogged _
  | ok ds =>
      show Follows name seen (p.registerTogether ds)
      unfold registerTogether
      split
      · exact h.unlogged _
      · exact h.registerAll

theorem Tracks.define {other body : Text} {options : Registration}
    (h : Tracks name seen p) (hstart : options.start = false) :
    Follows name seen (p.define other body options) := by
  unfold Parser.define
  split
  · cases Grammar.compileBody body with
    | ok spec => exact h.register hstart
    | error cause => exact h.unlogged _
  · exact h.unlogged _

end Parser

namespace Request

open Descent.Parser (Tracks)

variable {name : Text} {seen : List Text} {p : Parser}

/-- One request that does not itself ask for a start rule. -/
theorem tracks_perform {request : Request} (h : Tracks name seen p)
    (hplain : request.asksStart = false) :
    Tracks name (seen ++ request.registersApart p) (request.perform p).state := by
  cases request with
  | define other body options => exact h.define hplain
  | register other spec options => exact h.register hplain
  | registerMatcher other matcher options => exact h.register hplain
  | load text => exact h.loadCompiled
  | loadDelimited text delimiter => exact h.loadCompiled
  | loadCharacterRules options =>
      obtain ⟨hfilled, hstart⟩ := p.loadCharacterRules_filled hplain
      rw [registersApart, List.append_nil]
      exact h.filled hfilled hstart
  | startFrom other => cases hplain

theorem tracks_performAll {requests : List Request} (h : Tracks name seen p)
    (hplain : ∀ request ∈ requests, request.asksStart = false) :
    Tracks name (seen ++ registeredApart p requests) (performAll p requests) := by
  induction requests generalizing p seen with
  | nil =>
      rw [registeredApart, List.append_nil]
      exact h
  | cons request requests ih =>
      obtain ⟨hrequest, hrequests⟩ := List.forall_mem_cons.1 hplain
      rw [registeredApart, ← List.append_assoc]
      exact ih (tracks_perform h hrequest) hrequests

end Request

namespace Parser

variable {name : Text} {seen : List Text} {p : Parser}

theorem Tracks.start?_eq_lookup? (h : Tracks name seen p) (hname : name ∈ seen) :
    p.registry.start? = p.registry.lookup? name := by
  obtain ⟨place, hplace, hstart⟩ := h.started hname
  rw [Registry.start?, Registry.lookup?, hplace, hstart]

theorem Tracks.name_start?_iff (h : Tracks name seen p) :
    p.registry.start?.map (·.name) = some name ↔ name ∈ seen := by
  rw [Registry.map_name_start?]
  constructor
  · intro hstart
    obtain ⟨place, hplace, hrule⟩ := Option.bind_eq_some_iff.1 hstart
    refine Classical.byContradiction fun hname => ?_
    obtain ⟨rule, hne, hother⟩ := h.other hname place hplace
    exact hne (Option.some.inj (hother.symm.trans hrule))
  · intro hname
    obtain ⟨place, hplace, hstart⟩ := h.started hname
    rw [hstart]
    exact Registry.getElem?_of_handle? hplace

/-- Parsing without a name starts from the rule of the name. -/
theorem Tracks.parse_eq (h : Tracks name seen p) (hname : name ∈ seen) (input : Text)
    (mayLeaveRest : Bool) :
    p.parse input { mayLeaveRest } = p.parse input { start := some name, mayLeaveRest } := by
  have hsome : (p.registry.lookup? name).isSome := by
    obtain ⟨place, hplace, -⟩ := h.started hname
    rw [Registry.isSome_lookup?]
    exact Registry.contains_iff.2 (Registry.mem_names_of_handle? hplace)
  obtain ⟨rule, hrule⟩ := Option.isSome_iff_exists.1 hsome
  have hentry : p.registry.entry none = p.registry.entry (some name) := by
    rw [Registry.entry, Registry.entry, h.start?_eq_lookup? hname, hrule]
  unfold parse
  rw [hentry]

/-- After requests that do not themselves ask for a start rule, the rule that the settings ask for
is the start rule if and only if one of them registered its name, other than as a character rule.
A name that no character rule has is not registered in another way. From then on it is the start
rule whatever is requested, and parsing starts from it. -/
theorem configured_start_iff {s : Settings} (hs : s.start = some name) {requests : List Request}
    (hplain : ∀ request ∈ requests, request.asksStart = false) :
    ((Request.performAll (ofSettings s) requests).registry.start?.map (·.name) = some name ↔
      name ∈ Request.registeredApart (ofSettings s) requests) ∧
    (name ∉ CharacterRule.all.map Prod.fst →
      (Request.performAll (ofSettings s) requests).registry.contains name = true →
      name ∈ Request.registeredApart (ofSettings s) requests) ∧
    (name ∈ Request.registeredApart (ofSettings s) requests →
      ∀ more, (∀ request ∈ more, Request.asksStart request = false) →
      ∀ q, q = Request.performAll (ofSettings s) (requests ++ more) →
        q.registry.start?.map (·.name) = some name ∧
        ∀ input mayLeaveRest, q.parse input { mayLeaveRest } =
          q.parse input { start := some name, mayLeaveRest }) := by
  have h := Request.tracks_performAll (tracks_ofSettings hs) hplain
  rw [List.nil_append] at h
  refine ⟨h.name_start?_iff, fun hfree hcontains => ?_, ?_⟩
  · refine Classical.byContradiction fun hname => ?_
    exact hfree (h.character hname (Registry.contains_iff.1 hcontains))
  · rintro hname more hmore q rfl
    have hlater := Request.tracks_performAll h hmore
    have hseen := List.mem_append_left
      (Request.registeredApart (Request.performAll (ofSettings s) requests) more) hname
    rw [Request.performAll_append]
    exact ⟨hlater.name_start?_iff.2 hseen, hlater.parse_eq hseen⟩

theorem configured_start_behind_character_rules :
    (∀ request ∈ [.loadCharacterRules {}, .define ['n'] "digit n | digit".toList {}],
      Request.asksStart request = false) ∧
    (Request.performAll (ofSettings { start := some ['n'] })
      [.loadCharacterRules {}, .define ['n'] "digit n | digit".toList {}]).registry.start?.map
        (·.name) = some ['n'] := by
  have hplain : ∀ request ∈ [.loadCharacterRules {}, .define ['n'] "digit n | digit".toList {}],
      Request.asksStart request = false := by simp [Request.asksStart]
  have hnames : Request.registeredApart (ofSettings { start := some ['n'] })
      [.loadCharacterRules {}, .define ['n'] "digit n | digit".toList {}] = [['n']] := by cbv
  exact ⟨hplain, (configured_start_iff rfl hplain).1.2 (hnames ▸ List.mem_cons_self)⟩

/-- A configured start rule that is loaded with the character rules is registered and does not
start. -/
theorem configured_start_lost :
    (∀ request ∈ [Request.loadCharacterRules {}], request.asksStart = false) ∧
    (Request.performAll (ofSettings { start := some "digit".toList })
      [.loadCharacterRules {}]).registry.contains "digit".toList = true ∧
    (Request.performAll (ofSettings { start := some "digit".toList })
      [.loadCharacterRules {}]).registry.start?.map (·.name) ≠ some "digit".toList := by
  refine ⟨by simp [Request.asksStart], rfl, ?_⟩
  intro h
  cases h

end Parser

end Descent
