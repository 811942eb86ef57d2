import Descent.Proofs.Parser.Block

/-! Registrations one after another, each under a free name. So are the rules of a block registered,
and the character rules; the start rule afterwards is the one that was there, or else the first of
them, unless the options ask that each of them be the start rule in turn. -/

namespace Descent

namespace Registry

/-- The rule of the name is the start rule, or there is no name and no start rule. -/
structure StartsFrom (r : Registry) (first : Option Text) : Prop where
  start : r.start = first.bind r.handle?
  known : ∀ name ∈ first, name ∈ r.names

/-- What starts after some names were asked for in turn and some were registered in turn: the name
that was asked for last, or else the one that started before, or else the one that was registered
first. -/
def leader (first : Option Text) (asked registered : List Text) : Option Text :=
  asked.getLast?.or (first.or registered.head?)

theorem leader_nil (first : Option Text) : leader first [] [] = first := Option.or_none

theorem leader_append (first : Option Text) (asked asked' registered registered' : List Text) :
    leader (leader first asked registered) asked' registered' =
      leader first (asked ++ asked') (registered ++ registered') := by
  unfold leader
  rw [List.getLast?_append, List.head?_append]
  simp only [Option.or_assoc]

/-- Where every name that is registered is asked for, no name starts for being the first. -/
theorem leader_self (first : Option Text) (names : List Text) :
    leader first names names = leader first names [] := by
  cases names with
  | nil => rfl
  | cons name names =>
      unfold leader
      rw [List.getLast?_cons]
      rfl

/-- Only the last one of the names that are asked for in turn counts. -/
theorem leader_getLast? (first : Option Text) (asked registered : List Text) :
    leader first asked.getLast?.toList registered = leader first asked registered := by
  unfold leader
  cases asked.getLast? with
  | none => rfl
  | some _ => rfl

variable {r r' : Registry} {first : Option Text} {name : Text} {place : Nat}

theorem startsFrom_none (h : r.start = none) : StartsFrom r none := ⟨h, nofun⟩

theorem startsFrom_of_handle? (h : r.handle? name = some place) (hstart : r.start = some place) :
    StartsFrom r (some name) :=
  ⟨hstart.trans h.symm, fun _ hname => Option.some.inj hname ▸ mem_names_of_handle? h⟩

/-- The same start rule with more names behind those that are there. -/
theorem StartsFrom.mono (h : StartsFrom r first) (hnames : r.names <+: r'.names)
    (hstart : r'.start = r.start) : StartsFrom r' first := by
  cases first with
  | none => exact startsFrom_none (hstart.trans h.start)
  | some name =>
      cases hplace : r.handle? name with
      | none => exact absurd (h.known name rfl) (handle?_eq_none_iff.1 hplace)
      | some place =>
          exact startsFrom_of_handle? (handle?_mono hnames hplace)
            (hstart.trans (h.start.trans hplace))

theorem StartsFrom.start?_eq (h : StartsFrom r first) : r.start? = first.bind r.lookup? := by
  rw [start?, h.start, Option.bind_assoc]
  rfl

theorem StartsFrom.name_start? (h : StartsFrom r first) : r.start?.map (·.name) = first := by
  rw [map_name_start?, h.start]
  cases first with
  | none => rfl
  | some name =>
      cases hplace : r.handle? name with
      | none => exact absurd (h.known name rfl) (handle?_eq_none_iff.1 hplace)
      | some place =>
          rw [Option.bind_some, hplace]
          exact getElem?_of_handle? hplace

/-- One registration: its name starts if that is asked for, or if nothing started before. -/
theorem Inserted.startsFrom {options : Registration} (h : Inserted r name options place r')
    (hfirst : StartsFrom r first) :
    StartsFrom r' (leader first (if options.start then [name] else []) [name]) := by
  have hplace : r'.start = some place → StartsFrom r' (some name) := startsFrom_of_handle? h.handle
  have hstart := h.start
  unfold startAfter at hstart
  cases hoptions : options.start with
  | true =>
      rw [hoptions] at hstart
      exact hplace hstart
  | false =>
      rw [hoptions] at hstart
      cases first with
      | none =>
          rw [hfirst.start] at hstart
          exact hplace hstart
      | some other =>
          -- A name that started has a handle, so the start rule was there.
          cases hr : r.start with
          | none =>
              have hother := handle?_eq_none_iff.1 (hfirst.start.symm.trans hr)
              exact absurd (hfirst.known other rfl) hother
          | some _ =>
              rw [hr] at hstart
              exact hfirst.mono h.grows (hstart.trans hr.symm)

end Registry

namespace Parser

open Registry (StartsFrom leader)

/-- Rules are registered one after another, each under a free name and with the same options. -/
inductive Registers (options : Registration) : Parser → List Rule → Parser → Prop
  | nil {p : Parser} : Registers options p [] p
  | cons {p q : Parser} {name : Text} {spec : Spec} {rules : List Rule} :
      name ∉ p.registry.names → Registers options (p.register name spec options).state rules q →
      Registers options p (⟨name, spec, options.whitespace⟩ :: rules) q

variable {p q : Parser} {options : Registration} {rules : List Rule} {first : Option Text}

theorem Registers.appended (h : Registers options p rules q) : Appended p rules q := by
  induction h with
  | nil => exact ⟨(List.append_nil _).symm, rfl, rfl⟩
  | @cons p q name spec rules hname _ ih =>
      obtain ⟨next, hnext, happended⟩ := register_of_notMem hname spec options
      rw [hnext] at ih
      exact happended.trans ih

/-- The settings ask for no start rule, and the rule of the name starts, or none does. -/
structure Led (p : Parser) (first : Option Text) : Prop where
  unasked : p.requestedStart = none
  startsFrom : StartsFrom p.registry first

theorem led_ofWhitespace (policy : Whitespace) : Led (ofWhitespace policy) none :=
  ⟨rfl, Registry.startsFrom_none rfl⟩

/-- Where the settings ask for no start rule, the options alone say what starts. -/
theorem Registers.led (h : Registers options p rules q) (hp : p.Led first) :
    q.Led (leader first (if options.start then rules.map (·.name) else [])
      (rules.map (·.name))) := by
  induction h generalizing first with
  | nil =>
      rw [List.map_nil, ite_self, Registry.leader_nil]
      exact hp
  | @cons p q name spec rules hname _ ih =>
      rcases p.register_cases name spec options with ⟨htaken, -⟩ | ⟨_, place, r', hdone, -, hinserted⟩
      · exact absurd htaken hname
      · rw [hp.unasked, if_neg nofun] at hinserted
        rw [hdone] at ih
        have hrest := ih ⟨hp.unasked, hinserted.startsFrom hp.startsFrom⟩
        rw [Registry.leader_append] at hrest
        cases hoptions : options.start with
        | true =>
            rw [hoptions] at hrest
            exact hrest
        | false =>
            rw [hoptions] at hrest
            exact hrest

theorem registers_registerAll {ds : List Definition} (h : Grammar.Fresh p.registry.names ds) :
    Registers {} p (ds.map Definition.rule) (p.registerAll ds).state := by
  induction ds generalizing p with
  | nil => exact .nil
  | cons d ds ih =>
      obtain ⟨hname, hds⟩ := Grammar.fresh_cons_iff.1 h
      obtain ⟨q, hq, happended⟩ := register_of_notMem hname d.spec {}
      refine .cons hname ?_
      rw [registerAll, hq]
      exact ih (happended.fresh_iff.2 hds)

end Parser

end Descent
