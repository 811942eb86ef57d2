import Descent.Change
import Descent.Spec
import Descent.Spec.Display

/-! Named rules. Bodies refer to rules by name, and a rule is looked up when its name is met, so
rules may name each other in any order. There are two tables, the rules by their handles and the
handles by the names; a registration writes both. A rule keeps the handle under which it was first
registered: its place among the rules. So handles stay below the number of rules, and 32 bits hold
them as long as there are fewer than 2 ^ 32 rules; the tables here have no such limit. -/

namespace Descent

structure Rule where
  name : Text
  spec : Spec
  /-- Whether the whitespace policy runs before a matching function. -/
  whitespace : Bool

structure Registration where
  /-- The rule becomes the start rule. -/
  start : Bool := false
  /-- A rule of the same name is replaced. -/
  replace : Bool := false
  /-- The whitespace policy runs before a matching function. -/
  whitespace : Bool := false
  deriving DecidableEq

/-- A member that gives way to one that is found alike leaves the first find where it is. -/
theorem findIdx?_set {α : Type} {p : α → Bool} {xs : List α} {i : Nat} {x : α}
    (h : ∀ y, xs[i]? = some y → p x = p y) : (xs.set i x).findIdx? p = xs.findIdx? p := by
  induction xs generalizing i with
  | nil => rfl
  | cons y ys ih =>
    cases i with
    | zero =>
      have hp : p x = p y := h y rfl
      simp only [List.set_cons_zero, List.findIdx?_cons, hp]
    | succ i =>
      have hys : (ys.set i x).findIdx? p = ys.findIdx? p := ih h
      simp only [List.set_cons_succ, List.findIdx?_cons, hys]

theorem bind_findIdx?_getElem? {α : Type} (p : α → Bool) (xs : List α) :
    ((xs.findIdx? p).bind fun i => xs[i]?) = xs.find? p := by
  induction xs with
  | nil => rfl
  | cons x xs ih =>
    by_cases h : p x
    · simp [List.findIdx?_cons, h]
    · simp only [List.findIdx?_cons, List.find?_cons, h, Bool.false_eq_true, if_false, ← ih]
      cases xs.findIdx? p <;> rfl

/-- Two tables without entries agree. -/
theorem agree_nil (name : Text) :
    ([] : List (Text × Nat)).lookup name = ([] : List Rule).findIdx? (·.name = name) := rfl

/-- The two tables and the start rule. -/
structure Registry where
  rules : List Rule := []
  /-- The handle of each name. -/
  handles : List (Text × Nat) := []
  start : Option Nat := none
  /-- A name has the handle at which its rule stands; each write of a table has to show it. -/
  agree : ∀ name, handles.lookup name = rules.findIdx? (·.name = name) := by exact agree_nil

namespace Registry

def handle? (r : Registry) (name : Text) : Option Nat := r.handles.lookup name

def contains (r : Registry) (name : Text) : Bool := (r.handles.lookup name).isSome

def get? (r : Registry) (handle : Nat) : Option Rule := r.rules[handle]?

def lookup? (r : Registry) (name : Text) : Option Rule := (r.handle? name).bind r.get?

theorem lookup?_eq_find? (r : Registry) (name : Text) :
    r.lookup? name = r.rules.find? (·.name = name) := by
  rw [lookup?, handle?, r.agree]
  exact bind_findIdx?_getElem? _ r.rules

theorem name_of_lookup? {r : Registry} {name : Text} {rule : Rule}
    (h : r.lookup? name = some rule) : rule.name = name := by
  rw [lookup?_eq_find?] at h
  simpa using List.find?_some h

/-- The rule at the handle of a name has that name. -/
theorem name_of_handle? {r : Registry} {name : Text} {handle : Nat} {rule : Rule}
    (h : r.handle? name = some handle) (hrule : r.get? handle = some rule) : rule.name = name := by
  refine name_of_lookup? (r := r) ?_
  rw [lookup?, h]
  exact hrule

theorem isSome_lookup? (r : Registry) (name : Text) :
    (r.lookup? name).isSome = r.contains name := by
  rw [lookup?_eq_find?, contains, r.agree, List.findIdx?_isSome, Bool.eq_iff_iff,
    List.find?_isSome, List.any_eq_true]

def start? (r : Registry) : Option Rule := r.start.bind r.get?

def size (r : Registry) : Nat := r.rules.length

def withStart (r : Registry) (start : Option Nat) : Registry := { r with start }

/-- The start rule after a registration under `handle`. -/
def startAfter (r : Registry) (options : Registration) (handle : Nat) : Option Nat :=
  if options.start || r.start.isNone then some handle else r.start

/-- The rules with one more, of a name that was free: both tables grow. -/
def added (r : Registry) (rule : Rule) (h : r.handle? rule.name = none) : Registry where
  rules := r.rules ++ [rule]
  handles := (rule.name, r.size) :: r.handles
  start := r.start
  agree name := by
    have hother := r.agree name
    rw [List.findIdx?_append, List.lookup_cons, ← hother]
    by_cases hname : name = rule.name
    · subst hname
      have hfree : r.handles.lookup rule.name = none := h
      simp [hfree, size]
    · simp [beq_false_of_ne hname, Ne.symm hname]

/-- The rules with another one in the place of the rule of its name. Names keep their handles. -/
def replaced (r : Registry) (rule : Rule) {handle : Nat} (h : r.handle? rule.name = some handle) :
    Registry where
  rules := r.rules.set handle rule
  handles := r.handles
  start := r.start
  agree name := by
    refine (r.agree name).trans (findIdx?_set fun old hold => ?_).symm
    rw [name_of_handle? h hold]

/-- Registers a body. A name that is taken is refused unless replacing it is asked for; the rule
then keeps its handle. The first rule becomes the start rule. -/
def insert (r : Registry) (name : Text) (spec : Spec) (options : Registration) :
    Change Registry Nat :=
  match h : r.handle? name with
  | some handle =>
      if options.replace then
        .noting (.ruleRedefined name)
          (.ok ((r.replaced ⟨name, spec, options.whitespace⟩ h).withStart
            (r.startAfter options handle)) handle)
      else .refused r (.duplicateRule name)
  | none =>
      .noting (.ruleDefined name)
        (.ok ((r.added ⟨name, spec, options.whitespace⟩ h).withStart
          (r.startAfter options r.size)) r.size)

def startFrom (r : Registry) (name : Text) : Change Registry Unit :=
  match r.handle? name with
  | some handle => .ok (r.withStart (some handle)) ()
  | none => .refused r (.unknownEntryPoint name)

/-- The rule to start from: the named one, or else the start rule. -/
def entry (r : Registry) : Option Text → Except Error Rule
  | some name =>
      match r.lookup? name with
      | some rule => .ok rule
      | none => .error (.unknownEntryPoint name)
  | none =>
      match r.start? with
      | some rule => .ok rule
      | none => .error .noEntryPoint

/-- The names of the list that are no rules, each at its first place only; `seen` are names that
were met before. -/
def missing (r : Registry) (seen : List Text) : List Text → List Text
  | [] => []
  | name :: names =>
      if r.contains name || seen.contains name then missing r seen names
      else name :: missing r (name :: seen) names

/-- The names that some body uses and no rule has, in the order of their first use. -/
def undefinedNames (r : Registry) : List Text :=
  r.missing [] (r.rules.flatMap (·.spec.references))

/-- The rules as grammar text, one on a line. -/
def text (r : Registry) : Text :=
  r.rules.flatMap fun rule => rule.name ++ " := ".toList ++ rule.spec.text ++ ['\n']

end Registry

end Descent
