import Descent.Proofs.Registry.History

/-! The start rule by history. Where the settings ask for none, it is the rule that was asked for
last, or else the rule that was registered first, whatever was requested in between. The character
rules take part only if they are asked for: their registrations one by one move the start rule, and
then it is put back. -/

namespace Descent

open Registry (StartsFrom leader leader_nil)

namespace Request

/-- The names of the rules that a request is to register, in their order. -/
def ruleNames (p : Parser) : Request → List Text
  | define name _ _ | register name _ _ | registerMatcher name _ _ => [name]
  | load text => definedNames (Grammar.compile text)
  | loadDelimited text delimiter => definedNames (Grammar.compileDelimited text delimiter)
  | loadCharacterRules _ => (CharacterRule.all.filter (!p.registry.contains ·.1)).map Prod.fst
  | startFrom _ => []
where
  definedNames : Except Error (List Definition) → List Text
    | .ok ds => ds.map (·.name)
    | .error _ => []

/-- The names that a request registers: those that it is to register, or none if it is refused. -/
def registers (p : Parser) (request : Request) : List Text :=
  if (request.perform p).result.isOk then request.ruleNames p else []

/-- The rule that becomes the start rule because a request asks for one: the last one that it
registers, or the one that it names. -/
def target? (p : Parser) : Request → Option Text
  | startFrom name => if (p.startFrom name).result.isOk then some name else none
  | request => if request.asksStart then (request.registers p).getLast? else none

/-- The names that a request registers, unless it loads the character rules. -/
def registersOwn (p : Parser) : Request → List Text
  | loadCharacterRules _ => []
  | request => request.registers p

/-- The start rules that requests in turn ask for. -/
def targets (p : Parser) : List Request → List Text
  | [] => []
  | request :: requests =>
      (request.target? p).toList ++ targets (request.perform p).state requests

/-- The names that requests in turn register, except by loading the character rules. -/
def registeredOwn (p : Parser) : List Request → List Text
  | [] => []
  | request :: requests =>
      request.registersOwn p ++ registeredOwn (request.perform p).state requests

theorem registers_of_ok {p : Parser} {request : Request} {answer : Unit}
    (h : (request.perform p).result = .ok answer) : request.registers p = request.ruleNames p := by
  rw [registers, h]
  rfl

end Request

namespace Parser

variable {p : Parser} {first : Option Text} {name : Text} {spec : Spec} {options : Registration}

theorem Led.register {handle : Nat} (hp : p.Led first)
    (h : (p.register name spec options).result = .ok handle) :
    (p.register name spec options).state.Led
      (leader first (if options.start then [name] else []) [name]) := by
  rcases p.register_cases name spec options with ⟨-, hrefused⟩ | ⟨_, _, _, hdone, -, hinserted⟩
  · rw [hrefused] at h
    cases h
  · rw [hp.unasked, if_neg nofun] at hinserted
    rw [hdone]
    exact ⟨hp.unasked, hinserted.startsFrom hp.startsFrom⟩

theorem Led.define {body : Text} {handle : Nat} (hp : p.Led first)
    (h : (p.define name body options).result = .ok handle) :
    (p.define name body options).state.Led
      (leader first (if options.start then [name] else []) [name]) := by
  unfold Parser.define at h ⊢
  by_cases hname : Grammar.isRuleName name = true
  · rw [if_pos hname] at h ⊢
    cases hbody : Grammar.compileBody body with
    | error cause =>
        rw [hbody] at h
        cases h
    | ok spec =>
        rw [hbody] at h
        exact hp.register h
  · rw [if_neg hname] at h
    cases h

theorem Led.loadCompiled {block : Except Error (List Definition)} {handles : List Nat}
    (hp : p.Led first) (hnodup : ∀ ds, block = .ok ds → (ds.map (·.name)).Nodup)
    (h : (p.loadCompiled block).result = .ok handles) :
    (p.loadCompiled block).state.Led
      (leader first [] (Request.ruleNames.definedNames block)) := by
  rcases loadCompiled_cases (p := p) hnodup with ⟨_, herr, -⟩ | ⟨ds, rfl, hfresh, -, hstate⟩
  · rw [herr] at h
    cases h
  · have hled := (registers_registerAll hfresh).led hp
    rw [List.map_map] at hled
    rw [hstate]
    exact hled

theorem Led.loadCharacterRules_of_plain (hp : p.Led first) (hstart : options.start = false) :
    (p.loadCharacterRules options).state.Led first := by
  obtain ⟨hfilled, hkept⟩ := p.loadCharacterRules_filled hstart
  exact ⟨hfilled.requested.trans hp.unasked, hp.startsFrom.mono hfilled.grows hkept⟩

/-- Each character rule may start in turn while they are loaded, but if none of them was asked for,
the start rule is put back in the end. -/
theorem Led.loadCharacterRules (hp : p.Led first) (options : Registration) :
    (p.loadCharacterRules options).state.Led
      (leader first (if options.start then
        (CharacterRule.all.filter (!p.registry.contains ·.1)).map Prod.fst else []) []) := by
  cases hstart : options.start with
  | true =>
      obtain ⟨hresult, hregisters⟩ :=
        Registry.registers_registerMissing (p := p) options Registry.nodup_characterRules
      have hled := hregisters.led hp
      rw [hstart, List.map_map, if_pos rfl, Registry.leader_self] at hled
      rw [Parser.loadCharacterRules, Change.andThen, hresult, hstart]
      exact hled
  | false =>
      rw [if_neg Bool.false_ne_true, leader_nil]
      exact hp.loadCharacterRules_of_plain hstart

theorem Led.startFrom {answer : Unit} (hp : p.Led first)
    (h : (p.startFrom name).result = .ok answer) : (p.startFrom name).state.Led (some name) := by
  unfold Parser.startFrom Registry.startFrom at h ⊢
  cases hplace : p.registry.handle? name with
  | none =>
      rw [hplace] at h
      cases h
  | some place => exact ⟨hp.unasked, Registry.startsFrom_of_handle? hplace rfl⟩

end Parser

namespace Request

variable {p : Parser} {first : Option Text}

/-- A request that is refused counts for nothing. -/
theorem leader_of_error {request : Request} {err : Error}
    (h : (request.perform p).result = .error err) :
    leader first (request.target? p).toList (request.registersOwn p) = first := by
  have hregisters : request.registers p = [] := by
    rw [registers, h]
    rfl
  have htarget : request.target? p = none := by
    have hnone : (if request.asksStart then (request.registers p).getLast? else none) = none := by
      rw [hregisters]
      exact ite_self _
    cases request with
    | define | register | registerMatcher | load | loadDelimited | loadCharacterRules =>
        exact hnone
    | startFrom name =>
        have hrefused : (p.startFrom name).result = .error err := h
        rw [target?, hrefused]
        rfl
  have hown : request.registersOwn p = [] := by
    cases request with
    | define | register | registerMatcher | load | loadDelimited | startFrom => exact hregisters
    | loadCharacterRules => rfl
  rw [htarget, hown]
  exact leader_nil first

/-- A request that registers rules of its own, and perhaps asks that they start. -/
theorem leader_of_ok {request : Request} (htarget : request.target? p =
      if request.asksStart then (request.registers p).getLast? else none)
    (hown : request.registersOwn p = request.registers p) {answer : Unit}
    (h : (request.perform p).result = .ok answer) :
    leader first (request.target? p).toList (request.registersOwn p) =
      leader first (if request.asksStart then request.ruleNames p else [])
        (request.ruleNames p) := by
  rw [htarget, hown, registers_of_ok h]
  split
  · exact Registry.leader_getLast? _ _ _
  · rfl

/-- One request, whatever it is and whatever it answers. -/
theorem led_perform (hp : p.Led first) (request : Request) :
    (request.perform p).state.Led
      (leader first (request.target? p).toList (request.registersOwn p)) := by
  cases hresult : (request.perform p).result with
  | error err =>
      rw [leader_of_error hresult, state_perform_of_error hresult]
      exact hp
  | ok answer =>
      cases request with
      | define name body options =>
          obtain ⟨_, hhandle, -⟩ := Except.map_eq_ok_iff.1 hresult
          rw [leader_of_ok rfl rfl hresult]
          exact hp.define hhandle
      | register name spec options =>
          obtain ⟨_, hhandle, -⟩ := Except.map_eq_ok_iff.1 hresult
          rw [leader_of_ok rfl rfl hresult]
          exact hp.register hhandle
      | registerMatcher name matcher options =>
          obtain ⟨_, hhandle, -⟩ := Except.map_eq_ok_iff.1 hresult
          rw [leader_of_ok rfl rfl hresult]
          exact hp.register hhandle
      | load text =>
          obtain ⟨_, hhandles, -⟩ := Except.map_eq_ok_iff.1 hresult
          rw [leader_of_ok rfl rfl hresult]
          exact hp.loadCompiled (fun _ => Grammar.nodup_of_compileEntries) hhandles
      | loadDelimited text delimiter =>
          obtain ⟨_, hhandles, -⟩ := Except.map_eq_ok_iff.1 hresult
          rw [leader_of_ok rfl rfl hresult]
          exact hp.loadCompiled (fun _ => Grammar.nodup_of_compileEntries) hhandles
      | loadCharacterRules options =>
          have hled := hp.loadCharacterRules options
          have htarget : (loadCharacterRules options).target? p = if options.start then
              ((loadCharacterRules options).ruleNames p).getLast? else none :=
            registers_of_ok hresult ▸ rfl
          rw [htarget]
          split at hled
          · next hstart =>
              rw [if_pos hstart, Registry.leader_getLast?]
              exact hled
          · next hstart =>
              rw [if_neg hstart]
              exact hled
      | startFrom name =>
          have hdone : (p.startFrom name).result = .ok answer := hresult
          rw [target?, hdone]
          exact hp.startFrom hdone

theorem led_performAll (hp : p.Led first) (requests : List Request) :
    (performAll p requests).Led (leader first (targets p requests) (registeredOwn p requests)) := by
  induction requests generalizing p first with
  | nil => exact (leader_nil first).symm ▸ hp
  | cons request requests ih =>
      have hrest := ih (led_perform hp request)
      rwa [Registry.leader_append] at hrest

theorem target?_of_plain {request : Request} (h : request.asksStart = false) :
    request.target? p = none := by
  have hnone : (if request.asksStart then (request.registers p).getLast? else none) = none := by
    rw [h]
    rfl
  cases request with
  | define | register | registerMatcher | load | loadDelimited | loadCharacterRules => exact hnone
  | startFrom name => cases h

/-- A start rule stays, unless another one is asked for. -/
theorem led_perform_of_plain {request : Request} {name : Text} (hp : p.Led (some name))
    (hplain : request.asksStart = false) : (request.perform p).state.Led (some name) := by
  have hled := led_perform hp request
  rwa [target?_of_plain hplain] at hled

end Request

namespace Parser

/-- After any requests to a new parser whose settings ask for no start rule, the start rule is the one
that was asked for last with success, or else the first one that was registered, other than as a
character rule, or else there is none. A request that asks for no start rule, as one to replace a
rule, leaves the start rule that there is. -/
theorem start_follows_history (policy : Whitespace) (requests : List Request) :
    let p := ofWhitespace policy
    let q := Request.performAll p requests
    let first := (Request.targets p requests).getLast?.or (Request.registeredOwn p requests).head?
    q.registry.start?.map (·.name) = first ∧ q.registry.start = first.bind q.registry.handle? ∧
      ∀ request name, Request.asksStart request = false →
        q.registry.start?.map (·.name) = some name →
        (request.perform q).state.registry.start?.map (·.name) = some name := by
  intro p q first
  have hled : q.Led first := Request.led_performAll (led_ofWhitespace policy) requests
  refine ⟨hled.startsFrom.name_start?, hled.startsFrom.start, fun request name hplain hname => ?_⟩
  have hfirst : first = some name := hled.startsFrom.name_start?.symm.trans hname
  exact (Request.led_perform_of_plain (hfirst ▸ hled) hplain).startsFrom.name_start?

/-- The character rules come first and none of them starts. Later a rule that is not there is asked
for, and so are the character rules, all of which are there: neither moves the start rule. -/
theorem start_follows_history_refused :
    let p := ofWhitespace .keep
    let requests : List Request :=
      [.loadCharacterRules {}, .define ['n'] "digit m".toList {}, .startFrom ['x'],
       .define ['m'] ['n'] {}, .loadCharacterRules { start := true }]
    Request.targets p requests = [] ∧ Request.registeredOwn p requests = [['n'], ['m']] ∧
      (Request.performAll p requests).registry.start?.map (·.name) = some ['n'] ∧
      ((Request.define ['n'] ['m'] { replace := true }).perform
        (Request.performAll p requests)).state.registry.start?.map (·.name) = some ['n'] := by
  intro p requests
  obtain ⟨hname, -, hplain⟩ := start_follows_history .keep requests
  have htargets : Request.targets p requests = [] := by cbv
  have hown : Request.registeredOwn p requests = [['n'], ['m']] := by cbv
  have hfirst : (Request.performAll p requests).registry.start?.map (·.name) = some ['n'] := by
    refine hname.trans ?_
    rw [htargets, hown]
    rfl
  exact ⟨htargets, hown, hfirst, hplain _ ['n'] rfl hfirst⟩

end Parser

end Descent
