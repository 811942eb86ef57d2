import Descent.Proofs.Grammar.Width
import Descent.Proofs.Parser.Requests

/-! Requests within 32 bits. A request with grammar text may have no answer, and then no request
behind it is made. An answer is always that of a count without a limit, so what holds of requests in
turn without one holds of those that have an answer each; and they have one if no entry of a text
is too long. -/

namespace Descent

namespace Parser

variable {p : Parser}

theorem eq_of_define? {name body : Text} {options : Registration} {x : Change Parser Nat}
    (h : p.define? name body options = some x) : p.define name body options = x := by
  unfold define? at h
  unfold define
  by_cases hname : Grammar.isRuleName name = true
  · rw [if_pos hname] at h ⊢
    obtain ⟨answer, hanswer, rfl⟩ := Option.map_eq_some_iff.1 h
    rw [(Grammar.compileBody?_eq_some_iff.1 hanswer).2]
  · rw [if_neg hname] at h ⊢
    exact Option.some.inj h

theorem eq_of_load? {text : Text} {x : Change Parser (List Nat)} (h : p.load? text = some x) :
    p.load text = x := by
  obtain ⟨block, hblock, rfl⟩ := Option.map_eq_some_iff.1 h
  exact congrArg p.loadCompiled (Grammar.eq_of_compileEntries? hblock)

theorem eq_of_loadDelimited? {text delimiter : Text} {x : Change Parser (List Nat)}
    (h : p.loadDelimited? text delimiter = some x) : p.loadDelimited text delimiter = x := by
  obtain ⟨block, hblock, rfl⟩ := Option.map_eq_some_iff.1 h
  exact congrArg p.loadCompiled (Grammar.eq_of_compileEntries? hblock)

end Parser

namespace Request

variable {p q : Parser} {request : Request} {requests : List Request}

/-- The change that a request makes, if the grammar text in it is read within 32 bits. -/
def perform? (p : Parser) : Request → Option (Change Parser Unit)
  | define name body options => (p.define? name body options).map (·.map fun _ => ())
  | load text => (p.load? text).map (·.map fun _ => ())
  | loadDelimited text delimiter => (p.loadDelimited? text delimiter).map (·.map fun _ => ())
  | request => some (request.perform p)

/-- The parser that is left by requests in turn, if each of them has an answer. -/
def performAll? (p : Parser) : List Request → Option Parser
  | [] => some p
  | request :: requests => (request.perform? p).bind fun x => performAll? x.state requests

/-- The texts in a request that are read each by itself. -/
def sources : Request → List Text
  | define _ body _ => [body]
  | load text => text.lines
  | loadDelimited text delimiter => Grammar.entries text delimiter
  | register .. | registerMatcher .. | loadCharacterRules _ | startFrom _ => []

theorem eq_of_perform? {x : Change Parser Unit} (h : request.perform? p = some x) :
    request.perform p = x := by
  cases request with
  | define name body options =>
      obtain ⟨y, hy, rfl⟩ := Option.map_eq_some_iff.1 h
      rw [perform, Parser.eq_of_define? hy]
  | load text =>
      obtain ⟨y, hy, rfl⟩ := Option.map_eq_some_iff.1 h
      rw [perform, Parser.eq_of_load? hy]
  | loadDelimited text delimiter =>
      obtain ⟨y, hy, rfl⟩ := Option.map_eq_some_iff.1 h
      rw [perform, Parser.eq_of_loadDelimited? hy]
  | register | registerMatcher | loadCharacterRules | startFrom => exact Option.some.inj h

/-- Requests that have an answer each leave the parser that they leave without a limit. -/
theorem eq_of_performAll? (h : performAll? p requests = some q) : performAll p requests = q := by
  induction requests generalizing p with
  | nil => exact Option.some.inj h
  | cons request requests ih =>
      obtain ⟨x, hx, h⟩ := Option.bind_eq_some_iff.1 h
      rw [performAll, eq_of_perform? hx, ih h]

/-- A request has an answer if its texts are short enough. -/
theorem perform?_of_size_lt (p : Parser)
    (h : ∀ source ∈ request.sources, source.size < Cursor.limit) :
    request.perform? p = some (request.perform p) := by
  suffices hanswer : ∃ x, request.perform? p = some x by
    obtain ⟨x, hx⟩ := hanswer
    rw [hx, eq_of_perform? hx]
  have hfits : ∀ source ∈ request.sources, Grammar.Fits source :=
    fun source hsource => Grammar.fits_of_size_lt (h source hsource)
  cases request with
  | define name body options =>
      rw [perform?, Parser.define?, Grammar.compileBody?_eq,
        if_pos (hfits body List.mem_cons_self)]
      split
      · exact ⟨_, rfl⟩
      · exact ⟨_, rfl⟩
  | load text =>
      have hblock := @Grammar.compileEntries?_of_fits 1 [] text.lines fun line hline _ =>
        hfits line hline
      rw [perform?, Parser.load?, Grammar.compile?, hblock]
      exact ⟨_, rfl⟩
  | loadDelimited text delimiter =>
      have hblock := @Grammar.compileEntries?_of_fits 1 [] (Grammar.entries text delimiter)
        fun entry hentry _ => hfits entry hentry
      rw [perform?, Parser.loadDelimited?, Grammar.compileDelimited?, hblock]
      exact ⟨_, rfl⟩
  | register | registerMatcher | loadCharacterRules | startFrom => exact ⟨_, rfl⟩

theorem performAll?_of_size_lt (p : Parser)
    (h : ∀ request ∈ requests, ∀ source ∈ request.sources, source.size < Cursor.limit) :
    performAll? p requests = some (performAll p requests) := by
  induction requests generalizing p with
  | nil => rfl
  | cons request requests ih =>
      obtain ⟨hrequest, hrequests⟩ := List.forall_mem_cons.1 h
      rw [performAll?, perform?_of_size_lt p hrequest, Option.bind_some, ih _ hrequests, performAll]

end Request

end Descent
