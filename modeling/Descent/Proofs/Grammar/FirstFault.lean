import Mathlib
import Descent.Proofs.Grammar.Width

/-! The first fault of a block. The entries that are not blank are numbered as they stand. A block
is refused for the entry with the least number that does not compile, or that defines a name which
an entry before it defines; where there is no such entry the block compiles. An entry that 32 bits
do not hold is a fault too, and where it is the first one the block has no answer. -/

namespace Descent.Grammar

/-- The entries that are not blank, with their numbers from `line` on. -/
def ruleEntries (line : Nat) (sources : List Text) : List (Text × Nat) :=
  (sources.zipIdx line).filter fun entry => !isBlankEntry entry.1

/-- The definition is what the entry compiles to, and has its number. -/
def Defines (entry : Text × Nat) (d : Definition) : Prop :=
  compileRule? entry.1 = some (.ok (d.name, d.spec)) ∧ d.line = entry.2

/-- Every entry compiles by itself. -/
def AllCompile (entries : List (Text × Nat)) : Prop :=
  ∀ entry ∈ entries, ∃ name spec, compileRule? entry.1 = some (.ok (name, spec))

/-- No two entries define the same name. -/
def NamesDiffer (entries : List (Text × Nat)) : Prop :=
  ∀ entry ∈ entries, ∀ entry' ∈ entries, ∀ name spec spec',
    compileRule? entry.1 = some (.ok (name, spec)) →
      compileRule? entry'.1 = some (.ok (name, spec')) → entry.2 = entry'.2

/-- What is wrong with the entry of a number: 32 bits do not hold it, which is no cause of an error,
or it does not compile, or an entry before it defines its name. -/
inductive FaultAt (entries : List (Text × Nat)) (line : Nat) : Option GrammarError → Prop
  | unread {source : Text} : (source, line) ∈ entries → compileRule? source = none →
      FaultAt entries line none
  | uncompiled {source : Text} {cause : GrammarError} : (source, line) ∈ entries →
      compileRule? source = some (.error cause) → FaultAt entries line (some cause)
  | repeated {source earlier name : Text} {spec spec' : Spec} {line' : Nat} :
      (source, line) ∈ entries → compileRule? source = some (.ok (name, spec)) →
      (earlier, line') ∈ entries → line' < line →
      compileRule? earlier = some (.ok (name, spec')) →
      FaultAt entries line (some (.duplicateRule name))

/-- No entry with a smaller number is at fault. -/
structure FirstFault (entries : List (Text × Nat)) (line : Nat) (fault : Option GrammarError) :
    Prop where
  fault : FaultAt entries line fault
  least : ∀ line' fault', FaultAt entries line' fault' → line ≤ line'

/-- What is wrong with an entry if the names are taken. -/
inductive Refused (taken : List Text) (source : Text) : Option GrammarError → Prop
  | unread : compileRule? source = none → Refused taken source none
  | uncompiled {cause : GrammarError} : compileRule? source = some (.error cause) →
      Refused taken source (some cause)
  | repeated {name : Text} {spec : Spec} : compileRule? source = some (.ok (name, spec)) →
      name ∈ taken → Refused taken source (some (.duplicateRule name))

variable {line : Nat} {seen : List Text} {source : Text} {sources : List Text}
variable {ds : List Definition} {entries : List (Text × Nat)} {number : Nat}
variable {fault fault' : Option GrammarError}

theorem Refused.of_perm {taken taken' : List Text} (h : taken.Perm taken')
    (hrefused : Refused taken source fault) : Refused taken' source fault := by
  cases hrefused with
  | unread hrule => exact .unread hrule
  | uncompiled hrule => exact .uncompiled hrule
  | repeated hrule hname => exact .repeated hrule (h.mem_iff.1 hname)

theorem ruleEntries_cons_of_blank (h : isBlankEntry source = true) :
    ruleEntries line (source :: sources) = ruleEntries (line + 1) sources := by
  rw [ruleEntries, List.zipIdx_cons, List.filter_cons_of_neg]
  · rfl
  · simp [h]

theorem ruleEntries_cons_of_rule (h : isBlankEntry source = false) :
    ruleEntries line (source :: sources) = (source, line) :: ruleEntries (line + 1) sources := by
  rw [ruleEntries, List.zipIdx_cons, List.filter_cons_of_pos]
  · rfl
  · simp [h]

/-- Numbers grow from entry to entry. -/
theorem pairwise_ruleEntries (line : Nat) (sources : List Text) :
    (ruleEntries line sources).Pairwise fun entry entry' => entry.2 < entry'.2 := by
  refine List.Pairwise.filter _ (List.pairwise_map.1 ?_)
  rw [List.zipIdx_map_snd]
  exact List.pairwise_lt_range'

/-- The numbered entries are cut in front of one that is refused behind the definitions of those
before it. -/
def StopsAt (seen : List Text) (entries : List (Text × Nat)) (number : Nat)
    (fault : Option GrammarError) : Prop :=
  ∃ before source after ds, entries = before ++ (source, number) :: after ∧
    List.Forall₂ Defines before ds ∧ Fresh seen ds ∧
    Refused (ds.map (·.name) ++ seen) source fault

theorem stopsAt_cons_of_refused (h : Refused seen source fault) :
    StopsAt seen ((source, number) :: entries) number fault :=
  ⟨[], source, entries, [], rfl, .nil, fresh_nil seen, h⟩

/-- An entry that defines a free name stands in front. -/
theorem StopsAt.cons {name : Text} {spec : Spec} (h : StopsAt (name :: seen) entries number fault)
    (hrule : compileRule? source = some (.ok (name, spec))) (hname : name ∉ seen) :
    StopsAt seen ((source, line) :: entries) number fault := by
  obtain ⟨before, other, after, ds, rfl, hbefore, hfresh, hrefused⟩ := h
  exact ⟨(source, line) :: before, other, after, ⟨name, spec, line⟩ :: ds, rfl,
    .cons ⟨hrule, rfl⟩ hbefore, fresh_cons_iff.2 ⟨hname, hfresh⟩,
    hrefused.of_perm List.perm_middle⟩

/-- A block has the definitions of its entries, or it stops at one of them. -/
theorem compileEntries?_cases (line : Nat) (seen sources : List Text) :
    (∃ ds, compileEntries? line seen sources = some (.ok ds) ∧
      List.Forall₂ Defines (ruleEntries line sources) ds ∧ Fresh seen ds) ∨
    ∃ number fault, StopsAt seen (ruleEntries line sources) number fault ∧
      compileEntries? line seen sources =
        fault.map fun cause => .error (.grammar number cause) := by
  induction sources generalizing line seen with
  | nil => exact .inl ⟨[], rfl, .nil, fresh_nil seen⟩
  | cons source sources ih =>
      rw [compileEntries?]
      cases hblank : isBlankEntry source with
      | true =>
          rw [if_pos rfl, ruleEntries_cons_of_blank hblank]
          exact ih (line + 1) seen
      | false =>
          rw [if_neg Bool.false_ne_true, ruleEntries_cons_of_rule hblank]
          rcases hrule : compileRule? source with _ | cause | ⟨name, spec⟩
          · exact .inr ⟨line, none, stopsAt_cons_of_refused (.unread hrule), rfl⟩
          · exact .inr ⟨line, some cause, stopsAt_cons_of_refused (.uncompiled hrule), rfl⟩
          · rw [Option.bind_some]
            dsimp only
            by_cases hseen : seen.contains name = true
            · rw [if_pos hseen]
              have hrefused := Refused.repeated hrule (List.contains_iff_mem.1 hseen)
              exact .inr ⟨line, _, stopsAt_cons_of_refused hrefused, rfl⟩
            · rw [if_neg hseen]
              have hname : name ∉ seen := fun hmem => hseen (List.contains_iff_mem.2 hmem)
              rcases ih (line + 1) (name :: seen) with
                ⟨ds, hds, hdefines, hfresh⟩ | ⟨number, fault, hstop, hblock⟩
              · refine .inl ⟨⟨name, spec, line⟩ :: ds, ?_, .cons ⟨hrule, rfl⟩ hdefines,
                  fresh_cons_iff.2 ⟨hname, hfresh⟩⟩
                rw [hds]
                rfl
              · refine .inr ⟨number, fault, hstop.cons hrule hname, ?_⟩
                rw [hblock, Option.map_map]
                rfl

/-- Each entry has one of the definitions. -/
theorem exists_defines_of_mem (h : List.Forall₂ Defines entries ds) :
    ∀ entry ∈ entries, ∃ d ∈ ds, Defines entry d := by
  induction h with
  | nil => exact nofun
  | @cons entry d entries ds hentry _ ih =>
      refine List.forall_mem_cons.2 ⟨⟨d, List.mem_cons_self, hentry⟩, fun entry' hmem => ?_⟩
      obtain ⟨d', hd', hdefines⟩ := ih entry' hmem
      exact ⟨d', List.mem_cons_of_mem _ hd', hdefines⟩

/-- Each definition has one of the entries. -/
theorem exists_entry_of_mem (h : List.Forall₂ Defines entries ds) :
    ∀ d ∈ ds, ∃ entry ∈ entries, Defines entry d := by
  induction h with
  | nil => exact nofun
  | @cons entry d entries ds hentry _ ih =>
      refine List.forall_mem_cons.2 ⟨⟨entry, List.mem_cons_self, hentry⟩, fun d' hmem => ?_⟩
      obtain ⟨entry', hentry', hdefines⟩ := ih d' hmem
      exact ⟨entry', List.mem_cons_of_mem _ hentry', hdefines⟩

theorem allCompile_of_defines (h : List.Forall₂ Defines entries ds) : AllCompile entries := by
  intro entry hentry
  obtain ⟨d, -, hdefines⟩ := exists_defines_of_mem h entry hentry
  exact ⟨d.name, d.spec, hdefines.1⟩

theorem namesDiffer_of_nodup (h : List.Forall₂ Defines entries ds)
    (hnodup : (ds.map (·.name)).Nodup) : NamesDiffer entries := by
  intro entry hentry entry' hentry' name spec spec' hrule hrule'
  obtain ⟨d, hd, hdefines, hline⟩ := exists_defines_of_mem h entry hentry
  obtain ⟨d', hd', hdefines', hline'⟩ := exists_defines_of_mem h entry' hentry'
  have hname : d.name = name :=
    congrArg Prod.fst (Except.ok.inj (Option.some.inj (hdefines.symm.trans hrule)))
  have hname' : d'.name = name :=
    congrArg Prod.fst (Except.ok.inj (Option.some.inj (hdefines'.symm.trans hrule')))
  have heq : d = d' := List.inj_on_of_nodup_map hnodup hd hd' (hname.trans hname'.symm)
  rw [← hline, ← hline', heq]

theorem not_faultAt (hrules : AllCompile entries) (hnames : NamesDiffer entries) :
    ¬FaultAt entries line fault := by
  intro h
  cases h with
  | unread hmem hrule =>
      obtain ⟨name, spec, hok⟩ := hrules _ hmem
      rw [hrule] at hok
      cases hok
  | uncompiled hmem hrule =>
      obtain ⟨name, spec, hok⟩ := hrules _ hmem
      rw [hrule] at hok
      cases hok
  | repeated hmem hrule hearlier hlt hrule' =>
      have heq := hnames _ hmem _ hearlier _ _ _ hrule hrule'
      exact absurd heq (Nat.ne_of_gt hlt)

section

/- A list of numbered entries that is cut in front of one of them. -/
variable {before after : List (Text × Nat)}
  (hsorted : (before ++ (source, number) :: after).Pairwise fun entry entry' => entry.2 < entry'.2)
include hsorted

theorem mem_before_of_lt {entry : Text × Nat} (hlt : entry.2 < number)
    (h : entry ∈ before ++ (source, number) :: after) : entry ∈ before := by
  obtain ⟨-, hafter, -⟩ := List.pairwise_append.1 hsorted
  rcases List.mem_append.1 h with h | h
  · exact h
  · rcases List.mem_cons.1 h with rfl | h
    · exact absurd hlt (Nat.lt_irrefl _)
    · exact absurd hlt (Nat.lt_asymm ((List.pairwise_cons.1 hafter).1 entry h))

/-- A fault before the cut is a fault of what stands before the cut. -/
theorem FaultAt.of_lt (h : FaultAt (before ++ (source, number) :: after) line fault)
    (hlt : line < number) : FaultAt before line fault := by
  cases h with
  | unread hmem hrule => exact .unread (mem_before_of_lt hsorted hlt hmem) hrule
  | uncompiled hmem hrule => exact .uncompiled (mem_before_of_lt hsorted hlt hmem) hrule
  | repeated hmem hrule hearlier hlt' hrule' =>
      exact .repeated (mem_before_of_lt hsorted hlt hmem) hrule
        (mem_before_of_lt hsorted (Nat.lt_trans hlt' hlt) hearlier) hlt' hrule'

/-- What is refused behind the definitions of the entries before it is a fault. -/
theorem Refused.faultAt (hbefore : List.Forall₂ Defines before ds)
    (h : Refused (ds.map (·.name)) source fault) :
    FaultAt (before ++ (source, number) :: after) number fault := by
  have hmem : (source, number) ∈ before ++ (source, number) :: after :=
    List.mem_append_right _ List.mem_cons_self
  cases h with
  | unread hrule => exact .unread hmem hrule
  | uncompiled hrule => exact .uncompiled hmem hrule
  | repeated hrule hname =>
      obtain ⟨d, hd, rfl⟩ := List.mem_map.1 hname
      obtain ⟨⟨earlier, line'⟩, hearlier, hdefines, -⟩ := exists_entry_of_mem hbefore d hd
      have hlt := (List.pairwise_append.1 hsorted).2.2 _ hearlier _ List.mem_cons_self
      exact .repeated hmem hrule (List.mem_append_left _ hearlier) hlt hdefines

/-- Nothing is wrong with entries that have definitions of different names, so no fault stands
before the cut. -/
theorem le_of_faultAt (hbefore : List.Forall₂ Defines before ds)
    (hnodup : (ds.map (·.name)).Nodup)
    (h : FaultAt (before ++ (source, number) :: after) line fault) : number ≤ line := by
  refine Nat.le_of_not_lt fun hlt => ?_
  exact not_faultAt (allCompile_of_defines hbefore) (namesDiffer_of_nodup hbefore hnodup)
    (h.of_lt hsorted hlt)

end

/-- What an entry is at fault with, if it is at fault and this is its answer by itself. -/
def faultOf : Option (Except GrammarError (Text × Spec)) → Option GrammarError
  | none => none
  | some (.error cause) => some cause
  | some (.ok (name, _)) => some (.duplicateRule name)

theorem FaultAt.exists_source (h : FaultAt entries line fault) :
    ∃ source, (source, line) ∈ entries ∧ fault = faultOf (compileRule? source) := by
  cases h with
  | unread hmem hrule => exact ⟨_, hmem, hrule ▸ rfl⟩
  | uncompiled hmem hrule => exact ⟨_, hmem, hrule ▸ rfl⟩
  | repeated hmem hrule => exact ⟨_, hmem, hrule ▸ rfl⟩

/-- An entry is at fault in one way only. -/
theorem FaultAt.unique
    (hsorted : entries.Pairwise fun entry entry' => entry.2 < entry'.2)
    (h : FaultAt entries line fault) (h' : FaultAt entries line fault') : fault = fault' := by
  have hnumbers : (entries.map Prod.snd).Nodup := List.pairwise_map.2 (hsorted.imp Nat.ne_of_lt)
  obtain ⟨source, hmem, rfl⟩ := h.exists_source
  obtain ⟨source', hmem', rfl⟩ := h'.exists_source
  have hsource : source = source' :=
    congrArg Prod.fst (List.inj_on_of_nodup_map hnumbers hmem hmem' rfl)
  rw [hsource]

theorem FirstFault.unique {number' : Nat}
    (hsorted : entries.Pairwise fun entry entry' => entry.2 < entry'.2)
    (h : FirstFault entries number fault) (h' : FirstFault entries number' fault') :
    number = number' ∧ fault = fault' := by
  obtain rfl := Nat.le_antisymm (h.least _ _ h'.fault) (h'.least _ _ h.fault)
  exact ⟨rfl, h.fault.unique hsorted h'.fault⟩

/-- What a block answers: the definitions of its entries, or what is wrong with the first of them
that is at fault, or nothing if 32 bits do not hold that one. -/
structure ReportsFirstFault (sources : List Text)
    (block : Option (Except Error (List Definition))) : Prop where
  compiles_iff : (∃ ds, block = some (.ok ds)) ↔
    AllCompile (ruleEntries 1 sources) ∧ NamesDiffer (ruleEntries 1 sources)
  definitions : ∀ ds, block = some (.ok ds) → List.Forall₂ Defines (ruleEntries 1 sources) ds
  error_iff : ∀ err, block = some (.error err) ↔ ∃ line cause, err = .grammar line cause ∧
    FirstFault (ruleEntries 1 sources) line (some cause)
  none_iff : block = none ↔ ∃ line, FirstFault (ruleEntries 1 sources) line none

/-- A block stops at the first entry that is at fault. -/
theorem StopsAt.firstFault (h : StopsAt [] (ruleEntries line sources) number fault) :
    FirstFault (ruleEntries line sources) number fault := by
  obtain ⟨before, source, after, ds, hentries, hbefore, hfresh, hrefused⟩ := h
  have hsorted := pairwise_ruleEntries line sources
  rw [hentries] at hsorted ⊢
  rw [List.append_nil] at hrefused
  exact ⟨hrefused.faultAt hsorted hbefore, fun _ _ => le_of_faultAt hsorted hbefore hfresh.nodup⟩

/-- A block has the definitions of its entries, and none of these is at fault; or it answers for the
first that is. -/
theorem compileEntries?_cases_firstFault (sources : List Text) :
    (∃ ds, compileEntries? 1 [] sources = some (.ok ds) ∧
      List.Forall₂ Defines (ruleEntries 1 sources) ds ∧
      AllCompile (ruleEntries 1 sources) ∧ NamesDiffer (ruleEntries 1 sources)) ∨
    ∃ number fault, FirstFault (ruleEntries 1 sources) number fault ∧
      compileEntries? 1 [] sources = fault.map fun cause => .error (.grammar number cause) := by
  rcases compileEntries?_cases 1 [] sources with
    ⟨ds, hds, hdefines, hfresh⟩ | ⟨number, fault, hstop, hblock⟩
  · exact .inl ⟨ds, hds, hdefines, allCompile_of_defines hdefines,
      namesDiffer_of_nodup hdefines hfresh.nodup⟩
  · exact .inr ⟨number, fault, hstop.firstFault, hblock⟩

theorem reportsFirstFault (sources : List Text) :
    ReportsFirstFault sources (compileEntries? 1 [] sources) := by
  have hsorted := pairwise_ruleEntries 1 sources
  rcases compileEntries?_cases_firstFault sources with
    ⟨ds, hds, hdefines, hrules, hnames⟩ | ⟨number, fault, hfirst, hblock⟩
  · rw [hds]
    have hnone : ∀ {line fault}, ¬FirstFault (ruleEntries 1 sources) line fault :=
      fun hfirst => not_faultAt hrules hnames hfirst.fault
    refine ⟨iff_of_true ⟨ds, rfl⟩ ⟨hrules, hnames⟩, fun ds' hds' => ?_, fun err => ?_, ?_⟩
    · cases hds'
      exact hdefines
    · exact iff_of_false nofun fun ⟨_, _, _, hfirst⟩ => hnone hfirst
    · exact iff_of_false nofun fun ⟨_, hfirst⟩ => hnone hfirst
  · rw [hblock]
    have hfault : ¬(AllCompile (ruleEntries 1 sources) ∧ NamesDiffer (ruleEntries 1 sources)) :=
      fun h => not_faultAt h.1 h.2 hfirst.fault
    cases fault with
    | none =>
        refine ⟨iff_of_false nofun hfault, nofun, fun err => ?_, iff_of_true rfl ⟨number, hfirst⟩⟩
        refine iff_of_false nofun ?_
        rintro ⟨line, cause, -, hfirst'⟩
        cases (hfirst.unique hsorted hfirst').2
    | some cause =>
        refine ⟨iff_of_false nofun hfault, nofun, fun err => ⟨fun h => ?_, ?_⟩, ?_⟩
        · cases h
          exact ⟨number, cause, rfl, hfirst⟩
        · rintro ⟨line, cause', rfl, hfirst'⟩
          obtain ⟨rfl, heq⟩ := hfirst.unique hsorted hfirst'
          cases heq
          rfl
        · refine iff_of_false nofun ?_
          rintro ⟨line, hfirst'⟩
          cases (hfirst.unique hsorted hfirst').2

end Descent.Grammar
