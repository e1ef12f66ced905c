import Highlighter.Rule
import Highlighter.Proofs.Fallible

/-!
Compiling one declaration, whatever the syntax of its patterns. It makes the rule that it describes
(`RuleSpec.compile_eq_ok_iff`) or fails at the first thing that is wrong with it: the opening pattern, the closing
pattern, the context group that is missing (`RuleSpec.compile_eq_error_iff`).
-/

set_option autoImplicit false

namespace Highlighter.RuleSpec

/-- The text is a pattern of this declaration, and reads so. -/
def Reads (spec : RuleSpec) (read : PatternSyntax) (source : String) (pattern : Pattern) : Prop :=
  read source.toList spec.ignoreCase = .ok pattern

/-- The rule is the declaration with its patterns read. -/
structure Makes (spec : RuleSpec) (read : PatternSyntax) (category : Category) (rule : Rule) : Prop where
  category_eq : rule.category = category
  source_eq : rule.source = spec.pattern
  opening : spec.Reads read spec.pattern rule.opening
  close_eq : rule.closing.map (·.1) = spec.close
  closing : ∀ close closing, rule.closing = some (close, closing) → spec.Reads read close closing
  grouped : spec.lookbehind = true → rule.opening.hasGroup = true
  lookbehind_eq : rule.lookbehind = spec.lookbehind
  greedy_eq : rule.greedy = spec.greedy
  ignoreCase_eq : rule.ignoreCase = spec.ignoreCase
  nested_eq : rule.nested = spec.nested

/-- What is wrong with a declaration, if all that is looked at before is right. -/
inductive Fails (spec : RuleSpec) (read : PatternSyntax) (category : Category) : RuleError → Prop
  | opening {fault : Pattern.Fault} (bad : read spec.pattern.toList spec.ignoreCase = .error fault) :
      Fails spec read category (.invalidPattern category spec.pattern fault)
  | closing {opening : Pattern} {close : String} {fault : Pattern.Fault}
      (reads : spec.Reads read spec.pattern opening) (isClose : spec.close = some close)
      (bad : read close.toList spec.ignoreCase = .error fault) :
      Fails spec read category (.invalidPattern category close fault)
  | context {opening : Pattern} (reads : spec.Reads read spec.pattern opening)
      (closes : ∀ close, spec.close = some close → ∃ closing, spec.Reads read close closing)
      (looks : spec.lookbehind = true) (noGroup : opening.hasGroup = false) :
      Fails spec read category (.missingContextGroup category spec.pattern)

variable {read : PatternSyntax} {spec : RuleSpec} {category : Category} {rule other : Rule} {opening : Pattern}
  {source : String} {pattern : Pattern} {closing : Option (String × Pattern)} {error otherError : RuleError}

theorem readPattern_of_reads (category : Category) (reads : spec.Reads read source pattern) :
    spec.readPattern category source read = .ok pattern := by
  rw [readPattern, reads]
  rfl

/-- Where all patterns can be read, only a context group may still be missing. -/
theorem compile_of_reads (category : Category) (opens : spec.Reads read spec.pattern opening)
    (isClose : closing.map (·.1) = spec.close)
    (closes : ∀ close pattern, closing = some (close, pattern) → spec.Reads read close pattern) :
    spec.compile category read =
      if spec.lookbehind && !opening.hasGroup then .error (.missingContextGroup category spec.pattern)
      else .ok {
        category, source := spec.pattern, opening, closing
        lookbehind := spec.lookbehind, greedy := spec.greedy, ignoreCase := spec.ignoreCase
        nested := spec.nested } := by
  rw [compile, readPattern_of_reads category opens, ← isClose]
  cases closing with
  | none =>
    simp only [Option.map_none, ok_bind, pure_bind]
    split <;> rfl
  | some entry =>
    obtain ⟨close, pattern⟩ := entry
    simp only [Option.map_some, readPattern_of_reads category (closes close pattern rfl), ok_bind, pure_bind]
    split <;> rfl

theorem makes_or_fails_of_reads (category : Category) (opens : spec.Reads read spec.pattern opening)
    (isClose : closing.map (·.1) = spec.close)
    (closes : ∀ close pattern, closing = some (close, pattern) → spec.Reads read close pattern) :
    match spec.compile category read with
    | .ok rule => spec.Makes read category rule
    | .error error => spec.Fails read category error := by
  rw [compile_of_reads category opens isClose closes]
  by_cases bare : (spec.lookbehind && !opening.hasGroup) = true
  · rw [if_pos bare]
    obtain ⟨looks, noGroup⟩ := Bool.and_eq_true_iff.1 bare
    refine .context opens (fun close known => ?_) looks (by simpa using noGroup)
    obtain ⟨⟨_, pattern⟩, rfl, rfl⟩ := Option.map_eq_some_iff.1 (isClose.trans known)
    exact ⟨pattern, closes _ pattern rfl⟩
  · rw [if_neg bare]
    refine ⟨rfl, rfl, opens, isClose, closes, fun looks => ?_, rfl, rfl, rfl, rfl⟩
    simpa [looks] using bare

theorem makes_or_fails (spec : RuleSpec) (read : PatternSyntax) (category : Category) :
    match spec.compile category read with
    | .ok rule => spec.Makes read category rule
    | .error error => spec.Fails read category error := by
  cases opens : read spec.pattern.toList spec.ignoreCase with
  | error fault =>
    rw [compile, readPattern, opens]
    exact .opening opens
  | ok opening =>
    cases isClose : spec.close with
    | none =>
      have known : (none : Option (String × Pattern)).map (·.1) = spec.close := isClose.symm
      exact makes_or_fails_of_reads category opens known nofun
    | some close =>
      cases closes : read close.toList spec.ignoreCase with
      | error fault =>
        simp only [compile, readPattern_of_reads category opens, isClose]
        rw [readPattern, closes]
        exact .closing opens isClose closes
      | ok closing =>
        have known : (some (close, closing)).map (·.1) = spec.close := isClose.symm
        refine makes_or_fails_of_reads category opens known ?_
        rintro _ _ ⟨⟩
        exact closes

/-! ### There is one outcome -/

theorem Reads.eq {first second : Pattern} (reads : spec.Reads read source first)
    (readsOther : spec.Reads read source second) : first = second := Except.ok.inj (reads.symm.trans readsOther)

theorem Reads.not_error {fault : Pattern.Fault} (reads : spec.Reads read source pattern)
    (bad : read source.toList spec.ignoreCase = .error fault) : False := by
  cases reads.symm.trans bad

theorem Makes.exists_reads {close : String} (makes : spec.Makes read category rule)
    (isClose : spec.close = some close) :
    ∃ closing, rule.closing = some (close, closing) ∧ spec.Reads read close closing := by
  obtain ⟨⟨_, closing⟩, known, rfl⟩ := Option.map_eq_some_iff.1 (makes.close_eq.trans isClose)
  exact ⟨closing, known, makes.closing _ closing known⟩

theorem Makes.not_fails (makes : spec.Makes read category rule) : ¬spec.Fails read category error := by
  intro fails
  cases fails with
  | opening bad => exact makes.opening.not_error bad
  | closing reads isClose bad =>
    obtain ⟨closing, _, closes⟩ := makes.exists_reads isClose
    exact closes.not_error bad
  | context reads closes looks noGroup =>
    rw [reads.eq makes.opening, makes.grouped looks] at noGroup
    cases noGroup

theorem Fails.eq (fails : spec.Fails read category error) (failsOther : spec.Fails read category otherError) :
    error = otherError := by
  cases fails with
  | opening bad =>
    cases failsOther with
    | opening badOther => rw [Except.error.inj (bad.symm.trans badOther)]
    | closing reads | context reads => exact (reads.not_error bad).elim
  | closing reads isClose bad =>
    cases failsOther with
    | opening badOther => exact (reads.not_error badOther).elim
    | closing _ isOther badOther =>
      cases isClose.symm.trans isOther
      rw [Except.error.inj (bad.symm.trans badOther)]
    | context _ closes =>
      obtain ⟨closing, readsClose⟩ := closes _ isClose
      exact (readsClose.not_error bad).elim
  | context reads closes =>
    cases failsOther with
    | opening bad => exact (reads.not_error bad).elim
    | closing _ isClose bad =>
      obtain ⟨closing, readsClose⟩ := closes _ isClose
      exact (readsClose.not_error bad).elim
    | context => rfl

theorem compile_eq_ok_iff : spec.compile category read = .ok rule ↔ spec.Makes read category rule := by
  constructor
  · intro made
    have outcome := spec.makes_or_fails read category
    rwa [made] at outcome
  · intro makes
    obtain ⟨_, _, opening, closing, _, _, _, _⟩ := rule
    obtain ⟨rfl, rfl, opens, isClose, closes, grouped, rfl, rfl, rfl, rfl⟩ := makes
    rw [compile_of_reads _ opens isClose closes, if_neg]
    intro bare
    obtain ⟨looks, noGroup⟩ := Bool.and_eq_true_iff.1 bare
    simp [grouped looks] at noGroup

theorem compile_eq_error_iff : spec.compile category read = .error error ↔ spec.Fails read category error := by
  have outcome := spec.makes_or_fails read category
  constructor
  · intro failed
    rwa [failed] at outcome
  · intro fails
    cases made : spec.compile category read with
    | ok rule =>
      rw [made] at outcome
      exact absurd fails outcome.not_fails
    | error other =>
      rw [made] at outcome
      rw [outcome.eq fails]

end Highlighter.RuleSpec
