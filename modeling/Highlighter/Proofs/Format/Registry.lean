import Highlighter.Format
import Highlighter.Proofs.Text.ByteOrder

/-!
Registries over runs of calls. What a registry holds is said by the formats that have been registered in it, one
after the other: their names are its names, and under a name it has the last of them (`Registry.Holds`). So it
answers each call of a run, and calls that only ask change no later answer (`Registry.run_answers`).
-/

set_option autoImplicit false

namespace Highlighter.Registry

inductive Call where
  | register (format : Format)
  | has (name : String)
  | describe (name : String)
  | list
  | render (name : String) (source : List Char) (spans : List Span)

inductive Answer where
  | done
  | isKnown (known : Bool)
  | description (text : Option String)
  | names (names : List String)
  | output (result : Except FormatError (List Char))

def answer (registry : Registry) : Call → Answer
  | .register _ => .done
  | .has name => .isKnown (registry.has name)
  | .describe name => .description ((registry.get? name).map (·.description))
  | .list => .names registry.names
  | .render name source spans => .output (registry.render name source spans)

/-- The format that a call brings, if it does not only ask. -/
def Call.format? : Call → Option Format
  | .register format => some format
  | _ => none

def after (registry : Registry) (call : Call) : Registry :=
  match call.format? with
  | some format => registry.register format
  | none => registry

def afterAll (registry : Registry) (calls : List Call) : Registry := calls.foldl after registry

/-- The answers of a run. -/
def answers (registry : Registry) : List Call → List Answer
  | [] => []
  | call :: calls => registry.answer call :: (registry.after call).answers calls

/-- The formats registered in a run, the first one first. -/
def registered (calls : List Call) : List Format := calls.filterMap Call.format?

/-- What a run begins with: no formats, or those there are. -/
inductive Start where
  | empty
  | standard
  deriving DecidableEq, Repr

def Start.registry : Start → Registry
  | .empty => Registry.empty
  | .standard => Registry.standard

def Start.formats : Start → List Format
  | .empty => []
  | .standard => [.json, .yaml, .html Markup.defaultClass, .tree]

/-- The last format of this name. -/
def IsLast (held : List Format) (name : String) (format : Format) : Prop :=
  ∃ before behind, held = before ++ format :: behind ∧ format.name = name ∧
    ∀ other ∈ behind, other.name ≠ name

def IsNamed (held : List Format) (name : String) : Prop := ∃ format ∈ held, format.name = name

/-- The registry shows these formats: each view of it is determined by them. -/
structure Holds (registry : Registry) (held : List Format) : Prop where
  increasing : registry.names.Pairwise fun first second => utf8Bytes first < utf8Bytes second
  mem_names_iff : ∀ {name}, name ∈ registry.names ↔ IsNamed held name
  has_iff : ∀ {name}, registry.has name = true ↔ name ∈ registry.names
  isSome_get?_iff : ∀ {name}, (registry.get? name).isSome = true ↔ name ∈ registry.names
  get?_iff : ∀ {name format}, registry.get? name = some format ↔ IsLast held name format

/-- What is to be answered where these formats have been registered. -/
inductive Answers (held : List Format) : Call → Answer → Prop
  | register {format : Format} : Answers held (.register format) .done
  | has {name : String} {known : Bool} (isKnown : known = true ↔ IsNamed held name) :
      Answers held (.has name) (.isKnown known)
  | description {name : String} {format : Format} (isLast : IsLast held name format) :
      Answers held (.describe name) (.description (some format.description))
  | noDescription {name : String} (unknown : ¬IsNamed held name) :
      Answers held (.describe name) (.description none)
  | names {names : List String}
      (increasing : names.Pairwise fun first second => utf8Bytes first < utf8Bytes second)
      (complete : ∀ name, name ∈ names ↔ IsNamed held name) : Answers held .list (.names names)
  | output {name : String} {source : List Char} {spans : List Span} {format : Format}
      (isLast : IsLast held name format) :
      Answers held (.render name source spans) (.output (format.render source spans))
  | notFound {name : String} {source : List Char} {spans : List Span} (unknown : ¬IsNamed held name) :
      Answers held (.render name source spans) (.output (.error (.notFound name)))

variable {registry : Registry} {format : Format} {formats held : List Format} {name : String} {call : Call}

/-! ### Formats under their names -/

theorem mem_insert {other : Format} (known : other ∈ insert format formats) :
    other = format ∨ other ∈ formats := by
  induction formats with
  | nil => exact .inl (List.mem_singleton.1 known)
  | cons first formats ih =>
    unfold insert at known
    split at known
    · exact List.mem_cons.1 known
    split at known
    · exact (List.mem_cons.1 known).imp_right (List.mem_cons_of_mem _)
    · rcases List.mem_cons.1 known with rfl | behind
      · exact .inr List.mem_cons_self
      · exact (ih behind).imp_right (List.mem_cons_of_mem _)

theorem pairwise_insert (sorted : formats.Pairwise (·.name < ·.name)) :
    (insert format formats).Pairwise (·.name < ·.name) := by
  induction formats with
  | nil => exact List.pairwise_singleton _ _
  | cons first formats ih =>
    obtain ⟨lower, rest⟩ := List.pairwise_cons.1 sorted
    unfold insert
    split
    next below =>
      refine List.pairwise_cons.2 ⟨fun other known => ?_, sorted⟩
      rcases List.mem_cons.1 known with rfl | behind
      · exact below
      · exact below.trans (lower other behind)
    split
    next same => exact List.pairwise_cons.2 ⟨fun other known => same ▸ lower other known, rest⟩
    next notBelow differs =>
      have above : first.name < format.name := lt_of_le_of_ne (not_lt.1 notBelow) (Ne.symm differs)
      refine List.pairwise_cons.2 ⟨fun other known => ?_, ih rest⟩
      rcases mem_insert known with rfl | behind
      · exact above
      · exact lower other behind

/-- What is put among formats is found by its name, and under other names what was found before. -/
theorem find?_insert (format : Format) (formats : List Format) (name : String) :
    (Registry.insert format formats).find? (·.name == name) =
      if format.name == name then some format else formats.find? (·.name == name) := by
  induction formats with
  | nil => rw [Registry.insert, List.find?_singleton, List.find?_nil]
  | cons other formats ih =>
    unfold Registry.insert
    split
    · rw [List.find?_cons]
      cases format.name == name <;> rfl
    split
    next same =>
      rw [List.find?_cons, List.find?_cons, same]
      cases other.name == name <;> rfl
    next differs =>
      rw [List.find?_cons, List.find?_cons, ih]
      by_cases isOther : other.name = name
      · have isNew : (format.name == name) = false := beq_eq_false_iff_ne.2 (isOther ▸ differs)
        rw [isNew, isOther, beq_self_eq_true]
        rfl
      · rw [beq_eq_false_iff_ne.2 isOther]

theorem get?_register (registry : Registry) (format : Format) (name : String) :
    (registry.register format).get? name = if format.name == name then some format else registry.get? name :=
  find?_insert format registry.formats name

theorem isSome_get?_iff_mem_names : (registry.get? name).isSome = true ↔ name ∈ registry.names := by
  simp [get?, names, List.find?_isSome]

theorem find?_reverse_eq_some_iff :
    held.reverse.find? (·.name == name) = some format ↔ IsLast held name format := by
  rw [List.find?_eq_some_iff_append]
  simp only [beq_iff_eq, Bool.not_eq_true', beq_eq_false_iff_ne]
  constructor
  · rintro ⟨named, behind, before, split, others⟩
    refine ⟨before.reverse, behind.reverse, ?_, named, fun other known => others other (List.mem_reverse.1 known)⟩
    rw [← List.reverse_reverse held, split]
    simp
  · rintro ⟨before, behind, rfl, named, others⟩
    exact ⟨named, behind.reverse, before.reverse, by simp, fun other known => others other (List.mem_reverse.1 known)⟩

theorem isSome_find?_reverse_iff :
    (held.reverse.find? (·.name == name)).isSome = true ↔ IsNamed held name := by
  simp [List.find?_isSome, IsNamed]

/-! ### Runs -/

/-- The formats of the registry are in order, and it finds the last of a name. -/
structure Reflects (registry : Registry) (held : List Format) : Prop where
  sorted : registry.formats.Pairwise (·.name < ·.name)
  finds : ∀ name, registry.get? name = held.reverse.find? (·.name == name)

theorem reflects_empty : empty.Reflects [] := ⟨.nil, fun _ => rfl⟩

theorem Reflects.register (reflects : registry.Reflects held) (format : Format) :
    (registry.register format).Reflects (held ++ [format]) := by
  refine ⟨pairwise_insert reflects.sorted, fun name => ?_⟩
  rw [get?_register, reflects.finds, List.reverse_append, List.reverse_singleton, List.singleton_append,
    List.find?_cons]
  cases format.name == name <;> rfl

theorem Reflects.after (reflects : registry.Reflects held) (call : Call) :
    (registry.after call).Reflects (held ++ registered [call]) := by
  cases call with
  | register format => exact reflects.register format
  | has | describe | list | render => exact (List.append_nil held).symm ▸ reflects

theorem Reflects.afterAll (reflects : registry.Reflects held) (calls : List Call) :
    (registry.afterAll calls).Reflects (held ++ registered calls) := by
  induction calls generalizing registry held with
  | nil => rwa [registered, List.filterMap_nil, List.append_nil]
  | cons call calls ih =>
    have split : registered ([call] ++ calls) = registered [call] ++ registered calls := List.filterMap_append
    rw [List.singleton_append] at split
    rw [split, ← List.append_assoc]
    exact ih (reflects.after call)

theorem Reflects.holds (reflects : registry.Reflects held) : registry.Holds held where
  increasing := List.pairwise_map.2 (reflects.sorted.imp utf8Bytes_lt)
  mem_names_iff := by
    intro name
    rw [← isSome_get?_iff_mem_names, reflects.finds, isSome_find?_reverse_iff]
  has_iff := isSome_get?_iff_mem_names
  isSome_get?_iff := isSome_get?_iff_mem_names
  get?_iff := by
    intro name format
    rw [reflects.finds, find?_reverse_eq_some_iff]

theorem Holds.get?_eq_none (holds : registry.Holds held) (nothing : registry.get? name = none) :
    ¬IsNamed held name := by
  rw [← holds.mem_names_iff, ← holds.isSome_get?_iff, nothing]
  nofun

theorem Holds.answers (holds : registry.Holds held) (call : Call) :
    Answers held call (registry.answer call) := by
  cases call with
  | register format => exact .register
  | has name => exact .has (holds.has_iff.trans holds.mem_names_iff)
  | describe name =>
    simp only [answer]
    cases found : registry.get? name with
    | none => exact .noDescription (holds.get?_eq_none found)
    | some format => exact .description (holds.get?_iff.1 found)
  | list => exact .names holds.increasing fun _ => holds.mem_names_iff
  | render name source spans =>
    simp only [answer, Registry.render]
    cases found : registry.get? name with
    | none => exact .notFound (holds.get?_eq_none found)
    | some format => exact .output (holds.get?_iff.1 found)

theorem getElem?_answers {calls : List Call} {index : Nat} (isCall : calls[index]? = some call) :
    (registry.answers calls)[index]? = some ((registry.afterAll (calls.take index)).answer call) := by
  induction calls generalizing registry index with
  | nil => cases isCall
  | cons first calls ih =>
    cases index with
    | zero =>
      cases isCall
      rfl
    | succ index => exact ih isCall

theorem after_of_asks (asks : call.format? = none) : registry.after call = registry := by
  rw [after, asks]

theorem answers_eraseIdx {calls : List Call} {index : Nat} (isCall : calls[index]? = some call)
    (asks : call.format? = none) :
    registry.answers (calls.eraseIdx index) = (registry.answers calls).eraseIdx index := by
  induction calls generalizing registry index with
  | nil => cases isCall
  | cons first calls ih =>
    cases index with
    | zero =>
      cases isCall
      rw [answers, after_of_asks asks]
      rfl
    | succ index => exact congrArg (List.cons _) (ih isCall)

theorem Start.reflects (start : Start) : start.registry.Reflects start.formats := by
  cases start with
  | empty => exact reflects_empty
  | standard =>
    exact (((reflects_empty.register .json).register .yaml).register (.html Markup.defaultClass)).register .tree

/-- After any run, a registry holds the formats of its beginning and those registered since. Every call on the
way is answered by those registered until then, and without a call that only asks the others are answered the
same. -/
theorem run_answers (start : Start) (calls : List Call) :
    (start.registry.afterAll calls).Holds (start.formats ++ registered calls) ∧
      ∀ index call, calls[index]? = some call →
        (∃ answer, (start.registry.answers calls)[index]? = some answer ∧
          Answers (start.formats ++ registered (calls.take index)) call answer) ∧
        (call.format? = none →
          start.registry.answers (calls.eraseIdx index) = (start.registry.answers calls).eraseIdx index) := by
  refine ⟨(start.reflects.afterAll calls).holds, fun index call isCall => ⟨?_, answers_eraseIdx isCall⟩⟩
  have holds := (start.reflects.afterAll (calls.take index)).holds
  exact ⟨_, getElem?_answers isCall, holds.answers call⟩

/-- Markup of another class takes the place of the markup there was, and a call that fails does not matter. -/
theorem run_answers_replaced :
    [Call.register (.html "hl"), .render "none" [] [], .render "html" [] []][2]? =
        some (.render "html" [] []) ∧
      ∃ answer, (Registry.standard.answers
          [.register (.html "hl"), .render "none" [] [], .render "html" [] []])[2]? = some answer ∧
        Answers [.json, .yaml, .html Markup.defaultClass, .tree, .html "hl"] (.render "html" [] []) answer :=
  ⟨rfl, ((run_answers .standard [.register (.html "hl"), .render "none" [] [], .render "html" [] []]).2 2 _ rfl).1⟩

end Highlighter.Registry
