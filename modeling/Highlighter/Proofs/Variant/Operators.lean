import Highlighter.Proofs.Pattern.Language
import Highlighter.Proofs.Variant.Tokens

/-!
Operators. Each is a character that no other begins with, and perhaps some that may follow it. Where all that can
follow is taken, no operator is longer (`Variant.length_le_of_oneEach`); so it is for all of them but the question
mark, which never takes the equals sign behind it (`Variant.operators_longest`).
-/

set_option autoImplicit false

namespace Highlighter

namespace Variant

open Pattern Lexer

/-- A character and those that may follow it, one after the other. They are taken where they follow if `eager`, or
else only where that is needed. -/
structure OperatorForm where
  first : Char
  others : List Char
  eager : Bool := true
  deriving DecidableEq

def maybe (eager : Bool) (c : Char) : Pattern := .rounds 0 (some 1) eager (.literal [c])

def OperatorForm.pattern (form : OperatorForm) : Pattern :=
  sequence (.literal [form.first] :: form.others.map (maybe form.eager))

def operatorForms (variant : Variant) : List OperatorForm :=
  (match variant with
    | .v1 => [{ first := '@', others := [] }]
    | .v2 => []) ++
  [{ first := '-', others := ['-'] }, { first := '+', others := ['+'] }, { first := '!', others := ['=', '='] },
    { first := '<', others := ['='] }, { first := '>', others := ['='] }, { first := '=', others := ['=', '='] },
    { first := '&', others := ['&'] }, { first := '|', others := ['|'] },
    { first := '?', others := ['='], eager := false }, { first := '*', others := ['*'] },
    { first := '/', others := [] }, { first := '~', others := [] }, { first := '^', others := [] },
    { first := '%', others := [] }]

theorem operatorToken_eq (variant : Variant) :
    variant.operatorToken = alternatives (variant.operatorForms.map OperatorForm.pattern) := by
  cases variant <;> rfl

variable {variant : Variant} {text rest taken word : List Char} {others : List Char} {eager : Bool} {span : Span}
  {reach : Reach}

/-! ### What operators there are -/

theorem language_maybe (eager : Bool) (c : Char) : (maybe eager c).language = 1 + {[c]} := by
  simp [maybe, language]

theorem mem_language_maybes : word ∈ (sequence (others.map (maybe eager))).language ↔ word.Sublist others := by
  rw [language_sequence]
  induction others generalizing word with
  | nil => simp
  | cons c others ih =>
    rw [List.map_cons, List.map_cons, List.prod_cons, language_maybe, add_mul, one_mul, Language.mem_add, ih,
      List.sublist_cons_iff, Language.mem_mul]
    refine or_congr_right ⟨?_, ?_⟩
    · rintro ⟨_, rfl, more, known, rfl⟩
      exact ⟨more, rfl, ih.1 known⟩
    · rintro ⟨more, rfl, known⟩
      exact ⟨[c], rfl, more, ih.2 known, rfl⟩

theorem mem_language_form (form : OperatorForm) : word ∈ form.pattern.language ↔
    ∃ more, more.Sublist form.others ∧ word = form.first :: more := by
  have parts : form.pattern.language = {[form.first]} * (sequence (form.others.map (maybe form.eager))).language :=
    language_followedBy _ _
  rw [parts, Language.mem_mul]
  constructor
  · rintro ⟨_, rfl, more, known, rfl⟩
    exact ⟨more, mem_language_maybes.1 known, rfl⟩
  · rintro ⟨more, known, rfl⟩
    exact ⟨[form.first], rfl, more, mem_language_maybes.2 known, rfl⟩

theorem mem_language_operator : word ∈ variant.operatorToken.language ↔
    ∃ form ∈ variant.operatorForms, ∃ more, more.Sublist form.others ∧ word = form.first :: more := by
  simp only [operatorToken_eq, mem_language_alternatives, List.mem_map, exists_exists_and_eq_and,
    mem_language_form]

/-! ### What is taken -/

/-- Each of these if it comes next, or none of them if not `eager`. -/
def oneEach (eager : Bool) : List Char → Lexer
  | [] => nothing
  | c :: others => (if eager then (one (· = c)).optional else nothing).andThen (oneEach eager others)

def OperatorForm.lexer (form : OperatorForm) : Lexer :=
  (one (· = form.first)).andThen (oneEach form.eager form.others)

def operator? (variant : Variant) : Lexer := firstOf (variant.operatorForms.map OperatorForm.lexer)

theorem total_oneEach (eager : Bool) (others : List Char) : (oneEach eager others).Total := by
  induction others with
  | nil => exact fun _ => Option.some_ne_none _
  | cons c others ih =>
    cases eager with
    | true => exact (total_optional _).andThen ih
    | false => exact Total.andThen (fun _ => Option.some_ne_none _) ih

theorem prefersAt_oneEach (eager : Bool) (others : List Char) (reach : Reach) :
    PrefersAt (sequence (others.map (maybe eager))) (oneEach eager others) reach := by
  induction others generalizing reach with
  | nil => exact prefersAt_empty
  | cons c others ih =>
    have first : PrefersAt (maybe eager c) (if eager then (one (· = c)).optional else nothing) reach := by
      cases eager with
      | true => exact (prefersAt_char c).optional
      | false => exact prefersAt_lazy _
    exact (first.andThen ih (.inr (total_oneEach eager others))).congr (outcomes_followedBy _ _ _)

theorem prefersAt_form (form : OperatorForm) : PrefersAt form.pattern form.lexer reach := by
  have first : PrefersAt (.literal [form.first]) (one (· = form.first)) reach := prefersAt_char form.first
  exact (first.andThen (prefersAt_oneEach form.eager form.others) (.inl length_outcomes_literal)).congr
    (outcomes_followedBy _ _ _)

abbrev operatorRule (variant : Variant) : Rule :=
  tokenRule .operator variant.operator variant.operatorToken false

theorem reads_operator (variant : Variant) : Grammar.Reads (fun _ => variant.operator?) variant.operatorRule where
  direct := rfl
  noClosing := rfl
  advances := by cases variant <;> decide
  solid := by cases variant <;> decide
  prefers := by
    intro read rest
    show PrefersAt variant.operatorToken _ _
    rw [operatorToken_eq]
    exact prefersAt_alternatives prefersAt_form variant.operatorForms

theorem oneEach_false (others rest : List Char) : oneEach false others rest = some [] := by
  induction others with
  | nil => rfl
  | cons c others ih => exact andThen_eq_some_iff.2 ⟨[], [], rfl, ih, rfl⟩

/-- Nothing longer than what is taken of the text could be. -/
theorem length_le_of_oneEach (isTaken : oneEach true others rest = some taken) (known : word.Sublist others)
    (begins : word <+: rest) : word.length ≤ taken.length := by
  induction others generalizing word rest taken with
  | nil => simp [List.sublist_nil.1 known]
  | cons c others ih =>
    obtain ⟨first, more, isFirst, isMore, rfl⟩ := andThen_eq_some_iff.1 isTaken
    rcases cons_or_endsRun (· = c) rest with ⟨d, rest, rfl, same⟩ | ends
    · obtain rfl : [d] = first := by
        rw [if_pos rfl, Lexer.optional, Lexer.orElse, one_cons same, Option.some_or] at isFirst
        exact Option.some.inj isFirst
      cases word with
      | nil => exact Nat.zero_le _
      | cons e word =>
        have shorter := ih isMore known.tail (List.cons_prefix_cons.1 begins).2
        exact Nat.succ_le_succ shorter
    · obtain rfl : [] = first := by
        rw [if_pos rfl, Lexer.optional, Lexer.orElse, one_eq_none ends, Option.none_or] at isFirst
        exact Option.some.inj isFirst
      rcases List.sublist_cons_iff.1 known with later | ⟨_, rfl, _⟩
      · exact ih isMore later begins
      · -- The text does not go on with this character.
        obtain ⟨_, rfl⟩ := begins
        exact absurd (ends c rfl) (by simp)

/-! ### The longest operator -/

theorem eq_of_first (variant : Variant) : ∀ form ∈ variant.operatorForms, ∀ other ∈ variant.operatorForms,
    other.first = form.first → other = form := by
  cases variant <;> decide

/-- The only one that is not eager. -/
theorem eager_or_eq (variant : Variant) : ∀ form ∈ variant.operatorForms,
    form.eager = true ∧ form.first ≠ '?' ∨ form = { first := '?', others := ['='], eager := false } := by
  cases variant <;> decide

theorem longest_of_operator? {token : List Char} (isToken : variant.operator? rest = some token) :
    token ≠ ['?', '='] ∧ ∀ word ∈ variant.operatorToken.language, word <+: rest →
      word = ['?', '='] ∨ word.length ≤ token.length := by
  obtain ⟨_, isLexer, isToken⟩ := exists_of_firstOf isToken
  obtain ⟨form, isForm, rfl⟩ := List.mem_map.1 isLexer
  obtain ⟨_, taken, isFirst, isTaken, rfl⟩ := andThen_eq_some_iff.1 isToken
  obtain ⟨c, rest, rfl, same, rfl⟩ := exists_of_one isFirst
  obtain rfl : c = form.first := of_decide_eq_true same
  -- No other form begins with this character.
  have more_of_word {word : List Char} (known : word ∈ variant.operatorToken.language)
      (begins : word <+: form.first :: rest) :
      ∃ more, more.Sublist form.others ∧ more <+: rest ∧ word = form.first :: more := by
    obtain ⟨other, isOther, more, inOthers, rfl⟩ := mem_language_operator.1 known
    obtain ⟨sameFirst, moreBegins⟩ := List.cons_prefix_cons.1 begins
    obtain rfl := variant.eq_of_first form isForm other isOther sameFirst
    exact ⟨more, inOthers, moreBegins, rfl⟩
  -- What may follow is taken if it is there, or never, for the question mark.
  rcases variant.eager_or_eq form isForm with ⟨eager, differs⟩ | rfl
  · rw [eager] at isTaken
    refine ⟨fun isMark => differs (List.cons.inj isMark).1, fun word known begins => .inr ?_⟩
    obtain ⟨more, inOthers, moreBegins, rfl⟩ := more_of_word known begins
    exact Nat.succ_le_succ (length_le_of_oneEach isTaken inOthers moreBegins)
  · obtain rfl : [] = taken := Option.some.inj ((oneEach_false _ _).symm.trans isTaken)
    refine ⟨nofun, fun word known begins => ?_⟩
    obtain ⟨more, inOthers, _, rfl⟩ := more_of_word known begins
    rcases List.sublist_cons_iff.1 inOthers with nothing | ⟨last, rfl, nothing⟩
    · exact .inr (by rw [List.sublist_nil.1 nothing]; exact Nat.le_refl _)
    · exact .inl (by rw [List.sublist_nil.1 nothing])

/-- What an operator covers is described by the pattern, and nothing longer that the text has there is, but for the
question mark with an equals sign, which is never covered as a whole. -/
theorem operators_longest (variant : Variant) (text : List Char) :
    ∀ span ∈ Span.preorderAll (variant.table.classify text), span.category = .operator →
      span ∈ variant.table.classify text ∧ span.children = [] ∧
      ∃ read token rest, text = read ++ (token ++ rest) ∧ byteLength read = span.start ∧
        span.start + byteLength token = span.stop ∧ token ∈ variant.operatorToken.language ∧
        token ≠ ['?', '='] ∧
        ∀ word ∈ variant.operatorToken.language, word <+: token ++ rest →
          word = ['?', '='] ∨ word.length ≤ token.length := by
  intro span known isOperator
  have own : variant.table.rulesOf .operator = [variant.operatorRule] := rulesOf_table rfl
  obtain ⟨top, found, matched, rfl⟩ := exists_match_of_mem_preorderAll own rfl (by decide) known isOperator
  obtain ⟨read, ahead, token, rfl, isStart, isToken, takes⟩ := variant.reads_operator.exists_token matched
  obtain ⟨later, inPattern, isContext, isStop⟩ := RuleOf.exists_token rfl matched.isMatch
  rw [RuleOf.freshStop_of_no_closing rfl] at isStop
  obtain ⟨taken, described, takesTaken⟩ := exists_mem_language inPattern
  -- The match that the grammar has is this one, so they take the same.
  rw [← isContext, ← isStop] at takesTaken
  obtain rfl : taken = token := List.append_cancel_right (takesTaken.split.symm.trans takes.split)
  obtain ⟨notMark, longest⟩ := longest_of_operator? isToken
  rw [isStart] at takes top ⊢
  have split : ahead = taken ++ found.stop.rest := takes.split
  rw [split] at longest
  exact ⟨top, rfl, read, taken, found.stop.rest, congrArg (read ++ ·) split, rfl, takes.offset.symm, described,
    notMark, longest⟩

theorem operators_longest_equals :
    ⟨.operator, 0, 3, []⟩ ∈ Span.preorderAll (v1.table.classify ['=', '=', '=']) ∧
      ∃ read token rest, ['=', '=', '='] = read ++ (token ++ rest) ∧ byteLength read = 0 ∧
        0 + byteLength token = 3 ∧ token ∈ v1.operatorToken.language ∧ token ≠ ['?', '='] ∧
        ∀ word ∈ v1.operatorToken.language, word <+: token ++ rest →
          word = ['?', '='] ∨ word.length ≤ token.length := by
  have spans : v1.table.classify ['=', '=', '='] = [⟨.operator, 0, 3, []⟩] := by
    rw [RuleTable.classify_of_rules v1.rules_table]
    rfl
  have known : ⟨.operator, 0, 3, []⟩ ∈ Span.preorderAll (v1.table.classify ['=', '=', '=']) := by
    rw [spans]
    exact List.mem_cons_self
  exact ⟨known, (operators_longest v1 ['=', '=', '='] _ known rfl).2.2⟩

/-- The pattern describes the question mark with an equals sign, and yet it is cut in two. -/
theorem operator_cut :
    v1.table.classify ['?', '='] = [⟨.operator, 0, 1, []⟩, ⟨.operator, 1, 2, []⟩] ∧
      ['?', '='] ∈ v1.operatorToken.language := by
  constructor
  · rw [RuleTable.classify_of_rules v1.rules_table]
    rfl
  · exact mem_language_operator.2
      ⟨{ first := '?', others := ['='], eager := false }, by decide, ['='], List.Sublist.refl _, rfl⟩

end Variant

end Highlighter
