import Highlighter.Proofs.Variant.Words

/-!
The grammar of numbers. A number begins where no word goes on, with a digit or with a point and a digit. With a zero
and the letter of a base, it goes on to the end of the word if there is nothing else in that; otherwise it is read
as a decimal number, which may have a point, and behind that what the variant allows. Wherever no span goes on over
the place and no class name begins there, a number begins if and only if the grammar has one there
(`Variant.numbers_iff`).
-/

set_option autoImplicit false

namespace Highlighter

namespace Variant

open Pattern Lexer

/-! ### The grammar -/

def isDigitOrBar (c : Char) : Bool := c.isDigit || c == '_'

def isDigitOrPoint (c : Char) : Bool := c.isDigit || c == '.'

def isHexOrBar (c : Char) : Bool :=
  isDigitOrBar c || ('a' ≤ c && c ≤ 'f') || ('A' ≤ c && c ≤ 'F')

def digitsAndBars : Lexer := Lexer.many isDigitOrBar

def digits : Lexer := (one Char.isDigit).andThen digitsAndBars

def based : Lexer :=
  (one (· = '0')).andThen ((one ['B', 'O', 'X', 'b', 'o', 'x'].contains).andThen
    (Lexer.several isHexOrBar).beforeEdge)

def wholeNumber : Lexer :=
  (one Char.isDigit).andThen (digitsAndBars.andThen ((one (· = '.')).optional.andThen digitsAndBars))

def pointNumber : Lexer := (one (· = '.')).andThen digits

def exponentPart : Lexer :=
  (one ['E', 'e'].contains).andThen (((one ['+', '-'].contains).andThen digits).orElse digits)

/-- What may follow a decimal number, or nothing. -/
def numberTail : Variant → Lexer
  | .v1 => (one ['F', 'U', 'f', 'u'].contains).optional
  | .v2 => exponentPart.optional.andThen (one ['D', 'F', 'L', 'U', 'd', 'f', 'l', 'u'].contains).optional

def decimal (variant : Variant) : Lexer := (wholeNumber.orElse pointNumber).andThen variant.numberTail

def number? (variant : Variant) : Grammar := fun read rest =>
  if read.getLast?.any Unicode.isWord then none else based.orElse variant.decimal rest

/-- A digit or a point and a digit, and no word goes on before them. -/
structure BeginsNumber (read rest : List Char) : Prop where
  before : read.getLast?.any Unicode.isWord = false
  opens : (∃ c others, rest = c :: others ∧ c.isDigit = true) ∨
    ∃ c others, rest = '.' :: c :: others ∧ c.isDigit = true

variable {variant : Variant} {text read rest token : List Char} {reach later : Reach} {span : Span} {found : Match}

/-! ### Characters -/

theorem isDigit_iff (c : Char) : c.isDigit = true ↔ 48 ≤ c.toNat ∧ c.toNat ≤ 57 := by
  simp only [Char.isDigit, Bool.and_eq_true, decide_eq_true_eq, ge_iff_le, UInt32.le_iff_toNat_le]
  rfl

theorem isDigitOrBar_iff (c : Char) : isDigitOrBar c = true ↔ c.isDigit = true ∨ c.toNat = 95 := by
  rw [isDigitOrBar, Bool.or_eq_true, beq_iff_eq, eq_iff_toNat_eq]
  rfl

theorem isHexOrBar_iff (c : Char) : isHexOrBar c = true ↔ isDigitOrBar c = true ∨
    97 ≤ c.toNat ∧ c.toNat ≤ 102 ∨ 65 ≤ c.toNat ∧ c.toNat ≤ 70 := by
  simp only [isHexOrBar, Bool.or_eq_true, Bool.and_eq_true, decide_eq_true_eq, Char.le_def,
    UInt32.le_iff_toNat_le, or_assoc]
  rfl

theorem contains_digit : (⟨[(48, 57)]⟩ : CharSet).contains = Char.isDigit := by
  refine CharSet.contains_eq (by decide) fun c => ?_
  simp [isDigit_iff]

theorem contains_digitOrBar : (⟨[(48, 57), (95, 95)]⟩ : CharSet).contains = isDigitOrBar := by
  refine CharSet.contains_eq (by decide) fun c => ?_
  simp only [isDigitOrBar_iff, isDigit_iff, CharSet.has_cons, CharSet.not_has_nil, or_false]
  omega

theorem contains_hexOrBar :
    (⟨[(48, 57), (65, 70), (95, 95), (97, 102)]⟩ : CharSet).contains = isHexOrBar := by
  refine CharSet.contains_eq (by decide) fun c => ?_
  simp only [isHexOrBar_iff, isDigitOrBar_iff, isDigit_iff, CharSet.has_cons, CharSet.not_has_nil, or_false]
  omega

/-! ### Parts -/

theorem prefersAt_digits : PrefersAt (.seq digit moreDigits) digits reach :=
  (prefersAt_set contains_digit).andThen (fun _ => prefersAt_many contains_digitOrBar) (.inr (total_many _))

theorem prefersAt_whole : PrefersAt wholeDigits wholeNumber reach := by
  refine (prefersAt_set contains_digit).andThen (fun _ => ?_) (.inl length_outcomes_set)
  refine (prefersAt_many contains_digitOrBar).andThen (fun _ => ?_) (.inr ?_)
  · exact (prefersAt_char '.').optional.andThen (fun _ => prefersAt_many contains_digitOrBar) (.inr (total_many _))
  · exact (total_optional _).andThen (total_many _)

theorem prefersAt_point : PrefersAt pointDigits pointNumber reach :=
  (prefersAt_char '.').andThen (fun _ => prefersAt_digits) (.inl length_outcomes_literal)

theorem prefersAt_exponent : PrefersAt exponent exponentPart reach := by
  refine (prefersAt_set (CharSet.contains_letters ['E', 'e'] (by decide))).andThen (fun mid => ?_)
    (.inl length_outcomes_set)
  have signed : PrefersAt (.seq (.set ⟨[(43, 43), (45, 45)]⟩) (.seq digit moreDigits))
      ((one ['+', '-'].contains).andThen digits) mid :=
    (prefersAt_set (CharSet.contains_letters ['+', '-'] (by decide))).andThen (fun _ => prefersAt_digits)
      (.inl length_outcomes_set)
  exact (signed.orElse prefersAt_digits).congr (outcomes_optional_seq _ _ _)

theorem prefersAt_numberTail (variant : Variant) : PrefersAt variant.decimalTail variant.numberTail reach := by
  cases variant with
  | v1 => exact (prefersAt_set (CharSet.contains_letters ['F', 'U', 'f', 'u'] (by decide))).optional
  | v2 =>
    refine prefersAt_exponent.optional.andThen (fun _ => ?_) (.inr (total_optional _))
    exact (prefersAt_set (CharSet.contains_letters ['D', 'F', 'L', 'U', 'd', 'f', 'l', 'u'] (by decide))).optional

theorem total_numberTail (variant : Variant) : variant.numberTail.Total := by
  cases variant with
  | v1 => exact total_optional _
  | v2 => exact (total_optional _).andThen (total_optional _)

/-! ### Edges -/

theorem prefersAt_based (before : Anchor.wordBefore .unicode reach.place = false) :
    PrefersAt basedNumber based reach := by
  refine PrefersAt.edge ?_ before (by decide)
  refine (prefersAt_char '0').andThen (fun _ => ?_) (.inl length_outcomes_literal)
  refine (prefersAt_set (CharSet.contains_letters ['B', 'O', 'X', 'b', 'o', 'x'] (by decide))).andThen (fun _ => ?_)
    (.inl length_outcomes_set)
  exact prefersAt_several_edge contains_hexOrBar (by decide)

theorem prefersAt_decimal (before : Anchor.wordBefore .unicode reach.place = false) :
    PrefersAt variant.decimalNumber variant.decimal reach := by
  have whole : PrefersAt (.seq edge wholeDigits) wholeNumber reach := prefersAt_whole.edge before (by decide)
  have point : PrefersAt (.seq (.assert (.noWordEdge .unicode)) pointDigits) pointNumber reach := by
    refine prefersAt_point.congr (outcomes_assert_seq fun later known => ?_)
    obtain ⟨c, isHead, isPoint⟩ : ∃ c ∈ reach.place.rest.head?, (CharSet.single '.').Has c :=
      has_head_of_startsIn (by decide) known
    rw [CharSet.eq_of_has_single isPoint, Option.mem_def] at isHead
    rw [Anchor.holds, before, Anchor.wordAfter, isHead]
    rfl
  exact (whole.orElse point).andThen (fun _ => variant.prefersAt_numberTail) (.inr variant.total_numberTail)

/-- A number may begin only where no word goes on. -/
theorem wordBefore_of_number (known : later ∈ variant.numberToken.outcomes reach) :
    Anchor.wordBefore .unicode reach.place = false := by
  rcases List.mem_append.1 known with isBased | isDecimal
  · exact (clear_of_isWord (by decide) isBased).before
  · exact wordBefore_of_decimal isDecimal

theorem prefersAt_number (variant : Variant) (read rest : List Char) :
    PrefersAt variant.numberToken (variant.number? read) { place := .behind read rest } := by
  cases before : Anchor.wordBefore .unicode (.behind read rest) with
  | true =>
    have refused : variant.number? read = fun _ => none := funext fun _ => if_pos before
    rw [refused]
    refine ⟨nofun, fun _ => List.eq_nil_iff_forall_not_mem.2 fun later known => ?_⟩
    cases before.symm.trans (wordBefore_of_number known)
  | false =>
    have reads : variant.number? read = based.orElse variant.decimal :=
      funext fun _ => if_neg (Bool.eq_false_iff.1 before)
    rw [reads]
    exact (prefersAt_based before).orElse (prefersAt_decimal before)

abbrev numberRule (variant : Variant) : Rule := tokenRule .number variant.number variant.numberToken true

theorem reads_number (variant : Variant) : variant.number?.Reads variant.numberRule where
  direct := rfl
  noClosing := rfl
  advances := by cases variant <;> decide
  solid := by cases variant <;> decide
  prefers := variant.prefersAt_number

/-! ### Where numbers begin -/

theorem beginsNumber_of_number? (isToken : variant.number? read rest = some token) : BeginsNumber read rest := by
  unfold number? at isToken
  split at isToken
  · cases isToken
  · next before =>
    refine ⟨Bool.eq_false_iff.2 before, ?_⟩
    rcases Option.or_eq_some_iff.1 isToken with isBased | ⟨_, isDecimal⟩
    · obtain ⟨_, _, isZero, _⟩ := andThen_eq_some_iff.1 isBased
      obtain ⟨c, others, rfl, same, _⟩ := exists_of_one isZero
      rw [of_decide_eq_true same]
      exact .inl ⟨_, others, rfl, rfl⟩
    · obtain ⟨_, _, isNumber, _⟩ := andThen_eq_some_iff.1 isDecimal
      rcases Option.or_eq_some_iff.1 isNumber with isWhole | ⟨_, isPoint⟩
      · obtain ⟨_, _, isDigit, _⟩ := andThen_eq_some_iff.1 isWhole
        obtain ⟨c, others, rfl, isDigit, _⟩ := exists_of_one isDigit
        exact .inl ⟨c, others, rfl, isDigit⟩
      · obtain ⟨_, _, isPoint, isDigits, _⟩ := andThen_eq_some_iff.1 isPoint
        obtain ⟨c, others, rfl, same, rfl⟩ := exists_of_one isPoint
        obtain ⟨_, _, isDigit, _⟩ := andThen_eq_some_iff.1 isDigits
        obtain ⟨d, others, rfl, isDigit, _⟩ := exists_of_one isDigit
        rw [of_decide_eq_true same]
        exact .inr ⟨d, others, rfl, isDigit⟩

theorem exists_number? (begins : BeginsNumber read rest) : ∃ token, variant.number? read rest = some token := by
  have total : digitsAndBars.Total := total_many _
  obtain ⟨taken, isNumber⟩ : ∃ taken, wholeNumber.orElse pointNumber rest = some taken := by
    rcases begins.opens with ⟨c, others, rfl, isDigit⟩ | ⟨c, others, rfl, isDigit⟩
    · obtain ⟨taken, isWhole⟩ : ∃ taken, wholeNumber (c :: others) = some taken :=
        (total.andThen ((total_optional _).andThen total)).exists_andThen (one_cons isDigit others)
      exact ⟨taken, by rw [Lexer.orElse, isWhole, Option.some_or]⟩
    · obtain ⟨taken, isDigits⟩ : ∃ taken, digits (c :: others) = some taken :=
        total.exists_andThen (one_cons isDigit others)
      have isPoint : pointNumber ('.' :: c :: others) = some ('.' :: taken) :=
        andThen_eq_some_iff.2 ⟨['.'], taken, rfl, isDigits, rfl⟩
      have noWhole : wholeNumber ('.' :: c :: others) = none := rfl
      exact ⟨_, by rw [Lexer.orElse, noWhole, Option.none_or, isPoint]⟩
  obtain ⟨token, isDecimal⟩ : ∃ token, variant.decimal rest = some token :=
    variant.total_numberTail.exists_andThen isNumber
  rw [number?, if_neg (Bool.eq_false_iff.1 begins.before), Lexer.orElse, isDecimal]
  exact Option.isSome_iff_exists.1 (by simp)

theorem isSome_number?_iff : (variant.number? read rest).isSome ↔ BeginsNumber read rest := by
  rw [Option.isSome_iff_exists]
  exact ⟨fun ⟨_, isToken⟩ => beginsNumber_of_number? isToken, exists_number?⟩

theorem BeginsNumber.head (begins : BeginsNumber read rest) : rest.head?.any isDigitOrPoint = true := by
  rcases begins.opens with ⟨c, others, rfl, isDigit⟩ | ⟨c, others, rfl, _⟩
  · exact Bool.or_eq_true_iff.2 (.inl isDigit)
  · rfl

theorem head_of_wordAmong? {words : List String} (plain : ArePlain words)
    (letters : ∀ word ∈ words, word.toList.head?.any isDigitOrPoint = false)
    (isToken : wordAmong? words read rest = some token) : rest.head?.any isDigitOrPoint = false := by
  obtain ⟨⟨word, known, rfl⟩, _, more, rfl, _⟩ := (wordAmong?_eq_some_iff plain).1 isToken
  have letter := letters word known
  obtain ⟨c, others, spelled⟩ := List.exists_cons_of_ne_nil (plain word known).1
  rw [spelled] at letter ⊢
  exact letter

/-- Of the rules tried before operators, only two have tokens that begin as a number does. -/
theorem eq_numberRule {rule : Rule}
    (known : rule ∈ firstRules ++ [variant.keywordRule, booleanRule, variant.numberRule])
    (matched : Matches rule text found) (isStart : found.start = .behind read rest)
    (begins : BeginsNumber read rest) : rule.category = .className ∨ rule = variant.numberRule := by
  have opens := begins.head
  rcases List.mem_append.1 known with isFirst | isOther
  · obtain ⟨c, isHead, cases⟩ := exists_head_of_matches isFirst matched
    rw [isStart] at isHead
    have isHead : rest.head? = some c := isHead
    rw [isHead] at opens
    rcases cases with ⟨_, rfl⟩ | ⟨_, rfl | rfl⟩ | ⟨isClass, _⟩
    · exact absurd opens (by decide)
    · exact absurd opens (by decide)
    · exact absurd opens (by decide)
    · exact .inl isClass
  · simp only [List.mem_cons, List.not_mem_nil, or_false] at isOther
    rcases isOther with rfl | rfl | rfl
    · obtain ⟨_, others, _, _, isOwn, isToken, _⟩ := variant.reads_keyword.exists_token matched
      obtain rfl : rest = others := congrArg Place.rest (isStart.symm.trans isOwn)
      have letters : ∀ word ∈ variant.keywords, word.toList.head?.any isDigitOrPoint = false := by
        cases variant <;> decide +kernel
      cases opens.symm.trans (head_of_wordAmong? variant.plain_keywords letters isToken)
    · obtain ⟨_, others, _, _, isOwn, isToken, _⟩ := reads_boolean.exists_token matched
      obtain rfl : rest = others := congrArg Place.rest (isStart.symm.trans isOwn)
      cases opens.symm.trans (head_of_wordAmong? (by decide +kernel) (by decide +kernel) isToken)
    · exact .inr rfl

theorem rules_number (variant : Variant) : variant.table.rules =
    (firstRules ++ [variant.keywordRule, booleanRule, variant.numberRule]) ++ variant.otherRules.drop 3 :=
  variant.rules_table

theorem exists_of_number (known : span ∈ Span.preorderAll (variant.table.classify text))
    (isNumber : span.category = .number) :
    span ∈ variant.table.classify text ∧ ∃ found, Matches variant.numberRule text found ∧
      span = ⟨.number, found.start.offset, found.stop.offset, []⟩ :=
  exists_match_of_mem_preorderAll (rulesOf_table rfl) rfl (by decide) known isNumber

/-- The numbers of a text are those of the grammar, but for places that a span goes on over or where a class name
begins. The grammar has one wherever a digit stands, or a point and a digit, and no word goes on. -/
theorem numbers_iff (variant : Variant) (text : List Char) :
    (∀ span ∈ Span.preorderAll (variant.table.classify text), span.category = .number →
      span ∈ variant.table.classify text ∧ span.children = []) ∧
    (∀ read rest, (variant.number? read rest).isSome ↔ BeginsNumber read rest) ∧
    ∀ start stop, ⟨.number, start, stop, []⟩ ∈ variant.table.classify text ↔
      (∀ span ∈ variant.table.classify text,
        ¬span.Surrounds start ∧ (span.category = .className → span.start ≠ start)) ∧
      Grammar.Finds variant.number? text start stop := by
  refine ⟨fun span known isNumber => ?_, fun _ _ => isSome_number?_iff, fun start stop => ⟨fun known => ?_, ?_⟩⟩
  · obtain ⟨top, found, _, rfl⟩ := exists_of_number known isNumber
    exact ⟨top, rfl⟩
  · obtain ⟨_, found, matched, isSpan⟩ := exists_of_number (mem_preorderAll known) rfl
    cases isSpan
    refine ⟨fun span isSpan => ⟨RuleTable.not_surrounds_start known span isSpan, ?_⟩,
      variant.reads_number.finds matched⟩
    intro isClass here
    rw [RuleTable.eq_of_start_eq known isSpan here] at isClass
    cases isClass
  · rintro ⟨clear, finds⟩
    obtain ⟨read, rest, token, rfl, rfl, isToken, _⟩ := id finds
    obtain ⟨other, isKept, found, matched, isStart, known⟩ := exists_span_of_reaches variant.rules_number
      (fun _ isOther => not_greedy_of_otherRules (List.mem_of_mem_drop isOther)) (by simp)
      (Place.behind_in read rest) (variant.reads_number.reaches isToken) fun span known => (clear span known).1
    have here : found.start.offset = byteLength read := by
      rw [isStart]
      rfl
    -- A span begins here; of the rules not behind that of numbers, only class names have such a start.
    rcases eq_numberRule isKept matched isStart (beginsNumber_of_number? isToken) with isClass | rfl
    · exact absurd (start_spanOf.trans here) ((clear _ known).2 isClass)
    · have stops := (here ▸ variant.reads_number.finds matched).eq finds
      rwa [spanOf_of_plain rfl, here, stops] at known

/-- The letter of a base makes no number of a word that goes on, but its zero is one. -/
theorem numbers_iff_zero :
    ⟨.number, 0, 1, []⟩ ∈ Span.preorderAll (v1.table.classify ['0', 'x', '1', 'g']) ∧
      ⟨.number, 0, 1, []⟩ ∈ v1.table.classify ['0', 'x', '1', 'g'] ∧
      Grammar.Finds v1.number? ['0', 'x', '1', 'g'] 0 1 := by
  have spans : v1.table.classify ['0', 'x', '1', 'g'] = [⟨.number, 0, 1, []⟩] := by
    rw [RuleTable.classify_of_rules v1.rules_table]
    rfl
  have known : ⟨.number, 0, 1, []⟩ ∈ Span.preorderAll (v1.table.classify ['0', 'x', '1', 'g']) := by
    rw [spans]
    exact List.mem_cons_self
  have top := ((numbers_iff v1 ['0', 'x', '1', 'g']).1 _ known rfl).1
  exact ⟨known, top, (((numbers_iff v1 ['0', 'x', '1', 'g']).2.2 0 1).1 top).2⟩

end Variant

end Highlighter
