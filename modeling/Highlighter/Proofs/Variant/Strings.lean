import Highlighter.Proofs.Variant.Grammar

/-!
The grammar of strings. A string is read on from its quote in units: an escape, which may be that of a
carriage return with the line feed behind it, or any other character. It ends with the first unit that is the
quote again, if no unit before is a bare line break. Wherever no span goes on over the place, a string begins
if and only if the grammar has one there (`Variant.strings_iff`).
-/

set_option autoImplicit false

namespace Highlighter

namespace Variant

/-! ### The grammar -/

/-- All through the closing quote, if there is one before the line ends. -/
def throughQuote? (quote : Char) : List Char → Option (List Char)
  | '\\' :: '\r' :: '\n' :: rest => (throughQuote? quote rest).map ('\\' :: '\r' :: '\n' :: ·)
  | '\\' :: c :: rest => (throughQuote? quote rest).map ('\\' :: c :: ·)
  | '\\' :: [] => none
  | c :: rest =>
    if c = quote then some [c]
    else if c = '\r' ∨ c = '\n' then none
    else (throughQuote? quote rest).map (c :: ·)
  | [] => none

/-- What has been read makes no difference. -/
def string? : Grammar
  | _, c :: rest => if c = '"' ∨ c = '\'' then (throughQuote? c rest).map (c :: ·) else none
  | _, [] => none

open Pattern Outcomes

variable {variant : Variant} {text read rest token : List Char} {c quote : Char} {plain : CharSet}
  {reach mid later : Reach} {found : Match} {place : Place}

/-! ### Units -/

/-- The quote may begin a string, and the plain characters are all others that are a unit by themselves. -/
structure Quotes (quote : Char) (plain : CharSet) : Prop where
  noEscape : quote ≠ '\\'
  noReturn : quote ≠ '\r'
  noFeed : quote ≠ '\n'
  plain_iff : ∀ c, plain.contains c = true ↔ c ≠ quote ∧ c ≠ '\\' ∧ c ≠ '\r' ∧ c ≠ '\n'

def unitOf (plain : CharSet) : Pattern :=
  .alt (.seq (.literal ['\\']) (.alt (.literal ['\r', '\n']) (.set ⟨[(0, 1114111)]⟩))) (.set plain)

inductive IsUnit (plain : CharSet) : List Char → Prop where
  | lineBreak : IsUnit plain ['\\', '\r', '\n']
  | escape (c : Char) : IsUnit plain ['\\', c]
  | plain {c : Char} (contains : plain.contains c = true) : IsUnit plain [c]

theorem exists_unit (known : mid ∈ (unitOf plain).outcomes reach) :
    ∃ unit, reach.place.Takes unit mid.place ∧ IsUnit plain unit := by
  rcases List.mem_append.1 known with escaped | single
  · obtain ⟨first, isFirst, isSecond⟩ := List.mem_flatMap.1 escaped
    have escape := takes_of_through? (Option.mem_toList.1 isFirst)
    rcases List.mem_append.1 isSecond with lineBreak | any
    · exact ⟨_, escape.trans (takes_of_through? (Option.mem_toList.1 lineBreak)), .lineBreak⟩
    · obtain ⟨c, rest, follows, _, rfl⟩ := exists_of_behind? (Option.mem_toList.1 any)
      exact ⟨_, escape.trans (Place.takes_past follows), .escape c⟩
  · obtain ⟨c, rest, follows, contains, rfl⟩ := exists_of_behind? (Option.mem_toList.1 single)
    exact ⟨[c], Place.takes_past follows, .plain contains⟩

theorem exists_mem_unitOf {unit : List Char} (isUnit : IsUnit plain unit)
    (follows : reach.place.rest = unit ++ rest) :
    ∃ mid ∈ (unitOf plain).outcomes reach, reach.place.Takes unit mid.place := by
  cases isUnit with
  | lineBreak =>
    obtain ⟨first, isFirst, escape⟩ := @exists_through? reach ['\\'] _ follows
    have behind : first.place.rest = ['\r', '\n'] ++ rest :=
      List.append_cancel_left (escape.split.symm.trans follows)
    obtain ⟨mid, isMid, lineBreak⟩ := exists_through? behind
    refine ⟨mid, List.mem_append_left _ (List.mem_flatMap.2 ?_), escape.trans lineBreak⟩
    exact ⟨first, Option.mem_toList.2 isFirst, List.mem_append_left _ (Option.mem_toList.2 isMid)⟩
  | escape c =>
    obtain ⟨first, isFirst, escape⟩ := @exists_through? reach ['\\'] _ follows
    have behind : first.place.rest = c :: rest :=
      List.append_cancel_left (escape.split.symm.trans follows)
    refine ⟨{ first with place := first.place.past c rest },
      List.mem_append_left _ (List.mem_flatMap.2 ⟨first, Option.mem_toList.2 isFirst, ?_⟩),
      escape.trans (Place.takes_past behind)⟩
    refine List.mem_append_right _ (Option.mem_toList.2 (behind?_eq_some behind ?_))
    rw [CharSet.contains_iff_has (by decide)]
    exact ⟨_, List.mem_singleton.2 rfl, Nat.zero_le _, toNat_le c⟩
  | plain contains =>
    refine ⟨_, List.mem_append_right _ (Option.mem_toList.2 (behind?_eq_some follows contains)), ?_⟩
    exact Place.takes_past follows

theorem throughQuote?_append (quotes : Quotes quote plain) {unit : List Char} (isUnit : IsUnit plain unit)
    (isToken : throughQuote? quote rest = some token) :
    throughQuote? quote (unit ++ rest) = some (unit ++ token) := by
  cases isUnit with
  | lineBreak => simp [throughQuote?, isToken]
  | escape c =>
    -- No unit is a bare line feed, so none follows.
    have noBreak (more : List Char) (_ : c = '\r') (feed : rest = '\n' :: more) : False := by
      rw [feed, throughQuote?] at isToken
      · simp [quotes.noFeed.symm] at isToken
      all_goals simp
    change throughQuote? quote ('\\' :: c :: rest) = _
    rw [throughQuote?, isToken]
    · rfl
    · exact noBreak
  | @plain c contains =>
    obtain ⟨noQuote, noEscape, noReturn, noFeed⟩ := (quotes.plain_iff c).1 contains
    change throughQuote? quote (c :: rest) = _
    rw [throughQuote?, isToken]
    · simp [noQuote, noReturn, noFeed]
    all_goals simp [noEscape]

/-- The text begins with the quote, or else with a unit. -/
theorem exists_of_throughQuote? (quotes : Quotes quote plain)
    (isToken : throughQuote? quote text = some token) :
    (∃ rest, text = quote :: rest) ∨ ∃ unit rest token, IsUnit plain unit ∧ text = unit ++ rest ∧
      throughQuote? quote rest = some token := by
  unfold throughQuote? at isToken
  split at isToken
  · next rest =>
    obtain ⟨token, isToken, _⟩ := Option.map_eq_some_iff.1 isToken
    exact .inr ⟨_, rest, token, .lineBreak, rfl, isToken⟩
  · next c rest _ =>
    obtain ⟨token, isToken, _⟩ := Option.map_eq_some_iff.1 isToken
    exact .inr ⟨_, rest, token, .escape c, rfl, isToken⟩
  · cases isToken
  · next c rest _ noEscape noEnd =>
    split at isToken
    · next same => exact .inl ⟨rest, by rw [same]⟩
    split at isToken
    · cases isToken
    · next noQuote noBreak =>
      obtain ⟨token, isToken, _⟩ := Option.map_eq_some_iff.1 isToken
      refine .inr ⟨[c], rest, token, .plain ((quotes.plain_iff c).2 ⟨noQuote, ?_, ?_⟩), rfl, isToken⟩
      · rintro rfl
        cases rest with
        | nil => exact noEnd rfl rfl
        | cons d rest => exact noEscape d rest rfl rfl
      · exact not_or.1 noBreak
  · cases isToken

theorem throughQuote?_self (quotes : Quotes quote plain) :
    throughQuote? quote (quote :: rest) = some [quote] := by
  rw [throughQuote?]
  · simp
  all_goals simp [quotes.noEscape]

theorem throughQuote?_of_upTo (quotes : Quotes quote plain) {count : Nat}
    (known : mid ∈ upTo (unitOf plain).outcomes true count reach)
    (ends : later ∈ (literal [quote]).outcomes mid) :
    ∃ token, throughQuote? quote reach.place.rest = some token ∧ reach.place.Takes token later.place := by
  have closes := takes_of_literal ends
  have closed : throughQuote? quote mid.place.rest = some [quote] := by
    rw [closes.split]
    exact throughQuote?_self quotes
  induction count generalizing reach with
  | zero =>
    cases List.mem_singleton.1 known
    exact ⟨[quote], closed, closes⟩
  | succ count ih =>
    rcases mem_prefer.1 known with goesOn | leaves
    · obtain ⟨next, isFirst, others⟩ := List.mem_flatMap.1 goesOn
      obtain ⟨unit, takes, isUnit⟩ := exists_unit isFirst
      obtain ⟨token, isToken, further⟩ := ih others
      refine ⟨unit ++ token, ?_, takes.trans further⟩
      rw [takes.split]
      exact throughQuote?_append quotes isUnit isToken
    · cases List.mem_singleton.1 leaves
      exact ⟨[quote], closed, closes⟩

theorem exists_upTo_of_throughQuote? (quotes : Quotes quote plain) {count : Nat}
    (enough : reach.place.rest.length ≤ count)
    (isToken : throughQuote? quote reach.place.rest = some token) :
    ∃ mid ∈ upTo (unitOf plain).outcomes true count reach, ∃ later, later ∈ (literal [quote]).outcomes mid := by
  induction count generalizing reach token with
  | zero =>
    rw [List.length_eq_zero_iff.1 (Nat.le_zero.1 enough)] at isToken
    cases isToken
  | succ count ih =>
    rcases exists_of_throughQuote? quotes isToken with ⟨rest, closes⟩ | ⟨unit, rest, others, isUnit, split, isOthers⟩
    · exact ⟨reach, mem_prefer.2 (.inr (List.mem_singleton.2 rfl)), exists_mem_literal closes⟩
    · obtain ⟨next, isFirst, takes⟩ := exists_mem_unitOf isUnit split
      have behind : next.place.rest = rest := List.append_cancel_left (takes.split.symm.trans split)
      have shorter : next.place.rest.length ≤ count := by
        rw [split, List.length_append] at enough
        have nonempty : 0 < unit.length := by cases isUnit <;> simp
        rw [behind]
        omega
      obtain ⟨mid, known, ends⟩ := ih shorter (behind ▸ isOthers)
      exact ⟨mid, mem_prefer.2 (.inl (List.mem_flatMap.2 ⟨next, isFirst, known⟩)), ends⟩

/-! ### Tokens -/

theorem throughQuote?_of_quoted (quotes : Quotes quote plain)
    (known : later ∈ (quoted quote plain).outcomes reach) :
    ∃ rest token, reach.place.rest = quote :: rest ∧ throughQuote? quote rest = some token ∧
      reach.place.Takes (quote :: token) later.place := by
  obtain ⟨first, isFirst, others⟩ := List.mem_flatMap.1 known
  obtain ⟨mid, units, ends⟩ : ∃ mid ∈ (Pattern.rounds 0 none true (unitOf plain)).outcomes first,
      later ∈ (literal [quote]).outcomes mid := List.mem_flatMap.1 others
  have opens := takes_of_literal isFirst
  obtain ⟨count, _, same⟩ := exists_outcomes_eq_upTo (unitOf plain) true first
  rw [same] at units
  obtain ⟨token, isToken, takes⟩ := throughQuote?_of_upTo quotes units ends
  exact ⟨_, token, opens.split, isToken, opens.trans takes⟩

theorem exists_mem_quoted (quotes : Quotes quote plain) (opens : reach.place.rest = quote :: rest)
    (isToken : throughQuote? quote rest = some token) : ∃ later, later ∈ (quoted quote plain).outcomes reach := by
  obtain ⟨first, isFirst⟩ : ∃ later, later ∈ (literal [quote]).outcomes reach := exists_mem_literal opens
  have behind : first.place.rest = rest :=
    List.append_cancel_left ((takes_of_literal isFirst).split.symm.trans opens)
  obtain ⟨count, enough, same⟩ := exists_outcomes_eq_upTo (unitOf plain) true first
  obtain ⟨mid, units, later, ends⟩ := exists_upTo_of_throughQuote? quotes enough (behind ▸ isToken)
  rw [← same] at units
  exact ⟨later, List.mem_flatMap.2 ⟨first, isFirst, List.mem_flatMap.2 ⟨mid, units, ends⟩⟩⟩

theorem quotes_double : Quotes '"' ⟨[(0, 9), (11, 12), (14, 33), (35, 91), (93, 1114111)]⟩ where
  noEscape := by decide
  noReturn := by decide
  noFeed := by decide
  plain_iff c := by
    have bound := toNat_le c
    rw [CharSet.contains_iff_has (by decide)]
    simp only [CharSet.has_cons, CharSet.not_has_nil, or_false, ne_eq, eq_iff_toNat_eq, Char.reduceToNat]
    omega

theorem quotes_single : Quotes '\'' ⟨[(0, 9), (11, 12), (14, 38), (40, 91), (93, 1114111)]⟩ where
  noEscape := by decide
  noReturn := by decide
  noFeed := by decide
  plain_iff c := by
    have bound := toNat_le c
    rw [CharSet.contains_iff_has (by decide)]
    simp only [CharSet.has_cons, CharSet.not_has_nil, or_false, ne_eq, eq_iff_toNat_eq, Char.reduceToNat]
    omega

theorem finds_string {rule : Rule} (known : rule ∈ firstRules) (isString : rule.category = .string)
    (matched : Matches rule text found) :
    Grammar.Finds string? text found.start.offset found.stop.offset := by
  simp only [firstRules, List.mem_cons, List.not_mem_nil, or_false] at known
  rcases known with rfl | rfl | rfl | rfl
  · cases isString
  · cases isString
  · obtain ⟨inside, isMatch⟩ := matched
    obtain ⟨later, inPattern, isStart, isStop⟩ := RuleOf.exists_token rfl isMatch
    rw [RuleOf.freshStop_of_no_closing rfl] at isStop
    rw [isStart, isStop]
    obtain ⟨read, split, length, _⟩ := inside
    rcases List.mem_append.1 inPattern with double | single
    · obtain ⟨rest, token, opens, isToken, takes⟩ := throughQuote?_of_quoted quotes_double double
      refine ⟨read, _, _, split, length.symm, ?_, takes.offset.symm⟩
      rw [opens]
      simp [string?, isToken]
    · obtain ⟨rest, token, opens, isToken, takes⟩ := throughQuote?_of_quoted quotes_single single
      refine ⟨read, _, _, split, length.symm, ?_, takes.offset.symm⟩
      rw [opens]
      simp [string?, isToken]
  · cases isString

theorem exists_of_string? (isToken : string? read rest = some token) :
    ∃ quote others token, rest = quote :: others ∧ (quote = '"' ∨ quote = '\'') ∧
      throughQuote? quote others = some token := by
  unfold string? at isToken
  split at isToken
  · next c others =>
    split at isToken
    · next isQuote =>
      obtain ⟨token, isToken, _⟩ := Option.map_eq_some_iff.1 isToken
      exact ⟨c, others, token, rfl, isQuote, isToken⟩
    · cases isToken
  · cases isToken

theorem decides_string : Grammar.Decides string? .string where
  shared := rfl
  named := by decide
  sound := finds_string
  own := by
    intro rule text found read rest token known matched isStart isToken
    obtain ⟨quote, others, _, rfl, isQuote, _⟩ := exists_of_string? isToken
    obtain ⟨c, isHead, cases⟩ := exists_head_of_matches known matched
    rw [isStart] at isHead
    obtain rfl : quote = c := Option.some.inj isHead
    rcases cases with ⟨_, slash⟩ | ⟨isString, _⟩ | ⟨_, _, noDouble, noSingle⟩
    · rw [slash] at isQuote
      exact absurd isQuote (by decide)
    · exact isString
    · exact absurd isQuote (not_or.2 ⟨noDouble, noSingle⟩)
  reaches := by
    intro variant read rest token isToken _
    obtain ⟨quote, others, token, rfl, isQuote, isToken⟩ := exists_of_string? isToken
    refine ⟨stringRule, by simp [firstRules], ?_⟩
    have opens : ({ place := .behind read (quote :: others) } : Reach).place.rest = quote :: others := rfl
    obtain ⟨later, known⟩ : ∃ later, later ∈
        stringRule.opening.outcomes { place := .behind read (quote :: others) } := by
      rcases isQuote with rfl | rfl
      · obtain ⟨later, known⟩ := exists_mem_quoted quotes_double opens isToken
        exact ⟨later, List.mem_append_left _ known⟩
      · obtain ⟨later, known⟩ := exists_mem_quoted quotes_single opens isToken
        exact ⟨later, List.mem_append_right _ known⟩
    exact RuleOf.reaches_of_direct rfl (by decide) (by decide) (Place.behind_in _ _) known

/-- The strings of a text are those of the grammar, but for places that a span goes on over. -/
theorem strings_iff (variant : Variant) (text : List Char) :
    (∀ span ∈ Span.preorderAll (variant.table.classify text), span.category = .string →
      span ∈ variant.table.classify text ∧ span.children = [] ∧
        Grammar.Finds string? text span.start span.stop) ∧
    ∀ start, (∀ span ∈ variant.table.classify text, ¬span.Surrounds start) → ∀ stop,
      ⟨.string, start, stop, []⟩ ∈ variant.table.classify text ↔
        Grammar.Finds string? text start stop := by
  constructor
  · intro span known isString
    exact decides_string.of_mem_preorderAll known isString
  · intro start clear stop
    exact decides_string.mem_classify_iff clear

theorem strings_iff_escape :
    (∀ span ∈ v2.table.classify ['"', '\\', '"', '"', 'x'], ¬span.Surrounds 0) ∧
      ⟨.string, 0, 4, []⟩ ∈ Span.preorderAll (v2.table.classify ['"', '\\', '"', '"', 'x']) ∧
      Grammar.Finds string? ['"', '\\', '"', '"', 'x'] 0 4 := by
  have clear (span : Span) (_ : span ∈ v2.table.classify ['"', '\\', '"', '"', 'x']) : ¬span.Surrounds 0 :=
    fun surrounds => Nat.not_lt_zero _ surrounds.1
  have isSpan := ((strings_iff v2 ['"', '\\', '"', '"', 'x']).2 0 clear 4).2
    ⟨[], ['"', '\\', '"', '"', 'x'], ['"', '\\', '"', '"'], rfl, rfl, by decide, rfl⟩
  have known := mem_preorderAll isSpan
  exact ⟨clear, known, ((strings_iff v2 ['"', '\\', '"', '"', 'x']).1 _ known rfl).2.2⟩

end Variant

end Highlighter
