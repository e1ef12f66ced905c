import Highlighter.Proofs.Variant.Tokens

/-!
Whole words. The characters of a listed word are characters of a word, so between two edges the pattern of the words
can take nothing but a word as a whole, whatever begins what (`Variant.mem_wordAmong_iff`). Every whole word of the
list is a keyword, unless a span of another category covers its start (`Variant.keywords_iff`). The words for
booleans are keywords too, and these are tried first.
-/

set_option autoImplicit false

namespace Highlighter

namespace Variant

open Pattern

/-- One of the words stands here, and no word goes on before it or behind it. -/
def HasWord (words : List String) (text : List Char) (start stop : Nat) : Prop :=
  ∃ word ∈ words, ∃ read rest, text = read ++ (word.toList ++ rest) ∧ byteLength read = start ∧
    start + byteLength word.toList = stop ∧ read.getLast?.any Unicode.isWord = false ∧
      rest.head?.any Unicode.isWord = false

/-- The word that begins here, if it is one of these. -/
def wordAmong? (words : List String) : Grammar := fun read rest =>
  if read.getLast?.any Unicode.isWord = false ∧ ∃ word ∈ words, word.toList = rest.takeWhile Unicode.isWord then
    some (rest.takeWhile Unicode.isWord)
  else none

/-- No word is empty, and all have word characters only. -/
def ArePlain (words : List String) : Prop :=
  ∀ word ∈ words, word.toList ≠ [] ∧ ∀ c ∈ word.toList, Unicode.isWord c = true

instance (words : List String) : Decidable (ArePlain words) :=
  decidable_of_iff (words.all fun word => !word.toList.isEmpty && word.toList.all Unicode.isWord)
    (by simp [ArePlain])

theorem plain_keywords (variant : Variant) : ArePlain variant.keywords := by
  cases variant <;> decide +kernel

variable {variant : Variant} {words : List String} {text read rest token : List Char} {start stop : Nat}
  {reach later : Reach} {rule : Rule} {found : Match} {span : Span}

/-! ### The grammar of words -/

theorem wordAmong?_eq_some_iff (plain : ArePlain words) : wordAmong? words read rest = some token ↔
    (∃ word ∈ words, word.toList = token) ∧ read.getLast?.any Unicode.isWord = false ∧
      ∃ more, rest = token ++ more ∧ more.head?.any Unicode.isWord = false := by
  unfold wordAmong?
  constructor
  · intro isToken
    split at isToken
    · next holds =>
      cases isToken
      refine ⟨holds.2, holds.1, rest.dropWhile Unicode.isWord, List.takeWhile_append_dropWhile.symm, ?_⟩
      exact any_head?_eq_false_iff.2 (endsRun_dropWhile _ _)
    · cases isToken
  · rintro ⟨⟨word, known, rfl⟩, before, more, rfl, after⟩
    have isRun := takeWhile_run (plain word known).2 (any_head?_eq_false_iff.1 after)
    rw [if_pos ⟨before, word, known, isRun.symm⟩, isRun]

theorem finds_wordAmong?_iff (plain : ArePlain words) :
    Grammar.Finds (wordAmong? words) text start stop ↔ HasWord words text start stop := by
  constructor
  · rintro ⟨read, rest, token, split, length, isToken, stops⟩
    obtain ⟨⟨word, known, rfl⟩, before, more, rfl, after⟩ := (wordAmong?_eq_some_iff plain).1 isToken
    exact ⟨word, known, read, more, split, length, stops, before, after⟩
  · rintro ⟨word, known, read, more, split, length, stops, before, after⟩
    exact ⟨read, _, word.toList, split, length,
      (wordAmong?_eq_some_iff plain).2 ⟨⟨word, known, rfl⟩, before, more, rfl, after⟩, stops⟩

/-! ### The pattern of words -/

theorem mem_wordAmong_iff (plain : ArePlain words) : later ∈ (wordAmong words).outcomes reach ↔
    ∃ word ∈ words, later ∈ (literal word.toList).outcomes reach ∧ Clear .unicode reach.place later.place := by
  have edges {word : String} (known : word ∈ words) (inWord : later ∈ (literal word.toList).outcomes reach) :
      ((Anchor.wordEdge .unicode).holds reach.place = true ∧ (Anchor.wordEdge .unicode).holds later.place = true) ↔
        Clear .unicode reach.place later.place :=
    holds_edges_iff (takes_of_literal inWord) (plain word known).1 (plain word known).2
  constructor
  · intro known
    obtain ⟨first, opens, behind⟩ := List.mem_flatMap.1 known
    obtain ⟨last, inChoice, closes⟩ := List.mem_flatMap.1 behind
    obtain ⟨rfl, opens⟩ := mem_assert opens
    obtain ⟨rfl, closes⟩ := mem_assert closes
    obtain ⟨_, isChoice, inWord⟩ := mem_alternatives.1 inChoice
    obtain ⟨word, isWord, rfl⟩ := List.mem_map.1 isChoice
    exact ⟨word, isWord, inWord, (edges isWord inWord).1 ⟨opens, closes⟩⟩
  · rintro ⟨word, isWord, inWord, clear⟩
    obtain ⟨opens, closes⟩ := (edges isWord inWord).2 clear
    have inChoice : later ∈ (alternatives (words.map fun word => literal word.toList)).outcomes reach :=
      mem_alternatives.2 ⟨_, List.mem_map.2 ⟨word, isWord, rfl⟩, inWord⟩
    have atStart : reach ∈ edge.outcomes reach := mem_assert_self opens
    exact List.mem_flatMap.2 ⟨reach, atStart, List.mem_flatMap.2 ⟨later, inChoice, mem_assert_self closes⟩⟩

theorem prefersAt_wordAmong (plain : ArePlain words) (read rest : List Char) :
    PrefersAt (wordAmong words) (wordAmong? words read) { place := .behind read rest } := by
  have token_of_mem {later : Reach} (known : later ∈ (wordAmong words).outcomes { place := .behind read rest }) :
      ∃ token, wordAmong? words read rest = some token ∧ (Place.behind read rest).Takes token later.place := by
    obtain ⟨word, isWord, inWord, before, after⟩ := (mem_wordAmong_iff plain).1 known
    have takes := takes_of_literal inWord
    have isToken := (wordAmong?_eq_some_iff plain).2 ⟨⟨word, isWord, rfl⟩, before, _, takes.split, after⟩
    exact ⟨word.toList, isToken, takes⟩
  constructor
  · intro token isToken
    obtain ⟨⟨word, isWord, rfl⟩, before, more, split, after⟩ := (wordAmong?_eq_some_iff plain).1 isToken
    obtain ⟨later, inWord⟩ : ∃ later, later ∈ (literal word.toList).outcomes { place := .behind read rest } :=
      exists_mem_literal split
    have takes := takes_of_literal inWord
    have behind : later.place.rest = more := List.append_cancel_left (takes.split.symm.trans split)
    have clear : Clear .unicode (.behind read rest) later.place :=
      ⟨before, by rw [Anchor.wordAfter, behind]; exact after⟩
    -- The first outcome is a word too, and no other word stands here.
    obtain ⟨first, others, outcomes⟩ :=
      List.exists_cons_of_ne_nil (List.ne_nil_of_mem ((mem_wordAmong_iff plain).2 ⟨word, isWord, inWord, clear⟩))
    have isFirst : ((wordAmong words).outcomes { place := .behind read rest }).head? = some first := by
      rw [outcomes, List.head?_cons]
    obtain ⟨other, isOther, takesOther⟩ := token_of_mem (List.mem_of_head? isFirst)
    cases isOther.symm.trans isToken
    exact ⟨first, isFirst, takesOther⟩
  · intro fails
    refine List.eq_nil_iff_forall_not_mem.2 fun later known => ?_
    obtain ⟨token, isToken, _⟩ := token_of_mem known
    cases fails.symm.trans isToken

/-! ### Keywords and booleans -/

abbrev keywordRule (variant : Variant) : Rule := tokenRule .keyword variant.keyword variant.keywordToken false

abbrev booleanRule : Rule := tokenRule .boolean boolean booleanToken false

theorem reads_keyword (variant : Variant) : (wordAmong? variant.keywords).Reads variant.keywordRule where
  direct := rfl
  noClosing := rfl
  advances := by cases variant <;> decide
  solid := by cases variant <;> decide +kernel
  prefers := prefersAt_wordAmong variant.plain_keywords

theorem reads_boolean : (wordAmong? ["true", "false"]).Reads booleanRule where
  direct := rfl
  noClosing := rfl
  advances := by decide
  solid := by decide
  prefers := prefersAt_wordAmong (by decide +kernel)

theorem rules_keyword (variant : Variant) :
    variant.table.rules = (firstRules ++ [variant.keywordRule]) ++ variant.otherRules.tail := variant.rules_table

theorem category_of_mem_keyword (known : rule ∈ firstRules ++ [variant.keywordRule]) :
    rule = variant.keywordRule ∨ rule.category ≠ .keyword ∧ rule.category ≠ .boolean := by
  simp only [firstRules, List.cons_append, List.nil_append, List.mem_cons, List.not_mem_nil, or_false] at known
  rcases known with rfl | rfl | rfl | rfl | rfl
  · exact .inr ⟨by decide, by decide⟩
  · exact .inr ⟨by decide, by decide⟩
  · exact .inr ⟨by decide, by decide⟩
  · exact .inr ⟨by decide, by decide⟩
  · exact .inl rfl

theorem exists_of_keyword (known : span ∈ Span.preorderAll (variant.table.classify text))
    (isKeyword : span.category = .keyword) :
    span ∈ variant.table.classify text ∧ ∃ found, Matches variant.keywordRule text found ∧
      span = ⟨.keyword, found.start.offset, found.stop.offset, []⟩ :=
  exists_match_of_mem_preorderAll (rulesOf_table rfl) rfl (by decide) known isKeyword

/-- No keyword goes on over a place where a word may begin. -/
theorem not_keyword_of_surrounds (before : read.getLast?.any Unicode.isWord = false)
    (known : span ∈ variant.table.classify (read ++ rest)) (surrounds : span.Surrounds (byteLength read)) :
    span.category ≠ .keyword := by
  intro isKeyword
  obtain ⟨_, found, matched, rfl⟩ := exists_of_keyword (mem_preorderAll known) isKeyword
  obtain ⟨_, _, token, split, isStart, isToken, takes⟩ := variant.reads_keyword.exists_token matched
  obtain ⟨⟨word, isWord, rfl⟩, _⟩ := (wordAmong?_eq_some_iff variant.plain_keywords).1 isToken
  have startInside : found.start.In (read ++ rest) := by
    rw [isStart, split]
    exact Place.behind_in _ _
  have inWord : Anchor.wordBefore .unicode (.behind read rest) = true :=
    wordBefore_of_takes takes (variant.plain_keywords word isWord).2 startInside (Place.behind_in read rest)
      surrounds.1 (Nat.le_of_lt surrounds.2)
  cases before.symm.trans inWord

/-- The word for a boolean is a keyword as well, and the keyword is found first. -/
theorem not_boolean (known : span ∈ Span.preorderAll (variant.table.classify text)) :
    span.category ≠ .boolean := by
  intro isBoolean
  have own : variant.table.rulesOf .boolean = [booleanRule] := rulesOf_table rfl
  obtain ⟨top, found, matched, rfl⟩ := exists_match_of_mem_preorderAll own rfl (by decide) known isBoolean
  obtain ⟨read, rest, token, rfl, isStart, isToken, _⟩ := reads_boolean.exists_token matched
  obtain ⟨⟨word, isWord, same⟩, stands⟩ := (wordAmong?_eq_some_iff (by decide +kernel)).1 isToken
  have isKeyword : word ∈ variant.keywords := by
    simp only [List.mem_cons, List.not_mem_nil, or_false] at isWord
    rcases isWord with rfl | rfl
    · cases variant <;> decide
    · cases variant <;> decide
  have isToken := (wordAmong?_eq_some_iff variant.plain_keywords).2 ⟨⟨word, isKeyword, same⟩, stands⟩
  -- The rule of booleans stands behind that of keywords, so the span here is of one that stands before.
  obtain ⟨other, isKept, _, _, _, isSpan⟩ := exists_rule_of_reaches variant.rules_keyword
    (fun _ isOther => not_greedy_of_otherRules (List.mem_of_mem_tail isOther))
    (List.mem_append_right _ (List.mem_singleton_self _)) (Place.behind_in read rest)
    (variant.reads_keyword.reaches isToken) top (congrArg Place.offset isStart)
  have isCategory : other.category = .boolean := (congrArg Span.category isSpan).symm
  rcases category_of_mem_keyword isKept with rfl | ⟨_, differs⟩
  · cases isCategory
  · exact differs isCategory

/-- Every keyword of a text is a whole word of the list, and every whole word of the list is a keyword unless its
start is covered by a span of another category. There are no booleans. -/
theorem keywords_iff (variant : Variant) (text : List Char) :
    (∀ span ∈ Span.preorderAll (variant.table.classify text), span.category ≠ .boolean ∧
      (span.category = .keyword → span ∈ variant.table.classify text ∧ span.children = [] ∧
        HasWord variant.keywords text span.start span.stop)) ∧
    ∀ start stop, HasWord variant.keywords text start stop →
      ⟨.keyword, start, stop, []⟩ ∈ variant.table.classify text ∨
        ∃ span ∈ variant.table.classify text, span.category ≠ .keyword ∧ span.Covers start := by
  constructor
  · refine fun span known => ⟨not_boolean known, fun isKeyword => ?_⟩
    obtain ⟨top, found, matched, rfl⟩ := exists_of_keyword known isKeyword
    have finds := variant.reads_keyword.finds matched
    exact ⟨top, rfl, (finds_wordAmong?_iff variant.plain_keywords).1 finds⟩
  · intro start stop hasWord
    have finds := (finds_wordAmong?_iff variant.plain_keywords).2 hasWord
    obtain ⟨read, rest, token, rfl, rfl, isToken, _⟩ := id finds
    obtain ⟨_, before, _⟩ := (wordAmong?_eq_some_iff variant.plain_keywords).1 isToken
    -- A span that goes on over the start is of another category; otherwise a span begins here.
    by_cases covered : ∃ span ∈ variant.table.classify (read ++ rest), span.Surrounds (byteLength read)
    · obtain ⟨span, known, surrounds⟩ := covered
      exact .inr ⟨span, known, not_keyword_of_surrounds before known surrounds,
        Nat.le_of_lt surrounds.1, surrounds.2⟩
    · obtain ⟨other, isKept, found, matched, isStart, known⟩ := exists_span_of_reaches variant.rules_keyword
        (fun _ isOther => not_greedy_of_otherRules (List.mem_of_mem_tail isOther))
        (List.mem_append_right _ (List.mem_singleton_self _)) (Place.behind_in read rest)
        (variant.reads_keyword.reaches isToken) fun span known surrounds => covered ⟨span, known, surrounds⟩
      have here : found.start.offset = byteLength read := by
        rw [isStart]
        rfl
      rcases category_of_mem_keyword isKept with rfl | ⟨differs, _⟩
      · have stops := (here ▸ variant.reads_keyword.finds matched).eq finds
        rw [spanOf_of_plain rfl, here, stops] at known
        exact .inl known
      · have covers := RuleTable.covers_start known
        rw [start_spanOf, here] at covers
        exact .inr ⟨_, known, differs, covers⟩

set_option maxRecDepth 4000 in
theorem keywords_iff_true :
    HasWord v1.keywords ['t', 'r', 'u', 'e'] 0 4 ∧
      (⟨.keyword, 0, 4, []⟩ ∈ v1.table.classify ['t', 'r', 'u', 'e'] ∨
        ∃ span ∈ v1.table.classify ['t', 'r', 'u', 'e'], span.category ≠ .keyword ∧ span.Covers 0) ∧
      ⟨.keyword, 0, 4, []⟩ ∈ Span.preorderAll (v1.table.classify ['t', 'r', 'u', 'e']) := by
  have spans : v1.table.classify ['t', 'r', 'u', 'e'] = [⟨.keyword, 0, 4, []⟩] := by
    rw [RuleTable.classify_of_rules v1.rules_table]
    rfl
  have known : ⟨.keyword, 0, 4, []⟩ ∈ Span.preorderAll (v1.table.classify ['t', 'r', 'u', 'e']) := by
    rw [spans]
    exact List.mem_cons_self
  have hasWord := (((keywords_iff v1 ['t', 'r', 'u', 'e']).1 _ known).2 rfl).2.2
  exact ⟨hasWord, (keywords_iff v1 ['t', 'r', 'u', 'e']).2 0 4 hasWord, known⟩

end Variant

end Highlighter
