import Highlighter.Proofs.Pattern.WordEdge
import Highlighter.Proofs.Scan.Alone
import Highlighter.Proofs.Variant.Rules

/-!
Spans that need no context. The text of a span, classified by the rules of its category alone, is this
one span again; only class names need what stands before them (`Variant.classify_subset_text`). For each
rule the reason is another: strings and operators have no conditions at all, keywords ask for nothing but
the edges of a word, a number keeps its form, and a comment may begin a text.
-/

set_option autoImplicit false

namespace Highlighter

namespace RuleTable

variable {table : RuleTable} {rules : List Rule} {rule : Rule} {token : List Char}

theorem subset_eq_some (own : table.rulesOf rule.category = rules) (known : rule ∈ rules) :
    table.subset rule.category = some (.ofRules rules) := by
  unfold subset
  rw [own]
  cases rules with
  | nil => cases known
  | cons first others => rfl

/-- The rules of this category alone find one span in the text: all of it, with nothing inside. -/
def FindsAll (table : RuleTable) (category : Category) (token : List Char) : Prop :=
  ∃ own, table.subset category = some own ∧
    own.classify token = [⟨category, 0, byteLength token, []⟩]

/-- It is enough that one rule matches all of the text and no other begins a token with it. -/
theorem findsAll_of_matchesAll (own : table.rulesOf rule.category = rules) (known : rule ∈ rules)
    (plain : rule.nested = none) (matchesAll : rule.MatchesAll token) (nonempty : token ≠ [])
    (alone : ∀ other ∈ rules, other = rule ∨
      ∀ later ∈ other.report token (.first token), 0 < later.start.offset) :
    table.FindsAll rule.category token := by
  refine ⟨.ofRules rules, subset_eq_some own known, ?_⟩
  rw [classify_of_rules (rules_ofRules rules)]
  have isEntry : ⟨rule, freshInside rule.nested⟩ ∈ freshEntries rules :=
    mem_freshEntries.2 ⟨rule, known, rfl⟩
  rw [Entry.spans_of_matchesAll isEntry matchesAll nonempty]
  · simp only [plain, freshInside]
  · intro entry isOther later reported
    obtain ⟨other, isRule, rfl⟩ := mem_freshEntries.1 isOther
    rcases alone other isRule with rfl | further
    · exact .inl rfl
    · exact .inr (further later reported)

theorem findsAll_of_only (own : table.rulesOf rule.category = [rule]) (plain : rule.nested = none)
    (matchesAll : rule.MatchesAll token) (nonempty : token ≠ []) :
    table.FindsAll rule.category token := by
  apply findsAll_of_matchesAll own List.mem_cons_self plain matchesAll nonempty
  intro other known
  exact .inl (List.mem_singleton.1 known)

end RuleTable

namespace Variant

open Pattern

variable {variant : Variant} {text token : List Char} {start : Place} {found : Match} {rule : Rule}

theorem rulesOf_table {category : Category} {rules : List Rule}
    (filtered : (firstRules ++ variant.otherRules).filter (·.category == category) = rules) :
    variant.table.rulesOf category = rules := by
  rw [RuleTable.rulesOf, rules_table, filtered]

/-! ### Patterns without conditions -/

theorem matchesAll_of_bare (direct : rule.lookbehind = false) (noClosing : rule.closing = none)
    (advances : rule.opening.advances = true) (bare : rule.opening.anchors = [])
    (inside : start.In text) (isMatch : rule.freshMatch start = some found)
    (takes : found.start.Takes token found.stop) : rule.MatchesAll token := by
  apply RuleOf.matchesAll_of_token direct noClosing advances inside _ isMatch takes
  intro later token _ takesToken
  exact trims_outcomes advances (by simp [bare]) _ _ (Place.cut_first takesToken)

/-! ### Words -/

theorem matchesAll_of_isWord (direct : rule.lookbehind = false) (noClosing : rule.closing = none)
    (advances : rule.opening.advances = true)
    (edges : rule.opening.anchors.all (isEdge .unicode) = true) (word : rule.opening.isWord = true)
    (inside : start.In text) (isMatch : rule.freshMatch start = some found)
    (takes : found.start.Takes token found.stop) : rule.MatchesAll token := by
  apply RuleOf.matchesAll_of_token direct noClosing advances inside _ isMatch takes
  intro later token isFirst takesToken
  have clear := clear_of_isWord word (List.mem_of_head? isFirst)
  exact trims_of_clear advances edges clear _ _ (Place.cut_first takesToken)

theorem matchesAll_keyword
    (isMatch : (tokenRule .keyword variant.keyword variant.keywordToken false).freshMatch start =
      some found) (inside : start.In text) (takes : found.start.Takes token found.stop) :
    (tokenRule .keyword variant.keyword variant.keywordToken false).MatchesAll token := by
  have advances : variant.keywordToken.advances = true := by cases variant <;> decide
  have edges : variant.keywordToken.anchors.all (isEdge .unicode) = true := by cases variant <;> rfl
  have word : variant.keywordToken.isWord = true := by cases variant <;> decide +kernel
  exact matchesAll_of_isWord rfl rfl advances edges word inside isMatch takes

/-! ### Numbers -/

/-- The letters of the bases, small and capital. -/
def baseLetters : CharSet := ⟨[(66, 66), (79, 79), (88, 88), (98, 98), (111, 111), (120, 120)]⟩

def decimalNumber (variant : Variant) : Pattern := .seq decimalLead variant.decimalTail

/-- No word goes on over the start of a decimal number. -/
theorem wordBefore_of_decimal {reach later : Reach}
    (known : later ∈ variant.decimalNumber.outcomes reach) :
    Anchor.wordBefore .unicode reach.place = false := by
  obtain ⟨mid, inLead, _⟩ := List.mem_flatMap.1 known
  rcases List.mem_append.1 inLead with whole | point
  · obtain ⟨same, atEdge, inDigits⟩ := List.mem_flatMap.1 whole
    obtain ⟨rfl, holds⟩ := mem_assert atEdge
    have after := wordAfter_of_startsIn (by decide) inDigits
    simpa [Anchor.holds, after] using holds
  · obtain ⟨same, offEdge, inDigits⟩ := List.mem_flatMap.1 point
    obtain ⟨rfl, holds⟩ := mem_assert offEdge
    obtain ⟨next, isPoint, _⟩ := List.mem_flatMap.1 inDigits
    have after : Anchor.wordAfter .unicode same.place = false := by
      rw [Anchor.wordAfter, (takes_of_through? (Option.mem_toList.1 isPoint)).split]
      rfl
    simpa [Anchor.holds, after] using holds

/-- A decimal number asks for nothing but this, and that only at its start. -/
theorem trimmed_decimal {stop : Place} (takes : start.Takes token stop) (nonempty : token ≠ [])
    (before : Anchor.wordBefore .unicode start = false) :
    Trimmed start stop (variant.decimalNumber.outcomes { place := start })
      (variant.decimalNumber.outcomes { place := .first token }) := by
  have cut : Place.Cut start stop ({ place := start } : Reach).place
      ({ place := .first token } : Reach).place := Place.cut_first takes
  have whole : Trimmed start stop ((Pattern.seq edge wholeDigits).outcomes _) _ :=
    trimmed_assert (by decide) rfl cut (holds_first rfl before takes nonempty)
  have point : Trimmed start stop
      ((Pattern.seq (.assert (.noWordEdge .unicode)) pointDigits).outcomes _) _ :=
    trimmed_assert (by decide) rfl cut (holds_first rfl before takes nonempty)
  apply (whole.append point).flatMap variant.decimalTail.noWayBack_outcomes
  intro later _ inner _ further
  have advances : variant.decimalTail.advances = true := by cases variant <;> decide
  have bare : variant.decimalTail.anchors = [] := by cases variant <;> rfl
  exact trims_outcomes advances (by simp [bare]) later inner further

theorem trimmed_number {later : Reach}
    (isFirst : (variant.numberToken.outcomes { place := start }).head? = some later)
    (takes : start.Takes token later.place) :
    Trimmed start later.place (variant.numberToken.outcomes { place := start })
      (variant.numberToken.outcomes { place := .first token }) := by
  by_cases inBased : later ∈ basedNumber.outcomes { place := start }
  · -- With a letter for the base it is a word.
    have clear := clear_of_isWord (by decide) inBased
    have advances : variant.numberToken.advances = true := by cases variant <;> decide
    have edges : variant.numberToken.anchors.all (isEdge .unicode) = true := by cases variant <;> rfl
    exact trims_of_clear advances edges clear _ _ (Place.cut_first takes)
  · have inDecimal : later ∈ variant.decimalNumber.outcomes { place := start } :=
      (List.mem_append.1 (List.mem_of_head? isFirst)).resolve_left inBased
    -- The first alternative has failed, and in the token it fails for want of that letter.
    have notBased : basedNumber.outcomes { place := start } = [] := by
      match outcomes : basedNumber.outcomes { place := start } with
      | [] => rfl
      | first :: others =>
        have isHead : (variant.numberToken.outcomes { place := start }).head? = some first := by
          rw [numberToken, Pattern.outcomes, outcomes, List.cons_append, List.head?_cons]
        rw [outcomes, Option.some.inj (isFirst.symm.trans isHead)] at inBased
        exact absurd List.mem_cons_self inBased
    have noLetter : basedNumber.outcomes { place := .first token } = [] := by
      apply List.eq_nil_iff_forall_not_mem.2
      intro other known
      have needed : basedNumber.needs baseLetters = true := by decide
      obtain ⟨c, inToken, isLetter⟩ := exists_of_needs needed known
      have avoids : variant.decimalNumber.avoids baseLetters = true := by cases variant <;> decide
      obtain ⟨taken, takesTaken, clear⟩ := takes_of_avoids avoids inDecimal
      have same : token = taken :=
        List.append_cancel_right (takes.split.symm.trans takesTaken.split)
      rw [same] at inToken
      exact clear c inToken isLetter
    have nonempty : token ≠ [] := by
      have solid : variant.decimalNumber.isSolid = true := by cases variant <;> decide
      have further := offset_lt_of_isSolid solid inDecimal
      rintro rfl
      simp [takes.offset] at further
    unfold numberToken Pattern.outcomes
    rw [notBased, noLetter]
    exact trimmed_decimal takes nonempty (wordBefore_of_decimal inDecimal)

theorem matchesAll_number
    (isMatch : (tokenRule .number variant.number variant.numberToken true).freshMatch start =
      some found) (inside : start.In text) (takes : found.start.Takes token found.stop) :
    (tokenRule .number variant.number variant.numberToken true).MatchesAll token := by
  have advances : variant.numberToken.advances = true := by cases variant <;> decide
  apply RuleOf.matchesAll_of_token rfl rfl advances inside _ isMatch takes
  intro later token isFirst takesToken
  exact trimmed_number isFirst takesToken

/-! ### Comments -/

theorem opens_blockRule : blockRule.Opens ['/', '*'] := by
  apply RuleOf.opens_of_context rfl rfl (by decide) rfl
  intro reach later known
  exact ⟨[], takes_of_through? (Option.mem_toList.1 known)⟩

theorem opens_lineRule : lineRule.Opens ['/', '/'] := by
  apply RuleOf.opens_of_context rfl rfl (by decide) rfl
  intro reach later known
  obtain ⟨mid, slashes, others⟩ := List.mem_flatMap.1 known
  obtain ⟨more, toEnd, _⟩ := outcomes_carried (carries_takes fun _ => True) (within_any _) others
  exact ⟨more, (takes_of_through? (Option.mem_toList.1 slashes)).trans toEnd⟩

/-- In its own text a block comment has the start of the text for context. -/
theorem matchesAll_block (inside : start.In text) (isMatch : blockRule.freshMatch start = some found)
    (takes : found.start.Takes token found.stop) : blockRule.MatchesAll token := by
  apply RuleOf.matchesAll_of_context rfl rfl (by decide) rfl rfl _ inside isMatch takes rfl
  intro closing isClosing
  cases isClosing
  exact ⟨rfl, rfl⟩

/-- So has a line comment. No blanks come before its slashes there. -/
theorem matchesAll_line {more : List Char} (inside : start.In text)
    (isMatch : lineRule.freshMatch start = some found)
    (takes : found.start.Takes ('/' :: more) found.stop) : lineRule.MatchesAll ('/' :: more) := by
  apply RuleOf.matchesAll_of_context rfl rfl (by decide) rfl rfl _ inside isMatch takes
  · rfl
  · intro closing isClosing
    cases isClosing

theorem findsAll_block (inside : start.In text) (isMatch : blockRule.freshMatch start = some found)
    (takes : found.start.Takes token found.stop) : variant.table.FindsAll .comment token := by
  have own : variant.table.rulesOf .comment = [blockRule, lineRule] := rulesOf_table rfl
  obtain ⟨more, spelled⟩ := opens_blockRule inside isMatch
  have token_eq : token = '/' :: '*' :: more := takes.upTo.symm.trans spelled.upTo
  have matchesAll := matchesAll_block inside isMatch takes
  apply RuleTable.findsAll_of_matchesAll own (by simp) rfl matchesAll (by simp [token_eq])
  intro other known
  simp only [List.mem_cons, List.not_mem_nil, or_false] at known
  rcases known with rfl | rfl
  · exact .inl rfl
  · exact .inr fun later reported => opens_lineRule.start_pos (by simp [token_eq]) reported

theorem findsAll_line (inside : start.In text) (isMatch : lineRule.freshMatch start = some found)
    (takes : found.start.Takes token found.stop) : variant.table.FindsAll .comment token := by
  have own : variant.table.rulesOf .comment = [blockRule, lineRule] := rulesOf_table rfl
  obtain ⟨more, spelled⟩ := opens_lineRule inside isMatch
  have token_eq : token = '/' :: '/' :: more := takes.upTo.symm.trans spelled.upTo
  subst token_eq
  have matchesAll := matchesAll_line inside isMatch takes
  apply RuleTable.findsAll_of_matchesAll own (by simp) rfl matchesAll (List.cons_ne_nil _ _)
  intro other known
  simp only [List.mem_cons, List.not_mem_nil, or_false] at known
  rcases known with rfl | rfl
  · exact .inr fun later reported => opens_blockRule.start_pos (by simp) reported
  · exact .inl rfl

/-! ### All rules -/

/-- The token of any rule but that for class names is found again. -/
theorem findsAll_of_match (known : rule ∈ variant.table.rules) (named : rule.category ≠ .className)
    (inside : start.In text) (isMatch : rule.freshMatch start = some found)
    (takes : found.start.Takes token found.stop) (nonempty : token ≠ []) :
    variant.table.FindsAll rule.category token := by
  rw [rules_table] at known
  simp only [firstRules, otherRules, List.cons_append, List.nil_append, List.mem_cons,
    List.not_mem_nil, or_false] at known
  rcases known with rfl | rfl | rfl | rfl | rfl | rfl | rfl | rfl | rfl
  · exact findsAll_block inside isMatch takes
  · exact findsAll_line inside isMatch takes
  · apply RuleTable.findsAll_of_only (rulesOf_table rfl) rfl _ nonempty
    exact matchesAll_of_bare rfl rfl (by decide) rfl inside isMatch takes
  · exact absurd rfl named
  · apply RuleTable.findsAll_of_only (rulesOf_table rfl) rfl _ nonempty
    exact matchesAll_keyword isMatch inside takes
  · apply RuleTable.findsAll_of_only (rulesOf_table rfl) rfl _ nonempty
    exact matchesAll_of_isWord rfl rfl (by decide) rfl (by decide) inside isMatch takes
  · apply RuleTable.findsAll_of_only (rulesOf_table rfl) rfl _ nonempty
    exact matchesAll_number isMatch inside takes
  · apply RuleTable.findsAll_of_only (rulesOf_table rfl) rfl _ nonempty
    exact matchesAll_of_bare rfl rfl (by cases variant <;> decide) (by cases variant <;> rfl) inside
      isMatch takes
  · apply RuleTable.findsAll_of_only (rulesOf_table rfl) rfl _ nonempty
    exact matchesAll_of_bare rfl rfl (by decide) rfl inside isMatch takes

/-- Whatever the text, the text of a span of it that is no class name is classified by the rules of the
span's category as one span of this category, which covers all of it and has none inside. -/
theorem classify_subset_text (variant : Variant) (text : List Char) (span : Span)
    (known : span ∈ variant.table.classify text) (named : span.category ≠ .className) :
    ∃ own, variant.table.subset span.category = some own ∧
      own.classify (span.text text) = [⟨span.category, 0, byteLength (span.text text), []⟩] := by
  rw [RuleTable.classify_of_rules rfl] at known
  obtain ⟨entry, isEntry, cursor, found, offers, rfl⟩ :=
    Entry.exists_of_mem_spans (Place.first_in text) known
  obtain ⟨_, ⟨_, toStart⟩, token, takes⟩ := RuleOf.freshMatch_bounds offers.inside offers.isMatch
  have startInside := toStart.inside offers.inside
  have further : found.start.offset < found.stop.offset := by
    have useful := offers.useful
    simp only [Probe.useful, Bool.and_eq_true, decide_eq_true_eq] at useful
    exact useful.2
  have isText : (Entry.spanOf 0 entry found).text text = token := by
    have slice := startInside.slice?_upTo (takes.inside startInside) takes.le
    simp only [Span.text, Span.textOf, Entry.spanOf, Nat.zero_add, slice, Option.getD_some, takes.upTo]
  have nonempty : token ≠ [] := by
    rintro rfl
    simp [takes.offset] at further
  rw [isText]
  exact findsAll_of_match (RuleTable.rule_of_mem_freshEntries isEntry) named offers.inside
    offers.isMatch takes nonempty

theorem classify_subset_text_zero :
    ⟨.number, 0, 1, []⟩ ∈ v1.table.classify ['0', 'x', '1', 'g'] ∧
      ∃ own, v1.table.subset .number = some own ∧ own.classify ['0'] = [⟨.number, 0, 1, []⟩] := by
  have known : ⟨.number, 0, 1, []⟩ ∈ v1.table.classify ['0', 'x', '1', 'g'] := by
    have spans : v1.table.classify ['0', 'x', '1', 'g'] = [⟨.number, 0, 1, []⟩] := by
      rw [RuleTable.classify_of_rules v1.rules_table]
      rfl
    rw [spans]
    exact List.mem_cons_self
  exact ⟨known, classify_subset_text v1 ['0', 'x', '1', 'g'] ⟨.number, 0, 1, []⟩ known (by decide)⟩

end Variant

end Highlighter
