import Highlighter.Proofs.Scan.Alone
import Highlighter.Proofs.Scan.Beginning
import Highlighter.Proofs.Text.Slices
import Highlighter.Proofs.Variant.Agreement

/-!
Grammars of tokens. A grammar says of each place of a text which token begins there, if one does. If the rules
of a category have no other tokens, and pass none over, then the spans of the category begin where the grammar
says, wherever no span goes on over the place (`Variant.Grammar.Decides.mem_classify_iff`).
-/

set_option autoImplicit false

namespace Highlighter

namespace Variant

open RuleTable

variable {variant : Variant} {text : List Char} {rule : Rule} {found : Match} {span : Span} {place : Place}

/-! ### Spans of the first rules -/

/-- A rule has a match in this text. -/
structure Matches (rule : Rule) (text : List Char) (found : Match) : Prop where
  inside : found.context.In text
  isMatch : rule.freshMatch found.context = some found

theorem Matches.start_in (matched : Matches rule text found) : found.start.In text :=
  RuleOf.start_in_of_freshMatch matched.inside matched.isMatch

def spanOf (rule : Rule) (found : Match) : Span := Entry.spanOf 0 ⟨rule, freshInside rule.nested⟩ found

theorem start_spanOf : (spanOf rule found).start = found.start.offset := Nat.zero_add _

theorem stop_spanOf : (spanOf rule found).stop = found.stop.offset := Nat.zero_add _

/-- All characters but slashes and quotes. -/
def noOpening : CharSet := ⟨[(0, 33), (35, 38), (40, 46), (48, 1114111)]⟩

/-- Slashes begin comments, quotes begin strings, and neither begins a class name. -/
theorem exists_head_of_matches (known : rule ∈ firstRules) (matched : Matches rule text found) :
    ∃ c ∈ found.start.rest.head?,
      rule.category = .comment ∧ c = '/' ∨ rule.category = .string ∧ (c = '"' ∨ c = '\'') ∨
        rule.category = .className ∧ c ≠ '/' ∧ c ≠ '"' ∧ c ≠ '\'' := by
  obtain ⟨inside, isMatch⟩ := matched
  simp only [firstRules, List.mem_cons, List.not_mem_nil, or_false] at known
  have slash : blockRule.opening.advances = true ∧ lineRule.opening.advances = true := by decide
  rcases known with rfl | rfl | rfl | rfl
  · obtain ⟨c, isHead, isSlash⟩ : ∃ c ∈ found.start.rest.head?, (CharSet.single '/').Has c :=
      RuleOf.exists_head_of_context inside rfl rfl slash.1 rfl (by decide) isMatch
    exact ⟨c, isHead, .inl ⟨rfl, CharSet.eq_of_has_single isSlash⟩⟩
  · obtain ⟨c, isHead, isSlash⟩ : ∃ c ∈ found.start.rest.head?, (CharSet.single '/').Has c :=
      RuleOf.exists_head_of_context inside rfl rfl slash.2 rfl (by decide) isMatch
    exact ⟨c, isHead, .inl ⟨rfl, CharSet.eq_of_has_single isSlash⟩⟩
  · obtain ⟨later, known, isStart, _⟩ := RuleOf.exists_token rfl isMatch
    rw [isStart]
    rcases List.mem_append.1 known with double | single
    · obtain ⟨c, isHead, isQuote⟩ : ∃ c ∈ found.context.rest.head?, (CharSet.single '"').Has c :=
        Pattern.has_head_of_startsIn (by decide) double
      exact ⟨c, isHead, .inr (.inl ⟨rfl, .inl (CharSet.eq_of_has_single isQuote)⟩)⟩
    · obtain ⟨c, isHead, isQuote⟩ : ∃ c ∈ found.context.rest.head?, (CharSet.single '\'').Has c :=
        Pattern.has_head_of_startsIn (by decide) single
      exact ⟨c, isHead, .inr (.inl ⟨rfl, .inr (CharSet.eq_of_has_single isQuote)⟩)⟩
  · obtain ⟨c, isHead, isLetter⟩ : ∃ c ∈ found.start.rest.head?, noOpening.Has c :=
      RuleOf.exists_head_of_context inside rfl rfl (by decide) rfl (by decide) isMatch
    refine ⟨c, isHead, .inr (.inr ⟨rfl, ?_, ?_, ?_⟩)⟩
    all_goals
      rintro rfl
      exact absurd isLetter (by decide)

theorem eq_classNameRule_or_nested_eq_none (known : rule ∈ variant.table.rules) :
    rule = classNameRule ∨ rule.nested = none := by
  simp only [rules_table, firstRules, otherRules, List.cons_append, List.nil_append, List.mem_cons,
    List.not_mem_nil, or_false] at known
  rcases known with rfl | rfl | rfl | rfl | rfl | rfl | rfl | rfl | rfl
  · exact .inr rfl
  · exact .inr rfl
  · exact .inr rfl
  · exact .inl rfl
  all_goals exact .inr rfl

theorem spanOf_of_plain (plain : rule.nested = none) :
    spanOf rule found = ⟨rule.category, found.start.offset, found.stop.offset, []⟩ := by
  simp only [spanOf, Entry.spanOf, plain, freshInside, Nat.zero_add]

theorem spanOf_eq (known : rule ∈ firstRules) (named : rule.category ≠ .className) :
    spanOf rule found = ⟨rule.category, found.start.offset, found.stop.offset, []⟩ := by
  have inTable : rule ∈ Variant.default.table.rules := by
    rw [rules_table]
    exact List.mem_append_left _ known
  rcases eq_classNameRule_or_nested_eq_none inTable with rfl | plain
  · exact absurd rfl named
  · exact spanOf_of_plain plain

theorem exists_match_of_mem_classify (known : span ∈ variant.table.classify text) :
    ∃ rule ∈ variant.table.rules, ∃ found, Matches rule text found ∧ span = spanOf rule found := by
  rw [classify_of_rules rfl] at known
  obtain ⟨entry, isEntry, _, found, offers, rfl⟩ := Entry.exists_of_mem_spans (Place.first_in text) known
  obtain ⟨rule, isRule, rfl⟩ := mem_freshEntries.1 isEntry
  exact ⟨rule, isRule, found, ⟨offers.inside, offers.isMatch⟩, rfl⟩

theorem exists_rule_of_mem_classify (known : span ∈ variant.table.classify text)
    (shared : isShared span.category = true) :
    ∃ rule ∈ firstRules, ∃ found, Matches rule text found ∧ span = spanOf rule found := by
  obtain ⟨rule, isRule, found, matched, rfl⟩ := exists_match_of_mem_classify known
  rw [rules_table] at isRule
  rcases List.mem_append.1 isRule with first | other
  · exact ⟨rule, first, found, matched, rfl⟩
  · obtain ⟨_, _, _, _, rfl, differs, _⟩ := exists_of_otherRules other
    exact absurd (differs.symm.trans shared) nofun

theorem not_greedy_of_otherRules (known : rule ∈ variant.otherRules) : rule.greedy = false := by
  obtain ⟨_, _, _, _, rfl, _⟩ := exists_of_otherRules known
  rfl

/-- Where a rule passes nothing over, a span begins if none goes on over the place. Rules that are tried last and
are not greedy do not get it. -/
theorem exists_span_of_reaches {kept others : List Rule} (rules : variant.table.rules = kept ++ others)
    (tame : ∀ other ∈ others, other.greedy = false) (known : rule ∈ kept) (inside : place.In text)
    (reaches : rule.Reaches text place)
    (clear : ∀ span ∈ variant.table.classify text, ¬span.Surrounds place.offset) :
    ∃ other ∈ kept, ∃ found, Matches other text found ∧ found.start = place ∧
      spanOf other found ∈ variant.table.classify text := by
  rw [classify_of_rules rules, freshEntries_append] at clear ⊢
  have isEntry : ⟨rule, freshInside rule.nested⟩ ∈ freshEntries kept := mem_freshEntries.2 ⟨rule, known, rfl⟩
  have tameEntries (entry : Entry) (known : entry ∈ freshEntries others) : entry.rule.greedy = false :=
    tame entry.rule (rule_of_mem_freshEntries known)
  have enough : (Place.first text).rest.length ≤ text.length := Nat.le_refl _
  rw [← Nat.zero_add place.offset] at clear
  obtain ⟨best, isBest, _, found, offers, start, isSpan⟩ :=
    Entry.exists_span_at 0 (Place.first_in text) enough tameEntries isEntry inside reaches (Nat.zero_le _) clear
  obtain ⟨other, isRule, rfl⟩ := mem_freshEntries.1 isBest
  exact ⟨other, isRule, found, ⟨offers.inside, offers.isMatch⟩, start, isSpan⟩

theorem exists_of_mem_preorderAll {spans : List Span} (known : span ∈ Span.preorderAll spans) :
    ∃ outer ∈ spans, span = outer ∨ span ∈ Span.preorderAll outer.children := by
  induction spans with
  | nil => cases known
  | cons first spans ih =>
    rcases List.mem_append.1 known with here | later
    · obtain ⟨category, start, stop, children⟩ := first
      exact ⟨_, List.mem_cons_self, List.mem_cons.1 here⟩
    · obtain ⟨outer, isSpan, inside⟩ := ih later
      exact ⟨outer, List.mem_cons_of_mem first isSpan, inside⟩

theorem mem_preorderAll {spans : List Span} (known : span ∈ spans) : span ∈ Span.preorderAll spans := by
  induction spans with
  | nil => cases known
  | cons first spans ih =>
    obtain ⟨category, start, stop, children⟩ := first
    rcases List.mem_cons.1 known with rfl | later
    · exact List.mem_append_left _ List.mem_cons_self
    · exact List.mem_append_right _ (ih later)

theorem category_of_mem_classNameInside {base : Nat}
    (known : span ∈ Span.preorderAll (classNameInside.freshAt base text)) :
    span.category = .punctuation := by
  obtain ⟨outer, isSpan, inside⟩ := exists_of_mem_preorderAll known
  obtain ⟨entry, isEntry, _, found, _, rfl⟩ := Entry.exists_of_mem_spans (Place.first_in text) isSpan
  cases List.mem_singleton.1 isEntry
  rcases inside with rfl | inner
  · rfl
  · cases inner

/-- All that is inside a span is punctuation. -/
theorem mem_classify_of_mem_preorderAll (known : span ∈ Span.preorderAll (variant.table.classify text)) :
    span ∈ variant.table.classify text ∨ span.category = .punctuation := by
  obtain ⟨outer, isSpan, rfl | inside⟩ := exists_of_mem_preorderAll known
  · exact .inl isSpan
  · rw [classify_of_rules rfl] at isSpan
    obtain ⟨entry, isEntry, _, found, _, rfl⟩ := Entry.exists_of_mem_spans (Place.first_in text) isSpan
    obtain ⟨rule, isRule, rfl⟩ := mem_freshEntries.1 isEntry
    rcases eq_classNameRule_or_nested_eq_none isRule with rfl | plain
    · exact .inr (category_of_mem_classNameInside inside)
    · simp only [Entry.spanOf, plain, freshInside] at inside
      cases inside

/-! ### Grammars -/

/-- The token that begins behind what has been read, given what follows. -/
abbrev Grammar := (read rest : List Char) → Option (List Char)

namespace Grammar

/-- The grammar has a token of `text` from byte `start` to byte `stop`. -/
def Finds (grammar : Grammar) (text : List Char) (start stop : Nat) : Prop :=
  ∃ read rest token, text = read ++ rest ∧ byteLength read = start ∧
    grammar read rest = some token ∧ start + byteLength token = stop

variable {grammar : Grammar} {category : Category} {start stop other : Nat}

theorem Finds.eq (finds : grammar.Finds text start stop) (findsOther : grammar.Finds text start other) :
    stop = other := by
  obtain ⟨read, rest, token, split, length, isToken, rfl⟩ := finds
  obtain ⟨otherRead, otherRest, otherToken, otherSplit, otherLength, isOther, rfl⟩ := findsOther
  obtain ⟨rfl, rfl⟩ := append_inj_of_byteLength (split.symm.trans otherSplit) (length.trans otherLength.symm)
  rw [Option.some.inj (isToken.symm.trans isOther)]

/-- The rules of the category have the tokens of the grammar and no others, and no other of the first rules
has a token where one of these begins. -/
structure Decides (grammar : Grammar) (category : Category) : Prop where
  shared : isShared category = true
  named : category ≠ .className
  sound : ∀ {rule text found}, rule ∈ firstRules → rule.category = category → Matches rule text found →
    grammar.Finds text found.start.offset found.stop.offset
  own : ∀ {rule text found read rest token}, rule ∈ firstRules → Matches rule text found →
    found.start = .behind read rest → grammar read rest = some token → rule.category = category
  reaches : ∀ {variant : Variant} {read rest token}, grammar read rest = some token →
    (∀ span ∈ variant.table.classify (read ++ rest), ¬span.Surrounds (byteLength read)) →
      ∃ rule ∈ firstRules, rule.Reaches (read ++ rest) (.behind read rest)

/-- At every depth, a span of the category is one at the top, with no spans inside it. -/
theorem Decides.of_mem_preorderAll (decides : grammar.Decides category)
    (known : span ∈ Span.preorderAll (variant.table.classify text)) (isCategory : span.category = category) :
    span ∈ variant.table.classify text ∧ span.children = [] ∧
      grammar.Finds text span.start span.stop := by
  have shared := isCategory ▸ decides.shared
  rcases mem_classify_of_mem_preorderAll known with top | isPunctuation
  · obtain ⟨rule, isRule, found, matched, rfl⟩ := exists_rule_of_mem_classify top shared
    have finds := decides.sound isRule isCategory matched
    have isNamed : rule.category ≠ .className := fun same => decides.named (isCategory.symm.trans same)
    rw [spanOf_eq isRule isNamed] at top ⊢
    exact ⟨top, rfl, finds⟩
  · rw [isPunctuation] at shared
    cases shared

theorem Decides.mem_classify_iff (decides : grammar.Decides category)
    (clear : ∀ span ∈ variant.table.classify text, ¬span.Surrounds start) :
    ⟨category, start, stop, []⟩ ∈ variant.table.classify text ↔ grammar.Finds text start stop := by
  constructor
  · intro known
    obtain ⟨rule, isRule, found, matched, isSpan⟩ := exists_rule_of_mem_classify known decides.shared
    have isCategory : category = rule.category := congrArg Span.category isSpan
    rw [spanOf_eq isRule (isCategory ▸ decides.named)] at isSpan
    cases isSpan
    exact decides.sound isRule rfl matched
  · intro finds
    obtain ⟨read, rest, token, rfl, rfl, isToken, _⟩ := id finds
    obtain ⟨rule, isRule, reaches⟩ := decides.reaches isToken clear
    obtain ⟨other, isOther, found, matched, isStart, isSpan⟩ :=
      exists_span_of_reaches variant.rules_table (fun _ => not_greedy_of_otherRules) isRule
        (Place.behind_in read rest) reaches clear
    have isCategory := decides.own isOther matched isStart isToken
    have start : found.start.offset = byteLength read := by
      rw [isStart]
      rfl
    obtain rfl := ((decides.sound isOther isCategory matched).eq (start ▸ finds))
    rwa [spanOf_eq isOther (isCategory ▸ decides.named), isCategory, start] at isSpan

end Grammar

end Variant

end Highlighter
