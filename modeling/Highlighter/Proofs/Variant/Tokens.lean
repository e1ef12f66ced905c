import Highlighter.Proofs.Pattern.Lexers
import Highlighter.Proofs.Variant.Grammar
import Highlighter.Proofs.Variant.Reclassify

/-!
Spans of the rules that have neither context nor a nested table. Those of a category that has one rule are matches
of this rule, at the top and with nothing inside (`Variant.exists_match_of_mem_preorderAll`). Where a grammar says
what the pattern prefers, the matches are the tokens of the grammar (`Variant.Grammar.Reads`).
-/

set_option autoImplicit false

namespace Highlighter

namespace Variant

open Pattern

variable {variant : Variant} {text read rest token : List Char} {rule : Rule} {found : Match} {span : Span}
  {place : Place} {category : Category}

theorem exists_spanOf_of_mem_preorderAll (own : variant.table.rulesOf category = [rule])
    (differs : category ≠ .punctuation) (known : span ∈ Span.preorderAll (variant.table.classify text))
    (isCategory : span.category = category) :
    span ∈ variant.table.classify text ∧ ∃ found, Matches rule text found ∧ span = spanOf rule found := by
  subst isCategory
  have top := (mem_classify_of_mem_preorderAll known).resolve_right differs
  obtain ⟨other, isRule, found, matched, isSpan⟩ := exists_match_of_mem_classify top
  have isOwn : other ∈ variant.table.rulesOf span.category :=
    List.mem_filter.2 ⟨isRule, by rw [isSpan]; exact beq_self_eq_true other.category⟩
  rw [own, List.mem_singleton] at isOwn
  subst isOwn
  exact ⟨top, found, matched, isSpan⟩

theorem exists_match_of_mem_preorderAll (own : variant.table.rulesOf category = [rule])
    (plain : rule.nested = none) (differs : category ≠ .punctuation)
    (known : span ∈ Span.preorderAll (variant.table.classify text)) (isCategory : span.category = category) :
    span ∈ variant.table.classify text ∧ ∃ found, Matches rule text found ∧
      span = ⟨category, found.start.offset, found.stop.offset, []⟩ := by
  obtain ⟨top, found, matched, isSpan⟩ := exists_spanOf_of_mem_preorderAll own differs known isCategory
  have sameCategory : rule.category = category := by
    rw [← isCategory, isSpan]
    rfl
  rw [spanOf_of_plain plain, sameCategory] at isSpan
  exact ⟨top, found, matched, isSpan⟩

/-- Where a span begins and a rule passes nothing over, the span is not of a rule that is tried behind it, unless
that is greedy. -/
theorem exists_rule_of_reaches {kept others : List Rule} (rules : variant.table.rules = kept ++ others)
    (tame : ∀ other ∈ others, other.greedy = false) (known : rule ∈ kept) (inside : place.In text)
    (reaches : rule.Reaches text place) (isSpan : span ∈ variant.table.classify text)
    (start : span.start = place.offset) :
    ∃ other ∈ kept, ∃ found, Matches other text found ∧ found.start = place ∧ span = spanOf other found := by
  have clear := RuleTable.not_surrounds_start isSpan
  rw [start] at clear
  obtain ⟨other, isKept, found, matched, isStart, isOther⟩ :=
    exists_span_of_reaches rules tame known inside reaches clear
  have same : (spanOf other found).start = span.start := by rw [start_spanOf, isStart, start]
  exact ⟨other, isKept, found, matched, isStart, (RuleTable.eq_of_start_eq isSpan isOther same).symm⟩

namespace Grammar

variable {grammar : Grammar}

/-- The grammar has the tokens that a rule without context prefers. -/
structure Reads (grammar : Grammar) (rule : Rule) : Prop where
  direct : rule.lookbehind = false
  noClosing : rule.closing = none
  advances : rule.opening.advances = true
  solid : rule.opening.isSolid = true
  prefers : ∀ read rest, PrefersAt rule.opening (grammar read) { place := .behind read rest }

theorem Reads.exists_token (reads : grammar.Reads rule) (matched : Matches rule text found) :
    ∃ read rest token, text = read ++ rest ∧ found.start = .behind read rest ∧ grammar read rest = some token ∧
      found.start.Takes token found.stop := by
  obtain ⟨inside, isMatch⟩ := matched
  have opening := RuleOf.freshMatch_of_direct reads.direct reads.noClosing reads.advances inside
  obtain ⟨read, rest, isPlace, rfl⟩ : ∃ read rest, found.context = .behind read rest ∧ text = read ++ rest := by
    obtain ⟨read, split, length, before⟩ := inside
    exact ⟨read, _, by rw [Place.behind, ← length, ← before], split⟩
  rw [isPlace] at opening isMatch
  cases isToken : grammar read rest with
  | none =>
    rw [(reads.prefers read rest).fails isToken] at opening
    cases opening.symm.trans isMatch
  | some token =>
    obtain ⟨later, isFirst, takes⟩ := (reads.prefers read rest).takes token isToken
    rw [isFirst] at opening
    cases opening.symm.trans isMatch
    exact ⟨read, rest, token, rfl, rfl, isToken, takes⟩

theorem Reads.exists_match (reads : grammar.Reads rule) (isToken : grammar read rest = some token) :
    ∃ found, Matches rule (read ++ rest) found ∧ found.start = .behind read rest ∧
      found.start.Takes token found.stop := by
  have inside : (Place.behind read rest).In (read ++ rest) := Place.behind_in read rest
  obtain ⟨later, isFirst, takes⟩ := (reads.prefers read rest).takes token isToken
  refine ⟨⟨.behind read rest, .behind read rest, later.place⟩, ⟨inside, ?_⟩, rfl, takes⟩
  rw [RuleOf.freshMatch_of_direct reads.direct reads.noClosing reads.advances inside, isFirst]
  rfl

theorem Reads.finds (reads : grammar.Reads rule) (matched : Matches rule text found) :
    grammar.Finds text found.start.offset found.stop.offset := by
  obtain ⟨read, rest, token, split, isStart, isToken, takes⟩ := reads.exists_token matched
  rw [isStart] at takes ⊢
  exact ⟨read, rest, token, split, rfl, isToken, takes.offset.symm⟩

theorem Reads.reaches (reads : grammar.Reads rule) (isToken : grammar read rest = some token) :
    rule.Reaches (read ++ rest) (.behind read rest) := by
  obtain ⟨later, isFirst, _⟩ := (reads.prefers read rest).takes token isToken
  exact RuleOf.reaches_of_direct reads.direct reads.advances reads.solid (Place.behind_in read rest)
    (List.mem_of_head? isFirst)

end Grammar

end Variant

end Highlighter
