import Highlighter.Proofs.Scan.Erasure
import Highlighter.Proofs.Scan.Token
import Highlighter.Proofs.Variant.Rules

/-!
The variants agree on comments, strings and class names. Each of these begins at a mark, a slash or a
quote, or behind one, a blank or an opening parenthesis; the tokens of all other rules are single
characters or have no marks. So the rules that differ can be left out.
-/

set_option autoImplicit false

namespace Highlighter

namespace Variant

open Pattern

/-- The categories that both variants classify alike. -/
def isShared : Category → Bool
  | .comment | .string | .className => true
  | _ => false

def sharedTable (variant : Variant) : RuleTable :=
  .ofRules (variant.table.rules.filter (isShared ·.category))

/-- White space, quotes, slashes and opening parentheses. -/
def marks : CharSet := ⟨[(9, 13), (32, 32), (34, 34), (39, 40), (47, 47), (133, 133), (160, 160),
  (5760, 5760), (8192, 8202), (8232, 8233), (8239, 8239), (8287, 8287), (12288, 12288)]⟩

variable {text : List Char} {cursor start : Place} {found : Match} {rule : Rule} {variant : Variant}

theorem isMarked_behind {lead body : Pattern} (inside : start.In text) (behind : rule.lookbehind = true)
    (opening : rule.opening = .seq (.group 1 lead) body) (advances : rule.opening.advances = true)
    (bare : body.hasGroup = false) (marked : lead.endsIn marks = true ∨ body.startsIn marks = true)
    (isMatch : rule.freshMatch start = some found) : found.start.IsMarked marks := by
  obtain ⟨mid, inLead, later, inBody, isStart, _⟩ :=
    RuleOf.exists_context inside behind opening advances bare isMatch
  rw [isStart]
  rcases marked with ends | starts
  · exact .inr (isBehind_of_endsIn ends inLead)
  · obtain ⟨c, isHead, isMark⟩ := has_head_of_startsIn starts (List.mem_of_head? inBody)
    exact .inl ⟨c, isHead, isMark⟩

/-- Comments, strings and class names begin at or behind a mark. -/
theorem isMarked_of_firstRules (inside : start.In text) (known : rule ∈ firstRules)
    (isMatch : rule.freshMatch start = some found) : found.start.IsMarked marks := by
  simp only [firstRules, List.mem_cons, List.not_mem_nil, or_false] at known
  rcases known with rfl | rfl | rfl | rfl
  · exact isMarked_behind inside rfl rfl (by decide) rfl (.inr (by decide)) isMatch
  · exact isMarked_behind inside rfl rfl (by decide) rfl (.inr (by decide)) isMatch
  · obtain ⟨later, known, isStart, _⟩ := RuleOf.exists_token rfl isMatch
    rw [isStart]
    exact .inl (has_head_of_startsIn (by decide) known)
  · exact isMarked_behind inside rfl rfl (by decide) rfl (.inl (by decide)) isMatch

/-- All other tokens are single characters or have no marks. -/
theorem exists_of_otherRules (known : rule ∈ variant.otherRules) :
    ∃ category source token ignoreCase, rule = tokenRule category source token ignoreCase ∧
      isShared category = false ∧ token.isPlain marks = true := by
  simp only [otherRules, List.mem_cons, List.not_mem_nil, or_false] at known
  rcases known with rfl | rfl | rfl | rfl | rfl
  · exact ⟨_, _, _, _, rfl, rfl, by cases variant <;> decide⟩
  · exact ⟨_, _, _, _, rfl, rfl, by decide⟩
  · exact ⟨_, _, _, _, rfl, rfl, by cases variant <;> decide⟩
  · exact ⟨_, _, _, _, rfl, rfl, by cases variant <;> decide⟩
  · exact ⟨_, _, _, _, rfl, rfl, by decide⟩

/-- So no such token goes on over a marked place. -/
theorem stop_le_of_isMarked {place : Place} (known : rule ∈ variant.otherRules) (inside : start.In text)
    (isMatch : rule.freshMatch start = some found) (placeInside : place.In text) (marked : place.IsMarked marks)
    (further : found.start.offset < place.offset) : found.stop.offset ≤ place.offset := by
  obtain ⟨_, _, _, _, rfl, _, plain⟩ := exists_of_otherRules known
  obtain ⟨later, inPattern, isStart, isStop⟩ := RuleOf.exists_token rfl isMatch
  rw [RuleOf.freshStop_of_no_closing rfl] at isStop
  obtain ⟨taken, takes, plainTaken⟩ := takes_of_isPlain plain inPattern
  rw [isStart] at further
  rw [isStop]
  exact takes.le_of_isMarked inside placeInside plainTaken marked further

theorem isShared_of_firstRules (known : rule ∈ firstRules) : isShared rule.category = true := by
  simp only [firstRules, List.mem_cons, List.not_mem_nil, or_false] at known
  rcases known with rfl | rfl | rfl | rfl <;> rfl

/-- So none of the others can have the start of a comment, a string or a class name inside it. -/
theorem apart_rules (variant : Variant) : Entry.Apart (RuleTable.freshEntries firstRules)
    (RuleTable.freshEntries variant.otherRules) where
  tame := by
    intro entry known
    obtain ⟨_, _, _, _, isToken, _⟩ := exists_of_otherRules (RuleTable.rule_of_mem_freshEntries known)
    rw [isToken]
    rfl
  outside := by
    intro entry isKept swallower isOther text cursor found token offers swallows before
    have marked := isMarked_of_firstRules offers.inside (RuleTable.rule_of_mem_freshEntries isKept)
      offers.isMatch
    have startInside := RuleOf.start_in_of_freshMatch offers.inside offers.isMatch
    exact stop_le_of_isMarked (RuleTable.rule_of_mem_freshEntries isOther) swallows.inside swallows.isMatch
      startInside marked before

theorem rules_sharedTable (variant : Variant) : variant.sharedTable.rules = firstRules := by
  unfold sharedTable
  rw [rules_table, RuleTable.rules_ofRules, List.filter_append]
  rfl

theorem filter_classify_table (variant : Variant) (text : List Char) :
    (variant.table.classify text).filter (isShared ·.category) =
      Entry.spans 0 text (RuleTable.freshEntries firstRules) text.length (.first text) := by
  have inside := Place.first_in text
  have stays (entry : Entry) (known : entry ∈ RuleTable.freshEntries firstRules) :
      isShared entry.rule.category = true :=
    isShared_of_firstRules (RuleTable.rule_of_mem_freshEntries known)
  have goes (entry : Entry) (known : entry ∈ RuleTable.freshEntries variant.otherRules) :
      isShared entry.rule.category = false := by
    obtain ⟨_, _, _, _, isToken, differs, _⟩ :=
      exists_of_otherRules (RuleTable.rule_of_mem_freshEntries known)
    rw [isToken]
    exact differs
  rw [RuleTable.classify_of_rules variant.rules_table, RuleTable.freshEntries_append]
  exact Entry.filter_spans variant.apart_rules stays goes inside inside (fun _ _ => rfl)
    (Nat.le_refl _) (Nat.le_refl _)

/-- Whatever the text, both variants find the same comments, strings and class names in it, with the
same spans inside them, and so do the rules for these categories alone. -/
theorem filter_classify_shared (text : List Char) :
    (v1.table.classify text).filter (isShared ·.category) =
        (v2.table.classify text).filter (isShared ·.category) ∧
      ∀ variant : Variant, (v1.table.classify text).filter (isShared ·.category) =
        variant.sharedTable.classify text := by
  refine ⟨(filter_classify_table v1 text).trans (filter_classify_table v2 text).symm, ?_⟩
  intro variant
  rw [filter_classify_table, RuleTable.classify_of_rules variant.rules_sharedTable]

end Variant

end Highlighter
