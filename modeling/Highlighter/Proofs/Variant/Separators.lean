import Highlighter.Proofs.Variant.ClassNames

/-!
What is inside spans. Inside a class name each dot and each backslash is punctuation, with nothing inside it, and
there is nothing else; inside all other spans there is nothing at all (`Variant.children_iff`). The nested table has
one rule, which matches wherever a separator stands, so its scan of the name passes none over.
-/

set_option autoImplicit false

namespace Highlighter

namespace Variant

open Pattern Lexer

/-- What stands between the parts of a name. -/
def isSeparator (c : Char) : Bool := ['.', '\\'].contains c

/-- A separator stands at this byte of the text. -/
def SeparatorAt (text : List Char) (offset : Nat) : Prop :=
  ∃ read c rest, text = read ++ c :: rest ∧ byteLength read = offset ∧ isSeparator c = true

variable {variant : Variant} {text name : List Char} {span child : Span} {found : Match} {start stop : Place}
  {base offset : Nat}

/-! ### The nested table -/

abbrev separatorRule : Rule := tokenRule .punctuation classNamePunctuation (.set ⟨[(46, 46), (92, 92)]⟩) false

theorem reads_separator : Grammar.Reads (fun _ => one isSeparator) separatorRule where
  direct := rfl
  noClosing := rfl
  advances := by decide
  solid := by decide
  prefers _ _ := prefersAt_set (CharSet.contains_letters ['.', '\\'] (by decide))

theorem utf8Size_separator {c : Char} (isOne : isSeparator c = true) : c.utf8Size = 1 := by
  have cases := List.contains_iff_mem.1 isOne
  simp only [List.mem_cons, List.not_mem_nil, or_false] at cases
  rcases cases with rfl | rfl
  · rfl
  · rfl

theorem separatorAt_of_mem (known : child ∈ classNameInside.freshAt base name) :
    ∃ offset, SeparatorAt name offset ∧ child = ⟨.punctuation, base + offset, base + offset + 1, []⟩ := by
  obtain ⟨entry, isEntry, _, found, offers, rfl⟩ := Entry.exists_of_mem_spans (Place.first_in name) known
  cases List.mem_singleton.1 isEntry
  obtain ⟨read, rest, _, rfl, isStart, isToken, takes⟩ :=
    reads_separator.exists_token ⟨offers.inside, offers.isMatch⟩
  obtain ⟨c, others, rfl, isOne, rfl⟩ := exists_of_one isToken
  have stops : found.stop.offset = found.start.offset + 1 := by
    rw [takes.offset, byteLength_cons, byteLength_nil, utf8Size_separator isOne]
  have start : found.start.offset = byteLength read := by
    rw [isStart]
    rfl
  refine ⟨byteLength read, ⟨read, c, others, rfl, rfl, isOne⟩, ?_⟩
  simp only [Entry.spanOf, stops, start, Nat.add_assoc]
  rfl

/-- The nested table finds the separators of a name and nothing else. -/
theorem mem_classNameInside_iff : child ∈ classNameInside.freshAt base name ↔
    ∃ offset, SeparatorAt name offset ∧ child = ⟨.punctuation, base + offset, base + offset + 1, []⟩ := by
  refine ⟨separatorAt_of_mem, ?_⟩
  rintro ⟨offset, ⟨read, c, rest, rfl, rfl, isOne⟩, rfl⟩
  obtain ⟨found, ⟨inside, isMatch⟩, isStart, takes⟩ := reads_separator.exists_match (one_cons isOne rest)
  have token : found.start.offset < found.stop.offset := by
    rw [takes.offset, byteLength_cons, byteLength_nil, utf8Size_separator isOne]
    exact Nat.lt_succ_self _
  have isEntry : ⟨separatorRule, RuleTable.freshInside separatorRule.nested⟩ ∈
      RuleTable.freshEntries [separatorRule] := List.mem_singleton_self _
  obtain ⟨span, isSpan, covers⟩ := Entry.exists_span_of_token base (Place.first_in (read ++ c :: rest))
    (Nat.le_refl _) isEntry rfl inside (Nat.zero_le _) isMatch token
  rw [← RuleOf.start_eq_of_direct rfl isMatch, isStart] at covers
  -- The span that covers the separator is one byte long, so it begins there.
  obtain ⟨other, _, rfl⟩ := separatorAt_of_mem isSpan
  obtain ⟨before, behind⟩ : base + other ≤ base + byteLength read ∧ base + byteLength read < base + other + 1 := covers
  obtain rfl : other = byteLength read := by omega
  exact isSpan

theorem children_eq_nil_of_mem_inside (known : child ∈ Span.preorderAll (classNameInside.freshAt base name)) :
    child.children = [] := by
  obtain ⟨outer, isSpan, inside⟩ := exists_of_mem_preorderAll known
  obtain ⟨_, _, rfl⟩ := mem_classNameInside_iff.1 isSpan
  rcases inside with rfl | inner
  · rfl
  · cases inner

/-! ### Names in a text -/

/-- The separators of a name are those of the text between its ends. -/
theorem separatorAt_iff (takes : start.Takes name stop) (inside : start.In text) : SeparatorAt name offset ↔
    SeparatorAt text (start.offset + offset) ∧ start.offset + offset < stop.offset := by
  obtain ⟨before, split, length, isBefore⟩ := id inside
  constructor
  · rintro ⟨read, c, rest, rfl, rfl, isOne⟩
    refine ⟨⟨before ++ read, c, rest ++ stop.rest, ?_, ?_, isOne⟩, ?_⟩
    · rw [split, takes.split]
      simp only [List.append_assoc, List.cons_append]
    · rw [byteLength_append, length]
    · rw [takes.offset, byteLength_append, byteLength_cons, utf8Size_separator isOne]
      omega
  · rintro ⟨⟨read, c, rest, rfl, reached, isOne⟩, further⟩
    have placeInside := Place.behind_in read (c :: rest)
    have here : (Place.behind read (c :: rest)).offset = start.offset + offset := reached
    obtain ⟨first, second, rfl, toPlace, toStop⟩ :=
      takes.exists_split inside placeInside (by omega) (by omega)
    obtain ⟨d, more, rfl⟩ := List.exists_cons_of_ne_nil (toStop.ne_nil (by omega))
    obtain ⟨rfl, _⟩ := List.cons.inj toStop.split
    have reachedFirst := toPlace.offset
    exact ⟨first, c, more, rfl, by omega, isOne⟩

theorem mem_children_iff (matched : Matches classNameRule text found) :
    child ∈ (spanOf classNameRule found).children ↔ ∃ offset, found.start.offset ≤ offset ∧
      offset < found.stop.offset ∧ SeparatorAt text offset ∧ child = ⟨.punctuation, offset, offset + 1, []⟩ := by
  have takes := takes_className matched
  have children : (spanOf classNameRule found).children = classNameInside.freshAt found.start.offset
      (found.start.rest.takeWhile inClassName) := by
    simp only [spanOf, Entry.spanOf, Nat.zero_add, takes.upTo]
    rfl
  rw [children, mem_classNameInside_iff]
  constructor
  · rintro ⟨offset, separator, rfl⟩
    obtain ⟨separator, before⟩ := (separatorAt_iff takes matched.start_in).1 separator
    exact ⟨_, Nat.le_add_right _ _, before, separator, rfl⟩
  · rintro ⟨offset, behind, before, separator, rfl⟩
    obtain ⟨distance, rfl⟩ := Nat.exists_eq_add_of_le behind
    exact ⟨distance, (separatorAt_iff takes matched.start_in).2 ⟨separator, before⟩, rfl⟩

/-- Only class names have spans inside them. -/
theorem children_eq_nil (known : span ∈ Span.preorderAll (variant.table.classify text))
    (differs : span.category ≠ .className) : span.children = [] := by
  obtain ⟨outer, isSpan, inOuter⟩ := exists_of_mem_preorderAll known
  obtain ⟨rule, isRule, found, _, rfl⟩ := exists_match_of_mem_classify isSpan
  rcases eq_classNameRule_or_nested_eq_none isRule with rfl | plain
  · rcases inOuter with rfl | inside
    · exact absurd rfl differs
    · exact children_eq_nil_of_mem_inside inside
  · rw [spanOf_of_plain plain] at inOuter
    rcases inOuter with rfl | inside
    · rfl
    · cases inside

/-- Inside a class name there is one span for each separator, in order, and inside other spans there is nothing. -/
theorem children_iff (variant : Variant) (text : List Char) :
    ∀ span ∈ Span.preorderAll (variant.table.classify text),
      (span.category = .className →
        span.children.Pairwise (fun child later => child.stop ≤ later.start) ∧
        ∀ child, child ∈ span.children ↔ ∃ offset, span.start ≤ offset ∧ offset < span.stop ∧
          SeparatorAt text offset ∧ child = ⟨.punctuation, offset, offset + 1, []⟩) ∧
      (span.category ≠ .className → span.children = []) := by
  intro span known
  refine ⟨fun isName => ⟨?_, fun child => ?_⟩, children_eq_nil known⟩
  · exact Span.pairwise_of_fits
      (Span.isPlaced_of_mem_preorderAll _ (variant.table.check_classify text) span known).children
  · obtain ⟨_, found, matched, rfl⟩ := exists_of_className known isName
    rw [mem_children_iff matched, start_spanOf, stop_spanOf]

/-- A name with two separators, behind a character of two bytes. -/
def dottedName : List Char := ['é', ' ', 'n', 'e', 'w', ' ', 'a', '.', 'b', '\\']

theorem children_iff_dottedName :
    ⟨.className, 7, 11, [⟨.punctuation, 8, 9, []⟩, ⟨.punctuation, 10, 11, []⟩]⟩ ∈
        Span.preorderAll (v1.table.classify dottedName) ∧
      ⟨.punctuation, 8, 9, []⟩ ∈ Span.preorderAll (v1.table.classify dottedName) ∧
      (∃ offset, 7 ≤ offset ∧ offset < 11 ∧ SeparatorAt dottedName offset ∧
        (⟨.punctuation, 10, 11, []⟩ : Span) = ⟨.punctuation, offset, offset + 1, []⟩) ∧
      (⟨.punctuation, 8, 9, []⟩ : Span).children = [] := by
  have spans : v1.table.classify dottedName =
      [⟨.className, 7, 11, [⟨.punctuation, 8, 9, []⟩, ⟨.punctuation, 10, 11, []⟩]⟩] := by
    rw [RuleTable.classify_of_rules v1.rules_table]
    decide +kernel
  have isName : ⟨.className, 7, 11, [⟨.punctuation, 8, 9, []⟩, ⟨.punctuation, 10, 11, []⟩]⟩ ∈
      Span.preorderAll (v1.table.classify dottedName) := by
    rw [spans]
    exact List.mem_cons_self
  have isInside : ⟨.punctuation, 8, 9, []⟩ ∈ Span.preorderAll (v1.table.classify dottedName) := by
    rw [spans]
    exact List.mem_cons_of_mem _ List.mem_cons_self
  obtain ⟨_, children⟩ := (children_iff v1 dottedName _ isName).1 rfl
  have isSecond := (children ⟨.punctuation, 10, 11, []⟩).1 (List.mem_cons_of_mem _ List.mem_cons_self)
  exact ⟨isName, isInside, isSecond, (children_iff v1 dottedName _ isInside).2 nofun⟩

end Variant

end Highlighter
