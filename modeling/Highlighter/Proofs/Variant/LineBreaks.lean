import Highlighter.Proofs.Variant.Comments

/-!
Line comments that stand first on their line. What ends a line comment is not all that ends the line before it:
the separators of lines and of paragraphs count among the blanks that may stand between a colon and the slashes
(`Variant.noComment_behind_separator`). Behind any other line break, and at the start of the text, two slashes
begin a comment whatever stands on the lines before (`Variant.comment_on_own_line`).
-/

set_option autoImplicit false

namespace Highlighter

namespace Variant

/-- The line that ends with `blanks` has nothing else on it: the text before is over, or has not begun. -/
structure BeginsLine (before blanks : List Char) : Prop where
  isEnded : ∀ c ∈ before.getLast?, isLineEnd c = true
  areBlank : ∀ c ∈ blanks, Unicode.isBlank c = true ∧ isLineEnd c = false

/-- The line before ends with a separator, behind a colon with only blanks in between. -/
structure EndsBehindColon (before : List Char) : Prop where
  isSeparator : before.getLast? = some '\u2028' ∨ before.getLast? = some '\u2029'
  isBehind : (before.rdropWhile isBlankInLine).getLast? = some ':'

variable {variant : Variant} {before blanks read rest : List Char} {c : Char}

theorem allowsLine_iff :
    allowsLine read = true ↔
      (read.rdropWhile isBlankInLine).getLast? ≠ some ':' ∧ read.getLast? ≠ some '\\' := by
  have whole (escape : read.getLast? = some '\\') : read.rdropWhile isBlankInLine = read := by
    obtain ⟨others, rfl⟩ := List.getLast?_eq_some_iff.1 escape
    exact List.rdropWhile_concat_neg _ _ _ (by decide)
  simp only [allowsLine, Bool.and_eq_true, Bool.or_eq_true, bne_iff_ne]
  constructor
  · rintro ⟨noColon, noEscape⟩
    exact ⟨noColon, fun escape => noEscape.elim (fun cut => cut (whole escape)) (fun other => other escape)⟩
  · rintro ⟨noColon, noEscape⟩
    exact ⟨noColon, .inr noEscape⟩

theorem isBlankInLine_of_isBlank (blank : Unicode.isBlank c = true) (inLine : isLineEnd c = false) :
    isBlankInLine c = true := by
  simp only [isLineEnd, Bool.or_eq_false_iff, beq_eq_false_iff_ne] at inLine
  simp [isBlankInLine, blank, inLine]

theorem BeginsLine.rdropWhile_append (begins : BeginsLine before blanks) :
    (before ++ blanks).rdropWhile isBlankInLine = before.rdropWhile isBlankInLine := by
  have blank (c : Char) (known : c ∈ blanks.reverse) : isBlankInLine c = true := by
    obtain ⟨isBlank, inLine⟩ := begins.areBlank c (List.mem_reverse.1 known)
    exact isBlankInLine_of_isBlank isBlank inLine
  simp only [List.rdropWhile, List.reverse_append, List.dropWhile_append_of_pos blank]

theorem BeginsLine.noEscape (begins : BeginsLine before blanks) :
    (before ++ blanks).getLast? ≠ some '\\' := by
  rw [List.getLast?_append]
  intro escape
  rcases Option.or_eq_some_iff.1 escape with last | ⟨_, last⟩
  · exact absurd (begins.areBlank _ (List.mem_of_getLast? last)).1 (by decide)
  · exact absurd (begins.isEnded _ last) (by decide)

/-- A colon that comes last but for blanks has a separator behind it, if the line has ended. -/
theorem BeginsLine.endsBehindColon_iff (begins : BeginsLine before blanks) :
    EndsBehindColon before ↔ (before.rdropWhile isBlankInLine).getLast? = some ':' := by
  refine ⟨EndsBehindColon.isBehind, fun colon => ⟨?_, colon⟩⟩
  rcases List.eq_nil_or_concat before with rfl | ⟨others, c, rfl⟩
  · cases colon
  rw [List.concat_eq_append, List.getLast?_concat]
  have ended := begins.isEnded c (by simp)
  simp only [isLineEnd, Bool.or_eq_true, beq_iff_eq] at ended
  -- No blank is dropped behind a carriage return or a line feed, and neither is a colon.
  have kept (dark : isBlankInLine c = false) (noColon : c ≠ ':') : False := by
    rw [List.concat_eq_append, List.rdropWhile_concat_neg _ _ _ (by simp [dark]),
      List.getLast?_concat] at colon
    exact noColon (Option.some.inj colon)
  rcases ended with ((rfl | rfl) | rfl) | rfl
  · exact (kept (by decide) (by decide)).elim
  · exact (kept (by decide) (by decide)).elim
  · exact .inl rfl
  · exact .inr rfl

theorem BeginsLine.allowsLine_iff (begins : BeginsLine before blanks) :
    allowsLine (before ++ blanks) = true ↔ ¬EndsBehindColon before := by
  rw [Variant.allowsLine_iff, begins.rdropWhile_append, begins.endsBehindColon_iff]
  exact and_iff_left begins.noEscape

theorem isSome_comment?_slashes :
    (comment? read ('/' :: '/' :: rest)).isSome = true ↔ allowsLine read = true := by
  rw [comment?]
  split <;> simp_all

theorem exists_comment_iff (clear : ∀ span ∈ variant.table.classify (read ++ rest),
    ¬span.Surrounds (byteLength read)) :
    (∃ span ∈ variant.table.classify (read ++ rest), span.category = .comment ∧
      span.start = byteLength read) ↔ (comment? read rest).isSome = true := by
  rw [Option.isSome_iff_exists]
  constructor
  · rintro ⟨span, known, isComment, start⟩
    obtain ⟨_, _, otherRead, otherRest, token, split, length, isToken, _⟩ :=
      decides_comment.of_mem_preorderAll (mem_preorderAll known) isComment
    obtain ⟨rfl, rfl⟩ := append_inj_of_byteLength split (length.trans start).symm
    exact ⟨token, isToken⟩
  · rintro ⟨token, isToken⟩
    have finds : Grammar.Finds comment? (read ++ rest) (byteLength read) _ :=
      ⟨read, rest, token, rfl, rfl, isToken, rfl⟩
    exact ⟨_, (decides_comment.mem_classify_iff clear).2 finds, rfl, rfl⟩

/-- Slashes that stand first on their line begin a comment, unless the line before ends with a separator and a
colon is the last on it. -/
theorem comment_on_own_line (variant : Variant) (before blanks rest : List Char)
    (begins : BeginsLine before blanks)
    (clear : ∀ span ∈ variant.table.classify (before ++ blanks ++ '/' :: '/' :: rest),
      ¬span.Surrounds (byteLength (before ++ blanks))) :
    (∃ span ∈ variant.table.classify (before ++ blanks ++ '/' :: '/' :: rest),
      span.category = .comment ∧ span.start = byteLength (before ++ blanks)) ↔ ¬EndsBehindColon before := by
  rw [exists_comment_iff clear, isSome_comment?_slashes]
  exact begins.allowsLine_iff

theorem comment_on_own_line_colon :
    BeginsLine [':', '\n'] [' '] ∧
      (∀ span ∈ v1.table.classify [':', '\n', ' ', '/', '/', 'x'], ¬span.Surrounds 3) ∧
      ∃ span ∈ v1.table.classify [':', '\n', ' ', '/', '/', 'x'], span.category = .comment ∧ span.start = 3 := by
  have spans : v1.table.classify [':', '\n', ' ', '/', '/', 'x'] =
      [⟨.punctuation, 0, 1, []⟩, ⟨.comment, 3, 6, []⟩] := by
    rw [RuleTable.classify_of_rules v1.rules_table]
    decide +kernel
  have begins : BeginsLine [':', '\n'] [' '] :=
    ⟨by rintro c ⟨rfl⟩; decide, List.forall_mem_singleton.2 (by decide)⟩
  have clear : ∀ span ∈ v1.table.classify [':', '\n', ' ', '/', '/', 'x'], ¬span.Surrounds 3 := by
    rw [spans]
    simp [Span.Surrounds]
  refine ⟨begins, clear, (comment_on_own_line v1 [':', '\n'] [' '] ['x'] begins clear).2 ?_⟩
  rintro ⟨separator, _⟩
  exact absurd separator (by decide)

/-- The line before ends with a separator, and yet the colon on it keeps the comment from beginning. -/
theorem noComment_behind_separator :
    BeginsLine [':', '\u2028'] [] ∧
      (∀ span ∈ v1.table.classify [':', '\u2028', '/', '/', 'x'], ¬span.Surrounds 4) ∧
      byteLength [':', '\u2028'] = 4 ∧
      ¬∃ span ∈ v1.table.classify [':', '\u2028', '/', '/', 'x'], span.category = .comment ∧ span.start = 4 := by
  have spans : v1.table.classify [':', '\u2028', '/', '/', 'x'] =
      [⟨.punctuation, 0, 1, []⟩, ⟨.operator, 4, 5, []⟩, ⟨.operator, 5, 6, []⟩] := by
    rw [RuleTable.classify_of_rules v1.rules_table]
    decide +kernel
  rw [spans]
  refine ⟨⟨by rintro c ⟨rfl⟩; decide, nofun⟩, ?_, rfl, ?_⟩
  · simp [Span.Surrounds]
  · simp

end Variant

end Highlighter
