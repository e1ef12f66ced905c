import Mathlib.Data.List.Infix

/-!
The lines of a text. A text that ends with a line break has as many lines as line breaks
(`length_textLines_concat`), and a later line begins with a mark just where the mark follows a line break
(`exists_mem_tail_textLines_iff`). So a marked text stays the only marked line if the mark follows no line break
in it (`length_markedLines_eq_one_iff`).
-/

set_option autoImplicit false

namespace Highlighter

variable {mark lead : List Char} {c : Char}

/-- The lines of a text, without the line breaks that end them. -/
def textLines : List Char → List (List Char)
  | [] => []
  | c :: rest =>
    if c = '\n' then [] :: textLines rest
    else match textLines rest with
      | [] => [[c]]
      | line :: lines => (c :: line) :: lines

/-- The lines that begin with a mark. -/
def markedLines (mark text : List Char) : List (List Char) := (textLines text).filter (mark.isPrefixOf ·)

theorem textLines_break (rest : List Char) : textLines ('\n' :: rest) = [] :: textLines rest := by
  rw [textLines, if_pos rfl]

theorem textLines_cons (differs : c ≠ '\n') (rest : List Char) :
    textLines (c :: rest) = (c :: (textLines rest).headD []) :: (textLines rest).tail := by
  rw [textLines, if_neg differs]
  cases textLines rest <;> rfl

theorem length_textLines_concat (text : List Char) :
    (textLines (text ++ ['\n'])).length = text.count '\n' + 1 := by
  induction text with
  | nil => rfl
  | cons c text ih =>
    rw [List.cons_append]
    by_cases isBreak : c = '\n'
    · rw [isBreak, textLines_break, List.length_cons, ih, List.count_cons_self]
    · rw [textLines_cons isBreak, List.length_cons, List.length_tail, ih, Nat.add_sub_cancel,
        List.count_cons_of_ne isBreak]

/-- The first line takes in all that begins the text, up to a line break. -/
theorem prefix_headD_textLines_iff (noBreak : '\n' ∉ mark) (text : List Char) :
    mark <+: (textLines text).headD [] ↔ mark <+: text := by
  induction text generalizing mark with
  | nil => rfl
  | cons c text ih =>
    cases mark with
    | nil => simp
    | cons d mark =>
      obtain ⟨differs, noBreak⟩ := not_or.1 (mt List.mem_cons.2 noBreak)
      by_cases isBreak : c = '\n'
      · rw [isBreak, textLines_break]
        simp [Ne.symm differs]
      · rw [textLines_cons isBreak, List.headD_cons, List.cons_prefix_cons, List.cons_prefix_cons, ih noBreak]

section

variable (noBreak : '\n' ∉ mark) (isMark : mark ≠ [])
include noBreak isMark

theorem exists_mem_tail_textLines_iff (text : List Char) :
    (∃ line ∈ (textLines text).tail, mark <+: line) ↔ '\n' :: mark <:+: text := by
  induction text with
  | nil => simp [textLines]
  | cons c text ih =>
    rw [List.infix_cons_iff, ← ih, List.cons_prefix_cons]
    by_cases isBreak : c = '\n'
    · rw [isBreak, textLines_break, List.tail_cons, ← prefix_headD_textLines_iff noBreak text]
      cases textLines text with
      | nil => simp [isMark]
      | cons line lines => simp
    · rw [textLines_cons isBreak, List.tail_cons]
      simp [Ne.symm isBreak]

theorem not_suffix_concat_break (text : List Char) : ¬ '\n' :: mark <:+ text ++ ['\n'] := by
  rintro ⟨before, split⟩
  obtain ⟨front, last, rfl⟩ := List.eq_nil_or_concat' mark |>.resolve_left isMark
  have isLast := congrArg List.getLast? split
  simp only [List.getLast?_concat, ← List.cons_append, ← List.append_assoc] at isLast
  cases isLast
  exact noBreak (List.mem_append_right _ List.mem_cons_self)

/-- No line break in front, and one at the end, put the mark behind no further line break. -/
theorem infix_between_iff (leads : '\n' ∉ lead) (text : List Char) :
    '\n' :: mark <:+: lead ++ text ++ ['\n'] ↔ '\n' :: mark <:+: text := by
  rw [List.infix_concat_iff, or_iff_right (not_suffix_concat_break noBreak isMark _)]
  induction lead with
  | nil => rfl
  | cons c lead ih =>
    obtain ⟨differs, leads⟩ := not_or.1 (mt List.mem_cons.2 leads)
    rw [List.cons_append, List.infix_cons_iff, ih leads, List.cons_prefix_cons, or_iff_right]
    exact fun both => differs both.1

/-- A marked text is one marked line, unless the mark follows a line break in it. -/
theorem length_markedLines_eq_one_iff (text : List Char) :
    (markedLines mark (mark ++ text ++ ['\n'])).length = 1 ↔ ¬ '\n' :: mark <:+: text := by
  rw [← infix_between_iff noBreak isMark noBreak, ← exists_mem_tail_textLines_iff noBreak isMark, markedLines]
  have isFirst := (prefix_headD_textLines_iff noBreak (mark ++ text ++ ['\n'])).2
    (List.append_assoc mark text _ ▸ List.prefix_append mark _)
  cases split : textLines (mark ++ text ++ ['\n']) with
  | nil =>
    rw [split] at isFirst
    exact absurd (List.prefix_nil.1 isFirst) isMark
  | cons line lines =>
    rw [split, List.headD_cons] at isFirst
    rw [List.filter_cons_of_pos (List.isPrefixOf_iff_prefix.2 isFirst)]
    simp [List.filter_eq_nil_iff]

end

end Highlighter
