import Highlighter.Format
import Highlighter.Proofs.Number.Digits
import Highlighter.Proofs.Span.Preorder
import Highlighter.Proofs.Text.Quoted

/-!
The tree view has a line for each span, in preorder, and loses nothing. A label gives back what it was made of
(`Tree.label_inj`), and the connectors tell the last of the siblings. What follows the lines under a margin
does not have this margin in front (`Tree.Leaves`), so where the children of a span end can be told
(`Tree.lines_inj`). Equal outputs are those of equal records (`Format.tree_faithful`).
-/

set_option autoImplicit false

namespace Highlighter

namespace Tree

variable {source otherSource indent rest others : List Char} {isLast : Bool}

/-! ### Lines -/

/-- A line of the view: what joins it to the margin, and its span. -/
structure Row where
  lead : List Char
  span : Span

def Row.text (source : List Char) (row : Row) : List Char :=
  row.lead ++ label source row.span.category row.span.start row.span.stop

mutual

/-- The row of a span, and those under it with its margin in front. -/
def rowsOf (indent : List Char) (isLast : Bool) : Span → List Row
  | ⟨category, start, stop, children⟩ =>
    ⟨indent ++ connector isLast, ⟨category, start, stop, children⟩⟩ :: rows (indent ++ margin isLast) children

def rows (indent : List Char) : List Span → List Row
  | [] => []
  | span :: spans => rowsOf indent spans.isEmpty span ++ rows indent spans

end

/-- Rows written out, each on a line of its own. -/
def write (source : List Char) (rows : List Row) : List Char :=
  rows.flatMap fun row => row.text source ++ ['\n']

theorem write_append (source : List Char) (rows more : List Row) :
    write source (rows ++ more) = write source rows ++ write source more :=
  List.flatMap_append

mutual

theorem span_rowsOf (indent : List Char) (isLast : Bool) :
    ∀ span : Span, (rowsOf indent isLast span).map (·.span) = span.preorder
  | ⟨category, start, stop, children⟩ => by
    simp [rowsOf, Span.preorder, span_rows _ children]

theorem span_rows (indent : List Char) :
    ∀ spans : List Span, (rows indent spans).map (·.span) = Span.preorderAll spans
  | [] => rfl
  | span :: spans => by
    rw [rows, List.map_append, span_rowsOf indent _ span, span_rows indent spans, Span.preorderAll]

end

mutual

theorem lineOf_eq_write (source indent : List Char) (isLast : Bool) :
    ∀ span : Span, lineOf source indent isLast span = write source (rowsOf indent isLast span)
  | ⟨category, start, stop, children⟩ => by
    rw [lineOf, rowsOf, lines_eq_write source _ children]
    simp [write, Row.text]

theorem lines_eq_write (source indent : List Char) :
    ∀ spans : List Span, lines source indent spans = write source (rows indent spans)
  | [] => rfl
  | span :: spans => by
    rw [lines, rows, write_append, lineOf_eq_write source indent _ span, lines_eq_write source indent spans]

end

/-! ### Labels -/

theorem noBreak_connector (isLast : Bool) : '\n' ∉ connector isLast := by
  cases isLast <;> decide

theorem noBreak_margin (isLast : Bool) : '\n' ∉ margin isLast := by
  cases isLast <;> decide

theorem noBreak_label (source : List Char) (category : Category) (start stop : Nat) :
    '\n' ∉ label source category start stop := by
  simp [label, Category.noBreak_name, noBreak_decimal, Quoted.noBreak_quote]

mutual

theorem noBreak_rowsOf (source : List Char) {indent : List Char} (noBreak : '\n' ∉ indent) (isLast : Bool) :
    ∀ span : Span, ∀ row ∈ rowsOf indent isLast span, '\n' ∉ row.text source
  | ⟨category, start, stop, children⟩ => by
    have inside : '\n' ∉ indent ++ margin isLast := by
      simp [noBreak, noBreak_margin]
    have own : '\n' ∉ indent ++ connector isLast ++ label source category start stop := by
      simp [noBreak, noBreak_connector, noBreak_label]
    exact List.forall_mem_cons.2 ⟨own, noBreak_rows source inside children⟩

theorem noBreak_rows (source : List Char) {indent : List Char} (noBreak : '\n' ∉ indent) :
    ∀ spans : List Span, ∀ row ∈ rows indent spans, '\n' ∉ row.text source
  | [] => by simp [rows]
  | span :: spans => by
    intro row known
    rcases List.mem_append.1 known with own | later
    · exact noBreak_rowsOf source noBreak _ span row own
    · exact noBreak_rows source noBreak spans row later

end

theorem count_write {rows : List Row} (noBreak : ∀ row ∈ rows, '\n' ∉ row.text source) :
    (write source rows).count '\n' = rows.length := by
  induction rows with
  | nil => rfl
  | cons row rows ih =>
    obtain ⟨own, later⟩ := List.forall_mem_cons.1 noBreak
    have behind := ih later
    rw [write] at behind ⊢
    rw [List.flatMap_cons, List.count_append, List.count_append, List.count_eq_zero_of_not_mem own, behind,
      List.count_singleton_self, List.length_cons, Nat.zero_add, Nat.add_comm]

theorem label_append (source : List Char) (category : Category) (start stop : Nat) (rest : List Char) :
    label source category start stop ++ rest = category.name.toList ++ ' ' :: (decimal start ++ '.' :: '.' ::
      (decimal stop ++ ' ' :: (Quoted.quote (Span.textOf source start stop) ++ rest))) := by
  simp [label]

theorem decimal_append_inj {n m : Nat} {c d : Char} (noDigit : c.isDigit = false)
    (noDigitOther : d.isDigit = false) (same : decimal n ++ c :: rest = decimal m ++ d :: others) :
    n = m ∧ rest = others := by
  obtain ⟨isNumber, isRest⟩ := run_inj (fun _ => isDigit_of_mem_decimal) (fun _ => isDigit_of_mem_decimal)
    (endsRun_cons noDigit) (endsRun_cons noDigitOther) same
  exact ⟨decimal_injective isNumber, (List.cons.inj isRest).2⟩

theorem label_inj {category otherCategory : Category} {start stop otherStart otherStop : Nat}
    (same : label source category start stop ++ rest =
      label otherSource otherCategory otherStart otherStop ++ others) :
    category = otherCategory ∧ start = otherStart ∧ stop = otherStop ∧
      Span.textOf source start stop = Span.textOf otherSource otherStart otherStop ∧ rest = others := by
  -- Each field ends at a character that it cannot have in it, and the text at its closing quote.
  rw [label_append, label_append] at same
  obtain ⟨sameName, same⟩ := run_inj (fun _ => Category.isNameChar_of_mem_name)
    (fun _ => Category.isNameChar_of_mem_name) (endsRun_cons rfl) (endsRun_cons rfl) same
  obtain ⟨sameStart, same⟩ := decimal_append_inj rfl rfl (List.cons.inj same).2
  obtain ⟨sameStop, same⟩ := decimal_append_inj rfl rfl (List.cons.inj same).2
  obtain ⟨sameText, isRest⟩ := Quoted.quote_inj same
  exact ⟨Category.name_injective (String.toList_inj.1 sameName), sameStart, sameStop, sameText, isRest⟩

/-! ### Margins -/

/-- What follows does not go on behind the margin. -/
def Leaves (indent rest : List Char) : Prop := ∀ c more, rest ≠ indent ++ c :: more

theorem connector_inj {other : Bool} (same : connector isLast ++ rest = connector other ++ others) :
    isLast = other ∧ rest = others := by
  cases isLast <;> cases other <;> simp_all [connector]

/-- The line of a span, with what follows it: the lines inside it, and then those behind it. -/
theorem lines_cons_append (source indent : List Char) (category : Category) (start stop : Nat)
    (children spans : List Span) (rest : List Char) :
    lines source indent (⟨category, start, stop, children⟩ :: spans) ++ rest =
      indent ++ (connector spans.isEmpty ++ (label source category start stop ++ '\n' ::
        (lines source (indent ++ margin spans.isEmpty) children ++ (lines source indent spans ++ rest)))) := by
  simp [lines, lineOf]

theorem exists_lines_cons (source indent : List Char) (span : Span) (spans : List Span) (rest : List Char) :
    ∃ more, lines source indent (span :: spans) ++ rest = indent ++ (connector spans.isEmpty ++ more) := by
  obtain ⟨category, start, stop, children⟩ := span
  exact ⟨_, lines_cons_append source indent category start stop children spans rest⟩

theorem Leaves.ne_lines (leaves : Leaves indent rest) (source : List Char) (span : Span) (spans : List Span)
    (others : List Char) : rest ≠ lines source indent (span :: spans) ++ others := by
  obtain ⟨more, split⟩ := exists_lines_cons source indent span spans others
  rw [split, connector]
  split
  · exact leaves _ _
  · exact leaves _ _

/-- The children of a span end at its next sibling, or where those of its parent end. -/
theorem leaves_children (leaves : Leaves indent rest) (source : List Char) (spans : List Span) :
    Leaves (indent ++ margin spans.isEmpty) (lines source indent spans ++ rest) := by
  intro c more same
  rw [List.append_assoc] at same
  cases spans with
  | nil => exact leaves _ _ same
  | cons span spans =>
    obtain ⟨behind, split⟩ := exists_lines_cons source indent span spans rest
    rw [split] at same
    -- What joins the sibling to the margin is not the margin of what is under its elder.
    have margins := List.append_cancel_left same
    cases isLast : spans.isEmpty <;> simp_all [connector, margin]

theorem lines_inj : ∀ (spans other : List Span) {indent rest others : List Char},
    Leaves indent rest → Leaves indent others →
      lines source indent spans ++ rest = lines otherSource indent other ++ others →
        Record.ofSpans source spans = Record.ofSpans otherSource other ∧ rest = others
  | [], [] => fun _ _ same => ⟨rfl, same⟩
  | [], span :: other => fun leaves _ same => absurd same (leaves.ne_lines _ _ _ _)
  | span :: spans, [] => fun _ leavesOther same => absurd same.symm (leavesOther.ne_lines _ _ _ _)
  | ⟨category, start, stop, children⟩ :: spans, ⟨_, _, _, otherChildren⟩ :: other => by
    intro leaves leavesOther same
    rw [lines_cons_append, lines_cons_append] at same
    -- Both are the last of their siblings or neither is, so what is under them has the same margin.
    obtain ⟨sameLast, same⟩ := connector_inj (List.append_cancel_left same)
    obtain ⟨rfl, rfl, rfl, sameText, same⟩ := label_inj same
    have inside := leaves_children leaves source spans
    have insideOther := leaves_children leavesOther otherSource other
    rw [← sameLast] at insideOther same
    obtain ⟨sameChildren, behind⟩ := lines_inj children otherChildren inside insideOther (List.cons.inj same).2
    obtain ⟨sameSpans, isRest⟩ := lines_inj spans other leaves leavesOther behind
    simp only [Record.ofSpans, Record.ofSpan, sameText, sameChildren, sameSpans]
    exact ⟨trivial, isRest⟩

theorem render_inj {spans other : List Span} (same : render source spans = render otherSource other) :
    Record.ofSpans source spans = Record.ofSpans otherSource other := by
  have ends : Leaves [] [] := fun c more => (List.cons_ne_nil c more).symm
  have behind : lines source [] spans ++ [] = lines otherSource [] other ++ [] := by
    simpa only [List.append_nil, render] using same
  exact (lines_inj spans other ends ends behind).1

end Tree

namespace Format

/-- The output has a line for each span, in the order of `Span.flatten`, with the label of the span behind what
joins it to the margin; and equal outputs have equal records. -/
theorem tree_faithful :
    (∀ source spans, tree.render source spans =
        .ok ((Tree.rows [] spans).flatMap fun row => row.text source ++ ['\n'])) ∧
    (∀ spans, (Tree.rows [] spans).map (·.span) = Span.flatten spans) ∧
    (∀ source spans, ∀ row ∈ Tree.rows [] spans, '\n' ∉ row.text source) ∧
    (∀ source spans, ∃ output, tree.render source spans = .ok output ∧
      output.count '\n' = (Span.flatten spans).length) ∧
    ∀ source spans otherSource otherSpans,
      tree.render source spans = tree.render otherSource otherSpans →
        Record.ofSpans source spans = Record.ofSpans otherSource otherSpans := by
  have isWritten source spans : tree.render source spans = .ok (Tree.write source (Tree.rows [] spans)) :=
    congrArg Except.ok (Tree.lines_eq_write source [] spans)
  have inOrder spans : (Tree.rows [] spans).map (·.span) = Span.flatten spans := by
    rw [Tree.span_rows, Span.flatten_eq_preorderAll]
  have noBreak source spans : ∀ row ∈ Tree.rows [] spans, '\n' ∉ row.text source :=
    Tree.noBreak_rows source List.not_mem_nil spans
  refine ⟨isWritten, inOrder, noBreak, ?_, ?_⟩
  · intro source spans
    refine ⟨_, isWritten source spans, ?_⟩
    rw [Tree.count_write (noBreak source spans), ← inOrder, List.length_map]
  · intro source spans otherSource otherSpans same
    exact Tree.render_inj (Except.ok.inj same)

/-- A text of two lines, and a word on either of them. -/
def brokenSpans : List Span := [⟨.string, 0, 9, [⟨.keyword, 1, 3, []⟩, ⟨.number, 4, 8, []⟩]⟩]

/-- What stands behind all spans leaves no trace. Line breaks and quotes are written in escapes. -/
theorem tree_faithful_prefix :
    tree.render "\"if\n0x1F\"".toList brokenSpans = tree.render "\"if\n0x1F\" c".toList brokenSpans ∧
      Record.ofSpans "\"if\n0x1F\"".toList brokenSpans = Record.ofSpans "\"if\n0x1F\" c".toList brokenSpans ∧
      (Tree.rows [] brokenSpans).map (Tree.Row.text "\"if\n0x1F\"".toList) =
        ["└─ string 0..9 \"\\\"if\\n0x1F\\\"\"".toList, "   ├─ keyword 1..3 \"if\"".toList,
          "   └─ number 4..8 \"0x1F\"".toList] := by
  have same : tree.render "\"if\n0x1F\"".toList brokenSpans =
      tree.render "\"if\n0x1F\" c".toList brokenSpans := rfl
  exact ⟨same, tree_faithful.2.2.2.2 _ _ _ _ same, by decide +kernel⟩

end Format

end Highlighter
