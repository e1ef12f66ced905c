import Highlighter.Format
import Highlighter.Proofs.Yaml.Scalars

/-!
YAML output loses nothing. Records are told apart field by field, by the ends of lines and by their texts; what
follows the children of a record stands further left than they do (`Yaml.writeRecords_inj`). So equal outputs
are those of equal records, and a text among them that stands plain is read as a text (`Format.yaml_faithful`).
-/

set_option autoImplicit false

namespace Highlighter

namespace Yaml

variable {rest others : List Char} {indent column : Nat}

/-- What follows is the end, or an item whose hyphen stands further left. -/
def Leaves (column : Nat) (rest : List Char) : Prop :=
  rest = [] ∨ ∃ count more, count < column ∧ rest = spaces count ++ '-' :: more

theorem Leaves.mono (leaves : Leaves column rest) {further : Nat} (order : column ≤ further) :
    Leaves further rest := by
  rcases leaves with empty | ⟨count, more, less, split⟩
  · exact .inl empty
  · exact .inr ⟨count, more, Nat.lt_of_lt_of_le less order, split⟩

theorem Leaves.outdented (leaves : Leaves column rest) : Outdented column rest := by
  rcases leaves with empty | ⟨count, more, less, split⟩
  · exact .inl empty
  · exact .inr ⟨count, '-', more, less, split, by decide, by decide⟩

/-- The field for the children, if there are any. -/
def childField (indent : Nat) (children : List Record) : List Char :=
  if children.isEmpty then [] else spaces indent ++ "children:\n".toList

/-- A field on a line of its own. -/
def line (indent : Nat) (label : String) (value rest : List Char) : List Char :=
  spaces indent ++ (label.toList ++ (value ++ '\n' :: rest))

theorem line_inj {label : String} {value other : List Char} (noBreak : '\n' ∉ value)
    (noBreakOther : '\n' ∉ other) (same : line indent label value rest = line indent label other others) :
    value = other ∧ rest = others :=
  upToBreak_inj noBreak noBreakOther (List.append_cancel_left (List.append_cancel_left same))

def writeFields (indent : Nat) (record : Record) (rest : List Char) : List Char :=
  line (indent - 2) "- category: " record.category.name.toList
    (line indent "start: " (decimal record.start)
      (line indent "end: " (decimal record.stop)
        (spaces indent ++ ("text: ".toList ++ (write (indent + 2) record.text ++ rest)))))

theorem writeRecord_append (indent : Nat) (record : Record) (rest : List Char) :
    writeRecord indent record ++ rest = writeFields indent record
      (childField indent record.children ++ (writeRecords (indent + 2) record.children ++ rest)) := by
  obtain ⟨category, start, stop, text, children⟩ := record
  simp only [writeRecord, writeFields, line, childField, List.append_assoc, List.cons_append]

theorem writeFields_inj {record other : Record} (outdented : Outdented (indent + 2) rest)
    (outdentedOther : Outdented (indent + 2) others)
    (same : writeFields indent record rest = writeFields indent other others) :
    record.category = other.category ∧ record.start = other.start ∧ record.stop = other.stop ∧
      record.text = other.text ∧ rest = others := by
  obtain ⟨sameName, same⟩ := line_inj (Category.noBreak_name _) (Category.noBreak_name _) same
  obtain ⟨sameStart, same⟩ := line_inj (noBreak_decimal _) (noBreak_decimal _) same
  obtain ⟨sameStop, same⟩ := line_inj (noBreak_decimal _) (noBreak_decimal _) same
  obtain ⟨sameText, isRest⟩ := write_inj (Nat.succ_pos _) outdented outdentedOther
    (List.append_cancel_left (List.append_cancel_left same))
  exact ⟨Category.name_injective (String.toList_inj.1 sameName), decimal_injective sameStart,
    decimal_injective sameStop, sameText, isRest⟩

/-- The hyphen of the first item comes first. -/
theorem exists_writeRecords (indent : Nat) (record : Record) (records : List Record) (rest : List Char) :
    ∃ more, writeRecords indent (record :: records) ++ rest = spaces (indent - 2) ++ '-' :: more := by
  rw [writeRecords, List.append_assoc, writeRecord_append]
  exact ⟨_, rfl⟩

theorem leaves_writeRecords (leaves : Leaves column rest) (below : indent - 2 < column)
    (records : List Record) : Leaves column (writeRecords indent records ++ rest) := by
  cases records with
  | nil => exact leaves
  | cons record records =>
    obtain ⟨more, split⟩ := exists_writeRecords indent record records rest
    exact .inr ⟨_, more, below, split⟩

theorem Leaves.ne_writeRecords (leaves : Leaves (indent - 2) rest) (record : Record)
    (records : List Record) : rest ≠ writeRecords indent (record :: records) ++ others := by
  obtain ⟨more, split⟩ := exists_writeRecords indent record records others
  rw [split]
  rintro rfl
  rcases leaves with empty | ⟨count, others, less, same⟩
  · exact absurd (List.append_eq_nil_iff.1 empty).2 (List.cons_ne_nil _ _)
  · exact absurd (spaces_inj (by decide) (by decide) same).1 (by omega)

theorem childField_cons (indent : Nat) (child : Record) (children : List Record) :
    childField indent (child :: children) = spaces indent ++ "children:\n".toList := rfl

theorem outdented_children (leaves : Leaves indent rest) (children : List Record) :
    Outdented (indent + 2)
      (childField indent children ++ (writeRecords (indent + 2) children ++ rest)) := by
  cases children with
  | nil => exact (leaves.mono (Nat.le_add_right _ _)).outdented
  | cons child children =>
    rw [childField_cons, List.append_assoc]
    exact .inr ⟨indent, 'c', _, Nat.lt_add_of_pos_right (by decide), rfl, by decide, by decide⟩

/-- Whether there are children shows in what follows the text. -/
theorem children_inj {children other : List Record} (positive : 0 < indent) (leaves : Leaves indent rest)
    (leavesOther : Leaves indent others)
    (isList : writeRecords (indent + 2) children ++ rest = writeRecords (indent + 2) other ++ others →
      children = other ∧ rest = others)
    (same : childField indent children ++ (writeRecords (indent + 2) children ++ rest) =
      childField indent other ++ (writeRecords (indent + 2) other ++ others)) :
    children = other ∧ rest = others := by
  cases children with
  | nil => cases other with
    | nil => exact ⟨rfl, same⟩
    | cons second other =>
      rw [childField_cons, List.append_assoc] at same
      exact absurd same (leaves.outdented.ne_spaces positive _)
  | cons first children => cases other with
    | nil =>
      rw [childField_cons, List.append_assoc] at same
      exact absurd same.symm (leavesOther.outdented.ne_spaces positive _)
    | cons second other => exact isList (List.append_cancel_left same)

mutual

theorem writeRecord_inj : ∀ (record other : Record) (indent : Nat) (rest others : List Char), 2 ≤ indent →
    Leaves indent rest → Leaves indent others →
      writeRecord indent record ++ rest = writeRecord indent other ++ others → record = other ∧ rest = others
  | ⟨_, _, _, _, children⟩, ⟨_, _, _, _, other⟩ => by
    intro indent rest others indents leaves leavesOther same
    rw [writeRecord_append, writeRecord_append] at same
    obtain ⟨rfl, rfl, rfl, rfl, behind⟩ := writeFields_inj (outdented_children leaves _)
      (outdented_children leavesOther _) same
    have isList := writeRecords_inj children other (indent + 2) rest others (by omega) leaves leavesOther
    obtain ⟨rfl, isRest⟩ := children_inj (by omega) leaves leavesOther isList behind
    exact ⟨rfl, isRest⟩

theorem writeRecords_inj : ∀ (records other : List Record) (indent : Nat) (rest others : List Char),
    2 ≤ indent → Leaves (indent - 2) rest → Leaves (indent - 2) others →
      writeRecords indent records ++ rest = writeRecords indent other ++ others →
        records = other ∧ rest = others
  | [], [] => fun _ _ _ _ _ _ same => ⟨rfl, same⟩
  | [], second :: other => by
    intro indent rest others _ leaves _ same
    exact absurd same (leaves.ne_writeRecords second other)
  | first :: records, [] => by
    intro indent rest others _ _ leavesOther same
    exact absurd same.symm (leavesOther.ne_writeRecords first records)
  | first :: records, second :: other => by
    intro indent rest others indents leaves leavesOther same
    rw [writeRecords, writeRecords, List.append_assoc, List.append_assoc] at same
    have below : indent - 2 < indent := by omega
    have order : indent - 2 ≤ indent := Nat.le_of_lt below
    obtain ⟨rfl, behind⟩ := writeRecord_inj first second indent _ _ indents
      (leaves_writeRecords (leaves.mono order) below records)
      (leaves_writeRecords (leavesOther.mono order) below other) same
    obtain ⟨rfl, isRest⟩ := writeRecords_inj records other indent _ _ indents leaves leavesOther behind
    exact ⟨rfl, isRest⟩

end

theorem renderRecords_inj {records other : List Record}
    (same : renderRecords records = renderRecords other) : records = other := by
  have ends : Leaves (2 - 2) [] := .inl rfl
  cases records with
  | nil => cases other with
    | nil => rfl
    | cons second other =>
      obtain ⟨more, split⟩ := exists_writeRecords 2 second other []
      rw [List.append_nil] at split
      have head : some '[' = some '-' := congrArg List.head? (same.trans split)
      exact absurd head (by decide)
  | cons first records => cases other with
    | nil =>
      obtain ⟨more, split⟩ := exists_writeRecords 2 first records []
      rw [List.append_nil] at split
      have head : some '-' = some '[' := congrArg List.head? (split.symm.trans same)
      exact absurd head (by decide)
    | cons second other =>
      have behind : writeRecords 2 (first :: records) ++ [] = writeRecords 2 (second :: other) ++ [] := by
        rw [List.append_nil, List.append_nil]
        exact same
      exact (writeRecords_inj _ _ 2 _ _ (Nat.le_refl 2) ends ends behind).1

end Yaml

namespace Record

mutual

/-- A record, and behind it all records under it. -/
def preorder : Record → List Record
  | ⟨category, start, stop, text, children⟩ => ⟨category, start, stop, text, children⟩ :: preorderAll children

def preorderAll : List Record → List Record
  | [] => []
  | record :: records => record.preorder ++ preorderAll records

end

end Record

namespace Format

/-- Equal outputs have equal records, and of these a text that is written as it is, with nothing around it, is
read as a text. -/
theorem yaml_faithful :
    (∀ source spans otherSource otherSpans,
      yaml.render source spans = yaml.render otherSource otherSpans →
        Record.ofSpans source spans = Record.ofSpans otherSource otherSpans) ∧
    ∀ source spans, ∀ record ∈ Record.preorderAll (Record.ofSpans source spans), ∀ indent,
      Yaml.write indent record.text = record.text ++ ['\n'] → Yaml.resolve record.text = .text := by
  constructor
  · intro source spans otherSource otherSpans same
    exact Yaml.renderRecords_inj (Except.ok.inj same)
  · intro source spans record _ indent asIs
    exact Yaml.resolve_of_plain (Yaml.style_of_write asIs)

/-- A text between quotes, and two words inside it. -/
def quotedSpans : List Span := [⟨.string, 0, 9, [⟨.boolean, 1, 5, []⟩, ⟨.number, 7, 8, []⟩]⟩]

/-- What stands behind all spans leaves no trace. The word that would be read as a truth value is quoted, the other
is written as it is. -/
theorem yaml_faithful_prefix :
    yaml.render "'true: b'".toList quotedSpans = yaml.render "'true: b' c".toList quotedSpans ∧
      Record.ofSpans "'true: b'".toList quotedSpans = Record.ofSpans "'true: b' c".toList quotedSpans ∧
      Yaml.write 4 "'true: b'".toList = "'''true: b'''\n".toList ∧ Yaml.write 6 "true".toList = "'true'\n".toList ∧
      Yaml.write 6 ['b'] = ['b', '\n'] ∧ Yaml.resolve ['b'] = .text := by
  have same : yaml.render "'true: b'".toList quotedSpans = yaml.render "'true: b' c".toList quotedSpans := rfl
  have asIs : Yaml.write 6 ['b'] = ['b', '\n'] := by decide +kernel
  have known : (⟨.number, 7, 8, ['b'], []⟩ : Record) ∈
      Record.preorderAll (Record.ofSpans "'true: b'".toList quotedSpans) :=
    List.mem_cons_of_mem _ (List.mem_cons_of_mem _ List.mem_cons_self)
  exact ⟨same, yaml_faithful.1 _ _ _ _ same, by decide +kernel, by decide +kernel, asIs,
    yaml_faithful.2 _ _ _ known 6 asIs⟩

end Format

end Highlighter
