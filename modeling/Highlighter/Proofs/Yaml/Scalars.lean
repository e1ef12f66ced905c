import Highlighter.Proofs.Yaml.Quoting

/-!
YAML scalars are told apart. What a text is written as, in any style, no other text is written as, whatever
follows that is indented less (`Yaml.write_inj`). The first character tells the style. A text that stands plain
is one that is read as a text (`Yaml.resolve_of_plain`).
-/

set_option autoImplicit false

namespace Highlighter.Yaml

variable {text other rest others : List Char} {indent : Nat} {behindBreak : Bool}

/-! ### Lines -/

theorem upToBreak_inj (line : '\n' ∉ text) (lineOther : '\n' ∉ other)
    (same : text ++ '\n' :: rest = other ++ '\n' :: others) : text = other ∧ rest = others := by
  have inLine {text : List Char} (line : '\n' ∉ text) : ∀ c ∈ text, (c != '\n') = true := by
    intro c known
    rw [bne_iff_ne]
    rintro rfl
    exact line known
  obtain ⟨isText, isRest⟩ := run_inj (inLine line) (inLine lineOther) (endsRun_cons rfl) (endsRun_cons rfl) same
  exact ⟨isText, (List.cons.inj isRest).2⟩

/-! ### Styles -/

theorem plain_of_style (isPlain : style text = .plain) :
    wished text = .plain ∧ plainAllowed text = true := by
  unfold style at isPlain
  split at isPlain
  · split at isPlain <;> cases isPlain
  · next isWished =>
    split at isPlain
    · next allowed => exact ⟨isWished, allowed⟩
    · split at isPlain <;> cases isPlain
  · split at isPlain <;> cases isPlain

theorem wished_eq_plain (isPlain : wished text = .plain) : '\n' ∉ text ∧ resolve text = .text := by
  unfold wished at isPlain
  split at isPlain
  · cases isPlain
  next oneLine =>
  split at isPlain
  · cases isPlain
  · next safe =>
    rw [Bool.or_eq_true, not_or, bne_iff_ne, ne_eq, Classical.not_not] at safe
    exact ⟨by simpa using oneLine, safe.1⟩

/-- What stands plain is read as a text. -/
theorem resolve_of_plain (isPlain : style text = .plain) : resolve text = .text :=
  (wished_eq_plain (plain_of_style isPlain).1).2

theorem ne_nil_of_plain (isPlain : style text = .plain) : text ≠ [] := by
  rintro rfl
  cases resolve_of_plain isPlain

theorem head_of_plain (isPlain : style text = .plain) :
    ∃ c more, text = c :: more ∧ c ≠ '\'' ∧ c ≠ '"' ∧ c ≠ '|' := by
  obtain ⟨c, more, rfl⟩ := List.exists_cons_of_ne_nil (ne_nil_of_plain isPlain)
  have allowed := (plain_of_style isPlain).2
  have noIndicator : hasIndicator none (c :: more) = false := by
    simp only [plainAllowed, Bool.and_eq_true, Bool.not_eq_true'] at allowed
    exact allowed.2
  rw [hasIndicator, Bool.or_eq_false_iff] at noIndicator
  refine ⟨c, more, rfl, ?_, ?_, ?_⟩
  all_goals
    rintro rfl
    cases noIndicator.1

/-! ### Blocks -/

/-- The last line ended. -/
def closed (text : List Char) : List Char :=
  if text.getLast?.any isBreak then text else text ++ ['\n']

theorem writeLines_concat (indent : Nat) (behindBreak : Bool) (text : List Char) :
    writeLines indent behindBreak (text ++ ['\n']) = writeLines indent behindBreak text ++ ['\n'] := by
  induction text generalizing behindBreak with
  | nil => rfl
  | cons c text ih =>
    rw [List.cons_append, writeLines, writeLines]
    split
    · rw [ih, List.cons_append]
    · rw [ih, List.append_assoc, List.cons_append]

theorem writeLines_closed (indent : Nat) (behindBreak : Bool) (text : List Char) :
    writeLines indent behindBreak text ++ (if text.getLast?.any isBreak then [] else ['\n']) =
      writeLines indent behindBreak (closed text) := by
  unfold closed
  split
  · exact List.append_nil _
  · exact (writeLines_concat indent behindBreak text).symm

theorem breaksLast_concat (behindBreak : Bool) (text : List Char) (c : Char) :
    breaksLast behindBreak (text ++ [c]) = isBreak c := by
  induction text generalizing behindBreak with
  | nil => rfl
  | cons d text ih => exact ih _

theorem breaksLast_closed (text : List Char) : breaksLast behindBreak (closed text) = true := by
  unfold closed
  split
  · next ends =>
    rcases List.eq_nil_or_concat text with rfl | ⟨text, c, rfl⟩
    · cases ends
    · rw [List.concat_eq_append, List.getLast?_concat] at ends
      rw [List.concat_eq_append, breaksLast_concat]
      exact ends
  · exact breaksLast_concat _ _ _

theorem length_le_closed (text : List Char) : text.length ≤ (closed text).length := by
  unfold closed
  split
  · exact Nat.le_refl _
  · rw [List.length_append]
    exact Nat.le_add_right _ _

theorem closed_inj (sameEnd : text.getLast?.any isBreak = other.getLast?.any isBreak)
    (same : closed text = closed other) : text = other := by
  unfold closed at same
  rw [sameEnd] at same
  split at same
  · exact same
  · exact List.append_cancel_right same

/-- A minus stands for a last line that does not end. -/
theorem chomping_cases (text : List Char) :
    chomping text = ['-'] ∧ text.getLast?.any isBreak = false ∨
      (chomping text = ['+'] ∨ chomping text = []) ∧ text.getLast?.any isBreak = true := by
  rw [← List.head?_reverse, chomping]
  split
  · next reversed => exact .inl ⟨rfl, by rw [reversed]; rfl⟩
  next last before reversed =>
  rw [reversed, List.head?_cons, Option.any_some]
  cases isBreak last with
  | false => exact .inl ⟨rfl, rfl⟩
  | true =>
    refine .inr ⟨?_, rfl⟩
    simp only [Bool.not_true, Bool.false_eq_true, if_false]
    split
    · exact .inl rfl
    · split
      · exact .inl rfl
      · exact .inr rfl

theorem sameEnd_of_chomping (same : chomping text = chomping other) :
    text.getLast?.any isBreak = other.getLast?.any isBreak := by
  rcases chomping_cases text with ⟨minus, ends⟩ | ⟨signs, ends⟩ <;>
    rcases chomping_cases other with ⟨minusOther, endsOther⟩ | ⟨signsOther, endsOther⟩
  · rw [ends, endsOther]
  · rw [← same, minus] at signsOther
    exact absurd signsOther (by decide)
  · rw [same, minusOther] at signs
    exact absurd signs (by decide)
  · rw [ends, endsOther]

/-- What stands between the bar and the lines. -/
theorem header_cases (text : List Char) : (indentation text = [] ∨ indentation text = ['2']) ∧
    (chomping text = ['-'] ∨ chomping text = ['+'] ∨ chomping text = []) := by
  constructor
  · unfold indentation
    split
    · exact .inr rfl
    · exact .inl rfl
  · exact (chomping_cases text).imp And.left And.left

/-- The figure for the indentation is not taken for a sign of the chomping. -/
theorem filter_header (text : List Char) :
    (indentation text ++ chomping text).filter (· != '2') = chomping text := by
  obtain ⟨figure | figure, sign | sign | sign⟩ := header_cases text <;> rw [figure, sign] <;> rfl

theorem noBreak_header (text : List Char) : '\n' ∉ indentation text ++ chomping text := by
  obtain ⟨figure | figure, sign | sign | sign⟩ := header_cases text <;> rw [figure, sign] <;> decide

/-! ### All styles -/

/-- The style of what begins with this character. -/
def styleOf (c : Char) : Style :=
  if c = '\'' then .single else if c = '"' then .double else if c = '|' then .literal else .plain

theorem write_plain (isPlain : style text = .plain) : write indent text = text ++ ['\n'] := by
  simp [write, isPlain]

theorem write_single (isSingle : style text = .single) (rest : List Char) :
    write indent text ++ rest = '\'' :: (writeSingle indent false text ++ '\'' :: '\n' :: rest) := by
  simp [write, isSingle]

theorem write_double (isDouble : style text = .double) (rest : List Char) :
    write indent text ++ rest = '"' :: (text.flatMap escapeDouble ++ '"' :: '\n' :: rest) := by
  simp [write, isDouble]

theorem write_literal (isLiteral : style text = .literal) (rest : List Char) :
    write indent text ++ rest = '|' :: (indentation text ++ chomping text ++
      '\n' :: (writeLines indent true (closed text) ++ rest)) := by
  rw [← writeLines_closed]
  simp [write, isLiteral]

/-- A text that is written as it is stands plain; all other styles take more than the end of the line. -/
theorem style_of_write (asIs : write indent text = text ++ ['\n']) : style text = .plain := by
  have length := congrArg List.length (congrArg (· ++ []) asIs)
  simp only [List.append_nil, List.length_append, List.length_singleton] at length
  cases isStyle : style text with
  | plain => rfl
  | single =>
    have longer := length_le_writeUnits units_doubled indent false text
    rw [← List.append_nil (write _ _), write_single isStyle, writeSingle_eq] at length
    simp only [List.length_append, List.length_cons] at length
    omega
  | double =>
    have longer := escapes_double.length_le text
    rw [← List.append_nil (write _ _), write_double isStyle] at length
    simp only [List.length_append, List.length_cons] at length
    omega
  | literal =>
    have longer := length_le_writeUnits units_single indent true (closed text)
    have same := length_le_closed text
    rw [← List.append_nil (write _ _), write_literal isStyle, writeLines_eq] at length
    simp only [List.length_append, List.length_cons] at length
    omega

theorem exists_head_write (indent : Nat) (text rest : List Char) :
    ∃ c more, write indent text ++ rest = c :: more ∧ styleOf c = style text := by
  cases isStyle : style text with
  | plain =>
    obtain ⟨c, more, rfl, noSingle, noDouble, noBar⟩ := head_of_plain isStyle
    refine ⟨c, more ++ ['\n'] ++ rest, by rw [write_plain isStyle]; rfl, ?_⟩
    rw [styleOf, if_neg noSingle, if_neg noDouble, if_neg noBar]
  | single => exact ⟨'\'', _, write_single isStyle rest, rfl⟩
  | double => exact ⟨'"', _, write_double isStyle rest, rfl⟩
  | literal => exact ⟨'|', _, write_literal isStyle rest, rfl⟩

theorem style_eq_of_write (same : write indent text ++ rest = write indent other ++ others) :
    style text = style other := by
  obtain ⟨c, more, split, isStyle⟩ := exists_head_write indent text rest
  obtain ⟨d, moreOther, splitOther, isOther⟩ := exists_head_write indent other others
  rw [split, splitOther] at same
  rw [← isStyle, ← isOther, (List.cons.inj same).1]

theorem write_inj (positive : 0 < indent) (outdented : Outdented indent rest)
    (outdentedOther : Outdented indent others)
    (same : write indent text ++ rest = write indent other ++ others) : text = other ∧ rest = others := by
  have sameStyle := style_eq_of_write same
  cases isStyle : style text with
  | plain =>
    have isOther := sameStyle.symm.trans isStyle
    rw [write_plain isStyle, write_plain isOther, List.append_assoc, List.append_assoc] at same
    exact upToBreak_inj (wished_eq_plain (plain_of_style isStyle).1).1
      (wished_eq_plain (plain_of_style isOther).1).1 same
  | single =>
    have isOther := sameStyle.symm.trans isStyle
    rw [write_single isStyle, write_single isOther] at same
    obtain ⟨rfl, behind⟩ := writeSingle_inj positive (by simp) (by simp) (List.cons.inj same).2
    exact ⟨rfl, (List.cons.inj behind).2⟩
  | double =>
    have isOther := sameStyle.symm.trans isStyle
    rw [write_double isStyle, write_double isOther] at same
    obtain ⟨rfl, behind⟩ := escapes_double.flatMap_inj (List.cons.inj same).2
    exact ⟨rfl, (List.cons.inj behind).2⟩
  | literal =>
    have isOther := sameStyle.symm.trans isStyle
    rw [write_literal isStyle, write_literal isOther] at same
    obtain ⟨header, block⟩ := upToBreak_inj (noBreak_header _) (noBreak_header _) (List.cons.inj same).2
    have sameChomping : chomping text = chomping other := by
      rw [← filter_header text, header, filter_header]
    obtain ⟨sameText, isRest⟩ := writeLines_inj positive outdented outdentedOther (breaksLast_closed _)
      (breaksLast_closed _) block
    exact ⟨closed_inj (sameEnd_of_chomping sameChomping) sameText, isRest⟩

end Highlighter.Yaml
