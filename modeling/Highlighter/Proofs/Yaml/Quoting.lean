import Highlighter.Format.Yaml.Scalar
import Highlighter.Proofs.Number.Digits
import Highlighter.Proofs.Text.Escapes
import Highlighter.Proofs.Text.Runs

/-!
What YAML scalars are put into can be taken off again. In single quotes and in blocks the indentation behind
line breaks is all that is added, but for quotes that are doubled, so one induction covers both
(`Yaml.writeUnits_inj`). In double quotes each character is read back from its escape
(`Yaml.char?_escapeDouble`).
-/

set_option autoImplicit false

namespace Highlighter.Yaml

variable {c d : Char} {text other rest others more : List Char} {indent column : Nat} {behindBreak : Bool}

/-! ### Indentation -/

/-- What follows ends the text, or is indented less. -/
def Outdented (column : Nat) (rest : List Char) : Prop :=
  rest = [] ∨ ∃ count c more, count < column ∧ rest = spaces count ++ c :: more ∧ c ≠ ' ' ∧
    isBreak c = false

theorem spaces_inj (dark : c ≠ ' ') (darkOther : d ≠ ' ') {count others : Nat} {rest more : List Char}
    (same : spaces count ++ c :: rest = spaces others ++ d :: more) :
    count = others ∧ c = d ∧ rest = more := by
  have blank (count : Nat) : ∀ c ∈ spaces count, (c == ' ') = true := by
    simp [spaces]
  obtain ⟨isCount, isRest⟩ := run_inj (blank count) (blank others)
    (endsRun_cons (beq_eq_false_iff_ne.2 dark)) (endsRun_cons (beq_eq_false_iff_ne.2 darkOther)) same
  have length := congrArg List.length isCount
  simp only [spaces, List.length_replicate] at length
  exact ⟨length, List.cons.inj isRest⟩

theorem spaces_add (count more : Nat) : spaces (count + more) = spaces count ++ spaces more := by
  simp [spaces]

theorem Outdented.ne_spaces (outdented : Outdented column rest) (positive : 0 < column)
    (text : List Char) : rest ≠ spaces column ++ text := by
  rintro rfl
  rcases outdented with empty | ⟨count, c, more, less, split, dark, _⟩
  · obtain ⟨column, rfl⟩ : ∃ less, column = less + 1 := ⟨column - 1, by omega⟩
    cases empty
  · obtain ⟨further, rfl⟩ : ∃ further, column = count + (further + 1) := ⟨column - count - 1, by omega⟩
    rw [spaces_add, List.append_assoc] at split
    exact dark (List.cons.inj (List.append_cancel_left split)).1.symm

theorem Outdented.ne_break (outdented : Outdented column rest) (broken : isBreak c = true) :
    rest ≠ c :: more := by
  rintro rfl
  rcases outdented with empty | ⟨count, d, others, _, split, _, noBreak⟩
  · cases empty
  · cases count with
    | zero =>
      cases split
      rw [broken] at noBreak
      cases noBreak
    | succ count =>
      rw [(List.cons.inj split).1] at broken
      cases broken

/-! ### Units behind line breaks -/

/-- Whether a line break comes last. -/
def breaksLast (behindBreak : Bool) : List Char → Bool
  | [] => behindBreak
  | c :: rest => breaksLast (isBreak c) rest

def margin (indent : Nat) (behindBreak : Bool) : List Char := if behindBreak then spaces indent else []

/-- Line breaks as they are, all else in units, and a margin behind each line break but the last. -/
def writeUnits (unit : Char → List Char) (indent : Nat) (behindBreak : Bool) : List Char → List Char
  | [] => []
  | c :: rest =>
    if isBreak c then c :: writeUnits unit indent true rest
    else margin indent behindBreak ++ (unit c ++ writeUnits unit indent false rest)

/-- No unit begins another, and none begins with a line break unless it is one. -/
structure Units (unit : Char → List Char) : Prop where
  inj : ∀ {c d rest others}, unit c ++ rest = unit d ++ others → c = d ∧ rest = others
  dark : ∀ {c}, isBreak c = false → ∀ d ∈ (unit c).head?, isBreak d = false
  nonempty : ∀ c, unit c ≠ []

/-- The text does not go on here. -/
structure Closes (unit : Char → List Char) (indent : Nat) (behindBreak : Bool) (rest : List Char) : Prop where
  noBreak : ∀ c more, isBreak c = true → rest ≠ c :: more
  noUnit : ∀ c more, isBreak c = false → rest ≠ margin indent behindBreak ++ (unit c ++ more)

section

variable {unit : Char → List Char}

theorem Units.ne_break (units : Units unit) (positive : 0 < indent) (broken : isBreak c = true)
    (noBreak : isBreak d = false) : c :: rest ≠ margin indent behindBreak ++ (unit d ++ others) := by
  unfold margin
  intro same
  split at same
  · obtain ⟨less, rfl⟩ : ∃ less, indent = less + 1 := ⟨indent - 1, by omega⟩
    rw [(List.cons.inj same).1] at broken
    cases broken
  · obtain ⟨e, more, split⟩ := List.exists_cons_of_ne_nil (units.nonempty d)
    have dark := units.dark noBreak e (by simp [split])
    rw [List.nil_append, split] at same
    rw [← (List.cons.inj same).1, broken] at dark
    cases dark

theorem writeUnits_of_break (broken : isBreak c = true) :
    writeUnits unit indent behindBreak (c :: text) = c :: writeUnits unit indent true text := by
  rw [writeUnits, if_pos broken]

theorem writeUnits_of_no_break (noBreak : isBreak c = false) :
    writeUnits unit indent behindBreak (c :: text) =
      margin indent behindBreak ++ (unit c ++ writeUnits unit indent false text) := by
  rw [writeUnits, if_neg (by simp [noBreak])]

theorem Closes.ne_writeUnits (closes : Closes unit indent behindBreak rest) :
    rest ≠ writeUnits unit indent behindBreak (c :: text) ++ others := by
  cases broken : isBreak c with
  | true =>
    rw [writeUnits_of_break broken]
    exact closes.noBreak _ _ broken
  | false =>
    rw [writeUnits_of_no_break broken, List.append_assoc, List.append_assoc]
    exact closes.noUnit _ _ broken

theorem writeUnits_inj (units : Units unit) (positive : 0 < indent)
    (closes : Closes unit indent (breaksLast behindBreak text) rest)
    (closesOther : Closes unit indent (breaksLast behindBreak other) others)
    (same : writeUnits unit indent behindBreak text ++ rest =
      writeUnits unit indent behindBreak other ++ others) : text = other ∧ rest = others := by
  induction text generalizing other behindBreak with
  | nil => cases other with
    | nil => exact ⟨rfl, same⟩
    | cons d other => exact absurd same closes.ne_writeUnits
  | cons c text ih => cases other with
    | nil => exact absurd same.symm closesOther.ne_writeUnits
    | cons d other =>
      unfold breaksLast at closes closesOther
      cases broken : isBreak c with
      | true => cases brokenOther : isBreak d with
        | true =>
          rw [writeUnits_of_break broken, writeUnits_of_break brokenOther] at same
          rw [broken] at closes
          rw [brokenOther] at closesOther
          obtain ⟨rfl, behind⟩ := List.cons.inj same
          obtain ⟨rfl, isRest⟩ := ih closes closesOther behind
          exact ⟨rfl, isRest⟩
        | false =>
          rw [writeUnits_of_break broken, writeUnits_of_no_break brokenOther, List.append_assoc,
            List.append_assoc] at same
          exact absurd same (units.ne_break positive broken brokenOther)
      | false => cases brokenOther : isBreak d with
        | true =>
          rw [writeUnits_of_no_break broken, writeUnits_of_break brokenOther, List.append_assoc,
            List.append_assoc] at same
          exact absurd same.symm (units.ne_break positive brokenOther broken)
        | false =>
          rw [writeUnits_of_no_break broken, writeUnits_of_no_break brokenOther] at same
          simp only [List.append_assoc] at same
          rw [broken] at closes
          rw [brokenOther] at closesOther
          obtain ⟨rfl, behind⟩ := units.inj (List.append_cancel_left same)
          obtain ⟨rfl, isRest⟩ := ih closes closesOther behind
          exact ⟨rfl, isRest⟩

theorem length_le_writeUnits (units : Units unit) (indent : Nat) (behindBreak : Bool) (text : List Char) :
    text.length ≤ (writeUnits unit indent behindBreak text).length := by
  induction text generalizing behindBreak with
  | nil => exact Nat.zero_le _
  | cons c text ih =>
    have nonempty := List.length_pos_iff.2 (units.nonempty c)
    cases broken : isBreak c with
    | true =>
      rw [writeUnits_of_break broken]
      exact Nat.succ_le_succ (ih true)
    | false =>
      have behind := ih false
      rw [writeUnits_of_no_break broken, List.length_append, List.length_append, List.length_cons]
      omega

theorem units_single : Units fun c => [c] where
  inj := List.cons.inj
  dark := by
    intro c noBreak d isHead
    cases isHead
    exact noBreak
  nonempty c := List.cons_ne_nil c []

end

/-! ### Single quotes -/

def doubled (c : Char) : List Char := if c == '\'' then ['\'', '\''] else [c]

theorem doubled_quote : doubled '\'' = ['\'', '\''] := rfl

theorem doubled_of_ne (noQuote : c ≠ '\'') : doubled c = [c] := by
  simp [doubled, noQuote]

theorem units_doubled : Units doubled where
  inj := by
    intro c d rest others same
    by_cases quote : c = '\'' <;> by_cases quoteOther : d = '\''
    · subst quote quoteOther
      exact ⟨rfl, List.append_cancel_left same⟩
    · rw [quote, doubled_quote, doubled_of_ne quoteOther] at same
      exact absurd (List.cons.inj same).1.symm quoteOther
    · rw [quoteOther, doubled_quote, doubled_of_ne quote] at same
      exact absurd (List.cons.inj same).1 quote
    · rw [doubled_of_ne quote, doubled_of_ne quoteOther] at same
      exact List.cons.inj same
  dark := by
    intro c noBreak d isHead
    by_cases quote : c = '\''
    · rw [quote, doubled_quote] at isHead
      cases isHead
      rfl
    · rw [doubled_of_ne quote] at isHead
      cases isHead
      exact noBreak
  nonempty c := by
    unfold doubled
    split <;> exact List.cons_ne_nil _ _

theorem writeSingle_eq (indent : Nat) (behindBreak : Bool) (text : List Char) :
    writeSingle indent behindBreak text =
      writeUnits doubled indent behindBreak text ++ margin indent (breaksLast behindBreak text) := by
  induction text generalizing behindBreak with
  | nil => rfl
  | cons c text ih =>
    unfold writeSingle
    cases broken : isBreak c with
    | true => simp [writeUnits_of_break broken, breaksLast, broken, ih]
    | false => simp [writeUnits_of_no_break broken, breaksLast, broken, ih, margin, doubled]

theorem closes_single (positive : 0 < indent) (noQuote : rest.head? ≠ some '\'') :
    Closes doubled indent behindBreak (margin indent behindBreak ++ '\'' :: rest) where
  noBreak _ _ broken same := units_single.ne_break positive broken rfl same.symm
  noUnit c more _ same := by
    have behind := List.append_cancel_left same
    by_cases quote : c = '\''
    · rw [quote, doubled_quote] at behind
      exact noQuote (congrArg List.head? (List.cons.inj behind).2)
    · rw [doubled_of_ne quote] at behind
      exact quote (List.cons.inj behind).1.symm

theorem writeSingle_inj (positive : 0 < indent) (noQuote : rest.head? ≠ some '\'')
    (noQuoteOther : others.head? ≠ some '\'')
    (same : writeSingle indent behindBreak text ++ '\'' :: rest =
      writeSingle indent behindBreak other ++ '\'' :: others) : text = other ∧ rest = others := by
  rw [writeSingle_eq, writeSingle_eq, List.append_assoc, List.append_assoc] at same
  obtain ⟨rfl, behind⟩ := writeUnits_inj units_doubled positive (closes_single positive noQuote)
    (closes_single positive noQuoteOther) same
  exact ⟨rfl, (List.cons.inj (List.append_cancel_left behind)).2⟩

/-! ### Blocks -/

theorem writeLines_eq (indent : Nat) (behindBreak : Bool) (text : List Char) :
    writeLines indent behindBreak text = writeUnits (fun c => [c]) indent behindBreak text := by
  induction text generalizing behindBreak with
  | nil => rfl
  | cons c text ih =>
    unfold writeLines
    cases broken : isBreak c with
    | true => simp [writeUnits_of_break broken, ih]
    | false => simp [writeUnits_of_no_break broken, ih, margin]

theorem closes_lines (outdented : Outdented indent rest) (positive : 0 < indent) :
    Closes (fun c => [c]) indent true rest where
  noBreak _ _ broken := outdented.ne_break broken
  noUnit _ _ _ := outdented.ne_spaces positive _

/-- A block whose last line is ended. -/
theorem writeLines_inj (positive : 0 < indent) (outdented : Outdented indent rest)
    (outdentedOther : Outdented indent others) (ends : breaksLast behindBreak text = true)
    (endsOther : breaksLast behindBreak other = true)
    (same : writeLines indent behindBreak text ++ rest = writeLines indent behindBreak other ++ others) :
    text = other ∧ rest = others := by
  rw [writeLines_eq, writeLines_eq] at same
  refine writeUnits_inj units_single positive ?_ ?_ same
  · rw [ends]
    exact closes_lines outdented positive
  · rw [endsOther]
    exact closes_lines outdentedOther positive

/-! ### Double quotes -/

/-- What the letter of an escape stands for. -/
def escaped? : Char → Option Char
  | '0' => some '\x00'
  | 'a' => some '\x07'
  | 'b' => some '\x08'
  | 't' => some '\t'
  | 'n' => some '\n'
  | 'v' => some '\x0b'
  | 'f' => some '\x0c'
  | 'r' => some '\r'
  | 'e' => some '\x1b'
  | '"' => some '"'
  | '\\' => some '\\'
  | 'N' => some '\x85'
  | 'L' => some '\u2028'
  | 'P' => some '\u2029'
  | _ => none

def coded? (width : Nat) (text : List Char) : Option (Char × List Char) :=
  (natOfDigits? 16 (text.take width)).map fun code => (Char.ofNat code, text.drop width)

/-- The first character of a text in double quotes. -/
def char? : List Char → Option (Char × List Char)
  | '\\' :: 'x' :: rest => coded? 2 rest
  | '\\' :: 'u' :: rest => coded? 4 rest
  | '\\' :: 'U' :: rest => coded? 8 rest
  | '\\' :: c :: rest => (escaped? c).map (·, rest)
  | c :: rest => some (c, rest)
  | [] => none

theorem escaped?_of_shortEscape? (short : shortEscape? c = some d) : escaped? d = some c := by
  unfold shortEscape? at short
  split at short
  all_goals
    cases short
    try rfl

theorem coded?_hexDigits {width : Nat} (positive : 0 < width) (bound : c.toNat < Nat.pow 16 width)
    (rest : List Char) : coded? width (hexDigits width c.toNat ++ rest) = some (c, rest) := by
  have digits : (Nat.toDigits 16 c.toNat).length ≤ width :=
    (Nat.length_toDigits_le_iff (by decide) positive).2 bound
  have length : (hexDigits width c.toNat).length = width := by
    simp only [hexDigits, List.length_append, List.length_replicate, List.length_map]
    omega
  rw [coded?, List.take_left' length, List.drop_left' length, hexDigits,
    natOfDigits?_map_toDigits keeps_toUpper (by decide) (by decide), Option.map_some, Char.ofNat_toNat]

theorem char?_short (short : shortEscape? c = some d) (rest : List Char) :
    char? ('\\' :: d :: rest) = some (c, rest) := by
  have isEscape := escaped?_of_shortEscape? short
  rw [char?]
  · rw [isEscape, Option.map_some]
  all_goals
    rintro rfl
    cases isEscape

theorem char?_escapeDouble (c : Char) (rest : List Char) :
    char? (escapeDouble c ++ rest) = some (c, rest) := by
  unfold escapeDouble
  split
  · next d short => exact char?_short short rest
  next noShort =>
  have noEscape : c ≠ '\\' := by
    rintro rfl
    cases noShort
  split
  · rw [List.singleton_append, char?]
    all_goals simp [noEscape]
  split
  · next small => exact coded?_hexDigits (by decide) (Nat.lt_of_le_of_lt small (by decide)) rest
  split
  · next small => exact coded?_hexDigits (by decide) (Nat.lt_of_le_of_lt small (by decide)) rest
  · exact coded?_hexDigits (by decide) (Nat.lt_of_le_of_lt (toNat_le c) (by decide)) rest

theorem exists_escapeDouble (c : Char) : ∃ d more, escapeDouble c = d :: more ∧ d ≠ '"' := by
  unfold escapeDouble
  split
  · exact ⟨'\\', _, rfl, by decide⟩
  next noShort =>
  split
  · refine ⟨c, [], rfl, ?_⟩
    rintro rfl
    cases noShort
  split
  · exact ⟨'\\', _, rfl, by decide⟩
  split
  · exact ⟨'\\', _, rfl, by decide⟩
  · exact ⟨'\\', _, rfl, by decide⟩

theorem escapes_double : Escapes escapeDouble '"' := .of_reader exists_escapeDouble char?_escapeDouble

end Highlighter.Yaml
