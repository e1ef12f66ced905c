import Highlighter.Format
import Highlighter.Proofs.Json.Reader
import Highlighter.Proofs.Number.Digits
import Highlighter.Proofs.Text.Escapes
import Highlighter.Proofs.Text.Runs

/-!
JSON reads back. Where a value is written at any depth, and what follows does not go on with its last word, the
reader finds this value and goes on behind it (`Json.value?_render`). So the output is one JSON text, and its
records are those that were written (`Format.readRecords?_json`).
-/

set_option autoImplicit false

namespace Highlighter

namespace Json

variable {c : Char} {chars text rest : List Char} {depth fuel : Nat}

/-! ### Blanks -/

theorem skip_newline (depth : Nat) (dark : EndsRun isBlank text) :
    skip (newline depth ++ text) = text := by
  have blank : ∀ c ∈ newline depth, isBlank c = true := by
    simp only [newline, indent, List.forall_mem_cons, List.mem_replicate]
    exact ⟨rfl, fun c known => by rw [known.2]; rfl⟩
  exact dropWhile_run blank dark

/-! ### Texts -/

theorem code?_append {digits : List Char} (length : digits.length = 4) :
    code? (digits ++ rest) = (natOfDigits? 16 digits).map (·, rest) := by
  unfold code?
  rw [List.take_left' length, List.drop_left' length, if_pos length]

theorem char?_escapeCode (control : c.toNat < 0x20) : char? (escapeCode c ++ rest) = some (c, rest) := by
  have digits : (Nat.toDigits 16 c.toNat).length ≤ 4 := by
    generalize c.toNat = code at control
    decide +revert
  have length : (List.replicate (4 - (Nat.toDigits 16 c.toNat).length) '0' ++
      Nat.toDigits 16 c.toNat).length = 4 := by
    rw [List.length_append, List.length_replicate]
    omega
  have isCode : code? (List.replicate (4 - (Nat.toDigits 16 c.toNat).length) '0' ++
      Nat.toDigits 16 c.toNat ++ rest) = some (c.toNat, rest) := by
    rw [code?_append length, natOfDigits?_toDigits (by decide) (by decide), Option.map_some]
  have spelled : escapeCode c ++ rest = '\\' :: 'u' ::
      (List.replicate (4 - (Nat.toDigits 16 c.toNat).length) '0' ++ Nat.toDigits 16 c.toNat ++ rest) := rfl
  rw [spelled, char?, coded?, isCode]
  simp only [Nat.lt_trans control (show 0x20 < 0xd800 by decide), true_or, if_true, Char.ofNat_toNat]

theorem char?_escapeChar (c : Char) (rest : List Char) : char? (escapeChar c ++ rest) = some (c, rest) := by
  unfold escapeChar
  split
  iterate 7 rfl
  next noQuote noEscape _ _ _ _ _ =>
    split
    · next control => exact char?_escapeCode control
    · next plain =>
      have other : c ≠ '\\' := noEscape
      rw [List.singleton_append, char?]
      · rw [if_neg plain]
      all_goals simp [other]

theorem exists_escapeChar (c : Char) : ∃ d more, escapeChar c = d :: more ∧ d ≠ '"' := by
  unfold escapeChar
  split
  iterate 7 exact ⟨'\\', _, rfl, by decide⟩
  next noQuote _ _ _ _ _ _ =>
    split
    · exact ⟨'\\', _, rfl, by decide⟩
    · exact ⟨c, [], rfl, noQuote⟩

theorem escapes_char : Escapes escapeChar '"' := .of_reader exists_escapeChar char?_escapeChar

theorem chars?_escaped (rest : List Char) (enough : chars.length < fuel) :
    chars? fuel (chars.flatMap escapeChar ++ '"' :: rest) = some (chars, rest) := by
  obtain ⟨fuel, rfl⟩ : ∃ less, fuel = less + 1 := ⟨fuel - 1, by omega⟩
  induction chars generalizing fuel with
  | nil => rfl
  | cons c chars ih =>
    rw [List.length_cons] at enough
    obtain ⟨fuel, rfl⟩ : ∃ less, fuel = less + 1 := ⟨fuel - 1, by omega⟩
    obtain ⟨d, more, split, noQuote⟩ := exists_escapeChar c
    have isChar := char?_escapeChar c (chars.flatMap escapeChar ++ '"' :: rest)
    rw [List.flatMap_cons, List.append_assoc]
    rw [split, List.cons_append] at isChar ⊢
    rw [chars?, isChar]
    · simp only [ih fuel (by omega), Option.map_some]
    · simpa using noQuote

/-! ### Numbers -/

theorem exists_decimal (n : Nat) : ∃ c digits, decimal n = c :: digits ∧ c.isDigit = true := by
  obtain ⟨c, digits, split⟩ := List.exists_cons_of_ne_nil (decimal_ne_nil n)
  exact ⟨c, digits, split, isDigit_of_mem_decimal (split ▸ List.mem_cons_self)⟩

theorem splitDigits_decimal (n : Nat) :
    (decimal n).takeWhile Char.isDigit = decimal n ∧ (decimal n).dropWhile Char.isDigit = [] := by
  have digits : ∀ c ∈ decimal n, c.isDigit = true := fun _ => isDigit_of_mem_decimal
  have ends : EndsRun Char.isDigit [] := nofun
  have takes := takeWhile_run digits ends
  have drops := dropWhile_run digits ends
  rw [List.append_nil] at takes drops
  exact ⟨takes, drops⟩

theorem isStrict_decimal (n : Nat) : isStrict (decimal n) = true := by
  obtain ⟨c, digits, split, _⟩ := exists_decimal n
  have noZero : c ≠ '0' ∨ digits = [] := by
    by_cases zero : c = '0'
    · have isZero : n = 0 := eq_zero_of_head? (by rw [split, List.head?_cons, zero])
      subst isZero
      exact .inr (List.cons.inj split).2.symm
    · exact .inl zero
  unfold isStrict
  rw [(splitDigits_decimal n).1, (splitDigits_decimal n).2, split]
  rcases noZero with noZero | rfl
  · simp [noZero]
  · simp

theorem read?_decimal (n : Nat) : Decimal.read? (decimal n) = some { digits := n } := by
  unfold Decimal.read?
  rw [(splitDigits_decimal n).1, (splitDigits_decimal n).2]
  simp [natOfDigits?_decimal, Decimal.readPower?]

theorem word?_decimal (n : Nat) : word? (decimal n) = some (.number { digits := n }) := by
  obtain ⟨c, digits, split, isDigit⟩ := exists_decimal n
  have differs {d : Char} {word : List Char} (noDigit : d.isDigit = false) : decimal n ≠ d :: word := by
    rw [split]
    rintro same
    rw [(List.cons.inj same).1, noDigit] at isDigit
    cases isDigit
  have unsigned : number? (decimal n) = unsigned? (decimal n) := by
    unfold number?
    split
    · next isMinus => exact absurd isMinus (differs rfl)
    · rfl
  have noNull : decimal n ≠ "null".toList := @differs 'n' ['u', 'l', 'l'] rfl
  have noTrue : decimal n ≠ "true".toList := @differs 't' ['r', 'u', 'e'] rfl
  have noFalse : decimal n ≠ "false".toList := @differs 'f' ['a', 'l', 's', 'e'] rfl
  rw [word?, if_neg noNull, if_neg noTrue, if_neg noFalse, unsigned, unsigned?,
    if_pos (isStrict_decimal n), read?_decimal, Option.map_some]

/-! ### Values -/

mutual

/-- The value that is written. -/
def datum : Json → Datum
  | .text chars => .text chars
  | .number value => .number { digits := value }
  | .list items => .list (data items)
  | .object fields => .object (members fields)

def data : List Json → List Datum
  | [] => []
  | item :: items => item.datum :: data items

def members : List (String × Json) → List (List Char × Datum)
  | [] => []
  | (key, value) :: fields => (key.toList, value.datum) :: members fields

end

/-- What a value is written with begins with none of these. -/
theorem exists_head_render (depth : Nat) (json : Json) :
    ∃ c more, json.render depth = c :: more ∧ isBlank c = false ∧ c ≠ ']' := by
  cases json with
  | text chars => exact ⟨'"', _, rfl, rfl, by decide⟩
  | number value =>
    obtain ⟨c, digits, split, isDigit⟩ := exists_decimal value
    refine ⟨c, digits, split, ?_, ?_⟩
    · simp only [isBlank, Bool.or_eq_false_iff, beq_eq_false_iff_ne]
      refine ⟨⟨⟨?_, ?_⟩, ?_⟩, ?_⟩
      all_goals
        rintro rfl
        cases isDigit
    · rintro rfl
      cases isDigit
  | list items => cases items with
    | nil => exact ⟨'[', _, rfl, rfl, by decide⟩
    | cons item items => exact ⟨'[', _, rfl, rfl, by decide⟩
  | object fields => cases fields with
    | nil => exact ⟨'\x7b', _, rfl, rfl, by decide⟩
    | cons field fields => exact ⟨'\x7b', _, rfl, rfl, by decide⟩

theorem endsRun_render (depth : Nat) (json : Json) (rest : List Char) :
    EndsRun isBlank (json.render depth ++ rest) := by
  obtain ⟨c, more, split, dark, _⟩ := exists_head_render depth json
  rw [split]
  exact endsRun_cons dark

theorem quote_append (chars rest : List Char) :
    quote chars ++ rest = '"' :: (chars.flatMap escapeChar ++ '"' :: rest) := by
  simp [quote]

theorem endsRun_quote (chars rest : List Char) : EndsRun isBlank (quote chars ++ rest) := endsRun_cons rfl

theorem render_list (depth : Nat) (item : Json) (items : List Json) (rest : List Char) :
    (Json.list (item :: items)).render depth ++ rest =
      '[' :: (renderItems (depth + 1) (item :: items) ++ (newline depth ++ ']' :: rest)) := by
  simp [render]

theorem render_object (depth : Nat) (field : String × Json) (fields : List (String × Json))
    (rest : List Char) :
    (Json.object (field :: fields)).render depth ++ rest =
      '\x7b' :: (renderFields (depth + 1) (field :: fields) ++ (newline depth ++ '\x7d' :: rest)) := by
  simp [render]

/-- Behind an item there is nothing more, or a comma and the other items. -/
def renderOthers (depth : Nat) : List Json → List Char
  | [] => []
  | item :: items => ',' :: renderItems depth (item :: items)

theorem renderItems_cons (depth : Nat) (item : Json) (items : List Json) :
    renderItems depth (item :: items) =
      newline depth ++ (item.render depth ++ renderOthers depth items) := by
  cases items <;> simp [renderItems, renderOthers]

def renderOtherFields (depth : Nat) : List (String × Json) → List Char
  | [] => []
  | field :: fields => ',' :: renderFields depth (field :: fields)

theorem renderFields_cons (depth : Nat) (key : String) (value : Json) (fields : List (String × Json)) :
    renderFields depth ((key, value) :: fields) = newline depth ++
      (quote key.toList ++ ':' :: ' ' :: (value.render depth ++ renderOtherFields depth fields)) := by
  cases fields <;> simp [renderFields, renderOtherFields]

theorem length_newline (depth : Nat) : (newline depth).length = 2 * depth + 1 := by
  simp [newline, indent]

theorem endsRun_newline (depth : Nat) (rest : List Char) : EndsRun isWordChar (newline depth ++ rest) :=
  endsRun_cons rfl

theorem endsRun_others (depth outer : Nat) (items : List Json) (rest : List Char) :
    EndsRun isWordChar (renderOthers depth items ++ (newline outer ++ rest)) := by
  cases items with
  | nil => exact endsRun_newline outer rest
  | cons item items => exact endsRun_cons rfl

theorem endsRun_otherFields (depth outer : Nat) (fields : List (String × Json)) (rest : List Char) :
    EndsRun isWordChar (renderOtherFields depth fields ++ (newline outer ++ rest)) := by
  cases fields with
  | nil => exact endsRun_newline outer rest
  | cons field fields => exact endsRun_cons rfl

/-! ### Steps of the reader -/

theorem chars?_quote (enough : (quote chars).length ≤ fuel + 1) :
    chars? fuel (chars.flatMap escapeChar ++ '"' :: rest) = some (chars, rest) := by
  have escaped := escapes_char.length_le chars
  simp only [quote, List.length_append, List.length_cons, List.length_nil] at enough
  exact chars?_escaped rest (by omega)

theorem value?_decimal (value : Nat) (ends : EndsRun isWordChar rest) :
    value? (fuel + 1) (decimal value ++ rest) = some (.number { digits := value }, rest) := by
  have inWord : ∀ c ∈ decimal value, isWordChar c = true := by
    intro c known
    simp [isWordChar, Char.isAlphanum, isDigit_of_mem_decimal known]
  have runs := takeWhile_run inWord ends
  have leaves := dropWhile_run inWord ends
  obtain ⟨c, digits, split, isDigit⟩ := exists_decimal value
  rw [value?]
  · rw [runs, leaves, word?_decimal, Option.map_some]
  all_goals
    rw [split]
    rintro more same
    rw [(List.cons.inj same).1] at isDigit
    cases isDigit

section

variable {α : Type} {closing : Char} {more : List Char → Option (List α × List Char)}

theorem further?_closing (depth : Nat) (rest : List Char) (dark : isBlank closing = false) :
    further? closing more (newline depth ++ closing :: rest) = some ([], rest) := by
  rw [further?, skip_newline depth (endsRun_cons dark)]
  exact if_pos rfl

theorem further?_comma (noComma : ',' ≠ closing) (text : List Char) :
    further? closing more (',' :: text) = more (skip text) := by
  have ends : skip (',' :: text) = ',' :: text := rfl
  rw [further?, ends]
  exact if_neg noComma

end

variable {item value : Json} {items : List Json} {fields : List (String × Json)} {key : String}

theorem items?_renderItems {others : List Datum} {tail : List Char}
    (isValue : value? fuel (item.render depth ++ (renderOthers depth items ++ tail)) =
      some (item.datum, renderOthers depth items ++ tail))
    (isOthers : further? ']' (items? fuel) (renderOthers depth items ++ tail) = some (others, rest)) :
    items? (fuel + 1) (skip (renderItems depth (item :: items) ++ tail)) =
      some (item.datum :: others, rest) := by
  rw [renderItems_cons, List.append_assoc, List.append_assoc, skip_newline depth (endsRun_render depth item _),
    items?, isValue]
  simp only [isOthers, Option.map_some]

theorem fields?_renderFields {others : List (List Char × Datum)} {tail : List Char}
    (enough : (quote key.toList).length ≤ fuel + 1)
    (isValue : value? fuel (value.render depth ++ (renderOtherFields depth fields ++ tail)) =
      some (value.datum, renderOtherFields depth fields ++ tail))
    (isOthers : further? '\x7d' (fields? fuel) (renderOtherFields depth fields ++ tail) =
      some (others, rest)) :
    fields? (fuel + 1) (skip (renderFields depth ((key, value) :: fields) ++ tail)) =
      some ((key.toList, value.datum) :: others, rest) := by
  have colon (text : List Char) : skip (':' :: text) = ':' :: text := rfl
  have blank (text : List Char) : skip (' ' :: text) = skip text := rfl
  have atValue := dropWhile_of_endsRun (endsRun_render depth value (renderOtherFields depth fields ++ tail))
  rw [renderFields_cons, List.append_assoc, List.append_assoc, skip_newline depth (endsRun_quote _ _), quote_append,
    List.cons_append, List.cons_append, List.append_assoc, fields?, chars?_quote enough]
  simp only [colon, blank]
  rw [skip, atValue, isValue]
  simp only [isOthers, Option.map_some]

/-- A list that has items does not end at once. -/
theorem skip_renderItems_ne (depth : Nat) (item : Json) (items : List Json) (rest : List Char) :
    ∀ more, skip (renderItems depth (item :: items) ++ rest) ≠ ']' :: more := by
  obtain ⟨c, others, head, _, noBracket⟩ := exists_head_render depth item
  rw [renderItems_cons, List.append_assoc, List.append_assoc,
    skip_newline depth (endsRun_render depth item _), head]
  exact fun _ same => noBracket (List.cons.inj same).1

theorem skip_renderFields_ne (depth : Nat) (field : String × Json) (fields : List (String × Json))
    (rest : List Char) : ∀ more, skip (renderFields depth (field :: fields) ++ rest) ≠ '\x7d' :: more := by
  obtain ⟨key, value⟩ := field
  rw [renderFields_cons, List.append_assoc, List.append_assoc, skip_newline depth (endsRun_quote _ _),
    quote_append]
  exact fun _ same => absurd (List.cons.inj same).1 (by decide)

/-! ### Round trip -/

mutual

theorem value?_render : ∀ (json : Json) {depth fuel : Nat} {rest : List Char}, EndsRun isWordChar rest →
    (json.render depth).length ≤ fuel → value? fuel (json.render depth ++ rest) = some (json.datum, rest)
  | .text chars, depth, fuel + 1, rest, _, enough => by
    rw [render, quote_append, value?, chars?_quote enough, Option.map_some, datum]
  | .number value, depth, fuel + 1, rest, ends, enough => value?_decimal value ends
  | .list [], depth, fuel + 1, rest, _, enough => rfl
  | .list (item :: items), depth, fuel + 1, rest, _, enough => by
    rw [← List.append_nil (render _ _), render_list, List.length_cons, renderItems_cons] at enough
    simp only [List.length_append, length_newline] at enough
    obtain ⟨less, rfl⟩ : ∃ less, fuel = less + 1 := ⟨fuel - 1, by omega⟩
    have isValue := @value?_render item (depth + 1) less _ (endsRun_others (depth + 1) depth items (']' :: rest))
      (by omega)
    have isOthers := @further?_renderOthers items (depth + 1) depth less rest (by omega)
    rw [render_list, value?]
    split
    · next closes => exact absurd closes (skip_renderItems_ne _ _ _ _ _)
    · rw [items?_renderItems isValue isOthers]
      rfl
  | .object [], depth, fuel + 1, rest, _, enough => rfl
  | .object ((key, value) :: fields), depth, fuel + 1, rest, _, enough => by
    rw [← List.append_nil (render _ _), render_object, List.length_cons, renderFields_cons] at enough
    simp only [List.length_append, List.length_cons, length_newline] at enough
    obtain ⟨less, rfl⟩ : ∃ less, fuel = less + 1 := ⟨fuel - 1, by omega⟩
    have isValue := @value?_render value (depth + 1) less _
      (endsRun_otherFields (depth + 1) depth fields ('\x7d' :: rest)) (by omega)
    have isOthers := @further?_renderOtherFields fields (depth + 1) depth less rest (by omega)
    rw [render_object, value?]
    split
    · next closes => exact absurd closes (skip_renderFields_ne _ _ _ _ _)
    · rw [fields?_renderFields (by omega) isValue isOthers]
      rfl
  | json, depth, 0, rest, _, enough => by
    obtain ⟨_, _, split, _⟩ := exists_head_render depth json
    rw [split] at enough
    cases enough

theorem further?_renderOthers : ∀ (items : List Json) {depth outer fuel : Nat} {rest : List Char},
    (renderOthers depth items).length ≤ fuel →
      further? ']' (items? fuel) (renderOthers depth items ++ (newline outer ++ ']' :: rest)) =
        some (data items, rest)
  | [], depth, outer, fuel, rest, _ => further?_closing outer rest rfl
  | item :: items, depth, outer, fuel, rest, enough => by
    rw [renderOthers, List.length_cons, renderItems_cons] at enough
    simp only [List.length_append, length_newline] at enough
    obtain ⟨less, rfl⟩ : ∃ less, fuel = less + 1 := ⟨fuel - 1, by omega⟩
    have isValue := @value?_render item depth less _ (endsRun_others depth outer items (']' :: rest)) (by omega)
    have isOthers := @further?_renderOthers items depth outer less rest (by omega)
    rw [renderOthers, List.cons_append, further?_comma (by decide), items?_renderItems isValue isOthers, data]

theorem further?_renderOtherFields : ∀ (fields : List (String × Json)) {depth outer fuel : Nat}
    {rest : List Char}, (renderOtherFields depth fields).length ≤ fuel →
      further? '\x7d' (fields? fuel) (renderOtherFields depth fields ++ (newline outer ++ '\x7d' :: rest)) =
        some (members fields, rest)
  | [], depth, outer, fuel, rest, _ => further?_closing outer rest rfl
  | (key, value) :: fields, depth, outer, fuel, rest, enough => by
    rw [renderOtherFields, List.length_cons, renderFields_cons] at enough
    simp only [List.length_append, List.length_cons, length_newline] at enough
    obtain ⟨less, rfl⟩ : ∃ less, fuel = less + 1 := ⟨fuel - 1, by omega⟩
    have isValue := @value?_render value depth less _
      (endsRun_otherFields depth outer fields ('\x7d' :: rest)) (by omega)
    have isOthers := @further?_renderOtherFields fields depth outer less rest (by omega)
    rw [renderOtherFields, List.cons_append, further?_comma (by decide),
      fields?_renderFields (by omega) isValue isOthers, members]

end

theorem read?_render_zero (json : Json) : read? (json.render 0) = some json.datum := by
  have start := dropWhile_of_endsRun (endsRun_render 0 json [])
  rw [List.append_nil] at start
  have isValue := @value?_render json 0 (2 * (json.render 0).length + 1) [] nofun (by omega)
  rw [List.append_nil] at isValue
  rw [read?, skip, start, isValue]
  rfl

/-! ### Records -/

/-- What is written for a record: its fields, and one more for its children if it has any. -/
def recordFields (record : Record) : List (List Char × Datum) :=
  [("category".toList, .text record.category.name.toList), ("start".toList, .number { digits := record.start }),
    ("end".toList, .number { digits := record.stop }), ("text".toList, .text record.text)] ++
    if record.children.isEmpty then [] else [("children".toList, .list (data (ofRecords record.children)))]

theorem datum_ofRecord (record : Record) : (ofRecord record).datum = .object (recordFields record) := by
  obtain ⟨category, start, stop, covered, children⟩ := record
  cases children <;> rfl

theorem children?_recordFields {record : Record}
    (isList : records? (data (ofRecords record.children)) = some record.children) :
    children? (recordFields record) = some record.children := by
  obtain ⟨category, start, stop, covered, children⟩ := record
  cases children with
  | nil => rfl
  | cons child children => exact isList

theorem record?_recordFields {record : Record}
    (isList : records? (data (ofRecords record.children)) = some record.children) :
    record? (.object (recordFields record)) = some record := by
  have isCategory : (recordFields record).lookup "category".toList =
      some (.text record.category.name.toList) := rfl
  have isStart : (recordFields record).lookup "start".toList = some (.number { digits := record.start }) := rfl
  have isStop : (recordFields record).lookup "end".toList = some (.number { digits := record.stop }) := rfl
  have isText : (recordFields record).lookup "text".toList = some (.text record.text) := rfl
  rw [record?, isCategory, isStart, isStop, isText, children?_recordFields isList]
  cases record
  simp [text?, natural?]

mutual

theorem record?_ofRecord : ∀ record : Record, record? (ofRecord record).datum = some record
  | ⟨category, start, stop, covered, children⟩ => by
    rw [datum_ofRecord]
    exact record?_recordFields (records?_ofRecords children)

theorem records?_ofRecords : ∀ records : List Record, records? (data (ofRecords records)) = some records
  | [] => rfl
  | record :: records => by
    rw [ofRecords, data, records?, record?_ofRecord record, records?_ofRecords records]
    rfl

end

theorem readRecords?_renderRecords (records : List Record) :
    readRecords? (renderRecords records) = some records := by
  rw [readRecords?, renderRecords, read?_render_zero, datum, Option.bind_some, list?, records?_ofRecords]

end Json

namespace Record

mutual

theorem toSpan_ofSpan (source : List Char) : ∀ span : Span, (ofSpan source span).toSpan = span
  | ⟨category, start, stop, children⟩ => by
    rw [ofSpan, toSpan, toSpans_ofSpans source children]

theorem toSpans_ofSpans (source : List Char) : ∀ spans : List Span, toSpans (ofSpans source spans) = spans
  | [] => rfl
  | span :: spans => by
    rw [ofSpans, toSpans, toSpan_ofSpan source span, toSpans_ofSpans source spans]

end

end Record

namespace Format

/-- Whatever the text and the spans, the output is one JSON text. It has all records of the spans, and so the
spans themselves. -/
theorem readRecords?_json (source : List Char) (spans : List Span) :
    ∃ output, json.render source spans = .ok output ∧
      Json.readRecords? output = some (Record.ofSpans source spans) ∧
      (Json.readRecords? output).map Record.toSpans = some spans := by
  refine ⟨_, rfl, ?_⟩
  rw [Json.readRecords?_renderRecords, Option.map_some, Record.toSpans_ofSpans]
  exact ⟨rfl, rfl⟩

end Format

end Highlighter
