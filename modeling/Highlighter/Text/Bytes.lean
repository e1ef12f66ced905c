/-!
Texts measured in bytes of UTF-8. A cut is possible only between two characters.
-/

set_option autoImplicit false

namespace Highlighter

/-- The number of bytes that `text` takes in UTF-8. -/
def byteLength (text : List Char) : Nat := text.foldr (fun c bytes => c.utf8Size + bytes) 0

@[simp] theorem byteLength_nil : byteLength [] = 0 := rfl

@[simp] theorem byteLength_cons (c : Char) (text : List Char) :
    byteLength (c :: text) = c.utf8Size + byteLength text := rfl

@[simp] theorem byteLength_append (first second : List Char) :
    byteLength (first ++ second) = byteLength first + byteLength second := by
  induction first with
  | nil => simp
  | cons c first ih => simp [ih, Nat.add_assoc]

/-- The text without its first so many bytes, if they are whole characters of it. -/
def dropBytes? : List Char → Nat → Option (List Char)
  | text, 0 => some text
  | [], _ + 1 => none
  | c :: rest, bytes + 1 =>
    if bytes + 1 < c.utf8Size then none else dropBytes? rest (bytes + 1 - c.utf8Size)

/-- The first so many bytes, if they are whole characters of the text. -/
def takeBytes? : List Char → Nat → Option (List Char)
  | _, 0 => some []
  | [], _ + 1 => none
  | c :: rest, bytes + 1 =>
    if bytes + 1 < c.utf8Size then none
    else (takeBytes? rest (bytes + 1 - c.utf8Size)).map (c :: ·)

theorem utf8Size_ne_zero (c : Char) : c.utf8Size ≠ 0 := Nat.ne_of_gt c.utf8Size_pos

theorem dropBytes?_eq_some_iff {text rest : List Char} {bytes : Nat} :
    dropBytes? text bytes = some rest ↔ ∃ read, text = read ++ rest ∧ byteLength read = bytes := by
  fun_induction dropBytes? text bytes with
  | case1 text =>
    constructor
    · rintro ⟨⟩
      exact ⟨[], rfl, rfl⟩
    · rintro ⟨read, rfl, length⟩
      cases read with
      | nil => rfl
      | cons c read => simp [utf8Size_ne_zero] at length
  | case2 bytes =>
    simp only [reduceCtorEq, false_iff, not_exists, not_and]
    intro read empty length
    simp [(List.append_eq_nil_iff.1 empty.symm).1] at length
  | case3 c text bytes cut =>
    simp only [reduceCtorEq, false_iff, not_exists, not_and]
    intro read split length
    cases read with
    | nil => simp at length
    | cons d read =>
      rw [(List.cons.inj split).1] at cut
      simp only [byteLength_cons] at length
      omega
  | case4 c text bytes fits ih =>
    rw [ih]
    constructor
    · rintro ⟨read, split, length⟩
      refine ⟨c :: read, by rw [split, List.cons_append], ?_⟩
      rw [byteLength_cons]
      omega
    · rintro ⟨read, split, length⟩
      cases read with
      | nil => simp at length
      | cons d read =>
        rw [(List.cons.inj split).1] at fits ⊢
        rw [byteLength_cons] at length
        exact ⟨read, (List.cons.inj split).2, by omega⟩

theorem takeBytes?_eq_some_iff {text read : List Char} {bytes : Nat} :
    takeBytes? text bytes = some read ↔
      (∃ rest, text = read ++ rest) ∧ byteLength read = bytes := by
  fun_induction takeBytes? text bytes generalizing read with
  | case1 text =>
    constructor
    · rintro ⟨⟩
      exact ⟨⟨text, rfl⟩, rfl⟩
    · rintro ⟨⟨rest, rfl⟩, length⟩
      cases read with
      | nil => rfl
      | cons c read => simp [utf8Size_ne_zero] at length
  | case2 bytes =>
    simp only [reduceCtorEq, false_iff, not_and]
    rintro ⟨rest, empty⟩ length
    simp [(List.append_eq_nil_iff.1 empty.symm).1] at length
  | case3 c text bytes cut =>
    simp only [reduceCtorEq, false_iff, not_and]
    rintro ⟨rest, split⟩ length
    cases read with
    | nil => simp at length
    | cons d read =>
      rw [(List.cons.inj split).1] at cut
      simp only [byteLength_cons] at length
      omega
  | case4 c text bytes fits ih =>
    rw [Option.map_eq_some_iff]
    constructor
    · rintro ⟨inner, taken, rfl⟩
      obtain ⟨⟨rest, rfl⟩, length⟩ := ih.1 taken
      exact ⟨⟨rest, rfl⟩, by simp only [byteLength_cons]; omega⟩
    · rintro ⟨⟨rest, split⟩, length⟩
      cases read with
      | nil => simp at length
      | cons d read =>
        obtain ⟨rfl, rfl⟩ := List.cons.inj split
        exact ⟨read, ih.2 ⟨⟨rest, rfl⟩, by simp only [byteLength_cons] at length; omega⟩, rfl⟩

/-- The characters from byte `start` to byte `stop`. There are none to give if the range is reversed,
leaves the text or cuts a character. -/
def slice? (text : List Char) (start stop : Nat) : Option (List Char) :=
  if start ≤ stop then (dropBytes? text start).bind (takeBytes? · (stop - start)) else none

theorem slice?_eq_some_iff {text covered : List Char} {start stop : Nat} :
    slice? text start stop = some covered ↔
      ∃ before behind, text = before ++ (covered ++ behind) ∧ byteLength before = start ∧
        start + byteLength covered = stop := by
  unfold slice?
  split
  next ordered =>
    simp only [Option.bind_eq_some_iff, dropBytes?_eq_some_iff, takeBytes?_eq_some_iff]
    constructor
    · rintro ⟨rest, ⟨before, split, reached⟩, ⟨behind, inside⟩, length⟩
      exact ⟨before, behind, by rw [split, inside], reached, by omega⟩
    · rintro ⟨before, behind, split, reached, length⟩
      exact ⟨covered ++ behind, ⟨before, split, reached⟩, ⟨behind, rfl⟩, by omega⟩
  next reversed =>
    simp only [reduceCtorEq, false_iff, not_exists, not_and]
    intro before behind _ _ length
    omega

/-- Whether a character begins or the text ends after so many bytes. -/
def isBoundary (text : List Char) (offset : Nat) : Bool := (dropBytes? text offset).isSome

theorem isBoundary_iff {text : List Char} {offset : Nat} :
    isBoundary text offset = true ↔ ∃ read rest, text = read ++ rest ∧ byteLength read = offset := by
  simp only [isBoundary, Option.isSome_iff_exists, dropBytes?_eq_some_iff]
  exact exists_comm

end Highlighter
