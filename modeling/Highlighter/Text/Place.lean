import Highlighter.Text.Bytes

/-!
Places in a text. A place lies between two characters; it knows how many bytes of UTF-8 come before
it, the character before it and the characters after it. So it is never inside a character.
-/

set_option autoImplicit false

namespace Highlighter

structure Place where
  /-- Bytes before the place. -/
  offset : Nat
  before : Option Char
  rest : List Char
  deriving DecidableEq, Repr

namespace Place

/-- The place before the first character of `text`. -/
def first (text : List Char) : Place := ⟨0, none, text⟩

/-- The place behind `c`, which follows `place`. -/
def past (place : Place) (c : Char) (rest : List Char) : Place :=
  ⟨place.offset + c.utf8Size, some c, rest⟩

/-- The place one character further on; there is none behind the end of the text. -/
def next? (place : Place) : Option Place :=
  match place.rest with
  | [] => none
  | c :: rest => some (place.past c rest)

def goToEnd (offset : Nat) (before : Option Char) : List Char → Place
  | [] => ⟨offset, before, []⟩
  | c :: rest => goToEnd (offset + c.utf8Size) (some c) rest

/-- The place at the end of the text. -/
def last (place : Place) : Place := goToEnd place.offset place.before place.rest

/-- The characters between `place` and a later place of the same text. -/
def upTo (place stop : Place) : List Char :=
  (takeBytes? place.rest (stop.offset - place.offset)).getD []

/-- The one of two places of a text that is further on. -/
def further (place other : Place) : Place := if place.offset < other.offset then other else place

end Place

/-- `place` is a place of `text`: the characters before it and those after it make up the text. -/
def Place.In (place : Place) (text : List Char) : Prop :=
  ∃ read, text = read ++ place.rest ∧ place.offset = byteLength read ∧
    place.before = read.getLast?

theorem Place.first_in (text : List Char) : (Place.first text).In text :=
  ⟨[], rfl, rfl, rfl⟩

theorem Place.In.past {place : Place} {text rest : List Char} {c : Char} (inside : place.In text)
    (follows : place.rest = c :: rest) : (place.past c rest).In text := by
  obtain ⟨read, split, reached, _⟩ := inside
  refine ⟨read ++ [c], ?_, ?_, ?_⟩
  · rw [split, follows, List.append_assoc]
    rfl
  · simp [Place.past, reached]
  · simp [Place.past]

theorem Place.In.isBoundary {place : Place} {text : List Char} (inside : place.In text) :
    Highlighter.isBoundary text place.offset = true := by
  obtain ⟨read, split, reached, _⟩ := inside
  exact isBoundary_iff.2 ⟨read, place.rest, split, reached.symm⟩

/-- The text between two places of it. -/
theorem Place.In.split {place other : Place} {text : List Char} (inside : place.In text)
    (otherInside : other.In text) (order : place.offset ≤ other.offset) :
    ∃ between, place.rest = between ++ other.rest ∧
      other.offset = place.offset + byteLength between := by
  obtain ⟨read, split, reached, _⟩ := inside
  obtain ⟨otherRead, otherSplit, otherReached, _⟩ := otherInside
  rcases List.append_eq_append_iff.1 (split.symm.trans otherSplit) with
    ⟨between, rfl, rest⟩ | ⟨between, rfl, rest⟩
  · exact ⟨between, rest, by rw [otherReached, reached, byteLength_append]⟩
  · rw [byteLength_append] at reached
    have empty : byteLength between = 0 := by omega
    cases between with
    | nil => exact ⟨[], by simpa using rest.symm, by simp; omega⟩
    | cons c between =>
      have size := utf8Size_ne_zero c
      simp only [byteLength_cons] at empty
      omega

/-- An offset is that of one place at most. -/
theorem Place.In.eq_of_offset {place other : Place} {text : List Char} (inside : place.In text)
    (otherInside : other.In text) (same : place.offset = other.offset) : place = other := by
  obtain ⟨between, rest, length⟩ := inside.split otherInside (Nat.le_of_eq same)
  have empty : between = [] := by
    cases between with
    | nil => rfl
    | cons c between =>
      have size := utf8Size_ne_zero c
      simp only [byteLength_cons] at length
      omega
  obtain ⟨read, split, _, before⟩ := inside
  obtain ⟨otherRead, otherSplit, _, otherBefore⟩ := otherInside
  rw [empty, List.nil_append] at rest
  rw [split, rest, List.append_cancel_right_eq] at otherSplit
  cases place
  cases other
  simp_all

theorem Place.In.eq_or_past {place other : Place} {text rest : List Char} {c : Char}
    (inside : place.In text) (follows : place.rest = c :: rest) (otherInside : other.In text)
    (order : place.offset ≤ other.offset) :
    other = place ∨ (place.past c rest).offset ≤ other.offset := by
  obtain ⟨between, split, length⟩ := inside.split otherInside order
  cases between with
  | nil =>
    simp only [byteLength_nil, Nat.add_zero] at length
    exact .inl (otherInside.eq_of_offset inside length)
  | cons d between =>
    rw [follows, List.cons_append] at split
    cases split
    simp only [byteLength_cons] at length
    exact .inr (by simp only [Place.past]; omega)

theorem Place.In.eq_of_end {place other : Place} {text : List Char} (inside : place.In text)
    (ends : place.rest = []) (otherInside : other.In text) (order : place.offset ≤ other.offset) :
    other = place := by
  obtain ⟨between, split, length⟩ := inside.split otherInside order
  rw [ends] at split
  rw [(List.append_eq_nil_iff.1 split.symm).1] at length
  exact otherInside.eq_of_offset inside length

theorem Place.In.length_rest_lt {place other : Place} {text : List Char} (inside : place.In text)
    (otherInside : other.In text) (order : place.offset < other.offset) :
    other.rest.length < place.rest.length := by
  obtain ⟨between, rest, length⟩ := inside.split otherInside (Nat.le_of_lt order)
  cases between with
  | nil => simp only [byteLength_nil] at length; omega
  | cons c between =>
    rw [rest, List.length_append, List.length_cons]
    omega

end Highlighter
