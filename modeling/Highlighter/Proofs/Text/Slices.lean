import Highlighter.Proofs.Text.Between

/-!
Slices of a text. A slice is what lies between two places (`Place.In.slice?_upTo`), so there is one
wherever both ends are between characters (`exists_slice?`), and slices that meet are a slice together
(`slice?_append`).
-/

set_option autoImplicit false

namespace Highlighter

namespace Place

variable {place later : Place} {text taken : List Char}

theorem In.dropBytes? (inside : place.In text) :
    Highlighter.dropBytes? text place.offset = some place.rest := by
  obtain ⟨read, split, reached, _⟩ := inside
  exact dropBytes?_eq_some_iff.2 ⟨read, split, reached.symm⟩

theorem In.offset_le (inside : place.In text) : place.offset ≤ byteLength text := by
  obtain ⟨read, split, reached, _⟩ := inside
  rw [split, byteLength_append, reached]
  exact Nat.le_add_right _ _

theorem Takes.upTo (takes : place.Takes taken later) : place.upTo later = taken := by
  have cut : takeBytes? place.rest (later.offset - place.offset) = some taken := by
    rw [takeBytes?_eq_some_iff, takes.offset]
    exact ⟨⟨later.rest, takes.split⟩, by omega⟩
  rw [Place.upTo, cut, Option.getD_some]

theorem In.slice?_upTo (inside : place.In text) (laterInside : later.In text)
    (order : place.offset ≤ later.offset) :
    slice? text place.offset later.offset = some (place.upTo later) := by
  obtain ⟨taken, takes⟩ := inside.takes laterInside order
  obtain ⟨read, split, reached, _⟩ := inside
  rw [takes.upTo, slice?_eq_some_iff]
  exact ⟨read, later.rest, by rw [split, takes.split], reached.symm, takes.offset.symm⟩

end Place

section

variable {text read otherRead rest otherRest first second covered : List Char} {start mid stop : Nat}

/-- A text is cut in one way after so many bytes. -/
theorem append_inj_of_byteLength (same : read ++ rest = otherRead ++ otherRest)
    (length : byteLength read = byteLength otherRead) : read = otherRead ∧ rest = otherRest := by
  have here : dropBytes? (otherRead ++ otherRest) (byteLength otherRead) = some rest :=
    dropBytes?_eq_some_iff.2 ⟨read, same.symm, length⟩
  have there : dropBytes? (otherRead ++ otherRest) (byteLength otherRead) = some otherRest :=
    dropBytes?_eq_some_iff.2 ⟨otherRead, rfl, rfl⟩
  obtain rfl : rest = otherRest := Option.some.inj (here.symm.trans there)
  exact ⟨List.append_cancel_right same, rfl⟩

theorem exists_place (boundary : isBoundary text start = true) :
    ∃ place : Place, place.In text ∧ place.offset = start := by
  obtain ⟨read, rest, split, reached⟩ := isBoundary_iff.1 boundary
  exact ⟨⟨start, read.getLast?, rest⟩, ⟨read, split, reached.symm, rfl⟩, rfl⟩

theorem exists_slice? (starts : isBoundary text start = true) (stops : isBoundary text stop = true)
    (order : start ≤ stop) : ∃ covered, slice? text start stop = some covered := by
  obtain ⟨place, inside, rfl⟩ := exists_place starts
  obtain ⟨later, laterInside, rfl⟩ := exists_place stops
  exact ⟨_, inside.slice?_upTo laterInside order⟩

theorem start_add_byteLength_of_slice? (slice : slice? text start stop = some covered) :
    start + byteLength covered = stop := by
  obtain ⟨_, _, _, _, length⟩ := slice?_eq_some_iff.1 slice
  exact length

theorem isBoundary_of_slice? (slice : slice? text start stop = some covered) :
    isBoundary text start = true ∧ isBoundary text stop = true := by
  obtain ⟨before, behind, split, reached, length⟩ := slice?_eq_some_iff.1 slice
  refine ⟨isBoundary_iff.2 ⟨before, covered ++ behind, split, reached⟩, isBoundary_iff.2 ?_⟩
  refine ⟨before ++ covered, behind, by rw [split, List.append_assoc], ?_⟩
  rw [byteLength_append, reached, length]

theorem eq_nil_of_slice? (slice : slice? text start stop = some covered) (meets : stop ≤ start) :
    covered = [] := by
  have length := start_add_byteLength_of_slice? slice
  cases covered with
  | nil => rfl
  | cons c rest =>
    have size := utf8Size_ne_zero c
    rw [byteLength_cons] at length
    omega

/-- Where a slice ends the next one goes on. -/
theorem slice?_append (isFirst : slice? text start mid = some first)
    (isSecond : slice? text mid stop = some second) :
    slice? text start stop = some (first ++ second) := by
  obtain ⟨before, behind, split, reached, length⟩ := slice?_eq_some_iff.1 isFirst
  obtain ⟨more, after, moreSplit, moreReached, moreLength⟩ := slice?_eq_some_iff.1 isSecond
  -- Both slices say what is behind `mid`.
  have same : (before ++ first) ++ behind = more ++ (second ++ after) := by
    rw [List.append_assoc, ← split, moreSplit]
  have sameLength : byteLength (before ++ first) = byteLength more := by
    rw [byteLength_append, reached, length, moreReached]
  obtain ⟨_, rfl⟩ := append_inj_of_byteLength same sameLength
  refine slice?_eq_some_iff.2 ⟨before, after, by rw [split, List.append_assoc], reached, ?_⟩
  rw [byteLength_append, ← moreLength, ← length, Nat.add_assoc]

/-- A slice may be cut wherever a character of the text begins. -/
theorem exists_cut_slice? (slice : slice? text start stop = some covered)
    (boundary : isBoundary text mid = true) (behind : start ≤ mid) (before : mid ≤ stop) :
    ∃ first second, slice? text start mid = some first ∧ slice? text mid stop = some second ∧
      covered = first ++ second := by
  obtain ⟨starts, stops⟩ := isBoundary_of_slice? slice
  obtain ⟨first, isFirst⟩ := exists_slice? starts boundary behind
  obtain ⟨second, isSecond⟩ := exists_slice? boundary stops before
  exact ⟨first, second, isFirst, isSecond,
    Option.some.inj (slice.symm.trans (slice?_append isFirst isSecond))⟩

theorem slice?_self (text : List Char) : slice? text 0 (byteLength text) = some text :=
  slice?_eq_some_iff.2 ⟨[], [], (List.append_nil text).symm, rfl, Nat.zero_add _⟩

end

end Highlighter
