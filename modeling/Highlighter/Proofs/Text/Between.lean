import Highlighter.Text.Place

/-!
What lies between two places of a text, and the places from one on to the end. Main statements: of two
places of a text the later one is behind the characters between them (`Place.In.takes`), and a visit to
all places in order finds what the first of them has (`Place.findSome?_onward_eq_some`).
-/

set_option autoImplicit false

namespace Highlighter

/-- `later` is the place behind these characters, which follow `place`. -/
structure Place.Takes (place : Place) (taken : List Char) (later : Place) : Prop where
  split : place.rest = taken ++ later.rest
  offset : later.offset = place.offset + byteLength taken
  before : later.before = taken.getLast?.or place.before

namespace Place

variable {place mid later : Place} {taken more text : List Char}

theorem Takes.refl (place : Place) : place.Takes [] place := ⟨rfl, rfl, rfl⟩

theorem Takes.trans (first : place.Takes taken mid) (second : mid.Takes more later) :
    place.Takes (taken ++ more) later := by
  refine ⟨?_, ?_, ?_⟩
  · rw [first.split, second.split, List.append_assoc]
  · rw [second.offset, first.offset, byteLength_append, Nat.add_assoc]
  · rw [second.before, first.before, List.getLast?_append, Option.or_assoc]

theorem takes_past {c : Char} {rest : List Char} (follows : place.rest = c :: rest) :
    place.Takes [c] (place.past c rest) := by
  refine ⟨by simpa [past] using follows, ?_, ?_⟩
  · simp [past]
  · simp [past]

theorem Takes.le (takes : place.Takes taken later) : place.offset ≤ later.offset := by
  rw [takes.offset]
  exact Nat.le_add_right _ _

theorem Takes.inside (takes : place.Takes taken later) (inside : place.In text) : later.In text := by
  obtain ⟨read, split, reached, before⟩ := inside
  refine ⟨read ++ taken, ?_, ?_, ?_⟩
  · rw [split, takes.split, List.append_assoc]
  · rw [takes.offset, reached, byteLength_append]
  · rw [takes.before, before, List.getLast?_append]

/-- The place between two parts of a text. -/
def behind (read rest : List Char) : Place := ⟨byteLength read, read.getLast?, rest⟩

theorem behind_in (read rest : List Char) : (behind read rest).In (read ++ rest) := ⟨read, rfl, rfl, rfl⟩

theorem behind_append_in (read taken rest : List Char) :
    (behind (read ++ taken) rest).In (read ++ (taken ++ rest)) :=
  ⟨read ++ taken, (List.append_assoc read taken rest).symm, rfl, rfl⟩

/-- The place behind so many characters of a text, or at its end if it has fewer. -/
def nth (text : List Char) (count : Nat) : Place := behind (text.take count) (text.drop count)

theorem nth_in (text : List Char) (count : Nat) : (nth text count).In text := by
  have inside : (nth text count).In (text.take count ++ text.drop count) := behind_in _ _
  rwa [List.take_append_drop] at inside

theorem past_behind (read rest : List Char) (c : Char) :
    (behind read (c :: rest)).past c rest = behind (read ++ [c]) rest := by
  simp [behind, past]

theorem Takes.eq_behind {read rest : List Char} (takes : (behind read rest).Takes taken later) :
    later = behind (read ++ taken) later.rest := by
  obtain ⟨_, offset, before⟩ := takes
  obtain ⟨_, _, rest⟩ := later
  simp only [behind] at offset before
  rw [offset, before, behind, byteLength_append, List.getLast?_append]

theorem takes_last (place : Place) : place.Takes place.rest place.last := by
  obtain ⟨offset, before, rest⟩ := place
  unfold last
  induction rest generalizing offset before with
  | nil => exact .refl _
  | cons c rest ih =>
    have step : Place.Takes ⟨offset, before, c :: rest⟩ [c] (past ⟨offset, before, c :: rest⟩ c rest) :=
      takes_past rfl
    exact step.trans (ih (offset + c.utf8Size) (some c))

theorem rest_last (place : Place) : place.last.rest = [] := by
  have length := congrArg List.length (takes_last place).split
  rw [List.length_append] at length
  exact List.length_eq_zero_iff.1 (by omega)

theorem last_of_end (ends : place.rest = []) : place.last = place := by
  obtain ⟨offset, before, _⟩ := place
  cases ends
  rfl

theorem last_of_cons {c : Char} {rest : List Char} (follows : place.rest = c :: rest) :
    place.last = (place.past c rest).last := by
  obtain ⟨offset, before, _⟩ := place
  cases follows
  rfl

theorem In.last_eq (inside : place.In text) (laterInside : later.In text) :
    place.last = later.last := by
  have first := place.takes_last.inside inside
  have second := later.takes_last.inside laterInside
  rcases Nat.le_total place.last.offset later.last.offset with order | order
  · exact (first.eq_of_end place.rest_last second order).symm
  · exact second.eq_of_end later.rest_last first order

theorem In.offset_last (inside : place.In text) : place.last.offset = byteLength text := by
  obtain ⟨read, split, reached, _⟩ := place.takes_last.inside inside
  rw [place.rest_last, List.append_nil] at split
  rw [reached, split]

theorem In.length_rest_le (inside : place.In text) (laterInside : later.In text)
    (order : place.offset ≤ later.offset) : later.rest.length ≤ place.rest.length := by
  obtain ⟨between, rest, _⟩ := inside.split laterInside order
  rw [rest, List.length_append]
  exact Nat.le_add_left _ _

theorem In.takes (inside : place.In text) (laterInside : later.In text)
    (order : place.offset ≤ later.offset) : ∃ taken, place.Takes taken later := by
  obtain ⟨taken, split, length⟩ := inside.split laterInside order
  have takes : place.Takes taken ⟨later.offset, taken.getLast?.or place.before, later.rest⟩ :=
    ⟨split, length, rfl⟩
  refine ⟨taken, ?_⟩
  have same := (takes.inside inside).eq_of_offset laterInside rfl
  rwa [same] at takes

/-- What is taken is cut in two by any place on the way. -/
theorem Takes.exists_split (takes : place.Takes taken later) (inside : place.In text) (midInside : mid.In text)
    (ahead : place.offset ≤ mid.offset) (before : mid.offset ≤ later.offset) :
    ∃ first second, taken = first ++ second ∧ place.Takes first mid ∧ mid.Takes second later := by
  obtain ⟨first, toMid⟩ := inside.takes midInside ahead
  obtain ⟨second, toLater⟩ := midInside.takes (takes.inside inside) before
  exact ⟨first, second, List.append_cancel_right (takes.split.symm.trans (toMid.trans toLater).split),
    toMid, toLater⟩

theorem Takes.ne_nil (takes : place.Takes taken later) (further : place.offset < later.offset) : taken ≠ [] :=
  fun empty => by simp [takes.offset, empty] at further

theorem lt_next? (isNext : place.next? = some later) : place.offset < later.offset := by
  unfold next? at isNext
  split at isNext
  · cases isNext
  · next c rest _ =>
    cases isNext
    exact Nat.lt_add_of_pos_right (Nat.pos_of_ne_zero (utf8Size_ne_zero c))

theorem In.next? (inside : place.In text) (isNext : place.next? = some later) : later.In text := by
  unfold Place.next? at isNext
  split at isNext
  · cases isNext
  · next follows =>
    cases isNext
    exact inside.past follows

/-- Nothing lies between a place and the next, or behind the last one. -/
theorem In.eq_of_lt_next? (inside : place.In text) (laterInside : later.In text)
    (order : place.offset ≤ later.offset)
    (before : ∀ next ∈ place.next?, later.offset < next.offset) : later = place := by
  match follows : place.rest with
  | [] => exact inside.eq_of_end follows laterInside order
  | c :: rest =>
    rcases inside.eq_or_past follows laterInside order with same | further
    · exact same
    · have isNext : place.next? = some (place.past c rest) := by simp [Place.next?, follows]
      exact absurd (before _ isNext) (Nat.not_lt_of_le further)

def walk (place : Place) : List Char → List Place
  | [] => [place]
  | c :: rest => place :: (place.past c rest).walk rest

def onward (place : Place) : List Place := place.walk place.rest

variable {β : Type} {visit : Place → Option β}

theorem onward_of_end (ends : place.rest = []) : place.onward = [place] := by
  simp [onward, ends, walk]

theorem onward_of_cons {c : Char} {rest : List Char} (follows : place.rest = c :: rest) :
    place.onward = place :: (place.past c rest).onward := by
  simp [onward, follows, walk, past]

theorem findSome?_onward_congr {other : Place → Option β} (inside : place.In text)
    (same : ∀ there : Place, there.In text → visit there = other there) :
    place.onward.findSome? visit = place.onward.findSome? other := by
  induction follows : place.rest generalizing place with
  | nil => rw [onward_of_end follows, List.findSome?_singleton, List.findSome?_singleton, same place inside]
  | cons c rest ih =>
    rw [onward_of_cons follows, List.findSome?_cons, List.findSome?_cons, same place inside,
      ih (inside.past follows) rfl]

/-- What stops the visit at the end of the text if nothing has before. -/
theorem findSome?_onward_or_last (stop : Place → Option Place) (place : Place) :
    (place.onward.findSome? fun there => (stop there).or (if there.rest.isEmpty then some there else none)) =
      some ((place.onward.findSome? stop).getD place.last) := by
  induction follows : place.rest generalizing place with
  | nil =>
    rw [onward_of_end follows, List.findSome?_singleton, List.findSome?_singleton, follows, last_of_end follows]
    cases stop place <;> rfl
  | cons c rest ih =>
    rw [onward_of_cons follows, List.findSome?_cons, List.findSome?_cons, follows, last_of_cons follows]
    cases stop place with
    | some found => rfl
    | none => exact ih (place.past c rest) rfl

theorem findSome?_onward_eq_none (inside : place.In text) :
    place.onward.findSome? visit = none ↔
      ∀ start : Place, start.In text → place.offset ≤ start.offset → visit start = none := by
  induction follows : place.rest generalizing place with
  | nil =>
    rw [onward_of_end follows, List.findSome?_cons, List.findSome?_nil]
    constructor
    · intro nothing start startInside order
      rw [inside.eq_of_end follows startInside order]
      cases here : visit place <;> simp_all
    · intro nothing
      rw [nothing place inside (Nat.le_refl _)]
  | cons c rest ih =>
    rw [onward_of_cons follows, List.findSome?_cons]
    constructor
    · intro nothing start startInside order
      cases here : visit place with
      | some found => simp [here] at nothing
      | none =>
        rw [here] at nothing
        rcases inside.eq_or_past follows startInside order with rfl | further
        · exact here
        · exact (ih (inside.past follows) rfl).1 nothing start startInside further
    · intro nothing
      rw [nothing place inside (Nat.le_refl _)]
      exact (ih (inside.past follows) rfl).2 fun start startInside order =>
        nothing start startInside (Nat.le_trans (Nat.le_add_right _ _) order)

theorem findSome?_onward_eq_some (inside : place.In text) {found : β} :
    place.onward.findSome? visit = some found ↔
      ∃ start : Place, start.In text ∧ place.offset ≤ start.offset ∧ visit start = some found ∧
        ∀ earlier : Place, earlier.In text → place.offset ≤ earlier.offset →
          earlier.offset < start.offset → visit earlier = none := by
  induction follows : place.rest generalizing place with
  | nil =>
    rw [onward_of_end follows, List.findSome?_cons, List.findSome?_nil]
    constructor
    · intro here
      refine ⟨place, inside, Nat.le_refl _, ?_, fun earlier _ order before => by omega⟩
      cases there : visit place <;> simp_all
    · rintro ⟨start, startInside, order, there, _⟩
      rw [inside.eq_of_end follows startInside order] at there
      rw [there]
  | cons c rest ih =>
    -- The induction is on the rest of the text: the first place is visited, then all behind it.
    rw [onward_of_cons follows, List.findSome?_cons]
    cases here : visit place with
    | some other =>
      constructor
      · intro same
        cases same
        exact ⟨place, inside, Nat.le_refl _, here, fun earlier _ order before => by omega⟩
      · rintro ⟨start, startInside, order, there, earliest⟩
        rcases Nat.lt_or_eq_of_le order with further | same
        · rw [earliest place inside (Nat.le_refl _) further] at here
          cases here
        · rw [inside.eq_of_offset startInside same] at here
          exact here.symm.trans there
    | none =>
      rw [ih (inside.past follows) rfl]
      have order : place.offset ≤ (place.past c rest).offset := Nat.le_add_right _ _
      constructor
      · rintro ⟨start, startInside, further, there, earliest⟩
        refine ⟨start, startInside, Nat.le_trans order further, there, ?_⟩
        intro earlier earlierInside onward before
        rcases inside.eq_or_past follows earlierInside onward with rfl | past
        · exact here
        · exact earliest earlier earlierInside past before
      · rintro ⟨start, startInside, onward, there, earliest⟩
        refine ⟨start, startInside, ?_, there, fun earlier earlierInside past =>
          earliest earlier earlierInside (Nat.le_trans order past)⟩
        rcases inside.eq_or_past follows startInside onward with rfl | past
        · rw [here] at there
          cases there
        · exact past

end Place

end Highlighter
