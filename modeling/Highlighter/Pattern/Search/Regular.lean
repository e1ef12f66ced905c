import Highlighter.Pattern.Search
import Highlighter.Pattern.Ways.Layout

/-!
The layout of a pattern. Each part of a pattern has points of its own, and what follows a meeting at
one of them depends on where it is and on what follows the part (`Trial.Regular`). Main statement: the
ways of every pattern are so (`Pattern.regular_run`).
-/

set_option autoImplicit false

namespace Highlighter

namespace Trial

variable {α : Type}

/-- At every place the two come to the same first. -/
def Alike (next other : Trial α) : Prop :=
  ∀ reach same : Reach, reach.place = same.place → (next reach).stops = (other same).stops

/-- From this offset on the meetings are those of the layout. -/
def Settles (layout : Layout) (start : Nat) (above : Nat → Nat → Prop) (next : Trial α) : Prop :=
  ∀ (below : Nat → Nat → Prop) (reach : Reach),
    (∀ point offset, above point offset → below point offset) → reach.place.In layout.text →
    start ≤ reach.place.offset → (next reach).Lawful layout below

theorem Settles.mono {layout : Layout} {start later : Nat} {above below : Nat → Nat → Prop}
    {next : Trial α} (settles : Settles layout start above next) (order : start ≤ later)
    (grows : ∀ point offset, above point offset → below point offset) :
    Settles layout later below next := fun _ reach within inside reached =>
  settles _ reach (fun _ _ known => within _ _ (grows _ _ known)) inside (Nat.le_trans order reached)

/-- Trials that are built from others with these points of their own. -/
structure Regular (own : Nat → Prop) (build : Trial α → Trial α) : Prop where
  alike : ∀ {next other : Trial α}, Alike next other → Alike (build next) (build other)
  settles : ∀ model : Trial α, ∃ laws : Nat → Place → List Stop,
    ∀ (layout : Layout) (next : Trial α), Alike next model →
      (∀ point, own point → point < layout.width ∧ layout.law point = laws point) →
      ∀ (above : Nat → Nat → Prop) (start : Nat), layout.start ≤ start →
        Settles layout start above next → Settles layout start above (build next)

namespace Regular

variable {own others : Nat → Prop} {build second : Trial α → Trial α}

theorem mono (regular : Regular own build) (within : ∀ point, own point → others point) :
    Regular others build where
  alike := regular.alike
  settles model := by
    obtain ⟨laws, settled⟩ := regular.settles model
    exact ⟨laws, fun layout next alike agrees => settled layout next alike fun point isOwn =>
      agrees point (within point isOwn)⟩

theorem id : Regular (fun _ => False) fun next : Trial α => next where
  alike := fun alike => alike
  settles _ := ⟨fun _ _ => [], fun _ _ _ _ _ _ _ settles => settles⟩

open Classical in
theorem joined (apart : ∀ point, own point → ¬others point) (laws further : Nat → Place → List Stop) :
    ∃ both : Nat → Place → List Stop, ∀ (layout : Layout),
      (∀ point, own point ∨ others point → point < layout.width ∧ layout.law point = both point) →
      (∀ point, own point → point < layout.width ∧ layout.law point = laws point) ∧
      (∀ point, others point → point < layout.width ∧ layout.law point = further point) := by
  refine ⟨fun point => if own point then laws point else further point, fun layout agrees => ?_⟩
  constructor
  · intro point isOwn
    simpa [isOwn] using agrees point (.inl isOwn)
  · intro point isOther
    have notOwn : ¬own point := fun isOwn => apart point isOwn isOther
    simpa [notOwn] using agrees point (.inr isOther)

theorem comp (regular : Regular own build) (other : Regular others second)
    (apart : ∀ point, own point → ¬others point) :
    Regular (fun point => own point ∨ others point) fun next => build (second next) where
  alike := fun alike => regular.alike (other.alike alike)
  settles model := by
    obtain ⟨laws, settled⟩ := regular.settles (second model)
    obtain ⟨further, settledOther⟩ := other.settles model
    obtain ⟨both, agree⟩ := joined apart laws further
    refine ⟨both, fun layout next alike agrees above start reached settles => ?_⟩
    obtain ⟨first, rest⟩ := agree layout agrees
    exact settled layout _ (other.alike alike) first above start reached
      (settledOther layout next alike rest above start reached settles)

theorem either (eager : Bool) (regular : Regular own build) (other : Regular others second)
    (apart : ∀ point, own point → ¬others point) :
    Regular (fun point => own point ∨ others point) fun next reach =>
      .either eager (fun _ => build next reach) fun _ => second next reach where
  alike := by
    intro next same alike reach place there
    have first := regular.alike alike reach place there
    have rest := other.alike alike reach place there
    cases eager <;> simp [Ways.either, Ways.stops, first, rest]
  settles model := by
    obtain ⟨laws, settled⟩ := regular.settles model
    obtain ⟨further, settledOther⟩ := other.settles model
    obtain ⟨both, agree⟩ := joined apart laws further
    refine ⟨both, fun layout next alike agrees above start reached settles => ?_⟩
    obtain ⟨first, rest⟩ := agree layout agrees
    intro below reach within inside order
    have left := settled layout next alike first above start reached settles below reach within inside
      order
    have right := settledOther layout next alike rest above start reached settles below reach within
      inside order
    cases eager
    · exact ⟨right, left⟩
    · exact ⟨left, right⟩

theorem meet (point : Nat) : Regular (· = point) (Trial.meet (α := α) point) where
  alike := by
    intro next other alike reach same there
    simp [Trial.meet, Ways.stops, there]
  settles model := by
    refine ⟨fun _ place => (model { place }).stops, fun layout next alike agrees above start reached
      settles below reach within inside order => ?_⟩
    obtain ⟨valid, law⟩ := agrees point rfl
    refine ⟨valid, Nat.le_trans reached order, .inr ⟨⟨reach.place, inside, rfl, ?_⟩, ?_⟩⟩
    · rw [law]
      exact alike reach { place := reach.place } rfl
    · exact settles _ reach (fun _ _ known => .inr (within _ _ known)) inside order

end Regular

/-- A loop at `point`: its turns are built from what follows the loop and from its next turn. -/
structure Turning (own : Nat → Prop) (turn : Trial α → Trial α → Trial α) : Prop where
  alike : ∀ {next other again same : Trial α}, Alike next other → Alike again same →
    Alike (turn next again) (turn other same)
  settles : ∀ model again : Trial α, ∃ laws : Nat → Place → List Stop,
    ∀ (layout : Layout) (next following : Trial α), Alike next model → Alike following again →
      (∀ point, own point → point < layout.width ∧ layout.law point = laws point) →
      ∀ (above : Nat → Nat → Prop) (start : Nat), layout.start ≤ start →
        Settles layout start above next → Settles layout start above following →
        Settles layout start above (turn next following)

theorem stops_loop (point : Nat) (turn : Trial α → Trial α) (rest : List Char) (reach : Reach) :
    (loop point turn rest reach).stops = [some (point, reach.place.offset)] := by
  cases rest <;> rfl

namespace Regular

variable {own others : Nat → Prop}

theorem loop {turn : Trial α → Trial α → Trial α} (turning : Turning own turn) {point : Nat}
    (apart : ¬own point) :
    Regular (fun other => other = point ∨ own other) fun next reach =>
      Trial.loop point (turn next) reach.place.rest reach where
  alike := by
    intro next other alike reach same there
    simp [stops_loop, there]
  settles model := by
    let again : Trial α := Trial.meet point fun _ => .fail
    obtain ⟨laws, settled⟩ := turning.settles model again
    have distinct : ∀ other, other = point → ¬own other := fun _ same isOwn => apart (same ▸ isOwn)
    obtain ⟨both, agree⟩ :=
      joined distinct (fun _ place => (turn model again { place }).stops) laws
    refine ⟨both, fun layout next alike agrees above start reached settles => ?_⟩
    obtain ⟨here, inner⟩ := agree layout agrees
    obtain ⟨valid, law⟩ := here point rfl
    -- A turn is settled if the next one is, or if it is under way already.
    have turns : ∀ (following : Trial α) (below : Nat → Nat → Prop) (reach : Reach),
        (∀ point offset, above point offset → below point offset) →
        reach.place.In layout.text → start ≤ reach.place.offset → Alike following again →
        (below point reach.place.offset ∨ Settles layout reach.place.offset
          (fun other offset => (other = point ∧ offset = reach.place.offset) ∨ below other offset)
          following) →
        (Trial.meet point (turn next following) reach).Lawful layout below := by
      intro following below reach within inside order same settledOr
      refine ⟨valid, Nat.le_trans reached order, settledOr.imp_right fun settlesNext => ?_⟩
      refine ⟨⟨reach.place, inside, rfl, ?_⟩, ?_⟩
      · rw [law]
        exact turning.alike alike same reach { place := reach.place } rfl
      · exact settled layout next following alike same inner _ reach.place.offset
          (Nat.le_trans reached order)
          (settles.mono order fun _ _ known => .inr (within _ _ known)) settlesNext _ reach
          (fun _ _ known => known) inside (Nat.le_refl _)
    have meets : ∀ (rest : List Char) (below : Nat → Nat → Prop) (reach : Reach),
        (∀ point offset, above point offset → below point offset) →
        reach.place.In layout.text → start ≤ reach.place.offset →
        below point reach.place.offset ∨ reach.place.rest.length ≤ rest.length →
        (Trial.loop point (turn next) rest reach).Lawful layout below := by
      intro rest
      induction rest with
      | nil =>
        intro below reach within inside order enough
        refine turns again below reach within inside order (fun _ _ there => ?_)
          (enough.imp_right fun enough deeper further grows furtherInside onward => ?_)
        · simp [again, Trial.meet, Ways.stops, there]
        · refine ⟨valid, Nat.le_trans reached (Nat.le_trans order onward),
            .inl (grows _ _ (.inl ⟨rfl, ?_⟩))⟩
          rcases Nat.lt_or_eq_of_le onward with onward | same
          · exact absurd (Nat.lt_of_lt_of_le (inside.length_rest_lt furtherInside onward) enough)
              (Nat.not_lt_zero _)
          · exact same.symm
      | cons c rest ih =>
        intro below reach within inside order enough
        refine turns _ below reach within inside order (fun _ _ there => ?_)
          (enough.imp_right fun enough deeper further grows furtherInside onward => ?_)
        · simp [again, stops_loop, Trial.meet, Ways.stops, there]
        · refine ih _ further (fun _ _ known => grows _ _ (.inr (within _ _ known))) furtherInside
            (Nat.le_trans order onward) ?_
          rcases Nat.lt_or_eq_of_le onward with onward | same
          · have fewer := inside.length_rest_lt furtherInside onward
            simp only [List.length_cons] at enough
            exact .inr (by omega)
          · exact .inl (grows _ _ (.inl ⟨rfl, same.symm⟩))
    exact fun below reach within inside order =>
      meets reach.place.rest below reach within inside order (.inr (Nat.le_refl _))

theorem any {body : Trial α → Trial α} (regular : Regular own body) (eager : Bool) {point : Nat}
    (apart : ¬own point) :
    Regular (fun other => other = point ∨ own other) (Trial.any body eager point) := by
  have turning : Turning own fun next again reach =>
      .either eager (fun _ => body again reach) fun _ => next reach := by
    constructor
    · intro next other again same alike alikeAgain reach there place
      have first := regular.alike alikeAgain reach there place
      have rest := alike reach there place
      cases eager <;> simp [Ways.either, Ways.stops, first, rest]
    · intro model again
      obtain ⟨laws, settled⟩ := regular.settles again
      refine ⟨laws, fun layout next following alike alikeAgain agrees above start reached settles
        settlesAgain below reach within inside order => ?_⟩
      have left := settled layout following alikeAgain agrees above start reached settlesAgain below
        reach within inside order
      have right := settles below reach within inside order
      cases eager
      · exact ⟨right, left⟩
      · exact ⟨left, right⟩
  exact loop turning apart

theorem many {body : Trial α → Trial α} (regular : Regular own body) (eager : Bool) {point : Nat}
    (apart : ¬own point) :
    Regular (fun other => other = point ∨ own other) (Trial.many body eager point) := by
  have choose {next other again same : Trial α} (alike : Alike next other)
      (alikeAgain : Alike again same) :
      Alike (fun reach => .either eager (fun _ => again reach) fun _ => next reach)
        (fun reach => .either eager (fun _ => same reach) fun _ => other reach) := by
    intro reach there place
    have first := alikeAgain reach there place
    have rest := alike reach there place
    cases eager <;> simp [Ways.either, Ways.stops, first, rest]
  have turning : Turning own fun next again => body fun reach =>
      .either eager (fun _ => again reach) fun _ => next reach := by
    constructor
    · intro next other again same alike alikeAgain
      exact regular.alike (choose alike alikeAgain)
    · intro model again
      obtain ⟨laws, settled⟩ := regular.settles
        fun reach => .either eager (fun _ => again reach) fun _ => model reach
      refine ⟨laws, fun layout next following alike alikeAgain agrees above start reached settles
        settlesAgain => settled layout _ (choose alike alikeAgain) agrees above start reached ?_⟩
      intro below reach within inside order
      have left := settlesAgain below reach within inside order
      have right := settles below reach within inside order
      cases eager
      · exact ⟨right, left⟩
      · exact ⟨left, right⟩
  exact loop turning apart

/-- The points from `base` on, so many of them. -/
abbrev From (base width point : Nat) : Prop := base ≤ point ∧ point < base + width

theorem copies {body : Nat → Trial α → Trial α} {width : Nat}
    (regular : ∀ base, Regular (From base width) (body base)) (base count : Nat) :
    Regular (From base (count * width)) (Trial.copies body width base count) := by
  induction count generalizing base with
  | zero => exact id.mono nofun
  | succ count ih =>
    refine ((regular base).comp (ih (base + width)) ?_).mono ?_ <;> intro point <;>
      simp only [From, Nat.succ_mul] <;> omega

theorem atMost {body : Nat → Trial α → Trial α} {width : Nat}
    (regular : ∀ base, Regular (From base width) (body base)) (eager : Bool) (base count : Nat) :
    Regular (From base (count * width)) (Trial.atMost body eager width base count) := by
  induction count generalizing base with
  | zero => exact id.mono nofun
  | succ count ih =>
    have onward := (regular base).comp (ih (base + width))
      (by intro point; simp only [From]; omega)
    refine (onward.either eager id (by intro point _; exact fun wrong => wrong)).mono ?_
    intro point
    simp only [From, Nat.succ_mul, or_false]
    omega

theorem step {build : Trial α → Trial α} (step? : Reach → Option Reach)
    (alike : ∀ {reach same : Reach}, reach.place = same.place →
      (step? reach).map Reach.place = (step? same).map Reach.place)
    (onward : ∀ {reach later : Reach} {text : List Char}, step? reach = some later →
      reach.place.In text → later.place.In text ∧ reach.place.offset ≤ later.place.offset)
    (builds : ∀ next reach, build next reach = ((step? reach).map next).getD .fail) :
    Regular (fun _ => False) build where
  alike := by
    intro next other same reach twin there
    have places := alike there
    rw [builds, builds]
    match first : step? reach, second : step? twin with
    | none, none => rfl
    | some later, some further =>
      rw [first, second] at places
      exact same _ _ (Option.some.inj places)
    | none, some _ => simp [first, second] at places
    | some _, none => simp [first, second] at places
  settles _ := by
    refine ⟨fun _ _ => [], fun layout next _ _ above start reached settles below reach within inside
      order => ?_⟩
    rw [builds]
    match found : step? reach with
    | none => trivial
    | some later =>
      obtain ⟨laterInside, further⟩ := onward found inside
      exact settles below later within laterInside (Nat.le_trans order further)

end Regular

end Trial

namespace Pattern

open Trial Trial.Regular

variable {α : Type}

/-- The reach behind the next character, if `accepts` does. -/
def behind? (accepts : Char → Bool) (reach : Reach) : Option Reach :=
  match reach.place.rest with
  | [] => none
  | c :: rest => if accepts c then some { reach with place := reach.place.past c rest } else none

theorem exists_of_behind? {accepts : Char → Bool} {reach later : Reach}
    (found : behind? accepts reach = some later) : ∃ c rest, reach.place.rest = c :: rest ∧
      accepts c = true ∧ later = { reach with place := reach.place.past c rest } := by
  unfold behind? at found
  split at found
  · cases found
  · next c rest follows =>
    split at found
    · next accepted => exact ⟨c, rest, follows, accepted, (Option.some.inj found).symm⟩
    · cases found

theorem regular_behind {build : Trial α → Trial α} (accepts : Char → Bool)
    (builds : ∀ next reach, build next reach = ((behind? accepts reach).map next).getD .fail) :
    Regular (fun _ => False) build := by
  refine Regular.step (behind? accepts) ?_ ?_ builds
  · intro reach same there
    unfold behind?
    rw [there]
    split
    · rfl
    · split <;> rfl
  · intro reach later text found inside
    obtain ⟨c, rest, follows, _, rfl⟩ := exists_of_behind? found
    exact ⟨inside.past follows, Nat.le_add_right _ _⟩

theorem take_cons (c : Char) (chars : List Char) (next : Trial α) (reach : Reach) :
    take (c :: chars) next reach =
      ((behind? (· = c) reach).map (take chars next)).getD .fail := by
  match follows : reach.place.rest with
  | [] => simp [take, behind?, follows]
  | d :: rest => by_cases same : d = c <;> simp [take, behind?, follows, same]

theorem run_set (chars : CharSet) (base : Nat) (next : Trial α) (reach : Reach) :
    run (.set chars) base next reach = ((behind? chars.contains reach).map next).getD .fail := by
  match follows : reach.place.rest with
  | [] => simp [run, behind?, follows]
  | c :: rest =>
    by_cases accepted : chars.contains c = true <;> simp [run, behind?, follows, accepted]

theorem regular_take (chars : List Char) : Regular (α := α) (fun _ => False) (take chars) := by
  induction chars with
  | nil => exact Regular.id
  | cons c chars ih =>
    have builds : take (α := α) (c :: chars) = fun next reach =>
        ((behind? (· = c) reach).map (take chars next)).getD .fail := by
      funext next reach
      exact take_cons c chars next reach
    rw [builds]
    have first : Regular (α := α) (fun _ => False) fun next reach =>
        ((behind? (· = c) reach).map next).getD .fail := regular_behind (· = c) fun _ _ => rfl
    exact (first.comp ih nofun).mono fun _ known => known.elim nofun nofun

section

variable {body : Nat → Trial α → Trial α} {width base : Nat}

theorem regular_bounded (regular : ∀ base, Regular (From base width) (body base)) (least most : Nat)
    (eager : Bool) :
    Regular (From base (max least most * width + 2)) fun next =>
      if most = least then copies body width (base + 2) least next
      else
        copies body width (base + 2) least
          (atMost body eager width (base + 2 + least * width) (most - least)
            (Trial.meet base next)) := by
  have fits : least * width + (most - least) * width ≤ max least most * width := by
    rw [← Nat.add_mul]
    exact Nat.mul_le_mul_right width (by omega)
  by_cases same : most = least
  · simp only [same, if_true]
    refine (Regular.copies regular (base + 2) least).mono ?_
    intro point
    simp only [From, Nat.max_self]
    omega
  · simp only [same, if_false]
    have further := (Regular.atMost regular eager (base + 2 + least * width) (most - least)).comp
      (Regular.meet base) (by intro point; simp only [From]; omega)
    refine ((Regular.copies regular (base + 2) least).comp further ?_).mono ?_ <;> intro point <;>
      simp only [From] <;> omega

theorem regular_unbounded (regular : ∀ base, Regular (From base width) (body base))
    (isSolid : Bool) (least : Nat) (eager : Bool) :
    Regular (From base (max least 1 * width + 2)) fun next =>
      if least = 0 then
        if isSolid then any (body (base + 2)) eager base next
        else fun reach =>
          .either eager (fun _ => many (body (base + 2)) eager (base + 1) (Trial.meet base next) reach)
            fun _ => Trial.meet base next reach
      else
        copies body width (base + 2) (least - 1)
          (many (body (base + 2 + (least - 1) * width)) eager base next) := by
  by_cases zero : least = 0
  · subst zero
    have one : max 0 1 * width = width := Nat.one_mul width
    simp only [if_true]
    cases isSolid
    · have apart : ¬From (base + 2) width (base + 1) := by simp only [From]; omega
      have inner := (Regular.many (regular (base + 2)) eager apart).either eager Regular.id
        fun _ _ => not_false
      refine (inner.comp (Regular.meet base) ?_).mono ?_ <;> intro point <;>
        simp only [From, or_false] <;> omega
    · have apart : ¬From (base + 2) width base := by simp only [From]; omega
      refine (Regular.any (regular (base + 2)) eager apart).mono ?_
      intro point
      simp only [From]
      omega
  · simp only [zero, if_false]
    have fits : max least 1 * width = (least - 1) * width + width := by
      rw [← Nat.succ_mul]
      congr 1
      omega
    refine ((Regular.copies regular (base + 2) (least - 1)).comp
      (Regular.many (regular _) eager ?_) ?_).mono ?_
    · simp only [From]
      omega
    · intro point
      simp only [From]
      omega
    · intro point
      simp only [From]
      omega

end

theorem regular_run (pattern : Pattern) (base : Nat) :
    Regular (From base pattern.points) (pattern.run (α := α) base) := by
  induction pattern generalizing base with
  | empty => exact Regular.id.mono nofun
  | literal chars => exact (regular_take chars).mono nofun
  | set chars =>
    exact (regular_behind chars.contains fun next reach => run_set chars base next reach).mono nofun
  | assert condition =>
    refine (Regular.step (fun reach => if condition.holds reach.place then some reach else none)
      ?_ ?_ fun next reach => ?_).mono nofun
    · intro reach same there
      by_cases holds : condition.holds same.place = true <;> simp [there, holds]
    · intro reach later text found inside
      split at found
      · cases found
        exact ⟨inside, Nat.le_refl _⟩
      · cases found
    · unfold run
      split <;> rfl
  | group index body ih =>
    refine ((ih base).comp (Regular.step (fun reach =>
      some (if index = 1 then { reach with context := some reach.place } else reach))
      ?_ ?_ fun _ _ => rfl) (by intro point _; exact fun wrong => wrong)).mono
      (by intro point; exact fun known => known.elim (fun own => own) nofun)
    · intro reach same there
      by_cases first : index = 1 <;> simp [first, there]
    · intro reach later text found inside
      cases found
      by_cases first : index = 1 <;> simp [first, inside]
  | seq first second ihFirst ihSecond =>
    refine ((ihFirst base).comp (ihSecond (base + first.points)) ?_).mono ?_ <;> intro point <;>
      simp only [From, points] <;> omega
  | alt first second ihFirst ihSecond =>
    have joined := (ihFirst (base + 1)).either true (ihSecond (base + 1 + first.points))
      (by intro point; simp only [From]; omega)
    refine (joined.comp (Regular.meet base) ?_).mono ?_ <;> intro point <;>
      simp only [From, points] <;> omega
  | rounds least most eager body ih =>
    match most with
    | some most => exact regular_bounded ih least most eager
    | none => exact regular_unbounded ih body.isSolid least eager

end Pattern

end Highlighter
