import Highlighter.Proofs.Pattern.Outcomes

/-!
Runs side by side. A relation between ways that holds part by part (`Ways.Congruence`) holds of the ways of a
pattern wherever it holds of what follows them (`Pattern.respects_run`). The points of the two runs may be
numbered from different bases, and the groups of the two patterns may be numbered differently.
-/

set_option autoImplicit false

namespace Highlighter

variable {α β : Type}

/-- A relation that holds of ways if it holds of their parts. Points that stand for each other are `pairs`. -/
structure Ways.Congruence (related : Ways α → Ways β → Prop) (pairs : Nat → Nat → Prop) : Prop where
  fail : related .fail .fail
  orElse : ∀ {first second other others}, related first other → related (second ()) (others ()) →
    related (.orElse first second) (.orElse other others)
  meet : ∀ {point other offset next following}, pairs point other →
    related (next ()) (following ()) → related (.meet point offset next) (.meet other offset following)

/-- Reaches that stay together along each step of a match, where group `index` of the one pattern is group
`number index` of the other. -/
structure Together (number : Nat → Nat) (same : Reach → Reach → Prop) : Prop where
  place : ∀ {reach other}, same reach other → other.place = reach.place
  past : ∀ {reach other} (place : Place), same reach other →
    same { reach with place } { other with place }
  close : ∀ {reach other} (index : Nat), same reach other →
    same (Pattern.close index reach) (Pattern.close (number index) other)

theorem together_eq : Together id (· = ·) where
  place := by rintro _ _ rfl; rfl
  past := by rintro _ _ _ rfl; rfl
  close := by rintro _ _ _ rfl; rfl

/-- So many points from `base` and from `other` on stand for each other. -/
def Paired (pairs : Nat → Nat → Prop) (base other count : Nat) : Prop :=
  ∀ index < count, pairs (base + index) (other + index)

theorem Paired.part {pairs : Nat → Nat → Prop} {base other count : Nat} (paired : Paired pairs base other count)
    (start fewer : Nat) (fits : start + fewer ≤ count) :
    Paired pairs (base + start) (other + start) fewer := by
  intro index less
  have known := paired (start + index) (by omega)
  rwa [← Nat.add_assoc, ← Nat.add_assoc] at known

namespace Trial

variable {related : Ways α → Ways β → Prop} {pairs : Nat → Nat → Prop} {same : Reach → Reach → Prop}
  {number : Nat → Nat}

def Follows (related : Ways α → Ways β → Prop) (same : Reach → Reach → Prop) (next : Trial α)
    (following : Trial β) : Prop :=
  ∀ reach other, same reach other → related (next reach) (following other)

/-- What is built from related trials is related. -/
def Respects (related : Ways α → Ways β → Prop) (same : Reach → Reach → Prop) (build : Trial α → Trial α)
    (other : Trial β → Trial β) : Prop :=
  ∀ next following, Follows related same next following → Follows related same (build next) (other following)

theorem related_either (congruence : Ways.Congruence related pairs) (eager : Bool)
    {goOn leave : Unit → Ways α} {goesOn leaves : Unit → Ways β} (first : related (goOn ()) (goesOn ()))
    (second : related (leave ()) (leaves ())) : related (.either eager goOn leave) (.either eager goesOn leaves) := by
  cases eager
  · exact congruence.orElse second first
  · exact congruence.orElse first second

theorem respects_meet (congruence : Ways.Congruence related pairs) (together : Together number same)
    {point other : Nat} (paired : pairs point other) :
    Respects related same (meet point) (meet other) := by
  intro next following follows reach later isSame
  unfold meet
  rw [together.place isSame]
  exact congruence.meet paired (follows reach later isSame)

theorem respects_take (congruence : Ways.Congruence related pairs) (together : Together number same)
    (chars : List Char) : Respects related same (take chars) (take chars) := by
  intro next following follows
  induction chars with
  | nil => exact follows
  | cons c chars ih =>
    intro reach later isSame
    unfold take
    rw [together.place isSame]
    split
    · exact congruence.fail
    split
    · exact ih _ _ (together.past _ isSame)
    · exact congruence.fail

section

variable {body : Nat → Trial α → Trial α} {bodyOther : Nat → Trial β → Trial β} {width base other : Nat}
  {eager : Bool}

theorem respects_copies (inner : ∀ base other, Paired pairs base other width →
      Respects related same (body base) (bodyOther other)) {count : Nat}
    (paired : Paired pairs base other (count * width)) :
    Respects related same (copies body width base count) (copies bodyOther width other count) := by
  intro next following follows
  induction count generalizing base other with
  | zero => exact follows
  | succ count ih =>
    rw [Nat.succ_mul] at paired
    have here : Paired pairs base other width := paired.part 0 _ (by omega)
    exact inner base other here _ _ (ih (paired.part width _ (by omega)))

theorem respects_atMost (congruence : Ways.Congruence related pairs)
    (inner : ∀ base other, Paired pairs base other width →
      Respects related same (body base) (bodyOther other)) {count : Nat}
    (paired : Paired pairs base other (count * width)) :
    Respects related same (atMost body eager width base count) (atMost bodyOther eager width other count) := by
  intro next following follows
  induction count generalizing base other with
  | zero => exact follows
  | succ count ih =>
    rw [Nat.succ_mul] at paired
    have here : Paired pairs base other width := paired.part 0 _ (by omega)
    intro reach later isSame
    unfold atMost
    refine related_either congruence eager ?_ ?_
    · exact inner base other here _ _ (ih (paired.part width _ (by omega))) reach later isSame
    · exact follows reach later isSame

end

section

variable {point other : Nat}

theorem follows_loop (congruence : Ways.Congruence related pairs) (together : Together number same)
    (paired : pairs point other) {turn : Trial α → Trial α} {turnOther : Trial β → Trial β}
    (turns : Respects related same turn turnOther) (rest : List Char) :
    Follows related same (loop point turn rest) (loop other turnOther rest) := by
  have atPoint := respects_meet congruence together paired
  induction rest with
  | nil => exact atPoint _ _ (turns _ _ (atPoint _ _ fun _ _ _ => congruence.fail))
  | cons c rest ih => exact atPoint _ _ (turns _ _ ih)

variable {body : Trial α → Trial α} {bodyOther : Trial β → Trial β}

theorem respects_any (congruence : Ways.Congruence related pairs) (together : Together number same)
    (inner : Respects related same body bodyOther) (eager : Bool) (paired : pairs point other) :
    Respects related same (any body eager point) (any bodyOther eager other) := by
  intro next following follows reach later isSame
  unfold any
  rw [together.place isSame]
  refine follows_loop congruence together paired ?_ _ reach later isSame
  intro again goingOn turns here there alike
  refine related_either congruence eager ?_ ?_
  · exact inner _ _ turns here there alike
  · exact follows here there alike

theorem respects_many (congruence : Ways.Congruence related pairs) (together : Together number same)
    (inner : Respects related same body bodyOther) (eager : Bool) (paired : pairs point other) :
    Respects related same (many body eager point) (many bodyOther eager other) := by
  intro next following follows reach later isSame
  unfold many
  rw [together.place isSame]
  refine follows_loop congruence together paired ?_ _ reach later isSame
  intro again goingOn turns
  refine inner _ _ fun here there alike => related_either congruence eager ?_ ?_
  · exact turns here there alike
  · exact follows here there alike

end

end Trial

namespace Pattern

open Trial

/-- The pattern with group `index` numbered as `number index`. -/
def renumber (number : Nat → Nat) : Pattern → Pattern
  | .empty => .empty
  | .literal chars => .literal chars
  | .set chars => .set chars
  | .assert condition => .assert condition
  | .group index body => .group (number index) (body.renumber number)
  | .seq first second => .seq (first.renumber number) (second.renumber number)
  | .alt first second => .alt (first.renumber number) (second.renumber number)
  | .rounds least most eager body => .rounds least most eager (body.renumber number)

variable {number : Nat → Nat}

theorem renumber_id (pattern : Pattern) : pattern.renumber id = pattern := by
  induction pattern <;> simp_all [renumber]

theorem points_renumber (pattern : Pattern) : (pattern.renumber number).points = pattern.points := by
  induction pattern <;> simp_all [renumber, points]

theorem minBytes?_renumber (pattern : Pattern) : (pattern.renumber number).minBytes? = pattern.minBytes? := by
  induction pattern <;> simp_all [renumber, minBytes?]

theorem isSolid_renumber (pattern : Pattern) : (pattern.renumber number).isSolid = pattern.isSolid := by
  rw [isSolid, minBytes?_renumber, isSolid]

variable {related : Ways α → Ways β → Prop} {pairs : Nat → Nat → Prop} {same : Reach → Reach → Prop}

section

variable {body : Nat → Trial α → Trial α} {bodyOther : Nat → Trial β → Trial β} {width base other : Nat}

theorem respects_bounded (congruence : Ways.Congruence related pairs) (together : Together number same)
    (inner : ∀ base other, Paired pairs base other width →
      Respects related same (body base) (bodyOther other)) (least most : Nat) (eager : Bool)
    (paired : Paired pairs base other (max least most * width + 2)) :
    Respects related same
      (fun next =>
        if most = least then copies body width (base + 2) least next
        else
          copies body width (base + 2) least
            (atMost body eager width (base + 2 + least * width) (most - least) (Trial.meet base next)))
      fun next =>
        if most = least then copies bodyOther width (other + 2) least next
        else
          copies bodyOther width (other + 2) least
            (atMost bodyOther eager width (other + 2 + least * width) (most - least) (Trial.meet other next)) := by
  have fits : least * width + (most - least) * width ≤ max least most * width := by
    rw [← Nat.add_mul]
    exact Nat.mul_le_mul_right width (by omega)
  have required := respects_copies inner (paired.part 2 (least * width) (by omega))
  have further := paired.part (2 + least * width) ((most - least) * width) (by omega)
  rw [← Nat.add_assoc, ← Nat.add_assoc] at further
  intro next following follows
  dsimp only
  split
  · exact required _ _ follows
  · have meets := respects_meet congruence together (paired 0 (by omega)) next following follows
    exact required _ _ (respects_atMost congruence inner further _ _ meets)

theorem respects_unbounded (congruence : Ways.Congruence related pairs) (together : Together number same)
    (inner : ∀ base other, Paired pairs base other width →
      Respects related same (body base) (bodyOther other)) (least : Nat) (eager solid : Bool)
    (paired : Paired pairs base other (max least 1 * width + 2)) :
    Respects related same
      (fun next =>
        if least = 0 then
          if solid then any (body (base + 2)) eager base next
          else fun reach =>
            .either eager (fun _ => many (body (base + 2)) eager (base + 1) (Trial.meet base next) reach)
              fun _ => Trial.meet base next reach
        else
          copies body width (base + 2) (least - 1)
            (many (body (base + 2 + (least - 1) * width)) eager base next))
      fun next =>
        if least = 0 then
          if solid then any (bodyOther (other + 2)) eager other next
          else fun reach =>
            .either eager (fun _ => many (bodyOther (other + 2)) eager (other + 1) (Trial.meet other next) reach)
              fun _ => Trial.meet other next reach
        else
          copies bodyOther width (other + 2) (least - 1)
            (many (bodyOther (other + 2 + (least - 1) * width)) eager other next) := by
  have start : pairs base other := paired 0 (by omega)
  intro next following follows
  dsimp only
  split
  next none =>
    have fits : 2 + width ≤ max least 1 * width + 2 := by
      rw [none]
      simp [Nat.add_comm]
    have round := inner _ _ (paired.part 2 _ fits)
    split
    · exact respects_any congruence together round eager start _ _ follows
    · intro reach later isSame
      have meets := respects_meet congruence together start next following follows
      refine related_either congruence eager ?_ ?_
      · exact respects_many congruence together round eager (paired 1 (by omega)) _ _ meets reach later isSame
      · exact meets reach later isSame
  next some =>
    -- Of the required rounds all but the last are written out, and the last one loops.
    have fits : max least 1 * width = (least - 1) * width + width := by
      rw [← Nat.succ_mul]
      congr 1
      omega
    have round := paired.part (2 + (least - 1) * width) width (by omega)
    rw [← Nat.add_assoc, ← Nat.add_assoc] at round
    have loops := respects_many congruence together (inner _ _ round) eager start next following follows
    exact respects_copies inner (paired.part 2 _ (by omega)) _ _ loops

end

theorem respects_run (congruence : Ways.Congruence related pairs) (together : Together number same)
    (pattern : Pattern) {base other : Nat} (paired : Paired pairs base other pattern.points) :
    Respects related same (pattern.run base) ((pattern.renumber number).run other) := by
  induction pattern generalizing base other with
  | empty => exact fun _ _ follows => follows
  | literal chars => exact respects_take congruence together chars
  | set chars =>
    intro next following follows reach later isSame
    unfold renumber run
    rw [together.place isSame]
    split
    · exact congruence.fail
    split
    · exact follows _ _ (together.past _ isSame)
    · exact congruence.fail
  | assert condition =>
    intro next following follows reach later isSame
    unfold renumber run
    rw [together.place isSame]
    split
    · exact follows _ _ isSame
    · exact congruence.fail
  | group index body ih =>
    intro next following follows
    exact ih paired _ _ fun reach later isSame => follows _ _ (together.close index isSame)
  | seq first second ihFirst ihSecond =>
    intro next following follows
    unfold renumber run
    rw [points_renumber]
    have behind := ihSecond (paired.part first.points _ (Nat.le_refl _))
    exact ihFirst (paired.part 0 _ (by simp [points])) _ _ (behind _ _ follows)
  | alt first second ihFirst ihSecond =>
    intro next following follows reach later isSame
    unfold renumber run
    rw [points_renumber]
    have start : pairs base other := paired 0 (by simp [points])
    have meets := respects_meet congruence together start _ _ follows
    refine congruence.orElse ?_ ?_
    · exact ihFirst (paired.part 1 _ (by simp only [points]; omega)) _ _ meets reach later isSame
    · have behind := paired.part (1 + first.points) second.points (by simp only [points]; omega)
      rw [← Nat.add_assoc, ← Nat.add_assoc] at behind
      exact ihSecond behind _ _ meets reach later isSame
  | rounds least most eager body ih =>
    cases most with
    | some most =>
      have bounded := respects_bounded congruence together (fun _ _ => ih) least most eager paired
      simpa only [renumber, run, points_renumber] using bounded
    | none =>
      have unbounded := respects_unbounded congruence together (fun _ _ => ih) least eager body.isSolid paired
      simpa only [renumber, run, points_renumber, isSolid_renumber] using unbounded

end Pattern

end Highlighter
