import Highlighter.Pattern.Search.Regular
import Highlighter.Proofs.Ways.Answers

/-!
Patterns whose ways come to no meeting twice: those in which no round of an unbounded repetition may
take nothing. A point in such a round is either met only behind the first byte that the round takes, or
left only before a further byte; so between two visits to a point the place has changed. Main
statement: `Pattern.clear_run_answer`.
-/

set_option autoImplicit false

namespace Highlighter

namespace Trial

variable {α : Type}

/-- A meeting at this offset lies before the reach, or just at it where that is harmless. -/
def Passed (late : Prop) (reach : Reach) (offset : Nat) : Prop :=
  offset < reach.place.offset ∨ (offset = reach.place.offset ∧ late)

theorem Passed.le {late : Prop} {reach : Reach} {offset : Nat} (passed : Passed late reach offset) :
    offset ≤ reach.place.offset := by
  rcases passed with before | ⟨same, _⟩ <;> omega

theorem Passed.mono {late other : Prop} {reach later : Reach} {offset : Nat}
    (passed : Passed late reach offset) (order : reach.place.offset ≤ later.place.offset)
    (stays : later.place.offset ≤ reach.place.offset → late → other) :
    Passed other later offset := by
  rcases passed with before | ⟨same, isLate⟩
  · exact .inl (by omega)
  · rcases Nat.lt_or_eq_of_le order with further | still
    · exact .inl (by omega)
    · exact .inr ⟨by omega, stays (by omega) isLate⟩

/-- Trials built from others come to none of their own points twice. Those that are `late` are met only
behind a first byte. If the trials gain, they take at least one byte before what follows them. -/
def Onward (own : Nat → Prop) (gains : Prop) (build : Trial α → Trial α) : Prop :=
  ∃ late : Nat → Prop, ∀ (next : Trial α) (seen : Nat → Nat → Prop) (reach : Reach),
    (∀ point offset, own point → seen point offset → Passed (late point) reach offset) →
    (∀ (below : Nat → Nat → Prop) (later : Reach), reach.place.offset ≤ later.place.offset →
      (gains → reach.place.offset < later.place.offset) →
      (∀ point offset, below point offset →
        seen point offset ∨ (own point ∧ Passed (gains → late point) later offset)) →
      (next later).Clear below) →
    (build next reach).Clear seen

namespace Onward

variable {own others : Nat → Prop} {gains gainsMore : Prop} {build second : Trial α → Trial α}

theorem id : Onward (fun _ => False) False fun next : Trial α => next :=
  ⟨fun _ => False, fun _ seen reach _ follows =>
    follows seen reach (Nat.le_refl _) nofun fun _ _ known => .inl known⟩

theorem mono (onward : Onward own gains build) (within : ∀ point, own point → others point)
    (weaker : gainsMore → gains) : Onward others gainsMore build := by
  obtain ⟨late, clear⟩ := onward
  refine ⟨late, fun next seen reach fresh follows => clear next seen reach
    (fun point offset isOwn => fresh point offset (within point isOwn)) ?_⟩
  intro below later order gain known
  refine follows below later order (fun isGain => gain (weaker isGain)) fun point offset isBelow => ?_
  refine (known point offset isBelow).imp_right fun ⟨isOwn, passed⟩ => ⟨within point isOwn, ?_⟩
  exact passed.mono (Nat.le_refl _) fun _ isLate isGain => isLate (weaker isGain)

theorem comp (onward : Onward own gains build) (other : Onward others gainsMore second)
    (apart : ∀ point, own point → ¬others point) :
    Onward (fun point => own point ∨ others point) (gains ∨ gainsMore)
      fun next => build (second next) := by
  obtain ⟨late, clear⟩ := onward
  obtain ⟨lateOther, clearOther⟩ := other
  -- A point of the second is late if it is so there, or if the first takes something before it.
  refine ⟨fun point => (own point → late point) ∧ (others point → lateOther point ∨ gains), ?_⟩
  intro next seen reach fresh follows
  refine clear _ seen reach (fun point offset isOwn isSeen => ?_) fun below mid order gain known => ?_
  · exact (fresh point offset (.inl isOwn) isSeen).mono (Nat.le_refl _) fun _ isLate => isLate.1 isOwn
  refine clearOther next below mid (fun point offset isOther isBelow => ?_)
    fun deeper later further gainMore knownMore => follows deeper later (Nat.le_trans order further)
      (fun isGain => ?_) fun point offset isDeeper => ?_
  · rcases known point offset isBelow with isSeen | ⟨isOwn, _⟩
    · refine (fresh point offset (.inr isOther) isSeen).mono order fun still isLate => ?_
      exact (isLate.2 isOther).resolve_right fun isGain => absurd (gain isGain) (by omega)
    · exact absurd isOther (apart point isOwn)
  · rcases isGain with isGain | isGain
    · exact Nat.lt_of_lt_of_le (gain isGain) further
    · exact Nat.lt_of_le_of_lt order (gainMore isGain)
  · rcases knownMore point offset isDeeper with isBelow | ⟨isOther, passed⟩
    · refine (known point offset isBelow).imp_right fun ⟨isOwn, passed⟩ => ⟨.inl isOwn, ?_⟩
      refine passed.mono further fun still isLate isGain => ⟨fun _ => ?_, fun isOther => ?_⟩
      · exact isLate (isGain.resolve_right fun isMore => absurd (gainMore isMore) (by omega))
      · exact absurd isOther (apart point isOwn)
    · refine .inr ⟨.inr isOther, passed.mono (Nat.le_refl _) fun _ isLate isGain => ⟨fun isOwn => ?_,
        fun _ => isGain.symm.imp_left isLate⟩⟩
      exact absurd isOther (apart point isOwn)

theorem either (eager : Bool) (onward : Onward own gains build)
    (other : Onward others gainsMore second) (apart : ∀ point, own point → ¬others point) :
    Onward (fun point => own point ∨ others point) (gains ∧ gainsMore) fun next reach =>
      .either eager (fun _ => build next reach) fun _ => second next reach := by
  obtain ⟨late, clear⟩ := onward
  obtain ⟨lateOther, clearOther⟩ := other
  refine ⟨fun point => (own point → late point) ∧ (others point → lateOther point), ?_⟩
  intro next seen reach fresh follows
  refine Ways.clear_either (clear next seen reach (fun point offset isOwn isSeen => ?_)
    fun below later order gain known => follows below later order (fun isGain => gain isGain.1)
      fun point offset isBelow => ?_) (clearOther next seen reach (fun point offset isOther isSeen => ?_)
    fun below later order gain known => follows below later order (fun isGain => gain isGain.2)
      fun point offset isBelow => ?_)
  · exact (fresh point offset (.inl isOwn) isSeen).mono (Nat.le_refl _) fun _ isLate => isLate.1 isOwn
  · refine (known point offset isBelow).imp_right fun ⟨isOwn, passed⟩ => ⟨.inl isOwn, ?_⟩
    exact passed.mono (Nat.le_refl _) fun _ isLate isGain =>
      ⟨fun _ => isLate isGain.1, fun isOther => absurd isOther (apart point isOwn)⟩
  · exact (fresh point offset (.inr isOther) isSeen).mono (Nat.le_refl _)
      fun _ isLate => isLate.2 isOther
  · refine (known point offset isBelow).imp_right fun ⟨isOther, passed⟩ => ⟨.inr isOther, ?_⟩
    exact passed.mono (Nat.le_refl _) fun _ isLate isGain =>
      ⟨fun isOwn => absurd isOther (apart point isOwn), fun _ => isLate isGain.2⟩

theorem meet (point : Nat) : Onward (· = point) False (Trial.meet (α := α) point) := by
  refine ⟨fun _ => False, fun next seen reach fresh follows => ⟨fun isSeen => ?_, ?_⟩⟩
  · rcases fresh point _ rfl isSeen with before | ⟨_, wrong⟩
    · exact Nat.lt_irrefl _ before
    · exact wrong
  · refine follows _ reach (Nat.le_refl _) nofun ?_
    rintro other offset (⟨rfl, rfl⟩ | isSeen)
    · exact .inr ⟨rfl, .inr ⟨rfl, nofun⟩⟩
    · exact .inl isSeen

theorem step (step? : Reach → Option Reach)
    (order : ∀ {reach later : Reach}, step? reach = some later →
      reach.place.offset ≤ later.place.offset ∧ (gains → reach.place.offset < later.place.offset))
    (builds : ∀ next reach, build next reach = ((step? reach).map next).getD .fail) :
    Onward (fun _ => False) gains build := by
  refine ⟨fun _ => False, fun next seen reach _ follows => ?_⟩
  rw [builds]
  match found : step? reach with
  | none => trivial
  | some later => exact follows seen later (order found).1 (order found).2 fun _ _ known => .inl known

/-- A loop: its turns are built from what follows the loop, which they may come to at once unless the
loop gains, and from its next turn, which they come to only behind a further byte. -/
def Turns (own : Nat → Prop) (gains : Prop) (turn : Trial α → Trial α → Trial α) : Prop :=
  ∃ late : Nat → Prop, ∀ (next again : Trial α) (seen : Nat → Nat → Prop) (reach : Reach),
    (∀ point offset, own point → seen point offset → Passed (late point) reach offset) →
    (∀ (below : Nat → Nat → Prop) (later : Reach), reach.place.offset ≤ later.place.offset →
      (gains → reach.place.offset < later.place.offset) →
      (∀ point offset, below point offset →
        seen point offset ∨ (own point ∧ Passed (gains → late point) later offset)) →
      (next later).Clear below) →
    (∀ (below : Nat → Nat → Prop) (later : Reach), reach.place.offset < later.place.offset →
      (∀ point offset, below point offset →
        seen point offset ∨ (own point ∧ Passed (late point) later offset)) →
      (again later).Clear below) →
    (turn next again reach).Clear seen

/-- What has been seen before a turn: the loop itself only at places that have been left since. -/
def Entered (point : Nat) (own late : Nat → Prop) (seen below : Nat → Nat → Prop) (here : Reach) :
    Prop :=
  ∀ other offset, below other offset → seen other offset ∨
    (other = point ∧ offset < here.place.offset) ∨ (own other ∧ Passed (late other) here offset)

theorem loop {turn : Trial α → Trial α → Trial α} (turns : Turns own gains turn) {point : Nat}
    (apart : ¬own point) :
    Onward (fun other => other = point ∨ own other) gains fun next reach =>
      Trial.loop point (turn next) reach.place.rest reach := by
  obtain ⟨late, clear⟩ := turns
  refine ⟨fun other => own other ∧ late other, fun next seen reach fresh follows => ?_⟩
  -- The loop's own point is not met again at a place that has not been left.
  have unmet : ∀ (below : Nat → Nat → Prop) (here : Reach),
      reach.place.offset ≤ here.place.offset → Entered point own late seen below here →
      ¬below point here.place.offset := by
    intro below here order entered isBelow
    rcases entered point _ isBelow with isSeen | ⟨_, before⟩ | ⟨isOwn, _⟩
    · rcases fresh point _ (.inl rfl) isSeen with before | ⟨_, isOwn, _⟩
      · omega
      · exact apart isOwn
    · omega
    · exact apart isOwn
  have turned : ∀ (following : Trial α) (below : Nat → Nat → Prop) (here : Reach),
      reach.place.offset ≤ here.place.offset → Entered point own late seen below here →
      (∀ (deeper : Nat → Nat → Prop) (further : Reach), here.place.offset < further.place.offset →
        Entered point own late seen deeper further → (following further).Clear deeper) →
      (Trial.meet point (turn next following) here).Clear below := by
    intro following below here order entered again
    refine ⟨unmet below here order entered, clear next following _ here ?_ ?_ ?_⟩
    · rintro other offset isOwn (⟨rfl, rfl⟩ | isBelow)
      · exact absurd isOwn apart
      · rcases entered other offset isBelow with isSeen | ⟨rfl, _⟩ | ⟨_, passed⟩
        · exact (fresh other offset (.inr isOwn) isSeen).mono order fun _ isLate => isLate.2
        · exact absurd isOwn apart
        · exact passed
    · intro deeper later further gain known
      refine follows deeper later (Nat.le_trans order further)
        (fun isGain => Nat.lt_of_le_of_lt order (gain isGain)) fun other offset isDeeper => ?_
      rcases known other offset isDeeper with (⟨rfl, rfl⟩ | isBelow) | ⟨isOwn, passed⟩
      · refine .inr ⟨.inl rfl, ?_⟩
        rcases Nat.lt_or_eq_of_le further with ahead | same
        · exact .inl ahead
        · exact .inr ⟨same, fun isGain => absurd (gain isGain) (by omega)⟩
      · rcases entered other offset isBelow with isSeen | ⟨isPoint, before⟩ | ⟨isOwn, passed⟩
        · exact .inl isSeen
        · exact .inr ⟨.inl isPoint, .inl (by omega)⟩
        · exact .inr ⟨.inr isOwn, passed.mono further fun _ isLate _ => ⟨isOwn, isLate⟩⟩
      · exact .inr ⟨.inr isOwn, passed.mono (Nat.le_refl _) fun _ isLate isGain =>
          ⟨isOwn, isLate isGain⟩⟩
    · intro deeper later further known
      refine again deeper later further fun other offset isDeeper => ?_
      rcases known other offset isDeeper with (⟨rfl, rfl⟩ | isBelow) | own
      · exact .inr (.inl ⟨rfl, further⟩)
      · rcases entered other offset isBelow with isSeen | ⟨isPoint, before⟩ | ⟨isOwn, passed⟩
        · exact .inl isSeen
        · exact .inr (.inl ⟨isPoint, by omega⟩)
        · exact .inr (.inr ⟨isOwn, passed.mono (Nat.le_of_lt further) fun _ isLate => isLate⟩)
      · exact .inr (.inr own)
  -- So the loop is clear, by induction on what is left of the text.
  have enters : ∀ (rest : List Char) (below : Nat → Nat → Prop) (here : Reach),
      reach.place.offset ≤ here.place.offset → Entered point own late seen below here →
      (Trial.loop point (turn next) rest here).Clear below := by
    intro rest
    induction rest with
    | nil =>
      intro below here order entered
      exact turned _ below here order entered fun deeper further onward enteredDeeper =>
        ⟨unmet deeper further (by omega) enteredDeeper, trivial⟩
    | cons c rest ih =>
      intro below here order entered
      exact turned _ below here order entered fun deeper further onward enteredDeeper =>
        ih deeper further (by omega) enteredDeeper
  exact enters reach.place.rest seen reach (Nat.le_refl _) fun _ _ isSeen => .inl isSeen

theorem any {body : Trial α → Trial α} (onward : Onward own True body) (eager : Bool) {point : Nat}
    (apart : ¬own point) :
    Onward (fun other => other = point ∨ own other) False (Trial.any body eager point) := by
  obtain ⟨late, clear⟩ := onward
  refine loop ⟨late, fun next again seen reach fresh follows turns => ?_⟩ apart
  refine Ways.clear_either (clear again seen reach fresh ?_)
    (follows seen reach (Nat.le_refl _) nofun fun _ _ => .inl)
  intro below later order gain known
  refine turns below later (gain trivial) fun other offset isBelow => ?_
  exact (known other offset isBelow).imp_right fun ⟨isOwn, passed⟩ =>
    ⟨isOwn, passed.mono (Nat.le_refl _) fun _ isLate => isLate trivial⟩

theorem many {body : Trial α → Trial α} (onward : Onward own True body) (eager : Bool)
    {point : Nat} (apart : ¬own point) :
    Onward (fun other => other = point ∨ own other) True (Trial.many body eager point) := by
  obtain ⟨late, clear⟩ := onward
  refine loop ⟨late, fun next again seen reach fresh follows turns => ?_⟩ apart
  refine clear _ seen reach fresh fun below later order gain known => ?_
  refine Ways.clear_either (turns below later (gain trivial) fun other offset isBelow => ?_)
    (follows below later order gain known)
  exact (known other offset isBelow).imp_right fun ⟨isOwn, passed⟩ =>
    ⟨isOwn, passed.mono (Nat.le_refl _) fun _ isLate => isLate trivial⟩

open Regular (From)

theorem copies {body : Nat → Trial α → Trial α} {width : Nat}
    (onward : ∀ base, Onward (From base width) gains (body base)) (base count : Nat) :
    Onward (From base (count * width)) (0 < count ∧ gains) (Trial.copies body width base count) := by
  induction count generalizing base with
  | zero => exact id.mono nofun fun ⟨wrong, _⟩ => Nat.lt_irrefl _ wrong
  | succ count ih =>
    refine ((onward base).comp (ih (base + width)) ?_).mono ?_ fun isGain => .inl isGain.2
    all_goals
      intro point
      simp only [From, Nat.succ_mul]
      omega

theorem atMost {body : Nat → Trial α → Trial α} {width : Nat}
    (onward : ∀ base, Onward (From base width) gains (body base)) (eager : Bool) (base count : Nat) :
    Onward (From base (count * width)) False (Trial.atMost body eager width base count) := by
  induction count generalizing base with
  | zero => exact id.mono nofun False.elim
  | succ count ih =>
    have further := (onward base).comp (ih (base + width))
      (by intro point; simp only [From]; omega)
    refine (further.either eager id (by intro point _; exact fun wrong => wrong)).mono ?_ False.elim
    intro point
    simp only [From, Nat.succ_mul, or_false]
    omega

end Onward

end Trial

namespace Pattern

open Trial Trial.Regular

variable {α : Type}

/-- No round of an unbounded repetition takes nothing. -/
def advances : Pattern → Bool
  | .empty | .literal _ | .set _ | .assert _ => true
  | .group _ body => body.advances
  | .seq first second | .alt first second => first.advances && second.advances
  | .rounds _ most _ body => body.advances && (most.isSome || body.isSolid)

theorem isSolid_literal {chars : List Char} (solid : (literal chars).isSolid = true) :
    chars ≠ [] := by
  rintro rfl
  simp [isSolid, minBytes?] at solid

theorem isSolid_seq {first second : Pattern} (solid : (seq first second).isSolid = true) :
    first.isSolid = true ∨ second.isSolid = true := by
  simp only [isSolid, minBytes?] at *
  cases leastFirst : first.minBytes? <;> cases leastSecond : second.minBytes? <;> grind

theorem isSolid_alt {first second : Pattern} (solid : (alt first second).isSolid = true) :
    first.isSolid = true ∧ second.isSolid = true := by
  simp only [isSolid, minBytes?] at *
  cases leastFirst : first.minBytes? <;> cases leastSecond : second.minBytes? <;> grind

theorem isSolid_rounds {least : Nat} {most : Option Nat} {eager : Bool} {body : Pattern}
    (solid : (rounds least most eager body).isSolid = true) : 0 < least ∧ body.isSolid = true := by
  simp only [isSolid, minBytes?] at *
  cases leastBody : body.minBytes? with
  | none => simp [leastBody] at solid
  | some value =>
    have positive : 0 < least * value := by simpa [leastBody] using solid
    exact ⟨Nat.pos_of_mul_pos_right positive, by simpa using Nat.pos_of_mul_pos_left positive⟩

theorem behind?_order {accepts : Char → Bool} {reach later : Reach}
    (found : behind? accepts reach = some later) : reach.place.offset < later.place.offset := by
  obtain ⟨c, rest, _, _, rfl⟩ := exists_of_behind? found
  exact Nat.lt_add_of_pos_right (Nat.pos_of_ne_zero (utf8Size_ne_zero c))

theorem onward_take (chars : List Char) :
    Onward (α := α) (fun _ => False) (chars ≠ []) (take chars) := by
  induction chars with
  | nil => exact Onward.id.mono nofun fun wrong => wrong rfl
  | cons c chars ih =>
    have first : Onward (α := α) (fun _ => False) True fun next reach =>
        ((behind? (· = c) reach).map next).getD .fail :=
      Onward.step (behind? (· = c)) (fun found => ⟨Nat.le_of_lt (behind?_order found),
        fun _ => behind?_order found⟩) fun _ _ => rfl
    have builds : take (α := α) (c :: chars) = fun next reach =>
        ((behind? (· = c) reach).map (take chars next)).getD .fail := by
      funext next reach
      exact take_cons c chars next reach
    rw [builds]
    exact (first.comp ih nofun).mono (fun _ known => known.elim nofun nofun) fun _ => .inl trivial

section

variable {body : Nat → Trial α → Trial α} {width base : Nat} {gains : Prop}

theorem onward_bounded (onward : ∀ base, Onward (From base width) gains (body base))
    (least most : Nat) (eager : Bool) :
    Onward (From base (max least most * width + 2)) (0 < least ∧ gains) fun next =>
      if most = least then copies body width (base + 2) least next
      else
        copies body width (base + 2) least
          (atMost body eager width (base + 2 + least * width) (most - least)
            (Trial.meet base next)) := by
  have fits : least * width + (most - least) * width ≤ max least most * width := by
    rw [← Nat.add_mul]
    exact Nat.mul_le_mul_right width (by omega)
  by_cases same : most = least
  · simp only [same, if_true]
    refine (Onward.copies onward (base + 2) least).mono ?_ fun isGain => isGain
    intro point
    simp only [From, Nat.max_self]
    omega
  · simp only [same, if_false]
    have further := (Onward.atMost onward eager (base + 2 + least * width) (most - least)).comp
      (Onward.meet base) (by intro point; simp only [From]; omega)
    refine ((Onward.copies onward (base + 2) least).comp further ?_).mono ?_ fun isGain => .inl isGain
    all_goals
      intro point
      simp only [From]
      omega

theorem onward_unbounded (onward : ∀ base, Onward (From base width) True (body base))
    (least : Nat) (eager : Bool) :
    Onward (From base (max least 1 * width + 2)) (0 < least) fun next =>
      if least = 0 then any (body (base + 2)) eager base next
      else
        copies body width (base + 2) (least - 1)
          (many (body (base + 2 + (least - 1) * width)) eager base next) := by
  by_cases zero : least = 0
  · subst zero
    have one : max 0 1 * width = width := Nat.one_mul width
    simp only [if_true]
    have apart : ¬From (base + 2) width base := by simp only [From]; omega
    refine (Onward.any (onward (base + 2)) eager apart).mono ?_ (Nat.lt_irrefl 0)
    intro point
    simp only [From]
    omega
  · simp only [zero, if_false]
    -- Of the required rounds all but the last are written out, and the last one loops.
    have fits : max least 1 * width = (least - 1) * width + width := by
      rw [← Nat.succ_mul]
      congr 1
      omega
    refine ((Onward.copies onward (base + 2) (least - 1)).comp
      (Onward.many (onward _) eager ?_) ?_).mono ?_ fun _ => .inr trivial
    · simp only [From]
      omega
    all_goals
      intro point
      simp only [From]
      omega

end

theorem onward_run (pattern : Pattern) (advances : pattern.advances = true) (base : Nat) :
    Onward (From base pattern.points) (pattern.isSolid = true) (pattern.run (α := α) base) := by
  induction pattern generalizing base with
  | empty => exact Onward.id.mono nofun fun solid => by simp [isSolid, minBytes?] at solid
  | literal chars => exact (onward_take chars).mono nofun isSolid_literal
  | set chars =>
    have taken : Onward (α := α) (fun _ => False) True (run (.set chars) base) :=
      Onward.step (behind? chars.contains) (fun found =>
        ⟨Nat.le_of_lt (behind?_order found), fun _ => behind?_order found⟩)
        fun next reach => run_set chars base next reach
    exact taken.mono nofun fun _ => trivial
  | assert condition =>
    have tested : Onward (α := α) (fun _ => False) False (run (.assert condition) base) := by
      refine Onward.step (fun reach => if condition.holds reach.place then some reach else none)
        (fun found => ?_) fun next reach => ?_
      · split at found
        · cases found
          exact ⟨Nat.le_refl _, False.elim⟩
        · cases found
      · unfold run
        split <;> rfl
    exact tested.mono nofun fun solid => by simp [isSolid, minBytes?] at solid
  | group index body ih =>
    have closing : Onward (α := α) (fun _ => False) False fun next reach =>
        next (if index = 1 then { reach with context := some reach.place } else reach) := by
      refine Onward.step (fun reach =>
        some (if index = 1 then { reach with context := some reach.place } else reach))
        (fun found => ?_) fun _ _ => rfl
      cases found
      split <;> exact ⟨Nat.le_refl _, False.elim⟩
    exact ((ih advances base).comp closing (by intro point _; exact fun wrong => wrong)).mono
      (by intro point; exact fun known => known.elim (fun own => own) False.elim) .inl
  | seq first second ihFirst ihSecond =>
    simp only [Pattern.advances, Bool.and_eq_true] at advances
    refine ((ihFirst advances.1 base).comp (ihSecond advances.2 (base + first.points)) ?_).mono ?_
      isSolid_seq
    all_goals
      intro point
      simp only [From, points]
      omega
  | alt first second ihFirst ihSecond =>
    simp only [Pattern.advances, Bool.and_eq_true] at advances
    have joined := (ihFirst advances.1 (base + 1)).either true
      (ihSecond advances.2 (base + 1 + first.points)) (by intro point; simp only [From]; omega)
    refine (joined.comp (Onward.meet base) ?_).mono ?_ fun solid => .inl (isSolid_alt solid)
    all_goals
      intro point
      simp only [From, points]
      omega
  | rounds least most eager body ih =>
    simp only [Pattern.advances, Bool.and_eq_true, Bool.or_eq_true] at advances
    obtain ⟨inner, ends⟩ := advances
    cases most with
    | some most =>
      exact (onward_bounded (ih inner) least most eager).mono (fun _ own => own) isSolid_rounds
    | none =>
      have solid : body.isSolid = true := ends.resolve_left (by simp)
      have unbounded : Onward (From base (max least 1 * body.points + 2)) (0 < least)
          ((rounds least none eager body).run (α := α) base) := by
        simpa only [run, solid, if_true] using onward_unbounded
          (fun base => (ih inner base).mono (fun _ own => own) fun _ => solid) least eager
      exact unbounded.mono (fun _ own => own) fun solid => (isSolid_rounds solid).1

theorem clear_run_answer {pattern : Pattern} (advances : pattern.advances = true) (reach : Reach) :
    (pattern.run 0 .answer reach).Clear fun _ _ => False := by
  obtain ⟨late, clear⟩ := pattern.onward_run (α := Reach) advances 0
  exact clear .answer _ _ (fun _ _ _ => False.elim) fun _ _ _ _ _ => trivial

end Pattern

end Highlighter
