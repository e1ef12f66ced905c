import Highlighter.Proofs.Pattern.Taken

/-!
Matching in a text that is cut. What a pattern comes to in the part between two places is what it comes to
in the whole text, in the same order, less what lies behind the second place: so a match that ends there
is still the preferred one (`Pattern.matchAt_cut`). The conditions of the pattern must hold in the part
where they hold in the whole.
-/

set_option autoImplicit false

namespace Highlighter

namespace Place

/-- What `place` becomes when the text is cut to the part from `start` to `stop`. -/
structure Cut (start stop place inner : Place) : Prop where
  read : ∃ taken, start.Takes taken place ∧ inner.offset = byteLength taken ∧
    inner.before = taken.getLast?
  rest : place.Takes inner.rest stop

variable {start stop place inner : Place} {token : List Char}

theorem cut_first (takes : start.Takes token stop) : Cut start stop start (.first token) where
  read := ⟨[], .refl start, rfl, rfl⟩
  rest := takes

theorem Cut.inside (cut : Cut start stop place inner) (takes : start.Takes token stop) :
    inner.In token := by
  obtain ⟨⟨taken, toPlace, offset, before⟩, rest⟩ := cut
  refine ⟨taken, ?_, offset, before⟩
  exact List.append_cancel_right (takes.split.symm.trans (toPlace.trans rest).split)

theorem Cut.place_in {text : List Char} (cut : Cut start stop place inner) (inside : start.In text) :
    place.In text := by
  obtain ⟨⟨taken, toPlace, _⟩, _⟩ := cut
  exact toPlace.inside inside

theorem Cut.past {c : Char} {more : List Char} (cut : Cut start stop place inner)
    (follows : inner.rest = c :: more) : ∃ others, place.rest = c :: others ∧
      Cut start stop (place.past c others) (inner.past c more) := by
  obtain ⟨⟨taken, toPlace, offset, before⟩, rest⟩ := cut
  have split : place.rest = c :: (more ++ stop.rest) := by
    rw [rest.split, follows, List.cons_append]
  refine ⟨more ++ stop.rest, split, ⟨taken ++ [c], toPlace.trans (takes_past split), ?_, ?_⟩, ?_⟩
  · simp [Place.past, offset]
  · simp [Place.past]
  · refine ⟨rfl, ?_, ?_⟩
    · rw [rest.offset, follows, byteLength_cons]
      exact (Nat.add_assoc ..).symm
    · rw [rest.before, follows, List.getLast?_cons]
      simp only [Place.past]
      cases more.getLast? <;> rfl

theorem Cut.offset_eq_of_end (cut : Cut start stop place inner) (ends : inner.rest = []) :
    place.offset = stop.offset := by
  rw [cut.rest.offset, ends, byteLength_nil, Nat.add_zero]

/-- Every place of the part is what some place of the whole text becomes. -/
theorem exists_cut (takes : start.Takes token stop) (inside : inner.In token) :
    ∃ place, Cut start stop place inner := by
  obtain ⟨taken, split, offset, before⟩ := inside
  refine ⟨⟨start.offset + byteLength taken, taken.getLast?.or start.before,
    inner.rest ++ stop.rest⟩, ⟨taken, ⟨?_, rfl, rfl⟩, offset, before⟩, rfl, ?_, ?_⟩
  · rw [takes.split, split, List.append_assoc]
  · rw [takes.offset, split, byteLength_append, Nat.add_assoc]
  · rw [takes.before, split, List.getLast?_append, Option.or_assoc]

theorem exists_cut_of_between {text : List Char} (inside : start.In text) (placeInside : place.In text)
    (stopInside : stop.In text) (order : start.offset ≤ place.offset)
    (before : place.offset ≤ stop.offset) : ∃ inner, Cut start stop place inner := by
  obtain ⟨taken, toPlace⟩ := inside.takes placeInside order
  obtain ⟨more, toStop⟩ := placeInside.takes stopInside before
  exact ⟨⟨byteLength taken, taken.getLast?, more⟩, ⟨taken, toPlace, rfl, rfl⟩, toStop⟩

theorem Cut.offset_eq (cut : Cut start stop place inner) :
    place.offset = start.offset + inner.offset := by
  obtain ⟨⟨taken, toPlace, offset, _⟩, _⟩ := cut
  rw [toPlace.offset, offset]

theorem Cut.rest_of_stop (cut : Cut start stop stop inner) : inner.rest = [] := by
  have split := cut.rest.split
  exact List.append_left_eq_self.1 split.symm

theorem Cut.eq_last (cut : Cut start stop stop inner) (takes : start.Takes token stop) :
    inner = (Place.first token).last := by
  rw [← last_of_end cut.rest_of_stop]
  exact (cut.inside takes).last_eq (first_in token)

end Place

/-- A list of reaches in the whole text, and the list of those that are left in the part. -/
inductive Trimmed (start stop : Place) : List Reach → List Reach → Prop where
  | nil : Trimmed start stop [] []
  | keep {later inner : Reach} {reaches inners : List Reach} :
    Place.Cut start stop later.place inner.place → Trimmed start stop reaches inners →
      Trimmed start stop (later :: reaches) (inner :: inners)
  | drop {later : Reach} {reaches inners : List Reach} : stop.offset < later.place.offset →
      Trimmed start stop reaches inners → Trimmed start stop (later :: reaches) inners

namespace Trimmed

variable {start stop : Place} {reaches inners others otherInners : List Reach}

theorem singleton {later inner : Reach} (cut : Place.Cut start stop later.place inner.place) :
    Trimmed start stop [later] [inner] := .keep cut .nil

theorem of_behind (behind : ∀ later ∈ reaches, stop.offset < later.place.offset) :
    Trimmed start stop reaches [] := by
  induction reaches with
  | nil => exact .nil
  | cons later reaches ih =>
    rw [List.forall_mem_cons] at behind
    exact .drop behind.1 (ih behind.2)

theorem append (first : Trimmed start stop reaches inners)
    (second : Trimmed start stop others otherInners) :
    Trimmed start stop (reaches ++ others) (inners ++ otherInners) := by
  induction first with
  | nil => exact second
  | keep cut _ ih => exact .keep cut ih
  | drop behind _ ih => exact .drop behind ih

theorem prefer (eager : Bool) (goOn : Trimmed start stop reaches inners)
    (leave : Trimmed start stop others otherInners) :
    Trimmed start stop (Outcomes.prefer eager reaches others)
      (Outcomes.prefer eager inners otherInners) := by
  cases eager with
  | true => exact goOn.append leave
  | false => exact leave.append goOn

theorem flatMap {next nextInner : Reach → List Reach} (trimmed : Trimmed start stop reaches inners)
    (onward : ∀ later further, further ∈ next later → later.place.offset ≤ further.place.offset)
    (trims : ∀ later ∈ reaches, ∀ inner ∈ inners, Place.Cut start stop later.place inner.place →
      Trimmed start stop (next later) (nextInner inner)) :
    Trimmed start stop (reaches.flatMap next) (inners.flatMap nextInner) := by
  induction trimmed with
  | nil => exact .nil
  | @keep later inner reaches inners cut trimmed ih =>
    rw [List.flatMap_cons, List.flatMap_cons]
    apply (trims later List.mem_cons_self inner List.mem_cons_self cut).append
    apply ih
    intro other known otherInner innerKnown
    exact trims other (List.mem_cons_of_mem later known) otherInner
      (List.mem_cons_of_mem inner innerKnown)
  | @drop later reaches inners behind trimmed ih =>
    rw [List.flatMap_cons]
    have nothing : Trimmed start stop (next later) [] := of_behind fun further known =>
      Nat.lt_of_lt_of_le behind (onward later further known)
    apply nothing.append
    apply ih
    intro other known
    exact trims other (List.mem_cons_of_mem later known)

theorem map {close closeInner : Reach → Reach} (trimmed : Trimmed start stop reaches inners)
    (same : ∀ reach, (close reach).place = reach.place)
    (sameInner : ∀ reach, (closeInner reach).place = reach.place) :
    Trimmed start stop (reaches.map close) (inners.map closeInner) := by
  induction trimmed with
  | nil => exact .nil
  | keep cut _ ih =>
    apply keep _ ih
    rwa [same, sameInner]
  | drop behind _ ih =>
    apply drop _ ih
    rwa [same]

theorem head? {later : Reach} (trimmed : Trimmed start stop reaches inners)
    (isFirst : reaches.head? = some later) (inside : later.place.offset ≤ stop.offset) :
    ∃ inner, inners.head? = some inner ∧ Place.Cut start stop later.place inner.place := by
  cases trimmed with
  | nil => cases isFirst
  | keep cut _ =>
    cases isFirst
    exact ⟨_, rfl, cut⟩
  | drop behind _ =>
    cases isFirst
    exact absurd inside (Nat.not_le_of_lt behind)

end Trimmed

namespace Pattern

open Outcomes

def anchors : Pattern → List Anchor
  | .empty | .literal _ | .set _ => []
  | .assert condition => [condition]
  | .group _ body | .rounds _ _ _ body => body.anchors
  | .seq first second | .alt first second => first.anchors ++ second.anchors

/-- The condition holds in the part where it holds in the whole text. -/
def Agrees (start stop : Place) (condition : Anchor) : Prop :=
  ∀ place inner, Place.Cut start stop place inner → condition.holds place = condition.holds inner

/-- A step goes no way back. -/
def NoWayBack (body : Reach → List Reach) : Prop :=
  ∀ reach later, later ∈ body reach → reach.place.offset ≤ later.place.offset

def Shortens (body : Reach → List Reach) : Prop :=
  ∀ reach later, later ∈ body reach → later.place.rest.length < reach.place.rest.length

variable {start stop : Place} {body : Reach → List Reach} {eager : Bool} {reach inner : Reach}

theorem carries_order :
    Carries (fun _ => True) (fun _ => True) fun reach later =>
      reach.place.offset ≤ later.place.offset where
  refl _ := Nat.le_refl _
  trans := Nat.le_trans
  past follows _ := (Place.takes_past follows).le
  close _ reach := Nat.le_of_eq (congrArg Place.offset (close_place _ reach).symm)

theorem noWayBack_outcomes (pattern : Pattern) : NoWayBack pattern.outcomes :=
  fun _ _ known => outcomes_carried carries_order pattern.within_any known

theorem trimmed_behind? (cut : Place.Cut start stop reach.place inner.place) (accepts : Char → Bool) :
    Trimmed start stop (behind? accepts reach).toList (behind? accepts inner).toList := by
  match follows : inner.place.rest with
  | [] =>
    have nothing : behind? accepts inner = none := by simp [behind?, follows]
    rw [nothing]
    apply Trimmed.of_behind
    intro later known
    rw [← cut.offset_eq_of_end follows]
    exact behind?_order (Option.mem_toList.1 known)
  | c :: more =>
    obtain ⟨others, same, further⟩ := cut.past follows
    unfold behind?
    rw [follows, same]
    by_cases accepted : accepts c = true
    · simp only [accepted, if_true]
      exact .singleton further
    · simp only [accepted]
      exact .nil

theorem toList_through? (c : Char) (chars : List Char) (reach : Reach) :
    (through? (c :: chars) reach).toList =
      (behind? (· = c) reach).toList.flatMap fun later => (through? chars later).toList := by
  rw [through?]
  cases behind? (· = c) reach with
  | none => rfl
  | some later => simp

theorem trimmed_through? (cut : Place.Cut start stop reach.place inner.place) (chars : List Char) :
    Trimmed start stop (through? chars reach).toList (through? chars inner).toList := by
  induction chars generalizing reach inner with
  | nil => exact .singleton cut
  | cons c chars ih =>
    rw [toList_through?, toList_through?]
    apply (trimmed_behind? cut _).flatMap
    · intro later further known
      exact through?_carried carries_order (fun _ _ => trivial) (Option.mem_toList.1 known)
    · intro later _ other _ further
      exact ih further

/-! ### Repetitions -/

theorem NoWayBack.exactly (order : NoWayBack body) (count : Nat) : NoWayBack (exactly body count) :=
  fun _ _ known => exactly_carried carries_order (order _ _) known

theorem NoWayBack.upTo (order : NoWayBack body) (count : Nat) :
    NoWayBack (upTo body eager count) :=
  fun _ _ known => upTo_carried carries_order (order _ _) known

theorem NoWayBack.fewer (order : NoWayBack body) (count : Nat) :
    NoWayBack (fewer body eager count) :=
  fun _ _ known => fewer_carried carries_order (order _ _) known

theorem NoWayBack.oneOrMore (order : NoWayBack body) : NoWayBack (oneOrMore body eager) :=
  fun _ _ known => oneOrMore_carried carries_order (order _ _) known

/-- What the step comes to in the part is what it comes to in the whole. -/
def Trims (start stop : Place) (body : Reach → List Reach) : Prop :=
  ∀ reach inner, Place.Cut start stop reach.place inner.place →
    Trimmed start stop (body reach) (body inner)

theorem Trims.exactly (trims : Trims start stop body) (order : NoWayBack body) (count : Nat) :
    Trims start stop (exactly body count) := by
  induction count with
  | zero => exact fun _ _ cut => .singleton cut
  | succ count ih =>
    intro reach inner cut
    unfold Outcomes.exactly
    apply (trims reach inner cut).flatMap (order.exactly count)
    intro later _ other _ further
    exact ih later other further

theorem Trims.upTo (trims : Trims start stop body) (order : NoWayBack body) (count : Nat) :
    Trims start stop (upTo body eager count) := by
  induction count with
  | zero => exact fun _ _ cut => .singleton cut
  | succ count ih =>
    intro reach inner cut
    unfold Outcomes.upTo
    apply Trimmed.prefer eager _ (.singleton cut)
    apply (trims reach inner cut).flatMap (order.upTo count)
    intro later _ other _ further
    exact ih later other further

theorem flatMap_congr {reaches : List Reach} {next other : Reach → List Reach}
    (same : ∀ later ∈ reaches, next later = other later) :
    reaches.flatMap next = reaches.flatMap other := by
  rw [List.flatMap_def, List.flatMap_def, List.map_congr_left same]

/-- More rounds than there are characters left change nothing. -/
theorem fewer_eq (short : Shortens body) {count more : Nat}
    (enough : reach.place.rest.length < count) (enoughMore : reach.place.rest.length < more) :
    fewer body eager count reach = fewer body eager more reach := by
  induction count generalizing reach more with
  | zero => exact absurd enough (Nat.not_lt_zero _)
  | succ count ih =>
    obtain ⟨more, rfl⟩ : ∃ less, more = less + 1 := ⟨more - 1, by omega⟩
    unfold Outcomes.fewer
    congr 1
    apply flatMap_congr
    intro later known
    have shorter := short reach later known
    exact ih (by omega) (by omega)

theorem upTo_of_end (short : Shortens body) (ends : reach.place.rest.length = 0) (count : Nat) :
    upTo body eager count reach = [reach] := by
  cases count with
  | zero => rfl
  | succ count =>
    have nothing : body reach = [] := by
      apply List.eq_nil_iff_forall_not_mem.2
      intro later known
      have shorter := short reach later known
      omega
    rw [Outcomes.upTo, nothing]
    cases eager <;> rfl

theorem upTo_eq (short : Shortens body) {count more : Nat}
    (enough : reach.place.rest.length ≤ count) (enoughMore : reach.place.rest.length ≤ more) :
    upTo body eager count reach = upTo body eager more reach := by
  induction count generalizing reach more with
  | zero =>
    have ends := Nat.le_zero.1 enough
    rw [upTo_of_end short ends, upTo_of_end short ends]
  | succ count ih =>
    cases more with
    | zero =>
      have ends := Nat.le_zero.1 enoughMore
      rw [upTo_of_end short ends, upTo_of_end short ends]
    | succ more =>
      unfold Outcomes.upTo
      congr 1
      apply flatMap_congr
      intro later known
      have shorter := short reach later known
      exact ih (by omega) (by omega)

theorem length_rest_le_of_cut (cut : Place.Cut start stop reach.place inner.place) :
    inner.place.rest.length ≤ reach.place.rest.length := by
  rw [cut.rest.split, List.length_append]
  exact Nat.le_add_right _ _

theorem Trims.fewer (trims : Trims start stop body) (order : NoWayBack body) (short : Shortens body) :
    Trims start stop fun reach => fewer body eager (reach.place.rest.length + 1) reach := by
  have sameCount (count : Nat) : Trims start stop (Outcomes.fewer body eager count) := by
    induction count with
    | zero => exact fun _ _ _ => .nil
    | succ count ih =>
      intro reach inner cut
      unfold Outcomes.fewer
      apply Trimmed.prefer eager _ (.singleton cut)
      apply (trims reach inner cut).flatMap (order.fewer count)
      intro later _ other _ further
      exact ih later other further
  intro reach inner cut
  -- The rounds are counted by the text that is left, which is shorter in the part. Where no round takes
  -- nothing, a larger count comes to the same.
  have shorter := length_rest_le_of_cut cut
  have same : Outcomes.fewer body eager (inner.place.rest.length + 1) inner =
      Outcomes.fewer body eager (reach.place.rest.length + 1) inner :=
    fewer_eq short (by omega) (by omega)
  simp only [same]
  exact sameCount _ reach inner cut

theorem Trims.oneOrMore (trims : Trims start stop body) (order : NoWayBack body)
    (short : Shortens body) : Trims start stop (oneOrMore body eager) := by
  intro reach inner cut
  have shorter := length_rest_le_of_cut cut
  have same : Outcomes.oneOrMore body eager inner =
      (body inner).flatMap (Outcomes.upTo body eager reach.place.rest.length) := by
    apply flatMap_congr
    intro later known
    have less := short inner later known
    exact upTo_eq short (by omega) (by omega)
  rw [same]
  apply (trims reach inner cut).flatMap (order.upTo _)
  intro later _ other _ further
  exact trims.upTo order _ later other further

/-! ### Patterns -/

theorem offset_lt_of_isSolid {pattern : Pattern} {later : Reach} (solid : pattern.isSolid = true)
    (known : later ∈ pattern.outcomes reach) : reach.place.offset < later.place.offset := by
  induction pattern generalizing reach later with
  | empty | assert _ => simp [isSolid, minBytes?] at solid
  | literal chars =>
    cases chars with
    | nil => exact absurd rfl (isSolid_literal solid)
    | cons c chars =>
      obtain ⟨mid, first, rest⟩ := Option.bind_eq_some_iff.1 (Option.mem_toList.1 known)
      have order : mid.place.offset ≤ later.place.offset :=
        through?_carried carries_order (fun _ _ => trivial) rest
      exact Nat.lt_of_lt_of_le (behind?_order first) order
  | set chars => exact behind?_order (Option.mem_toList.1 known)
  | group index body ih =>
    obtain ⟨mid, inner, rfl⟩ := List.mem_map.1 known
    rw [close_place]
    exact ih solid inner
  | seq first second ihFirst ihSecond =>
    -- One of the two takes something, and the other does not go back.
    obtain ⟨mid, inner, rest⟩ := List.mem_flatMap.1 known
    rcases isSolid_seq solid with solidFirst | solidSecond
    · exact Nat.lt_of_lt_of_le (ihFirst solidFirst inner) (second.noWayBack_outcomes mid later rest)
    · exact Nat.lt_of_le_of_lt (first.noWayBack_outcomes reach mid inner) (ihSecond solidSecond rest)
  | alt first second ihFirst ihSecond =>
    obtain ⟨solidFirst, solidSecond⟩ := isSolid_alt solid
    exact (List.mem_append.1 known).elim (ihFirst solidFirst) (ihSecond solidSecond)
  | rounds least most eager body ih =>
    obtain ⟨positive, solidBody⟩ := isSolid_rounds solid
    obtain ⟨least, rfl⟩ : ∃ less, least = less + 1 := ⟨least - 1, by omega⟩
    have order := body.noWayBack_outcomes
    cases most with
    | some most =>
      obtain ⟨mid, first, rest⟩ := List.mem_flatMap.1 known
      obtain ⟨one, inner, others⟩ := List.mem_flatMap.1 first
      calc reach.place.offset < one.place.offset := ih solidBody inner
        _ ≤ mid.place.offset := order.exactly least one mid others
        _ ≤ later.place.offset := order.upTo _ mid later rest
    | none =>
      obtain ⟨mid, first, rest⟩ := List.mem_flatMap.1 known
      obtain ⟨one, inner, others⟩ := List.mem_flatMap.1 rest
      calc reach.place.offset ≤ mid.place.offset := order.exactly least reach mid first
        _ < one.place.offset := ih solidBody inner
        _ ≤ later.place.offset := order.upTo _ one later others

theorem shortens_outcomes {pattern : Pattern} (solid : pattern.isSolid = true) :
    Shortens pattern.outcomes := by
  intro reach later known
  obtain ⟨taken, takes, _⟩ := outcomes_carried (carries_takes fun _ => True) pattern.within_any known
  have further := offset_lt_of_isSolid solid known
  rw [takes.split, List.length_append]
  cases taken with
  | nil => simp [takes.offset] at further
  | cons c taken => simp

/-- What a pattern comes to in the part is what it comes to in the whole text, less what lies behind. -/
theorem trims_outcomes {pattern : Pattern} (advances : pattern.advances = true)
    (agree : ∀ condition ∈ pattern.anchors, Agrees start stop condition) :
    Trims start stop pattern.outcomes := by
  induction pattern with
  | empty => exact fun _ _ cut => .singleton cut
  | literal chars => exact fun _ _ cut => trimmed_through? cut chars
  | set chars => exact fun _ _ cut => trimmed_behind? cut _
  | assert condition =>
    intro reach inner cut
    unfold outcomes
    rw [agree condition List.mem_cons_self reach.place inner.place cut]
    split
    · exact .singleton cut
    · exact .nil
  | group index body ih =>
    intro reach inner cut
    exact (ih advances agree reach inner cut).map (close_place index) (close_place index)
  | seq first second ihFirst ihSecond =>
    simp only [Pattern.advances, Bool.and_eq_true] at advances
    simp only [anchors, List.forall_mem_append] at agree
    intro reach inner cut
    unfold outcomes
    apply (ihFirst advances.1 agree.1 reach inner cut).flatMap second.noWayBack_outcomes
    intro later _ other _ further
    exact ihSecond advances.2 agree.2 later other further
  | alt first second ihFirst ihSecond =>
    simp only [Pattern.advances, Bool.and_eq_true] at advances
    simp only [anchors, List.forall_mem_append] at agree
    intro reach inner cut
    exact (ihFirst advances.1 agree.1 reach inner cut).append
      (ihSecond advances.2 agree.2 reach inner cut)
  | rounds least most eager body ih =>
    simp only [Pattern.advances, Bool.and_eq_true, Bool.or_eq_true] at advances
    have order := body.noWayBack_outcomes
    have trims := ih advances.1 agree
    cases most with
    | some most =>
      intro reach inner cut
      unfold outcomes
      apply (trims.exactly order least reach inner cut).flatMap (order.upTo _)
      intro later _ other _ further
      exact trims.upTo order _ later other further
    | none =>
      have solid : body.isSolid = true := advances.2.resolve_left (by simp)
      intro reach inner cut
      cases least with
      | zero =>
        simp only [outcomes, solid, if_true]
        exact trims.fewer order (shortens_outcomes solid) reach inner cut
      | succ least =>
        unfold outcomes
        apply (trims.exactly order least reach inner cut).flatMap order.oneOrMore
        intro later _ other _ further
        exact trims.oneOrMore order (shortens_outcomes solid) later other further

/-- A condition that comes first may be compared where it stands. -/
theorem trimmed_assert {condition : Anchor} {rest : Pattern} (advances : rest.advances = true)
    (bare : rest.anchors = []) (cut : Place.Cut start stop reach.place inner.place)
    (same : condition.holds reach.place = condition.holds inner.place) :
    Trimmed start stop ((Pattern.seq (.assert condition) rest).outcomes reach)
      ((Pattern.seq (.assert condition) rest).outcomes inner) := by
  have here : Trimmed start stop ((Pattern.assert condition).outcomes reach)
      ((Pattern.assert condition).outcomes inner) := by
    unfold outcomes
    rw [same]
    split
    · exact .singleton cut
    · exact .nil
  apply here.flatMap rest.noWayBack_outcomes
  intro later _ other _ further
  exact trims_outcomes advances (by simp [bare]) later other further

section

variable {pattern : Pattern} {text token : List Char} {place other : Place} {later : Reach}

/-- A match that ends in the part is the preferred one there, too. -/
theorem matchAt_cut (advances : pattern.advances = true) (inside : place.In text)
    (otherInside : other.In token)
    (trimmed : Trimmed start stop (pattern.outcomes { place }) (pattern.outcomes { place := other }))
    (isMatch : pattern.matchAt place = some later) (ends : later.place.offset ≤ stop.offset) :
    ∃ found, pattern.matchAt other = some found ∧ Place.Cut start stop later.place found.place := by
  rw [matchAt_eq_head? advances inside] at isMatch
  rw [matchAt_eq_head? advances otherInside]
  exact trimmed.head? isMatch ends

theorem matchAt_cut_eq_none (advances : pattern.advances = true) (inside : place.In text)
    (otherInside : other.In token)
    (trimmed : Trimmed start stop (pattern.outcomes { place }) (pattern.outcomes { place := other }))
    (nothing : pattern.matchAt place = none) : pattern.matchAt other = none := by
  rw [matchAt_eq_head? advances inside, List.head?_eq_none_iff] at nothing
  rw [matchAt_eq_head? advances otherInside]
  -- Nothing can be left of an empty list.
  generalize pattern.outcomes { place := other } = inners at trimmed ⊢
  rw [nothing] at trimmed
  cases trimmed
  rfl

end

end Pattern

end Highlighter
