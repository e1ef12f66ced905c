import Highlighter.Proofs.Pattern.Taken
import Highlighter.Proofs.Text.Runs

/-!
What can be read off a pattern about the characters at the edges of its matches and inside them: checks
that run on the pattern, and what they say of all its outcomes.
-/

set_option autoImplicit false

namespace Highlighter

namespace CharSet

variable {set marks : CharSet} {c : Char}

/-- One of the ranges has `c`. The order of the ranges does not matter. -/
def Has (set : CharSet) (c : Char) : Prop :=
  ∃ range ∈ set.ranges, range.1 ≤ c.toNat ∧ c.toNat ≤ range.2

instance (set : CharSet) (c : Char) : Decidable (set.Has c) :=
  inferInstanceAs (Decidable (∃ range ∈ set.ranges, _))

@[simp] theorem not_has_nil : ¬(⟨[]⟩ : CharSet).Has c := by
  simp [Has]

@[simp] theorem has_cons {first last : Nat} {ranges : List (Nat × Nat)} :
    (⟨(first, last) :: ranges⟩ : CharSet).Has c ↔
      first ≤ c.toNat ∧ c.toNat ≤ last ∨ (⟨ranges⟩ : CharSet).Has c := by
  simp [Has]

theorem has_of_contains (contains : set.contains c = true) : set.Has c := by
  obtain ⟨ranges⟩ := set
  unfold CharSet.contains at contains
  unfold Has
  induction ranges with
  | nil => cases contains
  | cons range ranges ih =>
    obtain ⟨first, last⟩ := range
    simp only [covers, Bool.and_eq_true, Bool.or_eq_true, decide_eq_true_eq] at contains
    obtain ⟨least, most | later⟩ := contains
    · exact ⟨(first, last), List.mem_cons_self, least, most⟩
    · obtain ⟨other, known, bounds⟩ := ih later
      exact ⟨other, List.mem_cons_of_mem _ known, bounds⟩

/-- With the ranges in order, the members are those of the ranges. -/
theorem contains_iff_has (ordered : set.ranges.Pairwise fun range later => range.1 ≤ later.1) :
    set.contains c = true ↔ set.Has c := by
  refine ⟨has_of_contains, ?_⟩
  obtain ⟨ranges⟩ := set
  unfold Has CharSet.contains
  induction ranges with
  | nil => simp
  | cons range ranges ih =>
    obtain ⟨first, last⟩ := range
    obtain ⟨before, ordered⟩ := List.pairwise_cons.1 ordered
    rintro ⟨other, known, least, most⟩
    simp only [covers, Bool.and_eq_true, Bool.or_eq_true, decide_eq_true_eq]
    rcases List.mem_cons.1 known with rfl | later
    · exact ⟨least, .inl most⟩
    · exact ⟨Nat.le_trans (before other later) least, .inr (ih ordered ⟨other, later, least, most⟩)⟩

/-- The ranges of a set are a way to write a condition on characters. -/
theorem contains_eq {isKind : Char → Bool} (ordered : set.ranges.Pairwise fun range later => range.1 ≤ later.1)
    (same : ∀ c, isKind c = true ↔ set.Has c) : set.contains = isKind :=
  funext fun c => Bool.eq_iff_iff.2 ((contains_iff_has ordered).trans (same c).symm)

theorem contains_letters (letters : List Char) (ordered : letters.Pairwise (·.toNat ≤ ·.toNat)) :
    (⟨letters.map fun c => (c.toNat, c.toNat)⟩ : CharSet).contains = letters.contains := by
  refine contains_eq (List.pairwise_map.2 ordered) fun c => List.contains_iff_mem.trans ⟨fun known => ?_, ?_⟩
  · exact ⟨_, List.mem_map.2 ⟨c, known, rfl⟩, Nat.le_refl _, Nat.le_refl _⟩
  · rintro ⟨_, known, least, most⟩
    obtain ⟨d, known, rfl⟩ := List.mem_map.1 known
    rwa [← Char.toNat_inj.1 (Nat.le_antisymm least most)]

def apart (set marks : CharSet) : Bool :=
  set.ranges.all fun (first, last) => marks.ranges.all fun (least, most) =>
    last < least || most < first

def within (set marks : CharSet) : Bool :=
  set.ranges.all fun (first, last) => marks.ranges.any fun (least, most) =>
    least ≤ first && last ≤ most

theorem not_has_of_has (apart : set.apart marks = true) (has : set.Has c) : ¬marks.Has c := by
  obtain ⟨range, known, first, last⟩ := has
  rintro ⟨other, otherKnown, least, most⟩
  have clear := List.all_eq_true.1 (List.all_eq_true.1 apart range known) other otherKnown
  simp only [Bool.or_eq_true, decide_eq_true_eq] at clear
  omega

theorem not_has_of_apart (apart : set.apart marks = true) (contains : set.contains c = true) :
    ¬marks.Has c := not_has_of_has apart (has_of_contains contains)

theorem has_of_within (within : set.within marks = true) (contains : set.contains c = true) :
    marks.Has c := by
  obtain ⟨range, known, first, last⟩ := has_of_contains contains
  obtain ⟨other, otherKnown, bounds⟩ := List.any_eq_true.1 (List.all_eq_true.1 within range known)
  simp only [Bool.and_eq_true, decide_eq_true_eq] at bounds
  exact ⟨other, otherKnown, Nat.le_trans bounds.1 first, Nat.le_trans last bounds.2⟩

theorem contains_single (c : Char) : (single c).contains c = true := by
  simp [single, range, CharSet.contains, covers]

theorem eq_of_has_single {d : Char} (has : (single d).Has c) : c = d := by
  obtain ⟨range, known, least, most⟩ := has
  cases List.mem_singleton.1 known
  exact Char.toNat_inj.1 (Nat.le_antisymm most least)

end CharSet

namespace Pattern

open Outcomes

variable {marks : CharSet} {pattern : Pattern} {reach later : Reach}

/-- All sets that the pattern takes characters from pass the test. -/
def everySet (test : CharSet → Bool) : Pattern → Bool
  | .empty | .assert _ => true
  | .literal chars => chars.all fun c => test (.single c)
  | .set chars => test chars
  | .group _ body | .rounds _ _ _ body => body.everySet test
  | .seq first second | .alt first second => first.everySet test && second.everySet test

theorem within_of_everySet {test : CharSet → Bool} {allowed : Char → Prop}
    (sound : ∀ {set : CharSet} {c}, test set = true → set.contains c = true → allowed c)
    (passes : pattern.everySet test = true) : pattern.Within allowed fun _ => True := by
  induction pattern with
  | empty | assert _ => trivial
  | literal chars =>
    exact fun c known => sound (List.all_eq_true.1 passes c known) (CharSet.contains_single c)
  | set chars => exact fun c contains => sound passes contains
  | group _ _ ih => exact ⟨trivial, ih passes⟩
  | rounds _ _ _ _ ih => exact ih passes
  | seq _ _ ihFirst ihSecond | alt _ _ ihFirst ihSecond =>
    obtain ⟨first, second⟩ := Bool.and_eq_true_iff.1 passes
    exact ⟨ihFirst first, ihSecond second⟩

/-- No character that the pattern takes is a mark. -/
def avoids (marks : CharSet) (pattern : Pattern) : Bool := pattern.everySet (·.apart marks)

/-- All characters that the pattern takes are marks. -/
def staysIn (marks : CharSet) (pattern : Pattern) : Bool := pattern.everySet (·.within marks)

theorem takes_of_staysIn (stays : pattern.staysIn marks = true) (known : later ∈ pattern.outcomes reach) :
    ∃ taken, reach.place.Takes taken later.place ∧ ∀ c ∈ taken, marks.Has c :=
  outcomes_carried (carries_takes marks.Has) (within_of_everySet CharSet.has_of_within stays) known

theorem takes_of_avoids (avoids : pattern.avoids marks = true) (known : later ∈ pattern.outcomes reach) :
    ∃ taken, reach.place.Takes taken later.place ∧ ∀ c ∈ taken, ¬marks.Has c :=
  outcomes_carried (carries_takes (¬marks.Has ·))
    (within_of_everySet CharSet.not_has_of_apart avoids) known

/-- Each match is a single character or has no marks. -/
def isPlain (marks : CharSet) : Pattern → Bool
  | .alt first second => first.isPlain marks && second.isPlain marks
  | .set _ | .literal [_] => true
  | pattern => pattern.avoids marks

theorem plain_of_avoids (avoids : pattern.avoids marks = true) (known : later ∈ pattern.outcomes reach) :
    ∃ taken, reach.place.Takes taken later.place ∧ (taken.length ≤ 1 ∨ ∀ c ∈ taken, ¬marks.Has c) := by
  obtain ⟨taken, takes, clear⟩ := takes_of_avoids avoids known
  exact ⟨taken, takes, .inr clear⟩

theorem takes_of_behind? {accepts : Char → Bool} (found : behind? accepts reach = some later) :
    ∃ taken, reach.place.Takes taken later.place ∧ (taken.length ≤ 1 ∨ ∀ c ∈ taken, ¬marks.Has c) := by
  obtain ⟨c, rest, follows, _, rfl⟩ := exists_of_behind? found
  exact ⟨[c], Place.takes_past follows, .inl (Nat.le_refl 1)⟩

theorem takes_of_isPlain (plain : pattern.isPlain marks = true) (known : later ∈ pattern.outcomes reach) :
    ∃ taken, reach.place.Takes taken later.place ∧ (taken.length ≤ 1 ∨ ∀ c ∈ taken, ¬marks.Has c) := by
  induction pattern with
  | alt first second ihFirst ihSecond =>
    obtain ⟨plainFirst, plainSecond⟩ := Bool.and_eq_true_iff.1 plain
    exact (List.mem_append.1 known).elim (ihFirst plainFirst) (ihSecond plainSecond)
  | set chars => exact takes_of_behind? (Option.mem_toList.1 known)
  | literal chars =>
    match chars with
    | [c] =>
      obtain ⟨mid, first, rest⟩ := Option.bind_eq_some_iff.1 (Option.mem_toList.1 known)
      cases rest
      exact takes_of_behind? first
    | [] | _ :: _ :: _ => exact plain_of_avoids plain known
  | empty | assert _ | group _ _ _ | seq _ _ _ _ | rounds _ _ _ _ _ => exact plain_of_avoids plain known

/-- Each match begins with a mark. -/
def startsIn (marks : CharSet) : Pattern → Bool
  | .literal (c :: _) => (CharSet.single c).within marks
  | .set chars => chars.within marks
  | .group _ body => body.startsIn marks
  | .seq first _ => first.startsIn marks
  | .alt first second => first.startsIn marks && second.startsIn marks
  | .rounds 1 none _ body => body.startsIn marks
  | _ => false

theorem has_head_of_startsIn (starts : pattern.startsIn marks = true)
    (known : later ∈ pattern.outcomes reach) : ∃ c ∈ reach.place.rest.head?, marks.Has c := by
  induction pattern generalizing later with
  | literal chars =>
    match chars with
    | [] => cases starts
    | c :: chars =>
      obtain ⟨mid, first, _⟩ := Option.bind_eq_some_iff.1 (Option.mem_toList.1 known)
      obtain ⟨d, rest, follows, same, _⟩ := exists_of_behind? first
      refine ⟨d, by rw [follows]; rfl, ?_⟩
      rw [of_decide_eq_true same]
      exact CharSet.has_of_within starts (CharSet.contains_single c)
  | set chars =>
    obtain ⟨c, rest, follows, contains, _⟩ := exists_of_behind? (Option.mem_toList.1 known)
    exact ⟨c, by rw [follows]; rfl, CharSet.has_of_within starts contains⟩
  | group index body ih =>
    obtain ⟨mid, inner, _⟩ := List.mem_map.1 known
    exact ih starts inner
  | seq first second ihFirst _ =>
    obtain ⟨mid, inner, _⟩ := List.mem_flatMap.1 known
    exact ihFirst starts inner
  | alt first second ihFirst ihSecond =>
    obtain ⟨startsFirst, startsSecond⟩ := Bool.and_eq_true_iff.1 starts
    exact (List.mem_append.1 known).elim (ihFirst startsFirst) (ihSecond startsSecond)
  | rounds least most eager body ih =>
    match least, most with
    | 1, none =>
      obtain ⟨_, none, rest⟩ := List.mem_flatMap.1 known
      cases List.mem_singleton.1 none
      obtain ⟨mid, first, _⟩ := List.mem_flatMap.1 rest
      exact ih starts first
    | 0, _ | 1, some _ | _ + 2, _ => cases starts
  | empty | assert _ => cases starts

/-- Each match ends with a mark. -/
def endsIn (marks : CharSet) : Pattern → Bool
  | .literal chars => chars.getLast?.any fun c => (CharSet.single c).within marks
  | .set chars => chars.within marks
  | .group _ body => body.endsIn marks
  | .seq _ second => second.endsIn marks
  | .alt first second => first.endsIn marks && second.endsIn marks
  | .rounds (_ + 1) none _ body => body.endsIn marks
  | _ => false

def IsBehind (marks : CharSet) (reach : Reach) : Prop := ∃ c ∈ reach.place.before, marks.Has c

theorem isBehind_through? {chars : List Char} (ends : (Pattern.literal chars).endsIn marks = true)
    (found : through? chars reach = some later) : IsBehind marks later := by
  induction chars generalizing reach with
  | nil => cases ends
  | cons c chars ih =>
    obtain ⟨mid, first, rest⟩ := Option.bind_eq_some_iff.1 found
    match chars with
    | [] =>
      cases rest
      obtain ⟨d, rest, _, same, rfl⟩ := exists_of_behind? first
      refine ⟨d, rfl, ?_⟩
      rw [of_decide_eq_true same]
      exact CharSet.has_of_within ends (CharSet.contains_single c)
    | d :: chars => exact ih ends rest

variable {body : Reach → List Reach} {eager : Bool}

theorem isBehind_upTo (inner : ∀ {reach later}, later ∈ body reach → IsBehind marks later)
    {count : Nat} (behind : IsBehind marks reach) (known : later ∈ upTo body eager count reach) :
    IsBehind marks later := by
  induction count generalizing reach with
  | zero => rwa [List.mem_singleton.1 known]
  | succ count ih =>
    rcases mem_prefer.1 known with goesOn | leaves
    · obtain ⟨mid, first, rest⟩ := List.mem_flatMap.1 goesOn
      exact ih (inner first) rest
    · rwa [List.mem_singleton.1 leaves]

theorem isBehind_of_endsIn (ends : pattern.endsIn marks = true)
    (known : later ∈ pattern.outcomes reach) : IsBehind marks later := by
  induction pattern generalizing reach later with
  | literal chars => exact isBehind_through? ends (Option.mem_toList.1 known)
  | set chars =>
    obtain ⟨c, rest, follows, contains, rfl⟩ := exists_of_behind? (Option.mem_toList.1 known)
    exact ⟨c, rfl, CharSet.has_of_within ends contains⟩
  | group index body ih =>
    obtain ⟨mid, inner, rfl⟩ := List.mem_map.1 known
    unfold IsBehind
    rw [close_place]
    exact ih ends inner
  | seq first second _ ihSecond =>
    obtain ⟨mid, _, rest⟩ := List.mem_flatMap.1 known
    exact ihSecond ends rest
  | alt first second ihFirst ihSecond =>
    obtain ⟨endsFirst, endsSecond⟩ := Bool.and_eq_true_iff.1 ends
    exact (List.mem_append.1 known).elim (ihFirst endsFirst) (ihSecond endsSecond)
  | rounds least most eager body ih =>
    match least, most with
    | 0, _ | _ + 1, some _ => cases ends
    | least + 1, none =>
      obtain ⟨mid, _, rest⟩ := List.mem_flatMap.1 known
      obtain ⟨first, inner, more⟩ := List.mem_flatMap.1 rest
      exact isBehind_upTo (ih ends) (ih ends inner) more
  | empty | assert _ => cases ends

/-- A pattern that begins with the context group: the token begins where that ends. -/
theorem exists_of_head?_context {lead rest : Pattern} (bare : rest.hasGroup = false)
    (isFirst : ((Pattern.seq (.group 1 lead) rest).outcomes reach).head? = some later) :
    ∃ mid ∈ lead.outcomes reach, later.context = some mid.place ∧
      (rest.outcomes { mid with context := some mid.place }).head? = some later := by
  unfold outcomes at isFirst
  rw [List.head?_flatMap] at isFirst
  obtain ⟨closed, known, follows⟩ := List.exists_of_findSome?_eq_some isFirst
  obtain ⟨mid, inner, rfl⟩ := List.mem_map.1 known
  refine ⟨mid, inner, ?_, follows⟩
  exact outcomes_carried carries_same_context (within_of_no_group bare) (List.mem_of_head? follows)

theorem head?_context {lead rest : Pattern} {mid : Reach}
    (leads : (lead.outcomes reach).head? = some mid)
    (follows : (rest.outcomes { mid with context := some mid.place }).head? = some later) :
    ((Pattern.seq (.group 1 lead) rest).outcomes reach).head? = some later := by
  obtain ⟨others, outcomes⟩ := List.head?_eq_some_iff.1 leads
  unfold Pattern.outcomes
  rw [List.head?_flatMap, Pattern.outcomes, outcomes, List.map_cons, List.findSome?_cons]
  simp only [close, if_true, follows]

end Pattern

end Highlighter
