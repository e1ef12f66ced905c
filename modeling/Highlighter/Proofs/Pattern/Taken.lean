import Highlighter.Proofs.Pattern.Outcomes
import Highlighter.Proofs.Text.Between

/-!
What lies between a reach and the outcomes of a pattern there: characters of the pattern's own, and the
end of the context group if it took part. Main statements: a relation that steps keep holds of all
outcomes (`outcomes_carried`), and no match leaves its text (`matchAt_bounds`).
-/

set_option autoImplicit false

namespace Highlighter

namespace Pattern

open Outcomes

/-- The characters that the pattern takes are all of these, and so are the groups that it has. -/
def Within (allowed : Char → Prop) (groups : Nat → Prop) : Pattern → Prop
  | .empty | .assert _ => True
  | .literal chars => ∀ c ∈ chars, allowed c
  | .set chars => ∀ c, chars.contains c = true → allowed c
  | .group index body => groups index ∧ body.Within allowed groups
  | .rounds _ _ _ body => body.Within allowed groups
  | .seq first second | .alt first second =>
    first.Within allowed groups ∧ second.Within allowed groups

theorem within_any (pattern : Pattern) : pattern.Within (fun _ => True) fun _ => True := by
  induction pattern with
  | empty | assert _ => trivial
  | literal _ | set _ => exact fun _ _ => trivial
  | group _ _ ih => exact ⟨trivial, ih⟩
  | rounds _ _ _ _ ih => exact ih
  | seq _ _ first second | alt _ _ first second => exact ⟨first, second⟩

theorem within_of_no_group {groups : Nat → Prop} {pattern : Pattern} (bare : pattern.hasGroup = false) :
    pattern.Within (fun _ => True) groups := by
  induction pattern with
  | empty | assert _ => trivial
  | literal _ | set _ => exact fun _ _ => trivial
  | group _ _ _ => cases bare
  | rounds _ _ _ _ ih => exact ih bare
  | seq _ _ ihFirst ihSecond | alt _ _ ihFirst ihSecond =>
    obtain ⟨first, second⟩ := Bool.or_eq_false_iff.1 bare
    exact ⟨ihFirst first, ihSecond second⟩

/-- A relation that holds along each step of a match. -/
structure Carries (allowed : Char → Prop) (groups : Nat → Prop) (related : Reach → Reach → Prop) :
    Prop where
  refl : ∀ reach, related reach reach
  trans : ∀ {reach mid later}, related reach mid → related mid later → related reach later
  past : ∀ {reach : Reach} {c rest}, reach.place.rest = c :: rest → allowed c →
    related reach { reach with place := reach.place.past c rest }
  close : ∀ {index}, groups index → ∀ reach, related reach (close index reach)

section

variable {allowed : Char → Prop} {groups : Nat → Prop} {related : Reach → Reach → Prop} {pattern : Pattern}
  {reach later : Reach}

theorem behind?_carried (carries : Carries allowed groups related) {accepts : Char → Bool}
    (within : ∀ c, accepts c = true → allowed c) (found : behind? accepts reach = some later) :
    related reach later := by
  obtain ⟨c, rest, follows, accepted, rfl⟩ := exists_of_behind? found
  exact carries.past follows (within c accepted)

theorem through?_carried (carries : Carries allowed groups related) {chars : List Char}
    (within : ∀ c ∈ chars, allowed c) (found : through? chars reach = some later) :
    related reach later := by
  induction chars generalizing reach with
  | nil =>
    cases found
    exact carries.refl _
  | cons c chars ih =>
    obtain ⟨mid, first, rest⟩ := Option.bind_eq_some_iff.1 found
    have step : related reach mid := behind?_carried carries
      (fun d same => within d (by simp_all)) first
    exact carries.trans step (ih (fun d known => within d (List.mem_cons_of_mem c known)) rest)

theorem takes_of_through? {chars : List Char} (found : through? chars reach = some later) :
    reach.place.Takes chars later.place := by
  induction chars generalizing reach with
  | nil =>
    cases found
    exact .refl _
  | cons c chars ih =>
    obtain ⟨mid, first, rest⟩ := Option.bind_eq_some_iff.1 found
    obtain ⟨d, others, follows, same, rfl⟩ := exists_of_behind? first
    rw [← of_decide_eq_true same]
    exact (Place.takes_past follows).trans (ih rest)

variable {body : Reach → List Reach} {eager : Bool}

theorem mem_prefer {goOn leave : List Reach} :
    later ∈ prefer eager goOn leave ↔ later ∈ goOn ∨ later ∈ leave := by
  cases eager <;> simp [prefer, or_comm]

theorem exactly_carried (carries : Carries allowed groups related)
    (inner : ∀ {reach later}, later ∈ body reach → related reach later) {count : Nat}
    (known : later ∈ exactly body count reach) : related reach later := by
  induction count generalizing reach with
  | zero =>
    rw [List.mem_singleton.1 known]
    exact carries.refl reach
  | succ count ih =>
    obtain ⟨mid, first, rest⟩ := List.mem_flatMap.1 known
    exact carries.trans (inner first) (ih rest)

theorem upTo_carried (carries : Carries allowed groups related)
    (inner : ∀ {reach later}, later ∈ body reach → related reach later) {count : Nat}
    (known : later ∈ upTo body eager count reach) : related reach later := by
  induction count generalizing reach with
  | zero =>
    rw [List.mem_singleton.1 known]
    exact carries.refl reach
  | succ count ih =>
    rcases mem_prefer.1 known with goesOn | leaves
    · obtain ⟨mid, first, rest⟩ := List.mem_flatMap.1 goesOn
      exact carries.trans (inner first) (ih rest)
    · rw [List.mem_singleton.1 leaves]
      exact carries.refl reach

theorem fewer_carried (carries : Carries allowed groups related)
    (inner : ∀ {reach later}, later ∈ body reach → related reach later) {count : Nat}
    (known : later ∈ fewer body eager count reach) : related reach later := by
  induction count generalizing reach with
  | zero => cases known
  | succ count ih =>
    rcases mem_prefer.1 known with goesOn | leaves
    · obtain ⟨mid, first, rest⟩ := List.mem_flatMap.1 goesOn
      exact carries.trans (inner first) (ih rest)
    · rw [List.mem_singleton.1 leaves]
      exact carries.refl reach

theorem oneOrMore_carried (carries : Carries allowed groups related)
    (inner : ∀ {reach later}, later ∈ body reach → related reach later)
    (known : later ∈ oneOrMore body eager reach) : related reach later := by
  obtain ⟨mid, first, rest⟩ := List.mem_flatMap.1 known
  exact carries.trans (inner first) (upTo_carried carries inner rest)

/-- What holds along each step of a match holds between a reach and all outcomes there. -/
theorem outcomes_carried (carries : Carries allowed groups related) (within : pattern.Within allowed groups)
    (known : later ∈ pattern.outcomes reach) : related reach later := by
  induction pattern generalizing reach later with
  | empty =>
    rw [List.mem_singleton.1 known]
    exact carries.refl reach
  | literal chars => exact through?_carried carries within (Option.mem_toList.1 known)
  | set chars => exact behind?_carried carries within (Option.mem_toList.1 known)
  | assert condition =>
    unfold outcomes at known
    split at known
    · rw [List.mem_singleton.1 known]
      exact carries.refl reach
    · cases known
  | group index body ih =>
    obtain ⟨mid, inner, rfl⟩ := List.mem_map.1 known
    exact carries.trans (ih within.2 inner) (carries.close within.1 mid)
  | seq first second ihFirst ihSecond =>
    obtain ⟨mid, inner, rest⟩ := List.mem_flatMap.1 known
    exact carries.trans (ihFirst within.1 inner) (ihSecond within.2 rest)
  | alt first second ihFirst ihSecond =>
    exact (List.mem_append.1 known).elim (ihFirst within.1) (ihSecond within.2)
  | rounds least most eager body ih =>
    cases most with
    | some most =>
      obtain ⟨mid, inner, rest⟩ := List.mem_flatMap.1 known
      exact carries.trans (exactly_carried carries (ih within) inner)
        (upTo_carried carries (ih within) rest)
    | none =>
      cases least with
      | zero =>
        rw [outcomes] at known
        split at known
        · exact fewer_carried carries (ih within) known
        · rcases mem_prefer.1 known with goesOn | leaves
          · exact oneOrMore_carried carries (ih within) goesOn
          · rw [List.mem_singleton.1 leaves]
            exact carries.refl reach
      | succ least =>
        obtain ⟨mid, inner, rest⟩ := List.mem_flatMap.1 known
        exact carries.trans (exactly_carried carries (ih within) inner)
          (oneOrMore_carried carries (ih within) rest)

end

def Takes (allowed : Char → Prop) (reach later : Reach) : Prop :=
  ∃ taken, reach.place.Takes taken later.place ∧ ∀ c ∈ taken, allowed c

theorem close_place (index : Nat) (reach : Reach) : (close index reach).place = reach.place := by
  unfold close
  split <;> rfl

theorem carries_takes (allowed : Char → Prop) :
    Carries allowed (fun _ => True) (Takes allowed) where
  refl reach := ⟨[], .refl _, nofun⟩
  trans := by
    rintro reach mid later ⟨taken, first, isFirst⟩ ⟨more, second, isSecond⟩
    refine ⟨taken ++ more, first.trans second, ?_⟩
    rw [List.forall_mem_append]
    exact ⟨isFirst, isSecond⟩
  past := by
    intro reach c rest follows isAllowed
    exact ⟨[c], Place.takes_past follows, by simpa using isAllowed⟩
  close _ reach := by
    refine ⟨[], ?_, nofun⟩
    rw [close_place]
    exact .refl _

/-- No other group changes where the context group ended. -/
theorem carries_same_context :
    Carries (fun _ => True) (· ≠ 1) fun reach later => later.context = reach.context where
  refl _ := rfl
  trans first second := second.trans first
  past _ _ := rfl
  close other reach := by rw [close, if_neg other]

/-- The context group ended where it had ended before, or between the two. -/
def KeepsContext (reach later : Reach) : Prop :=
  (∃ taken, reach.place.Takes taken later.place) ∧
    (later.context = reach.context ∨ ∃ context, later.context = some context ∧
      (∃ taken, reach.place.Takes taken context) ∧ ∃ taken, context.Takes taken later.place)

theorem carries_context : Carries (fun _ => True) (fun _ => True) KeepsContext where
  refl reach := ⟨⟨[], .refl _⟩, .inl rfl⟩
  trans := by
    rintro reach mid later ⟨⟨taken, first⟩, context⟩ ⟨⟨more, second⟩, later⟩
    refine ⟨⟨_, first.trans second⟩, ?_⟩
    -- The later end of the group counts.
    rcases later with same | ⟨place, isContext, ⟨_, toContext⟩, behind⟩
    · rcases context with kept | ⟨place, isContext, toContext, ⟨_, behind⟩⟩
      · exact .inl (same.trans kept)
      · exact .inr ⟨place, same.trans isContext, toContext, _, behind.trans second⟩
    · exact .inr ⟨place, isContext, ⟨_, first.trans toContext⟩, behind⟩
  past := fun follows _ => ⟨⟨_, Place.takes_past follows⟩, .inl rfl⟩
  close _ reach := by
    unfold close
    split
    · exact ⟨⟨[], .refl _⟩, .inr ⟨reach.place, rfl, ⟨[], .refl _⟩, [], .refl _⟩⟩
    · exact ⟨⟨[], .refl _⟩, .inl rfl⟩

/-- A match ends in its text and not before its start, and its context group ended in between. -/
theorem matchAt_bounds {pattern : Pattern} {place : Place} {reach : Reach}
    (found : pattern.matchAt place = some reach) :
    (∃ taken, place.Takes taken reach.place) ∧ ∀ context, reach.context = some context →
      (∃ taken, place.Takes taken context) ∧ ∃ taken, context.Takes taken reach.place := by
  obtain ⟨takes, kept⟩ :=
    outcomes_carried carries_context pattern.within_any (mem_outcomes_of_matchAt found)
  refine ⟨takes, fun context isContext => ?_⟩
  rcases kept with none | ⟨place, same, bounds⟩
  · rw [none] at isContext
    cases isContext
  · cases isContext.symm.trans same
    exact bounds

end Pattern

end Highlighter
