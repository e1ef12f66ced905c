import Highlighter.Proofs.Pattern.Cut
import Highlighter.Proofs.Pattern.Edges

/-!
Runs of characters of one set. An eager repetition of a set prefers the longest run that there is
(`Pattern.head?_run`). Where the matches of a pattern trail off in such a run, it is known what they take
behind their first character (`Pattern.trails_outcomes`).
-/

set_option autoImplicit false

namespace Highlighter

namespace Pattern

open Outcomes

variable {chars marks : CharSet} {pattern : Pattern} {reach later : Reach}

/-! ### The longest run -/

/-- What the match takes is all that there is of this set. -/
def TakesRun (chars : CharSet) (reach later : Reach) : Prop :=
  reach.place.Takes (reach.place.rest.takeWhile chars.contains) later.place

theorem behind?_eq_some {accepts : Char → Bool} {c : Char} {rest : List Char}
    (follows : reach.place.rest = c :: rest) (accepted : accepts c = true) :
    behind? accepts reach = some { reach with place := reach.place.past c rest } := by
  simp [behind?, follows, accepted]

theorem behind?_eq_none {accepts : Char → Bool}
    (refused : ∀ c ∈ reach.place.rest.head?, accepts c = false) : behind? accepts reach = none := by
  unfold behind?
  split
  · rfl
  · next c rest follows => simp [refused c (by simp [follows])]

theorem exists_through? {chars rest : List Char} (follows : reach.place.rest = chars ++ rest) :
    ∃ later, through? chars reach = some later ∧ reach.place.Takes chars later.place := by
  induction chars generalizing reach with
  | nil => exact ⟨reach, rfl, .refl _⟩
  | cons c chars ih =>
    have first : behind? (· = c) reach = some { reach with place := reach.place.past c (chars ++ rest) } :=
      behind?_eq_some follows (decide_eq_true rfl)
    obtain ⟨later, isLater, takes⟩ := @ih { reach with place := reach.place.past c (chars ++ rest) } rfl
    refine ⟨later, ?_, (Place.takes_past follows).trans takes⟩
    rw [through?, first]
    exact isLater

theorem takes_of_literal {chars : List Char} (known : later ∈ (literal chars).outcomes reach) :
    reach.place.Takes chars later.place := takes_of_through? (Option.mem_toList.1 known)

theorem exists_mem_literal {chars rest : List Char} (follows : reach.place.rest = chars ++ rest) :
    ∃ later, later ∈ (literal chars).outcomes reach := by
  obtain ⟨later, isLater, _⟩ := exists_through? follows
  exact ⟨later, Option.mem_toList.2 isLater⟩

theorem TakesRun.cons {c : Char} {rest : List Char} (follows : reach.place.rest = c :: rest)
    (accepted : chars.contains c = true)
    (run : TakesRun chars { reach with place := reach.place.past c rest } later) :
    TakesRun chars reach later := by
  unfold TakesRun
  rw [follows, List.takeWhile_cons_of_pos accepted]
  exact (Place.takes_past follows).trans run

theorem takesRun_self (refused : ∀ c ∈ reach.place.rest.head?, chars.contains c = false) :
    TakesRun chars reach reach := by
  have nothing : reach.place.rest.takeWhile chars.contains = [] := by
    match follows : reach.place.rest with
    | [] => rfl
    | c :: rest =>
      rw [List.takeWhile_cons_of_neg]
      simp [refused c (by simp [follows])]
  unfold TakesRun
  rw [nothing]
  exact .refl _

theorem head?_upTo_run (chars : CharSet) {count : Nat} (reach : Reach)
    (enough : reach.place.rest.length ≤ count) :
    ∃ later, (upTo (set chars).outcomes true count reach).head? = some later ∧
      TakesRun chars reach later := by
  induction count generalizing reach with
  | zero =>
    have ends : reach.place.rest = [] := List.length_eq_zero_iff.1 (Nat.le_zero.1 enough)
    exact ⟨reach, rfl, takesRun_self (by simp [ends])⟩
  | succ count ih =>
    unfold upTo prefer
    by_cases accepted : ∃ c ∈ reach.place.rest.head?, chars.contains c = true
    · obtain ⟨c, isHead, accepted⟩ := accepted
      obtain ⟨rest, follows⟩ := List.head?_eq_some_iff.1 isHead
      rw [follows, List.length_cons] at enough
      obtain ⟨later, isFirst, run⟩ :=
        ih { reach with place := reach.place.past c rest } (Nat.le_of_succ_le_succ enough)
      refine ⟨later, ?_, run.cons follows accepted⟩
      rw [outcomes, behind?_eq_some follows accepted, Option.toList_some, List.flatMap_singleton,
        if_pos rfl, List.head?_append, isFirst, Option.some_or]
    · have refused : ∀ c ∈ reach.place.rest.head?, chars.contains c = false := by
        intro c isHead
        exact Bool.eq_false_iff.2 fun contains => accepted ⟨c, isHead, contains⟩
      refine ⟨reach, ?_, takesRun_self refused⟩
      rw [outcomes, behind?_eq_none refused]
      rfl

theorem fewer_succ {body : Reach → List Reach} {eager : Bool} (count : Nat) (reach : Reach) :
    fewer body eager (count + 1) reach = upTo body eager count reach := by
  induction count generalizing reach with
  | zero =>
    have nothing : (body reach).flatMap (fewer body eager 0) = [] :=
      List.flatMap_eq_nil_iff.2 fun _ _ => rfl
    rw [fewer, nothing]
    cases eager <;> rfl
  | succ count ih =>
    rw [fewer, upTo, funext ih]

/-- Whether the body may take nothing or not, a repetition is one of so many rounds or fewer. -/
theorem exists_outcomes_eq_upTo (body : Pattern) (eager : Bool) (reach : Reach) :
    ∃ count, reach.place.rest.length ≤ count ∧
      (rounds 0 none eager body).outcomes reach = upTo body.outcomes eager count reach := by
  rw [outcomes]
  split
  · exact ⟨_, Nat.le_refl _, fewer_succ _ reach⟩
  · exact ⟨reach.place.rest.length + 1, Nat.le_succ _, rfl⟩

theorem head?_run (chars : CharSet) (reach : Reach) :
    ∃ later, ((rounds 0 none true (set chars)).outcomes reach).head? = some later ∧
      TakesRun chars reach later := by
  obtain ⟨count, enough, same⟩ := exists_outcomes_eq_upTo (set chars) true reach
  rw [same]
  exact head?_upTo_run chars reach enough

/-- With at least one character needed, there is a match where one is there. -/
theorem head?_run_of_contains {c : Char} {rest : List Char} (follows : reach.place.rest = c :: rest)
    (contains : chars.contains c = true) :
    ∃ later, ((rounds 1 none true (set chars)).outcomes reach).head? = some later ∧
      TakesRun chars reach later := by
  have enough : rest.length ≤ reach.place.rest.length := by simp [follows]
  obtain ⟨later, isFirst, run⟩ :=
    head?_upTo_run chars { reach with place := reach.place.past c rest } enough
  refine ⟨later, ?_, run.cons follows contains⟩
  have single : (set chars).outcomes reach = [{ reach with place := reach.place.past c rest }] := by
    rw [outcomes, behind?_eq_some follows contains, Option.toList_some]
  rw [outcomes, exactly, List.flatMap_singleton, oneOrMore, single, List.flatMap_singleton, isFirst]

/-! ### Trailing characters -/

/-- Behind its first character, each match has nothing but marks. -/
def trails (marks : CharSet) : Pattern → Bool
  | .empty | .assert _ | .set _ | .literal [_] => true
  | .alt first second => first.trails marks && second.trails marks
  | .seq first second => first.trails marks && second.staysIn marks
  | pattern => pattern.staysIn marks

def Trails (marks : CharSet) (reach later : Reach) : Prop :=
  ∃ taken, reach.place.Takes taken later.place ∧ ∀ c ∈ taken.tail, marks.Has c

theorem trails_of_staysIn (stays : pattern.staysIn marks = true) (known : later ∈ pattern.outcomes reach) :
    Trails marks reach later := by
  obtain ⟨taken, takes, inMarks⟩ := takes_of_staysIn stays known
  exact ⟨taken, takes, fun c isLater => inMarks c (List.mem_of_mem_tail isLater)⟩

theorem trails_of_behind? {accepts : Char → Bool} (found : behind? accepts reach = some later) :
    Trails marks reach later := by
  obtain ⟨c, rest, follows, _, rfl⟩ := exists_of_behind? found
  exact ⟨[c], Place.takes_past follows, nofun⟩

theorem trails_outcomes (trails : pattern.trails marks = true) (known : later ∈ pattern.outcomes reach) :
    Trails marks reach later := by
  induction pattern generalizing later with
  | empty =>
    rw [List.mem_singleton.1 known]
    exact ⟨[], .refl _, nofun⟩
  | assert condition =>
    unfold outcomes at known
    split at known
    · rw [List.mem_singleton.1 known]
      exact ⟨[], .refl _, nofun⟩
    · cases known
  | set chars => exact trails_of_behind? (Option.mem_toList.1 known)
  | literal chars =>
    rcases chars with _ | ⟨c, _ | ⟨d, chars⟩⟩
    · exact trails_of_staysIn trails known
    · obtain ⟨mid, first, rest⟩ := Option.bind_eq_some_iff.1 (Option.mem_toList.1 known)
      cases rest
      exact trails_of_behind? first
    · exact trails_of_staysIn trails known
  | alt first second ihFirst ihSecond =>
    obtain ⟨trailsFirst, trailsSecond⟩ := Bool.and_eq_true_iff.1 trails
    exact (List.mem_append.1 known).elim (ihFirst trailsFirst) (ihSecond trailsSecond)
  | seq first second ih =>
    obtain ⟨trailsFirst, stays⟩ := Bool.and_eq_true_iff.1 trails
    obtain ⟨mid, inner, rest⟩ := List.mem_flatMap.1 known
    obtain ⟨taken, takes, inMarks⟩ := ih trailsFirst inner
    obtain ⟨more, takesMore, allMarks⟩ := takes_of_staysIn stays rest
    refine ⟨taken ++ more, takes.trans takesMore, ?_⟩
    -- What follows the first character comes from either part.
    intro c isLater
    cases taken with
    | nil => exact allMarks c (List.mem_of_mem_tail isLater)
    | cons first taken => exact (List.mem_append.1 isLater).elim (inMarks c) (allMarks c)
  | group _ _ _ | rounds _ _ _ _ _ => exact trails_of_staysIn trails known

end Pattern

end Highlighter
