import Highlighter.Proofs.Pattern.Runs
import Highlighter.Proofs.Pattern.WordEdge
import Highlighter.Proofs.Text.Runs

/-!
Lexers. A lexer takes the start of a text and never goes back on what it has taken, so it says outright what a
pattern prefers (`Pattern.PrefersAt`). Parts of a pattern are read one after the other if what follows can always be
read, or if the first part has one outcome at most (`Pattern.PrefersAt.andThen`). A run of characters before the
edge of a word has one in effect, since only the whole run ends there (`Pattern.prefersAt_several_edge`).
-/

set_option autoImplicit false

namespace Highlighter

/-- What is taken of a text from its start, if it begins as required. -/
abbrev Lexer := List Char → Option (List Char)

namespace Lexer

variable {first second : Lexer}

def nothing : Lexer := fun _ => some []

def one (isKind : Char → Bool) : Lexer
  | c :: _ => if isKind c then some [c] else none
  | [] => none

/-- All characters of the kind, which may be none. -/
def many (isKind : Char → Bool) : Lexer := fun rest => some (rest.takeWhile isKind)

def andThen (first second : Lexer) : Lexer := fun rest => do
  let taken ← first rest
  let more ← second (rest.drop taken.length)
  return taken ++ more

def orElse (first second : Lexer) : Lexer := fun rest => (first rest).or (second rest)

/-- What the first of these takes that takes anything at all. -/
def firstOf : List Lexer → Lexer
  | [] => fun _ => none
  | lexer :: lexers => lexer.orElse (firstOf lexers)

def optional (lexer : Lexer) : Lexer := lexer.orElse nothing

/-- All characters of the kind, and at least one. -/
def several (isKind : Char → Bool) : Lexer := (one isKind).andThen (many isKind)

/-- No word goes on behind what is taken. -/
def beforeEdge (lexer : Lexer) : Lexer := fun rest =>
  (lexer rest).filter fun taken => !(rest.drop taken.length).head?.any Unicode.isWord

def Total (lexer : Lexer) : Prop := ∀ rest, lexer rest ≠ none

theorem total_many (isKind : Char → Bool) : (many isKind).Total := fun _ => Option.some_ne_none _

theorem total_optional (lexer : Lexer) : lexer.optional.Total := by
  intro rest
  simp [optional, orElse, nothing]

theorem andThen_eq_some_iff {rest token : List Char} : first.andThen second rest = some token ↔
    ∃ taken more, first rest = some taken ∧ second (rest.drop taken.length) = some more ∧
      taken ++ more = token := by
  simp only [andThen, Option.bind_eq_bind, Option.pure_def, Option.bind_eq_some_iff, Option.some.injEq]
  constructor
  · rintro ⟨taken, isTaken, more, isMore, same⟩
    exact ⟨taken, more, isTaken, isMore, same⟩
  · rintro ⟨taken, more, isTaken, isMore, same⟩
    exact ⟨taken, isTaken, more, isMore, same⟩

theorem Total.exists_andThen (total : second.Total) {rest taken : List Char} (isTaken : first rest = some taken) :
    ∃ token, first.andThen second rest = some token := by
  obtain ⟨more, isMore⟩ := Option.ne_none_iff_exists'.1 (total (rest.drop taken.length))
  exact ⟨taken ++ more, andThen_eq_some_iff.2 ⟨taken, more, isTaken, isMore, rfl⟩⟩

theorem Total.andThen (firstTotal : first.Total) (secondTotal : second.Total) :
    (first.andThen second).Total := by
  intro rest
  obtain ⟨taken, isTaken⟩ := Option.ne_none_iff_exists'.1 (firstTotal rest)
  obtain ⟨token, isToken⟩ := secondTotal.exists_andThen isTaken
  rw [isToken]
  exact Option.some_ne_none token

theorem exists_of_firstOf {lexers : List Lexer} {rest token : List Char}
    (isToken : firstOf lexers rest = some token) : ∃ lexer ∈ lexers, lexer rest = some token := by
  induction lexers with
  | nil => cases isToken
  | cons lexer lexers ih =>
    rcases Option.or_eq_some_iff.1 isToken with isFirst | ⟨_, isLater⟩
    · exact ⟨lexer, List.mem_cons_self, isFirst⟩
    · obtain ⟨later, known, isLater⟩ := ih isLater
      exact ⟨later, List.mem_cons_of_mem lexer known, isLater⟩

theorem one_cons {isKind : Char → Bool} {c : Char} (isOne : isKind c = true) (rest : List Char) :
    one isKind (c :: rest) = some [c] := by
  rw [one, if_pos isOne]

theorem exists_of_one {isKind : Char → Bool} {rest taken : List Char} (isTaken : one isKind rest = some taken) :
    ∃ c others, rest = c :: others ∧ isKind c = true ∧ taken = [c] := by
  match rest with
  | [] => cases isTaken
  | c :: others =>
    rw [one] at isTaken
    split at isTaken
    · next isOne => exact ⟨c, others, rfl, isOne, (Option.some.inj isTaken).symm⟩
    · cases isTaken

theorem one_eq_none {isKind : Char → Bool} {rest : List Char} (ends : EndsRun isKind rest) :
    one isKind rest = none := by
  match rest with
  | [] => rfl
  | c :: rest => rw [one, if_neg (by simp [ends c rfl])]

theorem several_cons {isKind : Char → Bool} {c : Char} (isOne : isKind c = true) (rest : List Char) :
    several isKind (c :: rest) = some ((c :: rest).takeWhile isKind) := by
  rw [List.takeWhile_cons_of_pos isOne]
  exact andThen_eq_some_iff.2 ⟨_, _, one_cons isOne rest, rfl, rfl⟩

theorem several_eq_none {isKind : Char → Bool} {rest : List Char} (ends : EndsRun isKind rest) :
    several isKind rest = none := by
  rw [several, andThen, one_eq_none ends]
  rfl

/-- A text begins with a character of the kind or does not. -/
theorem cons_or_endsRun (isKind : Char → Bool) (rest : List Char) :
    (∃ c others, rest = c :: others ∧ isKind c = true) ∨ EndsRun isKind rest := by
  match rest with
  | [] => exact .inr nofun
  | c :: others =>
    cases isOne : isKind c with
    | true => exact .inl ⟨c, others, rfl, isOne⟩
    | false => exact .inr (endsRun_cons isOne)

theorem eq_takeWhile_of_several {isKind : Char → Bool} {rest token : List Char}
    (isToken : several isKind rest = some token) : token = rest.takeWhile isKind := by
  rcases cons_or_endsRun isKind rest with ⟨c, others, rfl, isOne⟩ | ends
  · exact (Option.some.inj ((several_cons isOne others).symm.trans isToken)).symm
  · cases (several_eq_none ends).symm.trans isToken

end Lexer

namespace Pattern

open Outcomes Lexer

/-- What the pattern prefers here is what the lexer takes of the text that follows. -/
structure PrefersAt (pattern : Pattern) (lexer : Lexer) (reach : Reach) : Prop where
  takes : ∀ taken ∈ lexer reach.place.rest, ∃ later,
    (pattern.outcomes reach).head? = some later ∧ reach.place.Takes taken later.place
  fails : lexer reach.place.rest = none → pattern.outcomes reach = []

variable {pattern other : Pattern} {lexer second : Lexer} {reach : Reach} {chars : CharSet} {isKind : Char → Bool}

theorem PrefersAt.congr (prefers : PrefersAt other lexer reach)
    (same : pattern.outcomes reach = other.outcomes reach) : PrefersAt pattern lexer reach where
  takes := by
    rw [same]
    exact prefers.takes
  fails := by
    rw [same]
    exact prefers.fails

/-! ### Single characters and runs -/

theorem prefersAt_of_behind? (same : pattern.outcomes reach = (behind? isKind reach).toList) :
    PrefersAt pattern (one isKind) reach := by
  rcases cons_or_endsRun isKind reach.place.rest with ⟨c, rest, follows, isOne⟩ | ends
  · rw [behind?_eq_some follows isOne] at same
    refine ⟨fun taken isTaken => ⟨_, by rw [same]; rfl, ?_⟩, fun fails => ?_⟩
    · rw [follows, one_cons isOne, Option.mem_some_iff] at isTaken
      exact isTaken ▸ Place.takes_past follows
    · rw [follows, one_cons isOne] at fails
      cases fails
  · rw [behind?_eq_none ends] at same
    refine ⟨fun taken isTaken => ?_, fun _ => same⟩
    rw [one_eq_none ends] at isTaken
    cases isTaken

theorem prefersAt_set (same : chars.contains = isKind) : PrefersAt (set chars) (one isKind) reach := by
  subst same
  exact prefersAt_of_behind? rfl

theorem outcomes_char (c : Char) (reach : Reach) :
    (literal [c]).outcomes reach = (behind? (· = c) reach).toList := by
  rw [outcomes, through?, show through? [] = some from rfl, Option.bind_fun_some]

theorem prefersAt_char (c : Char) : PrefersAt (literal [c]) (one (· = c)) reach :=
  prefersAt_of_behind? (outcomes_char c reach)

theorem prefersAt_many (same : chars.contains = isKind) :
    PrefersAt (rounds 0 none true (set chars)) (many isKind) reach := by
  subst same
  refine ⟨fun taken isTaken => ?_, fun fails => absurd fails (total_many _ _)⟩
  cases isTaken
  exact head?_run chars reach

theorem prefersAt_several (same : chars.contains = isKind) :
    PrefersAt (rounds 1 none true (set chars)) (several isKind) reach := by
  subst same
  rcases cons_or_endsRun chars.contains reach.place.rest with ⟨c, rest, follows, isOne⟩ | ends
  · have isRun : several chars.contains reach.place.rest = some (reach.place.rest.takeWhile chars.contains) := by
      rw [follows, several_cons isOne]
    refine ⟨fun taken isTaken => ?_, fun fails => by simp [isRun] at fails⟩
    cases isRun.symm.trans isTaken
    exact head?_run_of_contains follows isOne
  · refine ⟨fun taken isTaken => ?_, fun _ => ?_⟩
    · rw [several_eq_none ends] at isTaken
      cases isTaken
    · simp [outcomes, exactly, oneOrMore, behind?_eq_none ends]

/-! ### Parts one after the other -/

theorem PrefersAt.andThen (first : PrefersAt pattern lexer reach) (behind : ∀ later, PrefersAt other second later)
    (settled : (pattern.outcomes reach).length ≤ 1 ∨ second.Total) :
    PrefersAt (.seq pattern other) (lexer.andThen second) reach := by
  constructor
  · intro token isToken
    obtain ⟨taken, more, isTaken, isMore, rfl⟩ := andThen_eq_some_iff.1 isToken
    obtain ⟨mid, isFirst, toMid⟩ := first.takes taken isTaken
    rw [toMid.split, List.drop_left] at isMore
    obtain ⟨later, isLater, toLater⟩ := (behind mid).takes more isMore
    obtain ⟨others, outcomes⟩ := List.head?_eq_some_iff.1 isFirst
    refine ⟨later, ?_, toMid.trans toLater⟩
    rw [Pattern.outcomes, outcomes, List.flatMap_cons, List.head?_append, isLater, Option.some_or]
  · intro fails
    cases isTaken : lexer reach.place.rest with
    | none => rw [outcomes, first.fails isTaken, List.flatMap_nil]
    | some taken =>
      obtain ⟨mid, isFirst, toMid⟩ := first.takes taken isTaken
      obtain ⟨others, outcomes⟩ := List.head?_eq_some_iff.1 isFirst
      have refused : second mid.place.rest = none := by
        refine Option.eq_none_iff_forall_ne_some.2 fun more isMore => ?_
        have isMore : second (reach.place.rest.drop taken.length) = some more := by
          rwa [toMid.split, List.drop_left]
        rw [andThen_eq_some_iff.2 ⟨taken, more, isTaken, isMore, rfl⟩] at fails
        cases fails
      -- With other outcomes behind the first, what follows could be read behind one of those.
      rcases settled with short | total
      · rw [outcomes, List.length_cons] at short
        have sole : others = [] := List.length_eq_zero_iff.1 (by omega)
        rw [Pattern.outcomes, outcomes, sole, List.flatMap_singleton, (behind mid).fails refused]
      · exact absurd refused (total _)

theorem length_outcomes_set : ((set chars).outcomes reach).length ≤ 1 := by
  rw [outcomes]
  cases behind? chars.contains reach with
  | none => exact Nat.zero_le _
  | some later => exact Nat.le_refl _

theorem length_outcomes_literal {chars : List Char} : ((literal chars).outcomes reach).length ≤ 1 := by
  rw [outcomes]
  cases through? chars reach with
  | none => exact Nat.zero_le _
  | some later => exact Nat.le_refl _

/-! ### Choices -/

theorem PrefersAt.orElse (first : PrefersAt pattern lexer reach) (behind : PrefersAt other second reach) :
    PrefersAt (.alt pattern other) (lexer.orElse second) reach := by
  match isTaken : lexer reach.place.rest with
  | some taken =>
    refine ⟨fun token isToken => ?_, fun fails => by simp [Lexer.orElse, isTaken] at fails⟩
    simp only [Lexer.orElse, isTaken, Option.some_or, Option.mem_def, Option.some.injEq] at isToken
    subst isToken
    obtain ⟨later, isFirst, takes⟩ := first.takes taken isTaken
    exact ⟨later, by rw [outcomes, List.head?_append, isFirst, Option.some_or], takes⟩
  | none =>
    have same : (Pattern.alt pattern other).outcomes reach = other.outcomes reach := by
      rw [outcomes, first.fails isTaken, List.nil_append]
    have next : lexer.orElse second reach.place.rest = second reach.place.rest := by
      rw [Lexer.orElse, isTaken, Option.none_or]
    refine ⟨fun token isToken => ?_, fun fails => ?_⟩
    · rw [same]
      exact behind.takes token (next ▸ isToken)
    · rw [same]
      exact behind.fails (next ▸ fails)

theorem prefersAt_empty : PrefersAt .empty nothing reach where
  takes := by
    rintro taken isTaken
    cases isTaken
    exact ⟨reach, rfl, .refl _⟩
  fails := nofun

theorem PrefersAt.optional (prefers : PrefersAt pattern lexer reach) :
    PrefersAt (rounds 0 (some 1) true pattern) lexer.optional reach :=
  (prefers.orElse prefersAt_empty).congr (by simp [outcomes, exactly, upTo, prefer])

/-- Of none and one, no round is preferred if the repetition is not eager. -/
theorem prefersAt_lazy (pattern : Pattern) : PrefersAt (rounds 0 (some 1) false pattern) nothing reach where
  takes := by
    rintro taken isTaken
    cases isTaken
    exact ⟨reach, by simp [outcomes, exactly, upTo, prefer], .refl _⟩
  fails := nofun

/-- What may be left out is part of the first of two choices. -/
theorem outcomes_optional_seq (pattern other : Pattern) (reach : Reach) :
    (Pattern.seq (rounds 0 (some 1) true pattern) other).outcomes reach =
      (Pattern.alt (.seq pattern other) other).outcomes reach := by
  simp [outcomes, exactly, upTo, prefer]

theorem mem_alternatives {choices : List Pattern} {later : Reach} :
    later ∈ (alternatives choices).outcomes reach ↔ ∃ choice ∈ choices, later ∈ choice.outcomes reach := by
  induction choices with
  | nil =>
    have nothing : behind? CharSet.empty.contains reach = none := behind?_eq_none fun _ _ => rfl
    simp [alternatives, outcomes, nothing]
  | cons first choices ih =>
    cases choices with
    | nil => simp [alternatives]
    | cons second others => simp only [alternatives, outcomes, List.mem_append, ih, List.mem_cons, exists_eq_or_imp]

theorem prefersAt_alternatives {Form : Type} {pattern : Form → Pattern} {lexer : Form → Lexer}
    (each : ∀ form, PrefersAt (pattern form) (lexer form) reach) (forms : List Form) :
    PrefersAt (alternatives (forms.map pattern)) (firstOf (forms.map lexer)) reach := by
  induction forms with
  | nil =>
    have nothing : behind? CharSet.empty.contains reach = none := behind?_eq_none fun _ _ => rfl
    exact ⟨nofun, fun _ => by rw [List.map_nil, alternatives, outcomes, nothing]; rfl⟩
  | cons form forms ih =>
    cases forms with
    | nil =>
      have only : firstOf [lexer form] = lexer form := funext fun _ => Option.or_none
      rw [List.map_singleton, List.map_singleton, only]
      exact each form
    | cons other others => exact (each form).orElse ih

/-! ### Conditions -/

theorem outcomes_assert_seq {condition : Anchor}
    (holds : ∀ later ∈ pattern.outcomes reach, condition.holds reach.place = true) :
    (Pattern.seq (.assert condition) pattern).outcomes reach = pattern.outcomes reach := by
  rw [outcomes, outcomes]
  split
  · exact List.flatMap_singleton _ _
  · next fails =>
    rw [List.flatMap_nil, List.eq_nil_iff_forall_not_mem.2 fun later known => fails (holds later known)]

/-- Where no word goes on, the edge of one is no condition on a word. -/
theorem PrefersAt.edge (prefers : PrefersAt pattern lexer reach)
    (before : Anchor.wordBefore .unicode reach.place = false) (starts : pattern.startsIn (.word .ascii) = true) :
    PrefersAt (.seq (.assert (.wordEdge .unicode)) pattern) lexer reach := by
  refine prefers.congr (outcomes_assert_seq fun later known => ?_)
  simp [Anchor.holds, before, wordAfter_of_startsIn starts known]

/-- Where no word goes on, no run of word characters does. -/
theorem endsRun_of_wordAfter {place : Place} (words : chars.within (.word .ascii) = true)
    (after : Anchor.wordAfter .unicode place = false) : EndsRun chars.contains place.rest := by
  intro c isHead
  refine Bool.eq_false_iff.2 fun contains => ?_
  rw [Anchor.wordAfter, Option.mem_def.1 isHead] at after
  have isWord := CharSet.isWord_of_has (CharSet.has_of_within words contains)
  cases isWord.symm.trans after

/-- Behind a run of word characters the edge of a word can only be where the run ends. -/
theorem prefersAt_several_edge (same : chars.contains = isKind) (words : chars.within (.word .ascii) = true) :
    PrefersAt (.seq (rounds 1 none true (set chars)) (.assert (.wordEdge .unicode))) (several isKind).beforeEdge
      reach := by
  subst same
  have whole : PrefersAt (rounds 1 none true (set chars)) (several chars.contains) reach := prefersAt_several rfl
  have ends : (rounds 1 none true (set chars)).endsIn (.word .ascii) = true := words
  constructor
  · intro token isToken
    obtain ⟨isRun, atEdge⟩ := Option.filter_eq_some_iff.1 isToken
    obtain ⟨later, isFirst, takes⟩ := whole.takes token isRun
    obtain ⟨others, outcomes⟩ := List.head?_eq_some_iff.1 isFirst
    rw [takes.split, List.drop_left, Bool.not_eq_true'] at atEdge
    have after : Anchor.wordAfter .unicode later.place = false := atEdge
    have holds : Anchor.holds later.place (.wordEdge .unicode) = true := by
      rw [Anchor.holds, wordBefore_of_endsIn ends (List.mem_of_head? isFirst), after]
      rfl
    refine ⟨later, ?_, takes⟩
    rw [Pattern.outcomes, outcomes, List.flatMap_cons, Pattern.outcomes, if_pos holds]
    rfl
  · intro fails
    refine List.eq_nil_iff_forall_not_mem.2 fun later known => ?_
    obtain ⟨mid, inRun, atEdge⟩ := List.mem_flatMap.1 known
    obtain ⟨rfl, holds⟩ := mem_assert atEdge
    have after : Anchor.wordAfter .unicode later.place = false := by
      simpa [Anchor.holds, wordBefore_of_endsIn ends inRun] using holds
    have within : (rounds 1 none true (set chars)).Within (chars.contains · = true) fun _ => True :=
      fun _ contains => contains
    obtain ⟨taken, takes, all⟩ := outcomes_carried (carries_takes _) within inRun
    cases isRun : several chars.contains reach.place.rest with
    | none =>
      rw [whole.fails isRun] at inRun
      cases inRun
    | some token =>
      -- A character of the kind would be one of a word, so the run is over where the word is.
      have same : token = taken := by
        rw [eq_takeWhile_of_several isRun, takes.split, takeWhile_run all (endsRun_of_wordAfter words after)]
      have isToken : (several chars.contains).beforeEdge reach.place.rest = some token := by
        refine Option.filter_eq_some_iff.2 ⟨isRun, ?_⟩
        rw [same, takes.split, List.drop_left, Bool.not_eq_true']
        exact after
      rw [isToken] at fails
      cases fails

end Pattern

end Highlighter
