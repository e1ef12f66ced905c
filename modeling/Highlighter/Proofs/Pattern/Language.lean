import Highlighter.Proofs.Pattern.Reaches
import Highlighter.Proofs.Pattern.Runs
import Mathlib.Algebra.Order.Monoid.Unbundled.Pow
import Mathlib.Computability.Language
import Mathlib.Order.CompletePartialOrder

/-!
The language of a pattern: the texts that it describes, whatever stands around them and whichever it prefers. What a
match takes is one of them (`Pattern.exists_mem_language`). Putting patterns into normal form does not change the
language (`Pattern.language_sequence`), nor does it change what they match (`Pattern.outcomes_followedBy`).
-/

set_option autoImplicit false

namespace Highlighter

namespace Pattern

open Outcomes
open scoped Computability

/-- A condition takes the empty text. -/
def language : Pattern → Language Char
  | .empty | .assert _ => 1
  | .literal chars => {chars}
  | .set chars => {text | ∃ c, chars.contains c = true ∧ text = [c]}
  | .group _ body => body.language
  | .seq first second => first.language * second.language
  | .alt first second => first.language + second.language
  | .rounds least (some most) _ body => body.language ^ least * (1 + body.language) ^ (most - least)
  | .rounds least none _ body => body.language ^ least * body.language∗

variable {pattern : Pattern} {reach mid later : Reach} {texts others : Language Char}

/-! ### Matches -/

/-- A text of the language is taken between the two. -/
def Spells (texts : Language Char) (reach later : Reach) : Prop :=
  ∃ taken ∈ texts, reach.place.Takes taken later.place

theorem spells_self (le : 1 ≤ texts) (reach : Reach) : Spells texts reach reach :=
  ⟨[], le Language.nil_mem_one, .refl _⟩

theorem Spells.mul (first : Spells texts reach mid) (second : Spells others mid later) :
    Spells (texts * others) reach later := by
  obtain ⟨taken, known, takes⟩ := first
  obtain ⟨more, isMore, takesMore⟩ := second
  exact ⟨taken ++ more, Language.append_mem_mul known isMore, takes.trans takesMore⟩

theorem Spells.mono (spells : Spells texts reach later) (le : texts ≤ others) : Spells others reach later := by
  obtain ⟨taken, known, takes⟩ := spells
  exact ⟨taken, le known, takes⟩

section

variable {body : Reach → List Reach} {eager : Bool}

theorem spells_exactly (inner : ∀ {reach later}, later ∈ body reach → Spells texts reach later) {count : Nat}
    (known : later ∈ exactly body count reach) : Spells (texts ^ count) reach later := by
  induction count generalizing reach with
  | zero =>
    rw [List.mem_singleton.1 known]
    exact spells_self (pow_zero _).ge _
  | succ count ih =>
    obtain ⟨mid, first, rest⟩ := List.mem_flatMap.1 known
    rw [pow_succ']
    exact (inner first).mul (ih rest)

theorem spells_upTo (inner : ∀ {reach later}, later ∈ body reach → Spells texts reach later) {count : Nat}
    (known : later ∈ upTo body eager count reach) : Spells ((1 + texts) ^ count) reach later := by
  induction count generalizing reach with
  | zero =>
    rw [List.mem_singleton.1 known]
    exact spells_self (pow_zero _).ge _
  | succ count ih =>
    rw [pow_succ']
    rcases mem_prefer.1 known with goesOn | leaves
    · obtain ⟨mid, first, rest⟩ := List.mem_flatMap.1 goesOn
      exact ((inner first).mono le_add_self).mul (ih rest)
    · rw [List.mem_singleton.1 leaves]
      exact spells_self (one_le_mul le_self_add (one_le_pow_of_one_le' le_self_add count)) _

end

/-- Any number of texts or of none at all is any number of texts. -/
theorem pow_le_kstar (texts : Language Char) (count : Nat) : (1 + texts) ^ count ≤ texts∗ := by
  induction count with
  | zero => exact (pow_zero _).trans_le one_le_kstar
  | succ count ih =>
    calc (1 + texts) ^ (count + 1) = (1 + texts) * (1 + texts) ^ count := pow_succ' _ _
      _ ≤ (1 + texts) * texts∗ := mul_le_mul_right ih _
      _ = texts∗ + texts * texts∗ := by rw [add_mul, one_mul]
      _ ≤ texts∗ := sup_le le_rfl mul_kstar_le_kstar

/-- What a match takes is described by the pattern. -/
theorem exists_mem_language (known : later ∈ pattern.outcomes reach) : Spells pattern.language reach later := by
  induction pattern generalizing reach later with
  | empty =>
    rw [List.mem_singleton.1 known]
    exact spells_self le_rfl _
  | assert condition =>
    unfold outcomes at known
    split at known
    · rw [List.mem_singleton.1 known]
      exact spells_self le_rfl _
    · cases known
  | literal chars => exact ⟨chars, rfl, takes_of_literal known⟩
  | set chars =>
    obtain ⟨c, rest, follows, contains, rfl⟩ := exists_of_behind? (Option.mem_toList.1 known)
    exact ⟨[c], ⟨c, contains, rfl⟩, Place.takes_past follows⟩
  | group index body ih =>
    obtain ⟨mid, inner, rfl⟩ := List.mem_map.1 known
    obtain ⟨taken, isTaken, takes⟩ := ih inner
    exact ⟨taken, isTaken, by rwa [close_place]⟩
  | seq first second ihFirst ihSecond =>
    obtain ⟨mid, inner, rest⟩ := List.mem_flatMap.1 known
    exact (ihFirst inner).mul (ihSecond rest)
  | alt first second ihFirst ihSecond =>
    rcases List.mem_append.1 known with isFirst | isSecond
    · exact (ihFirst isFirst).mono le_self_add
    · exact (ihSecond isSecond).mono le_add_self
  | rounds least most eager body ih =>
    cases most with
    | some most =>
      obtain ⟨mid, inner, rest⟩ := List.mem_flatMap.1 known
      exact (spells_exactly ih inner).mul (spells_upTo ih rest)
    | none =>
      cases least with
      | zero =>
        -- The rounds that the rest of the text leaves room for are as good as any number of them.
        obtain ⟨count, _, same⟩ := exists_outcomes_eq_upTo body eager reach
        rw [same] at known
        rw [language, pow_zero, one_mul]
        exact (spells_upTo ih known).mono (pow_le_kstar _ _)
      | succ least =>
        obtain ⟨mid, inner, rest⟩ := List.mem_flatMap.1 known
        obtain ⟨next, first, more⟩ := List.mem_flatMap.1 rest
        rw [language, pow_succ, mul_assoc]
        exact (spells_exactly ih inner).mul ((ih first).mul ((spells_upTo ih more).mono (pow_le_kstar _ _)))

/-! ### Normal form -/

theorem outcomes_followedBy (first second : Pattern) (reach : Reach) :
    (first.followedBy second).outcomes reach = (seq first second).outcomes reach := by
  have answers (pattern : Pattern) : (pattern.run 0 .answer reach).answers = pattern.outcomes reach := by
    simp [answers_run, answersBehind, Ways.answers]
  rw [← answers, ← answers, run_followedBy]
  rfl

theorem language_followedBy (first second : Pattern) :
    (first.followedBy second).language = first.language * second.language := by
  fun_induction followedBy first second with
  | case1 second => exact (one_mul _).symm
  | case2 first inner second ihInner ih => rw [ih, ihInner, language, mul_assoc]
  | case3 first => exact (mul_one _).symm
  | case4 chars others => exact (Set.image2_singleton : Set.image2 (· ++ ·) {chars} {others} = _).symm
  | case5 chars others rest =>
    rw [language, language, language, language, ← mul_assoc]
    congr 1
    exact (Set.image2_singleton : Set.image2 (· ++ ·) {chars} {others} = _).symm
  | case6 first second => rfl

theorem language_sequence (items : List Pattern) : (sequence items).language = (items.map language).prod := by
  induction items with
  | nil => rfl
  | cons item items ih =>
    rw [List.map_cons, List.prod_cons, ← ih]
    exact language_followedBy _ _

theorem mem_language_alternatives {choices : List Pattern} {text : List Char} :
    text ∈ (alternatives choices).language ↔ ∃ choice ∈ choices, text ∈ choice.language := by
  induction choices with
  | nil => exact iff_of_false (fun ⟨c, contains, _⟩ => by cases contains) nofun
  | cons first choices ih =>
    match choices with
    | [] => simp [alternatives]
    | second :: others => simp only [alternatives, language, Language.mem_add, ih, List.mem_cons, exists_eq_or_imp]

end Pattern

end Highlighter
