import Highlighter.Proofs.Pattern.Groups
import Highlighter.Proofs.Scan.Fresh
import Highlighter.Proofs.Text.Runs

/-!
One pattern for all of a delimited match: the opening pattern, then as few characters as possible, then the
closing pattern or else the end of the text (`Pattern.through`). It matches where the opening pattern does, and
its match ends where the first closing match does, or the text (`Pattern.matchAt_through`).
-/

set_option autoImplicit false

namespace Highlighter

namespace CharSet

/-- All characters. -/
def all : CharSet := empty.compl

theorem contains_all (c : Char) : all.contains c = true := by
  have bound : c.toNat ≤ 0x10ffff := toNat_le c
  have ranges : all = ⟨[(0, 0x10ffff)]⟩ := rfl
  simp [ranges, contains, covers, bound]

end CharSet

namespace Pattern

open Outcomes

/-- Any characters, line breaks included, as few as possible. -/
def fewest : Pattern := repeated 0 none false (ofSet .all)

/-- From `opening` on to the first match of `closing`, or to the end of the text. The groups of `closing` are
numbered behind those of `opening`. -/
def through (opening closing : Pattern) : Pattern :=
  sequence [opening, fewest, choice [closing.renumber (· + opening.lastGroup), .assert .textEnd]]

theorem fewer_all {count : Nat} {reach : Reach} (enough : reach.place.rest.length < count) :
    fewer (Pattern.set .all).outcomes false count reach =
      reach.place.onward.map fun place => { reach with place } := by
  induction count generalizing reach with
  | zero => exact absurd enough (Nat.not_lt_zero _)
  | succ count ih =>
    rw [fewer, outcomes, behind?]
    cases follows : reach.place.rest with
    | nil => simp [prefer, Place.onward_of_end follows]
    | cons c rest =>
      rw [follows] at enough
      have behind := @ih { reach with place := reach.place.past c rest } (Nat.lt_of_succ_lt_succ enough)
      simp [prefer, CharSet.contains_all, behind, Place.onward_of_cons follows]

/-- The fewest characters: none, then one more each time. -/
theorem reaches_fewest (reach : Reach) :
    fewest.reaches reach = reach.place.onward.map fun place => { reach with place } := by
  rw [reaches_eq_outcomes rfl]
  exact fewer_all (Nat.lt_succ_self _)

theorem mapM_append_eq_none {α β : Type} {f : α → Option β} (items : List α) {last : α} (fails : f last = none) :
    (items ++ [last]).mapM f = none := by
  induction items with
  | nil => simp [fails]
  | cons item items ih => simp [ih]

theorem sharedParts_append_assert (branches : List Pattern) (condition : Anchor) (nonempty : branches ≠ []) :
    sharedParts (branches ++ [.assert condition]) = [] := by
  match branches with
  | first :: others =>
    rw [List.cons_append, sharedParts, List.foldl_append]
    simp [common]

theorem branches_ne_nil (pattern : Pattern) : pattern.branches ≠ [] := by
  cases pattern <;> exact List.cons_ne_nil _ _

theorem choice_assert (pattern : Pattern) (condition : Anchor) :
    choice [pattern, .assert condition] = alternatives (pattern.branches ++ [.assert condition]) := by
  have flat : [pattern, .assert condition].flatMap branches = pattern.branches ++ [.assert condition] := by
    simp [branches]
  have union : unionOf? (pattern.branches ++ [.assert condition]) = none := by
    rw [unionOf?, mapM_append_eq_none (f := soleChar?) _ rfl, mapM_append_eq_none (f := asSet?) _ rfl]
    rfl
  have shared := sharedParts_append_assert pattern.branches condition pattern.branches_ne_nil
  rw [choice, choose, flat]
  split
  next only same =>
    obtain ⟨first, others, isBranches⟩ := List.exists_cons_of_ne_nil pattern.branches_ne_nil
    simp [isBranches] at same
  next => rw [union, shared]

theorem reaches_choice_assert (pattern : Pattern) (condition : Anchor) (reach : Reach) :
    (choice [pattern, .assert condition]).reaches reach =
      pattern.reaches reach ++ (Pattern.assert condition).reaches reach := by
  rw [choice_assert, reaches_alternatives (by simp), List.flatMap_append, ← reaches_branches,
    List.flatMap_singleton]

/-! ### Groups that do not matter -/

theorem together_place (number : Nat → Nat) : Together number fun reach other => other.place = reach.place where
  place := id
  past := fun _ _ => rfl
  close := by
    intro reach other index same
    rw [close_place, close_place, same]

theorem congruence_places :
    Ways.Congruence (fun tree other : Ways Reach =>
      ∀ seen, (other.pruned seen).map (·.place) = (tree.pruned seen).map (·.place)) (· = ·) where
  fail _ := rfl
  orElse first second seen := by
    rw [Ways.pruned, Ways.pruned, List.map_append, List.map_append, first seen, second seen]
  meet := by
    rintro point _ offset next following rfl below seen
    rw [Ways.pruned, Ways.pruned]
    split
    · rfl
    · exact below _

/-- Where a match ends does not depend on the numbers of its groups, nor on the context before it. -/
theorem places_renumber (pattern : Pattern) (number : Nat → Nat) {reach other : Reach}
    (same : other.place = reach.place) :
    ((pattern.renumber number).reaches other).map (·.place) = (pattern.reaches reach).map (·.place) := by
  have paired : Paired (· = ·) 0 0 pattern.points := fun _ _ => rfl
  exact respects_run congruence_places (together_place number) pattern paired .answer .answer
    (fun reach other same seen => by simp [Ways.pruned, same]) reach other same []

theorem context_of_mem_reaches {pattern : Pattern} {reach later : Reach} (labelled : pattern.Labelled (· ≠ 1))
    (known : later ∈ pattern.reaches reach) : later.context = reach.context :=
  outcomes_carried carries_same_context labelled (mem_outcomes_of_mem_reaches known)

/-! ### Matches -/

section

variable {opening closing : Pattern} {text : List Char} {place : Place} {mid later : Reach}

/-- Where the first match from here on ends, or else where the text does. -/
def stopFrom (closing : Pattern) (place : Place) : Place :=
  ((closing.firstMatch place).map (·.2.place)).getD place.last

theorem reaches_through (reach : Reach) : (opening.through closing).reaches reach =
    (opening.reaches reach).flatMap fun mid => mid.place.onward.flatMap fun place =>
      (choice [closing.renumber (· + opening.lastGroup), .assert .textEnd]).reaches { mid with place } := by
  have ends : Pattern.empty.reaches = fun reach => [reach] := rfl
  rw [through, sequence, List.foldr_cons, List.foldr_cons, List.foldr_cons, List.foldr_nil, reaches_followedBy]
  congr 1
  funext mid
  rw [reaches_followedBy, reaches_fewest, List.flatMap_map]
  simp only [reaches_followedBy, ends, List.flatMap_singleton']

/-- Behind the opening match the shortest way leads to the first closing match, or to the end. -/
theorem head?_stopFrom (closing : Pattern) (number : Nat → Nat) (inside : mid.place.In text) :
    (mid.place.onward.flatMap fun place =>
      (choice [closing.renumber number, .assert .textEnd]).reaches { mid with place }).head?.map (·.place) =
      some (closing.stopFrom mid.place) := by
  -- At each place a closing match comes before the end of the text.
  have visits (place : Place) (placeInside : place.In text) :
      ((choice [closing.renumber number, .assert .textEnd]).reaches { mid with place }).head?.map (·.place) =
        ((closing.matchAt place).map (·.place)).or (if place.rest.isEmpty then some place else none) := by
    have closes := @places_renumber closing number { place } { mid with place } rfl
    have ends : (Pattern.assert .textEnd).reaches { mid with place } =
        if place.rest.isEmpty then [{ mid with place }] else [] := reaches_eq_outcomes rfl _
    rw [reaches_choice_assert, ends, List.head?_append, matchAt_eq_head?_reaches placeInside, ← List.head?_map,
      ← closes, List.head?_map]
    cases ((closing.renumber number).reaches { mid with place }).head? <;> cases place.rest.isEmpty <;> rfl
  rw [List.head?_flatMap, List.map_findSome?, stopFrom, firstMatch, List.map_findSome?]
  simp only [Function.comp_def, Option.map_map]
  rw [Place.findSome?_onward_congr inside visits, Place.findSome?_onward_or_last]

theorem matchAt_through_eq_none (closing : Pattern) (inside : place.In text)
    (nothing : opening.matchAt place = none) : (opening.through closing).matchAt place = none := by
  rw [matchAt_eq_head?_reaches inside, List.head?_eq_none_iff] at nothing
  rw [matchAt_eq_head?_reaches inside, reaches_through, nothing]
  rfl

/-- The closing match ends the token. The context is that of the opening match, unless the opening pattern has
no group and so the first group of the closing pattern is the first of all. -/
theorem exists_matchAt_through (closing : Pattern) (inside : place.In text)
    (isMatch : opening.matchAt place = some mid) :
    ∃ later, (opening.through closing).matchAt place = some later ∧
      later.place = closing.stopFrom mid.place ∧
      (closing.Labelled (1 ≤ ·) → 1 ≤ opening.lastGroup → later.context = mid.context) := by
  obtain ⟨taken, takes⟩ := (matchAt_bounds isMatch).1
  obtain ⟨later, isFirst, stops⟩ := Option.map_eq_some_iff.1
    (head?_stopFrom closing (· + opening.lastGroup) (takes.inside inside))
  rw [matchAt_eq_head?_reaches inside, List.head?_eq_some_iff] at isMatch
  obtain ⟨others, reaches⟩ := isMatch
  refine ⟨later, ?_, stops, fun labelled one => ?_⟩
  -- There is a way on from the preferred opening match, so no other is tried.
  · rw [matchAt_eq_head?_reaches inside, reaches_through, reaches, List.flatMap_cons, List.head?_append, isFirst]
    rfl
  · obtain ⟨there, _, known⟩ := List.mem_flatMap.1 (List.mem_of_head? isFirst)
    have shifted : (closing.renumber (· + opening.lastGroup)).Labelled (· ≠ 1) :=
      labelled_renumber labelled fun index atLeast => by omega
    have bare : (choice [closing.renumber (· + opening.lastGroup), .assert .textEnd]).Labelled (· ≠ 1) :=
      labelled_choice (List.forall_mem_cons.2 ⟨shifted, List.forall_mem_singleton.2 trivial⟩)
    have kept := context_of_mem_reaches bare known
    exact kept

end

end Pattern

end Highlighter
