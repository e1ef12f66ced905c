import Highlighter.Pattern.Reader
import Highlighter.Proofs.Fallible
import Highlighter.Proofs.Pattern.Reaches
import Highlighter.Proofs.Pattern.Taken

/-!
The numbers of groups. What is built from patterns has no groups but theirs, so in every pattern that can be
read groups are numbered from 1 on (`labelled_read`).
-/

set_option autoImplicit false

namespace Highlighter

namespace Pattern

/-- All groups have such numbers. -/
abbrev Labelled (groups : Nat → Prop) (pattern : Pattern) : Prop := pattern.Within (fun _ => True) groups

variable {groups : Nat → Prop}

section

variable {first second pattern part : Pattern} {items choices : List Pattern}

theorem labelled_ofSet (chars : CharSet) : (ofSet chars).Labelled groups := by
  unfold ofSet
  split <;> exact fun _ _ => trivial

theorem labelled_literalOf (mode : Mode) (c : Char) : (literalOf mode c).Labelled groups := by
  unfold literalOf
  split
  · exact labelled_ofSet _
  · exact fun _ _ => trivial

theorem labelled_atom (mode : Mode) (atom : Atom) : (atom.pattern mode).Labelled groups := by
  cases atom with
  | char c => exact labelled_literalOf mode c
  | set chars => exact labelled_ofSet chars
  | anchor condition => trivial

theorem labelled_followedBy (isFirst : first.Labelled groups) (isSecond : second.Labelled groups) :
    (first.followedBy second).Labelled groups := by
  fun_induction followedBy first second with
  | case1 => exact isSecond
  | case2 first inner second ihInner ih => exact ih isFirst.1 (ihInner isFirst.2 isSecond)
  | case3 => exact isFirst
  | case4 => exact fun _ _ => trivial
  | case5 => exact ⟨fun _ _ => trivial, isSecond.2⟩
  | case6 => exact ⟨isFirst, isSecond⟩

theorem labelled_sequence (labelled : ∀ item ∈ items, item.Labelled groups) :
    (sequence items).Labelled groups := by
  induction items with
  | nil => trivial
  | cons item items ih =>
    obtain ⟨isFirst, others⟩ := List.forall_mem_cons.1 labelled
    exact labelled_followedBy isFirst (ih others)

theorem labelled_of_mem_parts (labelled : pattern.Labelled groups) (known : part ∈ pattern.parts) :
    part.Labelled groups := by
  fun_induction parts pattern with
  | case1 => cases known
  | case2 first second ih =>
    rcases List.mem_cons.1 known with rfl | behind
    · exact labelled.1
    · exact ih labelled.2 behind
  | case3 => exact List.mem_singleton.1 known ▸ labelled

theorem labelled_of_mem_branches (labelled : pattern.Labelled groups) (known : part ∈ pattern.branches) :
    part.Labelled groups := by
  fun_induction branches pattern with
  | case1 first second ih =>
    rcases List.mem_cons.1 known with rfl | behind
    · exact labelled.1
    · exact ih labelled.2 behind
  | case2 => exact List.mem_singleton.1 known ▸ labelled

theorem labelled_alternatives (labelled : ∀ choice ∈ choices, choice.Labelled groups) :
    (alternatives choices).Labelled groups := by
  fun_induction alternatives choices with
  | case1 => exact fun _ _ => trivial
  | case2 only => exact labelled only List.mem_cons_self
  | case3 first others _ ih =>
    obtain ⟨isFirst, others⟩ := List.forall_mem_cons.1 labelled
    exact ⟨isFirst, ih others⟩

theorem labelled_of_unionOf? {union : Pattern} (isUnion : unionOf? choices = some union) :
    union.Labelled groups := by
  unfold unionOf? at isUnion
  split at isUnion
  · cases isUnion
    exact labelled_ofSet _
  · obtain ⟨sets, _, rfl⟩ := Option.map_eq_some_iff.1 isUnion
    exact labelled_ofSet _

theorem mem_of_mem_common {firsts seconds : List Pattern} (known : part ∈ common firsts seconds) :
    part ∈ firsts := by
  fun_induction common firsts seconds with
  | case1 _ _ _ ih => exact List.mem_cons.2 ((List.mem_cons.1 known).imp_right ih)
  | case2 => cases known
  | case3 => cases known

theorem mem_of_mem_foldl_common {parts : Pattern → List Pattern} {shared : List Pattern}
    (known : part ∈ choices.foldl (fun shared other => common shared (parts other)) shared) : part ∈ shared := by
  induction choices generalizing shared with
  | nil => exact known
  | cons other others ih => exact mem_of_mem_common (ih known)

theorem labelled_of_mem_sharedParts (labelled : ∀ choice ∈ choices, choice.Labelled groups)
    (known : part ∈ sharedParts choices) : part.Labelled groups := by
  cases choices with
  | nil => cases known
  | cons first others =>
    have isPart := mem_of_mem_foldl_common known
    dsimp only at isPart
    split at isPart
    · exact labelled_of_mem_parts (labelled _ List.mem_cons_self) isPart
    · cases isPart

theorem labelled_choose (fuel : Nat) (labelled : ∀ choice ∈ choices, choice.Labelled groups) :
    (choose fuel choices).Labelled groups := by
  induction fuel generalizing choices with
  | zero => exact labelled_alternatives labelled
  | succ fuel ih =>
    have flat : ∀ branch ∈ choices.flatMap branches, branch.Labelled groups := by
      intro branch known
      obtain ⟨choice, isChoice, isBranch⟩ := List.mem_flatMap.1 known
      exact labelled_of_mem_branches (labelled choice isChoice) isBranch
    unfold choose
    split
    next only same => exact flat only (same ▸ List.mem_cons_self)
    split
    next union _ isUnion => exact labelled_of_unionOf? isUnion
    next => exact labelled_alternatives flat
    next =>
      -- What is left of each branch behind the shared parts is made of its own parts.
      have others : ∀ other ∈ (choices.flatMap branches).map fun branch =>
          sequence (branch.parts.drop (sharedParts (choices.flatMap branches)).length),
          other.Labelled groups := by
        intro other known
        obtain ⟨branch, isBranch, rfl⟩ := List.mem_map.1 known
        exact labelled_sequence fun part isPart =>
          labelled_of_mem_parts (flat branch isBranch) (List.mem_of_mem_drop isPart)
      refine labelled_sequence fun item known => ?_
      rcases List.mem_append.1 known with isShared | isRest
      · exact labelled_of_mem_sharedParts flat isShared
      · exact List.mem_singleton.1 isRest ▸ ih others

theorem labelled_choice (labelled : ∀ choice ∈ choices, choice.Labelled groups) :
    (choice choices).Labelled groups := labelled_choose _ labelled

theorem labelled_repeated (least : Nat) (most : Option Nat) (eager : Bool) (labelled : pattern.Labelled groups) :
    (repeated least most eager pattern).Labelled groups := by
  unfold repeated
  split
  split
  · trivial
  split
  · exact labelled
  · exact labelled

end

/-! ### Numbers -/

/-- The greatest number of a group, or 0 if there is no group. -/
def lastGroup : Pattern → Nat
  | .empty | .literal _ | .set _ | .assert _ => 0
  | .group index body => max index body.lastGroup
  | .seq first second | .alt first second => max first.lastGroup second.lastGroup
  | .rounds _ _ _ body => body.lastGroup

theorem one_le_lastGroup {pattern : Pattern} (labelled : pattern.Labelled (1 ≤ ·))
    (has : pattern.hasGroup = true) : 1 ≤ pattern.lastGroup := by
  induction pattern with
  | empty | literal _ | set _ | assert _ => cases has
  | group index body _ => exact Nat.le_trans labelled.1 (Nat.le_max_left _ _)
  | rounds _ _ _ _ ih => exact ih labelled has
  | seq first second ihFirst ihSecond | alt first second ihFirst ihSecond =>
    rcases Bool.or_eq_true_iff.1 has with inFirst | inSecond
    · exact Nat.le_trans (ihFirst labelled.1 inFirst) (Nat.le_max_left _ _)
    · exact Nat.le_trans (ihSecond labelled.2 inSecond) (Nat.le_max_right _ _)

theorem labelled_renumber {number : Nat → Nat} {others : Nat → Prop} {pattern : Pattern}
    (labelled : pattern.Labelled groups) (becomes : ∀ index, groups index → others (number index)) :
    (pattern.renumber number).Labelled others := by
  induction pattern with
  | empty | assert _ => trivial
  | literal _ | set _ => exact fun _ _ => trivial
  | group index body ih => exact ⟨becomes index labelled.1, ih labelled.2⟩
  | rounds _ _ _ _ ih => exact ih labelled
  | seq _ _ ihFirst ihSecond | alt _ _ ihFirst ihSecond => exact ⟨ihFirst labelled.1, ihSecond labelled.2⟩

/-! ### Reading -/

namespace Reader

variable {items branches : List Item}

theorem labelled_of_mem_map (labelled : ∀ item ∈ items, item.pattern.Labelled groups) {pattern : Pattern}
    (known : pattern ∈ items.reverse.map (·.pattern)) : pattern.Labelled groups := by
  obtain ⟨item, isItem, rfl⟩ := List.mem_map.1 known
  exact labelled item (List.mem_reverse.1 isItem)

theorem labelled_sequenceOf (labelled : ∀ item ∈ items, item.pattern.Labelled groups) :
    (sequenceOf items).pattern.Labelled groups := by
  unfold sequenceOf
  split
  next => trivial
  next only => exact labelled only List.mem_cons_self
  next => exact labelled_sequence fun _ => labelled_of_mem_map labelled

theorem labelled_choiceOf (labelled : ∀ item ∈ items, item.pattern.Labelled groups) :
    (choiceOf items).pattern.Labelled groups := by
  unfold choiceOf
  split
  next => trivial
  next only => exact labelled only List.mem_cons_self
  next => exact labelled_choice fun _ => labelled_of_mem_map labelled

/-- A group that is opened has a number from 1 on. -/
def Opening.Numbered : Opening → Prop
  | .group index _ => 1 ≤ index
  | .plain _ | .switched _ => True

theorem numbered_capturing (reader : Reader) : (capturing reader).Numbered := Nat.le_add_left 1 _

theorem numbered_named (reader : Reader) (text : List Char) : Gives Opening.Numbered (named reader text) := by
  refine gives_bind fun _ _ => ?_
  dsimp only
  split
  · exact gives_error _
  · exact gives_pure (numbered_capturing _)

theorem numbered_opening (reader : Reader) (text : List Char) :
    Gives Opening.Numbered (opening reader text) := by
  unfold opening
  split
  case h_1 | h_2 | h_3 | h_4 => exact gives_error _
  case h_5 | h_6 => exact numbered_named _ _
  case h_7 =>
    refine gives_bind fun _ _ => ?_
    dsimp only
    split
    · split
      · exact gives_error _
      · exact gives_pure trivial
    · exact gives_pure trivial
    · exact gives_error _
  case h_8 => exact gives_pure (numbered_capturing _)

/-- The groups of what has been read are numbered from 1 on. -/
def Numbered (done : Item × Reader) : Prop := done.1.pattern.Labelled (1 ≤ ·)

/-- What stands in parentheses is read to its end, and what follows them goes on behind it. -/
theorem numbered_enclosed {outer fuel : Nat} {inner : Reader} {mode : Mode} {wrap : Pattern → Pattern}
    (inside : Gives Numbered (body (outer + 1) [] [] fuel inner))
    (wraps : ∀ pattern, pattern.Labelled (1 ≤ ·) → (wrap pattern).Labelled (1 ≤ ·))
    (onward : ∀ {item rest}, item.pattern.Labelled (1 ≤ ·) →
      Gives Numbered (body outer branches (item :: items) fuel rest)) : Gives Numbered (do
        if maxNesting < outer then throw Fault.tooDeep
        let (item, after) ← body (outer + 1) [] [] fuel inner
        match after.rest with
        | ')' :: rest =>
          let item : Item := ⟨wrap item.pattern, item.depth + 1, false⟩
          body outer branches (item :: items) fuel { after with rest, mode }
        | _ => throw Fault.unclosedGroup) := by
  dsimp only
  split
  · exact gives_error _
  refine gives_bind fun (item, after) isRead => ?_
  dsimp only
  split
  · exact onward (wraps item.pattern (inside _ isRead))
  · exact gives_error _

theorem numbered_body {outer fuel : Nat} {reader : Reader}
    (isBranches : ∀ item ∈ branches, item.pattern.Labelled (1 ≤ ·))
    (isItems : ∀ item ∈ items, item.pattern.Labelled (1 ≤ ·)) :
    Gives Numbered (body outer branches items fuel reader) := by
  induction fuel generalizing outer branches items reader with
  | zero => exact gives_error _
  | succ fuel ih =>
    have onward {item : Item} {rest : Reader} (labelled : item.pattern.Labelled (1 ≤ ·)) :
        Gives Numbered (body outer branches (item :: items) fuel rest) :=
      ih isBranches (List.forall_mem_cons.2 ⟨labelled, isItems⟩)
    have inside (inner : Reader) : Gives Numbered (body (outer + 1) [] [] fuel inner) :=
      ih (List.forall_mem_nil _) (List.forall_mem_nil _)
    have complete : ∀ item ∈ sequenceOf items :: branches, item.pattern.Labelled (1 ≤ ·) :=
      List.forall_mem_cons.2 ⟨labelled_sequenceOf isItems, isBranches⟩
    have again {last : Item} {others : List Item} {rest : Reader} (same : items = last :: others) (least : Nat)
        (most : Option Nat) (eager : Bool) : Gives Numbered <|
          body outer branches (⟨repeated least most eager last.pattern, last.depth + 1, false⟩ :: others) fuel
            rest := by
      obtain ⟨isLast, isOthers⟩ := List.forall_mem_cons.1 (same ▸ isItems)
      exact ih isBranches (List.forall_mem_cons.2 ⟨labelled_repeated least most eager isLast, isOthers⟩)
    unfold body
    dsimp only
    split
    case h_1 | h_2 => exact gives_pure (labelled_choiceOf complete)
    case h_3 => exact ih complete (List.forall_mem_nil _)
    case h_4 =>
      refine gives_bind fun begun isOpening => ?_
      have numbered := numbered_opening _ _ begun isOpening
      split
      case h_1 => exact onward trivial
      case h_2 => exact numbered_enclosed (inside _) (fun _ labelled => labelled) onward
      case h_3 => exact numbered_enclosed (inside _) (fun _ labelled => ⟨numbered, labelled⟩) onward
    case h_5 => exact gives_bind fun _ _ => onward (labelled_ofSet _)
    case h_6 | h_7 | h_8 =>
      split
      · split
        · exact gives_error _
        · exact again rfl _ _ _
      · exact gives_error _
    case h_9 =>
      split
      · exact gives_error _
      refine gives_bind fun _ _ => ?_
      split
      · split
        · exact gives_error _
        · exact again rfl _ _ _
      · exact gives_error _
    case h_10 => exact gives_bind fun _ _ => onward (labelled_ofSet _)
    case h_11 => exact onward trivial
    case h_12 => exact onward trivial
    case h_13 => exact gives_bind fun _ _ => onward (labelled_atom _ _)
    case h_14 => exact onward (labelled_literalOf _ _)

end Reader

theorem labelled_read (text : List Char) (ignoreCase : Bool) :
    Gives (·.Labelled (1 ≤ ·)) (read text ignoreCase) := by
  unfold read
  refine gives_bind fun (item, after) isBody => ?_
  have labelled := Reader.numbered_body (List.forall_mem_nil _) (List.forall_mem_nil _) _ isBody
  dsimp only
  split
  · exact gives_error _
  split
  · exact gives_error _
  split
  · exact gives_error _
  · exact gives_pure labelled

end Pattern

end Highlighter
