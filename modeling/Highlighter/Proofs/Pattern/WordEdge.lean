import Highlighter.Proofs.Pattern.Cut
import Highlighter.Proofs.Pattern.Edges

/-!
Edges of words where a text is cut. With no word character before the part and none behind it, a word
begins or ends in the part where it does in the whole text (`Pattern.agrees_of_clear`). A pattern that
asks for such an edge on both sides of a word sees to that itself.
-/

set_option autoImplicit false

namespace Highlighter

theorem CharSet.isWord_of_has {c : Char} (has : (CharSet.word .ascii).Has c) :
    Unicode.isWord c = true := by
  obtain ⟨range, known, least, most⟩ := has
  simp only [CharSet.word, Unicode.asciiWordRanges, List.mem_cons, List.not_mem_nil, or_false] at known
  have isAscii : Unicode.isAsciiWord c = true := by
    delta Unicode.isAsciiWord Char.isAlphanum Char.isAlpha Char.isUpper Char.isLower
    simp only [Char.isDigit, Bool.or_eq_true, Bool.and_eq_true, decide_eq_true_eq, beq_iff_eq, ge_iff_le,
      UInt32.le_iff_toNat_le]
    rcases known with rfl | rfl | rfl | rfl
    · exact .inl (.inr ⟨least, most⟩)
    · exact .inl (.inl (.inl ⟨least, most⟩))
    · right
      apply Char.ext
      apply UInt32.toNat_inj.1
      exact Nat.le_antisymm most least
    · exact .inl (.inl (.inr ⟨least, most⟩))
  have small : c.toNat < 0x80 := by rcases known with rfl | rfl | rfl | rfl <;> omega
  rw [Unicode.isWord, if_pos small, isAscii]

namespace Pattern

open Anchor

variable {condition : Anchor} {marks : CharSet} {pattern : Pattern} {reach later : Reach}
  {start stop : Place}

/-- Each match begins where the condition holds. -/
def opensAt (condition : Anchor) : Pattern → Bool
  | .assert other => other = condition
  | .seq first _ => first.opensAt condition
  | _ => false

/-- Each match ends where the condition holds. -/
def closesAt (condition : Anchor) : Pattern → Bool
  | .assert other => other = condition
  | .seq _ second => second.closesAt condition
  | _ => false

/-- Each match has a mark in it. -/
def needs (marks : CharSet) : Pattern → Bool
  | .set chars => chars.within marks
  | .seq first second => first.needs marks || second.needs marks
  | _ => false

theorem mem_assert (known : later ∈ (Pattern.assert condition).outcomes reach) :
    later = reach ∧ condition.holds reach.place = true := by
  unfold outcomes at known
  split at known
  · next holds => exact ⟨List.mem_singleton.1 known, holds⟩
  · cases known

theorem mem_assert_self (holds : condition.holds reach.place = true) :
    reach ∈ (Pattern.assert condition).outcomes reach := by
  rw [outcomes, if_pos holds]
  exact List.mem_singleton_self reach

theorem holds_of_opensAt (opens : pattern.opensAt condition = true)
    (known : later ∈ pattern.outcomes reach) : condition.holds reach.place = true := by
  induction pattern generalizing later with
  | assert other =>
    cases of_decide_eq_true opens
    exact (mem_assert known).2
  | seq first second ihFirst _ =>
    obtain ⟨mid, inner, _⟩ := List.mem_flatMap.1 known
    exact ihFirst opens inner
  | empty | literal _ | set _ | group _ _ _ | alt _ _ _ _ | rounds _ _ _ _ _ => cases opens

theorem holds_of_closesAt (closes : pattern.closesAt condition = true)
    (known : later ∈ pattern.outcomes reach) : condition.holds later.place = true := by
  induction pattern generalizing reach with
  | assert other =>
    cases of_decide_eq_true closes
    obtain ⟨rfl, holds⟩ := mem_assert known
    exact holds
  | seq first second _ ihSecond =>
    obtain ⟨mid, _, rest⟩ := List.mem_flatMap.1 known
    exact ihSecond closes rest
  | empty | literal _ | set _ | group _ _ _ | alt _ _ _ _ | rounds _ _ _ _ _ => cases closes

theorem exists_of_needs (needed : pattern.needs marks = true)
    (known : later ∈ pattern.outcomes reach) : ∃ c ∈ reach.place.rest, marks.Has c := by
  induction pattern generalizing reach later with
  | set chars =>
    obtain ⟨c, rest, follows, contains, _⟩ := exists_of_behind? (Option.mem_toList.1 known)
    exact ⟨c, by simp [follows], CharSet.has_of_within needed contains⟩
  | seq first second ihFirst ihSecond =>
    obtain ⟨mid, inner, rest⟩ := List.mem_flatMap.1 known
    rcases Bool.or_eq_true_iff.1 needed with early | late
    · exact ihFirst early inner
    · obtain ⟨c, isLater, isMark⟩ := ihSecond late rest
      obtain ⟨taken, takes, _⟩ :=
        outcomes_carried (carries_takes fun _ => True) first.within_any inner
      refine ⟨c, ?_, isMark⟩
      rw [takes.split]
      exact List.mem_append_right taken isLater
  | empty | literal _ | assert _ | group _ _ _ | alt _ _ _ _ | rounds _ _ _ _ _ => cases needed

/-- No word goes on over either end of the part. -/
structure Clear (alphabet : Alphabet) (start stop : Place) : Prop where
  before : wordBefore alphabet start = false
  after : wordAfter alphabet stop = false

variable {alphabet : Alphabet} {place inner : Place}

theorem Clear.wordBefore_eq (clear : Clear alphabet start stop)
    (cut : Place.Cut start stop place inner) : wordBefore alphabet place = wordBefore alphabet inner := by
  obtain ⟨⟨taken, toPlace, _, before⟩, _⟩ := cut
  unfold wordBefore
  rw [before, toPlace.before]
  -- Only at its first place does the part know less of what comes before.
  cases taken.getLast? with
  | none => exact clear.before
  | some c => rfl

theorem Clear.wordAfter_eq (clear : Clear alphabet start stop)
    (cut : Place.Cut start stop place inner) : wordAfter alphabet place = wordAfter alphabet inner := by
  unfold wordAfter
  rw [cut.rest.split]
  -- And only at its last place of what comes behind.
  cases inner.rest with
  | nil => exact clear.after
  | cons c more => rfl

/-- The condition asks for an edge of a word, or for none. -/
def isEdge (alphabet : Alphabet) (condition : Anchor) : Bool :=
  condition = .wordEdge alphabet || condition = .noWordEdge alphabet

/-- Only what stands on both sides decides such a condition. -/
theorem holds_congr (edge : isEdge alphabet condition = true)
    (before : wordBefore alphabet place = wordBefore alphabet inner)
    (after : wordAfter alphabet place = wordAfter alphabet inner) :
    condition.holds place = condition.holds inner := by
  simp only [isEdge, Bool.or_eq_true, decide_eq_true_eq] at edge
  rcases edge with rfl | rfl
  · simp only [holds, before, after]
  · simp only [holds, before, after]

theorem agrees_of_clear (clear : Clear alphabet start stop)
    (edge : isEdge alphabet condition = true) : Agrees start stop condition :=
  fun _ _ cut => holds_congr edge (clear.wordBefore_eq cut) (clear.wordAfter_eq cut)

theorem trims_of_clear (advances : pattern.advances = true)
    (edges : pattern.anchors.all (isEdge alphabet) = true) (clear : Clear alphabet start stop) :
    Trims start stop pattern.outcomes := by
  apply trims_outcomes advances
  intro condition known
  exact agrees_of_clear clear (List.all_eq_true.1 edges condition known)

/-- Inside a word and at its end there is a word character before the place. -/
theorem wordBefore_of_takes {text taken : List Char} (takes : start.Takes taken stop)
    (isWord : ∀ c ∈ taken, alphabet.isWord c = true) (inside : start.In text) (placeInside : place.In text)
    (further : start.offset < place.offset) (notBehind : place.offset ≤ stop.offset) :
    wordBefore alphabet place = true := by
  obtain ⟨first, second, rfl, toPlace, _⟩ :=
    takes.exists_split inside placeInside (Nat.le_of_lt further) notBehind
  have nonempty := toPlace.ne_nil further
  rw [wordBefore, toPlace.before, List.getLast?_eq_some_getLast nonempty]
  exact isWord _ (List.mem_append_left second (List.getLast_mem nonempty))

/-- A word begins and ends at these places if no other goes on over them. -/
theorem holds_edges_iff {taken : List Char} (takes : start.Takes taken stop) (nonempty : taken ≠ [])
    (isWord : ∀ c ∈ taken, alphabet.isWord c = true) :
    ((Anchor.wordEdge alphabet).holds start = true ∧ (Anchor.wordEdge alphabet).holds stop = true) ↔
      Clear alphabet start stop := by
  have first : wordAfter alphabet start = true := by
    obtain ⟨c, more, rfl⟩ := List.exists_cons_of_ne_nil nonempty
    rw [wordAfter, takes.split]
    exact isWord c List.mem_cons_self
  have last : wordBefore alphabet stop = true := by
    rw [wordBefore, takes.before, List.getLast?_eq_some_getLast nonempty]
    exact isWord _ (List.getLast_mem nonempty)
  simp only [holds, first, last]
  exact ⟨fun ⟨opens, closes⟩ => ⟨by simpa using opens, by simpa using closes⟩,
    fun ⟨before, after⟩ => ⟨by simp [before], by simp [after]⟩⟩

/-- Each match is a word of ASCII, with edges asked for on both sides. -/
def isWord (pattern : Pattern) : Bool :=
  pattern.isSolid && pattern.staysIn (.word .ascii) && pattern.opensAt (.wordEdge .unicode) &&
    pattern.closesAt (.wordEdge .unicode)

/-- Such a word is clear of what stands around it. -/
theorem clear_of_isWord (word : pattern.isWord = true) (known : later ∈ pattern.outcomes reach) :
    Clear .unicode reach.place later.place := by
  simp only [Pattern.isWord, Bool.and_eq_true] at word
  obtain ⟨⟨⟨solid, stays⟩, opens⟩, closes⟩ := word
  obtain ⟨taken, takes, inWord⟩ := takes_of_staysIn stays known
  have nonempty : taken ≠ [] := by
    have further := offset_lt_of_isSolid solid known
    rintro rfl
    simp [takes.offset] at further
  have isWord (c : Char) (isTaken : c ∈ taken) : Alphabet.unicode.isWord c = true :=
    CharSet.isWord_of_has (inWord c isTaken)
  exact (holds_edges_iff takes nonempty isWord).1 ⟨holds_of_opensAt opens known, holds_of_closesAt closes known⟩

theorem wordAfter_of_startsIn (starts : pattern.startsIn (.word .ascii) = true)
    (known : later ∈ pattern.outcomes reach) : wordAfter .unicode reach.place = true := by
  obtain ⟨c, isHead, isWord⟩ := has_head_of_startsIn starts known
  rw [wordAfter, Option.mem_def.1 isHead]
  exact CharSet.isWord_of_has isWord

theorem wordBefore_of_endsIn (ends : pattern.endsIn (.word .ascii) = true)
    (known : later ∈ pattern.outcomes reach) : wordBefore .unicode later.place = true := by
  obtain ⟨c, isBefore, isWord⟩ := isBehind_of_endsIn ends known
  rw [wordBefore, Option.mem_def.1 isBefore]
  exact CharSet.isWord_of_has isWord

/-- At the first place of the part it is enough that no word goes on over it. -/
theorem holds_first {token : List Char} (edge : isEdge alphabet condition = true)
    (before : wordBefore alphabet start = false) (takes : start.Takes token stop)
    (nonempty : token ≠ []) : condition.holds start = condition.holds (.first token) := by
  apply holds_congr edge before
  obtain ⟨c, more, rfl⟩ := List.exists_cons_of_ne_nil nonempty
  rw [wordAfter, takes.split]
  rfl

end Pattern

end Highlighter
