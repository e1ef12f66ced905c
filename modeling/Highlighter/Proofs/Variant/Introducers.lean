import Highlighter.Proofs.Pattern.Language
import Highlighter.Proofs.Unicode.Ranges
import Highlighter.Proofs.Variant.ClassNames

/-!
What a class name follows. An introducer is a declaring word with blanks behind it, or a catch with blanks and an
opening parenthesis. The text before a class name ends with one (`Variant.introducer_before_className`), and where one
is followed by a character of a name, a class name begins unless a comment or a string goes on over the place
(`Variant.className_behind_introducer`). No introducer is passed over: it is letters and then marks, so no name begins
inside one (`Variant.inOrder_classNameRule`), and it ends where what follows is no mark (`Introducer.eq_of_append`).
-/

set_option autoImplicit false

namespace Highlighter

namespace Variant

open Pattern

/-! ### Introducers -/

def declaringWords : List String :=
  ["class", "interface", "extends", "implements", "trait", "instanceof", "new"]

/-- This letter, capital or small. The long s is a small letter of its own. -/
def lettersFor (letter : Char) : List Char :=
  letter.toUpper :: letter :: if letter = 's' then ['\u017f'] else []

/-- The same word, in capital or small letters. -/
def SameLetters (written word : List Char) : Prop :=
  List.Forall₂ (fun c letter => c ∈ lettersFor letter) written word

instance (written word : List Char) : Decidable (SameLetters written word) :=
  inferInstanceAs (Decidable (List.Forall₂ _ _ _))

def AreBlanks (gap : List Char) : Prop := gap ≠ [] ∧ ∀ c ∈ gap, Unicode.isBlank c = true

/-- What a class name follows, given the character before that. No word goes on before a declaring word, but one may
go on before a catch. -/
inductive Introducer (before : Option Char) : List Char → Prop where
  | declaring {word : String} {written gap : List Char} (known : word ∈ declaringWords)
      (whole : before.any Unicode.isWord = false) (same : SameLetters written word.toList)
      (blank : AreBlanks gap) : Introducer before (written ++ gap)
  | catching {written gap : List Char} (same : SameLetters written "catch".toList) (blank : AreBlanks gap) :
      Introducer before (written ++ (gap ++ ['(']))

variable {variant : Variant} {text read lead other rest others written gap : List Char} {before : Option Char}
  {word : String} {reach mid later : Reach} {span : Span} {found : Match} {place : Place}

/-! ### Words in any case -/

def letterSet (letter : Char) : CharSet := ⟨(lettersFor letter).map fun c => (c.toNat, c.toNat)⟩

def anyCase (letters : List Char) : Pattern :=
  Pattern.sequence (letters.map fun letter => .set (letterSet letter))

theorem contains_letterSet (letter : Char) : (letterSet letter).contains = (lettersFor letter).contains := by
  refine CharSet.contains_letters _ ?_
  have order := toNat_toUpper_le letter
  unfold lettersFor
  split
  · next isS =>
    subst isS
    decide
  · simpa using order

theorem inAnyCase_eq (known : word ∈ "catch" :: declaringWords) :
    inAnyCase word.toList = anyCase word.toList := by
  have small : (("catch" :: declaringWords).all fun word => word.toList.all fun letter =>
      ((letter.toNat - 32, letter.toNat - 32) :: (letter.toNat, letter.toNat) ::
        if letter = 's' then [(383, 383)] else []) == (letterSet letter).ranges) = true := by
    decide +kernel
  unfold inAnyCase anyCase
  congr 1
  refine List.map_congr_left fun letter isLetter => ?_
  have same := List.all_eq_true.1 (List.all_eq_true.1 small word known) letter isLetter
  rw [beq_iff_eq.1 same]

theorem outcomes_anyCase_cons (letter : Char) (letters : List Char) (reach : Reach) :
    (anyCase (letter :: letters)).outcomes reach =
      (Pattern.seq (.set (letterSet letter)) (anyCase letters)).outcomes reach :=
  outcomes_followedBy _ _ reach

theorem exists_written {letters : List Char} (known : later ∈ (anyCase letters).outcomes reach) :
    ∃ written, SameLetters written letters ∧ reach.place.Takes written later.place := by
  induction letters generalizing reach with
  | nil =>
    obtain rfl := List.mem_singleton.1 known
    exact ⟨[], .nil, .refl _⟩
  | cons letter letters ih =>
    rw [outcomes_anyCase_cons] at known
    obtain ⟨mid, isFirst, behind⟩ := List.mem_flatMap.1 known
    obtain ⟨c, rest, follows, contains, rfl⟩ := exists_of_behind? (Option.mem_toList.1 isFirst)
    obtain ⟨written, same, takes⟩ := ih behind
    rw [contains_letterSet, List.contains_iff_mem] at contains
    exact ⟨c :: written, .cons contains same, (Place.takes_past follows).trans takes⟩

theorem exists_mem_letters {letters : List Char} (same : SameLetters written letters)
    (follows : reach.place.rest = written ++ rest) :
    ∃ later ∈ (anyCase letters).outcomes reach, reach.place.Takes written later.place := by
  induction same generalizing reach with
  | nil => exact ⟨reach, List.mem_singleton_self reach, .refl _⟩
  | @cons c letter written letters isLetter same ih =>
    have contains : (letterSet letter).contains c = true := by
      rwa [contains_letterSet, List.contains_iff_mem]
    obtain ⟨later, known, takes⟩ := @ih { reach with place := reach.place.past c (written ++ rest) } rfl
    refine ⟨later, ?_, (Place.takes_past follows).trans takes⟩
    rw [outcomes_anyCase_cons]
    exact List.mem_flatMap.2 ⟨_, Option.mem_toList.2 (behind?_eq_some follows contains), known⟩

/-! ### Blanks -/

theorem isBlank_iff_has (c : Char) : Unicode.isBlank c = true ↔ blanks.Has c := by
  simp only [Unicode.isBlank_iff, Unicode.blankRanges, List.mem_cons, List.not_mem_nil, or_false, exists_eq_or_imp,
    exists_eq_left, blanks, CharSet.has_cons, CharSet.not_has_nil]

theorem contains_blanks : blanks.contains = Unicode.isBlank :=
  CharSet.contains_eq (by decide) isBlank_iff_has

theorem exists_gap (known : later ∈ (several blanks).outcomes reach) :
    ∃ gap, AreBlanks gap ∧ reach.place.Takes gap later.place := by
  have stays : (several blanks).staysIn blanks = true := by decide
  obtain ⟨gap, takes, blank⟩ := takes_of_staysIn stays known
  have further := offset_lt_of_isSolid (by decide) known
  exact ⟨gap, ⟨takes.ne_nil further, fun c isTaken => (isBlank_iff_has c).2 (blank c isTaken)⟩, takes⟩

theorem exists_mem_gap (blank : AreBlanks gap) (ends : EndsRun Unicode.isBlank rest)
    (follows : reach.place.rest = gap ++ rest) :
    ∃ later ∈ (several blanks).outcomes reach, reach.place.Takes gap later.place := by
  have prefers : PrefersAt (several blanks) (Lexer.several Unicode.isBlank) reach := prefersAt_several contains_blanks
  obtain ⟨nonempty, all⟩ := blank
  obtain ⟨c, others, rfl⟩ := List.exists_cons_of_ne_nil nonempty
  have isRun : Lexer.several Unicode.isBlank reach.place.rest = some (c :: others) := by
    rw [follows, List.cons_append, Lexer.several_cons (all c List.mem_cons_self), ← List.cons_append,
      takeWhile_run all ends]
  obtain ⟨later, isFirst, takes⟩ := prefers.takes _ isRun
  exact ⟨later, List.mem_of_head? isFirst, takes⟩

/-! ### The context of class names -/

def declaringLead : Pattern :=
  .seq edge (.seq (alternatives (declaringWords.map fun word => inAnyCase word.toList)) (several blanks))

def catchLead : Pattern := .seq (inAnyCase "catch".toList) (.seq (several blanks) (.literal ['(']))

theorem outcomes_classNameLead (reach : Reach) :
    classNameLead.outcomes reach = declaringLead.outcomes reach ++ catchLead.outcomes reach :=
  congrArg (declaringLead.outcomes reach ++ ·) (outcomes_followedBy _ _ reach)

/-- What the pattern takes as context is an introducer. -/
theorem exists_introducer (known : mid ∈ classNameLead.outcomes reach) :
    ∃ lead, Introducer reach.place.before lead ∧ reach.place.Takes lead mid.place := by
  rw [outcomes_classNameLead] at known
  rcases List.mem_append.1 known with declaring | catching
  · obtain ⟨first, atEdge, behind⟩ := List.mem_flatMap.1 declaring
    obtain ⟨second, inWords, inGap⟩ := List.mem_flatMap.1 behind
    obtain ⟨rfl, holds⟩ := mem_assert atEdge
    have after := wordAfter_of_startsIn (by decide) inWords
    have whole : Anchor.wordBefore .unicode first.place = false := by simpa [Anchor.holds, after] using holds
    obtain ⟨_, isChoice, inWord⟩ := mem_alternatives.1 inWords
    obtain ⟨word, isWord, rfl⟩ := List.mem_map.1 isChoice
    rw [inAnyCase_eq (List.mem_cons_of_mem _ isWord)] at inWord
    obtain ⟨written, same, toGap⟩ := exists_written inWord
    obtain ⟨gap, blank, toMid⟩ := exists_gap inGap
    exact ⟨_, .declaring isWord whole same blank, toGap.trans toMid⟩
  · obtain ⟨first, inWord, behind⟩ := List.mem_flatMap.1 catching
    obtain ⟨second, inGap, isOpening⟩ := List.mem_flatMap.1 behind
    rw [inAnyCase_eq List.mem_cons_self] at inWord
    obtain ⟨written, same, toGap⟩ := exists_written inWord
    obtain ⟨gap, blank, toOpening⟩ := exists_gap inGap
    exact ⟨_, .catching same blank, toGap.trans (toOpening.trans (takes_of_literal isOpening))⟩

/-- An introducer is a context that the pattern has, if the blanks of a declaring word end with it. -/
theorem exists_mem_classNameLead (introducer : Introducer reach.place.before lead)
    (ends : EndsRun Unicode.isBlank rest) (follows : reach.place.rest = lead ++ rest) :
    ∃ mid ∈ classNameLead.outcomes reach, reach.place.Takes lead mid.place := by
  rw [outcomes_classNameLead]
  cases introducer with
  | @declaring word written gap isWord whole same blank =>
    rw [List.append_assoc] at follows
    obtain ⟨first, inWord, toGap⟩ := exists_mem_letters same follows
    rw [← inAnyCase_eq (List.mem_cons_of_mem _ isWord)] at inWord
    have inWords : first ∈ (alternatives (declaringWords.map fun word => inAnyCase word.toList)).outcomes reach :=
      mem_alternatives.2 ⟨_, List.mem_map.2 ⟨word, isWord, rfl⟩, inWord⟩
    have behind := List.append_cancel_left (toGap.split.symm.trans follows)
    obtain ⟨mid, inGap, toMid⟩ := exists_mem_gap blank ends behind
    have atEdge : reach ∈ edge.outcomes reach := by
      refine mem_assert_self ?_
      have before : Anchor.wordBefore .unicode reach.place = false := whole
      rw [Anchor.holds, before, wordAfter_of_startsIn (by decide) inWords]
      rfl
    refine ⟨mid, List.mem_append_left _ ?_, toGap.trans toMid⟩
    exact List.mem_flatMap.2 ⟨reach, atEdge, List.mem_flatMap.2 ⟨first, inWords, inGap⟩⟩
  | @catching written gap same blank =>
    rw [List.append_assoc, List.append_assoc] at follows
    obtain ⟨first, inWord, toGap⟩ := exists_mem_letters same follows
    rw [← inAnyCase_eq List.mem_cons_self] at inWord
    have behind := List.append_cancel_left (toGap.split.symm.trans follows)
    obtain ⟨second, inGap, toOpening⟩ := exists_mem_gap blank (endsRun_cons (by decide)) behind
    have opens := List.append_cancel_left (toOpening.split.symm.trans behind)
    obtain ⟨mid, isOpening⟩ := exists_mem_literal opens
    refine ⟨mid, List.mem_append_right _ ?_, toGap.trans (toOpening.trans (takes_of_literal isOpening))⟩
    exact List.mem_flatMap.2 ⟨first, inWord, List.mem_flatMap.2 ⟨second, inGap, isOpening⟩⟩

/-! ### Letters and marks -/

theorem contains_marks_of_inClassName {c : Char} (isOne : inClassName c = true) : marks.contains c = false :=
  Bool.eq_false_iff.2 fun isMark => not_mark_of_inClassName isOne (CharSet.has_of_contains isMark)

theorem mark_of_isBlank {c : Char} (blank : Unicode.isBlank c = true) : marks.contains c = true := by
  rw [← contains_blanks] at blank
  rw [CharSet.contains_iff_has (by decide)]
  exact CharSet.has_of_within (by decide) blank

theorem SameLetters.exists_letter {letters : List Char} (same : SameLetters written letters) {c : Char}
    (known : c ∈ written) : ∃ letter ∈ letters, c ∈ lettersFor letter := by
  induction same with
  | nil => cases known
  | @cons _ letter _ letters isLetter _ ih =>
    rcases List.mem_cons.1 known with rfl | later
    · exact ⟨letter, List.mem_cons_self, isLetter⟩
    · obtain ⟨other, isOther, inOther⟩ := ih later
      exact ⟨other, List.mem_cons_of_mem letter isOther, inOther⟩

theorem not_mark_of_sameLetters (known : word ∈ "catch" :: declaringWords)
    (same : SameLetters written word.toList) : ∀ c ∈ written, marks.contains c = false := by
  have letters : (("catch" :: declaringWords).all fun word => word.toList.all fun letter =>
      (lettersFor letter).all fun c => !marks.contains c) = true := by
    decide +kernel
  intro c isWritten
  obtain ⟨letter, isLetter, isForm⟩ := same.exists_letter isWritten
  have noMarks := List.all_eq_true.1 (List.all_eq_true.1 letters word known) letter isLetter
  simpa using List.all_eq_true.1 noMarks c isForm

/-- An introducer is letters and then marks. -/
theorem Introducer.exists_split (introducer : Introducer before lead) :
    ∃ written gap, lead = written ++ gap ∧ gap ≠ [] ∧ (∀ c ∈ written, marks.contains c = false) ∧
      ∀ c ∈ gap, marks.contains c = true := by
  cases introducer with
  | @declaring word written gap isWord _ same blank =>
    refine ⟨written, gap, rfl, blank.1, not_mark_of_sameLetters (List.mem_cons_of_mem _ isWord) same, ?_⟩
    exact fun c isGap => mark_of_isBlank (blank.2 c isGap)
  | @catching written gap same blank =>
    refine ⟨written, gap ++ ['('], rfl, by simp, not_mark_of_sameLetters List.mem_cons_self same, ?_⟩
    refine List.forall_mem_append.2 ⟨fun c isGap => mark_of_isBlank (blank.2 c isGap), ?_⟩
    exact List.forall_mem_singleton.2 (by decide)

theorem Introducer.eq_of_append (introducer : Introducer before lead) (introducerOther : Introducer before other)
    (ends : EndsRun marks.contains rest) (endsOther : EndsRun marks.contains others)
    (same : lead ++ rest = other ++ others) : lead = other := by
  obtain ⟨written, gap, rfl, nonempty, letters, isGap⟩ := introducer.exists_split
  obtain ⟨writtenOther, gapOther, rfl, nonemptyOther, lettersOther, isGapOther⟩ := introducerOther.exists_split
  have stops {gap rest : List Char} (nonempty : gap ≠ []) (isGap : ∀ c ∈ gap, marks.contains c = true) :
      EndsRun (!marks.contains ·) (gap ++ rest) := by
    obtain ⟨c, gap, rfl⟩ := List.exists_cons_of_ne_nil nonempty
    exact endsRun_cons (by simp [isGap c List.mem_cons_self])
  rw [List.append_assoc, List.append_assoc] at same
  obtain ⟨rfl, behind⟩ := run_inj (fun c isWritten => by simp [letters c isWritten])
    (fun c isWritten => by simp [lettersOther c isWritten]) (stops nonempty isGap) (stops nonemptyOther isGapOther)
    same
  rw [(run_inj isGap isGapOther ends endsOther behind).1]

/-- Behind a mark there is nothing else in an introducer. -/
theorem Introducer.mark_of_mark {first second : List Char} (introducer : Introducer before (first ++ second))
    {c : Char} (isLast : first.getLast? = some c) (isMark : marks.contains c = true) :
    ∀ d ∈ second, marks.contains d = true := by
  obtain ⟨written, gap, split, _, letters, isGap⟩ := introducer.exists_split
  rcases List.append_eq_append_iff.1 split with ⟨more, rfl, _⟩ | ⟨more, rfl, rfl⟩
  · have isWritten : c ∈ first ++ more := List.mem_append_left more (List.mem_of_getLast? isLast)
    cases (letters c isWritten).symm.trans isMark
  · exact fun d isSecond => isGap d (List.mem_append_right more isSecond)

theorem Introducer.isMarked (introducer : Introducer before lead) :
    (Place.behind (read ++ lead) rest).IsMarked marks := by
  obtain ⟨written, gap, rfl, nonempty, _, isGap⟩ := introducer.exists_split
  refine .inr ⟨gap.getLast nonempty, ?_, CharSet.has_of_contains (isGap _ (List.getLast_mem nonempty))⟩
  simp [Place.behind, List.getLast?_eq_some_getLast nonempty]

/-! ### Where class names begin -/

theorem mark_before_className (inside : found.context.In text)
    (isMatch : classNameRule.freshMatch found.context = some found) :
    ∃ c ∈ found.start.before, marks.contains c = true := by
  obtain ⟨mid, inLead, _, _, isStart, _⟩ := leads_classNameRule.exists_context inside isMatch
  have ends : classNameLead.endsIn marks = true := by decide
  obtain ⟨c, isBefore, isMark⟩ := isBehind_of_endsIn ends inLead
  rw [isStart]
  exact ⟨c, isBefore, (CharSet.contains_iff_has (by decide)).2 isMark⟩

theorem ends_of_name (known : later ∈ (several nameChars).outcomes reach) :
    EndsRun marks.contains reach.place.rest := by
  have starts : (several nameChars).startsIn nameChars = true := by decide
  obtain ⟨c, isHead, isName⟩ := has_head_of_startsIn starts known
  intro d isHeadToo
  obtain rfl : c = d := Option.some.inj (isHead.symm.trans isHeadToo)
  apply contains_marks_of_inClassName
  rw [← contains_nameChars]
  exact (CharSet.contains_iff_has (by decide)).2 isName

/-- Inside an introducer no class name begins: it would be letters behind a mark. -/
theorem inOrder_classNameRule : classNameRule.InOrder := by
  refine leads_classNameRule.inOrder_of_outside ?_
  intro text cursor mid found inside inLead foundInside isMatch earlier
  obtain ⟨lead, introducer, toMid⟩ := exists_introducer inLead
  obtain ⟨other, inOther, later, isFirst, isStart, _⟩ := leads_classNameRule.exists_context foundInside isMatch
  obtain ⟨_, _, toOther⟩ := exists_introducer inOther
  obtain ⟨c, isBefore, isMark⟩ := mark_before_className foundInside isMatch
  rw [isStart] at isBefore ⊢
  have further := Nat.lt_of_lt_of_le earlier toOther.le
  refine Nat.le_of_not_lt fun before => ?_
  -- The place where the name begins would cut the introducer in two, behind a mark.
  obtain ⟨first, second, rfl, toStart, toEnd⟩ :=
    toMid.exists_split inside (toOther.inside foundInside) (Nat.le_of_lt further) (Nat.le_of_lt before)
  rw [toStart.before, List.getLast?_eq_some_getLast (toStart.ne_nil further), Option.some_or] at isBefore
  obtain ⟨d, more, rfl⟩ := List.exists_cons_of_ne_nil (toEnd.ne_nil before)
  have notMark := ends_of_name (List.mem_of_head? isFirst) d (by rw [toEnd.split]; rfl)
  have isMarkToo := introducer.mark_of_mark (List.getLast?_eq_some_getLast _) (Option.some.inj isBefore ▸ isMark) d
    List.mem_cons_self
  cases notMark.symm.trans isMarkToo

theorem reaches_classNameRule (introducer : Introducer read.getLast? lead)
    (opens : rest.head?.any inClassName = true) :
    classNameRule.Reaches (read ++ (lead ++ rest)) (.behind (read ++ lead) rest) := by
  obtain ⟨c, others, rfl, isOne⟩ := any_head?_eq_true_iff.1 opens
  have ends : EndsRun marks.contains (c :: others) := endsRun_cons (contains_marks_of_inClassName isOne)
  have endsBlank : EndsRun Unicode.isBlank (c :: others) := by
    refine endsRun_cons (Bool.eq_false_iff.2 fun blank => ?_)
    cases (contains_marks_of_inClassName isOne).symm.trans (mark_of_isBlank blank)
  have follows : ({ place := .behind read (lead ++ c :: others) } : Reach).place.rest = lead ++ c :: others := rfl
  obtain ⟨mid, inLead, toMid⟩ := exists_mem_classNameLead introducer endsBlank follows
  have behind : mid.place.rest = c :: others := List.append_cancel_left toMid.split.symm
  have isRun : Lexer.several inClassName mid.place.rest = some ((c :: others).takeWhile inClassName) := by
    rw [behind, Lexer.several_cons isOne]
  obtain ⟨later, isFirst, _⟩ := (prefersAt_name { mid with context := some mid.place }).takes _ isRun
  refine leads_classNameRule.reaches_of_sole inOrder_classNameRule (Place.behind_in read (lead ++ c :: others)) inLead
    (List.mem_of_head? isFirst) fun otherMid inOther later inBody => ?_
  -- What the pattern can take from here as context is an introducer too, and there is only one.
  obtain ⟨other, introducerOther, toOther⟩ := exists_introducer inOther
  obtain rfl := introducer.eq_of_append introducerOther ends (ends_of_name inBody) toOther.split
  rw [toOther.eq_behind, ← List.append_cancel_left toOther.split]

/-- The text before a class name ends with an introducer. -/
theorem introducer_before_className (variant : Variant) (text : List Char) :
    ∀ span ∈ Span.preorderAll (variant.table.classify text), span.category = .className →
      ∃ read lead rest, text = read ++ (lead ++ rest) ∧ byteLength (read ++ lead) = span.start ∧
        Introducer read.getLast? lead := by
  intro span known isName
  obtain ⟨_, found, ⟨inside, isMatch⟩, rfl⟩ := exists_of_className known isName
  obtain ⟨mid, inLead, _, _, isStart, _⟩ := leads_classNameRule.exists_context inside isMatch
  obtain ⟨lead, introducer, toMid⟩ := exists_introducer inLead
  obtain ⟨read, split, length, before⟩ := inside
  refine ⟨read, lead, mid.place.rest, by rw [split, toMid.split], ?_, before ▸ introducer⟩
  rw [start_spanOf, isStart, toMid.offset, byteLength_append, length]

theorem introducer_before_className_new :
    ⟨.className, 4, 5, []⟩ ∈ Span.preorderAll (v1.table.classify ['n', 'e', 'w', ' ', 'a']) ∧
      ∃ read lead rest, ['n', 'e', 'w', ' ', 'a'] = read ++ (lead ++ rest) ∧ byteLength (read ++ lead) = 4 ∧
        Introducer read.getLast? lead := by
  have spans : v1.table.classify ['n', 'e', 'w', ' ', 'a'] = [⟨.className, 4, 5, []⟩] := by
    rw [RuleTable.classify_of_rules v1.rules_table]
    decide +kernel
  have known : ⟨.className, 4, 5, []⟩ ∈ Span.preorderAll (v1.table.classify ['n', 'e', 'w', ' ', 'a']) := by
    rw [spans]
    exact List.mem_cons_self
  exact ⟨known, introducer_before_className v1 ['n', 'e', 'w', ' ', 'a'] _ known rfl⟩

theorem exists_first_of_sameLetters (known : word ∈ "catch" :: declaringWords)
    (same : SameLetters written word.toList) : ∃ c more, written = c :: more ∧ c.isAlpha = true := by
  have letters : (("catch" :: declaringWords).all fun word => word.toList.head?.any fun letter =>
      (lettersFor letter).all Char.isAlpha) = true := by
    decide +kernel
  have isFirst := List.all_eq_true.1 letters word known
  generalize word.toList = spelled at isFirst same
  cases same with
  | nil => cases isFirst
  | cons isLetter _ => exact ⟨_, _, rfl, List.all_eq_true.1 isFirst _ isLetter⟩

theorem Introducer.exists_first (introducer : Introducer before lead) :
    ∃ c more, lead = c :: more ∧ c.isAlpha = true := by
  cases introducer with
  | declaring isWord _ same _ =>
    obtain ⟨c, more, rfl, isAlpha⟩ := exists_first_of_sameLetters (List.mem_cons_of_mem _ isWord) same
    exact ⟨c, _, rfl, isAlpha⟩
  | catching same _ =>
    obtain ⟨c, more, rfl, isAlpha⟩ := exists_first_of_sameLetters List.mem_cons_self same
    exact ⟨c, _, rfl, isAlpha⟩

/-- A catch introduces a class name even where it is the end of another word. -/
theorem className_behind_end_of_word :
    ∃ span ∈ Span.preorderAll (v1.table.classify ['_', 'c', 'a', 't', 'c', 'h', ' ', '(', 'E']),
      span.category = .className ∧ ∀ read lead rest,
        ['_', 'c', 'a', 't', 'c', 'h', ' ', '(', 'E'] = read ++ (lead ++ rest) →
        byteLength (read ++ lead) = span.start → Introducer read.getLast? lead →
          read.getLast?.any Unicode.isWord = true := by
  have spans : v1.table.classify ['_', 'c', 'a', 't', 'c', 'h', ' ', '(', 'E'] =
      [⟨.punctuation, 7, 8, []⟩, ⟨.className, 8, 9, []⟩] := by
    rw [RuleTable.classify_of_rules v1.rules_table]
    decide +kernel
  rw [spans]
  refine ⟨⟨.className, 8, 9, []⟩, by decide, rfl, ?_⟩
  intro read lead rest split (length : byteLength (read ++ lead) = 8) introducer
  obtain ⟨c, more, rfl, isAlpha⟩ := introducer.exists_first
  -- Where a letter stands before the parenthesis, it stands behind a word character.
  have places : ∀ count < 9, byteLength (['_', 'c', 'a', 't', 'c', 'h', ' ', '(', 'E'].take count) < 8 →
      (['_', 'c', 'a', 't', 'c', 'h', ' ', '(', 'E'].drop count).head?.any Char.isAlpha = true →
        (['_', 'c', 'a', 't', 'c', 'h', ' ', '(', 'E'].take count).getLast?.any Unicode.isWord = true := by
    decide +kernel
  have shorter := congrArg List.length split
  have nonempty := utf8Size_ne_zero c
  rw [byteLength_append, byteLength_cons] at length
  simp only [List.length_append, List.length_cons, List.length_nil] at shorter
  have here := places read.length (by omega)
  rw [split, List.take_left, List.drop_left] at here
  exact here (by omega) isAlpha

/-- Of the spans that go on over the start of a name behind an introducer, each is a comment or a string. -/
theorem category_of_surrounds (introducer : Introducer read.getLast? lead)
    (known : span ∈ variant.table.classify (read ++ (lead ++ rest)))
    (surrounds : span.Surrounds (byteLength (read ++ lead))) :
    span.category = .comment ∨ span.category = .string := by
  have placeInside : (Place.behind (read ++ lead) rest).In (read ++ (lead ++ rest)) := Place.behind_append_in _ _ _
  have marked : (Place.behind (read ++ lead) rest).IsMarked marks := introducer.isMarked
  obtain ⟨rule, isRule, found, ⟨inside, isMatch⟩, rfl⟩ := exists_match_of_mem_classify known
  obtain ⟨further, before⟩ := surrounds
  rw [start_spanOf] at further
  rw [stop_spanOf] at before
  rw [rules_table] at isRule
  rcases List.mem_append.1 isRule with isFirst | isOther
  · simp only [firstRules, List.mem_cons, List.not_mem_nil, or_false] at isFirst
    rcases isFirst with rfl | rfl | rfl | rfl
    · exact .inl rfl
    · exact .inl rfl
    · exact .inr rfl
    · have stops := stop_le_of_className ⟨inside, isMatch⟩ placeInside marked further
      exact absurd before (Nat.not_lt_of_le stops)
  · have stops := stop_le_of_isMarked isOther inside isMatch placeInside marked further
    exact absurd before (Nat.not_lt_of_le stops)

/-- Behind an introducer a name is a class name, unless a comment or a string goes on over its start. -/
theorem className_behind_introducer (variant : Variant) (read lead rest : List Char)
    (introducer : Introducer read.getLast? lead) (opens : rest.head?.any isAsciiNameChar = true) :
    ∃ span ∈ variant.table.classify (read ++ (lead ++ rest)),
      span.category = .className ∧ span.start = byteLength (read ++ lead) ∨
        (span.category = .comment ∨ span.category = .string) ∧ span.Surrounds (byteLength (read ++ lead)) := by
  -- A span goes on over the start of the name, or one begins there.
  by_cases covered : ∃ span ∈ variant.table.classify (read ++ (lead ++ rest)),
    span.Surrounds (byteLength (read ++ lead))
  · obtain ⟨span, known, surrounds⟩ := covered
    exact ⟨span, known, .inr ⟨category_of_surrounds introducer known surrounds, surrounds⟩⟩
  obtain ⟨c, others, rfl, isOne⟩ := any_head?_eq_true_iff.1 opens
  have reaches : classNameRule.Reaches (read ++ (lead ++ c :: others)) (.behind (read ++ lead) (c :: others)) :=
    reaches_classNameRule introducer (Bool.or_eq_true_iff.2 (.inl isOne))
  have inside : (Place.behind (read ++ lead) (c :: others)).In (read ++ (lead ++ c :: others)) :=
    Place.behind_append_in _ _ _
  obtain ⟨rule, isRule, found, matched, isStart, known⟩ := exists_span_of_reaches variant.rules_table
    (fun _ => not_greedy_of_otherRules) (by simp [firstRules]) inside reaches
    fun span known surrounds => covered ⟨span, known, surrounds⟩
  obtain ⟨d, isHead, cases⟩ := exists_head_of_matches isRule matched
  rw [isStart] at isHead
  obtain rfl : c = d := Option.some.inj isHead
  refine ⟨_, known, .inl ⟨?_, by rw [start_spanOf, isStart]; rfl⟩⟩
  -- Comments and strings begin otherwise.
  rcases cases with ⟨_, rfl⟩ | ⟨_, rfl | rfl⟩ | ⟨isName, _⟩
  · exact absurd isOne (by decide)
  · exact absurd isOne (by decide)
  · exact absurd isOne (by decide)
  · exact isName

theorem className_behind_introducer_new :
    Introducer (some ' ') ['n', 'e', 'w', ' '] ∧ ['a'].head?.any isAsciiNameChar = true ∧
      ∃ span ∈ v1.table.classify (['c', 'l', 'a', 's', 's', ' '] ++ (['n', 'e', 'w', ' '] ++ ['a'])),
        span.category = .className ∧ span.start = 10 ∨
          (span.category = .comment ∨ span.category = .string) ∧ span.Surrounds 10 := by
  have blank : AreBlanks [' '] := ⟨List.cons_ne_nil _ _, List.forall_mem_singleton.2 (by decide)⟩
  have introducer : Introducer (some ' ') (['n', 'e', 'w'] ++ [' ']) :=
    @Introducer.declaring _ "new" _ _ (by decide) (by decide) (by decide) blank
  exact ⟨introducer, by decide,
    className_behind_introducer v1 ['c', 'l', 'a', 's', 's', ' '] ['n', 'e', 'w', ' '] ['a'] introducer (by decide)⟩

end Variant

end Highlighter
