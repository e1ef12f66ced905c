import Mathlib.Data.List.DropRight
import Highlighter.Proofs.Unicode.Ranges
import Highlighter.Proofs.Variant.Grammar

/-!
The grammar of comments. Wherever no span goes on over the place, a comment begins if and only if the grammar
has one there, and it ends where the grammar says (`Variant.comments_iff`). What precedes a line comment is
read backward by the grammar and forward by the pattern: the two agree because the blanks in question are
followed by a slash (`Variant.exists_mem_lineLead`).
-/

set_option autoImplicit false

namespace Highlighter

namespace Variant

/-! ### The grammar -/

/-- White space but a carriage return or line feed. -/
def isBlankInLine (c : Char) : Bool := Unicode.isBlank c && c != '\r' && c != '\n'

def isLineEnd (c : Char) : Bool := c == '\r' || c == '\n' || c == '\u2028' || c == '\u2029'

/-- All through the first `*/`, or all that there is. -/
def throughClosing : List Char → List Char
  | '*' :: '/' :: _ => ['*', '/']
  | c :: rest => c :: throughClosing rest
  | [] => []

/-- A line comment does not begin behind a colon, with or without blanks in between, nor right behind a
backslash. -/
def allowsLine (read : List Char) : Bool :=
  let before := read.rdropWhile isBlankInLine
  before.getLast? != some ':' && (before != read || read.getLast? != some '\\')

/-- A block comment goes on to its closing, a line comment to the end of the line. -/
def comment? : Grammar
  | read, '/' :: '*' :: rest =>
    if read.getLast? = some '\\' then none else some ('/' :: '*' :: throughClosing rest)
  | read, '/' :: '/' :: rest =>
    if allowsLine read then some ('/' :: '/' :: rest.takeWhile (!isLineEnd ·)) else none
  | _, _ => none

/-- What the leading context of a line comment takes behind this character. -/
inductive LineLead : Option Char → List Char → Prop where
  | first {blanks : List Char} (blank : ∀ c ∈ blanks, isBlankInLine c = true) : LineLead none blanks
  | behind {before : Option Char} {c : Char} {blanks : List Char} (dark : isBlankInLine c = false)
      (noColon : c ≠ ':') (noEscape : blanks = [] → c ≠ '\\')
      (blank : ∀ d ∈ blanks, isBlankInLine d = true) : LineLead before (c :: blanks)

open Pattern

variable {variant : Variant} {text read blanks rest : List Char} {c : Char} {reach mid later : Reach}
  {found : Match} {place : Place}

/-! ### Blanks -/

theorem isBlankInLine_iff : isBlankInLine c = true ↔ blanksInLine.Has c := by
  simp only [isBlankInLine, Bool.and_eq_true, bne_iff_ne, ne_eq, Unicode.isBlank_iff, eq_iff_toNat_eq,
    Char.reduceToNat, Unicode.blankRanges, List.mem_cons, List.not_mem_nil, or_false, exists_eq_or_imp,
    exists_eq_left, blanksInLine, CharSet.has_cons, CharSet.not_has_nil]
  omega

theorem contains_blanksInLine : blanksInLine.contains = isBlankInLine := by
  funext c
  rw [Bool.eq_iff_iff, isBlankInLine_iff, CharSet.contains_iff_has (by decide)]

theorem isBlankInLine_eq_false {chars : CharSet} (apart : chars.apart blanksInLine = true)
    (contains : chars.contains c = true) : isBlankInLine c = false := by
  rw [Bool.eq_false_iff, ne_eq, isBlankInLine_iff]
  exact CharSet.not_has_of_apart apart contains

theorem takes_blanks {pattern : Pattern} (stays : pattern.staysIn blanksInLine = true)
    (known : later ∈ pattern.outcomes reach) :
    ∃ taken, reach.place.Takes taken later.place ∧ ∀ c ∈ taken, isBlankInLine c = true := by
  obtain ⟨taken, takes, blank⟩ := takes_of_staysIn stays known
  exact ⟨taken, takes, fun c known => isBlankInLine_iff.2 (blank c known)⟩

/-- Where no blank follows, the blanks are the longest run of them. -/
theorem takeWhile_blanks (blank : ∀ c ∈ blanks, isBlankInLine c = true) (dark : isBlankInLine c = false) :
    (blanks ++ c :: rest).takeWhile blanksInLine.contains = blanks := by
  rw [contains_blanksInLine]
  exact takeWhile_run blank (endsRun_cons dark)

/-! ### Contexts of line comments -/

theorem allowsLine_of_blank (blank : ∀ c ∈ read, isBlankInLine c = true) : allowsLine read = true := by
  have all : read.rdropWhile isBlankInLine = [] := List.rdropWhile_eq_nil_iff.2 blank
  unfold allowsLine
  rw [all]
  cases read with
  | nil => rfl
  | cons c read => simp

theorem allowsLine_append_cons (dark : isBlankInLine c = false)
    (blank : ∀ d ∈ blanks, isBlankInLine d = true) :
    allowsLine (read ++ c :: blanks) = true ↔ c ≠ ':' ∧ (blanks = [] → c ≠ '\\') := by
  have before : (read ++ c :: blanks).rdropWhile isBlankInLine = read ++ [c] := by
    rw [List.rdropWhile, List.reverse_append, List.reverse_cons, List.append_assoc,
      List.dropWhile_append_of_pos (by simpa using blank), List.singleton_append,
      List.dropWhile_cons_of_neg (by simp [dark]), List.reverse_cons, List.reverse_reverse]
  unfold allowsLine
  rw [before]
  cases blanks with
  | nil => simp
  | cons d blanks => simp

theorem LineLead.allowsLine {taken : List Char} (lead : LineLead read.getLast? taken) :
    allowsLine (read ++ taken) = true := by
  generalize isLast : read.getLast? = last at lead
  cases lead with
  | first blank =>
    rw [List.getLast?_eq_none_iff.1 isLast, List.nil_append]
    exact allowsLine_of_blank blank
  | behind dark noColon noEscape blank =>
    exact (allowsLine_append_cons dark blank).2 ⟨noColon, noEscape⟩

/-- Leads from one place are the same where slashes follow, unless the text begins with three of them. -/
theorem LineLead.eq_of_slashes {before : Option Char} {taken others : List Char} (lead : LineLead before taken)
    (dark : isBlankInLine c = false) (blank : ∀ d ∈ blanks, isBlankInLine d = true)
    (noSlash : before = none → c :: blanks ≠ ['/'])
    (same : c :: (blanks ++ '/' :: rest) = taken ++ '/' :: '/' :: others) : taken = c :: blanks := by
  have slash : isBlankInLine '/' = false := by decide
  cases lead with
  | first blankOther =>
    cases taken with
    | nil =>
      obtain ⟨rfl, behind⟩ := List.cons.inj same
      cases blanks with
      | nil => exact absurd rfl (noSlash rfl)
      | cons d blanks =>
        obtain ⟨rfl, _⟩ := List.cons.inj behind
        exact absurd (blank _ List.mem_cons_self) (by simp [slash])
    | cons d taken =>
      obtain ⟨rfl, _⟩ := List.cons.inj same
      exact absurd (blankOther c List.mem_cons_self) (by simp [dark])
  | behind _ _ _ blankOther =>
    obtain ⟨rfl, behind⟩ := List.cons.inj same
    rw [(run_inj blank blankOther (endsRun_cons slash) (endsRun_cons slash) behind).1]

/-- Back from here there is nothing but blanks, or else a last character that is none. -/
theorem exists_blanks (read : List Char) : (∀ c ∈ read, isBlankInLine c = true) ∨
    ∃ before c blanks, read = before ++ c :: blanks ∧ isBlankInLine c = false ∧
      ∀ d ∈ blanks, isBlankInLine d = true := by
  rcases List.eq_nil_or_concat (read.rdropWhile isBlankInLine) with all | ⟨before, c, ends⟩
  · exact .inl (List.rdropWhile_eq_nil_iff.1 all)
  · refine .inr ⟨before, c, read.rtakeWhile isBlankInLine, ?_, ?_, fun d => List.mem_rtakeWhile_imp⟩
    · rw [← List.concat_append, ← ends, List.rdropWhile_append_rtakeWhile]
    · have last := List.rdropWhile_last_not isBlankInLine read (by simp [ends])
      simpa [ends] using last

theorem lineLead_of_behind? {chars : CharSet} (apart : chars.apart blanksInLine = true)
    (noColon : chars.contains ':' = false) (isFirst : mid ∈ (behind? chars.contains reach).toList)
    (takes : mid.place.Takes blanks later.place) (blank : ∀ c ∈ blanks, isBlankInLine c = true)
    (noEscape : blanks = [] → chars.contains '\\' = false) :
    ∃ taken, reach.place.Takes taken later.place ∧ LineLead reach.place.before taken := by
  obtain ⟨c, rest, follows, contains, rfl⟩ := exists_of_behind? (Option.mem_toList.1 isFirst)
  refine ⟨c :: blanks, (Place.takes_past follows).trans takes,
    .behind (isBlankInLine_eq_false apart contains) ?_ ?_ blank⟩
  · rintro rfl
    rw [noColon] at contains
    cases contains
  · rintro nothing rfl
    rw [noEscape nothing] at contains
    cases contains

theorem exists_lineLead (known : mid ∈ lineLead.outcomes reach) :
    ∃ taken, reach.place.Takes taken mid.place ∧ LineLead reach.place.before taken := by
  rcases List.mem_append.1 known with start | known
  · obtain ⟨first, isFirst, inBlanks⟩ := List.mem_flatMap.1 start
    unfold outcomes at isFirst
    split at isFirst
    · next holds =>
      cases List.mem_singleton.1 isFirst
      obtain ⟨taken, takes, blank⟩ := takes_blanks (by decide) inBlanks
      refine ⟨taken, takes, ?_⟩
      rw [Option.isNone_iff_eq_none.1 holds]
      exact .first blank
    · cases isFirst
  rcases List.mem_append.1 known with lineBreak | known
  · obtain ⟨first, isBreak, inBlanks⟩ := List.mem_flatMap.1 lineBreak
    obtain ⟨taken, takes, blank⟩ := takes_blanks (by decide) inBlanks
    exact lineLead_of_behind? (by decide) (by decide) isBreak takes blank fun _ => by decide
  rcases List.mem_append.1 known with dark | dark
  · exact lineLead_of_behind? (by decide) (by decide) dark (.refl _) (List.forall_mem_nil _) fun _ => by decide
  · obtain ⟨first, isDark, inBlanks⟩ := List.mem_flatMap.1 dark
    obtain ⟨taken, takes, blank⟩ := takes_blanks (by decide) inBlanks
    refine lineLead_of_behind? (by decide) (by decide) isDark takes blank fun nothing => ?_
    -- There is a blank at least.
    have further := offset_lt_of_isSolid (by decide) inBlanks
    simp [takes.offset, nothing] at further

theorem exists_run_of_blanks (follows : reach.place.rest = blanks ++ c :: rest)
    (blank : ∀ d ∈ blanks, isBlankInLine d = true) (dark : isBlankInLine c = false) :
    ∃ later, ((many blanksInLine).outcomes reach).head? = some later ∧
      reach.place.Takes blanks later.place := by
  obtain ⟨later, isFirst, run⟩ := head?_run blanksInLine reach
  rw [TakesRun, follows, takeWhile_blanks blank dark] at run
  exact ⟨later, isFirst, run⟩

/-- A lead that a slash follows is one of those that the pattern has. -/
theorem exists_mem_lineLead (follows : reach.place.rest = c :: (blanks ++ '/' :: rest))
    (dark : isBlankInLine c = false) (noColon : c ≠ ':') (noEscape : blanks = [] → c ≠ '\\')
    (blank : ∀ d ∈ blanks, isBlankInLine d = true) :
    ∃ mid ∈ lineLead.outcomes reach, reach.place.Takes (c :: blanks) mid.place := by
  have slash : isBlankInLine '/' = false := by decide
  have noBlank : ¬blanksInLine.Has c := by simp [← isBlankInLine_iff, dark]
  have bound := toNat_le c
  simp only [ne_eq, eq_iff_toNat_eq, Char.reduceToNat] at noColon noEscape
  simp only [blanksInLine, CharSet.has_cons, CharSet.not_has_nil, or_false] at noBlank
  have toBlanks : reach.place.Takes [c] (reach.place.past c (blanks ++ '/' :: rest)) :=
    Place.takes_past follows
  have behind : ({ reach with place := reach.place.past c (blanks ++ '/' :: rest) } : Reach).place.rest =
      blanks ++ '/' :: rest := rfl
  by_cases isBreak : c.toNat = 10 ∨ c.toNat = 13
  · obtain ⟨later, isFirst, takes⟩ := exists_run_of_blanks behind blank slash
    refine ⟨later, List.mem_append_right _ (List.mem_append_left _ (List.mem_flatMap.2 ?_)),
      toBlanks.trans takes⟩
    refine ⟨_, Option.mem_toList.2 (behind?_eq_some follows ?_), List.mem_of_head? isFirst⟩
    rw [CharSet.contains_iff_has (by decide)]
    simp only [CharSet.has_cons, CharSet.not_has_nil, or_false]
    omega
  cases blanks with
  | nil =>
    refine ⟨_, List.mem_append_right _ (List.mem_append_right _ (List.mem_append_left _
      (Option.mem_toList.2 (behind?_eq_some follows ?_)))), toBlanks⟩
    rw [CharSet.contains_iff_has (by decide)]
    simp only [CharSet.has_cons, CharSet.not_has_nil, or_false]
    have noEscape := noEscape rfl
    omega
  | cons d blanks =>
    have isBlank : blanksInLine.contains d = true := by
      rw [contains_blanksInLine]
      exact blank d List.mem_cons_self
    obtain ⟨later, isFirst, run⟩ := head?_run_of_contains behind isBlank
    rw [TakesRun, behind, takeWhile_blanks blank slash] at run
    refine ⟨later, List.mem_append_right _ (List.mem_append_right _ (List.mem_append_right _
      (List.mem_flatMap.2 ?_))), toBlanks.trans run⟩
    refine ⟨_, Option.mem_toList.2 (behind?_eq_some follows ?_), List.mem_of_head? isFirst⟩
    rw [CharSet.contains_iff_has (by decide)]
    simp only [CharSet.has_cons, CharSet.not_has_nil, or_false]
    omega

/-! ### Tokens -/

theorem leads_blockRule : blockRule.Leads blockLead (.literal ['/', '*']) :=
  ⟨rfl, rfl, by decide, rfl, by decide⟩

theorem leads_lineRule : lineRule.Leads lineLead lineToken := ⟨rfl, rfl, by decide, rfl, by decide⟩

theorem inOrder_blockRule : blockRule.InOrder :=
  leads_blockRule.inOrder_of_trails .empty (.single '/') (by decide) (by decide) (by decide)

theorem inOrder_lineRule : lineRule.InOrder :=
  leads_lineRule.inOrder_of_trails blanksInLine (.single '/') (by decide) (by decide) (by decide)

theorem firstMatch_closing (inside : place.In text) (follows : place.rest = c :: rest) :
    blockClosing.firstMatch place = ((through? ['*', '/'] { place }).map (place, ·)).or
      (blockClosing.firstMatch (place.past c rest)) := by
  unfold firstMatch
  rw [Place.onward_of_cons follows, List.findSome?_cons, matchAt_eq_head? (by decide) inside]
  unfold blockClosing outcomes
  rw [Option.head?_toList]
  cases through? ['*', '/'] { place } <;> rfl

theorem freshStop_blockRule (reach : Reach) : blockRule.freshStop reach =
    match blockClosing.firstMatch reach.place with
    | none => reach.place.last
    | some (_, later) => later.place := rfl

/-- The closing pattern finds the first closing. -/
theorem takes_throughClosing (inside : reach.place.In text) :
    reach.place.Takes (throughClosing reach.place.rest) (blockRule.freshStop reach) := by
  generalize isRest : reach.place.rest = rest
  induction rest generalizing reach with
  | nil =>
    have nothing : blockClosing.firstMatch reach.place = none := by
      unfold firstMatch
      rw [Place.onward_of_end isRest, List.findSome?_singleton, matchAt_eq_head? (by decide) inside]
      simp [blockClosing, outcomes, through?, behind?, isRest]
    have all := reach.place.takes_last
    rw [isRest] at all
    rwa [freshStop_blockRule, nothing]
  | cons c rest ih =>
    rw [freshStop_blockRule, firstMatch_closing inside isRest]
    by_cases closes : ∃ more, c :: rest = ['*', '/'] ++ more
    · obtain ⟨more, split⟩ := closes
      obtain ⟨later, isLater, takes⟩ := @exists_through? { place := reach.place } _ _ (isRest.trans split)
      rw [isLater, split]
      exact takes
    · have nothing : through? ['*', '/'] { place := reach.place } = none := by
        rw [Option.eq_none_iff_forall_ne_some]
        intro later isLater
        exact closes ⟨_, isRest.symm.trans (takes_of_through? isLater).split⟩
      have further : throughClosing (c :: rest) = c :: throughClosing rest := by
        rw [throughClosing]
        rintro more rfl rfl
        exact closes ⟨more, rfl⟩
      have toStop := @ih { place := reach.place.past c rest } (inside.past isRest) rfl
      have last : reach.place.last = (reach.place.past c rest).last := by
        rw [Place.last, isRest]
        rfl
      rw [nothing, further, last]
      exact (Place.takes_past isRest).trans toStop

theorem exists_blockLead (known : mid ∈ blockLead.outcomes reach) :
    mid.place = reach.place ∧ reach.place.before = none ∨
      ∃ c rest, reach.place.rest = c :: rest ∧ c ≠ '\\' ∧ mid.place = reach.place.past c rest := by
  rcases List.mem_append.1 known with start | behind
  · unfold outcomes at start
    split at start
    · next holds =>
      cases List.mem_singleton.1 start
      exact .inl ⟨rfl, Option.isNone_iff_eq_none.1 holds⟩
    · cases start
  · obtain ⟨c, rest, follows, contains, rfl⟩ := exists_of_behind? (Option.mem_toList.1 behind)
    refine .inr ⟨c, rest, follows, ?_, rfl⟩
    rintro rfl
    exact absurd contains (by decide)

theorem finds_of_blockRule (matched : Matches blockRule text found) :
    Grammar.Finds comment? text found.start.offset found.stop.offset := by
  obtain ⟨inside, isMatch⟩ := matched
  obtain ⟨mid, inLead, later, inBody, isStart, isStop⟩ := leads_blockRule.exists_context inside isMatch
  have opens : mid.place.Takes ['/', '*'] later.place :=
    (takes_of_literal (List.mem_of_head? inBody) :)
  have unescaped : mid.place.before ≠ some '\\' := by
    rcases exists_blockLead inLead with ⟨same, isFirst⟩ | ⟨c, rest, _, unescaped, isMid⟩
    · rw [same, isFirst]
      nofun
    · rw [isMid]
      exact fun same => unescaped (Option.some.inj same)
  have midInside : mid.place.In text := isStart ▸ RuleOf.start_in_of_freshMatch inside isMatch
  have toStop := opens.trans (takes_throughClosing (opens.inside midInside))
  obtain ⟨read, split, length, before⟩ := midInside
  rw [isStart, isStop]
  refine ⟨read, _, _, split, length.symm, ?_, toStop.offset.symm⟩
  rw [opens.split]
  exact if_neg (before ▸ unescaped)

theorem contains_inLine :
    (⟨[(0, 9), (11, 12), (14, 8231), (8234, 1114111)]⟩ : CharSet).contains = (!isLineEnd ·) := by
  funext c
  have bound := toNat_le c
  rw [Bool.eq_iff_iff, CharSet.contains_iff_has (by decide)]
  simp only [CharSet.has_cons, CharSet.not_has_nil, or_false, isLineEnd, Bool.not_eq_true',
    Bool.or_eq_false_iff, beq_eq_false_iff_ne, ne_eq, eq_iff_toNat_eq, Char.reduceToNat]
  omega

theorem takes_lineToken (isFirst : (lineToken.outcomes reach).head? = some later) :
    ∃ rest, reach.place.rest = '/' :: '/' :: rest ∧
      reach.place.Takes ('/' :: '/' :: rest.takeWhile (!isLineEnd ·)) later.place := by
  unfold lineToken outcomes at isFirst
  rw [List.head?_flatMap] at isFirst
  obtain ⟨slashes, known, inRun⟩ := List.exists_of_findSome?_eq_some isFirst
  have opens := takes_of_literal known
  obtain ⟨other, isOther, run⟩ :=
    head?_run ⟨[(0, 9), (11, 12), (14, 8231), (8234, 1114111)]⟩ slashes
  cases isOther.symm.trans inRun
  rw [TakesRun, contains_inLine] at run
  exact ⟨_, opens.split, opens.trans run⟩

theorem finds_of_lineRule (matched : Matches lineRule text found) :
    Grammar.Finds comment? text found.start.offset found.stop.offset := by
  obtain ⟨inside, isMatch⟩ := matched
  obtain ⟨mid, inLead, later, inBody, isStart, isStop⟩ := leads_lineRule.exists_context inside isMatch
  obtain ⟨taken, takes, lead⟩ := exists_lineLead inLead
  obtain ⟨rest, follows, toStop⟩ := takes_lineToken inBody
  obtain ⟨read, split, length, before⟩ := inside
  rw [before] at lead
  rw [RuleOf.freshStop_of_no_closing rfl] at isStop
  rw [isStart, isStop]
  refine ⟨read ++ taken, mid.place.rest, _, ?_, ?_, ?_, toStop.offset.symm⟩
  · rw [split, takes.split, List.append_assoc]
  · rw [takes.offset, length, byteLength_append]
  · rw [follows]
    exact if_pos lead.allowsLine

theorem finds_comment {rule : Rule} (known : rule ∈ firstRules) (isComment : rule.category = .comment)
    (matched : Matches rule text found) :
    Grammar.Finds comment? text found.start.offset found.stop.offset := by
  simp only [firstRules, List.mem_cons, List.not_mem_nil, or_false] at known
  rcases known with rfl | rfl | rfl | rfl
  · exact finds_of_blockRule matched
  · exact finds_of_lineRule matched
  · cases isComment
  · cases isComment

/-! ### Places of comments -/

theorem mem_blockLead (unescaped : c ≠ '\\') (follows : reach.place.rest = c :: rest) :
    { reach with place := reach.place.past c rest } ∈ blockLead.outcomes reach := by
  refine List.mem_append_right _ (Option.mem_toList.2 (behind?_eq_some follows ?_))
  have bound := toNat_le c
  simp only [ne_eq, eq_iff_toNat_eq, Char.reduceToNat] at unescaped
  rw [CharSet.contains_iff_has (by decide)]
  simp only [CharSet.has_cons, CharSet.not_has_nil, or_false]
  omega

theorem reaches_blockRule (unescaped : read.getLast? ≠ some '\\') :
    blockRule.Reaches (read ++ '/' :: '*' :: rest) (.behind read ('/' :: '*' :: rest)) := by
  obtain ⟨later, isLater⟩ : ∃ later, later ∈ (literal ['/', '*']).outcomes
      ⟨.behind read ('/' :: '*' :: rest), some (.behind read ('/' :: '*' :: rest))⟩ :=
    exists_mem_literal rfl
  rcases List.eq_nil_or_concat read with rfl | ⟨read, c, rfl⟩
  · have inLead : { place := .behind [] ('/' :: '*' :: rest) } ∈
        blockLead.outcomes { place := .behind [] ('/' :: '*' :: rest) } :=
      List.mem_append_left _ (List.mem_singleton.2 rfl)
    refine leads_blockRule.reaches_of_sole inOrder_blockRule (Place.behind_in _ _) inLead isLater ?_
    intro other inLead later inBody
    rcases exists_blockLead inLead with ⟨same, _⟩ | ⟨c, others, follows, _, isOther⟩
    · exact same
    · have opens := (takes_of_literal inBody).split
      cases follows
      rw [isOther] at opens
      cases opens
  · -- The character before the place is the context.
    rw [List.concat_eq_append] at *
    have cursorInside : (Place.behind read (c :: '/' :: '*' :: rest)).In
        (read ++ [c] ++ '/' :: '*' :: rest) := by
      rw [List.append_assoc]
      exact Place.behind_in _ _
    rw [List.getLast?_concat] at unescaped
    have inLead : { place := (Place.behind read (c :: '/' :: '*' :: rest)).past c ('/' :: '*' :: rest) } ∈
        blockLead.outcomes { place := .behind read (c :: '/' :: '*' :: rest) } :=
      mem_blockLead (fun same => unescaped (congrArg some same)) rfl
    rw [Place.past_behind] at inLead
    refine leads_blockRule.reaches_of_sole inOrder_blockRule cursorInside inLead isLater ?_
    intro other inLead later inBody
    have opens := (takes_of_literal inBody).split
    rcases exists_blockLead inLead with ⟨same, _⟩ | ⟨d, others, follows, _, isOther⟩
    · rw [same] at opens
      cases opens
    · cases follows
      rw [isOther, Place.past_behind]

theorem exists_lineToken (opens : reach.place.rest = '/' :: '/' :: rest) :
    ∃ later, (lineToken.outcomes reach).head? = some later := by
  obtain ⟨slashes, isSlashes⟩ : ∃ later, later ∈ (literal ['/', '/']).outcomes reach :=
    exists_mem_literal opens
  obtain ⟨later, isLater, _⟩ :=
    head?_run ⟨[(0, 9), (11, 12), (14, 8231), (8234, 1114111)]⟩ slashes
  have known : later ∈ lineToken.outcomes reach :=
    List.mem_flatMap.2 ⟨slashes, isSlashes, List.mem_of_head? isLater⟩
  obtain ⟨first, others, outcomes⟩ := List.exists_cons_of_ne_nil (List.ne_nil_of_mem known)
  exact ⟨first, by rw [outcomes, List.head?_cons]⟩

/-- From the start of the text, the preferred lead is the longest. -/
theorem reaches_lineRule_of_blank (blank : ∀ c ∈ read, isBlankInLine c = true) :
    lineRule.Reaches (read ++ '/' :: '/' :: rest) (.behind read ('/' :: '/' :: rest)) := by
  have start : ({ place := .behind [] (read ++ '/' :: '/' :: rest) } : Reach).place.rest =
      read ++ '/' :: '/' :: rest := rfl
  obtain ⟨mid, isMid, takes⟩ := exists_run_of_blanks start blank (by decide)
  have isLead : (lineLead.outcomes { place := .behind [] (read ++ '/' :: '/' :: rest) }).head? =
      some mid := by
    have first : ((Pattern.assert .textStart).seq (many blanksInLine)).outcomes
        { place := .behind [] (read ++ '/' :: '/' :: rest) } =
          (many blanksInLine).outcomes { place := .behind [] (read ++ '/' :: '/' :: rest) } :=
      List.flatMap_singleton _ _
    rw [lineLead, outcomes, first, List.head?_append, isMid, Option.some_or]
  have ends : mid.place.rest = '/' :: '/' :: rest := List.append_cancel_left takes.split.symm
  have atPlace : mid.place = .behind read ('/' :: '/' :: rest) := by
    rw [takes.eq_behind, ends, List.nil_append]
  obtain ⟨later, isLater⟩ : ∃ later,
      (lineToken.outcomes { mid with context := some mid.place }).head? = some later :=
    exists_lineToken ends
  have inside : (Place.behind [] (read ++ '/' :: '/' :: rest)).In (read ++ '/' :: '/' :: rest) :=
    Place.behind_in [] _
  rw [← atPlace]
  exact leads_lineRule.reaches_of_first inOrder_lineRule inside isLead isLater

theorem reaches_lineRule (allowed : allowsLine read = true) (noSlash : read ≠ ['/']) :
    lineRule.Reaches (read ++ '/' :: '/' :: rest) (.behind read ('/' :: '/' :: rest)) := by
  have slash : isBlankInLine '/' = false := by decide
  rcases exists_blanks read with blank | ⟨before, c, blanks, rfl, dark, blank⟩
  · exact reaches_lineRule_of_blank blank
  obtain ⟨noColon, noEscape⟩ := (allowsLine_append_cons dark blank).1 allowed
  have cursorInside : (Place.behind before (c :: (blanks ++ '/' :: '/' :: rest))).In
      (before ++ c :: blanks ++ '/' :: '/' :: rest) := by
    rw [List.append_assoc]
    exact Place.behind_in _ _
  obtain ⟨mid, inLead, takes⟩ : ∃ mid ∈ lineLead.outcomes
      { place := .behind before (c :: (blanks ++ '/' :: '/' :: rest)) }, _ :=
    exists_mem_lineLead rfl dark noColon noEscape blank
  have ends : mid.place.rest = '/' :: '/' :: rest := List.append_cancel_left takes.split.symm
  obtain ⟨later, isLater⟩ : ∃ later,
      (lineToken.outcomes { mid with context := some mid.place }).head? = some later :=
    exists_lineToken ends
  refine leads_lineRule.reaches_of_sole inOrder_lineRule cursorInside inLead (List.mem_of_head? isLater) ?_
  intro other inOther later inBody
  obtain ⟨taken, takesOther, lead⟩ := exists_lineLead inOther
  obtain ⟨slashes, isSlashes, _⟩ := List.mem_flatMap.1 inBody
  have opens : other.place.rest = '/' :: '/' :: slashes.place.rest := (takes_of_literal isSlashes).split
  have split : c :: (blanks ++ '/' :: '/' :: rest) = taken ++ '/' :: '/' :: slashes.place.rest :=
    opens ▸ takesOther.split
  have same : taken = c :: blanks := by
    refine lead.eq_of_slashes dark blank ?_ split
    rintro start alone
    rw [List.getLast?_eq_none_iff.1 start, alone] at noSlash
    exact noSlash rfl
  rw [same] at split
  have behind : '/' :: '/' :: rest = '/' :: '/' :: slashes.place.rest :=
    @List.append_cancel_left _ (c :: blanks) _ _ split
  rw [takesOther.eq_behind, opens, same, behind]

theorem isComment_of_slash {rule : Rule} (known : rule ∈ firstRules) (matched : Matches rule text found)
    (slash : found.start.rest.head? = some '/') : rule.category = .comment := by
  obtain ⟨c, isHead, others⟩ := exists_head_of_matches known matched
  rw [slash] at isHead
  cases isHead
  rcases others with ⟨isComment, _⟩ | ⟨_, same | same⟩ | ⟨_, differs, _⟩
  · exact isComment
  · cases same
  · cases same
  · exact absurd rfl differs

/-- Two slashes at the start of a text begin a comment. -/
theorem exists_span_of_slashes (variant : Variant) (rest : List Char) :
    ∃ span ∈ variant.table.classify ('/' :: '/' :: rest), span.start = 0 ∧ 2 ≤ span.stop := by
  have reaches : lineRule.Reaches ('/' :: '/' :: rest) (.behind [] ('/' :: '/' :: rest)) :=
    @reaches_lineRule_of_blank [] rest nofun
  have clear (span : Span) (_ : span ∈ variant.table.classify ('/' :: '/' :: rest)) : ¬span.Surrounds 0 :=
    fun surrounds => Nat.not_lt_zero _ surrounds.1
  obtain ⟨rule, isRule, found, matched, isStart, isSpan⟩ :=
    exists_span_of_reaches variant.rules_table (fun _ => not_greedy_of_otherRules) (by simp [firstRules])
      (Place.behind_in [] _) reaches clear
  have isComment : rule.category = .comment := isComment_of_slash isRule matched (by rw [isStart]; rfl)
  have start : found.start.offset = 0 := by
    rw [isStart]
    rfl
  have here : Grammar.Finds comment? ('/' :: '/' :: rest) 0 _ := ⟨[], _, _, rfl, rfl, rfl, rfl⟩
  have stop := (start ▸ finds_comment isRule isComment matched).eq here
  rw [spanOf_eq isRule (by rw [isComment]; decide)] at isSpan
  refine ⟨_, isSpan, start, ?_⟩
  simp only [stop, byteLength_cons]
  have size : '/'.utf8Size = 1 := rfl
  omega

theorem head?_of_comment? {token : List Char} (isToken : comment? read rest = some token) :
    rest.head? = some '/' := by
  unfold comment? at isToken
  split at isToken
  · rfl
  · rfl
  · cases isToken

theorem decides_comment : Grammar.Decides comment? .comment where
  shared := rfl
  named := by decide
  sound := finds_comment
  own := by
    intro rule text found read rest token known matched isStart isToken
    exact isComment_of_slash known matched (isStart ▸ head?_of_comment? isToken)
  reaches := by
    intro variant read rest token isToken clear
    unfold comment? at isToken
    split at isToken
    · split at isToken
      · cases isToken
      · next unescaped => exact ⟨blockRule, by simp [firstRules], reaches_blockRule unescaped⟩
    · split at isToken
      · next allowed =>
        refine ⟨lineRule, by simp [firstRules], reaches_lineRule allowed ?_⟩
        rintro rfl
        obtain ⟨span, isSpan, start, stop⟩ := exists_span_of_slashes variant _
        have one : byteLength ['/'] = 1 := rfl
        refine clear span isSpan ⟨?_, ?_⟩
        · omega
        · omega
      · cases isToken
    · cases isToken

/-- The comments of a text are those of the grammar, but for places that a span goes on over. -/
theorem comments_iff (variant : Variant) (text : List Char) :
    (∀ span ∈ Span.preorderAll (variant.table.classify text), span.category = .comment →
      span ∈ variant.table.classify text ∧ span.children = [] ∧
        Grammar.Finds comment? text span.start span.stop) ∧
    ∀ start, (∀ span ∈ variant.table.classify text, ¬span.Surrounds start) → ∀ stop,
      ⟨.comment, start, stop, []⟩ ∈ variant.table.classify text ↔
        Grammar.Finds comment? text start stop := by
  constructor
  · intro span known isComment
    exact decides_comment.of_mem_preorderAll known isComment
  · intro start clear stop
    exact decides_comment.mem_classify_iff clear

theorem comments_iff_slashes :
    (∀ span ∈ v1.table.classify ['/', '/', 'x', '\n'], ¬span.Surrounds 0) ∧
      ⟨.comment, 0, 3, []⟩ ∈ Span.preorderAll (v1.table.classify ['/', '/', 'x', '\n']) ∧
      Grammar.Finds comment? ['/', '/', 'x', '\n'] 0 3 := by
  have clear (span : Span) (_ : span ∈ v1.table.classify ['/', '/', 'x', '\n']) : ¬span.Surrounds 0 :=
    fun surrounds => Nat.not_lt_zero _ surrounds.1
  have isSpan := ((comments_iff v1 ['/', '/', 'x', '\n']).2 0 clear 3).2
    ⟨[], ['/', '/', 'x', '\n'], ['/', '/', 'x'], rfl, rfl, by decide, rfl⟩
  have known := mem_preorderAll isSpan
  exact ⟨clear, known, ((comments_iff v1 ['/', '/', 'x', '\n']).1 _ known rfl).2.2⟩

end Variant

end Highlighter
