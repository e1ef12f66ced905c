import Highlighter.Proofs.Variant.Tokens

/-!
What a class name is made of. It is written in ASCII letters and digits, underscores, dots and backslashes, and its
rule ignores case: two letters outside ASCII are the same as ASCII letters but for their case, so these are read as
part of a name as well. Of such characters a class name is the whole run from its start (`Variant.classNames_run`).
-/

set_option autoImplicit false

namespace Highlighter

namespace Variant

open Pattern Lexer

/-! ### Characters -/

/-- The characters that the pattern of class names lists. -/
def isAsciiNameChar (c : Char) : Bool := c.isAlphanum || c == '_' || c == '.' || c == '\\'

/-- The long s and the sign for kelvin, small and capital letters outside ASCII of `s` and `k`. -/
def isFoldedLetter (c : Char) : Bool := c == '\u017f' || c == '\u212a'

def inClassName (c : Char) : Bool := isAsciiNameChar c || isFoldedLetter c

def nameChars : CharSet :=
  ⟨[(46, 46), (48, 57), (65, 90), (92, 92), (95, 95), (97, 122), (383, 383), (8490, 8490)]⟩

variable {variant : Variant} {text : List Char} {span : Span} {found : Match}

theorem isAlphanum_iff (c : Char) : c.isAlphanum = true ↔
    65 ≤ c.toNat ∧ c.toNat ≤ 90 ∨ 97 ≤ c.toNat ∧ c.toNat ≤ 122 ∨ 48 ≤ c.toNat ∧ c.toNat ≤ 57 := by
  delta Char.isAlphanum Char.isAlpha Char.isUpper Char.isLower
  simp only [Char.isDigit, Bool.or_eq_true, Bool.and_eq_true, decide_eq_true_eq, ge_iff_le, UInt32.le_iff_toNat_le,
    or_assoc]
  rfl

theorem contains_nameChars : nameChars.contains = inClassName := by
  refine CharSet.contains_eq (by decide) fun c => ?_
  simp only [inClassName, isAsciiNameChar, isFoldedLetter, Bool.or_eq_true, isAlphanum_iff, beq_iff_eq,
    eq_iff_toNat_eq, Char.reduceToNat, nameChars, CharSet.has_cons, CharSet.not_has_nil, or_false]
  omega

theorem prefersAt_name (reach : Reach) : PrefersAt (several nameChars) (Lexer.several inClassName) reach :=
  prefersAt_several contains_nameChars

/-! ### Names -/

theorem leads_classNameRule : classNameRule.Leads classNameLead (several nameChars) :=
  ⟨rfl, rfl, by decide, rfl, by decide⟩

theorem exists_of_className (known : span ∈ Span.preorderAll (variant.table.classify text))
    (isName : span.category = .className) :
    span ∈ variant.table.classify text ∧ ∃ found, Matches classNameRule text found ∧
      span = spanOf classNameRule found :=
  exists_spanOf_of_mem_preorderAll (rulesOf_table rfl) (by decide) known isName

/-- A name is the whole run of its characters. -/
theorem takes_className (matched : Matches classNameRule text found) :
    found.start.Takes (found.start.rest.takeWhile inClassName) found.stop := by
  obtain ⟨mid, _, later, isFirst, isStart, isStop⟩ :=
    leads_classNameRule.exists_context matched.inside matched.isMatch
  rw [RuleOf.freshStop_of_no_closing rfl] at isStop
  have prefers := prefersAt_name { mid with context := some mid.place }
  cases isToken : Lexer.several inClassName mid.place.rest with
  | none =>
    rw [prefers.fails isToken] at isFirst
    cases isFirst
  | some token =>
    obtain ⟨other, isOther, takes⟩ := prefers.takes token isToken
    cases isOther.symm.trans isFirst
    rw [isStart, isStop, ← eq_takeWhile_of_several isToken]
    exact takes

theorem not_mark_of_inClassName {c : Char} (isOne : inClassName c = true) : ¬marks.Has c := by
  rw [← contains_nameChars] at isOne
  exact CharSet.not_has_of_apart (by decide) isOne

/-- No name goes on over a marked place. -/
theorem stop_le_of_className {place : Place} (matched : Matches classNameRule text found) (placeInside : place.In text)
    (marked : place.IsMarked marks) (further : found.start.offset < place.offset) :
    found.stop.offset ≤ place.offset := by
  refine (takes_className matched).le_of_isMarked matched.start_in placeInside (.inr fun c known => ?_) marked further
  exact not_mark_of_inClassName (List.all_eq_true.1 List.all_takeWhile c known)

/-- A class name is all in ASCII but for two letters, and it ends only where the text goes on otherwise. -/
theorem classNames_run (variant : Variant) (text : List Char) :
    ∀ span ∈ Span.preorderAll (variant.table.classify text), span.category = .className →
      ∃ read name rest, text = read ++ (name ++ rest) ∧ byteLength read = span.start ∧
        span.start + byteLength name = span.stop ∧
        (∀ c ∈ name, isAsciiNameChar c = true ∨ isFoldedLetter c = true) ∧
        ∀ c ∈ rest.head?, isAsciiNameChar c = false ∧ isFoldedLetter c = false := by
  intro span known isName
  obtain ⟨_, found, matched, rfl⟩ := exists_of_className known isName
  have takes := takes_className matched
  obtain ⟨read, split, length, _⟩ := matched.start_in
  have isRest : found.start.rest.dropWhile inClassName = found.stop.rest :=
    List.append_cancel_left (List.takeWhile_append_dropWhile.trans takes.split)
  refine ⟨read, _, found.stop.rest, by rw [split, ← takes.split], ?_, ?_, fun c known => ?_, fun c isHead => ?_⟩
  · rw [start_spanOf, length]
  · rw [start_spanOf, stop_spanOf, takes.offset]
  · exact Bool.or_eq_true_iff.1 (List.all_eq_true.1 List.all_takeWhile c known)
  · rw [← isRest] at isHead
    exact Bool.or_eq_false_iff.1 (endsRun_dropWhile inClassName _ c isHead)

theorem classify_longS : v1.table.classify ['n', 'e', 'w', ' ', 'a', '\u017f'] = [⟨.className, 4, 7, []⟩] := by
  rw [RuleTable.classify_of_rules v1.rules_table]
  decide +kernel

theorem classNames_run_longS :
    ⟨.className, 4, 7, []⟩ ∈ Span.preorderAll (v1.table.classify ['n', 'e', 'w', ' ', 'a', '\u017f']) ∧
      ∃ read name rest, ['n', 'e', 'w', ' ', 'a', '\u017f'] = read ++ (name ++ rest) ∧ byteLength read = 4 ∧
        4 + byteLength name = 7 ∧ (∀ c ∈ name, isAsciiNameChar c = true ∨ isFoldedLetter c = true) ∧
        ∀ c ∈ rest.head?, isAsciiNameChar c = false ∧ isFoldedLetter c = false := by
  have known : ⟨.className, 4, 7, []⟩ ∈
      Span.preorderAll (v1.table.classify ['n', 'e', 'w', ' ', 'a', '\u017f']) := by
    rw [classify_longS]
    exact List.mem_cons_self
  exact ⟨known, classNames_run v1 ['n', 'e', 'w', ' ', 'a', '\u017f'] _ known rfl⟩

/-- The last character of this name is not in ASCII. -/
theorem className_beyond_ascii :
    ∃ span ∈ Span.preorderAll (v1.table.classify ['n', 'e', 'w', ' ', 'a', '\u017f']),
      span.category = .className ∧
        ∃ c ∈ span.text ['n', 'e', 'w', ' ', 'a', '\u017f'], isAsciiNameChar c = false := by
  rw [classify_longS]
  exact ⟨⟨.className, 4, 7, []⟩, List.mem_cons_self, rfl, '\u017f', by decide, by decide⟩

end Variant

end Highlighter
