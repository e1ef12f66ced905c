import Mathlib.Data.List.Basic
import Highlighter.Format.Markup

/-!
Reading the pieces of markup. Markup is a row of pieces, characters of the text and tags. No sign, that is
an entity or a tag, begins with another one, whatever class the tags have in common (`eq_of_begins`), and
all else stands for itself. So the pieces that were written are read again (`pieces?_written`).
-/

set_option autoImplicit false

namespace Highlighter

namespace Markup

/-- A character of the text, or the tag before or behind a span of a category. -/
inductive Piece where
  | char (c : Char)
  | opening (category : Category)
  | closing
  deriving DecidableEq, Repr

/-- What stands for the piece in markup whose tags have this class in common. -/
def Piece.written (commonClass : List Char) : Piece → List Char
  | .char c => escapeChar c
  | .opening category => openTag commonClass category
  | .closing => closeTag

def entities : List (List Char × Piece) :=
  [(['&', 'a', 'm', 'p', ';'], .char '&'), (['&', 'l', 't', ';'], .char '<'),
    (['&', 'g', 't', ';'], .char '>'), (['&', 'q', 'u', 'o', 't', ';'], .char '"'),
    (['&', '#', '3', '9', ';'], .char '\'')]

def tags (commonClass : List Char) : List (List Char × Piece) :=
  (closeTag, .closing) ::
    Category.all.map fun category => (openTag commonClass category, .opening category)

/-- What does not stand for itself in markup, and what it stands for. -/
def signs (commonClass : List Char) : List (List Char × Piece) := entities ++ tags commonClass

/-- The sign of this table that a text begins with, and what follows it. -/
def sign? (table : List (List Char × Piece)) (text : List Char) : Option (Piece × List Char) :=
  table.findSome? fun (sign, piece) => (text.dropPrefix? sign).map (piece, ·)

/-- The piece that markup begins with, and what follows it. -/
def first? (commonClass : List Char) : List Char → Option (Piece × List Char)
  | [] => none
  | c :: rest =>
    if c = '&' ∨ c = '<' then sign? (signs commonClass) (c :: rest) else some (.char c, rest)

variable {commonClass text rest sign : List Char} {piece : Piece} {category other : Category}
  {table : List (List Char × Piece)}

/-! ### Signs -/

theorem sign?_eq_some (found : sign? table text = some (piece, rest)) :
    ∃ sign, (sign, piece) ∈ table ∧ text = sign ++ rest := by
  obtain ⟨⟨sign, same⟩, known, read⟩ := List.exists_of_findSome?_eq_some found
  obtain ⟨behind, dropped, isPair⟩ := Option.map_eq_some_iff.1 read
  cases isPair
  obtain ⟨lead, split, isSign⟩ := List.dropPrefix?_eq_some_iff.1 dropped
  rw [beq_iff_eq.1 isSign] at split
  exact ⟨sign, known, split⟩

/-- If no other sign is there too, the one that is there is found. -/
theorem sign?_append (known : (sign, piece) ∈ table)
    (apart : ∀ other ∈ table, other.1 <+: sign ++ rest → other = (sign, piece)) :
    sign? table (sign ++ rest) = some (piece, rest) := by
  match found : sign? table (sign ++ rest) with
  | none =>
    have missing := List.findSome?_eq_none_iff.1 found (sign, piece) known
    simp [List.dropPrefix?_append_of_beq] at missing
  | some (other, behind) =>
    obtain ⟨lead, isSign, split⟩ := sign?_eq_some found
    cases apart (lead, other) isSign ⟨behind, split.symm⟩
    rw [List.append_cancel_left split]

theorem takeWhile_name (category : Category) (rest : List Char) :
    (category.name.toList ++ '"' :: rest).takeWhile (· ≠ '"') = category.name.toList := by
  have bare : ∀ c ∈ category.name.toList, decide (c ≠ '"') = true := by
    apply List.all_eq_true.1
    cases category <;> decide
  rw [List.takeWhile_append_of_pos bare]
  simp

/-- The tags before spans differ in the name of the category, and in nothing else. -/
theorem exists_openTag_eq (commonClass : List Char) : ∃ start, ∀ category,
    openTag commonClass category = '<' :: 's' :: start ++ (category.name.toList ++ ['"', '>']) := by
  have start : "<span class=\"".toList = '<' :: 's' :: "pan class=\"".toList := by decide
  have stop : "\">".toList = ['"', '>'] := by decide
  refine ⟨"pan class=\"".toList ++ (if commonClass.isEmpty then [] else commonClass ++ [' ']),
    fun category => ?_⟩
  unfold openTag
  rw [start, stop]
  simp only [List.append_assoc, List.cons_append]

/-- A name ends at the first quote, so no tag before a span begins with another one. -/
theorem eq_of_openTag_begins
    (isPrefix : openTag commonClass other <+: openTag commonClass category ++ rest) :
    other = category := by
  obtain ⟨start, isTag⟩ := exists_openTag_eq commonClass
  rw [isTag, isTag, List.append_assoc, List.prefix_append_right_inj] at isPrefix
  -- Up to the quote the two texts are the two names.
  obtain ⟨behind, same⟩ := isPrefix
  have names := congrArg (List.takeWhile (· ≠ '"')) same
  simp only [List.append_assoc, List.cons_append, takeWhile_name] at names
  exact Category.name_injective (String.toList_inj.1 names)

theorem exists_of_mem_entities {entity : List Char × Piece} (known : entity ∈ entities) :
    ∃ more, entity.1 = '&' :: more := by
  simp only [entities, List.mem_cons, List.not_mem_nil, or_false] at known
  rcases known with rfl | rfl | rfl | rfl | rfl <;> exact ⟨_, rfl⟩

theorem exists_of_mem_tags {tag : List Char × Piece} (known : tag ∈ tags commonClass) :
    ∃ more, tag.1 = '<' :: more := by
  obtain ⟨start, isTag⟩ := exists_openTag_eq commonClass
  rcases List.mem_cons.1 known with rfl | known
  · exact ⟨_, rfl⟩
  · obtain ⟨category, _, rfl⟩ := List.mem_map.1 known
    exact ⟨_, isTag category⟩

theorem exists_of_mem_signs (known : (sign, piece) ∈ signs commonClass) :
    ∃ c more, sign = c :: more ∧ (c = '&' ∨ c = '<') := by
  rcases List.mem_append.1 known with entity | tag
  · obtain ⟨more, isEntity⟩ := exists_of_mem_entities entity
    exact ⟨_, more, isEntity, .inl rfl⟩
  · obtain ⟨more, isTag⟩ := exists_of_mem_tags tag
    exact ⟨_, more, isTag, .inr rfl⟩

theorem eq_of_entity_begins {entity other : List Char × Piece} (known : entity ∈ entities)
    (otherKnown : other ∈ entities) (isPrefix : other.1 <+: entity.1 ++ rest) : other = entity := by
  -- Any two of the entities differ before the shorter one ends.
  simp only [entities, List.mem_cons, List.not_mem_nil, or_false] at known otherKnown
  rcases known with rfl | rfl | rfl | rfl | rfl <;>
    rcases otherKnown with rfl | rfl | rfl | rfl | rfl <;> simp at isPrefix ⊢

theorem eq_of_tag_begins {tag other : List Char × Piece} (known : tag ∈ tags commonClass)
    (otherKnown : other ∈ tags commonClass) (isPrefix : other.1 <+: tag.1 ++ rest) : other = tag := by
  obtain ⟨start, isTag⟩ := exists_openTag_eq commonClass
  have close : closeTag = ['<', '/', 's', 'p', 'a', 'n', '>'] := by decide
  rcases List.mem_cons.1 known with rfl | known <;>
    rcases List.mem_cons.1 otherKnown with rfl | otherKnown
  · rfl
  · obtain ⟨category, _, rfl⟩ := List.mem_map.1 otherKnown
    simp [isTag, close] at isPrefix
  · obtain ⟨category, _, rfl⟩ := List.mem_map.1 known
    simp [isTag, close] at isPrefix
  · obtain ⟨category, _, rfl⟩ := List.mem_map.1 known
    obtain ⟨otherCategory, _, rfl⟩ := List.mem_map.1 otherKnown
    rw [eq_of_openTag_begins isPrefix]

/-- No sign begins with another one. -/
theorem eq_of_begins {first other : List Char × Piece} (known : first ∈ signs commonClass)
    (otherKnown : other ∈ signs commonClass) (isPrefix : other.1 <+: first.1 ++ rest) :
    other = first := by
  rcases List.mem_append.1 known with entity | tag <;>
    rcases List.mem_append.1 otherKnown with otherEntity | otherTag
  · exact eq_of_entity_begins entity otherEntity isPrefix
  · obtain ⟨_, isEntity⟩ := exists_of_mem_entities entity
    obtain ⟨_, isTag⟩ := exists_of_mem_tags otherTag
    simp [isEntity, isTag] at isPrefix
  · obtain ⟨_, isTag⟩ := exists_of_mem_tags tag
    obtain ⟨_, isEntity⟩ := exists_of_mem_entities otherEntity
    simp [isEntity, isTag] at isPrefix
  · exact eq_of_tag_begins tag otherTag isPrefix

/-! ### Pieces -/

theorem length_lt_of_first? (found : first? commonClass text = some (piece, rest)) :
    rest.length < text.length := by
  cases text with
  | nil => cases found
  | cons c behind =>
    rw [first?] at found
    split at found
    · obtain ⟨sign, known, split⟩ := sign?_eq_some found
      obtain ⟨first, more, rfl, _⟩ := exists_of_mem_signs known
      rw [split, List.length_append, List.length_cons]
      omega
    · cases found
      exact Nat.lt_succ_self _

/-- The pieces of markup. What begins like a sign has to be one. -/
def pieces? (commonClass markup : List Char) : Option (List Piece) :=
  match found : first? commonClass markup with
  | none => if markup.isEmpty then some [] else none
  | some (piece, rest) =>
    have : rest.length < markup.length := length_lt_of_first? found
    (pieces? commonClass rest).map (piece :: ·)
termination_by markup.length

theorem pieces?_of_first? (found : first? commonClass text = some (piece, rest)) :
    pieces? commonClass text = (pieces? commonClass rest).map (piece :: ·) := by
  rw [pieces?]
  split
  · next nothing =>
    rw [nothing] at found
    cases found
  · next same =>
    cases same.symm.trans found
    rfl

theorem escapeChar_cases (c : Char) :
    (escapeChar c, .char c) ∈ entities ∨ escapeChar c = [c] ∧ ¬(c = '&' ∨ c = '<') := by
  unfold escapeChar
  split
  · exact .inl (by decide)
  · exact .inl (by decide)
  · exact .inl (by decide)
  · exact .inl (by decide)
  · exact .inl (by decide)
  · next notAnd notLess _ _ _ =>
    refine .inr ⟨rfl, ?_⟩
    rintro (isAnd | isLess)
    · exact notAnd isAnd
    · exact notLess isLess

/-- A piece is written as a sign, or as a character that no sign begins with. -/
theorem written_cases (commonClass : List Char) (piece : Piece) :
    (piece.written commonClass, piece) ∈ signs commonClass ∨
      ∃ c, piece = .char c ∧ piece.written commonClass = [c] ∧ ¬(c = '&' ∨ c = '<') := by
  cases piece with
  | char c =>
    rcases escapeChar_cases c with known | ⟨isChar, plain⟩
    · exact .inl (List.mem_append_left _ known)
    · exact .inr ⟨c, rfl, isChar, plain⟩
  | opening category =>
    exact .inl (List.mem_append_right _ (List.mem_cons_of_mem _
      (List.mem_map_of_mem (Category.mem_all category))))
  | closing => exact .inl (List.mem_append_right _ List.mem_cons_self)

theorem first?_written (piece : Piece) (rest : List Char) :
    first? commonClass (piece.written commonClass ++ rest) = some (piece, rest) := by
  rcases written_cases commonClass piece with known | ⟨c, rfl, isChar, plain⟩
  · have read : sign? (signs commonClass) (piece.written commonClass ++ rest) = some (piece, rest) :=
      sign?_append known fun other otherKnown isPrefix => eq_of_begins known otherKnown isPrefix
    obtain ⟨c, more, isSign, special⟩ := exists_of_mem_signs known
    rw [isSign, List.cons_append] at read ⊢
    exact (if_pos special).trans read
  · rw [isChar, List.singleton_append]
    exact if_neg plain

/-- Pieces are read as they were written. -/
theorem pieces?_written (pieces : List Piece) :
    pieces? commonClass (pieces.flatMap (·.written commonClass)) = some pieces := by
  induction pieces with
  | nil =>
    rw [List.flatMap_nil, pieces?]
    rfl
  | cons piece pieces ih =>
    rw [List.flatMap_cons, pieces?_of_first? (first?_written piece _), ih, Option.map_some]

end Markup

end Highlighter
