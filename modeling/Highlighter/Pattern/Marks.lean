/-!
Marks of what an attempt to match has already tried: pairs of a point of the pattern and an offset in
the text. Main statement: what is marked is what has been inserted (`contains_insert`).
-/

set_option autoImplicit false

namespace Highlighter

/-- A set of points, less than `width`, at offsets from `first` on. All pairs are numbered offset by
offset, and a pair is in the set if the bit of its number is. -/
structure Marks where
  first : Nat
  width : Nat
  words : Array Nat := #[]

namespace Marks

def bitsOfWord : Nat := 32

def key (marks : Marks) (point offset : Nat) : Nat := (offset - marks.first) * marks.width + point

def hasKey (marks : Marks) (key : Nat) : Bool :=
  (marks.words[key / bitsOfWord]?.getD 0).testBit (key % bitsOfWord)

def grown (words : Array Nat) (index : Nat) : Array Nat :=
  if index < words.size then words else words ++ Array.replicate (index + 1 - words.size) 0

def insertKey (marks : Marks) (key : Nat) : Marks :=
  { marks with
    words := (grown marks.words (key / bitsOfWord)).modify (key / bitsOfWord)
      (· ||| 1 <<< (key % bitsOfWord)) }

def contains (marks : Marks) (point offset : Nat) : Bool := marks.hasKey (marks.key point offset)

def insert (marks : Marks) (point offset : Nat) : Marks := marks.insertKey (marks.key point offset)

theorem hasKey_start (first width key : Nat) : (Marks.mk first width #[]).hasKey key = false := by
  simp [hasKey]

theorem getElem?_grown (words : Array Nat) (index other : Nat) :
    (grown words index)[other]?.getD 0 = words[other]?.getD 0 := by
  unfold grown
  split
  · rfl
  · rw [Array.getElem?_append]
    split
    · rfl
    · next behind =>
      rw [Array.getElem?_replicate, Array.getElem?_eq_none (by omega)]
      split <;> rfl

theorem lt_size_grown (words : Array Nat) (index : Nat) : index < (grown words index).size := by
  unfold grown
  split
  · assumption
  · simp only [Array.size_append, Array.size_replicate]
    omega

theorem hasKey_insertKey (marks : Marks) (key other : Nat) :
    (marks.insertKey key).hasKey other = (key == other || marks.hasKey other) := by
  have known := getElem?_grown marks.words (key / bitsOfWord) (other / bitsOfWord)
  simp only [hasKey, insertKey, Array.getElem?_modify]
  by_cases same : key / bitsOfWord = other / bitsOfWord
  · have size := lt_size_grown marks.words (key / bitsOfWord)
    rw [← same] at known ⊢
    simp only [if_pos, Array.getElem?_eq_getElem size, Option.map_some, Option.getD_some,
      Nat.testBit_or, Nat.one_shiftLeft, Nat.testBit_two_pow] at known ⊢
    rw [known, Bool.or_comm]
    by_cases equal : key = other
    · simp [equal]
    · have apart : key % bitsOfWord ≠ other % bitsOfWord := by
        intro rest
        exact equal (by rw [← Nat.div_add_mod key bitsOfWord, same, rest, Nat.div_add_mod])
      simp [equal, apart]
  · have apart : key ≠ other := fun equal => same (by rw [equal])
    rw [if_neg same, known]
    simp [apart]

theorem key_inj {marks : Marks} {point offset other place : Nat} (reached : marks.first ≤ offset)
    (inside : marks.first ≤ place) (known : point < marks.width) (valid : other < marks.width) :
    marks.key point offset = marks.key other place ↔ point = other ∧ offset = place := by
  constructor
  · intro same
    unfold key at same
    have quotient := congrArg (· / marks.width) same
    have remainder := congrArg (· % marks.width) same
    simp only [Nat.add_comm _ point, Nat.add_comm _ other,
      Nat.add_mul_div_right _ _ (Nat.zero_lt_of_lt known), Nat.div_eq_of_lt known,
      Nat.div_eq_of_lt valid, Nat.zero_add, Nat.add_mul_mod_self_right, Nat.mod_eq_of_lt known,
      Nat.mod_eq_of_lt valid] at quotient remainder
    exact ⟨remainder, by omega⟩
  · rintro ⟨rfl, rfl⟩
    rfl

theorem contains_insert {marks : Marks} {point offset other place : Nat}
    (reached : marks.first ≤ offset) (inside : marks.first ≤ place) (known : point < marks.width)
    (valid : other < marks.width) :
    (marks.insert point offset).contains other place =
      ((point == other && offset == place) || marks.contains other place) := by
  have same := key_inj reached inside known valid
  rw [contains, insert, hasKey_insertKey]
  congr 1
  rw [Bool.eq_iff_iff, beq_iff_eq, Bool.and_eq_true, beq_iff_eq, beq_iff_eq]
  exact same

end Marks

end Highlighter
