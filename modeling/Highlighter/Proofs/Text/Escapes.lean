/-!
Texts written in escapes and closed by one character. If no escape begins another one, and none begins with
the character that closes, then both the text and what follows it can be told (`Escapes.flatMap_inj`).
-/

set_option autoImplicit false

namespace Highlighter

variable {escape : Char → List Char} {closing c d : Char} {text other rest others : List Char}

structure Escapes (escape : Char → List Char) (closing : Char) : Prop where
  inj : ∀ {c d rest others}, escape c ++ rest = escape d ++ others → c = d ∧ rest = others
  exists_cons : ∀ c, ∃ d more, escape c = d :: more ∧ d ≠ closing

namespace Escapes

/-- It is enough that the first character can be read. -/
theorem of_reader (exists_cons : ∀ c, ∃ d more, escape c = d :: more ∧ d ≠ closing)
    {read? : List Char → Option (Char × List Char)}
    (reads : ∀ c rest, read? (escape c ++ rest) = some (c, rest)) : Escapes escape closing where
  inj := by
    intro c d rest others same
    have isFirst := reads c rest
    rw [same, reads d others] at isFirst
    cases isFirst
    exact ⟨rfl, rfl⟩
  exists_cons := exists_cons

theorem append_ne (escapes : Escapes escape closing) (c : Char) (rest others : List Char) :
    escape c ++ rest ≠ closing :: others := by
  obtain ⟨d, more, split, notClosing⟩ := escapes.exists_cons c
  rw [split]
  exact fun same => notClosing (List.cons.inj same).1

theorem length_le (escapes : Escapes escape closing) (text : List Char) :
    text.length ≤ (text.flatMap escape).length := by
  induction text with
  | nil => exact Nat.le_refl 0
  | cons c text ih =>
    obtain ⟨_, _, split, _⟩ := escapes.exists_cons c
    rw [List.flatMap_cons, List.length_append, List.length_cons, split, List.length_cons]
    omega

theorem flatMap_inj (escapes : Escapes escape closing)
    (same : text.flatMap escape ++ closing :: rest = other.flatMap escape ++ closing :: others) :
    text = other ∧ rest = others := by
  induction text generalizing other with
  | nil => cases other with
    | nil => exact ⟨rfl, (List.cons.inj same).2⟩
    | cons d other =>
      rw [List.flatMap_cons, List.append_assoc] at same
      exact absurd same.symm (escapes.append_ne d _ _)
  | cons c text ih => cases other with
    | nil =>
      rw [List.flatMap_cons, List.append_assoc] at same
      exact absurd same (escapes.append_ne c _ _)
    | cons d other =>
      rw [List.flatMap_cons, List.flatMap_cons, List.append_assoc, List.append_assoc] at same
      obtain ⟨rfl, behind⟩ := escapes.inj same
      obtain ⟨rfl, isRest⟩ := ih behind
      exact ⟨rfl, isRest⟩

end Escapes

end Highlighter
