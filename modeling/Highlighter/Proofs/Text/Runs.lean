/-!
Texts split by what their characters are. A run of characters of one kind, followed by none of them, can be
told from what follows it (`run_inj`). Characters are compared by their scalar values.
-/

set_option autoImplicit false

namespace Highlighter

variable {isKind : Char → Bool} {run other rest others : List Char}

/-- What follows does not begin with a character of the kind. -/
def EndsRun (isKind : Char → Bool) (rest : List Char) : Prop := ∀ c ∈ rest.head?, isKind c = false

theorem endsRun_cons {c : Char} (differs : isKind c = false) : EndsRun isKind (c :: rest) := by
  rintro d isHead
  cases isHead
  exact differs

theorem any_head?_eq_false_iff : rest.head?.any isKind = false ↔ EndsRun isKind rest := by
  cases rest with
  | nil => exact ⟨fun _ => nofun, fun _ => rfl⟩
  | cons c rest => exact ⟨endsRun_cons, fun ends => ends c rfl⟩

theorem any_head?_eq_true_iff :
    rest.head?.any isKind = true ↔ ∃ c others, rest = c :: others ∧ isKind c = true := by
  cases rest with
  | nil => simp
  | cons c rest => simp

theorem endsRun_dropWhile (isKind : Char → Bool) (text : List Char) : EndsRun isKind (text.dropWhile isKind) := by
  intro c isHead
  have differs := List.head?_dropWhile_not isKind text
  rwa [Option.mem_def.1 isHead] at differs

theorem takeWhile_of_endsRun (ends : EndsRun isKind rest) : rest.takeWhile isKind = [] := by
  cases rest with
  | nil => rfl
  | cons c rest => exact List.takeWhile_cons_of_neg (by simp [ends c rfl])

theorem dropWhile_of_endsRun (ends : EndsRun isKind rest) : rest.dropWhile isKind = rest := by
  cases rest with
  | nil => rfl
  | cons c rest => exact List.dropWhile_cons_of_neg (by simp [ends c rfl])

theorem takeWhile_run (all : ∀ c ∈ run, isKind c = true) (ends : EndsRun isKind rest) :
    (run ++ rest).takeWhile isKind = run := by
  rw [List.takeWhile_append_of_pos all, takeWhile_of_endsRun ends, List.append_nil]

theorem dropWhile_run (all : ∀ c ∈ run, isKind c = true) (ends : EndsRun isKind rest) :
    (run ++ rest).dropWhile isKind = rest := by
  rw [List.dropWhile_append_of_pos all, dropWhile_of_endsRun ends]

theorem run_inj (all : ∀ c ∈ run, isKind c = true) (allOther : ∀ c ∈ other, isKind c = true)
    (ends : EndsRun isKind rest) (endsOther : EndsRun isKind others) (same : run ++ rest = other ++ others) :
    run = other ∧ rest = others := by
  have isRun := congrArg (List.takeWhile isKind) same
  rw [takeWhile_run all ends, takeWhile_run allOther endsOther] at isRun
  subst isRun
  exact ⟨rfl, List.append_cancel_left same⟩

/-! ### Scalar values -/

theorem toNat_le (c : Char) : c.toNat ≤ 1114111 := by
  rcases c.valid with below | ⟨_, below⟩
  · exact Nat.le_trans (Nat.le_of_lt below) (by decide)
  · exact Nat.le_of_lt_succ below

theorem toNat_toUpper_le (c : Char) : c.toUpper.toNat ≤ c.toNat := by
  unfold Char.toUpper
  split
  · next small =>
    have least : 97 ≤ c.val.toNat := UInt32.le_iff_toNat_le.1 small.1
    have bound := c.val.toNat_lt
    -- Capital letters are 32 below, modulo the range of the type.
    have shift : ('A'.val - 'a'.val).toNat = 4294967264 := rfl
    show (c.val + ('A'.val - 'a'.val)).toNat ≤ c.val.toNat
    rw [UInt32.toNat_add, shift]
    omega
  · exact Nat.le_refl _

theorem eq_iff_toNat_eq {c d : Char} : c = d ↔ c.toNat = d.toNat := Char.toNat_inj.symm

end Highlighter
