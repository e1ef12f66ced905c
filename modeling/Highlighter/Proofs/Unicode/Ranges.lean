import Highlighter.Unicode.Blank

/-!
Membership by bisection. Of increasing ranges, bisection finds the one that has a scalar value, if one has it
(`Unicode.Ranges.contains_iff`).
-/

set_option autoImplicit false

namespace Highlighter.Unicode

namespace Ranges

/-- No range is empty, and each ends before the next begins. -/
def Increasing (ranges : Ranges) : Prop :=
  (∀ range ∈ ranges.toList, range.1 ≤ range.2) ∧
    ranges.toList.Pairwise fun range later => range.2 < later.1

instance (ranges : Ranges) : Decidable ranges.Increasing := inferInstanceAs (Decidable (_ ∧ _))

/-- One of the ranges with indices from `low` up to but not including `high` has the value. -/
def HasBetween (ranges : Ranges) (code low high : Nat) : Prop :=
  ∃ index range, low ≤ index ∧ index < high ∧ ranges[index]? = some range ∧
    range.1 ≤ code ∧ code ≤ range.2

variable {ranges : Ranges} {code low high : Nat}

theorem Increasing.apart (increasing : ranges.Increasing) {index other : Nat} {range later : Nat × Nat}
    (here : ranges[index]? = some range) (there : ranges[other]? = some later) :
    (index < other → range.2 < later.1) ∧ later.1 ≤ later.2 := by
  obtain ⟨ordered, apart⟩ := increasing
  rw [← Array.getElem?_toList] at here there
  obtain ⟨_, rfl⟩ := List.getElem?_eq_some_iff.1 here
  obtain ⟨bound, rfl⟩ := List.getElem?_eq_some_iff.1 there
  exact ⟨List.pairwise_iff_getElem.1 apart _ _ _ _, ordered _ (List.getElem_mem bound)⟩

theorem bisect_iff (increasing : ranges.Increasing) {fuel : Nat} (enough : high ≤ low + fuel)
    (bound : high ≤ ranges.size) :
    ranges.bisect code fuel low high = true ↔ ranges.HasBetween code low high := by
  induction fuel generalizing low high with
  | zero =>
    simp only [bisect, Bool.false_eq_true, false_iff]
    rintro ⟨index, range, above, below, _⟩
    omega
  | succ fuel ih =>
    unfold bisect
    split
    · next order =>
      obtain ⟨range, isRange⟩ : ∃ range, ranges[(low + high) / 2]? = some range :=
        ⟨_, Array.getElem?_eq_getElem (by omega)⟩
      simp only [isRange]
      -- Every other range lies on one side of the middle one.
      have sides {index : Nat} {other : Nat × Nat} (isOther : ranges[index]? = some other) :
          (index < (low + high) / 2 → other.2 < range.1) ∧
            ((low + high) / 2 < index → range.2 < other.1) ∧ range.1 ≤ range.2 ∧
              (index = (low + high) / 2 → other = range) := by
        have ⟨before, ordered⟩ := increasing.apart isOther isRange
        refine ⟨before, (increasing.apart isRange isOther).1, ordered, ?_⟩
        rintro rfl
        exact Option.some.inj (isOther.symm.trans isRange)
      split
      · next before =>
        rw [ih (by omega) (by omega)]
        constructor
        · rintro ⟨index, other, above, below, isOther, has⟩
          exact ⟨index, other, above, by omega, isOther, has⟩
        · rintro ⟨index, other, above, below, isOther, has⟩
          have ⟨_, behind, _, same⟩ := sides isOther
          exact ⟨index, other, above, by grind, isOther, has⟩
      split
      · next behind =>
        rw [ih (by omega) (by omega)]
        constructor
        · rintro ⟨index, other, above, below, isOther, has⟩
          exact ⟨index, other, by omega, below, isOther, has⟩
        · rintro ⟨index, other, above, below, isOther, has⟩
          have ⟨before, _, _, same⟩ := sides isOther
          exact ⟨index, other, by grind, below, isOther, has⟩
      · next notBefore notBehind =>
        simp only [true_iff]
        exact ⟨_, range, by omega, by omega, isRange, by omega, by omega⟩
    · next order =>
      simp only [Bool.false_eq_true, false_iff]
      rintro ⟨index, range, above, below, _⟩
      omega

theorem contains_iff (increasing : ranges.Increasing) {c : Char} :
    ranges.contains c = true ↔ ∃ range ∈ ranges.toList, range.1 ≤ c.toNat ∧ c.toNat ≤ range.2 := by
  rw [contains, bisect_iff increasing (by omega) (Nat.le_refl _)]
  constructor
  · rintro ⟨index, range, _, _, isRange, has⟩
    rw [← Array.getElem?_toList] at isRange
    exact ⟨range, List.mem_of_getElem? isRange, has⟩
  · rintro ⟨range, known, has⟩
    obtain ⟨index, isRange⟩ := List.getElem?_of_mem known
    have bound := (List.getElem?_eq_some_iff.1 isRange).1
    rw [Array.getElem?_toList] at isRange
    exact ⟨index, range, Nat.zero_le _, by simpa using bound, isRange, has⟩

end Ranges

theorem isBlank_iff {c : Char} :
    isBlank c = true ↔ ∃ range ∈ blankRanges.toList, range.1 ≤ c.toNat ∧ c.toNat ≤ range.2 :=
  Ranges.contains_iff (by decide)

end Highlighter.Unicode
