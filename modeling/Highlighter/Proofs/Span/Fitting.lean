import Highlighter.Proofs.Text.Slices
import Highlighter.Span.WellFormed

/-!
What it means that a forest of spans fits a text. The check passes a forest if every span of it is placed
between what comes before it and the end of its range (`checkAll_cons_eq_ok_iff`), and then the same
holds of what is inside a span, at any depth, so that nothing leaves the range of the forest
(`isPlaced_of_mem_preorderAll`). Spans side by side have no characters in common (`eq_or_apart`).
-/

set_option autoImplicit false

namespace Highlighter

namespace Span

variable {source : List Char} {reached start stop : Nat} {span : Span} {spans : List Span}

/-- The span takes characters of the text, begins neither before the place reached nor ends behind
`stop`, and what is inside it fits its own range. -/
structure IsPlaced (source : List Char) (reached stop : Nat) (span : Span) : Prop where
  nonempty : span.start < span.stop
  ahead : reached ≤ span.start
  bounded : span.stop ≤ stop
  starts : isBoundary source span.start = true
  stops : isBoundary source span.stop = true
  children : checkAll source span.start span.start span.stop span.children = .ok ()

theorem defect?_eq_none_iff :
    defect? source reached start stop span = none ↔
      span.start < span.stop ∧ reached ≤ span.start ∧ span.stop ≤ stop ∧
        isBoundary source span.start = true ∧ isBoundary source span.stop = true := by
  unfold defect?
  split
  · simp only [reduceCtorEq, false_iff]
    omega
  split
  · simp only [reduceCtorEq, false_iff]
    omega
  split
  · simp only [reduceCtorEq, false_iff]
    omega
  split
  · next cut =>
    simp only [Bool.or_eq_true, Bool.not_eq_true'] at cut
    simp only [reduceCtorEq, false_iff]
    rintro ⟨_, _, _, starts, stops⟩
    simp [starts, stops] at cut
  · next whole =>
    simp only [Bool.or_eq_true, Bool.not_eq_true', not_or, Bool.not_eq_false] at whole
    simp only [whole, and_true, true_iff]
    omega

theorem checkOne_eq_ok_iff (start : Nat) :
    checkOne source reached start stop span = .ok () ↔ span.IsPlaced source reached stop := by
  obtain ⟨category, first, last, children⟩ := span
  unfold checkOne
  match found : defect? source reached start stop ⟨category, first, last, children⟩ with
  | some defect =>
    simp only [reduceCtorEq, false_iff]
    rintro ⟨nonempty, ahead, bounded, starts, stops, _⟩
    rw [defect?_eq_none_iff.2 ⟨nonempty, ahead, bounded, starts, stops⟩] at found
    cases found
  | none =>
    obtain ⟨nonempty, ahead, bounded, starts, stops⟩ := defect?_eq_none_iff.1 found
    exact ⟨fun inner => ⟨nonempty, ahead, bounded, starts, stops, inner⟩, (·.children)⟩

theorem checkAll_cons_eq_ok_iff :
    checkAll source reached start stop (span :: spans) = .ok () ↔
      span.IsPlaced source reached stop ∧ checkAll source span.stop start stop spans = .ok () := by
  rw [← checkOne_eq_ok_iff start, checkAll]
  match checkOne source reached start stop span with
  | .error misfit => simp
  | .ok () => simp

theorem IsPlaced.own (placed : span.IsPlaced source reached stop) :
    span.IsPlaced source span.start span.stop :=
  { placed with ahead := Nat.le_refl _, bounded := Nat.le_refl _ }

theorem IsPlaced.reached_le (placed : span.IsPlaced source reached stop) : reached ≤ span.stop :=
  Nat.le_trans placed.ahead (Nat.le_of_lt placed.nonempty)

theorem IsPlaced.mono {before behind : Nat} (placed : span.IsPlaced source reached stop)
    (ahead : before ≤ reached) (bounded : stop ≤ behind) : span.IsPlaced source before behind :=
  { placed with
    ahead := Nat.le_trans ahead placed.ahead
    bounded := Nat.le_trans placed.bounded bounded }

theorem isPlaced_of_mem (fits : checkAll source reached start stop spans = .ok ()) :
    ∀ span ∈ spans, span.IsPlaced source reached stop := by
  induction spans generalizing reached with
  | nil => exact List.forall_mem_nil _
  | cons first spans ih =>
    obtain ⟨placed, fits⟩ := checkAll_cons_eq_ok_iff.1 fits
    refine List.forall_mem_cons.2 ⟨placed, fun span known => ?_⟩
    exact (ih fits span known).mono placed.reached_le (Nat.le_refl _)

/-- The spans of a row that fits are in order. -/
theorem pairwise_of_fits (fits : checkAll source reached start stop spans = .ok ()) :
    spans.Pairwise fun span later => span.stop ≤ later.start := by
  induction spans generalizing reached with
  | nil => exact .nil
  | cons span spans ih =>
    obtain ⟨_, fits⟩ := checkAll_cons_eq_ok_iff.1 fits
    exact .cons (fun later known => (isPlaced_of_mem fits later known).ahead) (ih fits)

/-- Two spans of a row that fits have no characters in common. -/
theorem eq_or_apart {other : Span} (fits : checkAll source reached start stop spans = .ok ())
    (known : span ∈ spans) (otherKnown : other ∈ spans) :
    span = other ∨ span.stop ≤ other.start ∨ other.stop ≤ span.start := by
  induction spans generalizing reached with
  | nil => cases known
  | cons first spans ih =>
    obtain ⟨_, fits⟩ := checkAll_cons_eq_ok_iff.1 fits
    rcases List.mem_cons.1 known with rfl | later
    · rcases List.mem_cons.1 otherKnown with rfl | otherLater
      · exact .inl rfl
      · exact .inr (.inl (isPlaced_of_mem fits other otherLater).ahead)
    · rcases List.mem_cons.1 otherKnown with rfl | otherLater
      · exact .inr (.inr (isPlaced_of_mem fits span later).ahead)
      · exact ih fits later otherLater

mutual

theorem isPlaced_of_mem_preorder (span : Span) {reached stop : Nat}
    (placed : span.IsPlaced source reached stop) :
    ∀ inner ∈ span.preorder, inner.IsPlaced source reached stop :=
  match span with
  | ⟨_, _, _, children⟩ =>
    List.forall_mem_cons.2 ⟨placed, fun inner known =>
      (isPlaced_of_mem_preorderAll children placed.children inner known).mono placed.ahead placed.bounded⟩

/-- In a forest that fits, every span at any depth has its place in the range of the forest, and what is
inside it fits its own. -/
theorem isPlaced_of_mem_preorderAll (spans : List Span) {reached start stop : Nat}
    (fits : checkAll source reached start stop spans = .ok ()) :
    ∀ inner ∈ preorderAll spans, inner.IsPlaced source reached stop :=
  match spans with
  | [] => List.forall_mem_nil _
  | span :: spans =>
    have ⟨placed, later⟩ := checkAll_cons_eq_ok_iff.1 fits
    List.forall_mem_append.2 ⟨isPlaced_of_mem_preorder span placed, fun inner known =>
      (isPlaced_of_mem_preorderAll spans later inner known).mono placed.reached_le (Nat.le_refl _)⟩

end

end Span

end Highlighter
