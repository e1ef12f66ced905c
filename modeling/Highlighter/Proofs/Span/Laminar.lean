import Mathlib.Data.List.Lex
import Highlighter.Proofs.Span.Fitting
import Highlighter.Proofs.Span.Preorder

/-!
The order in which the spans of a forest are met. A walk meets the span at each address once, in the order
of the addresses (`mem_walk`, `pairwise_visitsFrom`). If the forest fits a text, a span that is met later
begins behind one met before, or is inside it and keeps to its range (`laminar_visitsFrom`).
-/

set_option autoImplicit false

namespace Highlighter.Span

/-- A span that is met on the way through a forest. Its address is its number among its siblings, behind
the numbers of the spans around it. -/
structure Visit where
  address : List Nat
  span : Span

/-- The visit as seen from outside the sibling of this number. -/
def Visit.under (index : Nat) (visit : Visit) : Visit := { visit with address := index :: visit.address }

mutual

def visits : Span → List Visit
  | ⟨category, start, stop, children⟩ =>
    ⟨[], ⟨category, start, stop, children⟩⟩ :: visitsFrom 0 children

def visitsFrom (index : Nat) : List Span → List Visit
  | [] => []
  | span :: spans => span.visits.map (·.under index) ++ visitsFrom (index + 1) spans

end

/-- All spans of a forest with their addresses: each span, then what is inside it, then its next
sibling. -/
def walk (spans : List Span) : List Visit := visitsFrom 0 spans

/-- The span at an address inside a span, which is itself at the empty one. -/
def below? : Span → List Nat → Option Span
  | span, [] => some span
  | span, index :: address => span.children[index]?.bind (below? · address)

/-- The span at an address of a forest. -/
def at? (spans : List Span) : List Nat → Option Span
  | [] => none
  | index :: address => spans[index]?.bind (·.below? address)

variable {source : List Char} {reached start stop index : Nat} {span : Span} {spans : List Span}

mutual

theorem map_span_visits (span : Span) : span.visits.map (·.span) = span.preorder :=
  match span with
  | ⟨_, _, _, children⟩ => congrArg (_ :: ·) (map_span_visitsFrom 0 children)

theorem map_span_visitsFrom (index : Nat) (spans : List Span) :
    (visitsFrom index spans).map (·.span) = preorderAll spans :=
  match spans with
  | [] => rfl
  | span :: spans => by
    rw [visitsFrom, List.map_append, List.map_map, map_span_visitsFrom (index + 1) spans, preorderAll,
      ← map_span_visits span]
    rfl

end

theorem span_mem_preorder {visit : Visit} (known : visit ∈ span.visits) : visit.span ∈ span.preorder := by
  rw [← map_span_visits span]
  exact List.mem_map_of_mem known

theorem span_mem_preorderAll {visit : Visit} (known : visit ∈ visitsFrom index spans) :
    visit.span ∈ preorderAll spans := by
  rw [← map_span_visitsFrom index spans]
  exact List.mem_map_of_mem known

mutual

theorem mem_visits (span : Span) (visit : Visit) :
    visit ∈ span.visits ↔ span.below? visit.address = some visit.span :=
  match span with
  | ⟨category, start, stop, children⟩ => by
    obtain ⟨address, inner⟩ := visit
    rw [visits, List.mem_cons, mem_visitsFrom children 0]
    cases address with
    | nil => simp [below?, eq_comm]
    | cons index address => simp [below?, at?]

theorem mem_visitsFrom (spans : List Span) (index : Nat) (visit : Visit) :
    visit ∈ visitsFrom index spans ↔ ∃ number address, visit.address = (index + number) :: address ∧
      at? spans (number :: address) = some visit.span :=
  match spans with
  | [] => by simp [visitsFrom, at?]
  | span :: spans => by
    rw [visitsFrom, List.mem_append, List.mem_map, mem_visitsFrom spans (index + 1)]
    constructor
    · rintro (⟨inner, known, rfl⟩ | ⟨number, address, isAddress, isSpan⟩)
      · exact ⟨0, inner.address, rfl, (mem_visits span inner).1 known⟩
      · exact ⟨number + 1, address, by rw [isAddress, Nat.add_right_comm, Nat.add_assoc], isSpan⟩
    · rintro ⟨_ | number, address, isAddress, isSpan⟩
      · obtain ⟨_, inner⟩ := visit
        cases isAddress
        exact .inl ⟨⟨address, inner⟩, (mem_visits span _).2 isSpan, rfl⟩
      · exact .inr ⟨number, address, by rw [isAddress, Nat.add_right_comm, Nat.add_assoc], isSpan⟩

end

theorem mem_walk {visit : Visit} : visit ∈ walk spans ↔ at? spans visit.address = some visit.span := by
  obtain ⟨address, inner⟩ := visit
  rw [walk, mem_visitsFrom]
  cases address with
  | nil => simp [at?]
  | cons index address => simp

theorem Visit.lt_under {first second : Visit} (order : first.address < second.address) :
    (first.under index).address < (second.under index).address :=
  .cons order

mutual

theorem pairwise_visits (span : Span) : span.visits.Pairwise (·.address < ·.address) :=
  match span with
  | ⟨_, _, _, children⟩ => by
    refine List.pairwise_cons.2 ⟨fun visit known => ?_, pairwise_visitsFrom children 0⟩
    obtain ⟨number, address, isAddress, _⟩ := (mem_visitsFrom children 0 visit).1 known
    rw [isAddress]
    exact .nil

/-- Addresses are met in order, each before those inside it and these before that of the next sibling. So
none of them is met twice. -/
theorem pairwise_visitsFrom (spans : List Span) (index : Nat) :
    (visitsFrom index spans).Pairwise (·.address < ·.address) :=
  match spans with
  | [] => .nil
  | span :: spans => by
    refine List.pairwise_append.2 ⟨?_, pairwise_visitsFrom spans (index + 1), ?_⟩
    · exact List.pairwise_map.2 ((pairwise_visits span).imp Visit.lt_under)
    · intro first known second later
      obtain ⟨inner, _, rfl⟩ := List.mem_map.1 known
      obtain ⟨number, address, isAddress, _⟩ := (mem_visitsFrom spans _ second).1 later
      rw [isAddress]
      exact .rel (by omega)

end

/-- The second span begins behind the first, or it is inside the first and keeps to its range. -/
inductive Visit.Laminar (first second : Visit) : Prop where
  | behind : first.span.stop ≤ second.span.start → Laminar first second
  | inside {number : Nat} {address : List Nat} : second.address = first.address ++ number :: address →
      first.span.below? (number :: address) = some second.span →
      first.span.start ≤ second.span.start → second.span.stop ≤ first.span.stop → Laminar first second

theorem Visit.Laminar.under {first second : Visit} (laminar : first.Laminar second) :
    (first.under index).Laminar (second.under index) := by
  cases laminar with
  | behind order => exact .behind order
  | inside isAddress isSpan starts stops => exact .inside (congrArg (index :: ·) isAddress) isSpan starts stops

mutual

theorem laminar_visits (span : Span) {reached stop : Nat} (placed : span.IsPlaced source reached stop) :
    span.visits.Pairwise Visit.Laminar :=
  match span with
  | ⟨_, _, _, children⟩ => by
    refine List.pairwise_cons.2 ⟨fun visit known => ?_, laminar_visitsFrom children 0 placed.children⟩
    -- What is met after the span is inside it, so it is found below it and keeps to its range.
    have inside := isPlaced_of_mem_preorderAll children placed.children _ (span_mem_preorderAll known)
    obtain ⟨number, address, isAddress, isSpan⟩ := (mem_visitsFrom children 0 visit).1 known
    rw [Nat.zero_add] at isAddress
    exact .inside isAddress isSpan inside.ahead inside.bounded

/-- Where a forest fits, no two of its spans overlap but one inside the other. -/
theorem laminar_visitsFrom (spans : List Span) (index : Nat) {reached start stop : Nat}
    (fits : checkAll source reached start stop spans = .ok ()) :
    (visitsFrom index spans).Pairwise Visit.Laminar :=
  match spans with
  | [] => .nil
  | span :: spans => by
    obtain ⟨placed, later⟩ := checkAll_cons_eq_ok_iff.1 fits
    refine List.pairwise_append.2 ⟨?_, laminar_visitsFrom spans (index + 1) later, ?_⟩
    · exact List.pairwise_map.2 ((laminar_visits span placed).imp .under)
    · intro first known second secondKnown
      -- The first is inside this sibling, which ends before the siblings that follow begin.
      obtain ⟨inner, innerKnown, rfl⟩ := List.mem_map.1 known
      have isBefore := isPlaced_of_mem_preorder span placed.own _ (span_mem_preorder innerKnown)
      have isBehind := isPlaced_of_mem_preorderAll spans later _ (span_mem_preorderAll secondKnown)
      exact .behind (Nat.le_trans isBefore.bounded isBehind.ahead)

end

theorem Visit.Laminar.start_le {first second : Visit} (laminar : first.Laminar second)
    (nonempty : first.span.start < first.span.stop) : first.span.start ≤ second.span.start := by
  cases laminar with
  | behind order => exact Nat.le_trans (Nat.le_of_lt nonempty) order
  | inside _ _ starts _ => exact starts

/-- The stack meets the spans in preorder, the span at each address once and the addresses in order. If
the forest fits a text, what is met later begins behind what was met before or is inside it, so the starts
do not go back. -/
theorem flatten_laminar (spans : List Span) :
    flatten spans = preorderAll spans ∧
      (walk spans).map (·.span) = flatten spans ∧
      (walk spans).Pairwise (·.address < ·.address) ∧
      (∀ visit, visit ∈ walk spans ↔ at? spans visit.address = some visit.span) ∧
      ∀ source, check source spans = .ok () →
        (walk spans).Pairwise Visit.Laminar ∧ (flatten spans).Pairwise (·.start ≤ ·.start) := by
  have met : (walk spans).map (·.span) = flatten spans := by
    rw [flatten_eq_preorderAll, walk, map_span_visitsFrom]
  refine ⟨flatten_eq_preorderAll spans, met, pairwise_visitsFrom spans 0, fun _ => mem_walk, ?_⟩
  intro source fits
  have laminar : (walk spans).Pairwise Visit.Laminar := laminar_visitsFrom spans 0 fits
  refine ⟨laminar, ?_⟩
  rw [← met, List.pairwise_map]
  refine laminar.imp_of_mem fun known _ order => order.start_le ?_
  exact (isPlaced_of_mem_preorderAll spans fits _ (span_mem_preorderAll known)).nonempty

/-- A name with two points in it, and a number behind it. -/
theorem flatten_laminar_dottedName :
    check ['a', '.', 'b', '.', 'c', ' ', '1'] [⟨.className, 0, 5,
        [⟨.punctuation, 1, 2, []⟩, ⟨.punctuation, 3, 4, []⟩]⟩, ⟨.number, 6, 7, []⟩] = .ok () ∧
      [Visit.mk [0] ⟨.className, 0, 5, [⟨.punctuation, 1, 2, []⟩, ⟨.punctuation, 3, 4, []⟩]⟩,
        ⟨[0, 0], ⟨.punctuation, 1, 2, []⟩⟩, ⟨[0, 1], ⟨.punctuation, 3, 4, []⟩⟩,
        ⟨[1], ⟨.number, 6, 7, []⟩⟩].Pairwise Visit.Laminar := by
  have fits : check ['a', '.', 'b', '.', 'c', ' ', '1'] [⟨.className, 0, 5,
      [⟨.punctuation, 1, 2, []⟩, ⟨.punctuation, 3, 4, []⟩]⟩, ⟨.number, 6, 7, []⟩] = .ok () := rfl
  obtain ⟨_, _, _, _, laminar⟩ := flatten_laminar [⟨.className, 0, 5,
    [⟨.punctuation, 1, 2, []⟩, ⟨.punctuation, 3, 4, []⟩]⟩, ⟨.number, 6, 7, []⟩]
  exact ⟨fits, (laminar _ fits).1⟩

end Highlighter.Span
