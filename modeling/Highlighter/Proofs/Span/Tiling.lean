import Mathlib.Data.List.Chain
import Highlighter.Proofs.Span.Fitting

/-!
Segments tile the text. Where a forest fits, its spans and the plain stretches around them follow each
other without a gap and without an empty stretch, so their texts in a row are the text
(`tiles_within`). The same holds of the children of a span and its own range, at any depth.
-/

set_option autoImplicit false

namespace Highlighter

namespace Segment

def isPlain : Segment → Bool
  | .plain _ _ => true
  | .token _ => false

def token? : Segment → Option Span
  | .plain _ _ => none
  | .token span => some span

/-- The segments follow each other from `start` to `stop`, and none of them is empty. -/
def InRow (start stop : Nat) : List Segment → Prop
  | [] => start = stop
  | segment :: segments =>
    segment.start = start ∧ start < segment.stop ∧ InRow segment.stop stop segments

/-- The segments are a way to divide the range into these spans and plain stretches that are as long as
they can be. -/
structure Tiles (source : List Char) (start stop : Nat) (spans : List Span)
    (segments : List Segment) : Prop where
  inRow : InRow start stop segments
  tokens : segments.filterMap token? = spans
  apart : segments.IsChain fun first second => ¬(first.isPlain ∧ second.isPlain)
  texts : slice? source start stop = some (segments.flatMap (·.text source))

variable {source covered : List Char} {reached start stop : Nat} {span : Span} {spans : List Span}
  {segments : List Segment}

theorem InRow.le (inRow : InRow start stop segments) : start ≤ stop := by
  induction segments generalizing start with
  | nil => exact Nat.le_of_eq inRow
  | cons segment segments ih =>
    obtain ⟨_, further, later⟩ := inRow
    exact Nat.le_trans (Nat.le_of_lt further) (ih later)

/-- An empty range has no segments. -/
theorem InRow.eq_nil (inRow : InRow stop stop segments) : segments = [] := by
  cases segments with
  | nil => rfl
  | cons segment segments =>
    obtain ⟨_, further, later⟩ := inRow
    exact absurd later.le (Nat.not_le_of_lt further)

theorem tiles_nil (slice : slice? source stop stop = some covered) :
    Tiles source stop stop [] [] := by
  obtain rfl := eq_nil_of_slice? slice (Nat.le_refl stop)
  exact ⟨rfl, rfl, .nil, slice⟩

theorem tiles_plain (slice : slice? source start stop = some covered) (further : start < stop) :
    Tiles source start stop [] [.plain start stop] := by
  refine ⟨⟨rfl, further, rfl⟩, rfl, .singleton _, ?_⟩
  simp [text, Segment.start, Segment.stop, Span.textOf_of_slice? slice, slice]

theorem Tiles.token (tiles : Tiles source span.stop stop spans segments)
    (nonempty : span.start < span.stop) (slice : slice? source span.start span.stop = some covered) :
    Tiles source span.start stop (span :: spans) (.token span :: segments) := by
  obtain ⟨inRow, tokens, apart, texts⟩ := tiles
  refine ⟨⟨rfl, nonempty, inRow⟩, by simp [token?, tokens], ?_, ?_⟩
  · exact apart.cons (by simp [isPlain])
  · rw [slice?_append slice texts, List.flatMap_cons]
    simp [text, Segment.start, Segment.stop, Span.textOf_of_slice? slice]

theorem Tiles.plain (tiles : Tiles source start stop spans (.token span :: segments))
    (further : reached < start) (slice : slice? source reached start = some covered) :
    Tiles source reached stop spans (.plain reached start :: .token span :: segments) := by
  obtain ⟨inRow, tokens, apart, texts⟩ := tiles
  refine ⟨⟨rfl, further, inRow⟩, (List.filterMap_cons_none rfl).trans tokens, ?_, ?_⟩
  · exact apart.cons (by simp [isPlain])
  · rw [slice?_append slice texts, List.flatMap_cons]
    simp [text, Segment.start, Segment.stop, Span.textOf_of_slice? slice]

theorem tiles_within (fits : Span.checkAll source reached start stop spans = .ok ())
    (slice : slice? source reached stop = some covered) :
    Tiles source reached stop spans (within reached stop spans) := by
  induction spans generalizing reached covered with
  | nil =>
    unfold within
    split
    · next further => exact tiles_plain slice further
    · next ends =>
      have length := start_add_byteLength_of_slice? slice
      obtain rfl : reached = stop := by omega
      exact tiles_nil slice
  | cons span spans ih =>
    obtain ⟨⟨nonempty, ahead, bounded, starts, stops, _⟩, later⟩ :=
      Span.checkAll_cons_eq_ok_iff.1 fits
    -- The text before the span, its own text, and what the spans behind it tile.
    obtain ⟨before, rest, isBefore, isRest, _⟩ :=
      exists_cut_slice? slice starts ahead (Nat.le_trans (Nat.le_of_lt nonempty) bounded)
    obtain ⟨token, behind, isToken, isBehind, _⟩ :=
      exists_cut_slice? isRest stops (Nat.le_of_lt nonempty) bounded
    have tiles := (ih later isBehind).token nonempty isToken
    unfold within
    split
    · next further => exact tiles.plain further isBefore
    · next meets =>
      obtain rfl : reached = span.start := by omega
      exact tiles

/-- Segments of a forest that fits tile the text, and there are none only of the empty text. What is
inside a span tiles the span's own range, at any depth. The texts of the segments are the text. -/
theorem tiles_ofSpans (source : List Char) (spans : List Span)
    (fits : Span.check source spans = .ok ()) :
    Tiles source 0 (byteLength source) spans (ofSpans source spans) ∧
      (ofSpans source spans = [] ↔ source = []) ∧
      (∀ span ∈ Span.preorderAll spans, Tiles source span.start span.stop span.children
        (within span.start span.stop span.children)) ∧
      reconstruct source spans = source := by
  have tiles : Tiles source 0 (byteLength source) spans (ofSpans source spans) :=
    tiles_within fits (slice?_self source)
  have texts : source = reconstruct source spans :=
    Option.some.inj ((slice?_self source).symm.trans tiles.texts)
  refine ⟨tiles, ⟨fun none => ?_, ?_⟩, fun span known => ?_, texts.symm⟩
  · rw [texts, reconstruct, none, List.flatMap_nil]
  · rintro rfl
    exact tiles.inRow.eq_nil
  · have placed := Span.isPlaced_of_mem_preorderAll spans fits span known
    obtain ⟨covered, slice⟩ := exists_slice? placed.starts placed.stops (Nat.le_of_lt placed.nonempty)
    exact tiles_within placed.children slice

theorem tiles_ofSpans_className :
    Span.check ['a', 'é', '.', 'b', ' ', '1']
        [⟨.className, 0, 5, [⟨.punctuation, 3, 4, []⟩]⟩, ⟨.number, 6, 7, []⟩] = .ok () ∧
      Tiles ['a', 'é', '.', 'b', ' ', '1'] 0 7
        [⟨.className, 0, 5, [⟨.punctuation, 3, 4, []⟩]⟩, ⟨.number, 6, 7, []⟩]
        [.token ⟨.className, 0, 5, [⟨.punctuation, 3, 4, []⟩]⟩, .plain 5 6,
          .token ⟨.number, 6, 7, []⟩] ∧
      Tiles ['a', 'é', '.', 'b', ' ', '1'] 0 5 [⟨.punctuation, 3, 4, []⟩]
        [.plain 0 3, .token ⟨.punctuation, 3, 4, []⟩, .plain 4 5] := by
  have fits : Span.check ['a', 'é', '.', 'b', ' ', '1']
      [⟨.className, 0, 5, [⟨.punctuation, 3, 4, []⟩]⟩, ⟨.number, 6, 7, []⟩] = .ok () := rfl
  obtain ⟨tiles, _, inside, _⟩ := tiles_ofSpans _ _ fits
  exact ⟨fits, tiles, inside _ List.mem_cons_self⟩

end Segment

end Highlighter
