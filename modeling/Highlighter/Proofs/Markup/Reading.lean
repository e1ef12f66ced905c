import Highlighter.Proofs.Markup.Pieces
import Highlighter.Proofs.Span.Fitting

/-!
Markup can be read. A reader that knows the class that the tags have in common counts the bytes of the text
that it has read, and keeps the spans that are open. Markup of a stretch of the text adds that text and the
spans of the stretch to whatever was read before (`adds_renderAll`), so the markup of a text in which a
forest fits gives back the text and the forest (`read?_render`).
-/

set_option autoImplicit false

namespace Highlighter

namespace Markup

/-- What has been read of some markup. -/
structure Reading where
  text : List Char := []
  /-- The spans that have ended in the innermost one that is open. -/
  spans : List Span := []
  /-- The open spans, the innermost first: the category, the start, and what had ended before it. -/
  opened : List (Category × Nat × List Span) := []

/-- Go on with a piece. Only a span that is open can end. -/
def Reading.step (reading : Reading) : Piece → Option Reading
  | .char c => some { reading with text := reading.text ++ [c] }
  | .opening category =>
    some { reading with
      spans := [], opened := (category, byteLength reading.text, reading.spans) :: reading.opened }
  | .closing =>
    match reading.opened with
    | [] => none
    | (category, start, before) :: opened =>
      let span : Span := ⟨category, start, byteLength reading.text, reading.spans⟩
      some { reading with spans := before ++ [span], opened }

/-- The text and the spans that some markup is of. There are none if it has a sign that is not one of
this class, or a tag without its partner. -/
def read? (commonClass markup : List Char) : Option (List Char × List Span) := do
  let pieces ← pieces? commonClass markup
  let reading ← pieces.foldlM Reading.step {}
  if reading.opened.isEmpty then some (reading.text, reading.spans) else none

/-- Behind `base` bytes of text, the markup adds this text and these spans to what was read, whichever
spans are open. -/
def Adds (commonClass : List Char) (base : Nat) (text : List Char) (spans : List Span)
    (markup : List Char) : Prop :=
  ∃ pieces : List Piece, markup = pieces.flatMap (·.written commonClass) ∧
    ∀ reading : Reading, byteLength reading.text = base →
      pieces.foldlM Reading.step reading =
        some { reading with text := reading.text ++ text, spans := reading.spans ++ spans }

variable {commonClass source text more first second markup : List Char} {base : Nat}
  {spans others : List Span} {category : Category}

theorem adds_nil : Adds commonClass base [] [] [] :=
  ⟨[], rfl, fun reading _ => by simp⟩

theorem Adds.append (adds : Adds commonClass base text spans first)
    (addsMore : Adds commonClass (base + byteLength text) more others second) :
    Adds commonClass base (text ++ more) (spans ++ others) (first ++ second) := by
  obtain ⟨pieces, rfl, reads⟩ := adds
  obtain ⟨morePieces, rfl, readsMore⟩ := addsMore
  refine ⟨pieces ++ morePieces, List.flatMap_append.symm, fun reading length => ?_⟩
  rw [List.foldlM_append, reads reading length]
  refine (readsMore _ ?_).trans ?_
  · rw [byteLength_append, length]
  · simp only [List.append_assoc]

theorem adds_escape (text : List Char) (base : Nat) :
    Adds commonClass base text [] (escape text) := by
  induction text generalizing base with
  | nil => exact adds_nil
  | cons c text ih =>
    have one : Adds commonClass base [c] [] (escapeChar c) :=
      ⟨[.char c], by simp [Piece.written], fun reading _ => by simp [Reading.step]⟩
    exact one.append (ih _)

/-- Tags around markup make a span of what it adds. -/
theorem Adds.enclose (adds : Adds commonClass base text spans markup) (category : Category) :
    Adds commonClass base text [⟨category, base, base + byteLength text, spans⟩]
      (openTag commonClass category ++ markup ++ closeTag) := by
  obtain ⟨pieces, rfl, reads⟩ := adds
  refine ⟨.opening category :: (pieces ++ [.closing]), by simp [Piece.written], ?_⟩
  rintro reading rfl
  have inner := reads
    ⟨reading.text, [], (category, byteLength reading.text, reading.spans) :: reading.opened⟩ rfl
  simp [Reading.step, inner]

theorem adds_gap (commonClass : List Char) {reached start : Nat}
    (slice : slice? source reached start = some text) :
    ∃ markup, gap source reached start = some markup ∧ Adds commonClass reached text [] markup := by
  refine ⟨escape text, ?_, adds_escape text reached⟩
  unfold gap
  split
  · rw [slice, Option.map_some]
  · next meets =>
    rw [eq_nil_of_slice? slice (Nat.le_of_not_lt meets)]
    rfl

mutual

theorem adds_renderOne (commonClass : List Char) (span : Span) {reached stop : Nat}
    {text : List Char} (placed : span.IsPlaced source reached stop)
    (slice : slice? source span.start span.stop = some text) :
    ∃ markup, renderOne source commonClass span = some markup ∧
      Adds commonClass span.start text [span] markup :=
  match span with
  | ⟨category, start, stop, children⟩ => by
    obtain ⟨inside, rendered, adds⟩ := adds_renderAll commonClass children placed.children slice
    refine ⟨_, by rw [renderOne, rendered]; rfl, ?_⟩
    have length := start_add_byteLength_of_slice? slice
    simpa only [length] using adds.enclose category

/-- The markup of a stretch adds the text of the stretch, and the spans in it. -/
theorem adds_renderAll (commonClass : List Char) (spans : List Span) {reached start stop : Nat}
    {text : List Char} (fits : Span.checkAll source reached start stop spans = .ok ())
    (slice : slice? source reached stop = some text) :
    ∃ markup, renderAll source commonClass reached stop spans = some markup ∧
      Adds commonClass reached text spans markup :=
  match spans with
  | [] => adds_gap commonClass slice
  | span :: spans => by
    obtain ⟨placed, later⟩ := Span.checkAll_cons_eq_ok_iff.1 fits
    have ⟨nonempty, ahead, bounded, starts, stops, _⟩ := placed
    -- The plain text before the span, the span's own text, and the rest of the stretch.
    obtain ⟨before, rest, isBefore, isRest, rfl⟩ :=
      exists_cut_slice? slice starts ahead (Nat.le_trans (Nat.le_of_lt nonempty) bounded)
    obtain ⟨token, behind, isToken, isBehind, rfl⟩ :=
      exists_cut_slice? isRest stops (Nat.le_of_lt nonempty) bounded
    obtain ⟨plain, rendersPlain, addsPlain⟩ := adds_gap commonClass isBefore
    obtain ⟨own, rendersOwn, addsOwn⟩ := adds_renderOne commonClass span placed isToken
    obtain ⟨more, rendersMore, addsMore⟩ := adds_renderAll commonClass spans later isBehind
    refine ⟨plain ++ (own ++ more), by rw [renderAll, rendersPlain, rendersOwn, rendersMore]; rfl, ?_⟩
    rw [← start_add_byteLength_of_slice? isToken] at addsMore
    rw [← start_add_byteLength_of_slice? isBefore] at addsOwn addsMore
    exact addsPlain.append (addsOwn.append addsMore)

end

theorem read?_of_adds (adds : Adds commonClass 0 text spans markup) :
    read? commonClass markup = some (text, spans) := by
  obtain ⟨pieces, rfl, reads⟩ := adds
  unfold read?
  rw [pieces?_written]
  simp [reads {} rfl]

/-- The markup of a text and a forest that fits it can be made, and a reader that knows the class which the
tags have in common finds the text and the forest in it. -/
theorem read?_render (commonClass source : List Char) (spans : List Span)
    (fits : Span.check source spans = .ok ()) :
    ∃ markup, render commonClass source spans = some markup ∧
      read? commonClass markup = some (source, spans) := by
  obtain ⟨markup, rendered, adds⟩ := adds_renderAll commonClass spans fits (slice?_self source)
  exact ⟨markup, rendered, read?_of_adds adds⟩

theorem read?_render_className :
    Span.check ['<', 'é', '.', 'b'] [⟨.className, 1, 5, [⟨.punctuation, 3, 4, []⟩]⟩] = .ok () ∧
      read? ['"', '>'] ("&lt;<span class=\"\"> class-name\">é<span class=\"\"> punctuation\">.</span>".toList ++
          "b</span>".toList) =
        some (['<', 'é', '.', 'b'], [⟨.className, 1, 5, [⟨.punctuation, 3, 4, []⟩]⟩]) := by
  have fits : Span.check ['<', 'é', '.', 'b']
      [⟨.className, 1, 5, [⟨.punctuation, 3, 4, []⟩]⟩] = .ok () := rfl
  obtain ⟨markup, rendered, read⟩ := read?_render ['"', '>'] _ _ fits
  refine ⟨fits, ?_⟩
  rw [← read]
  congr 1
  apply Option.some.inj
  rw [← rendered]
  decide

end Markup

end Highlighter
