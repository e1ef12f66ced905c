import Highlighter.Proofs.Scan.Fresh
import Mathlib.Data.List.Forall2

/-!
Scans side by side. Where the rules of two tables, one by one, report the same and are both greedy or both not,
the same matches are chosen (`Entry.winner_beside`); if besides the rules have the same categories and find the
same inside their matches, the spans are the same (`Entry.spans_alike`).
-/

set_option autoImplicit false

namespace Highlighter

namespace Entry

/-- The same match, of one entry and of another that stands for it. -/
def Beside (related : Entry → Entry → Prop) (held other : Entry × Match) : Prop :=
  related held.1 other.1 ∧ other.2 = held.2

section

variable {related : Entry → Entry → Prop} {text : List Char} {cursor later : Place} {entries others : List Entry}

theorem stronger_beside
    (greedy : ∀ {entry other}, related entry other → other.rule.greedy = entry.rule.greedy)
    {held other next following : Entry × Match} (isHeld : Beside related held other)
    (isNext : Beside related next following) :
    Beside related (stronger held next) (stronger other following) := by
  obtain ⟨heldRelated, sameHeld⟩ := isHeld
  obtain ⟨nextRelated, sameNext⟩ := isNext
  unfold stronger
  rw [sameHeld, sameNext, greedy heldRelated, greedy nextRelated]
  split
  · exact ⟨nextRelated, sameNext⟩
  · exact ⟨heldRelated, sameHeld⟩

theorem winner_beside (all : List.Forall₂ related entries others)
    (greedy : ∀ {entry other}, related entry other → other.rule.greedy = entry.rule.greedy)
    (report : ∀ {entry other}, related entry other →
      other.rule.report text later = entry.rule.report text cursor) :
    Option.Rel (Beside related) (winner text cursor entries) (winner text later others) := by
  have reported : List.Forall₂ (Beside related) (reports text cursor entries) (reports text later others) := by
    refine List.rel_filterMap (fun entry other isRelated => ?_) all
    rw [report isRelated]
    cases entry.rule.report text cursor with
    | none => exact .none
    | some found => exact .some ⟨isRelated, rfl⟩
  refine List.rel_foldl (fun held other isHeld next following isNext => ?_) .none reported
  cases isHeld with
  | none => exact .some isNext
  | some isHeld => exact .some (stronger_beside greedy isHeld isNext)

/-- Entries that report the same wherever the cursor is give the same spans. -/
structure Alike (text : List Char) (entry other : Entry) : Prop where
  category : other.rule.category = entry.rule.category
  greedy : other.rule.greedy = entry.rule.greedy
  inside : other.inside = entry.inside
  report : ∀ {cursor : Place}, cursor.In text → other.rule.report text cursor = entry.rule.report text cursor

theorem alike_refl (text : List Char) (entry : Entry) : entry.Alike text entry := ⟨rfl, rfl, rfl, fun _ => rfl⟩

theorem spanOf_alike {entry other : Entry} (alike : entry.Alike text other) (base : Nat) (found : Match) :
    spanOf base other found = spanOf base entry found := by
  rw [spanOf, spanOf, alike.category, alike.inside]

theorem spans_alike (all : List.Forall₂ (Alike text) entries others) (inside : cursor.In text) (base count : Nat) :
    spans base text others count cursor = spans base text entries count cursor := by
  induction count generalizing cursor with
  | zero => rfl
  | succ count ih =>
    have won : Option.Rel (Beside (Alike text)) (winner text cursor entries) (winner text cursor others) :=
      winner_beside all (·.greedy) (·.report inside)
    unfold spans
    generalize first : winner text cursor entries = best, winner text cursor others = other at won ⊢
    cases won with
    | none => rfl
    | @some best other beside =>
      obtain ⟨alike, same⟩ := beside
      -- Both scans go on behind the same match.
      have stopInside : best.2.stop.In text := (winner_bounds inside first).2.1
      dsimp only
      rw [same, spanOf_alike alike, ih stopInside]

end

end Entry

end Highlighter
