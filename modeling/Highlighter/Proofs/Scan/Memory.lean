import Mathlib.Data.List.Forall2
import Highlighter.Proofs.Scan.Delimited
import Highlighter.Proofs.Scan.Earliest

/-!
What is kept from one search to the next changes no answer. A closer that is kept ends where a new search
ends, in whatever order the places come (`Closer.stops_eq_fresh`), and a probe that is asked again and
again answers as a new one would each time, if the cursor does not go back (`Probe.answers_eq_fresh`).
-/

set_option autoImplicit false

namespace Highlighter

variable {text : List Char} {place cursor : Place}

namespace Closer

variable {closing : Pattern} {last : Option Closer} {places : List Place}

/-- Where the closers for these places end, the closer for each place kept for the next one. -/
def stops (closing : Pattern) : Option Closer → List Place → List Place
  | _, [] => []
  | last, place :: places =>
    let closer := next closing place last
    closer.stop :: stops closing (some closer) places

/-- A token that may close from `place` on ends behind the first closing match there, or with the text if
there is none. -/
inductive Closes (closing : Pattern) (text : List Char) (place stop : Place) : Prop where
  | byMatch {start : Place} {reach : Reach} : start.In text → place.offset ≤ start.offset →
      closing.matchAt start = some reach →
      (∀ earlier : Place, earlier.In text → place.offset ≤ earlier.offset →
        earlier.offset < start.offset → closing.matchAt earlier = none) →
      stop = reach.place → Closes closing text place stop
  | byEnd : (∀ start : Place, start.In text → place.offset ≤ start.offset →
        closing.matchAt start = none) →
      stop.offset = byteLength text → Closes closing text place stop

theorem closes_searchFrom (inside : place.In text) :
    Closes closing text place (searchFrom closing place).stop := by
  have first : closing.IsFirst text place (closing.search place) := Pattern.isFirst_search inside
  match found : closing.search place with
  | none =>
    rw [found] at first
    have ends : (searchFrom closing place).stop = place.last := by
      simp only [stop, searchFrom, found, Option.map_none]
    exact .byEnd first (by rw [ends, inside.offset_last])
  | some (start, reach) =>
    rw [found] at first
    obtain ⟨startInside, order, isMatch, earliest⟩ := first
    refine .byMatch startInside order isMatch earliest ?_
    simp only [stop, searchFrom, found, Option.map_some]

/-- Whatever sound closer there is to begin with, all of them end where new searches end. -/
theorem stops_eq_map (inside : ∀ place ∈ places, place.In text)
    (sound : ∀ closer ∈ last, closer.Sound closing text) :
    stops closing last places = places.map fun place => (searchFrom closing place).stop := by
  induction places generalizing last with
  | nil => rfl
  | cons place places ih =>
    rw [List.forall_mem_cons] at inside
    have kept : ∀ closer ∈ some (next closing place last), closer.Sound closing text := by
      rintro _ ⟨⟩
      exact sound_next inside.1 sound
    rw [stops, List.map_cons, stop_next inside.1 sound, ih inside.2 kept]

/-- A closer kept from place to place ends each time where it does when none is kept: behind the first
closing match from that place on, or at the end of the text. The places may come in any order. -/
theorem stops_eq_fresh (closing : Pattern) (text : List Char) (places : List Place)
    (inside : ∀ place ∈ places, place.In text) :
    stops closing none places = places.map (fun place => (next closing place none).stop) ∧
      List.Forall₂ (Closes closing text) places (stops closing none places) := by
  have same : stops closing none places = places.map fun place => (searchFrom closing place).stop :=
    stops_eq_map inside nofun
  refine ⟨same, ?_⟩
  rw [same, List.forall₂_map_right_iff, List.forall₂_same]
  exact fun place known => closes_searchFrom (inside place known)

/-- From inside the first `*/` back to before it, on to inside the second, and back to between the two. -/
theorem stops_eq_fresh_backwards :
    (∀ place ∈ [1, 0, 4, 2].map (Place.nth ['*', '/', ' ', '*', '/']),
        place.In ['*', '/', ' ', '*', '/']) ∧
      List.Forall₂ (Closes (.literal ['*', '/']) ['*', '/', ' ', '*', '/'])
        ([1, 0, 4, 2].map (Place.nth ['*', '/', ' ', '*', '/']))
        ([5, 2, 5, 5].map (Place.nth ['*', '/', ' ', '*', '/'])) := by
  have inside : ∀ place ∈ [1, 0, 4, 2].map (Place.nth ['*', '/', ' ', '*', '/']),
      place.In ['*', '/', ' ', '*', '/'] :=
    List.forall_mem_map.2 fun count _ => Place.nth_in _ count
  exact ⟨inside, (stops_eq_fresh (.literal ['*', '/']) _ _ inside).2⟩

end Closer

namespace Probe

variable {Inner : Type} {rule : RuleOf Inner} {probe : Probe} {cursors : List Place}

/-- What a probe answers when it is asked at one cursor after another. -/
def answers (rule : RuleOf Inner) : Probe → List Place → List (Option Match)
  | _, [] => []
  | probe, cursor :: cursors =>
    (probe.next rule cursor).1 :: answers rule (probe.next rule cursor).2 cursors

theorem Sound.answers (sound : probe.Sound rule text place)
    (ordered : (place :: cursors).Pairwise (·.offset ≤ ·.offset))
    (inside : ∀ cursor ∈ cursors, cursor.In text) :
    probe.answers rule cursors = cursors.map (rule.report text) := by
  induction cursors generalizing probe place with
  | nil => rfl
  | cons cursor cursors ih =>
    rw [List.forall_mem_cons] at inside
    obtain ⟨behind, ordered⟩ := List.pairwise_cons.1 ordered
    obtain ⟨answer, kept⟩ := (sound.dropPassed (behind cursor List.mem_cons_self)).next inside.1
    rw [Probe.answers, answer, ih kept ordered inside.2, List.map_cons]

/-- However often and wherever a probe has been asked before, it answers as a new one, if only the cursor
has not gone back. -/
theorem answers_eq_fresh (rule : RuleOf Inner) (text : List Char) (cursors : List Place)
    (inside : ∀ cursor ∈ cursors, cursor.In text)
    (ordered : cursors.Pairwise (·.offset ≤ ·.offset)) :
    (start text).answers rule cursors = cursors.map fun cursor => ((start text).next rule cursor).1 := by
  have sound : (start text).Sound rule text (.first text) := sound_start
  have reports := sound.answers (List.pairwise_cons.2 ⟨fun _ _ => Nat.zero_le _, ordered⟩) inside
  rw [reports, List.map_inj_left]
  intro cursor known
  exact (next_start rule (inside cursor known)).symm

/-- Both matches in `#a#b` close with the one `b`. The third call and the last one go past the match that
has been kept. -/
theorem answers_eq_fresh_remark :
    (∀ cursor ∈ [0, 0, 1, 3].map (Place.nth ['#', 'a', '#', 'b']), cursor.In ['#', 'a', '#', 'b']) ∧
      ([0, 0, 1, 3].map (Place.nth ['#', 'a', '#', 'b'])).Pairwise (·.offset ≤ ·.offset) ∧
      ((start ['#', 'a', '#', 'b']).answers Rule.remark
          ([0, 0, 1, 3].map (Place.nth ['#', 'a', '#', 'b']))).map
        (·.map fun found => (found.start.offset, found.stop.offset)) =
          [some (0, 4), some (0, 4), some (2, 4), none] := by
  have inside : ∀ cursor ∈ [0, 0, 1, 3].map (Place.nth ['#', 'a', '#', 'b']),
      cursor.In ['#', 'a', '#', 'b'] :=
    List.forall_mem_map.2 fun count _ => Place.nth_in _ count
  have ordered : ([0, 0, 1, 3].map (Place.nth ['#', 'a', '#', 'b'])).Pairwise (·.offset ≤ ·.offset) := by
    decide
  refine ⟨inside, ordered, ?_⟩
  rw [answers_eq_fresh Rule.remark _ _ inside ordered]
  rfl

end Probe

end Highlighter
