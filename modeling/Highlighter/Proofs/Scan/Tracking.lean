import Highlighter.Proofs.Scan.Fresh

/-!
Probes are sound. What a probe has put behind it holds no match that its rule could still report, but for
the pending one, and a closer that it keeps is what a new search would find. One search keeps this
(`Sound.step`), so a probe reports what its rule reports when asked anew (`Sound.next`).
-/

set_option autoImplicit false

namespace Highlighter

variable {Inner : Type} {rule : RuleOf Inner} {text : List Char} {cursor later place : Place}

namespace Closer

/-- The closer is what the search where it began finds. -/
structure Sound (closing : Pattern) (text : List Char) (closer : Closer) : Prop where
  inside : closer.sought.In text
  searched : closer = searchFrom closing closer.sought

variable {closing : Pattern} {closer : Closer} {last : Option Closer}

theorem sound_searchFrom (inside : place.In text) : (searchFrom closing place).Sound closing text :=
  ⟨inside, rfl⟩

theorem stop_searchFrom (inside : place.In text) :
    (searchFrom closing place).stop =
      match closing.firstMatch place with
      | none => place.last
      | some (_, reach) => reach.place := by
  rw [← Pattern.search_eq_firstMatch inside]
  unfold stop searchFrom
  match closing.search place with
  | none => rfl
  | some (start, reach) => rfl

theorem Sound.stop_of_answers (sound : closer.Sound closing text) (inside : place.In text)
    (answers : closer.answers place = true) :
    closer.stop = (searchFrom closing place).stop := by
  obtain ⟨soughtInside, searched⟩ := sound
  simp only [Closer.answers, Bool.and_eq_true, decide_eq_true_eq] at answers
  obtain ⟨order, ahead⟩ := answers
  have found : closer.found =
      (closing.firstMatch closer.sought).map fun first => (first.1, first.2.place) := by
    rw [← Pattern.search_eq_firstMatch soughtInside]
    exact congrArg Closer.found searched
  rw [stop_searchFrom inside]
  cases isFirst : closing.firstMatch closer.sought with
  | none =>
    rw [isFirst] at found
    rw [Pattern.firstMatch_eq_none_of_earlier soughtInside inside order isFirst]
    simp only [stop, found, Option.map_none]
    exact soughtInside.last_eq inside
  | some first =>
    obtain ⟨start, reach⟩ := first
    rw [isFirst] at found
    have notPassed : place.offset ≤ start.offset := by simpa [found] using ahead
    rw [Pattern.firstMatch_of_earlier soughtInside inside order isFirst notPassed]
    simp only [stop, found, Option.map_some]

theorem sound_next (inside : place.In text) (sound : ∀ closer ∈ last, closer.Sound closing text) :
    (next closing place last).Sound closing text := by
  unfold next
  split
  · next closer =>
    split
    · exact sound closer rfl
    · exact sound_searchFrom inside
  · exact sound_searchFrom inside

theorem stop_next (inside : place.In text) (sound : ∀ closer ∈ last, closer.Sound closing text) :
    (next closing place last).stop = (searchFrom closing place).stop := by
  unfold next
  split
  · next closer =>
    split
    · next answers => exact (sound closer rfl).stop_of_answers inside answers
    · rfl
  · rfl

end Closer

/-- The closer of a delimited rule, if the probe has one, is sound; other rules use none. -/
def RuleOf.KeepsCloser (rule : RuleOf Inner) (text : List Char) (closer : Option Closer) : Prop :=
  ∀ source closing, rule.closing = some (source, closing) →
    ∀ kept ∈ closer, kept.Sound closing text

namespace RuleOf

variable {last : Option Closer}

theorem search_eq_none (nothing : rule.opening.search place = none) :
    rule.search place last = (none, last) := by
  simp [search, nothing]

theorem exists_search_eq_some {context : Place} {reach : Reach} (inside : place.In text)
    (keeps : rule.KeepsCloser text last)
    (isFirst : rule.opening.search place = some (context, reach)) :
    ∃ found closer, rule.search place last = (some found, closer) ∧
      rule.KeepsCloser text closer ∧ rule.freshMatch context = some found := by
  obtain ⟨_, _, isMatch, reachInside⟩ := Pattern.bounds_of_search inside isFirst
  simp only [search, isFirst, freshMatch, isMatch, freshStop, Option.map_some]
  cases isClosing : rule.closing with
  | none => exact ⟨_, _, rfl, keeps, rfl⟩
  | some closer =>
    obtain ⟨source, closing⟩ := closer
    have sound := keeps source closing isClosing
    refine ⟨_, _, rfl, ?_, ?_⟩
    · intro other otherClosing same kept isKept
      cases isClosing.symm.trans same
      cases isKept
      exact Closer.sound_next reachInside sound
    · exact congrArg some (congrArg _
        ((Closer.stop_next reachInside sound).trans (Closer.stop_searchFrom reachInside)).symm)

end RuleOf

namespace Probe

variable {probe : Probe} {found : Match}

/-- The place has been searched: the next search begins further on. -/
def Passed (probe : Probe) (place : Place) : Prop :=
  ∀ next ∈ probe.resume, place.offset < next.offset

/-- What a probe knows when the scan has come to the cursor. -/
structure Sound (rule : RuleOf Inner) (text : List Char) (cursor : Place) (probe : Probe) : Prop where
  resumeInside : ∀ place ∈ probe.resume, place.In text
  keepsCloser : rule.KeepsCloser text probe.closer
  pendingOffers : ∀ found ∈ probe.pending, rule.Offers text cursor found ∧ probe.Passed found.context
  onlyPending : ∀ found, rule.Offers text cursor found →
    probe.exhausted = true ∨ probe.Passed found.context → probe.pending = some found

theorem sound_start : (Probe.start text).Sound rule text cursor where
  resumeInside := by
    intro place isResume
    cases isResume
    exact Place.first_in text
  keepsCloser := fun _ _ _ _ isKept => nomatch isKept
  pendingOffers := fun _ isPending => nomatch isPending
  onlyPending := by
    rintro found - (exhausted | passed)
    · cases exhausted
    · exact absurd (passed _ rfl) (Nat.not_lt_zero _)

theorem useful_mono (order : cursor.offset ≤ later.offset) (isUseful : useful later found = true) :
    useful cursor found = true := by
  simp only [useful, Bool.and_eq_true, decide_eq_true_eq] at isUseful ⊢
  exact ⟨Nat.le_trans order isUseful.1, isUseful.2⟩

theorem Sound.dropPassed (sound : probe.Sound rule text cursor)
    (order : cursor.offset ≤ later.offset) : (probe.dropPassed later).Sound rule text later where
  resumeInside := sound.resumeInside
  keepsCloser := sound.keepsCloser
  pendingOffers := by
    intro found isPending
    obtain ⟨isPending, ahead⟩ := Option.filter_eq_some_iff.1 isPending
    obtain ⟨⟨inside, isMatch, isUseful⟩, passed⟩ := sound.pendingOffers found isPending
    refine ⟨⟨inside, isMatch, ?_⟩, passed⟩
    simp only [useful, Bool.and_eq_true, decide_eq_true_eq] at isUseful ⊢
    exact ⟨by simpa using ahead, isUseful.2⟩
  onlyPending := by
    rintro found ⟨inside, isMatch, isUseful⟩ behind
    have offered : rule.Offers text cursor found := ⟨inside, isMatch, useful_mono order isUseful⟩
    refine Option.filter_eq_some_iff.2 ⟨sound.onlyPending found offered behind, ?_⟩
    simp only [useful, Bool.and_eq_true, decide_eq_true_eq] at isUseful
    simpa using isUseful.1

theorem resumeFor_eq_none (ends : probe.resumeFor rule cursor = none) : probe.resume = none := by
  unfold resumeFor at ends
  split at ends
  · exact ends
  · exact Option.map_eq_none_iff.1 ends

/-- A place to search from: no match that the rule could report lies between what has been passed and
this place. -/
structure Covers (rule : RuleOf Inner) (text : List Char) (cursor : Place) (probe : Probe)
    (place : Place) : Prop where
  inside : place.In text
  resumes : ∃ next, probe.resume = some next ∧ next.offset ≤ place.offset
  ahead : ∀ found, rule.Offers text cursor found →
    probe.Passed found.context ∨ place.offset ≤ found.context.offset

theorem Sound.covers_resume (sound : probe.Sound rule text cursor)
    (isResume : probe.resume = some place) : probe.Covers rule text cursor place where
  inside := sound.resumeInside place isResume
  resumes := ⟨place, isResume, Nat.le_refl _⟩
  ahead := by
    intro found _
    rcases Nat.lt_or_ge found.context.offset place.offset with before | ahead
    · refine .inl fun next isNext => ?_
      cases isResume.symm.trans isNext
      exact before
    · exact .inr ahead

theorem Sound.covers_resumeFor (sound : probe.Sound rule text cursor) (inside : cursor.In text)
    (resumes : probe.resumeFor rule cursor = some place) : probe.Covers rule text cursor place := by
  unfold Probe.resumeFor at resumes
  split at resumes
  · exact sound.covers_resume resumes
  · next direct =>
    obtain ⟨next, isResume, same⟩ := Option.map_eq_some_iff.1 resumes
    unfold Place.further at same
    split at same
    · next further =>
      subst same
      refine ⟨inside, ⟨next, isResume, Nat.le_of_lt further⟩, fun found offers => .inr ?_⟩
      have order := offers.firstStart_le
      rwa [RuleOf.firstStart, if_neg direct] at order
    · subst same
      exact sound.covers_resume isResume

/-- What one search can do: there is nothing left to search; or it finds nothing from some place on; or
it finds the first match from there on, and goes on behind the start of that. -/
theorem Sound.step_cases (sound : probe.Sound rule text cursor) (inside : cursor.In text) :
    (probe.resumeFor rule cursor = none ∧ probe.step rule cursor = { probe with exhausted := true }) ∨
      ∃ place, probe.resumeFor rule cursor = some place ∧ probe.Covers rule text cursor place ∧
        (((rule.search place probe.closer).1 = none ∧ rule.opening.firstMatch place = none ∧
            probe.step rule cursor = { probe with resume := some place, exhausted := true }) ∨
          ∃ found reach closer, (rule.search place probe.closer).1 = some found ∧
            rule.opening.firstMatch place = some (found.context, reach) ∧
            rule.freshMatch found.context = some found ∧ rule.KeepsCloser text closer ∧
            probe.step rule cursor = { probe with
              resume := found.context.next?, closer
              pending := if useful cursor found then some found else none }) := by
  match resumes : probe.resumeFor rule cursor with
  | none => exact .inl ⟨rfl, by simp only [Probe.step, resumes]⟩
  | some place =>
    have covers := sound.covers_resumeFor inside resumes
    refine .inr ⟨place, rfl, covers, ?_⟩
    match searched : rule.opening.search place with
    | none =>
      have result : rule.search place probe.closer = (none, probe.closer) := RuleOf.search_eq_none searched
      refine .inl ⟨by rw [result], by rw [← Pattern.search_eq_firstMatch covers.inside, searched], ?_⟩
      simp only [Probe.step, resumes, result]
    | some (context, reach) =>
      obtain ⟨found, closer, result, keeps, isMatch⟩ :=
        RuleOf.exists_search_eq_some covers.inside sound.keepsCloser searched
      obtain ⟨contextInside, _⟩ := Pattern.bounds_of_search covers.inside searched
      have sameContext := (RuleOf.freshMatch_bounds contextInside isMatch).1
      subst sameContext
      rw [Pattern.search_eq_firstMatch covers.inside] at searched
      exact .inr ⟨found, reach, closer, by rw [result], searched, isMatch, keeps, by
        simp only [Probe.step, resumes, result]⟩

theorem unsettled_iff : probe.isSettled = false ↔ probe.exhausted = false ∧ probe.pending = none := by
  simp [isSettled]

theorem Sound.step (sound : probe.Sound rule text cursor) (inside : cursor.In text)
    (unsettled : probe.isSettled = false) : (probe.step rule cursor).Sound rule text cursor := by
  obtain ⟨notExhausted, noPending⟩ := unsettled_iff.1 unsettled
  have notPassed (found : Match) (offers : rule.Offers text cursor found) :
      ¬probe.Passed found.context := by
    intro passed
    have isPending := sound.onlyPending found offers (.inr passed)
    rw [noPending] at isPending
    cases isPending
  -- An unsettled probe has reported all that it has passed, so what it can still report lies ahead.
  rcases sound.step_cases inside with ⟨nowhere, result⟩ | ⟨place, _, covers, stepped⟩
  · rw [result]
    refine ⟨sound.resumeInside, sound.keepsCloser, sound.pendingOffers, fun found offers _ => ?_⟩
    refine absurd ?_ (notPassed found offers)
    intro next isNext
    rw [resumeFor_eq_none nowhere] at isNext
    cases isNext
  · have ahead (found : Match) (offers : rule.Offers text cursor found) :
        place.offset ≤ found.context.offset :=
      (covers.ahead found offers).resolve_left (notPassed found offers)
    rcases stepped with
      ⟨_, nothing, result⟩ | ⟨found, reach, closer, _, isFirst, isMatch, keeps, result⟩
    · rw [result]
      refine ⟨?_, sound.keepsCloser, ?_, fun found offers _ => ?_⟩
      · intro next isNext
        cases isNext
        exact covers.inside
      · intro found isPending
        rw [noPending] at isPending
        cases isPending
      · exact absurd ((Pattern.firstMatch_eq_none_iff covers.inside).1 nothing found.context
          offers.inside (ahead found offers)) offers.matchAt_ne_none
    · obtain ⟨contextInside, _, _, earliest⟩ :=
        (Pattern.firstMatch_eq_some_iff covers.inside).1 isFirst
      rw [result]
      refine ⟨fun next isNext => contextInside.next? isNext, keeps, ?_, ?_⟩
      · intro other isPending
        by_cases isUseful : useful cursor found = true
        · rw [if_pos isUseful] at isPending
          cases isPending
          exact ⟨⟨contextInside, isMatch, isUseful⟩, fun next isNext => Place.lt_next? isNext⟩
        · rw [if_neg isUseful] at isPending
          cases isPending
      · rintro other offers (exhausted | passed)
        · rw [notExhausted] at exhausted
          cases exhausted
        -- No match of the rule lies before the one found, and nothing lies between it and the next place.
        · have order : found.context.offset ≤ other.context.offset :=
            Nat.le_of_not_lt fun before => offers.matchAt_ne_none
              (earliest other.context offers.inside (ahead other offers) before)
          have sameContext : other.context = found.context :=
            contextInside.eq_of_lt_next? offers.inside order passed
          have same := offers.isMatch
          rw [sameContext, isMatch] at same
          cases same
          exact if_pos offers.useful

def searches (probe : Probe) : Nat :=
  match probe.resume with
  | none => 0
  | some place => place.rest.length + 1

theorem searches_le_left (probe : Probe) : probe.searches ≤ probe.left.length + 1 := by
  unfold searches left
  cases probe.resume with
  | none => exact Nat.zero_le _
  | some place => exact Nat.le_refl _

/-- Behind the start of a match there is a character less to search. -/
theorem Sound.searches_lt {context : Place} {after : Probe} (sound : probe.Sound rule text cursor)
    (covers : probe.Covers rule text cursor place) (inside : context.In text)
    (order : place.offset ≤ context.offset) (goesOn : after.resume = context.next?) :
    after.searches < probe.searches := by
  obtain ⟨next, isResume, nextOrder⟩ := covers.resumes
  have shorter := (sound.resumeInside next isResume).length_rest_le inside (Nat.le_trans nextOrder order)
  simp only [searches, goesOn, isResume, Place.next?]
  cases follows : context.rest with
  | nil => exact Nat.succ_pos _
  | cons c rest =>
    rw [follows, List.length_cons] at shorter
    exact Nat.succ_lt_succ shorter

theorem Sound.settles_or_searches_lt (sound : probe.Sound rule text cursor)
    (inside : cursor.In text) :
    (probe.step rule cursor).isSettled = true ∨
      (probe.step rule cursor).searches < probe.searches := by
  rcases sound.step_cases inside with ⟨_, result⟩ |
    ⟨place, _, covers, ⟨_, _, result⟩ | ⟨found, reach, closer, _, isFirst, _, _, result⟩⟩
  · rw [result]
    exact .inl rfl
  · rw [result]
    exact .inl rfl
  · obtain ⟨contextInside, order, _, _⟩ := (Pattern.firstMatch_eq_some_iff covers.inside).1 isFirst
    refine .inr (sound.searches_lt covers contextInside order ?_)
    rw [result]

theorem stepUnlessSettled_of_settled (settled : probe.isSettled = true) :
    probe.stepUnlessSettled rule cursor = probe := if_pos settled

theorem stepUnlessSettled_of_unsettled (unsettled : probe.isSettled = false) :
    probe.stepUnlessSettled rule cursor = probe.step rule cursor := if_neg (by simp [unsettled])

theorem advance_of_settled (settled : probe.isSettled = true) (rest : List Char) :
    advance rule cursor rest probe = probe := by
  cases rest with
  | nil =>
    rw [advance, stepUnlessSettled_of_settled settled, stepUnlessSettled_of_settled settled]
  | cons c rest => exact if_pos settled

theorem Sound.stepUnlessSettled (sound : probe.Sound rule text cursor) (inside : cursor.In text) :
    (probe.stepUnlessSettled rule cursor).Sound rule text cursor := by
  cases settled : probe.isSettled with
  | true => rwa [stepUnlessSettled_of_settled settled]
  | false =>
    rw [stepUnlessSettled_of_unsettled settled]
    exact sound.step inside settled

/-- Searching on keeps a probe sound, and settles it if there are as many steps as searches. -/
theorem Sound.advance (sound : probe.Sound rule text cursor) (inside : cursor.In text)
    (rest : List Char) (enough : probe.searches ≤ rest.length + 1) :
    (advance rule cursor rest probe).Sound rule text cursor ∧
      (advance rule cursor rest probe).isSettled = true := by
  induction rest generalizing probe with
  | nil =>
    -- Without characters left there are two more searches: one at the end of the text, one behind it.
    refine ⟨(sound.stepUnlessSettled inside).stepUnlessSettled inside, ?_⟩
    unfold Probe.advance
    cases settled : probe.isSettled with
    | true => rwa [stepUnlessSettled_of_settled settled, stepUnlessSettled_of_settled settled]
    | false =>
      rw [stepUnlessSettled_of_unsettled settled]
      rcases sound.settles_or_searches_lt inside with soon | fewer
      · rwa [stepUnlessSettled_of_settled soon]
      · cases later : (probe.step rule cursor).isSettled with
        | true => rwa [stepUnlessSettled_of_settled later]
        | false =>
          rw [stepUnlessSettled_of_unsettled later]
          have last := (sound.step inside settled).settles_or_searches_lt inside
          rw [List.length_nil] at enough
          exact last.resolve_right (by omega)
  | cons c rest ih =>
    unfold Probe.advance
    cases settled : probe.isSettled with
    | true => exact ⟨sound, settled⟩
    | false =>
      have kept := sound.step inside settled
      simp only [Bool.false_eq_true, if_false]
      rcases sound.settles_or_searches_lt inside with soon | fewer
      · rw [advance_of_settled soon]
        exact ⟨kept, soon⟩
      · rw [List.length_cons] at enough
        exact ih kept (by omega)

theorem Sound.pending_eq_report (sound : probe.Sound rule text cursor) (inside : cursor.In text)
    (settled : probe.isSettled = true) : probe.pending = rule.report text cursor := by
  match isPending : probe.pending with
  | none =>
    -- Nothing is pending, so the probe has searched all of the text.
    have exhausted : probe.exhausted = true := by simpa [isSettled, isPending] using settled
    refine ((RuleOf.report_eq_none_iff inside).2 fun found offers => ?_).symm
    have same := sound.onlyPending found offers (.inl exhausted)
    rw [isPending] at same
    cases same
  | some found =>
    obtain ⟨offers, passed⟩ := sound.pendingOffers found isPending
    refine ((RuleOf.report_eq_some_iff inside).2 ⟨offers, fun other otherOffers => ?_⟩).symm
    refine Nat.le_of_not_lt fun before => ?_
    -- What lies before the pending match has been passed, and only that match was kept.
    have otherPassed : probe.Passed other.context := fun next isNext =>
      Nat.lt_trans before (passed next isNext)
    have same := sound.onlyPending other otherOffers (.inr otherPassed)
    cases isPending.symm.trans same
    exact Nat.lt_irrefl _ before

/-- Asked at a cursor, a sound probe answers what its rule reports there, and stays sound. -/
theorem Sound.next (sound : (probe.dropPassed cursor).Sound rule text cursor)
    (inside : cursor.In text) :
    (probe.next rule cursor).1 = rule.report text cursor ∧
      (probe.next rule cursor).2.Sound rule text cursor := by
  obtain ⟨kept, settled⟩ := sound.advance inside _ (searches_le_left _)
  exact ⟨kept.pending_eq_report inside settled, kept⟩

end Probe

end Highlighter
