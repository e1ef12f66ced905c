import Highlighter.Proofs.Pattern.Congruence

/-!
What a pattern comes to, with each way cut where it goes round: the list of its reaches (`Pattern.reaches`), of
which the first is the match (`matchAt_eq_head?_reaches`), for every pattern. Before whatever a pattern stands,
the ways go on from each reach in turn (`Pattern.pruned_run`), so the reaches of a sequence and of alternatives
are put together from those of the parts.
-/

set_option autoImplicit false

namespace Highlighter

namespace Ways

variable {α : Type} {tree : Ways α} {own : Nat → Prop} {seen others : List (Nat × Nat)}

/-- All meetings are at such points. -/
def MeetsAt (own : Nat → Prop) : Ways α → Prop
  | .fail => True
  | .answer _ => True
  | .orElse first second => first.MeetsAt own ∧ (second ()).MeetsAt own
  | .meet point _ next => own point ∧ (next ()).MeetsAt own

theorem congruence_meetsAt (own : Nat → Prop) :
    Congruence (fun tree _ : Ways α => tree.MeetsAt own) fun point _ => own point where
  fail := trivial
  orElse first second := ⟨first, second⟩
  meet isOwn below := ⟨isOwn, below⟩

/-- What has been seen at other points makes no difference. -/
theorem pruned_congr (meets : tree.MeetsAt own)
    (agree : ∀ point offset, own point → ((point, offset) ∈ seen ↔ (point, offset) ∈ others)) :
    tree.pruned seen = tree.pruned others := by
  induction tree generalizing seen others with
  | fail => rfl
  | answer found => rfl
  | orElse first second ihFirst ihSecond =>
    rw [pruned, pruned, ihFirst meets.1 agree, ihSecond () meets.2 agree]
  | meet point offset next ih =>
    obtain ⟨isOwn, below⟩ := meets
    have further : ∀ other place, own other →
        ((other, place) ∈ (point, offset) :: seen ↔ (other, place) ∈ (point, offset) :: others) := by
      intro other place isOwn
      rw [List.mem_cons, List.mem_cons, agree other place isOwn]
    simp only [pruned, agree point offset isOwn, ih () below further]

end Ways

namespace Pattern

open Trial Trial.Regular

variable {α : Type} {base : Nat} {seen small large : List (Nat × Nat)}

/-- All reaches in the order of preference, but for those of ways that go round. -/
def reaches (pattern : Pattern) (reach : Reach) : List Reach := (pattern.run 0 .answer reach).pruned []

theorem meetsAt_run (pattern : Pattern) {own : Nat → Prop} {next : Trial α}
    (isOwn : ∀ index < pattern.points, own (base + index)) (follows : ∀ later, (next later).MeetsAt own)
    (reach : Reach) : (pattern.run base next reach).MeetsAt own := by
  have paired : Paired (fun point _ => own point) base base pattern.points := isOwn
  exact respects_run (Ways.congruence_meetsAt own) together_eq pattern paired next next
    (fun later _ _ => follows later) reach reach rfl

theorem meetsAt_answer (own : Nat → Prop) (reach : Reach) : (Ways.answer reach).MeetsAt own := trivial

/-- What has been seen in the one run has been seen in the other, where the points begin at `base`, and beside
its points nothing more has. -/
structure Mirrors (base count : Nat) (seen small large : List (Nat × Nat)) : Prop where
  own : ∀ index < count, ∀ offset, (index, offset) ∈ small ↔ (base + index, offset) ∈ large
  others : ∀ point offset, ¬From base count point → ((point, offset) ∈ large ↔ (point, offset) ∈ seen)

theorem Mirrors.insert {count point : Nat} (mirrors : Mirrors base count seen small large) (known : point < count)
    (offset : Nat) : Mirrors base count seen ((point, offset) :: small) ((base + point, offset) :: large) where
  own := by
    intro index less place
    rw [List.mem_cons, List.mem_cons, mirrors.own index less place]
    simp
  others := by
    intro other place outside
    have differs : other ≠ base + point := by
      rintro rfl
      exact outside ⟨Nat.le_add_right _ _, by omega⟩
    rw [List.mem_cons, mirrors.others other place outside]
    simp [differs]

/-- Ways that go on with `piece` behind each answer of others. -/
theorem congruence_pruned (base count : Nat) (seen : List (Nat × Nat)) (piece : Reach → List α) :
    Ways.Congruence (fun (tree : Ways Reach) (other : Ways α) => ∀ small large,
        Mirrors base count seen small large → other.pruned large = (tree.pruned small).flatMap piece)
      fun point other => point < count ∧ other = base + point where
  fail _ _ _ := rfl
  orElse := by
    intro first second other others isFirst isSecond small large mirrors
    rw [Ways.pruned, Ways.pruned, List.flatMap_append, isFirst small large mirrors, isSecond small large mirrors]
  meet := by
    -- Either both have been here before, or both go on having been here.
    rintro point other offset next following ⟨known, rfl⟩ below small large mirrors
    simp only [Ways.pruned, ← mirrors.own point known offset]
    split
    · rfl
    · exact below _ _ (mirrors.insert known offset)

/-- From each reach of a pattern the ways go on as what follows the pattern does there. -/
theorem pruned_run (pattern : Pattern) {next : Trial α} (reach : Reach)
    (fresh : ∀ index < pattern.points, ∀ offset, (base + index, offset) ∉ seen)
    (apart : ∀ later, (next later).MeetsAt fun point => ¬From base pattern.points point) :
    (pattern.run base next reach).pruned seen =
      (pattern.reaches reach).flatMap fun later => (next later).pruned seen := by
  have paired : Paired (fun point other => point < pattern.points ∧ other = base + point) 0 base
      pattern.points := by
    intro index less
    rw [Nat.zero_add]
    exact ⟨less, rfl⟩
  have mirrors : Mirrors base pattern.points seen [] seen := by
    refine ⟨fun index less offset => ?_, fun _ _ _ => Iff.rfl⟩
    simp [fresh index less offset]
  have related := respects_run (congruence_pruned base pattern.points seen fun later => (next later).pruned seen)
    together_eq pattern paired .answer next
  rw [renumber_id] at related
  -- What follows meets at other points, so it does not see what the pattern has come to.
  refine related ?_ reach reach rfl [] seen mirrors
  rintro later _ rfl small large mirrors
  rw [Ways.pruned, List.flatMap_singleton]
  exact Ways.pruned_congr (apart later) fun point offset outside => mirrors.others point offset outside

theorem pruned_run_answer (pattern : Pattern) (base : Nat) (reach : Reach) :
    (pattern.run base .answer reach).pruned [] = pattern.reaches reach := by
  rw [pruned_run pattern reach (fun _ _ _ => List.not_mem_nil) (meetsAt_answer _)]
  simp only [Ways.pruned, List.flatMap_singleton']

/-- The preferred match is the first reach. -/
theorem matchAt_eq_head?_reaches {pattern : Pattern} {text : List Char} {place : Place} (inside : place.In text) :
    pattern.matchAt place = (pattern.reaches { place }).head? := matchAt_eq_pruned inside

theorem mem_outcomes_of_mem_reaches {pattern : Pattern} {reach later : Reach}
    (known : later ∈ pattern.reaches reach) : later ∈ pattern.outcomes reach := by
  have isAnswer := Ways.mem_answers_of_mem_pruned known
  rw [answers_run] at isAnswer
  simpa [answersBehind, Ways.answers] using isAnswer

theorem reaches_eq_outcomes {pattern : Pattern} (advances : pattern.advances = true) (reach : Reach) :
    pattern.reaches reach = pattern.outcomes reach := by
  have clear := clear_run_answer advances reach
  rw [← Ways.among_nil] at clear
  rw [reaches, Ways.pruned_of_clear clear, answers_run]
  simp [answersBehind, Ways.answers]

/-! ### Sequences -/

theorem pruned_run_run (first second : Pattern) (reach : Reach) :
    (first.run 0 (second.run first.points .answer) reach).pruned [] =
      (first.reaches reach).flatMap second.reaches := by
  rw [pruned_run first reach (fun _ _ _ => List.not_mem_nil)]
  · simp only [pruned_run_answer]
  · intro later
    refine meetsAt_run second (fun index _ => ?_) (meetsAt_answer _) later
    simp only [From]
    omega

theorem take_append (chars others : List Char) (next : Trial α) :
    take (chars ++ others) next = take chars (take others next) := by
  induction chars with
  | nil => rfl
  | cons c chars ih =>
    funext reach
    rw [List.cons_append, take_cons, take_cons, ih]

theorem run_followedBy (first second : Pattern) (base : Nat) (next : Trial α) :
    (first.followedBy second).run base next = first.run base (second.run (base + first.points) next) := by
  fun_induction followedBy first second generalizing base next with
  | case2 first inner second ihInner ih => simp only [run, points, ihInner, ih, Nat.add_assoc]
  | _ => simp [run, points, take_append]

theorem reaches_followedBy (first second : Pattern) (reach : Reach) :
    (first.followedBy second).reaches reach = (first.reaches reach).flatMap second.reaches := by
  rw [reaches, run_followedBy, Nat.zero_add, pruned_run_run]

/-! ### Alternatives -/

theorem reaches_alt (first second : Pattern) (reach : Reach) :
    (alt first second).reaches reach = first.reaches reach ++ second.reaches reach := by
  have branch (branch : Pattern) (base : Nat) (positive : 0 < base) :
      (branch.run base (Trial.meet 0 .answer) reach).pruned [] = branch.reaches reach := by
    rw [pruned_run branch reach (fun _ _ _ => List.not_mem_nil)]
    · simp [Trial.meet, Ways.pruned]
    · exact fun later => ⟨by simp only [From]; omega, trivial⟩
  exact congr (congrArg _ (branch first 1 Nat.one_pos)) (branch second _ (by omega))

theorem reaches_branches (pattern : Pattern) (reach : Reach) :
    pattern.reaches reach = pattern.branches.flatMap (·.reaches reach) := by
  induction pattern with
  | alt first second _ ih => rw [reaches_alt, branches, List.flatMap_cons, ih]
  | _ => simp [branches]

theorem reaches_alternatives {choices : List Pattern} (nonempty : choices ≠ []) (reach : Reach) :
    (alternatives choices).reaches reach = choices.flatMap (·.reaches reach) := by
  induction choices with
  | nil => exact absurd rfl nonempty
  | cons first others ih => cases others with
    | nil => simp [alternatives]
    | cons second others =>
      have behind := ih (List.cons_ne_nil _ _)
      simp only [alternatives, reaches_alt, behind, List.flatMap_cons]

end Pattern

end Highlighter
