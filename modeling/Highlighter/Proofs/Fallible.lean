import Mathlib.Data.List.Forall2

/-!
Computations that may fail: what goes on behind one that has not, which one stops a list of them
(`mapM_eq_error_iff`), and what is known of all that one may give.
-/

set_option autoImplicit false

namespace Highlighter

section

variable {ε α β : Type} {compute : α → Except ε β} {first : α} {result : β} {others : List α} {results : List β}

theorem ok_bind (value : α) (next : α → Except ε β) : (Except.ok value >>= next) = next value := rfl

theorem map_eq_ok_iff {change : β → α} {computed : Except ε β} {value : α} :
    computed.map change = .ok value ↔ ∃ result, computed = .ok result ∧ change result = value := by
  cases computed <;> simp [Except.map]

theorem map_eq_error_iff {change : β → α} {computed : Except ε β} {error : ε} :
    computed.map change = .error error ↔ computed = .error error := by
  cases computed <;> simp [Except.map]

theorem mapM_cons_ok (head : compute first = .ok result) (tail : others.mapM compute = .ok results) :
    (first :: others).mapM compute = .ok (result :: results) := by
  rw [List.mapM_cons, head, tail]
  rfl

theorem mapM_singleton_ok (head : compute first = .ok result) : [first].mapM compute = .ok [result] :=
  mapM_cons_ok head rfl

theorem mapM_cons_error_iff {error : ε} :
    (first :: others).mapM compute = .error error ↔
      compute first = .error error ∨
        (∃ result, compute first = .ok result) ∧ others.mapM compute = .error error := by
  rw [List.mapM_cons]
  cases compute first with
  | error fault => simp [bind, Except.bind]
  | ok result => cases others.mapM compute <;> simp [bind, Except.bind, pure, Except.pure]

theorem mapM_eq_ok_iff :
    others.mapM compute = .ok results ↔
      List.Forall₂ (fun item result => compute item = .ok result) others results := by
  induction others generalizing results with
  | nil =>
    rw [List.mapM_nil, List.forall₂_nil_left_iff]
    exact ⟨fun same => (Except.ok.inj same).symm, fun same => same ▸ rfl⟩
  | cons item others ih =>
    constructor
    · intro mapped
      rw [List.mapM_cons] at mapped
      cases head : compute item with
      | error fault =>
        rw [head] at mapped
        cases mapped
      | ok result =>
        cases tail : others.mapM compute with
        | error fault =>
          rw [head, tail] at mapped
          cases mapped
        | ok rest =>
          rw [head, tail] at mapped
          cases mapped
          exact .cons head (ih.1 tail)
    · intro related
      cases related with
      | cons head tail => exact mapM_cons_ok head (ih.2 tail)

theorem exists_mapM_iff :
    (∃ results, others.mapM compute = .ok results) ↔ ∀ item ∈ others, ∃ result, compute item = .ok result := by
  simp only [mapM_eq_ok_iff]
  induction others with
  | nil => simp
  | cons item others ih =>
    rw [List.forall_mem_cons, ← ih]
    constructor
    · rintro ⟨_, head | ⟨head, tail⟩⟩
      exact ⟨⟨_, head⟩, _, tail⟩
    · rintro ⟨⟨result, head⟩, results, tail⟩
      exact ⟨_, .cons head tail⟩

/-- The first computation of a list that fails is the one whose error comes out. -/
theorem mapM_eq_error_iff {error : ε} :
    others.mapM compute = .error error ↔ ∃ before item behind, others = before ++ item :: behind ∧
      (∀ other ∈ before, ∃ result, compute other = .ok result) ∧ compute item = .error error := by
  induction others with
  | nil => simp [pure, Except.pure]
  | cons first others ih =>
    rw [mapM_cons_error_iff, ih]
    constructor
    · rintro (here | ⟨succeeds, before, item, behind, rfl, others, fails⟩)
      · exact ⟨[], first, others, rfl, nofun, here⟩
      · exact ⟨first :: before, item, behind, rfl, List.forall_mem_cons.2 ⟨succeeds, others⟩, fails⟩
    · rintro ⟨before, item, behind, split, succeed, fails⟩
      cases before with
      | nil =>
        cases split
        exact .inl fails
      | cons other before =>
        obtain ⟨rfl, rfl⟩ := List.cons.inj split
        obtain ⟨succeeds, others⟩ := List.forall_mem_cons.1 succeed
        exact .inr ⟨succeeds, before, item, behind, rfl, others, fails⟩

/-- Lists of computations, one list after the other, are one list of them. -/
theorem mapM_flatMap {γ : Type} {parts : γ → List α} (lists : List γ) :
    (lists.flatMap parts).mapM compute =
      (lists.mapM fun list => (parts list).mapM compute).map List.flatten := by
  induction lists with
  | nil => rfl
  | cons list lists ih =>
    rw [List.flatMap_cons, List.mapM_append, List.mapM_cons, ih]
    cases (parts list).mapM compute with
    | error fault => rfl
    | ok results => cases lists.mapM fun list => (parts list).mapM compute <;> rfl

end

/-- What comes out, if anything does, is such. -/
def Gives {ε β : Type} (fine : β → Prop) (result : Except ε β) : Prop := ∀ value, result = .ok value → fine value

section

variable {ε β γ : Type} {fine : β → Prop}

theorem gives_error (error : ε) : Gives fine (.error error) := nofun

theorem gives_pure {value : β} (isFine : fine value) : Gives fine (pure value : Except ε β) := by
  rintro other same
  cases same
  exact isFine

theorem gives_bind {first : Except ε γ} {next : γ → Except ε β}
    (follows : ∀ value, first = .ok value → Gives fine (next value)) : Gives fine (first >>= next) := by
  cases first with
  | error error => exact gives_error error
  | ok value => exact follows value rfl

theorem gives_mapError {δ : Type} {result : Except ε β} (gives : Gives fine result) (change : ε → δ) :
    Gives fine (result.mapError change) := by
  cases result with
  | error error => exact gives_error (change error)
  | ok value => exact gives_pure (gives value rfl)

end

end Highlighter
