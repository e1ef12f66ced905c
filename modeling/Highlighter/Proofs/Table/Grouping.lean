import Highlighter.Proofs.Table.Compile
import Mathlib.Data.List.Induction
import Mathlib.Data.List.Nodup

/-!
Building tables from declarations, whatever the syntax of their patterns. A table has the rules of each category
together, in the order in which the categories were first declared, and the rules of one category in the order in
which they were given (`TableDraft.IsGrouped`). If some cannot be compiled, the first of them in this order decides
(`TableDraft.FirstFault`). One theorem says both of any sequence of declarations (`TableDraft.build_declarations`).
-/

set_option autoImplicit false

namespace Highlighter.TableDraft

/-- One call on a draft. -/
inductive Declaration where
  | rule (category : Category) (spec : RuleSpec)
  | rulesOf (category : Category) (specs : List RuleSpec)

/-- A rule as it has been declared. -/
abbrev Declared := Category × RuleSpec

def Declaration.category : Declaration → Category
  | .rule category _ => category
  | .rulesOf category _ => category

def Declaration.given : Declaration → List Declared
  | .rule category spec => [(category, spec)]
  | .rulesOf category specs => specs.map (category, ·)

def declare (draft : TableDraft) : Declaration → TableDraft
  | .rule category spec => draft.rule category spec
  | .rulesOf category specs => draft.rulesOf category specs

def ofDeclarations (declarations : List Declaration) : TableDraft := declarations.foldl declare empty

/-- All rules that are declared, in the order of the calls. -/
def given (declarations : List Declaration) : List Declared := declarations.flatMap Declaration.given

/-- The categories, in the order of their first declarations. -/
def categoriesOf (declared : List Declared) : List Category := (declared.map (·.1)).eraseDups

/-- The rules of one category, in the order of the calls. -/
def part (declared : List Declared) (category : Category) : List Declared :=
  declared.filter (·.1 == category)

/-- The order in which rules are compiled and tried. -/
def grouped (declared : List Declared) : List Declared := (categoriesOf declared).flatMap (part declared)

/-- The table has the declared rules, category by category, and one entry of the draft for each category. -/
structure IsGrouped (read : PatternSyntax) (declarations : List Declaration) (table : RuleTable) : Prop where
  distinct : table.categories.Nodup
  entries_distinct : ((ofDeclarations declarations).entries.map (·.1)).Nodup
  entries_eq : table.categories = (ofDeclarations declarations).entries.map (·.1)
  categories_eq : table.categories = categoriesOf (given declarations)
  rules : List.Forall₂ (fun declared rule => declared.2.Makes read declared.1 rule)
    (grouped (given declarations)) table.rules
  size_eq : table.size = (given declarations).length
  subset_eq_none_iff : ∀ category,
    table.subset category = none ↔ ∀ declared ∈ given declarations, declared.1 ≠ category
  subset_eq_some_iff : ∀ category smaller, table.subset category = some smaller ↔
    (∃ declared ∈ given declarations, declared.1 = category) ∧
      (ofDeclarations (declarations.filter (·.category == category))).build read = .ok smaller

/-- The error is that of the first rule that cannot be compiled. -/
def FirstFault (read : PatternSyntax) (order : List Declared) (error : RuleError) : Prop :=
  ∃ before declared behind, order = before ++ declared :: behind ∧
    (∀ other ∈ before, ∃ rule, other.2.Makes read other.1 rule) ∧ declared.2.Fails read declared.1 error

variable {read : PatternSyntax} {declared : List Declared} {category other : Category} {spec : RuleSpec}
  {declarations : List Declaration} {table : RuleTable}

/-! ### Categories -/

theorem eraseDups_concat (categories : List Category) (category : Category) :
    (categories ++ [category]).eraseDups =
      if category ∈ categories then categories.eraseDups else categories.eraseDups ++ [category] := by
  rw [List.eraseDups_append, List.removeAll]
  by_cases known : category ∈ categories
  · simp [known]
  · simp [known, List.eraseDups_cons]

theorem nodup_eraseDups (categories : List Category) : categories.eraseDups.Nodup := by
  induction categories using List.reverseRecOn with
  | nil => exact List.nodup_nil
  | append_singleton categories category ih =>
    rw [eraseDups_concat]
    split
    · exact ih
    next unknown =>
      refine List.nodup_append.2 ⟨ih, List.nodup_singleton _, ?_⟩
      rintro other known _ isLast rfl
      rw [List.mem_singleton.1 isLast] at known
      exact unknown (List.mem_eraseDups.1 known)

theorem nodup_categoriesOf (declared : List Declared) : (categoriesOf declared).Nodup := nodup_eraseDups _

theorem categoriesOf_concat (declared : List Declared) (category : Category) (spec : RuleSpec) :
    categoriesOf (declared ++ [(category, spec)]) =
      if category ∈ categoriesOf declared then categoriesOf declared
      else categoriesOf declared ++ [category] := by
  rw [categoriesOf, List.map_append, List.map_singleton, eraseDups_concat]
  simp only [categoriesOf, List.mem_eraseDups]

theorem mem_categoriesOf : category ∈ categoriesOf declared ↔ ∃ entry ∈ declared, entry.1 = category := by
  rw [categoriesOf, List.mem_eraseDups, List.mem_map]

theorem part_concat (declared : List Declared) (category other : Category) (spec : RuleSpec) :
    part (declared ++ [(category, spec)]) other =
      part declared other ++ if category = other then [(category, spec)] else [] := by
  rw [part, List.filter_append, part]
  by_cases same : category = other <;> simp [same]

theorem part_eq_nil_iff : part declared category = [] ↔ category ∉ categoriesOf declared := by
  simp only [part, List.filter_eq_nil_iff, mem_categoriesOf, beq_iff_eq, not_exists, not_and]

/-! ### Drafts -/

/-- The entries of a draft of these rules. -/
def entriesOf (declared : List Declared) : List (Category × List RuleSpec) :=
  (categoriesOf declared).map fun category => (category, (part declared category).map (·.2))

theorem insert_map (categories : List Category) (specs : Category → List RuleSpec)
    (distinct : categories.Nodup) (new : category ∉ categories → specs category = []) :
    insert category spec (categories.map fun other => (other, specs other)) =
      (if category ∈ categories then categories else categories ++ [category]).map fun other =>
        (other, specs other ++ if category = other then [spec] else []) := by
  induction categories with
  | nil => simp [insert, new]
  | cons first categories ih =>
    obtain ⟨fresh, distinct⟩ := List.nodup_cons.1 distinct
    rw [List.map_cons, insert]
    by_cases same : first = category
    · subst same
      have others : ∀ other ∈ categories, first ≠ other := fun other known same => fresh (same ▸ known)
      simp +contextual [others]
    · have sameNew (unknown : category ∉ categories) : specs category = [] :=
        new (by simp [unknown, Ne.symm same])
      rw [if_neg same, ih distinct sameNew]
      by_cases known : category ∈ categories <;> simp [known, Ne.symm same]

theorem insert_entriesOf (declared : List Declared) (category : Category) (spec : RuleSpec) :
    insert category spec (entriesOf declared) = entriesOf (declared ++ [(category, spec)]) := by
  have new (unknown : category ∉ categoriesOf declared) : (part declared category).map (·.2) = [] := by
    rw [part_eq_nil_iff.2 unknown, List.map_nil]
  rw [entriesOf, insert_map _ (fun other => (part declared other).map (·.2)) (nodup_categoriesOf declared) new,
    ← categoriesOf_concat declared category spec, entriesOf]
  refine List.map_congr_left fun other _ => ?_
  rw [part_concat, List.map_append]
  split <;> rfl

theorem foldl_declared (declared more : List Declared) :
    (more.foldl (fun draft entry => draft.rule entry.1 entry.2) ⟨entriesOf declared⟩ : TableDraft) =
      ⟨entriesOf (declared ++ more)⟩ := by
  induction more generalizing declared with
  | nil => rw [List.foldl_nil, List.append_nil]
  | cons entry more ih =>
    rw [List.foldl_cons, rule, insert_entriesOf, ih, List.append_assoc, List.singleton_append]

theorem declare_eq (draft : TableDraft) (declaration : Declaration) :
    draft.declare declaration =
      declaration.given.foldl (fun draft entry => draft.rule entry.1 entry.2) draft := by
  cases declaration with
  | rule category spec => rfl
  | rulesOf category specs => rw [Declaration.given, List.foldl_map]; rfl

theorem ofDeclarations_eq (declarations : List Declaration) :
    ofDeclarations declarations = ⟨entriesOf (given declarations)⟩ := by
  have all (draft : TableDraft) : declarations.foldl declare draft =
      (given declarations).foldl (fun draft entry => draft.rule entry.1 entry.2) draft := by
    induction declarations generalizing draft with
    | nil => rfl
    | cons declaration declarations ih =>
      have split : given (declaration :: declarations) = declaration.given ++ given declarations :=
        List.flatMap_cons
      rw [List.foldl_cons, ih, declare_eq, split, List.foldl_append]
  exact (all empty).trans (foldl_declared [] _)

/-- A draft has one entry for each category. -/
theorem categories_ofDeclarations (declarations : List Declaration) :
    (ofDeclarations declarations).entries.map (·.1) = categoriesOf (given declarations) := by
  rw [ofDeclarations_eq, entriesOf, List.map_map]
  exact List.map_id' _

/-- The rules of all entries, one entry after the other. -/
def listed (entries : List (Category × List RuleSpec)) : List Declared :=
  entries.flatMap fun entry => entry.2.map (entry.1, ·)

theorem listed_entriesOf (declared : List Declared) : listed (entriesOf declared) = grouped declared := by
  rw [listed, entriesOf, List.flatMap_map, grouped]
  refine List.flatMap_congr fun category _ => ?_
  have same (entry : Declared) (known : entry ∈ part declared category) : (category, entry.2) = entry := by
    rw [← eq_of_beq (List.mem_filter.1 known).2]
  rw [List.map_map]
  exact (List.map_congr_left same).trans (List.map_id' _)

theorem listed_insert_perm (entries : List (Category × List RuleSpec)) (category : Category) (spec : RuleSpec) :
    (listed (insert category spec entries)).Perm (listed entries ++ [(category, spec)]) := by
  induction entries with
  | nil => exact .refl _
  | cons first entries ih =>
    obtain ⟨other, specs⟩ := first
    rw [insert]
    split
    next same =>
      subst same
      simp only [listed, List.flatMap_cons, List.map_append, List.append_assoc]
      exact List.Perm.append_left _ List.perm_append_comm
    · simp only [listed, List.flatMap_cons, List.append_assoc]
      exact List.Perm.append_left _ ih

theorem grouped_perm (declared : List Declared) : (grouped declared).Perm declared := by
  induction declared using List.reverseRecOn with
  | nil => exact .refl _
  | append_singleton declared entry ih =>
    rw [← listed_entriesOf, ← insert_entriesOf]
    refine (listed_insert_perm _ _ _).trans ?_
    rw [listed_entriesOf]
    exact ih.append_right _

/-! ### Parts -/

theorem part_part (declared : List Declared) (category other : Category) :
    part (part declared other) category = if category = other then part declared category else [] := by
  rw [part, part, List.filter_filter]
  split
  next same => simp [same, part]
  next differs =>
    refine List.filter_eq_nil_iff.2 fun entry _ both => differs ?_
    simp only [Bool.and_eq_true, beq_iff_eq] at both
    exact both.1.symm.trans both.2

theorem part_flatMap {categories : List Category} (distinct : categories.Nodup) (declared : List Declared)
    (category : Category) : part (categories.flatMap (part declared)) category =
      if category ∈ categories then part declared category else [] := by
  induction categories with
  | nil => rfl
  | cons first categories ih =>
    obtain ⟨fresh, distinct⟩ := List.nodup_cons.1 distinct
    have split : part ((first :: categories).flatMap (part declared)) category =
        part (part declared first) category ++ part (categories.flatMap (part declared)) category := by
      rw [List.flatMap_cons, part, List.filter_append]
      rfl
    rw [split, part_part, ih distinct]
    by_cases same : category = first
    · simp [same, fresh]
    · simp [same]

/-- Grouping keeps the order within a category. -/
theorem part_grouped (declared : List Declared) (category : Category) :
    part (grouped declared) category = part declared category := by
  rw [grouped, part_flatMap (nodup_categoriesOf declared)]
  split
  · rfl
  next unknown => exact (part_eq_nil_iff.2 unknown).symm

theorem grouped_part (declared : List Declared) (category : Category) :
    grouped (part declared category) = part declared category := by
  have whole : part (grouped (part declared category)) category = grouped (part declared category) := by
    refine List.filter_eq_self.2 fun entry known => ?_
    exact (List.mem_filter.1 ((grouped_perm _).mem_iff.1 known)).2
  rw [← whole, part_grouped, part_part, if_pos rfl]

theorem eraseDups_append_of_all {first : Category} {same others : List Category} (some : same ≠ [])
    (all : ∀ category ∈ same, category = first) (fresh : first ∉ others) :
    (same ++ others).eraseDups = first :: others.eraseDups := by
  obtain ⟨head, tail, rfl⟩ := List.exists_cons_of_ne_nil some
  obtain ⟨rfl, allTail⟩ := List.forall_mem_cons.1 all
  have dropped : tail.filter (fun category => !category == head) = [] :=
    List.filter_eq_nil_iff.2 fun category known => by simp [allTail category known]
  have kept : others.filter (fun category => !category == head) = others :=
    List.filter_eq_self.2 fun category known => by simpa using ne_of_mem_of_not_mem known fresh
  rw [List.cons_append, List.eraseDups_cons, List.filter_append, dropped, kept, List.nil_append]

theorem categoriesOf_flatMap {categories : List Category} (distinct : categories.Nodup)
    (known : ∀ category ∈ categories, part declared category ≠ []) :
    categoriesOf (categories.flatMap (part declared)) = categories := by
  induction categories with
  | nil => rfl
  | cons first categories ih =>
    obtain ⟨fresh, distinct⟩ := List.nodup_cons.1 distinct
    obtain ⟨isKnown, othersKnown⟩ := List.forall_mem_cons.1 known
    have named {category other : Category} (isNamed : other ∈ (part declared category).map (·.1)) :
        other = category := by
      obtain ⟨entry, isPart, rfl⟩ := List.mem_map.1 isNamed
      exact eq_of_beq (List.mem_filter.1 isPart).2
    have some : (part declared first).map (·.1) ≠ [] := by simpa using isKnown
    have others : first ∉ (categories.flatMap (part declared)).map (·.1) := by
      rw [List.map_flatMap, List.mem_flatMap]
      rintro ⟨category, isCategory, isNamed⟩
      exact fresh (named isNamed ▸ isCategory)
    rw [categoriesOf, List.flatMap_cons, List.map_append,
      eraseDups_append_of_all some (fun _ => named) others]
    exact congrArg (List.cons first) (ih distinct othersKnown)

/-- Grouping loses no category, and none comes in another place. -/
theorem categoriesOf_grouped (declared : List Declared) :
    categoriesOf (grouped declared) = categoriesOf declared :=
  categoriesOf_flatMap (nodup_categoriesOf declared) fun _ known none => part_eq_nil_iff.1 none known

/-! ### Tables -/

theorem build_eq (read : PatternSyntax) (declarations : List Declaration) :
    (ofDeclarations declarations).build read = ((grouped (given declarations)).mapM
      fun declared : Declared => declared.2.compile declared.1 read).map .ofRules := by
  have same : (fun entry : Category × List RuleSpec => (entry.2.map (entry.1, ·)).mapM
      fun declared : Declared => declared.2.compile declared.1 read) =
        fun entry => entry.2.mapM (·.compile entry.1 read) := funext fun entry => List.mapM_map
  rw [ofDeclarations_eq, ← listed_entriesOf, listed, mapM_flatMap, same, build]
  cases (entriesOf (given declarations)).mapM fun entry => entry.2.mapM (·.compile entry.1 read) <;> rfl

theorem given_filter (declarations : List Declaration) (category : Category) :
    given (declarations.filter (·.category == category)) = part (given declarations) category := by
  have named (declaration : Declaration) : ∀ entry ∈ declaration.given, entry.1 = declaration.category := by
    cases declaration with
    | rule category spec => simp [Declaration.given, Declaration.category]
    | rulesOf category specs => simp [Declaration.given, Declaration.category]
  induction declarations with
  | nil => rfl
  | cons declaration declarations ih =>
    have split : part (given (declaration :: declarations)) category =
        part declaration.given category ++ part (given declarations) category := List.filter_append _ _
    rw [split, ← ih, List.filter_cons]
    split
    next same =>
      have whole : part declaration.given category = declaration.given :=
        List.filter_eq_self.2 fun entry known => (named declaration entry known).symm ▸ same
      rw [whole]
      rfl
    next differs =>
      have nothing : part declaration.given category = [] :=
        List.filter_eq_nil_iff.2 fun entry known => (named declaration entry known).symm ▸ differs
      rw [nothing, List.nil_append]

/-- Calls that give no rules leave no trace. -/
theorem given_filter_nonempty (declarations : List Declaration) :
    given (declarations.filter (!·.given.isEmpty)) = given declarations := by
  induction declarations with
  | nil => rfl
  | cons declaration declarations ih =>
    rw [List.filter_cons]
    split
    · exact congrArg (declaration.given ++ ·) ih
    next isEmpty =>
      have nothing : declaration.given = [] := by simpa using isEmpty
      rw [ih, given, given, List.flatMap_cons, nothing, List.nil_append]

theorem build_eq_ok_iff : (ofDeclarations declarations).build read = .ok table ↔
    List.Forall₂ (fun declared rule => declared.2.Makes read declared.1 rule) (grouped (given declarations))
      table.rules := by
  obtain ⟨rules⟩ := table
  simp only [← RuleSpec.compile_eq_ok_iff]
  rw [build_eq, map_eq_ok_iff, ← mapM_eq_ok_iff]
  constructor
  · rintro ⟨_, compiled, ⟨⟩⟩
    exact compiled
  · exact fun compiled => ⟨rules, compiled, rfl⟩

theorem build_eq_error_iff {error : RuleError} : (ofDeclarations declarations).build read = .error error ↔
    FirstFault read (grouped (given declarations)) error := by
  rw [build_eq, map_eq_error_iff, mapM_eq_error_iff]
  simp only [RuleSpec.compile_eq_ok_iff, RuleSpec.compile_eq_error_iff, FirstFault]

theorem exists_build_iff : (∃ table, (ofDeclarations declarations).build read = .ok table) ↔
    ∀ declared ∈ given declarations, ∃ rule, declared.2.Makes read declared.1 rule := by
  simp only [← (grouped_perm (given declarations)).mem_iff, ← RuleSpec.compile_eq_ok_iff]
  rw [← exists_mapM_iff]
  simp only [build_eq, map_eq_ok_iff]
  exact ⟨fun ⟨_, rules, compiled, _⟩ => ⟨rules, compiled⟩, fun ⟨rules, compiled⟩ => ⟨_, rules, compiled, rfl⟩⟩

section

variable (isBuilt : (ofDeclarations declarations).build read = .ok table)
include isBuilt

theorem categories_of_build : table.categories = categoriesOf (given declarations) := by
  have same : table.rules.map (·.category) = (grouped (given declarations)).map (·.1) := by
    refine (List.forall₂_eq_eq_eq ▸ List.rel_map ?_ (build_eq_ok_iff.1 isBuilt) :).symm
    exact fun _ _ makes => makes.category_eq.symm
  rw [RuleTable.categories, same]
  exact categoriesOf_grouped _

theorem rulesOf_of_build (category : Category) :
    List.Forall₂ (fun declared rule => declared.2.Makes read declared.1 rule) (part (given declarations) category)
      (table.rulesOf category) := by
  rw [← part_grouped]
  refine List.rel_filter ?_ (build_eq_ok_iff.1 isBuilt)
  intro declared rule makes
  simp only [makes.category_eq]

theorem rulesOf_eq_nil_iff (category : Category) :
    table.rulesOf category = [] ↔ ∀ declared ∈ given declarations, declared.1 ≠ category := by
  have length := (rulesOf_of_build isBuilt category).length_eq
  rw [← List.length_eq_zero_iff, ← length, List.length_eq_zero_iff, part_eq_nil_iff, mem_categoriesOf]
  simp only [not_exists, not_and, ne_eq]

/-- The rules of one category are those of the table that its declarations alone build. -/
theorem build_filter (category : Category) :
    (ofDeclarations (declarations.filter (·.category == category))).build read =
      .ok (.ofRules (table.rulesOf category)) := by
  rw [build_eq_ok_iff, given_filter, grouped_part]
  exact rulesOf_of_build isBuilt category

theorem isGrouped_of_build : IsGrouped read declarations table where
  distinct := categories_of_build isBuilt ▸ nodup_categoriesOf _
  entries_distinct := categories_ofDeclarations declarations ▸ nodup_categoriesOf _
  entries_eq := (categories_of_build isBuilt).trans (categories_ofDeclarations declarations).symm
  categories_eq := categories_of_build isBuilt
  rules := build_eq_ok_iff.1 isBuilt
  size_eq := by
    rw [RuleTable.size, ← (build_eq_ok_iff.1 isBuilt).length_eq, (grouped_perm _).length_eq]
  subset_eq_none_iff := by
    intro category
    rw [← rulesOf_eq_nil_iff isBuilt, RuleTable.subset]
    cases table.rulesOf category <;> simp
  subset_eq_some_iff := by
    intro category smaller
    have named : (∃ declared ∈ given declarations, declared.1 = category) ↔ table.rulesOf category ≠ [] := by
      rw [ne_eq, rulesOf_eq_nil_iff isBuilt]
      simp only [ne_eq, not_forall, not_not, exists_prop]
    rw [named, build_filter isBuilt, RuleTable.subset, Except.ok.injEq]
    cases table.rulesOf category <;> simp

end

/-- What comes of any declarations: a table if all of them can be compiled, which groups them, and else the error
of the first that cannot, in the order of the groups. -/
theorem build_declarations (read : PatternSyntax) (declarations : List Declaration) :
    ((∃ table, (ofDeclarations declarations).build read = .ok table) ↔
        ∀ declared ∈ given declarations, ∃ rule, declared.2.Makes read declared.1 rule) ∧
      (∀ table, (ofDeclarations declarations).build read = .ok table → IsGrouped read declarations table) ∧
      (∀ error, (ofDeclarations declarations).build read = .error error ↔
        FirstFault read (grouped (given declarations)) error) ∧
      ofDeclarations (declarations.filter (!·.given.isEmpty)) = ofDeclarations declarations := by
  refine ⟨exists_build_iff, fun _ => isGrouped_of_build, fun _ => build_eq_error_iff, ?_⟩
  rw [ofDeclarations_eq, given_filter_nonempty, ← ofDeclarations_eq]

theorem build_declarations_interleaved :
    ∃ table, (ofDeclarations [.rule .comment { pattern := "a" }, .rule .number { pattern := "b" },
        .rulesOf .string [], .rulesOf .comment [{ pattern := "c" }]]).build = .ok table ∧
      IsGrouped Pattern.read [.rule .comment { pattern := "a" }, .rule .number { pattern := "b" },
        .rulesOf .string [], .rulesOf .comment [{ pattern := "c" }]] table := by
  obtain ⟨table, isBuilt⟩ : ∃ table, (ofDeclarations [.rule .comment { pattern := "a" },
      .rule .number { pattern := "b" }, .rulesOf .string [],
      .rulesOf .comment [{ pattern := "c" }]]).build = .ok table := ⟨_, rfl⟩
  exact ⟨table, isBuilt, (build_declarations _ _).2.1 table isBuilt⟩

end Highlighter.TableDraft
