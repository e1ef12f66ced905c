import Highlighter.Proofs.Settings.Overrides

/-!
Documents of settings. A field of a document is put at a path, and for a section of settings all that it does is
to add entries (`KeyPath.entries?`). So a document merges its entries into the section
(`Settings.get?_putFields`): a setting that it gives a text has this text from then on, and a setting that it
does not give stays as it was (`Settings.Setting.Has.putFields`).
-/

set_option autoImplicit false

namespace Highlighter.Settings

variable {name key : String} {path : KeyPath} {value root : Value} {old fields entries : List (String × Value)}

/-! ### Paths -/

namespace KeyPath

/-- The first key of a path. -/
def first : KeyPath → String
  | .key name => name
  | .child parent _ => parent.first
  | .item parent _ => parent.first

theorem get?_updateKey_of_ne {change : Value → Value} (differs : key.toLower ≠ name) :
    (root.updateKey change key).get? name = root.get? name := by
  rw [Value.get?, Value.updateKey, Value.fields, Value.lookup_assign, if_neg differs, Value.get?]

theorem get?_update_of_ne (differs : path.first.toLower ≠ name) (change : Value → Value) :
    (path.update change root).get? name = root.get? name := by
  induction path generalizing change with
  | key other => exact get?_updateKey_of_ne differs
  | child parent other ih => exact ih differs _
  | item parent index ih => exact ih differs _

end KeyPath

namespace Value

theorem exists_put (root : Value) (key : String) (value : Value) :
    ∃ stored, root.put key value = .table (assign key.toLower stored root.fields) ∧
      ∀ text, value = .text text → stored = .text text := by
  cases value with
  | table incoming => exact ⟨_, by rw [put], nofun⟩
  | _ => exact ⟨_, by simp only [put], fun _ same => same⟩

theorem get?_put_of_ne (differs : key.toLower ≠ name) : (root.put key value).get? name = root.get? name := by
  obtain ⟨stored, isPut, _⟩ := exists_put root key value
  rw [isPut, get?, fields, lookup_assign, if_neg differs, get?]

/-- The values that entries have under a key, which is in small letters. -/
def valuesAt (key : String) (entries : List (String × Value)) : List Value :=
  (entries.filter fun entry => entry.1.toLower = key).map Prod.snd

/-- A text that is not written out of another value. -/
def ownText? : Value → Option String
  | .text own => some own
  | _ => none

theorem eq_of_mapM_ownText? {values : List Value} {texts : List String}
    (known : values.mapM ownText? = some texts) : values = texts.map .text := by
  induction values generalizing texts with
  | nil =>
    rw [List.mapM_nil] at known
    cases known
    rfl
  | cons value values ih =>
    rw [List.mapM_cons] at known
    obtain ⟨text, head, known⟩ := Option.bind_eq_some_iff.1 known
    obtain ⟨rest, tail, known⟩ := Option.bind_eq_some_iff.1 known
    cases known
    rw [ih tail, List.map_cons]
    cases value <;> cases head
    rfl

theorem merge_append (target : Value) (first second : List (String × Value)) :
    merge target (first ++ second) = merge (merge target first) second := by
  induction first generalizing target with
  | nil => rw [List.nil_append, merge.eq_def target []]
  | cons entry first ih => rw [List.cons_append, merge, merge, ih]

theorem exists_merge (old entries : List (String × Value)) : ∃ new, merge (.table old) entries = .table new := by
  induction entries generalizing old with
  | nil => exact ⟨old, by rw [merge]⟩
  | cons entry entries ih =>
    obtain ⟨stored, isPut, _⟩ := exists_put (.table old) entry.1 entry.2
    rw [merge, isPut]
    exact ih _

/-- A key that entries give only one text has this text, and stays as it was if they do not give it. -/
theorem lookup_merge {before text : String} (found : lookup key old = some (.text before))
    (only : ∀ value ∈ valuesAt key entries, value = .text text) :
    lookup key (merge (.table old) entries).fields =
      some (.text (if valuesAt key entries = [] then before else text)) := by
  induction entries generalizing old before with
  | nil =>
    rw [merge]
    exact found
  | cons entry entries ih =>
    obtain ⟨stored, isPut, isStored⟩ := exists_put (.table old) entry.1 entry.2
    rw [merge, isPut]
    unfold valuesAt at only ⊢
    by_cases same : entry.1.toLower = key
    · rw [List.filter_cons_of_pos (by simpa using same), List.map_cons] at only ⊢
      obtain ⟨isText, only⟩ := List.forall_mem_cons.1 only
      have isNew : lookup key (assign entry.1.toLower stored old) = some (.text text) := by
        rw [lookup_assign, if_pos same, isStored text isText]
      rw [if_neg (List.cons_ne_nil _ _)]
      simpa only [fields, ite_self] using ih isNew only
    · rw [List.filter_cons_of_neg (by simpa using same)] at only ⊢
      have isOld : lookup key (assign entry.1.toLower stored old) = some (.text before) := by
        rw [lookup_assign, if_neg same, found]
      exact ih isOld only

end Value

/-! ### Fields of a document -/

/-- The path that a key of a document is read as. -/
def documentPath (key : String) : KeyPath := (KeyPath.read? key).getD (.key key)

theorem putFields_cons (root : Value) (field : String × Value) (fields : List (String × Value)) :
    Loader.putFields root (field :: fields) =
      Loader.putFields ((documentPath field.1).set field.2 root) fields := by
  obtain ⟨key, value⟩ := field
  unfold Loader.putFields documentPath
  rw [List.foldl_cons]
  dsimp only
  cases KeyPath.read? key <;> rfl

namespace KeyPath

/-- The entries that a value at a path puts into a section; none if it makes something else of the section than a
table with more entries. -/
def entries? (name : String) : KeyPath → Value → Option (List (String × Value))
  | .key other, .table entries => some (if other.toLower = name then entries else [])
  | .child (.key other) key, value => some (if other.toLower = name then [(key, value)] else [])
  | path, _ => if path.first.toLower = name then none else some []

theorem get?_set_of_ne (differs : path.first.toLower ≠ name) :
    (path.set value root).get? name = root.get? name := by
  cases path with
  | key other => exact Value.get?_put_of_ne differs
  | child parent key | item parent index =>
    have differsAbove : parent.first.toLower ≠ name := differs
    exact get?_update_of_ne differsAbove _

theorem get?_set (isSection : root.get? name = some (.table old))
    (puts : path.entries? name value = some entries) :
    (path.set value root).get? name = some (Value.merge (.table old) entries) := by
  have elsewhere (differs : path.first.toLower ≠ name) (nothing : entries = []) :
      (path.set value root).get? name = some (Value.merge (.table old) entries) := by
    rw [get?_set_of_ne differs, isSection, nothing, Value.merge]
  unfold entries? at puts
  split at puts
  · next other incoming =>
    split at puts
    · next same =>
      cases puts
      subst same
      rw [set, Value.put, isSection, Value.get?, Value.fields, Value.lookup_assign, if_pos rfl,
        Option.getD_some]
    · next differs => exact elsewhere differs (Option.some.inj puts).symm
  · next other key value =>
    split at puts
    · next same =>
      cases puts
      subst same
      rw [set, update, Value.updateKey, isSection, Value.get?, Value.fields, Value.lookup_assign, if_pos rfl,
        Option.getD_some, Value.merge, Value.merge]
    · next differs => exact elsewhere differs (Option.some.inj puts).symm
  · split at puts
    · cases puts
    · next differs => exact elsewhere differs (Option.some.inj puts).symm

end KeyPath

/-- The entries that a document puts into a section. -/
def entriesOf? (name : String) (fields : List (String × Value)) : Option (List (String × Value)) :=
  (fields.mapM fun field => (documentPath field.1).entries? name field.2).map List.flatten

theorem get?_putFields (isSection : root.get? name = some (.table old))
    (puts : entriesOf? name fields = some entries) :
    (Loader.putFields root fields).get? name = some (Value.merge (.table old) entries) := by
  obtain ⟨parts, each, rfl⟩ := Option.map_eq_some_iff.1 puts
  clear puts
  induction fields generalizing root old parts with
  | nil =>
    rw [List.mapM_nil] at each
    cases each
    rw [List.flatten_nil, Value.merge]
    exact isSection
  | cons field fields ih =>
    rw [List.mapM_cons] at each
    obtain ⟨first, head, each⟩ := Option.bind_eq_some_iff.1 each
    obtain ⟨rest, tail, each⟩ := Option.bind_eq_some_iff.1 each
    cases each
    obtain ⟨new, isNew⟩ := Value.exists_merge old first
    have isSection := KeyPath.get?_set isSection head
    rw [isNew] at isSection
    rw [putFields_cons, List.flatten_cons, Value.merge_append, isNew]
    exact ih isSection rest tail

/-! ### Settings of a document -/

/-- A document gives a setting this text, or does not give it. The same key may stand in it more than once, in
capital and small letters, but then with the same text. -/
def Setting.Gives (setting : Setting) (fields : List (String × Value)) (given : Option String) : Prop :=
  ∃ entries, entriesOf? setting.sectionName fields = some entries ∧
    ∀ value, value ∈ Value.valuesAt setting.key entries ↔ ∃ text, given = some text ∧ value = .text text

/-- The texts that a document gives a setting, if it gives it nothing else. -/
def Setting.textsOf? (setting : Setting) (fields : List (String × Value)) : Option (List String) :=
  (entriesOf? setting.sectionName fields).bind fun entries =>
    (Value.valuesAt setting.key entries).mapM Value.ownText?

theorem Setting.gives_of_textsOf? {setting : Setting} {given : Option String}
    (known : setting.textsOf? fields = some given.toList) : setting.Gives fields given := by
  obtain ⟨entries, puts, texts⟩ := Option.bind_eq_some_iff.1 known
  refine ⟨entries, puts, fun value => ?_⟩
  rw [Value.eq_of_mapM_ownText? texts, List.mem_map]
  simp only [Option.mem_toList, eq_comm]

theorem Setting.Has.putFields {setting : Setting} {before : String} {given : Option String}
    (has : setting.Has root before) (gives : setting.Gives fields given) :
    setting.Has (Loader.putFields root fields) (given.getD before) := by
  obtain ⟨old, isSection, found⟩ := has
  obtain ⟨entries, puts, isGiven⟩ := gives
  obtain ⟨new, isNew⟩ := Value.exists_merge old entries
  have merged := get?_putFields isSection puts
  rw [isNew] at merged
  have only : ∀ value ∈ Value.valuesAt setting.key entries, value = .text (given.getD before) := by
    intro value isValue
    obtain ⟨text, rfl, rfl⟩ := (isGiven value).1 isValue
    rfl
  have isKept (nothing : Value.valuesAt setting.key entries = []) : given.getD before = before := by
    cases given with
    | none => rfl
    | some text =>
      have isValue := (isGiven (.text text)).2 ⟨text, rfl, rfl⟩
      rw [nothing] at isValue
      cases isValue
  have isFound := Value.lookup_merge found only
  rw [isNew] at isFound
  refine ⟨new, merged, isFound.trans ?_⟩
  split
  · next nothing => rw [isKept nothing]
  · rfl

end Highlighter.Settings
