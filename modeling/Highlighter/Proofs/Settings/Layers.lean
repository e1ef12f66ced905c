import Highlighter.Proofs.Settings.Documents
import Mathlib.Data.List.Induction

/-!
Settings in layers. Files and overrides are named step by step, and each setting is the one of the last override
if there is one, else of the last file that gives it, and else the default (`Settings.loadSteps_layers`). The order
among overrides counts and the order among files, but not which comes first of a file and an override.
-/

set_option autoImplicit false

namespace Highlighter.Settings

variable {files : Files} {setting other : Setting} {root : Value} {before text : String}

/-! ### Steps -/

/-- A step of a loader. -/
inductive Step where
  | file (name : String)
  | optionalFile (name : String)
  | override (setting : Setting) (text : String)
  deriving DecidableEq, Repr

namespace Step

def layer? : Step → Option FileLayer
  | .file name => some ⟨name, true⟩
  | .optionalFile name => some ⟨name, false⟩
  | .override _ _ => none

def override? : Step → Option (Setting × String)
  | .override setting text => some (setting, text)
  | _ => none

def follow (loader : Loader) : Step → Except Fault Loader
  | .file name => .ok (loader.withFile name)
  | .optionalFile name => .ok (loader.withOptionalFile name)
  | .override setting text => loader.override setting.name (.text text)

end Step

/-- The step that names the file of a layer. -/
def Step.ofLayer : FileLayer → Step
  | ⟨name, true⟩ => .file name
  | ⟨name, false⟩ => .optionalFile name

theorem mem_filterMap_layer? {steps : List Step} {layer : FileLayer} :
    layer ∈ steps.filterMap Step.layer? ↔ Step.ofLayer layer ∈ steps := by
  obtain ⟨name, isRequired⟩ := layer
  have isOf (step : Step) : step.layer? = some ⟨name, isRequired⟩ ↔ step = Step.ofLayer ⟨name, isRequired⟩ := by
    cases step <;> cases isRequired <;> simp [Step.layer?, Step.ofLayer]
  rw [List.mem_filterMap]
  simp only [isOf, exists_eq_right]

/-- What the steps come to, one after the other. -/
def loadSteps (files : Files) (steps : List Step) : Except Fault Settings :=
  steps.foldlM Step.follow {} >>= (·.load files)

def replaceSetting (overrides : List (KeyPath × Value)) (override : Setting × String) : List (KeyPath × Value) :=
  Loader.replace override.1.path (.text override.2) overrides

/-- The steps that name files and those that override settings keep out of each other's way. -/
theorem foldlM_follow (steps : List Step) (loader : Loader) :
    steps.foldlM Step.follow loader =
      .ok ⟨loader.files ++ steps.filterMap Step.layer?,
        (steps.filterMap Step.override?).foldl replaceSetting loader.overrides⟩ := by
  induction steps generalizing loader with
  | nil =>
    rw [List.foldlM_nil, List.filterMap_nil, List.append_nil]
    rfl
  | cons step steps ih =>
    rw [List.foldlM_cons]
    cases step with
    | file name | optionalFile name =>
      rw [Step.follow, ok_bind, ih]
      simp only [Loader.withFile, Loader.withOptionalFile, List.filterMap_cons, Step.layer?, Step.override?,
        List.append_assoc, List.singleton_append]
    | override setting text =>
      rw [Step.follow, setting.override_name, ok_bind, ih]
      rfl

theorem loadSteps_eq (files : Files) (steps : List Step) :
    loadSteps files steps =
      Loader.load ⟨steps.filterMap Step.layer?, (steps.filterMap Step.override?).foldl replaceSetting []⟩ files := by
  rw [loadSteps, foldlM_follow, ok_bind, List.nil_append]

/-! ### Overrides -/

/-- The overrides are those that are told, one of each setting. -/
structure Overriding (told : Setting → Option String) (overrides : List (KeyPath × Value)) : Prop where
  distinct : (overrides.map Prod.fst).Nodup
  mem_iff : ∀ entry, entry ∈ overrides ↔
    ∃ setting text, told setting = some text ∧ entry = (Setting.path setting, .text text)

section

variable {told : Setting → Option String} {overrides : List (KeyPath × Value)} {path : KeyPath} {value : Value}

theorem mem_map_replace {here : KeyPath} :
    here ∈ (Loader.replace path value overrides).map Prod.fst ↔ here = path ∨ here ∈ overrides.map Prod.fst := by
  induction overrides with
  | nil => simp [Loader.replace]
  | cons entry overrides ih =>
    obtain ⟨old, _⟩ := entry
    unfold Loader.replace
    split
    · next same => simp [same]
    · simp only [List.map_cons, List.mem_cons, ih]
      tauto

theorem nodup_replace (distinct : (overrides.map Prod.fst).Nodup) :
    ((Loader.replace path value overrides).map Prod.fst).Nodup := by
  induction overrides with
  | nil => simp [Loader.replace]
  | cons entry overrides ih =>
    obtain ⟨isNew, distinct⟩ := List.nodup_cons.1 distinct
    unfold Loader.replace
    split
    · exact List.nodup_cons.2 ⟨isNew, distinct⟩
    · next differs =>
      refine List.nodup_cons.2 ⟨?_, ih distinct⟩
      rw [mem_map_replace, not_or]
      exact ⟨differs, isNew⟩

theorem mem_replace (distinct : (overrides.map Prod.fst).Nodup) (entry : KeyPath × Value) :
    entry ∈ Loader.replace path value overrides ↔
      entry = (path, value) ∨ (entry ∈ overrides ∧ entry.1 ≠ path) := by
  induction overrides with
  | nil => simp [Loader.replace]
  | cons first overrides ih =>
    obtain ⟨isNew, distinct⟩ := List.nodup_cons.1 distinct
    unfold Loader.replace
    split
    · next same =>
      subst same
      have apart (isIn : entry ∈ overrides) : entry.1 ≠ first.1 := fun same =>
        isNew (same ▸ List.mem_map_of_mem isIn)
      constructor
      · rintro isIn
        rcases List.mem_cons.1 isIn with rfl | isIn
        · exact .inl rfl
        · exact .inr ⟨List.mem_cons_of_mem _ isIn, apart isIn⟩
      · rintro (rfl | ⟨isIn, differs⟩)
        · exact List.mem_cons_self
        · rcases List.mem_cons.1 isIn with rfl | isIn
          · exact absurd rfl differs
          · exact List.mem_cons_of_mem _ isIn
    · next differs =>
      have isOther (same : entry = first) : entry.1 ≠ path := same ▸ differs
      rw [List.mem_cons, List.mem_cons, ih distinct]
      tauto

theorem Overriding.replace (overriding : Overriding told overrides) (setting : Setting) (text : String) :
    Overriding (Function.update told setting (some text)) (replaceSetting overrides (setting, text)) := by
  refine ⟨nodup_replace overriding.distinct, fun entry => ?_⟩
  rw [replaceSetting, mem_replace overriding.distinct, overriding.mem_iff]
  constructor
  · rintro (rfl | ⟨⟨other, text, isTold, rfl⟩, differs⟩)
    · exact ⟨setting, text, Function.update_self .., rfl⟩
    · have isOther : other ≠ setting := fun same => differs (congrArg Setting.path same)
      exact ⟨other, text, by rw [Function.update_of_ne isOther, isTold], rfl⟩
  · rintro ⟨other, otherText, isTold, rfl⟩
    by_cases same : other = setting
    · subst same
      rw [Function.update_self] at isTold
      exact .inl (by rw [Option.some.inj isTold])
    · rw [Function.update_of_ne same] at isTold
      exact .inr ⟨⟨other, otherText, isTold, rfl⟩, Setting.path_ne same⟩

/-- The last override of a setting is the first one from the end. -/
theorem overriding_foldl (written : List (Setting × String)) :
    Overriding (fun setting => written.reverse.lookup setting) (written.foldl replaceSetting []) := by
  induction written using List.reverseRecOn with
  | nil => exact ⟨List.nodup_nil, fun entry => ⟨nofun, nofun⟩⟩
  | append_singleton written last ih =>
    have isTold : (fun setting => (written ++ [last]).reverse.lookup setting) =
        Function.update (fun setting => written.reverse.lookup setting) last.1 (some last.2) := by
      funext setting
      rw [List.reverse_concat, List.lookup_cons, Function.update_apply]
      split
      · next same => rw [if_pos (beq_iff_eq.1 same)]
      · next differs => rw [if_neg (beq_eq_false_iff_ne.1 differs)]
    rw [List.foldl_append, isTold]
    exact ih.replace last.1 last.2

theorem Setting.Has.foldl_set (has : setting.Has root before)
    (others : ∀ entry ∈ overrides, ∃ other text, other ≠ setting ∧ entry = (Setting.path other, Value.text text)) :
    setting.Has (overrides.foldl (fun root (path, value) => path.set value root) root) before := by
  induction overrides generalizing root with
  | nil => exact has
  | cons entry overrides ih =>
    obtain ⟨⟨other, text, differs, rfl⟩, rest⟩ := List.forall_mem_cons.1 others
    exact ih (has.set_of_ne differs) rest

theorem Overriding.has (overriding : Overriding told overrides) (has : setting.Has root before) :
    setting.Has (overrides.foldl (fun root (path, value) => path.set value root) root)
      ((told setting).getD before) := by
  have isOverride {entry : KeyPath × Value} (isIn : entry ∈ overrides) (differs : entry.1 ≠ setting.path) :
      ∃ other text, other ≠ setting ∧ entry = (Setting.path other, Value.text text) := by
    obtain ⟨other, text, _, rfl⟩ := (overriding.mem_iff entry).1 isIn
    exact ⟨other, text, fun same => differs (congrArg Setting.path same), rfl⟩
  cases isTold : told setting with
  | none =>
    refine has.foldl_set fun entry isIn => isOverride isIn ?_
    obtain ⟨other, text, isOther, rfl⟩ := (overriding.mem_iff entry).1 isIn
    refine Setting.path_ne fun same => ?_
    rw [same, isTold] at isOther
    cases isOther
  | some text =>
    -- Behind the one override of the setting, nothing changes it.
    have isIn := (overriding.mem_iff _).2 ⟨setting, text, isTold, rfl⟩
    obtain ⟨front, behind, rfl⟩ := List.append_of_mem isIn
    have distinct := overriding.distinct
    rw [List.map_append, List.map_cons] at distinct
    have isLast := (List.nodup_cons.1 (List.nodup_append.1 distinct).2.1).1
    rw [List.foldl_append, List.foldl_cons]
    refine (setting.has_set _ text).foldl_set fun entry isBehind => ?_
    refine isOverride (List.mem_append_right _ (List.mem_cons_of_mem _ isBehind)) fun same => isLast ?_
    exact List.mem_map.2 ⟨entry, isBehind, same⟩

end

/-! ### Files -/

theorem decodeText_toUTF8 (text : String) : decodeText text.toUTF8 = .ok text := by
  have isText : String.fromUTF8? text.toUTF8 = some text := dif_pos text.isValidUTF8
  rw [decodeText, isText]

/-- What a file gives, setting by setting. -/
abbrev Texts := Setting → Option String

/-- What there is at a path: nothing, also not with the ending of its kind, or a document that gives texts. -/
inductive Shows (files : Files) (name : String) : Option Texts → Prop
  | missing (nothing : ∀ bytes, files name ≠ .ok bytes)
      (neither : ∀ other, Loader.substitute? name = some other → ∀ bytes, files other ≠ .ok bytes) :
      Shows files name none
  | document {bytes : ByteArray} {text : String} {fields : List (String × Value)} {given : Texts}
      (isFile : files name = .ok bytes) (isText : decodeText bytes = .ok text)
      (isDocument : Toml.read? text = some fields)
      (gives : ∀ setting : Setting, setting.Gives fields (given setting)) : Shows files name (some given)

section

variable {name : String} {given : Texts} {layer : FileLayer} {layers : List FileLayer}
  {content : String → Option Texts} {texts : Setting → String}

theorem Shows.addFile_missing (shows : Shows files layer.name none) (root : Value) :
    Loader.addFile files root layer =
      if layer.isRequired then .error (.unreadable layer.name) else .ok root := by
  cases shows with
  | missing nothing neither =>
    have unread : Loader.readFile files layer.name = none := by
      unfold Loader.readFile
      cases isFile : files layer.name with
      | ok bytes => exact absurd isFile (nothing bytes)
      | error error =>
        dsimp only
        cases isOther : Loader.substitute? layer.name with
        | none => rfl
        | some other =>
          rw [Option.bind_some, Files.readText]
          cases isFile : files other with
          | ok bytes => exact absurd isFile (neither other isOther bytes)
          | error error => rfl
    rw [Loader.addFile, unread]

theorem Shows.addFile_document (shows : Shows files layer.name (some given)) (root : Value) :
    ∃ after, Loader.addFile files root layer = .ok after ∧
      ∀ (setting : Setting) before, setting.Has root before →
        setting.Has after ((given setting).getD before) := by
  cases shows with
  | document isFile isText isDocument gives =>
    refine ⟨_, ?_, fun setting before has => has.putFields (gives setting)⟩
    rw [Loader.addFile, Loader.readFile, isFile]
    dsimp only
    rw [isText]
    dsimp only [Except.toOption]
    rw [isDocument]

/-- A file that has to be there and is missing stops the layers. -/
def IsMissing (content : String → Option Texts) (layer : FileLayer) : Prop :=
  layer.isRequired = true ∧ content layer.name = none

theorem exists_isMissing_iff {steps : List Step} :
    (∃ layer ∈ steps.filterMap Step.layer?, IsMissing content layer) ↔
      ∃ name, Step.file name ∈ steps ∧ content name = none := by
  simp only [mem_filterMap_layer?]
  constructor
  · rintro ⟨⟨name, _⟩, isStep, rfl, isContent⟩
    exact ⟨name, isStep, isContent⟩
  · rintro ⟨name, isStep, isContent⟩
    exact ⟨⟨name, true⟩, isStep, rfl, isContent⟩

/-- The text that the last of the files that give a setting gives it. -/
def layered? (content : String → Option Texts) (layers : List FileLayer) (setting : Setting) : Option String :=
  layers.reverse.findSome? fun layer => (content layer.name).bind (· setting)

theorem layered?_cons (content : String → Option Texts) (layer : FileLayer) (layers : List FileLayer)
    (setting : Setting) :
    layered? content (layer :: layers) setting =
      (layered? content layers setting).or ((content layer.name).bind (· setting)) := by
  rw [layered?, List.reverse_cons, List.findSome?_append, ← layered?, List.findSome?_singleton]

/-- One layer stops the others, or is put over what has been collected. -/
theorem Shows.addFile (shows : Shows files layer.name (content layer.name))
    (has : ∀ setting : Setting, setting.Has root (texts setting)) :
    (IsMissing content layer ∧ ∃ fault, Loader.addFile files root layer = .error fault) ∨
      (¬IsMissing content layer ∧ ∃ after, Loader.addFile files root layer = .ok after ∧
        ∀ setting : Setting, setting.Has after (((content layer.name).bind (· setting)).getD (texts setting))) := by
  unfold IsMissing
  cases isContent : content layer.name with
  | none =>
    rw [isContent] at shows
    rw [shows.addFile_missing]
    cases layer.isRequired with
    | true => exact .inl ⟨⟨rfl, rfl⟩, _, rfl⟩
    | false => exact .inr ⟨nofun, root, rfl, has⟩
  | some given =>
    rw [isContent] at shows
    obtain ⟨after, isAfter, keeps⟩ := shows.addFile_document root
    exact .inr ⟨nofun, after, isAfter, fun setting => keeps setting _ (has setting)⟩

/-- A setting has the text of the last layer that gives it, unless one of the layers stops the others. -/
theorem foldlM_addFile (shows : ∀ layer ∈ layers, Shows files layer.name (content layer.name))
    (has : ∀ setting : Setting, setting.Has root (texts setting)) :
    ((∃ layer ∈ layers, IsMissing content layer) ∧
        ∃ fault, layers.foldlM (Loader.addFile files) root = .error fault) ∨
      ((¬∃ layer ∈ layers, IsMissing content layer) ∧
        ∃ merged, layers.foldlM (Loader.addFile files) root = .ok merged ∧
          ∀ setting : Setting, setting.Has merged ((layered? content layers setting).getD (texts setting))) := by
  -- What a setting has behind the first layer takes the place of what it had before.
  induction layers generalizing root texts with
  | nil => exact .inr ⟨nofun, root, rfl, has⟩
  | cons layer layers ih =>
    obtain ⟨showsFirst, shows⟩ := List.forall_mem_cons.1 shows
    rw [List.foldlM_cons, List.exists_mem_cons_iff]
    rcases showsFirst.addFile has with ⟨missing, fault, stops⟩ | ⟨present, after, isAfter, has⟩
    · rw [stops]
      exact .inl ⟨.inl missing, fault, rfl⟩
    · rw [isAfter, ok_bind]
      rcases ih shows has with ⟨missing, stops⟩ | ⟨present', merged, isMerged, has⟩
      · exact .inl ⟨.inr missing, stops⟩
      · refine .inr ⟨not_or.2 ⟨present, present'⟩, merged, isMerged, fun setting => ?_⟩
        rw [layered?_cons, Option.getD_or]
        exact has setting

end

/-! ### Results -/

/-- The text that a setting has in the end. -/
def resultText (content : String → Option Texts) (steps : List Step) (setting : Setting) : String :=
  (((steps.filterMap Step.override?).reverse.lookup setting).or
    (layered? content (steps.filterMap Step.layer?) setting)).getD setting.default

theorem loadSteps_result {content : String → Option Texts} {steps : List Step}
    (shows : ∀ layer ∈ steps.filterMap Step.layer?, Shows files layer.name (content layer.name)) :
    ((∃ layer ∈ steps.filterMap Step.layer?, IsMissing content layer) ∧ ∃ fault, loadSteps files steps = .error fault) ∨
      ((¬∃ layer ∈ steps.filterMap Step.layer?, IsMissing content layer) ∧
        loadSteps files steps =
          match Variant.ofName? (resultText content steps .variant) with
          | some variant => .ok ⟨variant, resultText content steps .format, resultText content steps .commonClass⟩
          | none => .error .noVariant) := by
  rw [loadSteps_eq, Loader.load, Loader.merged]
  dsimp only
  rcases foldlM_addFile shows Setting.has_defaults with ⟨missing, fault, stops⟩ | ⟨present, merged, isMerged, has⟩
  · rw [stops]
    exact .inl ⟨missing, fault, rfl⟩
  · rw [isMerged]
    refine .inr ⟨present, ofValue_of_has fun setting => ?_⟩
    have overridden := (overriding_foldl (steps.filterMap Step.override?)).has (has setting)
    rw [← Option.getD_or] at overridden
    exact overridden

/-- Each setting has the text of the last override of it, else of the last file that gives it, else of the default.
Settings are not made if a file that has to be there is missing, or if the text that the variant has in the end names
none; whatever stands below this text does no harm. -/
theorem loadSteps_layers (files : Files) (steps : List Step) (content : String → Option Texts)
    (shows : ∀ name, Step.file name ∈ steps ∨ Step.optionalFile name ∈ steps → Shows files name (content name)) :
    ((∃ fault, loadSteps files steps = .error fault) ↔
        (∃ name, Step.file name ∈ steps ∧ content name = none) ∨
          Variant.ofName? (resultText content steps .variant) = none) ∧
      (∀ settings, loadSteps files steps = .ok settings →
        Variant.ofName? (resultText content steps .variant) = some settings.variant ∧
          settings.format = resultText content steps .format ∧
          settings.commonClass = resultText content steps .commonClass) ∧
      ∀ others : List Step, others.filterMap Step.layer? = steps.filterMap Step.layer? →
        others.filterMap Step.override? = steps.filterMap Step.override? →
          loadSteps files others = loadSteps files steps := by
  have showsLayers : ∀ layer ∈ steps.filterMap Step.layer?, Shows files layer.name (content layer.name) := by
    rintro ⟨name, isRequired⟩ isLayer
    have isStep := mem_filterMap_layer?.1 isLayer
    cases isRequired with
    | true => exact shows name (.inl isStep)
    | false => exact shows name (.inr isStep)
  refine ⟨?_, ?_, ?_⟩
  · rw [← exists_isMissing_iff]
    rcases loadSteps_result showsLayers with ⟨missing, fails⟩ | ⟨present, isLoaded⟩
    · exact ⟨fun _ => .inl missing, fun _ => fails⟩
    · rw [or_iff_right present, isLoaded]
      cases Variant.ofName? (resultText content steps .variant) with
      | none => exact ⟨fun _ => rfl, fun _ => ⟨_, rfl⟩⟩
      | some variant => exact ⟨nofun, nofun⟩
  · intro settings isSettings
    rcases loadSteps_result showsLayers with ⟨_, fault, fails⟩ | ⟨_, isLoaded⟩
    · rw [fails] at isSettings
      cases isSettings
    · rw [isLoaded] at isSettings
      cases isVariant : Variant.ofName? (resultText content steps .variant) with
      | none =>
        rw [isVariant] at isSettings
        cases isSettings
      | some variant =>
        rw [isVariant] at isSettings
        cases isSettings
        exact ⟨rfl, rfl, rfl⟩
  · intro others sameLayers sameOverrides
    rw [loadSteps_eq, loadSteps_eq, sameLayers, sameOverrides]

/-- The variant of the file does not exist, but lies below the override that was made before. -/
theorem loadSteps_layers_hidden :
    loadSteps (fun path =>
        if path = "user.toml" then .ok "highlight.variant = \"v9\"\n[html]\nclass_prefix = \"hl\"".toUTF8
        else .error .notFound)
      [.override .variant "V2", .optionalFile "none.toml", .file "user.toml"] = .ok ⟨.v2, "html", "hl"⟩ := by
  have known (setting : Setting) :
      (Toml.read? "highlight.variant = \"v9\"\n[html]\nclass_prefix = \"hl\"").bind setting.textsOf? =
        some (if setting = .variant then some "v9" else if setting = .format then none else some "hl").toList := by
    cases setting <;> decide +kernel
  obtain ⟨fields, isDocument, _⟩ := Option.bind_eq_some_iff.1 (known .variant)
  obtain ⟨fails, isResult, _⟩ := loadSteps_layers
    (fun path =>
      if path = "user.toml" then .ok "highlight.variant = \"v9\"\n[html]\nclass_prefix = \"hl\"".toUTF8
      else .error .notFound)
    [.override .variant "V2", .optionalFile "none.toml", .file "user.toml"]
    (fun name =>
      if name = "user.toml" then some fun setting =>
        if setting = .variant then some "v9" else if setting = .format then none else some "hl"
      else none)
    (by
      intro name isStep
      by_cases same : name = "user.toml"
      · subst same
        refine .document (if_pos rfl) (decodeText_toUTF8 _) isDocument fun setting => ?_
        have given := known setting
        rw [isDocument] at given
        exact Setting.gives_of_textsOf? given
      · have isOther : name = "none.toml" := by simpa [same] using isStep
        subst isOther
        refine .missing (fun bytes => nofun) fun other isOther bytes => ?_
        have isSubstitute : Loader.substitute? "none.toml" = some "none.toml.toml" := by decide
        cases isSubstitute.symm.trans isOther
        exact nofun)
  have isVariant : Variant.ofName? "V2" = some .v2 := by decide
  cases isLoaded : loadSteps _ _ with
  | error fault =>
    rcases fails.1 ⟨fault, isLoaded⟩ with ⟨name, isStep, isMissing⟩ | unknown
    · have isUser : name = "user.toml" := by simpa using isStep
      subst isUser
      cases isMissing
    · cases isVariant.symm.trans unknown
  | ok settings =>
    obtain ⟨variant, format, commonClass⟩ := settings
    obtain ⟨isKnown, rfl, rfl⟩ := isResult _ isLoaded
    cases isVariant.symm.trans isKnown
    rfl

end Highlighter.Settings
