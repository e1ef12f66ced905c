import Highlighter.Proofs.Fallible
import Highlighter.Settings

/-!
The settings and their overrides. A text put in a section is what is found there (`Settings.sectionValue_set`),
whatever stood in its place, and the other sections stay as they were (`Settings.sectionValue_set_of_ne`). Only
the texts of the settings count for what is made of all of them (`Settings.ofValue_of_has`).
-/

set_option autoImplicit false

namespace Highlighter.Settings

section

variable {name other key otherKey text : String} {root : Value}

/-- The path of a setting in its section. -/
def settingPath (name key : String) : KeyPath := .child (.key name) key

theorem set_settingPath (name key text : String) (root : Value) :
    (settingPath name key).set (.text text) root =
      .table (Value.assign name.toLower
        (.table (Value.assign key.toLower (.text text)
          ((root.get? name.toLower).getD .nil).fields)) root.fields) := by
  simp only [settingPath, KeyPath.set, KeyPath.update, Value.updateKey, Value.put]

theorem sectionValue_set (small : name.toLower = name) (smallKey : key.toLower = key) :
    sectionValue ((settingPath name key).set (.text text) root) name key = .ok (.text text) := by
  rw [set_settingPath, small, smallKey]
  simp only [sectionValue, Value.get?, Value.fields, Value.lookup_assign, if_true]

theorem sectionValue_set_of_ne (small : name.toLower = name) (differs : name ≠ other) :
    sectionValue ((settingPath name key).set (.text text) root) other otherKey =
      sectionValue root other otherKey := by
  rw [set_settingPath, small]
  simp only [sectionValue, Value.get?, Value.fields, Value.lookup_assign, if_neg differs]

theorem variantValue_name (variant : Variant) : variantValue (.text variant.name) = .ok variant := by
  cases variant <;> rfl

end

/-! ### The settings -/

inductive Setting where
  | variant
  | format
  | commonClass
  deriving DecidableEq, Repr

namespace Setting

variable {setting other : Setting} {root : Value} {before text : String}

def sectionName : Setting → String
  | .variant => "highlight"
  | .format => "output"
  | .commonClass => "html"

/-- The key of a setting in its section. -/
def key : Setting → String
  | .variant => "variant"
  | .format => "format"
  | .commonClass => "class_prefix"

def name : Setting → String
  | .variant => "highlight.variant"
  | .format => "output.format"
  | .commonClass => "html.class_prefix"

def default : Setting → String
  | .variant => Variant.default.name
  | .format => "html"
  | .commonClass => Markup.defaultClass

def path (setting : Setting) : KeyPath := settingPath setting.sectionName setting.key

theorem toList_toLower (text : String) : text.toLower.toList = text.toList.map Char.toLower :=
  String.toList_map

theorem sectionName_toLower (setting : Setting) : setting.sectionName.toLower = setting.sectionName := by
  rw [← String.toList_inj, toList_toLower]
  cases setting <;> decide

theorem key_toLower (setting : Setting) : setting.key.toLower = setting.key := by
  rw [← String.toList_inj, toList_toLower]
  cases setting <;> decide

theorem sectionName_ne (differs : setting ≠ other) : setting.sectionName ≠ other.sectionName := by
  revert differs
  cases setting <;> cases other <;> decide

theorem path_ne (differs : setting ≠ other) : setting.path ≠ other.path := by
  revert differs
  cases setting <;> cases other <;> decide

theorem override_name (setting : Setting) (loader : Loader) (value : Value) :
    loader.override setting.name value = .ok (loader.overrideAt setting.path value) := by
  have path : KeyPath.read? setting.name = some setting.path := by
    cases setting <;> decide +kernel
  rw [Loader.override, path]

/-- A setting has this text in what is collected. -/
def Has (setting : Setting) (root : Value) (text : String) : Prop :=
  ∃ fields, root.get? setting.sectionName = some (.table fields) ∧
    Value.lookup setting.key fields = some (.text text)

theorem has_defaults (setting : Setting) : setting.Has defaults setting.default := by
  cases setting <;> exact ⟨_, rfl, rfl⟩

theorem has_set (setting : Setting) (root : Value) (text : String) :
    setting.Has (setting.path.set (.text text) root) text := by
  unfold Has path
  rw [set_settingPath, sectionName_toLower, key_toLower]
  simp only [Value.get?, Value.fields, Value.lookup_assign, if_true, Option.some.injEq, Value.table.injEq,
    exists_eq_left']

theorem Has.set_of_ne (has : setting.Has root before) (differs : other ≠ setting) :
    setting.Has (other.path.set (.text text) root) before := by
  obtain ⟨fields, isSection, found⟩ := has
  refine ⟨fields, ?_, found⟩
  rw [path, set_settingPath, sectionName_toLower, Value.get?, Value.fields, Value.lookup_assign,
    if_neg (sectionName_ne differs)]
  exact isSection

theorem Has.sectionValue (has : setting.Has root text) :
    sectionValue root setting.sectionName setting.key = .ok (.text text) := by
  obtain ⟨fields, isSection, found⟩ := has
  rw [Settings.sectionValue, isSection]
  dsimp only
  rw [found]

end Setting

/-- The settings of these texts, if there is a variant of that name. -/
theorem ofValue_of_has {root : Value} {texts : Setting → String} (has : ∀ setting : Setting, setting.Has root (texts setting)) :
    ofValue root =
      match Variant.ofName? (texts .variant) with
      | some variant => .ok ⟨variant, texts .format, texts .commonClass⟩
      | none => .error .noVariant := by
  have isVariant : sectionValue root "highlight" "variant" = .ok (.text (texts .variant)) :=
    (has .variant).sectionValue
  have isFormat : sectionValue root "output" "format" = .ok (.text (texts .format)) := (has .format).sectionValue
  have isClass : sectionValue root "html" "class_prefix" = .ok (.text (texts .commonClass)) :=
    (has .commonClass).sectionValue
  rw [ofValue, isVariant, isFormat, isClass, ok_bind]
  unfold variantValue
  dsimp only [Option.bind_some]
  cases Variant.ofName? (texts .variant) <;> rfl

end Highlighter.Settings
