/-!
Token categories. Stylesheets key on their names, so a name is the same text wherever it is shown or
read.
-/

set_option autoImplicit false

namespace Highlighter

inductive Category where
  | comment
  | string
  | className
  | keyword
  | boolean
  | number
  | operator
  | punctuation
  deriving DecidableEq, Repr

namespace Category

/-- Every category, in the order in which the built-in tables try them. -/
def all : List Category :=
  [.comment, .string, .className, .keyword, .boolean, .number, .operator, .punctuation]

theorem mem_all (category : Category) : category ∈ all := by
  cases category <;> decide

def name : Category → String
  | .comment => "comment"
  | .string => "string"
  | .className => "class-name"
  | .keyword => "keyword"
  | .boolean => "boolean"
  | .number => "number"
  | .operator => "operator"
  | .punctuation => "punctuation"

theorem name_injective {first second : Category} (same : first.name = second.name) :
    first = second := by
  cases first <;> cases second <;> first | rfl | exact absurd same (by decide)

/-- Names consist of lower-case letters and hyphens. -/
theorem isNameChar_of_mem_name {category : Category} {c : Char} (known : c ∈ category.name.toList) :
    (c.isLower || c == '-') = true := by
  have all : (category.name.toList.all fun c => c.isLower || c == '-') = true := by cases category <;> rfl
  exact List.all_eq_true.1 all c known

theorem noBreak_name (category : Category) : '\n' ∉ category.name.toList := by
  intro known
  cases isNameChar_of_mem_name known

def label : Category → String
  | .comment => "Comment"
  | .string => "String"
  | .className => "ClassName"
  | .keyword => "Keyword"
  | .boolean => "Boolean"
  | .number => "Number"
  | .operator => "Operator"
  | .punctuation => "Punctuation"

def ofName? (name : String) : Option Category := all.find? (·.name == name)

@[simp] theorem ofName?_name (category : Category) : ofName? category.name = some category := by
  cases category <;> decide

def unknownMessage (name : String) : String := s!"unknown token category '{name}'"

/-- The categories of a list, in the order of `all`. -/
def sort (categories : List Category) : List Category :=
  all.flatMap fun category => categories.filter (· == category)

end Category

end Highlighter
