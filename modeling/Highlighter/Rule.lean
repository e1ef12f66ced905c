import Highlighter.Category
import Highlighter.Pattern.Reader

/-!
Rules and tables of rules. A rule is declared by the text of its pattern and by flags; declared under
a category, it is read into a `Rule`. A table holds rules in the order in which they are tried.
-/

set_option autoImplicit false

namespace Highlighter

/-- How a rule was declared, and the patterns read from it. The classifier of the text that a match
covers, if the rule has one, is of type `Inner`. -/
structure RuleOf (Inner : Type) where
  category : Category
  /-- The text of the pattern, of the opening one if the rule is delimited. -/
  source : String
  opening : Pattern
  /-- Set for a delimited rule, whose token goes on through the first match of this pattern after
  the opening one, or to the end of the text. -/
  closing : Option (String × Pattern)
  /-- The token begins where the context group ends. -/
  lookbehind : Bool
  /-- A longer match may take the place of a match of a rule that is not greedy. -/
  greedy : Bool
  ignoreCase : Bool
  nested : Option Inner

/-- Rules in the order in which they are tried. -/
inductive RuleTable where
  | ofRules (rules : List (RuleOf RuleTable))

abbrev Rule := RuleOf RuleTable

namespace RuleTable

def rules : RuleTable → List Rule
  | .ofRules rules => rules

@[simp] theorem rules_ofRules (rules : List Rule) : (ofRules rules).rules = rules := rfl

def size (table : RuleTable) : Nat := table.rules.length

/-- The categories that have rules, in the order in which they are tried. -/
def categories (table : RuleTable) : List Category := (table.rules.map (·.category)).eraseDups

def rulesOf (table : RuleTable) (category : Category) : List Rule :=
  table.rules.filter (·.category == category)

/-- The table of this category's rules alone, if there are any. -/
def subset (table : RuleTable) (category : Category) : Option RuleTable :=
  match table.rulesOf category with
  | [] => none
  | rules => some (.ofRules rules)

end RuleTable

structure RuleSpec where
  pattern : String
  close : Option String := none
  lookbehind : Bool := false
  greedy : Bool := false
  ignoreCase : Bool := false
  nested : Option RuleTable := none

inductive RuleError where
  | invalidPattern (category : Category) (pattern : String) (fault : Pattern.Fault)
  | missingContextGroup (category : Category) (pattern : String)
  deriving DecidableEq, Repr

/-- The message stops before the account of what is wrong with the pattern. -/
def RuleError.message : RuleError → String
  | .invalidPattern category pattern _ => s!"invalid {category.name} pattern '{pattern}': "
  | .missingContextGroup category pattern =>
    s!"{category.name} pattern '{pattern}' is marked lookbehind but has no context group"

/-- A syntax of patterns: what a text, in which case may be ignored, stands for. -/
abbrev PatternSyntax := List Char → Bool → Except Pattern.Fault Pattern

namespace RuleSpec

def readPattern (spec : RuleSpec) (category : Category) (source : String)
    (read : PatternSyntax := Pattern.read) : Except RuleError Pattern :=
  (read source.toList spec.ignoreCase).mapError (.invalidPattern category source)

/-- Read the pattern, then the closing pattern, and then see that there is a context group where one
is needed. -/
def compile (spec : RuleSpec) (category : Category) (read : PatternSyntax := Pattern.read) :
    Except RuleError Rule := do
  let opening ← spec.readPattern category spec.pattern read
  let closing ← match spec.close with
    | none => pure none
    | some close => do
      let pattern ← spec.readPattern category close read
      pure (some (close, pattern))
  if spec.lookbehind && !opening.hasGroup then
    throw (.missingContextGroup category spec.pattern)
  return {
    category, source := spec.pattern, opening, closing
    lookbehind := spec.lookbehind, greedy := spec.greedy, ignoreCase := spec.ignoreCase
    nested := spec.nested }

end RuleSpec

/-- Declarations, grouped by category. A category keeps the place of its first declaration. -/
structure TableDraft where
  entries : List (Category × List RuleSpec) := []

namespace TableDraft

def empty : TableDraft := {}

def insert (category : Category) (spec : RuleSpec) :
    List (Category × List RuleSpec) → List (Category × List RuleSpec)
  | [] => [(category, [spec])]
  | (other, specs) :: entries =>
    if other = category then (other, specs ++ [spec]) :: entries
    else (other, specs) :: insert category spec entries

/-- Declare one more rule of `category`. -/
def rule (draft : TableDraft) (category : Category) (spec : RuleSpec) : TableDraft :=
  ⟨insert category spec draft.entries⟩

def rulesOf (draft : TableDraft) (category : Category) (specs : List RuleSpec) : TableDraft :=
  specs.foldl (·.rule category ·) draft

/-- Compile the declarations in the order of the table; the first that fails decides. -/
def build (draft : TableDraft) (read : PatternSyntax := Pattern.read) :
    Except RuleError RuleTable := do
  let rules ← draft.entries.mapM fun (category, specs) => specs.mapM (·.compile category read)
  return .ofRules rules.flatten

end TableDraft

end Highlighter
