import Highlighter.Scan

/-!
The built-in tables. The language has two definitions, which agree on comments, strings, class names,
booleans and punctuation:

| rule     | first                                | second                                      |
|----------|--------------------------------------|---------------------------------------------|
| keyword  | has `export`                         | has `public` instead                        |
| number   | optional `f` or `u`, no exponent     | optional exponent, then `f`, `d`, `l` or `u`|
| operator | has `@`                              | has no `@`                                  |
-/

set_option autoImplicit false

namespace Highlighter

inductive Variant where
  | v1
  | v2
  deriving DecidableEq, Repr, Inhabited

namespace Variant

/-- The published definition is the one to use unless another is asked for. -/
def default : Variant := .v1

def name : Variant → String
  | .v1 => "v1"
  | .v2 => "v2"

def label : Variant → String
  | .v1 => "V1"
  | .v2 => "V2"

def all : List Variant := [.v1, .v2]

/-- Equal but for the case of ASCII letters. -/
def sameIgnoringCase (first second : String) : Bool :=
  first.toList.map Char.toLower == second.toList.map Char.toLower

/-- The variant of this name, in capital or small letters. -/
def ofName? (name : String) : Option Variant := all.find? (sameIgnoringCase ·.name name)

def unknownMessage (name : String) : String :=
  s!"unknown language variant '{name}' (expected v1 or v2)"

/-! ### Patterns -/

/-- A block comment begins anywhere but behind a backslash. -/
def blockCommentOpen : String := "(^|[^\\\\])/\\*"

def blockCommentClose : String := "\\*/"

/-- A line comment begins neither behind a backslash nor behind a colon, even if there are blanks
after the colon. A blank is any white space but a carriage return or line feed. -/
def lineComment : String :=
  "(^[^\\S\\r\\n]*|[\\r\\n][^\\S\\r\\n]*|[^\\\\:\\s]|[^:\\s][^\\S\\r\\n]+)//[^\\r\\n\\x\x7b2028\x7d\\x\x7b2029\x7d]*"

/-- A quote closes only a string that the same quote has opened. -/
def quotedString : String :=
  "\"(?:\\\\(?:\\r\\n|(?s:.))|[^\"\\\\\\r\\n])*\"|'(?:\\\\(?:\\r\\n|(?s:.))|[^'\\\\\\r\\n])*'"

/-- A name behind a word that declares or extends a class. -/
def className : String :=
  "((?:\\b(?:class|interface|extends|implements|trait|instanceof|new)\\s+)|(?:catch\\s+\\())[A-Za-z0-9_.\\\\]+"

def classNamePunctuation : String := "[.\\\\]"

def boolean : String := "\\b(?:true|false)\\b"

def number : Variant → String
  | .v1 => "\\b0[xbo][0-9a-f_]+\\b|(?:\\b[0-9][0-9_]*\\.?[0-9_]*|\\B\\.[0-9][0-9_]*)[fu]?"
  | .v2 =>
    "\\b0[xbo][0-9a-f_]+\\b|(?:\\b[0-9][0-9_]*\\.?[0-9_]*|\\B\\.[0-9][0-9_]*)(?:e[+-]?[0-9][0-9_]*)?[fdlu]?"

def operator : Variant → String
  | .v1 => "@|--?|\\+\\+?|!=?=?|<=?|>=?|==?=?|&&?|\\|\\|?|\\?=??|\\*\\*?|/|~|\\^|%"
  | .v2 => "--?|\\+\\+?|!=?=?|<=?|>=?|==?=?|&&?|\\|\\|?|\\?=??|\\*\\*?|/|~|\\^|%"

def punctuation : String := "[\x7b\x7d\\[\\];(),.:]"

/-- The keyword that the variants spell differently. -/
def exportWord : Variant → String
  | .v1 => "export"
  | .v2 => "public"

def keywords (variant : Variant) : List String :=
  ["import", variant.exportWord, "alias", "event", "class", "enum", "where", "if", "unless",
    "else", "switch", "select", "case", "default", "while", "do", "until", "for", "loop", "return",
    "self", "die", "exit", "yield", "break", "continue", "as", "try", "catch", "throw", "defer",
    "void", "task", "func", "int", "uint", "char", "float", "bool", "string", "list", "channel",
    "var", "const", "pure", "true", "false", "null", "not", "and", "or", "bit_not", "bit_and",
    "bit_or", "bit_xor"]

def keyword (variant : Variant) : String :=
  "\\b(?:" ++ "|".intercalate variant.keywords ++ ")\\b"

/-! ### Tables -/

def insideClassName : Except RuleError RuleTable :=
  (TableDraft.empty.rule .punctuation { pattern := classNamePunctuation }).build

/-- The declarations of a variant, given the table for the inside of class names. -/
def draft (variant : Variant) (inside : RuleTable) : TableDraft :=
  TableDraft.empty
    |>.rulesOf .comment [
      { pattern := blockCommentOpen, close := some blockCommentClose, lookbehind := true },
      { pattern := lineComment, lookbehind := true, greedy := true }]
    |>.rule .string { pattern := quotedString, greedy := true }
    |>.rule .className
      { pattern := className, lookbehind := true, ignoreCase := true, nested := some inside }
    |>.rule .keyword { pattern := variant.keyword }
    |>.rule .boolean { pattern := boolean }
    |>.rule .number { pattern := variant.number, ignoreCase := true }
    |>.rule .operator { pattern := variant.operator }
    |>.rule .punctuation { pattern := punctuation }

def build (variant : Variant) : Except RuleError RuleTable := do
  (variant.draft (← insideClassName)).build

def v1Table : RuleTable := (build .v1).toOption.getD (.ofRules [])

def v2Table : RuleTable := (build .v2).toOption.getD (.ofRules [])

def table : Variant → RuleTable
  | .v1 => v1Table
  | .v2 => v2Table

end Variant

end Highlighter
