import Highlighter.Variant

/-!
The patterns of the built-in tables as they are read.
-/

set_option autoImplicit false

namespace Highlighter

namespace Variant

open Pattern

/-! ### Parts -/

def edge : Pattern := .assert (.wordEdge .unicode)

def many (chars : CharSet) : Pattern := .rounds 0 none true (.set chars)

def several (chars : CharSet) : Pattern := .rounds 1 none true (.set chars)

def optional (body : Pattern) : Pattern := .rounds 0 (some 1) true body

/-- White space, line breaks included. -/
def blanks : CharSet := ⟨[(9, 13), (32, 32), (133, 133), (160, 160), (5760, 5760), (8192, 8202),
  (8232, 8233), (8239, 8239), (8287, 8287), (12288, 12288)]⟩

/-- White space but a carriage return or line feed. -/
def blanksInLine : CharSet := ⟨[(9, 9), (11, 12), (32, 32), (133, 133), (160, 160), (5760, 5760),
  (8192, 8202), (8232, 8233), (8239, 8239), (8287, 8287), (12288, 12288)]⟩

/-- One of these words, with no word character on either side. -/
def wordAmong (words : List String) : Pattern :=
  .seq edge (.seq (alternatives (words.map fun word => .literal word.toList)) edge)

/-- A word in capital or small letters. The long s is a small letter of its own. -/
def inAnyCase (word : List Char) : Pattern :=
  sequence (word.map fun c => .set ⟨(c.toNat - 32, c.toNat - 32) :: (c.toNat, c.toNat) ::
    if c = 's' then [(383, 383)] else []⟩)

/-! ### Comments and strings -/

def blockLead : Pattern := .alt (.assert .textStart) (.set ⟨[(0, 91), (93, 1114111)]⟩)

def blockOpening : Pattern := .seq (.group 1 blockLead) (.literal ['/', '*'])

def blockClosing : Pattern := .literal ['*', '/']

/-- What a line comment may follow, but for a colon or backslash with or without blanks behind it. -/
def lineLead : Pattern :=
  .alt (.seq (.assert .textStart) (many blanksInLine))
    (.alt (.seq (.set ⟨[(10, 10), (13, 13)]⟩) (many blanksInLine))
      (.alt
        (.set ⟨[(0, 8), (14, 31), (33, 57), (59, 91), (93, 132), (134, 159), (161, 5759),
          (5761, 8191), (8203, 8231), (8234, 8238), (8240, 8286), (8288, 12287), (12289, 1114111)]⟩)
        (.seq
          (.set ⟨[(0, 8), (14, 31), (33, 57), (59, 132), (134, 159), (161, 5759), (5761, 8191),
            (8203, 8231), (8234, 8238), (8240, 8286), (8288, 12287), (12289, 1114111)]⟩)
          (several blanksInLine))))

def lineToken : Pattern :=
  .seq (.literal ['/', '/']) (many ⟨[(0, 9), (11, 12), (14, 8231), (8234, 1114111)]⟩)

def lineOpening : Pattern := .seq (.group 1 lineLead) lineToken

/-- A string in these quotes, given the characters that stand for themselves in it. -/
def quoted (quote : Char) (plain : CharSet) : Pattern :=
  .seq (.literal [quote])
    (.seq
      (.rounds 0 none true
        (.alt
          (.seq (.literal ['\\']) (.alt (.literal ['\r', '\n']) (.set ⟨[(0, 1114111)]⟩)))
          (.set plain)))
      (.literal [quote]))

def stringToken : Pattern :=
  .alt (quoted '"' ⟨[(0, 9), (11, 12), (14, 33), (35, 91), (93, 1114111)]⟩)
    (quoted '\'' ⟨[(0, 9), (11, 12), (14, 38), (40, 91), (93, 1114111)]⟩)

/-! ### Names and words -/

def classNameLead : Pattern :=
  .alt
    (.seq edge
      (.seq
        (alternatives (["class", "interface", "extends", "implements", "trait", "instanceof",
          "new"].map fun word => inAnyCase word.toList))
        (several blanks)))
    (sequence [inAnyCase ['c', 'a', 't', 'c', 'h'], several blanks, .literal ['(']])

def classNameToken : Pattern :=
  several ⟨[(46, 46), (48, 57), (65, 90), (92, 92), (95, 95), (97, 122), (383, 383), (8490, 8490)]⟩

def classNameOpening : Pattern := .seq (.group 1 classNameLead) classNameToken

def classNameInside : RuleTable :=
  .ofRules [⟨.punctuation, classNamePunctuation, .set ⟨[(46, 46), (92, 92)]⟩, none, false, false,
    false, none⟩]

def keywordToken (variant : Variant) : Pattern := wordAmong variant.keywords

def booleanToken : Pattern := wordAmong ["true", "false"]

/-! ### Numbers, operators and punctuation -/

def digit : Pattern := .set ⟨[(48, 57)]⟩

def moreDigits : Pattern := many ⟨[(48, 57), (95, 95)]⟩

/-- A number with the letter of its base. -/
def basedNumber : Pattern :=
  sequence [edge, .literal ['0'],
    .set ⟨[(66, 66), (79, 79), (88, 88), (98, 98), (111, 111), (120, 120)]⟩,
    several ⟨[(48, 57), (65, 70), (95, 95), (97, 102)]⟩, edge]

/-- Digits, and perhaps a point among them or behind them. -/
def wholeDigits : Pattern := sequence [digit, moreDigits, optional (.literal ['.']), moreDigits]

def pointDigits : Pattern := sequence [.literal ['.'], digit, moreDigits]

/-- The digits begin a word, or the point stands where no word begins or ends. -/
def decimalLead : Pattern :=
  .alt (.seq edge wholeDigits) (.seq (.assert (.noWordEdge .unicode)) pointDigits)

def exponent : Pattern :=
  sequence [.set ⟨[(69, 69), (101, 101)]⟩, optional (.set ⟨[(43, 43), (45, 45)]⟩), digit, moreDigits]

def decimalTail : Variant → Pattern
  | .v1 => optional (.set ⟨[(70, 70), (85, 85), (102, 102), (117, 117)]⟩)
  | .v2 => .seq (optional exponent)
    (optional (.set ⟨[(68, 68), (70, 70), (76, 76), (85, 85), (100, 100), (102, 102), (108, 108),
      (117, 117)]⟩))

def numberToken (variant : Variant) : Pattern :=
  .alt basedNumber (.seq decimalLead (decimalTail variant))

/-- A character that may be followed by these, one after the other. -/
def operatorOf (first : Char) (others : List Char) : Pattern :=
  sequence (.literal [first] :: others.map fun c => optional (.literal [c]))

def sharedOperators : List Pattern :=
  [operatorOf '-' ['-'], operatorOf '+' ['+'], operatorOf '!' ['=', '='], operatorOf '<' ['='],
    operatorOf '>' ['='], operatorOf '=' ['=', '='], operatorOf '&' ['&'], operatorOf '|' ['|'],
    .seq (.literal ['?']) (.rounds 0 (some 1) false (.literal ['='])), operatorOf '*' ['*'],
    .literal ['/'], .literal ['~'], .literal ['^'], .literal ['%']]

def operatorToken : Variant → Pattern
  | .v1 => alternatives (.literal ['@'] :: sharedOperators)
  | .v2 => alternatives sharedOperators

def punctuationToken : Pattern :=
  .set ⟨[(40, 41), (44, 44), (46, 46), (58, 59), (91, 91), (93, 93), (123, 123), (125, 125)]⟩

/-! ### Reading -/

theorem ok_of_toOption {α : Type} {result : Except Fault α} {value : α}
    (found : result.toOption = some value) : result = .ok value := by
  cases result with
  | error fault => cases found
  | ok other => exact congrArg Except.ok (Option.some.inj found)

/-- A text given by its characters is read without decoding it first. -/
theorem read_ofList {chars : List Char} {ignoreCase : Bool} {pattern : Pattern}
    (found : (Pattern.read chars ignoreCase).toOption = some pattern) :
    Pattern.read (String.ofList chars).toList ignoreCase = .ok pattern := by
  rw [String.toList_ofList]
  exact ok_of_toOption found

/-- What the texts of the patterns are read as. -/
structure Readings : Prop where
  blockOpening : Pattern.read blockCommentOpen.toList false = .ok blockOpening
  blockClosing : Pattern.read blockCommentClose.toList false = .ok blockClosing
  lineOpening : Pattern.read lineComment.toList false = .ok lineOpening
  string : Pattern.read quotedString.toList false = .ok stringToken
  classNameOpening : Pattern.read className.toList true = .ok classNameOpening
  classNamePunctuation :
    Pattern.read classNamePunctuation.toList false = .ok (.set ⟨[(46, 46), (92, 92)]⟩)
  keyword : ∀ variant : Variant,
    Pattern.read variant.keyword.toList false = .ok variant.keywordToken
  boolean : Pattern.read boolean.toList false = .ok booleanToken
  number : ∀ variant : Variant, Pattern.read variant.number.toList true = .ok variant.numberToken
  operator : ∀ variant : Variant,
    Pattern.read variant.operator.toList false = .ok variant.operatorToken
  punctuation : Pattern.read punctuation.toList false = .ok punctuationToken

-- All in one proof: the kernel reads the patterns, and it reads one at a time.
theorem readings : Readings where
  blockOpening := read_ofList (by decide +kernel)
  blockClosing := read_ofList (by decide +kernel)
  lineOpening := read_ofList (by decide +kernel)
  string := read_ofList (by decide +kernel)
  classNameOpening := read_ofList (by decide +kernel)
  classNamePunctuation := read_ofList (by decide +kernel)
  keyword := by
    intro variant
    simp only [keyword, String.toList_append, String.toList_intercalate]
    cases variant with
    | v1 => exact ok_of_toOption (by decide +kernel)
    | v2 => exact ok_of_toOption (by decide +kernel)
  boolean := read_ofList (by decide +kernel)
  number
    | .v1 => read_ofList (by decide +kernel)
    | .v2 => read_ofList (by decide +kernel)
  operator
    | .v1 => read_ofList (by decide +kernel)
    | .v2 => read_ofList (by decide +kernel)
  punctuation := read_ofList (by decide +kernel)

end Variant

end Highlighter
