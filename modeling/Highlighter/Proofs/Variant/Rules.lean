import Highlighter.Proofs.Table.Compile
import Highlighter.Proofs.Variant.Patterns

/-!
The rules of the built-in tables. Both tables are built, and the first rules are the same in both
(`Variant.rules_table`).
-/

set_option autoImplicit false

namespace Highlighter

namespace Variant

def blockRule : Rule := ⟨.comment, blockCommentOpen, blockOpening,
  some (blockCommentClose, blockClosing), true, false, false, none⟩

def lineRule : Rule := ⟨.comment, lineComment, lineOpening, none, true, true, false, none⟩

def stringRule : Rule := ⟨.string, quotedString, stringToken, none, false, true, false, none⟩

def classNameRule : Rule := ⟨.className, className, classNameOpening, none, true, false, true,
  some classNameInside⟩

/-- A rule without context, closing pattern and nested table. -/
def tokenRule (category : Category) (source : String) (token : Pattern) (ignoreCase : Bool) : Rule :=
  ⟨category, source, token, none, false, false, ignoreCase, none⟩

/-- The rules that both variants have for comments, strings and class names. -/
def firstRules : List Rule := [blockRule, lineRule, stringRule, classNameRule]

def otherRules (variant : Variant) : List Rule :=
  [tokenRule .keyword variant.keyword variant.keywordToken false,
    tokenRule .boolean boolean booleanToken false,
    tokenRule .number variant.number variant.numberToken true,
    tokenRule .operator variant.operator variant.operatorToken false,
    tokenRule .punctuation punctuation punctuationToken false]

theorem compile_of_read {spec : RuleSpec} {opening : Pattern} (category : Category)
    (isRead : Pattern.read spec.pattern.toList spec.ignoreCase = .ok opening)
    (noClose : spec.close = none) (context : (spec.lookbehind && !opening.hasGroup) = false) :
    spec.compile category = .ok ⟨category, spec.pattern, opening, none, spec.lookbehind, spec.greedy,
      spec.ignoreCase, spec.nested⟩ := by
  have isClose : (none : Option (String × Pattern)).map (·.1) = spec.close := noClose.symm
  rw [RuleSpec.compile_of_reads category isRead isClose nofun, context]
  rfl

theorem compile_block :
    RuleSpec.compile
        { pattern := blockCommentOpen, close := some blockCommentClose, lookbehind := true } .comment =
      .ok blockRule := by
  unfold RuleSpec.compile RuleSpec.readPattern
  rw [readings.blockOpening]
  simp only [readings.blockClosing]
  rfl

theorem compile_line :
    RuleSpec.compile { pattern := lineComment, lookbehind := true, greedy := true } .comment =
      .ok lineRule := compile_of_read _ readings.lineOpening rfl rfl

theorem compile_string :
    RuleSpec.compile { pattern := quotedString, greedy := true } .string = .ok stringRule :=
  compile_of_read _ readings.string rfl rfl

theorem compile_className :
    RuleSpec.compile {
      pattern := className, lookbehind := true, ignoreCase := true
      nested := some classNameInside } .className = .ok classNameRule :=
  compile_of_read _ readings.classNameOpening rfl rfl

theorem compile_token {category : Category} {source : String} {token : Pattern} {ignoreCase : Bool}
    (isRead : Pattern.read source.toList ignoreCase = .ok token) :
    RuleSpec.compile { pattern := source, ignoreCase } category =
      .ok (tokenRule category source token ignoreCase) := compile_of_read _ isRead rfl rfl

theorem insideClassName_eq : insideClassName = .ok classNameInside := by
  have compiled : RuleSpec.compile { pattern := classNamePunctuation } .punctuation = _ :=
    compile_token readings.classNamePunctuation
  simp only [insideClassName, TableDraft.build, TableDraft.rule, TableDraft.insert, TableDraft.empty,
    List.mapM_cons, List.mapM_nil, compiled]
  rfl

theorem entries_draft (variant : Variant) (inside : RuleTable) : (variant.draft inside).entries =
    [(.comment, [{ pattern := blockCommentOpen, close := some blockCommentClose, lookbehind := true },
        { pattern := lineComment, lookbehind := true, greedy := true }]),
      (.string, [{ pattern := quotedString, greedy := true }]),
      (.className, [{
        pattern := className, lookbehind := true, ignoreCase := true, nested := some inside }]),
      (.keyword, [{ pattern := variant.keyword, ignoreCase := false }]),
      (.boolean, [{ pattern := boolean, ignoreCase := false }]),
      (.number, [{ pattern := variant.number, ignoreCase := true }]),
      (.operator, [{ pattern := variant.operator, ignoreCase := false }]),
      (.punctuation, [{ pattern := punctuation, ignoreCase := false }])] := rfl

theorem compile_entries (variant : Variant) :
    (variant.draft classNameInside).entries.mapM
        (fun (category, specs) => specs.mapM fun spec => spec.compile category) =
      Except.ok [[blockRule, lineRule], [stringRule], [classNameRule],
        [tokenRule .keyword variant.keyword variant.keywordToken false],
        [tokenRule .boolean boolean booleanToken false],
        [tokenRule .number variant.number variant.numberToken true],
        [tokenRule .operator variant.operator variant.operatorToken false],
        [tokenRule .punctuation punctuation punctuationToken false]] := by
  -- Reading is the work of the kernel, so each declaration is compiled through its reading alone.
  rw [entries_draft]
  apply mapM_cons_ok
  · exact mapM_cons_ok compile_block (mapM_singleton_ok compile_line)
  apply mapM_cons_ok
  · exact mapM_singleton_ok compile_string
  apply mapM_cons_ok
  · exact mapM_singleton_ok compile_className
  apply mapM_cons_ok
  · exact mapM_singleton_ok (compile_token (readings.keyword variant))
  apply mapM_cons_ok
  · exact mapM_singleton_ok (compile_token readings.boolean)
  apply mapM_cons_ok
  · exact mapM_singleton_ok (compile_token (readings.number variant))
  apply mapM_cons_ok
  · exact mapM_singleton_ok (compile_token (readings.operator variant))
  apply mapM_singleton_ok
  exact mapM_singleton_ok (compile_token readings.punctuation)

theorem build_eq (variant : Variant) :
    build variant = .ok (.ofRules (firstRules ++ variant.otherRules)) := by
  unfold build TableDraft.build
  rw [insideClassName_eq, ok_bind, compile_entries, ok_bind]
  simp only [pure, Except.pure, List.flatten_cons, List.flatten_nil, List.cons_append,
    List.nil_append, List.append_nil, firstRules, otherRules]

theorem rules_table (variant : Variant) : variant.table.rules = firstRules ++ variant.otherRules := by
  cases variant with
  | v1 => rw [table, v1Table, build_eq, Except.toOption, Option.getD_some, RuleTable.rules_ofRules]
  | v2 => rw [table, v2Table, build_eq, Except.toOption, Option.getD_some, RuleTable.rules_ofRules]

end Variant

end Highlighter
