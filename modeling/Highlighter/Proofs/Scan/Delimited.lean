import Highlighter.Proofs.Pattern.Through
import Highlighter.Proofs.Scan.Alike
import Highlighter.Proofs.Scan.Refinement

/-!
What a delimited rule means. It may be replaced by a rule with one pattern: the opening one, then any characters
as few as possible, then the closing one or else the end of the text. Main statement: tables that differ in this,
at any depth, classify every text alike (`RuleTable.classify_undelimited`).
-/

set_option autoImplicit false

namespace Highlighter

namespace RuleOf

variable {Inner : Type}

/-- The rule with one pattern, read from `source`, for a match from the opening to the end of the token. -/
def undelimited (rule : RuleOf Inner) (closing : Pattern) (source : String) : RuleOf Inner :=
  { rule with source, opening := rule.opening.through closing, closing := none }

variable {rule : RuleOf Inner} {closing : Pattern} {source close : String} {text : List Char} {start cursor : Place}

/-- A rule that needs a context has a group before all groups of its closing pattern. -/
structure KeepsContext (rule : RuleOf Inner) (closing : Pattern) : Prop where
  labelled : closing.Labelled (1 ≤ ·)
  grouped : rule.lookbehind = true → 1 ≤ rule.opening.lastGroup

theorem freshStop_of_closing (isClosing : rule.closing = some (close, closing)) (reach : Reach) :
    rule.freshStop reach = closing.stopFrom reach.place := by
  unfold freshStop Pattern.stopFrom
  rw [isClosing]
  dsimp only
  cases closing.firstMatch reach.place <;> rfl

theorem tokenStart_undelimited {mid later : Reach}
    (same : rule.lookbehind = true → later.context = mid.context) :
    (rule.undelimited closing source).tokenStart start later = rule.tokenStart start mid := by
  have looks : (rule.undelimited closing source).lookbehind = rule.lookbehind := rfl
  unfold tokenStart
  rw [looks]
  split
  next looks => rw [same looks]
  next => rfl

theorem freshMatch_undelimited (isClosing : rule.closing = some (close, closing))
    (keeps : rule.KeepsContext closing) (inside : start.In text) :
    (rule.undelimited closing source).freshMatch start = rule.freshMatch start := by
  unfold freshMatch
  match isMatch : rule.opening.matchAt start with
  | none =>
    have nothing : (rule.undelimited closing source).opening.matchAt start = none :=
      Pattern.matchAt_through_eq_none closing inside isMatch
    rw [nothing]
    rfl
  | some mid =>
    obtain ⟨later, found, stops, kept⟩ := Pattern.exists_matchAt_through closing inside isMatch
    have isFound : (rule.undelimited closing source).opening.matchAt start = some later := found
    rw [isFound, Option.map_some, Option.map_some, freshStop_of_closing isClosing, ← stops,
      tokenStart_undelimited fun looks => kept keeps.labelled (keeps.grouped looks)]
    rfl

theorem report_undelimited (isClosing : rule.closing = some (close, closing))
    (keeps : rule.KeepsContext closing) (inside : cursor.In text) :
    (rule.undelimited closing source).report text cursor = rule.report text cursor := by
  refine Place.findSome?_onward_congr (firstStart_in inside) fun start startInside => ?_
  rw [freshMatch_undelimited isClosing keeps startInside]

end RuleOf

namespace RuleSpec

theorem labelled_readPattern (spec : RuleSpec) (category : Category) (source : String) :
    Gives (·.Labelled (1 ≤ ·)) (spec.readPattern category source) :=
  gives_mapError (Pattern.labelled_read _ _) _

/-- The closing pattern of a declared rule has groups from 1 on, and where a context is needed there is a group
before them. -/
theorem keepsContext_compile (spec : RuleSpec) (category : Category) :
    Gives (fun rule => ∀ close closing, rule.closing = some (close, closing) → rule.KeepsContext closing)
      (spec.compile category) := by
  unfold compile
  refine gives_bind fun opening isOpening => ?_
  have numbered := spec.labelled_readPattern category _ opening isOpening
  dsimp only
  split
  · split
    · exact gives_error _
    · exact gives_pure nofun
  next close _ =>
    refine gives_bind fun closing isClosing => ?_
    have labelled := spec.labelled_readPattern category _ closing isClosing
    rw [pure_bind]
    split
    · exact gives_error _
    next grouped =>
      refine gives_pure ?_
      rintro _ _ ⟨⟩
      refine ⟨labelled, fun looks => Pattern.one_le_lastGroup numbered ?_⟩
      simpa [show spec.lookbehind = true from looks] using grouped

end RuleSpec

namespace RuleTable

/-- The second table is the first with the ordinary rule in place of a delimited one, which has been declared in
the table itself or in one that is nested in it. -/
inductive Undelimits : RuleTable → RuleTable → Prop
  | here {spec : RuleSpec} {category : Category} {rule : Rule} {close : String} {closing : Pattern}
      (before after : List Rule) (source : String) (compiled : spec.compile category = .ok rule)
      (isClosing : rule.closing = some (close, closing)) :
      Undelimits (.ofRules (before ++ rule :: after))
        (.ofRules (before ++ rule.undelimited closing source :: after))
  | inside {rule : Rule} {table other : RuleTable} (before after : List Rule) (nested : rule.nested = some table)
      (undelimits : Undelimits table other) :
      Undelimits (.ofRules (before ++ rule :: after))
        (.ofRules (before ++ { rule with nested := some other } :: after))

theorem freshAt_of_alike {rule other : Rule} (before after : List Rule) {text : List Char}
    (alike : Entry.Alike text ⟨rule, freshInside rule.nested⟩ ⟨other, freshInside other.nested⟩) (base : Nat) :
    (ofRules (before ++ other :: after)).freshAt base text = (ofRules (before ++ rule :: after)).freshAt base text := by
  have same (entries : List Entry) : List.Forall₂ (Entry.Alike text) entries entries :=
    List.forall₂_same.2 fun entry _ => entry.alike_refl text
  unfold freshAt
  simp only [freshEntries_eq_map, List.map_append, List.map_cons]
  exact Entry.spans_alike (List.rel_append (same _) (.cons alike (same _))) (Place.first_in text) base _

theorem Undelimits.freshAt_eq {table other : RuleTable} (undelimits : Undelimits table other) :
    other.freshAt = table.freshAt := by
  induction undelimits with
  | @here spec category rule close closing before after source compiled isClosing =>
    have keeps := spec.keepsContext_compile category rule compiled close closing isClosing
    funext base text
    have alike : Entry.Alike text ⟨rule, freshInside rule.nested⟩
        ⟨rule.undelimited closing source, freshInside rule.nested⟩ :=
      ⟨rfl, rfl, rfl, RuleOf.report_undelimited isClosing keeps⟩
    exact freshAt_of_alike before after alike base
  | @inside rule table other before after nested _ ih =>
    -- The rule itself reports as before; only what is inside its matches comes from the other table.
    have sameInside : freshInside (some other) = freshInside rule.nested := by
      rw [nested]
      exact funext fun base => funext fun text => congrFun (congrFun ih base) text
    funext base text
    have alike : Entry.Alike text ⟨rule, freshInside rule.nested⟩
        ⟨{ rule with nested := some other }, freshInside (some other)⟩ := ⟨rfl, rfl, sameInside, fun _ => rfl⟩
    exact freshAt_of_alike before after alike base

/-- A delimited rule means the same as an ordinary one, wherever in a table it stands. -/
theorem classify_undelimited {table other : RuleTable} (undelimits : Undelimits table other) (text : List Char) :
    other.classify text = table.classify text := by
  rw [classify_eq_freshAt, classify_eq_freshAt, undelimits.freshAt_eq]

end RuleTable

/-- A delimited rule with a group in both of its patterns. -/
def Rule.remark : Rule where
  category := .comment
  source := "(a|^)#"
  opening := .seq (.group 1 (.alt (.literal ['a']) (.assert .textStart))) (.literal ['#'])
  closing := some ("(b)|;", .alt (.group 1 (.literal ['b'])) (.literal [';']))
  lookbehind := true
  greedy := false
  ignoreCase := false
  nested := none

namespace RuleTable

/-- With both texts in parentheses, this is how the pattern of the ordinary rule is written. -/
example : RuleSpec.compile { pattern := "(?:(a|^)#)(?s:.)*?(?:(?:(b)|;)|\\z)", lookbehind := true } .comment =
    .ok (Rule.remark.undelimited (.alt (.group 1 (.literal ['b'])) (.literal [';']))
      "(?:(a|^)#)(?s:.)*?(?:(?:(b)|;)|\\z)") := rfl

theorem classify_undelimited_remark :
    RuleSpec.compile { pattern := "(a|^)#", close := some "(b)|;", lookbehind := true } .comment =
        .ok Rule.remark ∧
      (ofRules [Rule.remark.undelimited (.alt (.group 1 (.literal ['b'])) (.literal [';'])) ""]).classify
        ['a', '#', '\n', 'b'] = (ofRules [Rule.remark]).classify ['a', '#', '\n', 'b'] ∧
      (ofRules [Rule.remark]).classify ['a', '#', '\n', 'b'] = [⟨.comment, 1, 4, []⟩] := by
  have compiled : RuleSpec.compile { pattern := "(a|^)#", close := some "(b)|;", lookbehind := true } .comment =
    .ok Rule.remark := rfl
  exact ⟨compiled, classify_undelimited (.here [] [] "" compiled rfl) _, rfl⟩

end RuleTable

end Highlighter
