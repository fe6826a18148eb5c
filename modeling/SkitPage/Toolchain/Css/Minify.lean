import SkitPage.Toolchain.Css.Reader

/-!
# Making stylesheets small

A minifier for rehearsals, which knows two properties. A stylesheet is read, rules that set nothing are left out, neighbouring rules are joined where they may
be, and the rest is written without blanks.

A rule is joined to the last one before it if both have the same selectors, the later setting winning, or
if both set the same values, the selectors being added. A rule that grew so is compared with the one
before it again. A rule that cannot be joined overrides an earlier one with the same selectors that sets
the same properties, which is then left out. Earlier rules are found by a record of the place where each
was put; a record that joining has made stale counts for what stands at its place now.

Key definitions: `Selector.same`, `Css.join?`, `Css.Output.add`, `Css.minify?`.
-/

namespace SkitPage

/-! ### Equal selectors -/

mutual

/-- Whether two conditions are the same. -/
def Simple.same : Simple → Simple → Bool
  | .any, .any => true
  | .element a, .element b => a == b
  | .hasClass a, .hasClass b => a == b
  | .hasId a, .hasId b => a == b
  | .target, .target => true
  | .not a, .not b => Selector.sameList a b
  | _, _ => false

/-- Whether two lists of conditions are the same. -/
def Simple.sameList : List Simple → List Simple → Bool
  | [], [] => true
  | a :: as, b :: bs => a.same b && Simple.sameList as bs
  | _, _ => false

/-- Whether two selectors are the same. -/
def Selector.same : Selector → Selector → Bool
  | .compound a, .compound b => Simple.sameList a b
  | .related l k a, .related l' k' b => l.same l' && k == k' && Simple.sameList a b
  | _, _ => false

/-- Whether two lists of selectors are the same. -/
def Selector.sameList : List Selector → List Selector → Bool
  | [], [] => true
  | a :: as, b :: bs => a.same b && Selector.sameList as bs
  | _, _ => false

end

namespace Css

/-! ### Joining rules -/

/-- One rule for two neighbours, if they may be joined. -/
def join? (earlier later : PlainRule) : Option PlainRule :=
  if Selector.sameList earlier.selectors later.selectors then
    some { earlier with block := earlier.block.followedBy later.block }
  else if earlier.block = later.block then
    some { earlier with selectors := earlier.selectors ++ later.selectors }
  else none

/-- The place of a rule in the output, and what was there when the rule was put there. -/
structure Record where
  /-- The rule as it was added. -/
  added : PlainRule
  /-- The place by which the rule is found. -/
  place : Nat
  /-- The place that is cleared when the rule is overridden. -/
  target : Nat

/-- The rules so far. -/
structure Output where
  /-- The rules in the order of their places, the last first; a rule that was overridden leaves its place
  empty. -/
  slots : List (Option PlainRule) := []
  /-- What was put where, the earliest first. A place that was given up by joining may be used again, and
  its old record stays. -/
  records : List Record := []

/-- Join the last rules for as long as they may be. -/
def settle : List (Option PlainRule) → List (Option PlainRule)
  | some b :: some a :: rest =>
    match join? a b with
    | some joined => settle (some joined :: rest)
    | none => some b :: some a :: rest
  | slots => slots
termination_by slots => slots.length

/-- Whether a rule has the selectors of another and sets the same properties. -/
def overrides (later earlier : PlainRule) : Bool :=
  Selector.sameList later.selectors earlier.selectors && later.block.sameProperties earlier.block

namespace Output

/-- The rule at a place, unless it is empty. -/
def rule? (o : Output) (place : Nat) : Option PlainRule := (o.slots.reverse[place]?).join

/-- The output with a place emptied. -/
def clear (o : Output) (place : Nat) : Output :=
  { o with slots := (o.slots.reverse.set place none).reverse }

/-- Whether a rule overrides what a record tells of: the rule that was added, and the one that is there
now. -/
def isOverridden (o : Output) (r : PlainRule) (record : Record) : Bool :=
  overrides r record.added && (o.rule? record.place).any (overrides r)

/-- The output with a record of the rule, which was put at a place. A record that the rule overrides is
only pointed to the new place; else the new one comes after the first `n` records. -/
def note (o : Output) (r : PlainRule) (place n : Nat) : Output :=
  match o.records.findIdx? (o.isOverridden r) with
  | some i => { o with records := o.records.modify i ({ · with target := place }) }
  | none => { o with records := o.records.take n ++ ⟨r, place, place⟩ :: o.records.drop n }

/-- Put a rule after the others; the first rule that it overrides is left out. -/
def push (o : Output) (r : PlainRule) : Output :=
  let place := o.slots.length
  let grown := { o with slots := some r :: o.slots }
  match grown.records.findIdx? (grown.isOverridden r) with
  | none => grown.note r place grown.records.length
  | some i =>
    let target := (grown.records[i]?.map (·.target)).getD place
    ({ grown.clear target with records := grown.records.eraseIdx i }).note r place i

/-- Add a rule, joined to the last one if it may be. -/
def add (o : Output) (r : PlainRule) : Output :=
  match o.slots with
  | some last :: rest => match join? last r with
    | some joined => { o with slots := settle (some joined :: rest) }
    | none => o.push r
  | _ => o.push r

end Output

/-- The rules with neighbours joined. -/
def joinRules (rules : List PlainRule) : List PlainRule :=
  ((rules.filter (!·.block.isEmpty)).foldl Output.add {}).slots.reverse.filterMap id

/-! ### Text -/

/-- The text of a rule without blanks. -/
def PlainRule.render (r : PlainRule) : String :=
  Selector.renderList .tight r.selectors ++ "\x7b" ++ r.block.render ++ "\x7d"

/-- A notice as it was, on a line of its own. -/
def renderNotice (notice : String) : String := "/*" ++ notice ++ "*/\n"

/-- A plain stylesheet made small, if it can be read. The notices at its start are kept. -/
def minify? (text : String) : Option String :=
  (rules? text).map fun rules =>
    String.join ((notices text).map renderNotice ++ (joinRules rules).map PlainRule.render)

end Css

end SkitPage
