import SkitPage.Proofs.Activation
import SkitPage.Proofs.Navigation

/-!
# The names that rules mention

A selector mentions an element by its id and a mark by its class, also inside a negation
(`Selector.mentions`). The rules of the states mention their class and the scene of the first state; the
rules of a kind mention the class of the kind and its members; the rules of the animations mention
characters and the ways in which they move.

Key definitions: `Mention`, `Selector.mentions`, `Rule.Mentions`.
Key theorems: `Page.mention_stateRules`, `Page.mention_activationRules`, `Page.mention_animationRules`.
-/

namespace SkitPage

/-! ### Mentions -/

/-- A name that a selector mentions. -/
inductive Mention
  | id (name : String)
  | cls (name : String)
deriving DecidableEq, Repr

mutual

/-- The names that a condition mentions. -/
def Simple.mentions : Simple → List Mention
  | .hasClass name => [.cls name]
  | .hasId name => [.id name]
  | .not alternatives => Selector.mentionsOfAll alternatives
  | .any => []
  | .element _ => []
  | .target => []

/-- The names that conditions mention. -/
def Simple.mentionsOfAll : List Simple → List Mention
  | [] => []
  | c :: cs => c.mentions ++ Simple.mentionsOfAll cs

/-- The names that a selector mentions. -/
def Selector.mentions : Selector → List Mention
  | .compound cs => Simple.mentionsOfAll cs
  | .related left _ cs => left.mentions ++ Simple.mentionsOfAll cs

/-- The names that selectors mention. -/
def Selector.mentionsOfAll : List Selector → List Mention
  | [] => []
  | s :: ss => s.mentions ++ Selector.mentionsOfAll ss

end

theorem Selector.mem_mentionsOfAll {m : Mention} : ∀ {ss : List Selector},
    m ∈ mentionsOfAll ss ↔ ∃ s ∈ ss, m ∈ s.mentions
  | [] => by simp [mentionsOfAll]
  | s :: ss => by
    have ih : m ∈ mentionsOfAll ss ↔ _ := mem_mentionsOfAll
    simp [mentionsOfAll, ih]

/-- A rule mentions a name in one of its selectors. -/
def Rule.Mentions (r : Rule) (m : Mention) : Prop := ∃ sel ∈ r.selectors, m ∈ sel.mentions

namespace Page

variable {s : Script} {n : Naming} {r : Rule} {m : Mention}

/-! ### Rules by family -/

/-- The rules of the states mention their class and the scene of the first state. -/
theorem mention_stateRules {count : Nat} (hr : r ∈ stateRules n count) (hm : r.Mentions m) :
    m = .cls (n.className .states) ∨ m = .id (n.id (.state 0)) := by
  have hon : ∀ sel ∈ (onRule n).selectors, sel.mentions = [.cls (n.className .states)] := by
    simp [onRule, Selector.mentions, Simple.mentionsOfAll, Simple.mentions]
  have hoff : ∀ sel ∈ (offRule n).selectors, sel.mentions = [.cls (n.className .states), .id (n.id (.state 0))] ∨
      sel.mentions = [.id (n.id (.state 0))] := by
    simp [offRule, Selector.mentions, Simple.mentionsOfAll, Simple.mentions, Selector.mentionsOfAll]
  obtain ⟨sel, hsel, hm⟩ := hm
  obtain rfl | rfl := stateRules_cases hr
  · rw [hon sel hsel] at hm
    exact Or.inl (by simpa using hm)
  · rcases hoff sel hsel with h | h
    · rw [h] at hm
      simpa using hm
    · rw [h] at hm
      exact Or.inr (by simpa using hm)

@[simp] theorem mentions_always (x : Member) : x.always.mentions = [.id x.id] := by
  simp [Member.always, Selector.mentions, Simple.mentionsOfAll, Simple.mentions]

@[simp] theorem mentions_whenShown (reach : Reach) (x : Member) :
    (x.whenShown reach).mentions = [.cls x.activation, .id x.id] := by
  cases reach <;>
    simp [Member.whenShown, Reach.select, Selector.mentions, Simple.mentionsOfAll, Simple.mentions]

@[simp] theorem mentions_whenHidden (reach : Reach) (x : Member) :
    (x.whenHidden reach).mentions = [.cls x.activation, .id x.id] := by
  cases reach <;>
    simp [Member.whenHidden, Reach.select, Selector.mentions, Simple.mentionsOfAll, Simple.mentions,
      Selector.mentionsOfAll]

section Activation

variable {cls kind : String} {reach : Reach} {members : List Member}

theorem mention_onRuleOf (hm : (onRuleOf kind reach members).Mentions m) :
    ∃ x ∈ members, m = .id x.id ∨ m = .cls x.activation := by
  obtain ⟨sel, hsel, hm⟩ := hm
  simp only [onRuleOf, List.mem_append, List.mem_map, List.mem_filter] at hsel
  obtain ⟨x, ⟨hx, -⟩, rfl⟩ | ⟨x, ⟨hx, -⟩, rfl⟩ := hsel
  · exact ⟨x, hx, Or.inl (by simpa using hm)⟩
  · exact ⟨x, hx, Or.symm (by simpa using hm)⟩

theorem mention_offRuleOf (hm : (offRuleOf cls kind reach members).Mentions m) :
    m = .cls cls ∨ ∃ x ∈ members, m = .id x.id ∨ m = .cls x.activation := by
  obtain ⟨sel, hsel, hm⟩ := hm
  simp only [offRuleOf, List.mem_cons, List.mem_map, List.mem_filter] at hsel
  obtain rfl | ⟨x, ⟨hx, -⟩, rfl⟩ := hsel
  · simp only [Selector.mentions, Simple.mentionsOfAll, Simple.mentions, List.append_nil, List.singleton_append,
      List.mem_cons, Selector.mem_mentionsOfAll, List.mem_map, List.mem_filter] at hm
    obtain rfl | ⟨_, ⟨x, ⟨hx, -⟩, rfl⟩, hm⟩ := hm
    · exact Or.inl rfl
    · exact Or.inr ⟨x, hx, Or.inl (by simpa using hm)⟩
  · exact Or.inr ⟨x, hx, Or.symm (by simpa using hm)⟩

theorem mention_base {mixins : List String} (hm : Rule.Mentions ⟨[.compound [.hasClass cls]], mixins⟩ m) :
    m = .cls cls := by
  obtain ⟨sel, hsel, hm⟩ := hm
  obtain rfl := List.mem_singleton.mp hsel
  simpa [Selector.mentions, Simple.mentionsOfAll, Simple.mentions] using hm

/-- The rules of a kind mention its class and its members, each by its id or the class of its mark. -/
theorem mention_activationRules (hr : r ∈ activationRules cls kind reach members) (hm : r.Mentions m) :
    (members ≠ [] ∧ m = .cls cls) ∨ ∃ x ∈ members, m = .id x.id ∨ m = .cls x.activation := by
  obtain ⟨hne, ⟨k, rfl⟩ | ⟨-, rfl⟩ | rfl⟩ := activationRules_cases hr
  · exact Or.inl ⟨hne, mention_base hm⟩
  · exact (mention_offRuleOf hm).imp_left fun h => ⟨hne, h⟩
  · exact Or.inr (mention_onRuleOf hm)

end Activation

/-- The rules of the animations mention characters, and the classes of the ways in which they move. -/
theorem mention_animationRules {d : Direction} (hr : r ∈ animationRules s n d) (hm : r.Mentions m) :
    ∃ c ∈ s.cast, m = .id (n.id (.character c.normalized)) ∨
      ∃ v, moves s c.normalized v = true ∧ m = .cls (n.className (.motion c.normalized v)) := by
  obtain ⟨a, -, rfl⟩ := List.mem_map.mp hr
  obtain ⟨sel, hsel, hm⟩ := hm
  obtain ⟨c, hc, hsel⟩ := List.mem_flatMap.mp hsel
  refine ⟨c, hc, ?_⟩
  unfold motionSelectors at hsel
  split at hsel
  case isTrue hmoves =>
    rcases List.mem_cons.mp hsel with rfl | hsel
    · obtain rfl | rfl : m = .cls _ ∨ m = .id _ := by
        simpa [Selector.mentions, Simple.mentionsOfAll, Simple.mentions] using hm
      · exact Or.inr ⟨_, hmoves, rfl⟩
      · exact Or.inl rfl
    · split at hsel
      · obtain rfl := List.mem_singleton.mp hsel
        refine Or.inl ?_
        simpa [Selector.mentions, Simple.mentionsOfAll, Simple.mentions, Selector.mentionsOfAll] using hm
      · cases hsel
  case isFalse => cases hsel

end Page

end SkitPage
