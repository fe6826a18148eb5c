import SkitPage.Page.Blueprint
import SkitPage.Proofs.Names
import SkitPage.Proofs.RuleText

/-!
# The rules of a page in their text

The rules of a page reach a browser as text, the fragment that is added to the stylesheet. All names in their
selectors are numbers in small letters, so the rules can be read in the fragment just as they are, as long as
no animation has a line break in its name (`Blueprint.readAll?_fragment`). What the names of animations are is
up to the script, and they are written as they are. A line break in one of them ends the line of its mixin, and
the lines that follow in the name are rules like any other (`Script.entrance`).

Which rules there are is said once: two for the states (`Page.stateRules_cases`), up to three for each other kind of
element (`Page.activationRules_cases`), and one for each animation.

Key definitions: `Script.Unbroken`, `Naming.Plain`, `Page.onRule`, `Page.offRule`, `Page.onRuleOf`, `Page.offRuleOf`.
Key theorems: `Name.isWord_ofNumber`, `Page.stateRules_cases`, `Page.activationRules_cases`, `Page.plain_rules`,
`Blueprint.readAll?_fragment`.
-/

namespace SkitPage

/-- No animation of a script has a line break in its name. -/
def Script.Unbroken (s : Script) : Prop := ∀ d, ∀ a ∈ s.animations d, a.toList.any Text.isBreak = false

/-! ### Names -/

theorem Name.isLower_letters (n : Nat) : (letters n).all Char.isLower = true := by
  have hletter : ∀ d < 26, (letter d).isLower = true := by decide
  induction n using Nat.strongRecOn with
  | ind n ih =>
    rw [letters]
    split
    · rename_i hn
      simp [hletter n hn]
    · rename_i hn
      rw [List.all_append, ih (n / 26) (by omega)]
      simp [hletter (n % 26) (Nat.mod_lt _ (by omega))]

theorem Name.isWord_ofNumber (n : Nat) : IsWord (ofNumber n) := by
  have hne : letters n ≠ [] := by
    rw [letters]
    split <;> simp
  refine ⟨fun h => hne ?_, ?_⟩
  · have hlist : letters n = "".toList := by rw [← h, ofNumber, String.toList_ofList]
    exact hlist
  · rw [ofNumber, String.toList_ofList]
    exact isLower_letters n

/-- All elements and all marks have words for names. -/
structure Naming.Plain (n : Naming) : Prop where
  id : ∀ e, Name.IsWord (n.id e)
  className : ∀ m, Name.IsWord (n.className m)

theorem Script.plain_naming (s : Script) (l : Ledger) : (s.naming l).Plain where
  id _ := Name.isWord_ofNumber _
  className _ := Name.isWord_ofNumber _

/-! ### Which rules there are -/

/-- The conditions on the element that a selector selects. -/
def Selector.subject : Selector → List Simple
  | .compound cs => cs
  | .related _ _ cs => cs

namespace Page

variable {s : Script} {n : Naming} {r : Rule}

/-- The rule that switches on every element of the states' class. -/
def onRule (n : Naming) : Rule := ⟨[.compound [.hasClass (n.className .states)]], ["state", "active-state"]⟩

/-- The rule that switches off. -/
def offRule (n : Naming) : Rule :=
  ⟨[.compound [.hasClass (n.className .states), .not [.compound [.target]],
      .not [.compound [.hasId (n.id (.state 0))]]],
    .related (.compound [.target]) .sibling [.hasId (n.id (.state 0))]], ["inactive-state"]⟩

theorem stateRules_eq (n : Naming) (count : Nat) :
    stateRules n count = if 1 < count then [onRule n, offRule n] else [onRule n] := rfl

theorem stateRules_cases {count : Nat} (hr : r ∈ stateRules n count) : r = onRule n ∨ r = offRule n := by
  rw [stateRules_eq] at hr
  split at hr
  · simpa using hr
  · exact Or.inl (List.mem_singleton.mp hr)

theorem mixin_stateRules {count : Nat} (hr : r ∈ stateRules n count) {m : String} (hm : m ∈ r.mixins) :
    m ∈ ["state", "active-state", "inactive-state"] := by
  obtain rfl | rfl := stateRules_cases hr
  · exact List.mem_of_mem_take (i := 2) hm
  · exact List.mem_of_mem_drop (i := 2) hm

/-- The rule that switches off, if the first state shows some member. -/
def offRuleOf (cls kind : String) (reach : Reach) (members : List Member) : Rule :=
  ⟨.compound [.hasClass cls, .not ((members.filter (·.initial)).map Member.always)] ::
    (members.filter (·.initial)).map (Member.whenHidden reach), ["inactive-" ++ kind]⟩

/-- The rule that switches on. -/
def onRuleOf (kind : String) (reach : Reach) (members : List Member) : Rule :=
  ⟨(members.filter (·.initial)).map Member.always ++
    (members.filter (!·.initial)).map (Member.whenShown reach), ["active-" ++ kind]⟩

section Activation

variable {cls kind : String} {reach : Reach} {members : List Member}

theorem activationRules_of_initial (h : members.filter (·.initial) ≠ []) :
    activationRules cls kind reach members =
      [⟨[.compound [.hasClass cls]], [kind]⟩, offRuleOf cls kind reach members, onRuleOf kind reach members] := by
  have hne : members ≠ [] := by
    rintro rfl
    exact h rfl
  simp only [activationRules, List.isEmpty_iff, if_neg hne, if_neg h]
  rfl

theorem activationRules_of_later (hne : members ≠ []) (h : members.filter (·.initial) = []) :
    activationRules cls kind reach members =
      [⟨[.compound [.hasClass cls]], [kind, "inactive-" ++ kind]⟩, onRuleOf kind reach members] := by
  have hall : members.filter (!·.initial) = members := by
    rw [List.filter_eq_self]
    intro m hm
    have := List.filter_eq_nil_iff.mp h m hm
    simpa using this
  simp only [activationRules, List.isEmpty_iff, if_neg hne, h, if_true, onRuleOf, hall, List.map_nil,
    List.nil_append]

/-- The rules of a kind that is not empty: its base rule, the rule that switches off if the first state shows some
member, and the rule that switches on. The base rule switches off as well if the first state shows none. -/
theorem activationRules_cases (hr : r ∈ activationRules cls kind reach members) : members ≠ [] ∧
    ((∃ k, r = ⟨[.compound [.hasClass cls]], kind :: ["inactive-" ++ kind].take k⟩) ∨
      (members.filter (·.initial) ≠ [] ∧ r = offRuleOf cls kind reach members) ∨
      r = onRuleOf kind reach members) := by
  have hne : members ≠ [] := by
    rintro rfl
    simp [activationRules] at hr
  refine ⟨hne, ?_⟩
  by_cases hinitial : members.filter (·.initial) = []
  · rw [activationRules_of_later hne hinitial] at hr
    obtain rfl | rfl := by simpa using hr
    · exact Or.inl ⟨1, rfl⟩
    · exact Or.inr (Or.inr rfl)
  · rw [activationRules_of_initial hinitial] at hr
    obtain rfl | rfl | rfl := by simpa using hr
    · exact Or.inl ⟨0, rfl⟩
    · exact Or.inr (Or.inl ⟨hinitial, rfl⟩)
    · exact Or.inr (Or.inr rfl)

/-- The rule that switches on selects each member. -/
theorem exists_onRuleOf (kind : String) (reach : Reach) {x : Member} (hx : x ∈ members) :
    ∃ sel ∈ (onRuleOf kind reach members).selectors, .hasId x.id ∈ sel.subject := by
  cases hi : x.initial with
  | true =>
    have hmem : x ∈ members.filter (·.initial) := List.mem_filter.mpr ⟨hx, hi⟩
    exact ⟨x.always, List.mem_append_left _ (List.mem_map_of_mem hmem), List.mem_singleton_self _⟩
  | false =>
    have hmem : x ∈ members.filter (!·.initial) := List.mem_filter.mpr ⟨hx, by simp [hi]⟩
    refine ⟨x.whenShown reach, List.mem_append_right _ (List.mem_map_of_mem hmem), ?_⟩
    cases reach <;> exact List.mem_singleton_self _

theorem mixin_activationRules (hr : r ∈ activationRules cls kind reach members) {m : String} (hm : m ∈ r.mixins) :
    m ∈ [kind, "inactive-" ++ kind, "active-" ++ kind] := by
  obtain ⟨-, ⟨k, rfl⟩ | ⟨-, rfl⟩ | rfl⟩ := activationRules_cases hr
  · have hm : m ∈ [kind, "inactive-" ++ kind].take (k + 1) := hm
    exact List.mem_of_mem_take (i := 2) (List.mem_of_mem_take hm)
  · exact List.mem_of_mem_take (i := 2) (List.mem_cons_of_mem _ hm)
  · exact List.mem_of_mem_drop (i := 2) hm

end Activation

/-- Some character moves in each way for which there is an animation. -/
theorem exists_moves {d : Direction} {a : String} (h : a ∈ s.animations d) :
    ∃ c ∈ s.cast, moves s c.normalized ⟨d, a⟩ = true := by
  simp only [Script.animations, List.mem_eraseDups, List.mem_map, List.mem_filter, List.mem_filterMap,
    beq_iff_eq] at h
  obtain ⟨⟨_, _⟩, ⟨⟨x, hx, hmotion⟩, rfl⟩, rfl⟩ := h
  obtain ⟨c, hc, hname⟩ := Script.exists_cast hx
  exact ⟨c, hc, List.any_eq_true.mpr ⟨x, hx, by simp [hname, hmotion]⟩⟩

/-! ### Selectors and rules that can be read back -/

theorem plain_base {cls : String} (hcls : Name.IsWord cls) : (Selector.compound [.hasClass cls]).Plain := by
  simp [Selector.Plain, Simple.PlainAll, Simple.Plain, hcls]

theorem plain_stateRules (hn : n.Plain) {count : Nat} (hr : r ∈ stateRules n count) : r.Plain := by
  have hcls : Name.IsWord (n.className .states) := hn.className _
  have hid : Name.IsWord (n.id (.state 0)) := hn.id _
  have hmixins : ∀ m ∈ ["state", "active-state", "inactive-state"], m.toList.any Text.isBreak = false := by decide
  have hselectors : r.selectors ≠ [] ∧ ∀ sel ∈ r.selectors, sel.Plain := by
    obtain rfl | rfl := stateRules_cases hr
    · exact ⟨List.cons_ne_nil _ _, List.forall_mem_singleton.mpr (plain_base hcls)⟩
    · refine ⟨List.cons_ne_nil _ _, ?_⟩
      simp [offRule, Selector.Plain, Selector.PlainAll, Simple.PlainAll, Simple.Plain, hcls, hid]
  exact ⟨hselectors.1, hselectors.2, fun m hm => hmixins m (mixin_stateRules hr hm)⟩

/-- A member and its mark have words for names. -/
structure Member.Plain (x : Member) : Prop where
  id : Name.IsWord x.id
  activation : Name.IsWord x.activation

theorem plain_member (hn : n.Plain) (e : Entity) (m : Mark) : (member s n e m).Plain := ⟨hn.id e, hn.className m⟩

namespace Member.Plain

variable {x : Member} (h : x.Plain)

include h

theorem always : x.always.Plain := by
  simp [Member.always, Selector.Plain, Simple.PlainAll, Simple.Plain, h.id]

theorem whenShown (reach : Reach) : (x.whenShown reach).Plain := by
  cases reach <;>
    simp [Member.whenShown, Reach.select, Selector.Plain, Simple.PlainAll, Simple.Plain, h.id, h.activation]

theorem whenHidden (reach : Reach) : (x.whenHidden reach).Plain := by
  cases reach <;>
    simp [Member.whenHidden, Reach.select, Selector.Plain, Selector.PlainAll, Simple.PlainAll, Simple.Plain, h.id,
      h.activation]

end Member.Plain

section Activation

variable {cls kind : String} {reach : Reach} {members : List Member}

/-- The elements of a class that are none of the given members; there has to be one. -/
theorem plain_others (hcls : Name.IsWord cls) (hne : members ≠ []) (h : ∀ x ∈ members, x.Plain) :
    (Selector.compound [.hasClass cls, .not (members.map Member.always)]).Plain := by
  have hall : Selector.PlainAll (members.map Member.always) := by
    refine Selector.plainAll_iff.mpr fun sel hsel => ?_
    obtain ⟨x, hx, rfl⟩ := List.mem_map.mp hsel
    exact (h x hx).always
  simp [Selector.Plain, Simple.PlainAll, Simple.Plain, hcls, hne, hall]

/-- The rule that switches on speaks of each member. -/
theorem plain_onRuleOf (hne : members ≠ []) (h : ∀ x ∈ members, x.Plain) :
    (onRuleOf kind reach members).selectors ≠ [] ∧ ∀ sel ∈ (onRuleOf kind reach members).selectors, sel.Plain := by
  constructor
  · obtain ⟨x, hx⟩ := List.exists_mem_of_ne_nil _ hne
    obtain ⟨sel, hsel, -⟩ := exists_onRuleOf kind reach hx
    exact List.ne_nil_of_mem hsel
  · intro sel hsel
    simp only [onRuleOf, List.mem_append, List.mem_map, List.mem_filter] at hsel
    obtain ⟨x, ⟨hx, -⟩, rfl⟩ | ⟨x, ⟨hx, -⟩, rfl⟩ := hsel
    · exact (h x hx).always
    · exact (h x hx).whenShown reach

theorem plain_offRuleOf (hcls : Name.IsWord cls) (hinitial : members.filter (·.initial) ≠ [])
    (h : ∀ x ∈ members, x.Plain) : ∀ sel ∈ (offRuleOf cls kind reach members).selectors, sel.Plain := by
  have hshown : ∀ x ∈ members.filter (·.initial), x.Plain := fun x hx => h x (List.mem_of_mem_filter hx)
  intro sel hsel
  rcases List.mem_cons.mp hsel with rfl | hsel
  · exact plain_others hcls hinitial hshown
  · obtain ⟨x, hx, rfl⟩ := List.mem_map.mp hsel
    exact (hshown x hx).whenHidden reach

theorem plain_activationRules (hcls : Name.IsWord cls) (hkind : kind.toList.any Text.isBreak = false)
    (h : ∀ x ∈ members, x.Plain) (hr : r ∈ activationRules cls kind reach members) : r.Plain := by
  have hmixins : ∀ m ∈ [kind, "inactive-" ++ kind, "active-" ++ kind], m.toList.any Text.isBreak = false := by
    simp only [List.mem_cons, List.not_mem_nil, or_false]
    rintro m (rfl | rfl | rfl)
    · exact hkind
    · rw [String.toList_append, List.any_append, hkind]
      rfl
    · rw [String.toList_append, List.any_append, hkind]
      rfl
  have hselectors : r.selectors ≠ [] ∧ ∀ sel ∈ r.selectors, sel.Plain := by
    obtain ⟨hne, ⟨k, rfl⟩ | ⟨hinitial, rfl⟩ | rfl⟩ := activationRules_cases hr
    · exact ⟨List.cons_ne_nil _ _, List.forall_mem_singleton.mpr (plain_base hcls)⟩
    · exact ⟨List.cons_ne_nil _ _, plain_offRuleOf hcls hinitial h⟩
    · exact plain_onRuleOf hne h
  exact ⟨hselectors.1, hselectors.2, fun m hm => hmixins m (mixin_activationRules hr hm)⟩

end Activation

theorem plain_motionSelectors (hn : n.Plain) {m : Motion} {c : String} {sel : Selector}
    (h : sel ∈ motionSelectors s n m c) : sel.Plain := by
  unfold motionSelectors at h
  dsimp only at h
  split at h
  · rcases List.mem_cons.mp h with rfl | h
    · simp [Selector.Plain, Simple.PlainAll, Simple.Plain, hn.id, hn.className]
    · split at h
      · obtain rfl := List.mem_singleton.mp h
        simp [Selector.Plain, Selector.PlainAll, Simple.PlainAll, Simple.Plain, hn.id]
      · cases h
  · cases h

/-- The selectors of an animation are plain, and there is one: the animation comes from a slot of some character. -/
theorem plain_animation (hn : n.Plain) {d : Direction} {a : String} (ha : a ∈ s.animations d) :
    (s.cast.flatMap fun c => motionSelectors s n ⟨d, a⟩ c.normalized) ≠ [] ∧
      ∀ sel ∈ s.cast.flatMap fun c => motionSelectors s n ⟨d, a⟩ c.normalized, sel.Plain := by
  constructor
  · obtain ⟨c, hc, hmoves⟩ := exists_moves ha
    obtain ⟨sel, hsel⟩ : ∃ sel, sel ∈ motionSelectors s n ⟨d, a⟩ c.normalized := by
      rw [motionSelectors, if_pos hmoves]
      exact ⟨_, List.mem_cons_self⟩
    exact List.ne_nil_of_mem (List.mem_flatMap.mpr ⟨c, hc, hsel⟩)
  · intro sel hsel
    obtain ⟨c, -, hsel⟩ := List.mem_flatMap.mp hsel
    exact plain_motionSelectors hn hsel

theorem plain_animationRules (hn : n.Plain) (hs : s.Unbroken) {d : Direction} (hr : r ∈ animationRules s n d) :
    r.Plain := by
  obtain ⟨a, ha, rfl⟩ := List.mem_map.mp hr
  obtain ⟨hne, hsels⟩ := plain_animation hn ha
  refine ⟨hne, hsels, List.forall_mem_singleton.mpr ?_⟩
  rw [String.toList_append, String.toList_append, String.toList_append, List.any_append, List.any_append,
    List.any_append, hs d a ha]
  cases d <;> rfl

theorem plain_rules (hn : n.Plain) (hs : s.Unbroken) : ∀ r ∈ rules s n, r.Plain := by
  intro r hr
  simp only [rules, List.mem_append] at hr
  obtain ((((hr | hr) | hr) | hr) | hr) | hr := hr
  · exact plain_stateRules hn hr
  · refine plain_activationRules (hn.className _) (by decide) (fun x hx => ?_) hr
    obtain ⟨b, -, rfl⟩ := List.mem_map.mp hx
    exact plain_member hn _ _
  · refine plain_activationRules (hn.className _) (by decide) (fun x hx => ?_) hr
    obtain ⟨c, -, rfl⟩ := List.mem_map.mp hx
    exact plain_member hn _ _
  · exact plain_animationRules hn hs hr
  · exact plain_animationRules hn hs hr
  · refine plain_activationRules (hn.className _) (by decide) (fun x hx => ?_) hr
    obtain ⟨c, -, hx⟩ := List.mem_flatMap.mp hx
    obtain ⟨e, -, rfl⟩ := List.mem_map.mp hx
    exact plain_member hn _ _

end Page

/-- **The rules of a page can be read in their text**, if no animation has a line break in its name. -/
theorem Blueprint.readAll?_fragment {s : Script} (hs : s.Unbroken) (l : Ledger) :
    Rule.readAll? (draw s l).fragment = some (draw s l).rules :=
  Rule.readAll?_renderAll (Page.plain_rules (s.plain_naming l) hs)

/-- A scene at the beach, in which somebody comes in with an animation of the given name. -/
def Script.entrance (animation : String) : Script where
  characters := [⟨"ann", "Ann"⟩]
  states := [⟨some "beach", [.entering animation "calm"], [], none, .dismiss 0⟩]

end SkitPage
