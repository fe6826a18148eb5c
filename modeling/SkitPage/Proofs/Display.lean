import SkitPage.Proofs.Cascade
import SkitPage.Proofs.FragmentText

/-!
# What a page shows

The elements of a page at their places, and which of them its rules switch on. Scenes, backdrops and
actors stand side by side in this order, and the faces of an actor are inside it. The rules are those that a
browser reads in the fragment of the page (`Blueprint.display?`). Elements of a kind are decided by the rules of
their kind alone: the rules of other kinds and of animations apply other mixins.

The scene of the state in which the script begins is the last one (`Script.scenePosition`), and an element
of the row that has the id of a scene is that scene (`Page.eq_scene_of_id`).

Key definitions: `Page.row`, `Page.spot?`, `Page.before`, `Display`, `Blueprint.display?`, `Display.isActive`,
`Script.scenePosition`.
Key theorems: `Page.winner_state`, `Page.winner_background`, `Page.winner_character`, `Page.winner_emote`,
`Script.getElem?_pageStates`, `Page.eq_scene_of_id`.
-/

namespace SkitPage

namespace Page

/-! ### Places -/

/-- The elements that stand side by side, in document order. -/
def row (p : Page) : List Attributes :=
  p.scenes.map (·.attributes) ++ p.backdrops.map (·.attributes) ++ p.actors.map (·.attributes)

/-- The element of the row at a position. -/
def spot? (p : Page) (i : Nat) : Option Spot := (Spot.row [] [] p.row)[i]?

/-- The elements of the row before a position, nearest first. -/
def before (p : Page) (i : Nat) : List Attributes := (p.row.take i).reverse

theorem spot?_eq {p : Page} {i : Nat} {a : Attributes} (h : p.row[i]? = some a) :
    p.spot? i = some ⟨a, p.before i, []⟩ := by
  simp [spot?, Spot.getElem?_row, h, before]

theorem mem_before {p : Page} {i j : Nat} {a : Attributes} (hlt : j < i) (h : p.row[j]? = some a) :
    a ∈ p.before i := by
  refine List.mem_reverse.mpr (List.mem_of_getElem? (i := j) ?_)
  rw [List.getElem?_take_of_lt hlt, h]

/-- The actor at a position. -/
def actorSpot? (p : Page) (j : Nat) : Option Spot := p.spot? (p.scenes.length + p.backdrops.length + j)

/-- The mixins between which the rules decide for an element of a kind. -/
def contested (kind : String) : List String := ["active-" ++ kind, "inactive-" ++ kind]

/-- The mixin of an animation ends like no contested one. -/
theorem mixin_animationRules {s : Script} {n : Naming} {d : Direction} {r : Rule}
    (hr : r ∈ animationRules s n d) {m : String} (hm : m ∈ r.mixins) : m.toList.getLast? = some 'n' := by
  obtain ⟨a, -, rfl⟩ := List.mem_map.mp hr
  obtain rfl := List.mem_singleton.mp hm
  rw [String.toList_append, List.getLast?_append]
  rfl

/-- None of the rules applies a mixin that decides for elements of the kind. -/
def Foreign (kind : String) (rules : List Rule) : Prop := ∀ r ∈ rules, ∀ m ∈ r.mixins, m ∉ contested kind

theorem Foreign.append {kind : String} {rules rules' : List Rule} (h : Foreign kind rules)
    (h' : Foreign kind rules') : Foreign kind (rules ++ rules') := fun r hr =>
  (List.mem_append.mp hr).elim (h r) (h' r)

theorem foreign_activation {kind other cls : String} {reach : Reach} {members : List Member}
    (h : ∀ m ∈ [other, "inactive-" ++ other, "active-" ++ other], m ∉ contested kind) :
    Foreign kind (activationRules cls other reach members) := fun _ hr _ hm =>
  h _ (mixin_activationRules hr hm)

theorem foreign_animation {kind : String} {s : Script} {n : Naming} {d : Direction}
    (h : ∀ m ∈ contested kind, m.toList.getLast? ≠ some 'n') : Foreign kind (animationRules s n d) :=
  fun _ hr m hm hc => h m hc (mixin_animationRules hr hm)

variable {s : Script} {n : Naming} {v : View} {x : Spot}

open Cascade

theorem winner_state : winner v (rules s n) x (contested "state") =
    winner v (stateRules n s.states.length) x (contested "state") := by
  unfold rules
  rw [winner_append_of_left (foreign_activation (by decide)),
    winner_append_of_left (foreign_animation (by decide)),
    winner_append_of_left (foreign_animation (by decide)),
    winner_append_of_left (foreign_activation (by decide)),
    winner_append_of_left (foreign_activation (by decide))]

end Page

/-! ### Displays -/

/-- What a browser has of a page: its elements, and the rules for them. -/
structure Display where
  /-- The elements. -/
  page : Page
  /-- The rules. -/
  rules : List Rule

/-- The display of a page with the rules that can be read in its fragment, if it can be read. -/
def Blueprint.display? (b : Blueprint) : Option Display := (Rule.readAll? b.fragment).map fun rules => ⟨b.page, rules⟩

theorem Blueprint.display?_eq (b : Blueprint) :
    b.display? = (Rule.ofLines? (b.rules.flatMap Rule.textLines)).map fun rules => ⟨b.page, rules⟩ := by
  rw [display?, fragment, Rule.readAll?_renderAll_eq]

namespace Display

/-- Whether the rules switch an element of a kind on. -/
def isActive (d : Display) (v : View) (kind : String) (x : Spot) : Bool :=
  Cascade.winner v d.rules x (Page.contested kind) = some ("active-" ++ kind)

theorem isActive_iff {d : Display} {v : View} {kind : String} {x : Spot} :
    d.isActive v kind x = true ↔ Cascade.winner v d.rules x (Page.contested kind) = some ("active-" ++ kind) := by
  simp [isActive]

/-- The display of a script's page. -/
def draw (s : Script) (l : Ledger) : Display := ⟨.ofScript s (s.naming l), Page.rules s (s.naming l)⟩

end Display

/-- The fragment of a page is read as the rules of the page, if no animation has a line break in its name. -/
theorem Blueprint.display?_draw {s : Script} (hs : s.Unbroken) (l : Ledger) :
    (Blueprint.draw s l).display? = some (Display.draw s l) := by
  rw [display?, readAll?_fragment hs, Option.map_some]
  rfl

/-! ### The scene of a state -/

namespace Script

/-- Where the page has the scene of the state at a position of the script. -/
def scenePosition (s : Script) (i : Nat) : Nat := if i = 0 then s.states.length - 1 else i - 1

theorem length_pageStates (s : Script) : s.pageStates.length = s.states.length := by
  have : ∀ xs : List (State × Nat), (initialLast xs).length = xs.length := by
    intro xs
    cases xs <;> simp [initialLast]
  rw [pageStates, this, List.length_zipIdx]

/-- The first state comes last, and every other one place earlier. -/
theorem getElem?_pageStates {s : Script} {i : Nat} {st : State} (h : s.states[i]? = some st) :
    s.pageStates[s.scenePosition i]? = some (st, i) := by
  unfold pageStates scenePosition
  cases hs : s.states with
  | nil => simp [hs] at h
  | cons x xs =>
    rw [hs] at h
    cases i with
    | zero =>
      obtain rfl : x = st := by simpa using h
      simp [initialLast, List.zipIdx_cons]
    | succ i =>
      have hi : i < xs.length := by
        have := (List.getElem?_eq_some_iff.mp h).1
        simpa using this
      simp only [initialLast, List.zipIdx_cons, Nat.succ_ne_zero, if_false, Nat.add_sub_cancel]
      rw [List.getElem?_append_left (by simpa using hi), List.getElem?_zipIdx]
      simp only [List.getElem?_cons_succ] at h
      simp [h, Nat.add_comm]

theorem scenePosition_lt {s : Script} {i : Nat} (h : i < s.states.length) :
    s.scenePosition i < s.states.length := by
  unfold scenePosition
  split <;> omega

/-- Different states have their scenes at different places. -/
theorem scenePosition_inj {s : Script} {i j : Nat} (hi : i < s.states.length) (hj : j < s.states.length) :
    s.scenePosition i = s.scenePosition j ↔ i = j := by
  unfold scenePosition
  split <;> split <;> omega

theorem exists_scenePosition {s : Script} {j : Nat} (h : j < s.states.length) :
    ∃ i < s.states.length, s.scenePosition i = j := by
  unfold scenePosition
  by_cases hj : j = s.states.length - 1
  · exact ⟨0, by omega, by simp [hj]⟩
  · exact ⟨j + 1, by omega, by simp⟩

end Script

namespace Page

variable {s : Script} {n : Naming}

theorem length_scenes : (ofScript s n).scenes.length = s.states.length := by
  simp [ofScript, s.length_pageStates]

theorem getElem?_scenes {i : Nat} {st : State} (h : s.states[i]? = some st) :
    (ofScript s n).scenes[s.scenePosition i]? = some (scene s n st i) := by
  simp [ofScript, Script.getElem?_pageStates h]

theorem getElem?_row_scene {i : Nat} {st : State} (h : s.states[i]? = some st) :
    (ofScript s n).row[s.scenePosition i]? = some (scene s n st i).attributes := by
  have hlt := Script.scenePosition_lt (List.getElem?_eq_some_iff.mp h).1
  unfold row
  rw [List.append_assoc, List.getElem?_append_left (by simpa [length_scenes] using hlt), List.getElem?_map,
    getElem?_scenes h]
  rfl

theorem mem_row {a : Attributes} (h : a ∈ (ofScript s n).row) :
    (∃ i st, s.states[i]? = some st ∧ a = (scene s n st i).attributes) ∨
      (∃ b ∈ s.backgrounds, a = (backdrop n b).attributes) ∨
      ∃ c ∈ s.cast, a = (actor s n c).attributes := by
  simp only [row, ofScript, List.map_map, List.mem_append, List.mem_map] at h
  obtain (⟨⟨st, i⟩, hst, rfl⟩ | ⟨b, hb, rfl⟩) | ⟨c, hc, rfl⟩ := h
  · exact Or.inl ⟨i, st, Script.mem_pageStates.mp hst, rfl⟩
  · exact Or.inr (Or.inl ⟨b, hb, rfl⟩)
  · exact Or.inr (Or.inr ⟨c, hc, rfl⟩)

end Page

namespace Script

variable {s : Script}

theorem state_mem_elementOrder {i : Nat} {st : State} (h : s.states[i]? = some st) :
    Entity.state i ∈ s.elementOrder := by
  simp only [elementOrder, List.mem_append, List.mem_map]
  exact Or.inl (Or.inl ⟨(st, i), mem_pageStates.mpr h, rfl⟩)

theorem background_mem_elementOrder {b : String} (h : b ∈ s.backgrounds) :
    Entity.background b ∈ s.elementOrder := by
  simp [elementOrder, h]

theorem character_mem_elementOrder {c : Character} (h : c ∈ s.cast) :
    Entity.character c.normalized ∈ s.elementOrder := by
  simp only [elementOrder, List.mem_append, List.mem_flatMap]
  exact Or.inr ⟨c, h, List.mem_cons_self ..⟩

theorem emote_mem_elementOrder {c : Character} (h : c ∈ s.cast) {e : String} (he : e ∈ s.emotes c.normalized) :
    Entity.emote c.normalized e ∈ s.elementOrder := by
  simp only [elementOrder, List.mem_append, List.mem_flatMap]
  exact Or.inr ⟨c, h, List.mem_cons_of_mem _ (List.mem_map_of_mem he)⟩

end Script

namespace Page

variable {s : Script} {l : Ledger}

/-- An element of the row that has the id of a scene is that scene. -/
theorem eq_scene_of_id (hl : s.ledger? = some l) {i : Nat} {st : State} (hi : s.states[i]? = some st)
    {a : Attributes} (ha : a ∈ (ofScript s (s.naming l)).row) (hid : a.id = (s.naming l).id (.state i)) :
    a = (scene s (s.naming l) st i).attributes := by
  have hmem := Script.state_mem_elementOrder hi
  obtain ⟨k, st', hk, rfl⟩ | ⟨b, hb, rfl⟩ | ⟨c, hc, rfl⟩ := mem_row ha
  · have := (Script.naming_id_inj hl (Script.state_mem_elementOrder hk) hmem).mp hid
    obtain rfl := Entity.state.inj this
    obtain rfl := Option.some.inj (hk.symm.trans hi)
    rfl
  · exact absurd ((Script.naming_id_inj hl (Script.background_mem_elementOrder hb) hmem).mp hid) (by simp)
  · exact absurd ((Script.naming_id_inj hl (Script.character_mem_elementOrder hc) hmem).mp hid) (by simp)

end Page

end SkitPage
