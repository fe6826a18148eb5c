import SkitPage.Proofs.Display
import SkitPage.Proofs.Faults

/-!
# A page plays its script

A reader of a page follows links: each step takes one of the links of the scene that is shown and makes
its fragment the fragment of the address. A reader of the script makes choices: each step goes on to one
of the targets of the current state. Whatever the choices, both do the same (`browse_plays_script`): the
page shows one scene, that of the current state, and offers the same choices.

The rules are those that can be read in the fragment of the page. A script may put rules of its own there, with a line
break in the name of an animation, and then no scene may be shown at all (`broken_name_hides_scene`).

The rules of the states decide this alone. They switch a scene off while it is not targeted, except the
one of the first state, which is off while one of the others is (`Page.isActive_state`). So what is shown
depends on the fragment only: it is the scene with that id, or else the scene of the first state
(`Display.shown_eq`).

Key definitions: `Display.shown`, `Display.browse?`, `Script.play?`.
Key theorems: `Page.isActive_state`, `Display.shown_eq`, `Display.follow?_eq`,
`Blueprint.browse_plays_script`.
-/

namespace SkitPage

/-! ### Reading a script -/

/-- The state reached from the state at a position, taking at each step the target with the chosen
number. -/
def Script.play? (s : Script) : Nat → List Nat → Option Nat
  | i, [] => some i
  | i, k :: ks => do
    let st ← s.states[i]?
    let t ← st.interaction.targets[k]?
    s.play? t ks

/-! ### Reading a page -/

/-- Where the links of a scene lead, in order. -/
def Exit.hrefs : Exit → List String
  | .dismiss href => [href]
  | .menu links => links.map (·.href)

/-- The fragment that a link to a place on the same page leads to. -/
def Link.fragment? (href : String) : Option String :=
  match href.toList with
  | '#' :: cs => some (String.ofList cs)
  | _ => none

namespace Display

/-- The positions of the scenes that are shown. -/
def shown (d : Display) (v : View) : List Nat :=
  (List.range d.page.scenes.length).filter fun j => (d.page.spot? j).any (d.isActive v "state")

/-- Follow a link of the scene that is shown; there has to be exactly one. -/
def follow? (d : Display) (v : View) (k : Nat) : Option View :=
  match d.shown v with
  | [j] => do
    let scene ← d.page.scenes[j]?
    let href ← scene.exit.hrefs[k]?
    let fragment ← Link.fragment? href
    return { v with fragment := some fragment }
  | _ => none

/-- What is seen after links with the chosen numbers were followed. -/
def browse? (d : Display) : View → List Nat → Option View
  | v, [] => some v
  | v, k :: ks => do
    let v' ← d.follow? v k
    d.browse? v' ks

end Display

/-! ### The rules of the states -/

namespace Page

open Cascade

theorem contested_onRule {n : Naming} : (onRule n).mixins.filter (· ∈ contested "state") = ["active-state"] :=
  (by decide : ["state", "active-state"].filter (· ∈ contested "state") = ["active-state"])

theorem contested_offRule {n : Naming} :
    (offRule n).mixins.filter (· ∈ contested "state") = ["inactive-state"] :=
  (by decide : ["inactive-state"].filter (· ∈ contested "state") = ["inactive-state"])

variable {v : View} {n : Naming} {x : Spot}

theorem force?_onRule (hx : n.className .states ∈ x.self.classes) :
    (onRule n).force? v x = some ⟨0, 1, 0⟩ := by
  apply Rule.force?_eq_some
  · simp [onRule, Selector.selects, Simple.holdAll, Simple.holds, hx]
  · intro sel hsel _
    obtain rfl := List.mem_singleton.mp hsel
    rfl

/-- An element is off if it is not the initial scene and not targeted, or if it is the initial scene and
one before it is targeted. -/
def IsOff (v : View) (initial : String) (x : Spot) : Prop :=
  (x.self.id ≠ initial ∧ v.fragment ≠ some x.self.id) ∨
    (x.self.id = initial ∧ ∃ a ∈ x.before, v.fragment = some a.id)

theorem selects_idle {cls initial : String} (hx : cls ∈ x.self.classes) :
    (Selector.compound [.hasClass cls, .not [.compound [.target]], .not [.compound [.hasId initial]]]).selects
      v x = true ↔ x.self.id ≠ initial ∧ v.fragment ≠ some x.self.id := by
  simp [Selector.selects, Simple.holdAll, Simple.holds, Selector.selectsAny, hx, and_comm]

theorem selects_behind {initial : String} :
    (Selector.related (.compound [.target]) .sibling [.hasId initial]).selects v x = true ↔
      x.self.id = initial ∧ ∃ a ∈ x.before, v.fragment = some a.id := by
  rw [← Spot.exists_sibling (p := fun a => v.fragment = some a.id)]
  simp [Selector.selects, Simple.holdAll, Simple.holds]

/-- What the rule that switches off does: its two selectors exclude each other, and each outweighs a
class. -/
theorem force?_offRule (hx : n.className .states ∈ x.self.classes) :
    (IsOff v (n.id (.state 0)) x ∧ ∃ w, (offRule n).force? v x = some w ∧ ¬ w < ⟨0, 1, 0⟩) ∨
      (¬ IsOff v (n.id (.state 0)) x ∧ (offRule n).force? v x = none) := by
  by_cases hoff : IsOff v (n.id (.state 0)) x
  · refine Or.inl ⟨hoff, ?_⟩
    rcases hoff with h | h
    · refine ⟨⟨1, 2, 0⟩, Rule.force?_eq_some ⟨_, List.mem_cons_self .., (selects_idle hx).mpr h⟩ ?_, by decide⟩
      intro sel hsel hs
      obtain rfl | rfl := by simpa [offRule] using hsel
      · rfl
      · exact absurd (selects_behind.mp hs).1 h.1
    · refine ⟨⟨1, 1, 0⟩, Rule.force?_eq_some
        ⟨_, List.mem_cons_of_mem _ (List.mem_cons_self ..), selects_behind.mpr h⟩ ?_, by decide⟩
      intro sel hsel hs
      obtain rfl | rfl := by simpa [offRule] using hsel
      · exact absurd h.1 ((selects_idle hx).mp hs).1
      · rfl
  · refine Or.inr ⟨hoff, Rule.force?_eq_none.mpr fun sel hsel => Bool.eq_false_iff.mpr fun hs => hoff ?_⟩
    obtain rfl | rfl := by simpa [offRule] using hsel
    · exact Or.inl ((selects_idle hx).mp hs)
    · exact Or.inr (selects_behind.mp hs)

/-- **The rules of the states.** An element of their class is on unless it is off; a single state is never
off. -/
theorem winner_stateRules {count : Nat} (hx : n.className .states ∈ x.self.classes) :
    winner v (stateRules n count) x (contested "state") = some "active-state" ↔
      ¬ (1 < count ∧ IsOff v (n.id (.state 0)) x) := by
  rw [stateRules_eq]
  by_cases hc : 1 < count
  · rw [if_pos hc, winner_pair _ _ contested_onRule contested_offRule, force?_onRule hx]
    obtain ⟨hoff, w, hw, hlt⟩ | ⟨hoff, hw⟩ := force?_offRule (v := v) hx
    · simp [hw, hlt, hoff, hc]
    · simp [hw, hoff]
  · rw [if_neg hc]
    unfold winner
    rw [filter_applied_cons, force?_onRule hx, contested_onRule]
    simp [hc, applied, prevailing, contest]

/-! ### The scene that is shown -/

/-- The state at a position is the current one: its scene is targeted, or it is the first and no scene
is. -/
def Current (v : View) (s : Script) (n : Naming) (i : Nat) : Prop :=
  v.fragment = some (n.id (.state i)) ∨
    i = 0 ∧ ∀ k < s.states.length, v.fragment ≠ some (n.id (.state k))

variable {s : Script} {l : Ledger}

theorem state_id_inj (hl : s.ledger? = some l) {i k : Nat} (hi : i < s.states.length)
    (hk : k < s.states.length) : (s.naming l).id (.state i) = (s.naming l).id (.state k) ↔ i = k := by
  rw [Script.naming_id_inj hl (Script.state_mem_elementOrder (List.getElem?_eq_getElem hi))
    (Script.state_mem_elementOrder (List.getElem?_eq_getElem hk)), Entity.state.injEq]

theorem Current.unique (hl : s.ledger? = some l) {i k : Nat} (hi : i < s.states.length)
    (hk : k < s.states.length) (h : Current v s (s.naming l) i) (h' : Current v s (s.naming l) k) : i = k := by
  rcases h with h | ⟨rfl, h⟩
  · rcases h' with h' | ⟨-, h'⟩
    · exact (state_id_inj hl hi hk).mp (Option.some.inj (h.symm.trans h'))
    · exact absurd h (h' i hi)
  · rcases h' with h' | ⟨rfl, -⟩
    · exact absurd h' (h k hk)
    · rfl

theorem spot?_scene {i : Nat} {st : State} (hi : s.states[i]? = some st) :
    (ofScript s n).spot? (s.scenePosition i) =
      some ⟨(scene s n st i).attributes, (ofScript s n).before (s.scenePosition i), []⟩ :=
  spot?_eq (getElem?_row_scene hi)

/-- The elements before the scene of the first state are the scenes of all other states. -/
theorem exists_before_initial {p : Attributes → Prop} :
    (∃ a ∈ (ofScript s n).before (s.scenePosition 0), p a) ↔
      ∃ i st, i ≠ 0 ∧ s.states[i]? = some st ∧ p (scene s n st i).attributes := by
  have h0 : s.scenePosition 0 = s.states.length - 1 := if_pos rfl
  constructor
  · rintro ⟨a, ha, hp⟩
    obtain ⟨j, hj, rfl⟩ := List.mem_take_iff_getElem.mp (List.mem_reverse.mp ha)
    obtain ⟨i, hi, hpos⟩ := s.exists_scenePosition (j := j) (by omega)
    have hget := getElem?_row_scene (n := n) (List.getElem?_eq_getElem hi)
    rw [hpos, List.getElem?_eq_getElem (by omega)] at hget
    refine ⟨i, _, ?_, List.getElem?_eq_getElem hi, Option.some.inj hget ▸ hp⟩
    rintro rfl
    omega
  · rintro ⟨i, st, hi0, hi, hp⟩
    have hlt := (List.getElem?_eq_some_iff.mp hi).1
    have hpos : s.scenePosition i = i - 1 := if_neg hi0
    exact ⟨_, mem_before (by omega) (getElem?_row_scene hi), hp⟩

theorem states_mem_classes {st : State} {i : Nat} : n.className .states ∈ (scene s n st i).attributes.classes :=
  List.mem_map_of_mem (State.mem_marks.mpr (Or.inl rfl))

theorem isActive_state (hx : (s.naming l).className .states ∈ x.self.classes) :
    (Display.draw s l).isActive v "state" x = true ↔
      ¬ (1 < s.states.length ∧ IsOff v ((s.naming l).id (.state 0)) x) := by
  rw [← winner_stateRules hx, ← winner_state]
  exact Display.isActive_iff

/-- **A scene is on if its state is the current one.** -/
theorem isActive_scene (hl : s.ledger? = some l) {i : Nat} {st : State} (hi : s.states[i]? = some st)
    (hx : (ofScript s (s.naming l)).spot? (s.scenePosition i) = some x) :
    (Display.draw s l).isActive v "state" x = true ↔ Current v s (s.naming l) i := by
  rw [spot?_scene hi] at hx
  obtain rfl := Option.some.inj hx
  have hlt := (List.getElem?_eq_some_iff.mp hi).1
  rw [isActive_state states_mem_classes]
  by_cases hi0 : i = 0
  · -- the scene of the first state is off while another scene is targeted
    subst hi0
    simp only [IsOff, exists_before_initial]
    constructor
    · intro h
      by_cases hf : v.fragment = some ((s.naming l).id (.state 0))
      · exact Or.inl hf
      · refine Or.inr ⟨rfl, fun k hk hfk => ?_⟩
        have hk0 : k ≠ 0 := fun e => hf (e ▸ hfk)
        exact h ⟨by omega, Or.inr ⟨rfl, k, _, hk0, List.getElem?_eq_getElem hk, hfk⟩⟩
    · rintro h ⟨-, ⟨hne, -⟩ | ⟨-, k, st', hk0, hk, hf⟩⟩
      · exact hne rfl
      · have hk' := (List.getElem?_eq_some_iff.mp hk).1
        exact hk0 (Current.unique hl hk' hlt (Or.inl hf) h)
  · -- the scene of any other state is off while it is not targeted
    have hne : (s.naming l).id (.state i) ≠ (s.naming l).id (.state 0) := fun h =>
      hi0 ((state_id_inj hl hlt (by omega)).mp h)
    have hlt' : 1 < s.states.length := by omega
    simp [IsOff, Current, scene, hne, hi0, hlt']

end Page

namespace Display

open Page

variable {s : Script} {l : Ledger}

/-- **One scene is shown.** It is the scene of the current state. -/
theorem shown_eq (hl : s.ledger? = some l) {v : View} {i : Nat} (hi : i < s.states.length)
    (hv : Current v s (s.naming l) i) : (draw s l).shown v = [s.scenePosition i] := by
  have hmem : s.scenePosition i ∈ List.range s.states.length :=
    List.mem_range.mpr (Script.scenePosition_lt hi)
  have hfilter : ∀ j ∈ List.range s.states.length,
      ((Page.ofScript s (s.naming l)).spot? j).any ((draw s l).isActive v "state") = (j == s.scenePosition i) := by
    intro j hj
    obtain ⟨k, hk, rfl⟩ := Script.exists_scenePosition (List.mem_range.mp hj)
    have hspot := spot?_scene (n := s.naming l) (List.getElem?_eq_getElem hk)
    rw [hspot, Option.any_some, Bool.eq_iff_iff, isActive_scene hl (List.getElem?_eq_getElem hk) hspot,
      beq_iff_eq, Script.scenePosition_inj hk hi]
    exact ⟨fun h => Current.unique hl hk hi h hv, fun h => h ▸ hv⟩
  unfold shown
  rw [show (draw s l).page = Page.ofScript s (s.naming l) from rfl, length_scenes, List.filter_congr hfilter,
    List.filter_beq, List.count_eq_one_of_mem List.nodup_range hmem]
  rfl

/-! ### Following links -/

theorem hrefs_exit (n : Naming) (i : Interaction) : (Page.exit n i).hrefs = i.targets.map (href n) := by
  cases i with
  | dismiss t => rfl
  | menu options => simp [Page.exit, Exit.hrefs, Interaction.targets]

theorem fragment?_href (n : Naming) (i : Nat) : Link.fragment? (href n i) = some (n.id (.state i)) := by
  simp [Link.fragment?, href]

/-- The links of the shown scene are the targets of the current state. -/
theorem follow?_eq (hl : s.ledger? = some l) {v : View} {i : Nat} {st : State} (hi : s.states[i]? = some st)
    (hv : Current v s (s.naming l) i) (k : Nat) :
    (draw s l).follow? v k =
      (st.interaction.targets[k]?).map fun t => { v with fragment := some ((s.naming l).id (.state t)) } := by
  have hscene : (draw s l).page.scenes[s.scenePosition i]? = some (scene s (s.naming l) st i) :=
    getElem?_scenes hi
  have hlt := (List.getElem?_eq_some_iff.mp hi).1
  unfold follow?
  rw [shown_eq hl hlt hv]
  simp only [hscene, Option.bind_eq_bind, Option.bind_some, scene, hrefs_exit, List.getElem?_map]
  cases st.interaction.targets[k]? with
  | none => rfl
  | some t => simp [fragment?_href]

/-- From a current state on, the page and the script make the same steps. -/
theorem browse?_eq (hl : s.ledger? = some l) (hok : s.fault? = none) :
    ∀ (ks : List Nat) {v : View} {i : Nat}, i < s.states.length → Current v s (s.naming l) i →
      ((draw s l).browse? v ks).map (draw s l).shown = (s.play? i ks).map fun j => [s.scenePosition j]
  | [], v, i, hi, hv => by simp [browse?, Script.play?, shown_eq hl hi hv]
  | k :: ks, v, i, hi, hv => by
    have hst := List.getElem?_eq_getElem hi
    simp only [browse?, Script.play?, hst, follow?_eq hl hst hv, Option.bind_eq_bind, Option.bind_some]
    cases ht : s.states[i].interaction.targets[k]? with
    | none => rfl
    | some t =>
      have hlt : t < s.states.length :=
        ((Script.fault?_eq_none.mp hok).2 _ (List.getElem_mem hi)).2 t (List.mem_of_getElem? ht)
      exact browse?_eq hl hok ks hlt (Or.inl rfl)

end Display

namespace Blueprint

open Page

variable {s : Script}

/-- **A page plays its script.** Take a script that becomes a page, with no line break in the name of an
animation, and let the template give the elements any types. The fragment of the page can be read, and with the rules
in it a reader who starts without a fragment of the address can follow just those links that are choices of the
script, and after any of them sees one scene, that of the state that the same choices lead to. The page
has the scene of the state at position `i` at position `scenePosition i`. Whatever the address, one
scene is shown: the one that it leads to by its id, or else that of the first state. -/
theorem browse_plays_script {b : Blueprint} (h : ofScript s = .ok b) (hs : s.Unbroken) (tag : String → String) :
    ∃ d, b.display? = some d ∧
    (∀ choices : List Nat, (d.browse? ⟨none, tag⟩ choices).map d.shown =
      (s.play? 0 choices).map fun i => [s.scenePosition i]) ∧
    (∃ n, ∀ i st, s.states[i]? = some st → b.page.scenes[s.scenePosition i]? = some (scene s n st i)) ∧
    (∀ j scene, b.page.scenes[j]? = some scene → d.shown ⟨some scene.attributes.id, tag⟩ = [j]) ∧
    ∀ fragment, (∀ scene ∈ b.page.scenes, fragment ≠ some scene.attributes.id) →
      d.shown ⟨fragment, tag⟩ = [s.scenePosition 0] := by
  obtain ⟨hok, l, hl, rfl⟩ := ofScript_eq_ok.mp h
  have hpos : 0 < s.states.length := List.length_pos_of_ne_nil (Script.fault?_eq_none.mp hok).1
  refine ⟨_, display?_draw hs l, fun choices => ?_, ⟨s.naming l, fun i st hi => getElem?_scenes hi⟩,
    fun j sc hj => ?_, fun fragment hf => ?_⟩
  · exact Display.browse?_eq hl hok choices hpos (Or.inr ⟨rfl, fun k _ => by simp⟩)
  · have hlt : j < s.states.length := length_scenes ▸ (List.getElem?_eq_some_iff.mp hj).1
    obtain ⟨i, hi, rfl⟩ := Script.exists_scenePosition hlt
    obtain rfl : scene s (s.naming l) s.states[i] i = sc :=
      Option.some.inj ((getElem?_scenes (List.getElem?_eq_getElem hi)).symm.trans hj)
    exact Display.shown_eq hl hi (Or.inl rfl)
  · refine Display.shown_eq hl hpos (Or.inr ⟨rfl, fun k hk => ?_⟩)
    exact hf _ (List.mem_of_getElem? (getElem?_scenes (List.getElem?_eq_getElem hk)))

theorem unbroken_outing : Script.outing.Unbroken := by
  intro d
  cases d <;> decide

/-- Taking the second choice and going on twice leads from the first state over the third to the second;
there is no third choice. -/
theorem browse_plays_outing : ∃ b d, ofScript .outing = .ok b ∧ Script.outing.Unbroken ∧ b.display? = some d ∧
    (d.browse? {} [1, 0, 0]).map d.shown = some [0] ∧ d.browse? {} [2] = none := by
  obtain ⟨b, hb⟩ := ofScript_outing
  obtain ⟨d, hd, hbrowse, -⟩ := browse_plays_script hb unbroken_outing fun _ => ""
  exact ⟨b, d, hb, unbroken_outing, hd, hbrowse [1, 0, 0], Option.map_eq_none_iff.mp (hbrowse [2])⟩

/-- **A line break in the name of an animation may hide a scene.** What follows the line break is read as a rule that
switches off the elements of the class of the states, after all rules that switch them on. -/
theorem broken_name_hides_scene : ∃ b d,
    ofScript (.entrance "x\n.a\n  @include inactive-state\n  @include y") = .ok b ∧ b.display? = some d ∧
      b.page.scenes.length = 1 ∧ d.shown {} = [] := by
  have hseen : (ofScript (.entrance "x\n.a\n  @include inactive-state\n  @include y")).toOption.bind
      (fun b => b.display?.map fun d => (b.page.scenes.length, d.shown {})) = some (1, []) := by
    simp only [display?_eq]
    decide +kernel
  obtain ⟨b, hb, hseen⟩ := Option.bind_eq_some_iff.mp hseen
  obtain ⟨d, hd, hshown⟩ := Option.map_eq_some_iff.mp hseen
  exact ⟨b, d, toOption_eq_some.mp hb, hd, (Prod.mk.inj hshown).1, (Prod.mk.inj hshown).2⟩

end Blueprint

end SkitPage
