import Mathlib.Data.List.Forall2
import SkitPage.Proofs.ByteOrder
import SkitPage.Proofs.Discovery

/-!
# Who speaks on a page

A state names its speakers, and its scene shows them by the display names that the script declares. A declared
name may be declared more than once: then the last declaration says how it is shown as a speaker
(`Script.ShownAs`), while the character on the page is called as in the declaration it is first seen as. What
the scene lists for a state is determined by its order and by what is in it (`Script.Credits.unique`).

Nothing else on the page depends on the speakers: a blueprint is that of the script without speakers, but for the
lists (`Blueprint.draw_eq`). So scripts with the same lists have the same blueprint.

Key definitions: `Script.ShownAs`, `Script.Credits`, `Script.silent`, `State.SameVoices`.
Key theorems: `Script.speakers?_eq_some`, `Blueprint.ofScript_congr`, `Blueprint.speakers_resolved`,
`Blueprint.lone_speaker_label`.
-/

namespace SkitPage

/-! ### Sorting without repetitions -/

section Increasing

variable {α : Type} [DecidableEq α]

theorem sublist_eraseDups (xs : List α) : xs.eraseDups.Sublist xs := by
  induction xs using List.reverseRecOn with
  | nil => exact List.Sublist.refl _
  | append_singleton xs x ih =>
    rw [eraseDups_concat]
    split
    · exact ih.trans (List.sublist_append_left _ _)
    · exact ih.append (List.Sublist.refl _)

/-- Sorting and dropping repetitions leaves no two items that are equal or in the wrong order. -/
theorem pairwise_eraseDups_mergeSort {le : α → α → Bool}
    (htrans : ∀ a b c, le a b = true → le b c = true → le a c = true)
    (htotal : ∀ a b, (le a b || le b a) = true) (xs : List α) :
    (xs.mergeSort le).eraseDups.Pairwise fun a b => le a b = true ∧ a ≠ b :=
  List.Pairwise.and ((List.pairwise_mergeSort htrans htotal xs).sublist (sublist_eraseDups _)) (nodup_eraseDups _)

end Increasing

namespace Script

/-! ### Display names -/

/-- A name is declared, and its last declaration shows it as `display`. -/
def ShownAs (s : Script) (name display : String) : Prop :=
  ∃ earlier later, s.characters = earlier ++ ⟨name, display⟩ :: later ∧ ∀ c ∈ later, c.normalized ≠ name

/-- Some speaker of a state is shown as `display`. -/
def Heard (s : Script) (st : State) (display : String) : Prop := ∃ name ∈ st.speakers, s.ShownAs name display

variable {s : Script} {st : State}

theorem displayName?_eq_some {name display : String} :
    s.displayName? name = some display ↔ s.ShownAs name display := by
  simp only [displayName?, Option.map_eq_some_iff, List.find?_eq_some_iff_append, List.reverse_eq_append_iff,
    beq_iff_eq, ShownAs]
  constructor
  · rintro ⟨c, ⟨rfl, later, earlier, hs, hlater⟩, rfl⟩
    refine ⟨earlier.reverse, later.reverse, by simpa using hs, fun c hc => ?_⟩
    simpa using hlater c (List.mem_reverse.mp hc)
  · rintro ⟨earlier, later, hs, hlater⟩
    refine ⟨⟨name, display⟩, ⟨rfl, later.reverse, earlier.reverse, by simpa using hs, fun c hc => ?_⟩, rfl⟩
    simpa using hlater c (List.mem_reverse.mp hc)

theorem mem_filterMap_displayName? {display : String} :
    display ∈ st.speakers.filterMap s.displayName? ↔ s.Heard st display := by
  simp only [List.mem_filterMap, displayName?_eq_some, Heard]

/-- The list holds what is shown for the speakers of a state, in the order of the bytes and each once. -/
structure Credits (s : Script) (st : State) (names : List String) : Prop where
  /-- The bytes increase from name to name. -/
  increasing : names.Pairwise fun a b => Text.utf8 a < Text.utf8 b
  /-- What is in the list is what some speaker is shown as. -/
  mem_iff : ∀ display, display ∈ names ↔ s.Heard st display

theorem Credits.unique {names names' : List String} (h : s.Credits st names) (h' : s.Credits st names') :
    names = names' := by
  have hperm : names.Perm names' := by
    have hnodup : ∀ {xs : List String}, s.Credits st xs → xs.Nodup := by
      intro xs hx
      refine hx.increasing.imp ?_
      rintro a _ hlt rfl
      exact List.lt_irrefl _ hlt
    exact (List.perm_ext_iff_of_nodup (hnodup h) (hnodup h')).mpr fun display => by rw [h.mem_iff, h'.mem_iff]
  exact hperm.eq_of_pairwise (fun a b _ _ hab hba => absurd hba (List.lt_asymm hab)) h.increasing h'.increasing

/-- Sorting and dropping repetitions lists the credits. -/
theorem credits_eraseDups_mergeSort :
    s.Credits st ((st.speakers.filterMap s.displayName?).mergeSort fun a b => decide (a ≤ b)).eraseDups where
  increasing := by
    refine (pairwise_eraseDups_mergeSort (fun a b c hab hbc => ?_) (fun a b => ?_) _).imp fun {a b} h => ?_
    · exact decide_eq_true (String.le_trans (of_decide_eq_true hab) (of_decide_eq_true hbc))
    · simpa using String.le_total a b
    · have hle : a ≤ b := of_decide_eq_true h.1
      refine Text.utf8_lt_iff.mpr ?_
      by_contra hnot
      exact h.2 (String.le_antisymm hle (String.not_lt.mp hnot))
  mem_iff display := by
    rw [List.mem_eraseDups, List.mem_mergeSort, mem_filterMap_displayName?]

/-- What a page says about the speakers of a state. -/
theorem speakers?_eq_some {names : List String} :
    s.speakers? st = some names ↔ names ≠ [] ∧ s.Credits st names := by
  unfold speakers?
  split
  · rename_i hnil
    constructor
    · rintro ⟨⟩
    · rintro ⟨hne, hcredits⟩
      obtain ⟨display, hmem⟩ := List.exists_mem_of_ne_nil _ hne
      simpa [hnil] using mem_filterMap_displayName?.mpr ((hcredits.mem_iff display).mp hmem)
  · rename_i hne
    obtain ⟨display, hmem⟩ := List.exists_mem_of_ne_nil _ hne
    constructor
    · rintro ⟨⟩
      refine ⟨List.ne_nil_of_mem (a := display) ?_, credits_eraseDups_mergeSort⟩
      rwa [List.mem_eraseDups, List.mem_mergeSort]
    · -- what is in the list and its order leave no choice
      rintro ⟨-, hcredits⟩
      exact congrArg some (credits_eraseDups_mergeSort.unique hcredits)

theorem speakers?_eq_none : s.speakers? st = none ↔ ∀ display, ¬ s.Heard st display := by
  simp only [← mem_filterMap_displayName?, ← List.eq_nil_iff_forall_not_mem]
  unfold speakers?
  split
  · rename_i hnil
    simp [hnil]
  · rename_i hne
    simpa using hne

end Script

/-! ### What speakers have no part in -/

/-- The state without its speakers. -/
def State.silent (st : State) : State := { st with speakers := [] }

/-- The script without its speakers. -/
def Script.silent (s : Script) : Script := { s with states := s.states.map State.silent }

namespace Script

variable (s : Script)

/-- The states without their speakers, each with what is said of them. -/
def voices : List (State × Option (List String)) := s.states.map fun st => (st.silent, s.speakers? st)

theorem silent_eq : s.silent = ⟨s.voices.map (·.1), s.characters⟩ := by
  simp [silent, voices, Function.comp_def]

theorem fault?_silent : s.silent.fault? = s.fault? := by
  have hstates : ∀ (declared count : Nat) (states : List State) (index : Nat),
      statesFault? declared count index (states.map State.silent) = statesFault? declared count index states := by
    intro declared count states
    induction states with
    | nil => exact fun _ => rfl
    | cons st states ih =>
      intro index
      rw [List.map_cons, statesFault?, statesFault?, ih]
      rfl
  simp [fault?, silent, hstates]

@[simp] theorem backgrounds_silent : s.silent.backgrounds = s.backgrounds := by
  simp only [backgrounds, silent, List.filterMap_map]
  rfl

@[simp] theorem appearances_silent : s.silent.appearances = s.appearances := by
  simp only [appearances, silent, List.flatMap_map]
  rfl

@[simp] theorem cast_silent : s.silent.cast = s.cast := by
  simp only [cast, appearances_silent]

@[simp] theorem emotes_silent (c : String) : s.silent.emotes c = s.emotes c := by
  simp only [emotes, appearances_silent]

@[simp] theorem animations_silent (d : Direction) : s.silent.animations d = s.animations d := by
  simp only [animations, appearances_silent]

theorem roles_silent : s.silent.roles = s.roles := by
  simp only [roles, silent, List.zipIdx_map, List.flatMap_map]
  rfl

theorem isInitial_silent (m : Mark) : s.silent.isInitial m = s.isInitial m := by
  simp only [isInitial, initialMarks, silent, List.head?_map, Option.map_map]
  rfl

theorem initialLast_map {α β : Type} (f : α → β) (xs : List α) :
    initialLast (xs.map f) = (initialLast xs).map f := by
  cases xs <;> simp [initialLast]

theorem pageStates_silent : s.silent.pageStates = s.pageStates.map (Prod.map State.silent id) := by
  rw [pageStates, pageStates, ← initialLast_map, ← List.zipIdx_map]
  rfl

theorem elementOrder_silent : s.silent.elementOrder = s.elementOrder := by
  simp only [elementOrder, pageStates_silent, List.map_map, backgrounds_silent, cast_silent, emotes_silent]
  rfl

theorem markOrder_silent : s.silent.markOrder = s.markOrder := by
  simp only [markOrder, pageStates_silent, List.flatMap_map, backgrounds_silent, cast_silent]
  rfl

theorem naming_silent (l : Ledger) : s.silent.naming l = s.naming l := by
  simp only [naming, elementTable, markTable, elementOrder_silent, markOrder_silent]

end Script

namespace Page

variable (s : Script) (n : Naming)

theorem motionSelectors_silent (m : Motion) (c : String) :
    motionSelectors s.silent n m c = motionSelectors s n m c := by
  have hmoves : moves s.silent c m = moves s c m := by rw [moves, moves, Script.appearances_silent]
  rw [motionSelectors, motionSelectors, hmoves]
  dsimp only
  rw [Script.isInitial_silent]

theorem rules_silent : rules s.silent n = rules s n := by
  have hcount : s.silent.states.length = s.states.length := by simp [Script.silent]
  simp only [rules, hcount, backgroundMembers, characterMembers, emoteMembers, member, animationRules,
    motionSelectors_silent, Script.isInitial_silent, Script.backgrounds_silent, Script.cast_silent,
    Script.emotes_silent, Script.animations_silent]

theorem scenes_eq : (ofScript s n).scenes =
    (initialLast s.voices.zipIdx).map fun x =>
      { scene s.silent n x.1.1 x.2 with speakers := x.1.2 } := by
  rw [Script.voices, List.zipIdx_map, Script.initialLast_map, List.map_map]
  rfl

end Page

/-- A blueprint is that of the script without speakers, but for what the scenes say of them. -/
theorem Blueprint.draw_eq (s : Script) (l : Ledger) : draw s l =
    { draw s.silent l with
      page := { (draw s.silent l).page with
        scenes := (initialLast s.voices.zipIdx).map fun x =>
          { Page.scene s.silent (s.silent.naming l) x.1.1 x.2 with speakers := x.1.2 } } } := by
  have hactor : Page.actor s.silent (s.naming l) = Page.actor s (s.naming l) := by
    funext c
    rw [Page.actor, Page.actor, s.emotes_silent]
  have hassets : s.silent.assets = s.assets := by
    simp only [Script.assets, Script.backgrounds_silent, Script.cast_silent, Script.emotes_silent]
  simp only [draw, s.naming_silent, Page.rules_silent, hassets]
  rw [← Page.scenes_eq]
  simp only [Page.ofScript, s.backgrounds_silent, s.cast_silent, hactor]

/-- Two states that differ in their speakers only, and have the same declared names among them. -/
structure State.SameVoices (declared : List Character) (st st' : State) : Prop where
  /-- Nothing else differs. -/
  silent : st.silent = st'.silent
  /-- A declared name speaks in both or in none. -/
  speakers : ∀ c ∈ declared, c.normalized ∈ st.speakers ↔ c.normalized ∈ st'.speakers

namespace Script

variable {s : Script} {st st' : State}

theorem ShownAs.declared {name display : String} (h : s.ShownAs name display) :
    ⟨name, display⟩ ∈ s.characters := by
  obtain ⟨earlier, later, hs, -⟩ := h
  rw [hs]
  exact List.mem_append_right _ List.mem_cons_self

theorem heard_congr (h : State.SameVoices s.characters st st') (display : String) :
    s.Heard st display ↔ s.Heard st' display := by
  constructor
  · rintro ⟨name, hname, hshown⟩
    exact ⟨name, (h.speakers _ hshown.declared).mp hname, hshown⟩
  · rintro ⟨name, hname, hshown⟩
    exact ⟨name, (h.speakers _ hshown.declared).mpr hname, hshown⟩

theorem speakers?_congr (h : State.SameVoices s.characters st st') : s.speakers? st = s.speakers? st' := by
  have hcredits : ∀ names, s.Credits st names ↔ s.Credits st' names := fun names =>
    ⟨fun hx => ⟨hx.increasing, fun display => by rw [hx.mem_iff, heard_congr h]⟩,
      fun hx => ⟨hx.increasing, fun display => by rw [hx.mem_iff, heard_congr h]⟩⟩
  refine Option.ext fun names => ?_
  rw [speakers?_eq_some, speakers?_eq_some, hcredits]

end Script

/-- Only the declared names among the speakers of each state matter. -/
theorem Blueprint.ofScript_congr {s : Script} {states : List State}
    (h : List.Forall₂ (State.SameVoices s.characters) s.states states) :
    ofScript { s with states } = ofScript s := by
  have hvoices : ({ s with states } : Script).voices = s.voices := by
    -- what is said of speakers depends on the declared characters alone
    change states.map (fun st => (st.silent, s.speakers? st)) = s.states.map fun st => (st.silent, s.speakers? st)
    generalize s.states = xs at h
    induction h with
    | nil => rfl
    | cons hst _ ih => rw [List.map_cons, List.map_cons, ih, hst.silent, Script.speakers?_congr hst]
  have hsilent : ({ s with states } : Script).silent = s.silent := by
    rw [Script.silent_eq, Script.silent_eq, hvoices]
  have hfault : ({ s with states } : Script).fault? = s.fault? := by
    rw [← Script.fault?_silent, hsilent, s.fault?_silent]
  have hledger : ({ s with states } : Script).ledger? = s.ledger? := by
    rw [Script.ledger?, ← Script.roles_silent, hsilent, s.roles_silent, Script.ledger?]
  have hdraw : draw { s with states } = draw s := by
    funext l
    rw [draw_eq, draw_eq s, hsilent, hvoices]
  rw [ofScript, ofScript, hfault, hledger, hdraw]

namespace Blueprint

/-- **Speakers are resolved.** Take a script that becomes a page. The scene of a state lists in the order of
the bytes, and each once, what the speakers of the state are shown as: a name counts if it is declared, and
its last declaration says how it is shown. There is no list just if no speaker is declared. So the page stays
the same if in any of the states speakers change places, are repeated, or undeclared ones come or go. -/
theorem speakers_resolved {s : Script} {b : Blueprint} (h : ofScript s = .ok b) :
    (∀ i st, s.states[i]? = some st → ∃ scene, b.page.scenes[s.scenePosition i]? = some scene ∧
      (scene.speakers = none ↔ ∀ display, ¬ s.Heard st display) ∧
      ∀ names, scene.speakers = some names → s.Credits st names) ∧
    ∀ states, List.Forall₂ (State.SameVoices s.characters) s.states states →
      ofScript { s with states } = .ok b := by
  refine ⟨fun i st hi => ?_, fun states hstates => (ofScript_congr hstates).trans h⟩
  obtain ⟨-, l, -, rfl⟩ := ofScript_eq_ok.mp h
  refine ⟨_, Page.getElem?_scenes hi, Script.speakers?_eq_none, fun names hnames => ?_⟩
  exact (Script.speakers?_eq_some.mp hnames).2

end Blueprint

/-- A state in which one character is seen and heard. -/
def State.solo : State :=
  ⟨none, [.present "calm", .absent, .absent, .absent], ["ann"], none, .dismiss 1⟩

/-- A state in which all characters are heard, and one that is not declared. -/
def State.tutti : State :=
  ⟨none, [.absent, .present "calm", .absent, .absent], ["eva", "zed", "ghost", "ann", "zed"], none, .dismiss 0⟩

/-- A script in which a name is declared twice, and first seen as the first of them. -/
def Script.chorus : Script where
  characters := [⟨"ann", "Ann"⟩, ⟨"eva", "Éva"⟩, ⟨"zed", "Zed"⟩, ⟨"ann", "Anna"⟩]
  states := [.solo, .tutti]

theorem Script.credits_tutti : Script.chorus.Credits .tutti ["Anna", "Zed", "Éva"] where
  increasing := by
    simp only [Text.utf8_lt_iff]
    decide
  mem_iff display := by
    have hfound : State.tutti.speakers.filterMap chorus.displayName? = ["Éva", "Zed", "Anna", "Zed"] := by decide
    rw [← mem_filterMap_displayName?, hfound]
    simp only [List.mem_cons, List.not_mem_nil, or_false]
    tauto

namespace Blueprint

theorem ofScript_chorus : ∃ b, ofScript .chorus = .ok b := by
  obtain ⟨l, hl⟩ := Option.isSome_iff_exists.mp (by decide : Script.chorus.ledger?.isSome)
  exact ⟨_, ofScript_eq_ok.mpr ⟨by decide, l, hl, rfl⟩⟩

/-- Ann is shown as Anna, the ghost is not shown, and É comes after Z. With other speakers of the same declared
names the page is the same. -/
theorem speakers_resolved_chorus : ∃ b scene, ofScript .chorus = .ok b ∧ b.page.scenes[0]? = some scene ∧
    scene.speakers = some ["Anna", "Zed", "Éva"] ∧ Script.chorus.Credits .tutti ["Anna", "Zed", "Éva"] ∧
    ofScript { Script.chorus with states :=
      [{ State.solo with speakers := ["ann", "ann", "bob"] },
        { State.tutti with speakers := ["ann", "zed", "eva"] }] } = .ok b := by
  obtain ⟨b, hb⟩ := ofScript_chorus
  obtain ⟨hscenes, hsame⟩ := speakers_resolved hb
  obtain ⟨scene, hscene, -, hcredits⟩ := hscenes 1 .tutti rfl
  have hnames : scene.speakers = some ["Anna", "Zed", "Éva"] := by
    obtain ⟨-, l, -, rfl⟩ := ofScript_eq_ok.mp hb
    obtain rfl := Option.some.inj hscene
    exact Script.speakers?_eq_some.mpr ⟨List.cons_ne_nil _ _, Script.credits_tutti⟩
  refine ⟨b, scene, hb, hscene, hnames, hcredits _ hnames, hsame _ (.cons ⟨rfl, ?_⟩ (.cons ⟨rfl, ?_⟩ .nil))⟩
  · decide
  · decide

end Blueprint

/-! ### Labels of speakers and of actors -/

namespace Script

variable {s : Script} {st : State}

theorem ShownAs.unique {name display display' : String} (h : s.ShownAs name display) (h' : s.ShownAs name display') :
    display = display' :=
  Option.some.inj ((displayName?_eq_some.mpr h).symm.trans (displayName?_eq_some.mpr h'))

theorem exists_shownAs {c : Character} (h : c ∈ s.characters) : ∃ display, s.ShownAs c.normalized display := by
  have hfound : (s.displayName? c.normalized).isSome := by
    simp only [displayName?, Option.isSome_map, List.find?_isSome]
    exact ⟨c, List.mem_reverse.mpr h, beq_self_eq_true _⟩
  obtain ⟨display, hdisplay⟩ := Option.isSome_iff_exists.mp hfound
  exact ⟨display, displayName?_eq_some.mp hdisplay⟩

/-- Where one name speaks alone, the list has one entry. -/
theorem speakers?_of_lone {name display : String} (hne : st.speakers ≠ []) (hall : ∀ x ∈ st.speakers, x = name)
    (hshown : s.ShownAs name display) : s.speakers? st = some [display] := by
  refine speakers?_eq_some.mpr ⟨List.cons_ne_nil _ _, List.pairwise_singleton _ _, fun display' => ?_⟩
  rw [List.mem_singleton]
  constructor
  · rintro rfl
    obtain ⟨x, hx⟩ := List.exists_mem_of_ne_nil _ hne
    exact ⟨x, hx, hall x hx ▸ hshown⟩
  · rintro ⟨x, hx, hx'⟩
    obtain rfl := hall x hx
    exact hx'.unique hshown

end Script

namespace Blueprint

/-- **A speaker and a character on the page may have different labels.** Take a state in which only the name of one
character of the page speaks. The speaker is shown as in the last declaration of the name; the character has the label
of the declaration it is first seen as. The two are the same just if these declarations agree, and so they are where
all declarations of the name do. -/
theorem lone_speaker_label {s : Script} {b : Blueprint} (h : ofScript s = .ok b) {a : Actor}
    (ha : a ∈ b.page.actors) {i : Nat} {st : State} (hi : s.states[i]? = some st) (hne : st.speakers ≠ [])
    (hall : ∀ name ∈ st.speakers, name = a.normalized) :
    ∃ scene display, b.page.scenes[s.scenePosition i]? = some scene ∧ scene.speakers = some [display] ∧
      s.ShownAs a.normalized display ∧
      (∃ p q, s.SeenAt p ⟨a.normalized, a.verbatim⟩ q ∧ ∀ p', s.NameAt p' a.normalized → p ≤ p') ∧
      (scene.speakers = some [a.verbatim] ↔ s.ShownAs a.normalized a.verbatim) ∧
      ((∀ c ∈ s.characters, c.normalized = a.normalized → c.verbatim = a.verbatim) →
        scene.speakers = some [a.verbatim]) := by
  obtain ⟨-, l, -, rfl⟩ := ofScript_eq_ok.mp h
  obtain ⟨c, hc, rfl⟩ := List.mem_map.mp ha
  obtain ⟨p, q, hseen, hfirst⟩ := Script.seen_first hc
  -- the character was seen in a slot, so its name is declared and has a last declaration
  obtain ⟨-, -, hdeclared, -⟩ := Script.slot?_eq_some.mp hseen.1
  obtain ⟨display, hshown⟩ := Script.exists_shownAs (List.mem_of_getElem? hdeclared)
  have hspeakers : s.speakers? st = some [display] := Script.speakers?_of_lone hne hall hshown
  refine ⟨_, display, Page.getElem?_scenes hi, hspeakers, hshown, ⟨p, q, hseen, hfirst⟩, ?_, fun hsame => ?_⟩
  · constructor
    · intro hlabel
      obtain rfl : display = c.verbatim :=
        (List.cons.inj (Option.some.inj (hspeakers.symm.trans hlabel))).1
      exact hshown
    · intro hlast
      rw [hlast.unique hshown]
      exact hspeakers
  · rw [← hsame _ hshown.declared rfl]
    exact hspeakers

/-- On an outing Ann has one declaration, and one label. -/
theorem lone_speaker_label_outing : ∃ b a scene, ofScript .outing = .ok b ∧ a ∈ b.page.actors ∧
    a.normalized = "ann" ∧ b.page.scenes[2]? = some scene ∧ scene.speakers = some [a.verbatim] := by
  obtain ⟨b, hb⟩ := ofScript_outing
  obtain ⟨a, ha, hname, hverbatim⟩ : ∃ a ∈ b.page.actors, a.normalized = "ann" ∧ a.verbatim = "Ann" := by
    obtain ⟨-, l, -, rfl⟩ := ofScript_eq_ok.mp hb
    exact ⟨_, List.mem_map_of_mem (by decide : ⟨"ann", "Ann"⟩ ∈ Script.outing.cast), rfl, rfl⟩
  obtain ⟨scene, _, hscene, -, -, -, -, hsame⟩ := lone_speaker_label hb ha (i := 0) rfl (List.cons_ne_nil _ _)
    (by simp [hname])
  refine ⟨b, a, scene, hb, ha, hname, hscene, hsame ?_⟩
  rw [hname, hverbatim]
  decide

/-- In a chorus a name has two declarations: the character is called Ann, and where the name speaks alone, Anna is
shown. -/
theorem labels_differ : ∃ b a scene, ofScript .chorus = .ok b ∧ a ∈ b.page.actors ∧
    Script.chorus.states[0]? = some .solo ∧ State.solo.speakers = [a.normalized] ∧ b.page.scenes[1]? = some scene ∧
    a.verbatim = "Ann" ∧ scene.speakers = some ["Anna"] := by
  obtain ⟨b, hb⟩ := ofScript_chorus
  obtain ⟨-, l, -, rfl⟩ := ofScript_eq_ok.mp hb
  refine ⟨_, _, _, hb, List.mem_map_of_mem (by decide : ⟨"ann", "Ann"⟩ ∈ Script.chorus.cast), rfl, rfl,
    Page.getElem?_scenes (i := 0) rfl, rfl, ?_⟩
  have hshown : Script.chorus.ShownAs "ann" "Anna" := Script.displayName?_eq_some.mp (by decide)
  have hlone : Script.chorus.speakers? .solo = some ["Anna"] :=
    Script.speakers?_of_lone (by decide) (by decide) hshown
  exact hlone

end Blueprint

end SkitPage
