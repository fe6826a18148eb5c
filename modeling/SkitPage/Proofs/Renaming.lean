import Mathlib.Data.List.Forall2
import Mathlib.Logic.Embedding.Basic
import SkitPage.Proofs.DenseNames

/-!
# Names on a page do not depend on names in the script

Take two scripts with the same shape: as many states, and slot by slot the same presences and backgrounds,
up to a renaming that keeps different names different. Their pages have the same ids and classes and add the
same rules, and their graphics correspond one by one (`Blueprint.names_ignore_renaming`). What is said, who
speaks, what menus say and where states lead may differ altogether.

A renaming of names is a renaming of elements and marks. It carries the orders in which the page names them
from one script to the other (`Renaming.Carries.elementOrder`, `Renaming.Carries.markOrder`), and a name is
the position of first use in such an order (`Script.naming_id`, `Script.naming_className`), so an element and
its image have the same name. What remains is that pages and rules use names only.

Key definitions: `Renaming`, `Renaming.Carries`, `Renaming.entity`, `Renaming.mark`, `Renaming.CarriesPath`.
Key theorems: `Renaming.Carries.appearances`, `Renaming.Carries.elementOrder`, `Renaming.Carries.markOrder`,
`Renaming.Carries.id`, `Renaming.Carries.className`, `Renaming.Carries.rules`,
`Blueprint.names_ignore_renaming`.
-/

namespace SkitPage

/-! ### Lists that correspond item by item -/

section Correspondence

open List

variable {α β γ : Type} {R : α → β → Prop} {xs : List α} {ys : List β}

theorem map_of_forall₂ (h : Forall₂ R xs ys) {f : α → γ} {g : β → γ} (hfg : ∀ a b, R a b → g b = f a) :
    ys.map g = xs.map f := by
  induction h with
  | nil => rfl
  | cons hab _ ih => rw [map_cons, map_cons, ih, hfg _ _ hab]

theorem flatMap_of_forall₂ (h : Forall₂ R xs ys) {f : α → List γ} {g : β → List γ}
    (hfg : ∀ a b, R a b → g b = f a) : ys.flatMap g = xs.flatMap f := by
  rw [flatMap_def, flatMap_def, map_of_forall₂ h hfg]

theorem filterMap_of_forall₂ (h : Forall₂ R xs ys) {f : α → Option γ} {g : β → Option γ}
    (hfg : ∀ a b, R a b → g b = f a) : ys.filterMap g = xs.filterMap f := by
  rw [filterMap_eq_flatMap_toList, filterMap_eq_flatMap_toList]
  exact flatMap_of_forall₂ h fun a b hab => by rw [hfg a b hab]

theorem any_of_forall₂ (h : Forall₂ R xs ys) {f : α → Bool} {g : β → Bool} (hfg : ∀ a b, R a b → g b = f a) :
    ys.any g = xs.any f := by
  have hany := congrArg (List.any · id) (map_of_forall₂ h hfg)
  rwa [any_map, any_map] at hany

theorem forall₂_zipIdx (h : Forall₂ R xs ys) (k : Nat) :
    Forall₂ (fun x y => R x.1 y.1 ∧ x.2 = y.2) (xs.zipIdx k) (ys.zipIdx k) := by
  induction h generalizing k with
  | nil => exact .nil
  | cons hab _ ih => exact .cons ⟨hab, rfl⟩ (ih (k + 1))

theorem forall₂_initialLast (h : Forall₂ R xs ys) : Forall₂ R (initialLast xs) (initialLast ys) := by
  cases h with
  | nil => exact .nil
  | cons hab h => exact rel_append h (.cons hab .nil)

/-- A function that keeps an item apart from the others keeps its position. -/
theorem idxOf_map_of_apart [DecidableEq α] [DecidableEq β] {f : α → β} {a : α} :
    ∀ {xs : List α}, (∀ x ∈ xs, f x = f a → x = a) → (xs.map f).idxOf (f a) = xs.idxOf a
  | [], _ => rfl
  | x :: xs, h => by
    by_cases hx : x = a
    · subst hx
      simp
    · have hfx : f x ≠ f a := fun he => hx (h x mem_cons_self he)
      rw [map_cons, idxOf_cons_ne _ hfx, idxOf_cons_ne _ hx,
        idxOf_map_of_apart fun y hy => h y (mem_cons_of_mem _ hy)]

end Correspondence

/-! ### Names are positions -/

/-- In the table of the keys of things, a thing has the name of its position of first use. -/
theorem Ledger.nameOf_key {rs : List Role} {l : Ledger} (h : ofRoles? rs = some l) {α : Type} [DecidableEq α]
    {role : α → Role} (hrole : Function.Injective role) {order : List α} (hall : ∀ a ∈ order, role a ∈ rs)
    {a : α} (ha : a ∈ order) :
    (NameTable.ofKeys (order.map fun x => l.key (role x))).nameOf (l.key (role a)) =
      Name.ofNumber (order.eraseDups.idxOf a) := by
  rw [NameTable.nameOf, NameTable.keys_ofKeys, eraseDups_map_key h hrole hall]
  refine congrArg Name.ofNumber (idxOf_map_of_apart (f := fun x => l.key (role x)) fun x hx he => ?_)
  have hx : x ∈ order := List.mem_eraseDups.mp hx
  exact hrole ((Numbered.of_roles h).key_inj (noted_of_mem h (hall x hx)) (noted_of_mem h (hall a ha)) he)

namespace Script

variable {s : Script} {l : Ledger}

theorem naming_id (hl : s.ledger? = some l) {e : Entity} (he : e ∈ s.elementOrder) :
    (s.naming l).id e = Name.ofNumber (s.elementOrder.eraseDups.idxOf e) :=
  Ledger.nameOf_key hl (fun _ _ => Role.element.inj) (fun _ => element_mem_roles) he

theorem naming_className (hl : s.ledger? = some l) {m : Mark} (hm : m ∈ s.markOrder) :
    (s.naming l).className m = Name.ofNumber (s.markOrder.eraseDups.idxOf m) :=
  Ledger.nameOf_key hl (fun _ _ => Role.mark.inj) (fun _ => mark_mem_roles) hm

end Script

/-! ### Renamings -/

/-- The presence with another emote, if there is one. -/
def Presence.withEmote (f : String → String) : Presence → Presence
  | .absent => .absent
  | .entering a e => .entering a (f e)
  | .present e => .present (f e)
  | .exiting a e => .exiting a (f e)

@[simp] theorem Presence.emote?_withEmote (f : String → String) (q : Presence) :
    (q.withEmote f).emote? = q.emote?.map f := by
  cases q <;> rfl

@[simp] theorem Presence.motion?_withEmote (f : String → String) (q : Presence) :
    (q.withEmote f).motion? = q.motion? := by
  cases q <;> rfl

/-- New names for the names in a script. Different names stay different. -/
structure Renaming where
  /-- The names of backgrounds. -/
  background : String ↪ String
  /-- What states call the characters. -/
  character : String ↪ String
  /-- The emotes of the character of a name. -/
  emote : String → String ↪ String

namespace Renaming

/-- A slot shows what another shows, under new names. Nothing is asked of the name of a character that is
not there. -/
structure CarriesSlot (ρ : Renaming) (slot slot' : Character × Presence) : Prop where
  /-- The presences correspond. -/
  presence : slot'.2 = slot.2.withEmote (ρ.emote slot.1.normalized)
  /-- The characters correspond. -/
  character : slot.2 ≠ .absent → slot'.1.normalized = ρ.character slot.1.normalized

/-- A state shows what another shows, under new names: the background, and what is in each slot. -/
structure CarriesState (ρ : Renaming) (declared declared' : List Character) (st st' : State) : Prop where
  /-- The backgrounds correspond. -/
  background : st'.background = st.background.map ρ.background
  /-- The slots correspond. -/
  slots : List.Forall₂ ρ.CarriesSlot (declared.zip st.presences) (declared'.zip st'.presences)

/-- A script has the shape of another, under new names. -/
def Carries (ρ : Renaming) (s t : Script) : Prop :=
  List.Forall₂ (ρ.CarriesState s.characters t.characters) s.states t.states

/-- An appearance is the same as another, under new names. -/
structure CarriesAppearance (ρ : Renaming) (a a' : Appearance) : Prop where
  /-- The same character. -/
  name : a'.name = ρ.character a.name
  /-- The same motion. -/
  motion : a'.motion = a.motion
  /-- The same emote. -/
  emote : a'.emote = ρ.emote a.name a.emote

/-- The element under the new names. -/
def entity (ρ : Renaming) : Entity → Entity
  | .state i => .state i
  | .background b => .background (ρ.background b)
  | .character c => .character (ρ.character c)
  | .emote c e => .emote (ρ.character c) (ρ.emote c e)

/-- The mark under the new names. -/
def mark (ρ : Renaming) : Mark → Mark
  | .background b => .background (ρ.background b)
  | .presence c => .presence (ρ.character c)
  | .motion c m => .motion (ρ.character c) m
  | .emote c e => .emote (ρ.character c) (ρ.emote c e)
  | m => m

/-- The path of a graphic and its path under the new names. -/
inductive CarriesPath (ρ : Renaming) : Path → Path → Prop
  | background (name : String) : CarriesPath ρ (.background name) (.background (ρ.background name))
  | emote (c e : String) : CarriesPath ρ (.emote c e) (.emote (ρ.character c) (ρ.emote c e))

variable {ρ : Renaming}

theorem entity_injective : Function.Injective ρ.entity := by
  intro e e' h
  cases e <;> cases e' <;> simp only [entity, reduceCtorEq, Entity.state.injEq, Entity.background.injEq,
    Entity.character.injEq, Entity.emote.injEq, EmbeddingLike.apply_eq_iff_eq] at h
  case emote.emote =>
    obtain ⟨rfl, h⟩ := h
    rw [(ρ.emote _).injective h]
  all_goals rw [h]

theorem mark_injective : Function.Injective ρ.mark := by
  intro m m' h
  cases m <;> cases m' <;> simp only [mark, reduceCtorEq, Mark.background.injEq, Mark.presence.injEq,
    Mark.motion.injEq, Mark.emote.injEq, EmbeddingLike.apply_eq_iff_eq] at h
  case emote.emote =>
    obtain ⟨rfl, h⟩ := h
    rw [(ρ.emote _).injective h]
  case motion.motion => rw [h.1, h.2]
  case background.background => rw [h]
  case presence.presence => rw [h]
  all_goals rfl

/-! ### What the scripts have in common -/

theorem CarriesState.appearances {declared declared' : List Character} {st st' : State}
    (h : ρ.CarriesState declared declared' st st') :
    List.Forall₂ ρ.CarriesAppearance (st.appearances declared) (st'.appearances declared') := by
  refine List.rel_filterMap ?_ h.slots
  rintro ⟨c, q⟩ ⟨c', q'⟩ ⟨hq, hc⟩
  obtain rfl : q' = q.withEmote (ρ.emote c.normalized) := hq
  simp only [Presence.emote?_withEmote, Presence.motion?_withEmote]
  cases he : q.emote? with
  | none => exact .none
  | some e =>
    have hthere : q ≠ .absent := by
      rintro rfl
      cases he
    exact .some ⟨hc hthere, rfl, rfl⟩

theorem CarriesAppearance.marks {a a' : Appearance} (h : ρ.CarriesAppearance a a') :
    a'.marks = a.marks.map ρ.mark := by
  simp only [Appearance.marks, h.name, h.motion, h.emote]
  cases a.motion <;> rfl

theorem CarriesState.marks {declared declared' : List Character} {st st' : State}
    (h : ρ.CarriesState declared declared' st st') : st'.marks declared' = (st.marks declared).map ρ.mark := by
  have happear : (st'.appearances declared').flatMap Appearance.marks =
      ((st.appearances declared).flatMap Appearance.marks).map ρ.mark := by
    rw [List.map_flatMap]
    exact flatMap_of_forall₂ h.appearances fun _ _ ha => ha.marks
  simp only [State.marks, h.background, happear]
  cases st.background <;> simp [mark]

namespace Carries

variable {s t : Script} (h : ρ.Carries s t)

include h

theorem appearances : List.Forall₂ ρ.CarriesAppearance s.appearances t.appearances :=
  List.rel_flatMap h fun _ _ hst => hst.appearances

theorem pageStates : List.Forall₂ (fun x y => s.states[x.2]? = some x.1 ∧
    ρ.CarriesState s.characters t.characters x.1 y.1 ∧ x.2 = y.2) s.pageStates t.pageStates :=
  (List.forall₂_and_left _ _).mpr
    ⟨fun _ hx => Script.mem_pageStates.mp hx, forall₂_initialLast (forall₂_zipIdx h 0)⟩

theorem backgrounds : t.backgrounds = s.backgrounds.map ρ.background := by
  have hstates : t.states.filterMap (·.background) = (s.states.filterMap (·.background)).map ρ.background := by
    rw [List.map_filterMap]
    exact filterMap_of_forall₂ h fun _ _ hst => hst.background
  rw [Script.backgrounds, hstates]
  exact eraseDups_map fun _ _ _ _ he => ρ.background.injective he

theorem cast : List.Forall₂ (fun c c' => c ∈ s.cast ∧ c'.normalized = ρ.character c.normalized) s.cast t.cast := by
  have hnames : t.appearances.map Appearance.name = (s.appearances.map Appearance.name).map ρ.character := by
    rw [List.map_map]
    exact map_of_forall₂ h.appearances fun _ _ ha => ha.name
  have hcast : t.cast.map (·.normalized) = (s.cast.map (·.normalized)).map ρ.character := by
    rw [Script.map_normalized_cast, Script.map_normalized_cast, hnames]
    exact eraseDups_map fun _ _ _ _ he => ρ.character.injective he
  rw [List.map_map, ← List.forall₂_eq_eq_eq, List.forall₂_map_left_iff, List.forall₂_map_right_iff] at hcast
  exact (List.forall₂_and_left _ _).mpr ⟨fun _ hc => hc, hcast.flip⟩

theorem emotes (c : String) : t.emotes (ρ.character c) = (s.emotes c).map (ρ.emote c) := by
  have hemotes : t.appearances.filterMap (fun a => if a.name = ρ.character c then some a.emote else none) =
      (s.appearances.filterMap fun a => if a.name = c then some a.emote else none).map (ρ.emote c) := by
    rw [List.map_filterMap]
    refine filterMap_of_forall₂ h.appearances fun a a' ha => ?_
    simp only [ha.name, EmbeddingLike.apply_eq_iff_eq, ha.emote]
    split
    · rename_i hname
      rw [hname]
      rfl
    · rfl
  rw [Script.emotes_eq, Script.emotes_eq, hemotes]
  exact eraseDups_map fun _ _ _ _ he => (ρ.emote c).injective he

theorem animations (d : Direction) : t.animations d = s.animations d := by
  have hmotions : t.appearances.filterMap (·.motion) = s.appearances.filterMap (·.motion) :=
    filterMap_of_forall₂ h.appearances fun _ _ ha => ha.motion
  rw [Script.animations, hmotions]
  rfl

theorem moves (c : String) (m : Motion) : Page.moves t (ρ.character c) m = Page.moves s c m := by
  refine any_of_forall₂ h.appearances fun a a' ha => ?_
  rw [ha.name, ha.motion, ρ.character.injective.beq_eq]

theorem elementOrder : t.elementOrder = s.elementOrder.map ρ.entity := by
  have hstates : t.pageStates.map (fun x => Entity.state x.2) =
      (s.pageStates.map fun x => Entity.state x.2).map ρ.entity := by
    rw [List.map_map]
    exact map_of_forall₂ h.pageStates fun _ _ hx => by rw [← hx.2.2]; rfl
  have hcast : (t.cast.flatMap fun c =>
      Entity.character c.normalized :: (t.emotes c.normalized).map (.emote c.normalized)) =
        (s.cast.flatMap fun c =>
          Entity.character c.normalized :: (s.emotes c.normalized).map (.emote c.normalized)).map ρ.entity := by
    rw [List.map_flatMap]
    refine flatMap_of_forall₂ h.cast fun c c' hc => ?_
    simp [hc.2, h.emotes, entity]
  simp only [Script.elementOrder, hstates, hcast, h.backgrounds, List.map_append, List.map_map]
  rfl

theorem markOrder : t.markOrder = s.markOrder.map ρ.mark := by
  have hstates : t.pageStates.flatMap (fun x => x.1.marks t.characters) =
      (s.pageStates.flatMap fun x => x.1.marks s.characters).map ρ.mark := by
    rw [List.map_flatMap]
    exact flatMap_of_forall₂ h.pageStates fun _ _ hx => hx.2.1.marks
  have hempty : t.cast.isEmpty = s.cast.isEmpty := by
    have := h.cast.length_eq
    cases hs : s.cast <;> cases ht : t.cast <;> simp_all
  simp only [Script.markOrder, hstates, h.backgrounds, hempty, List.map_append, List.isEmpty_map]
  congr 1
  · congr 1
    split <;> rfl
  · split <;> rfl

theorem initialMarks : t.initialMarks = s.initialMarks.map ρ.mark := by
  unfold Carries at h
  unfold Script.initialMarks
  generalize s.states = states, t.states = states' at h ⊢
  cases h with
  | nil => rfl
  | cons hst _ => exact hst.marks

theorem isInitial (m : Mark) : t.isInitial (ρ.mark m) = s.isInitial m := by
  simp only [Script.isInitial, h.initialMarks, List.mem_map_of_injective mark_injective]

/-! ### Names -/

variable {l l' : Ledger} (hl : s.ledger? = some l) (hl' : t.ledger? = some l')

include hl hl'

/-- An element and its image have the same id. -/
theorem id {e : Entity} (he : e ∈ s.elementOrder) : (t.naming l').id (ρ.entity e) = (s.naming l).id e := by
  have he' : ρ.entity e ∈ t.elementOrder := by
    rw [h.elementOrder]
    exact List.mem_map_of_mem he
  rw [Script.naming_id hl he, Script.naming_id hl' he', h.elementOrder,
    eraseDups_map fun _ _ _ _ hx => entity_injective hx, idxOf_map_of_apart fun _ _ hx => entity_injective hx]

/-- A mark and its image have the same class. -/
theorem className {m : Mark} (hm : m ∈ s.markOrder) :
    (t.naming l').className (ρ.mark m) = (s.naming l).className m := by
  have hm' : ρ.mark m ∈ t.markOrder := by
    rw [h.markOrder]
    exact List.mem_map_of_mem hm
  rw [Script.naming_className hl hm, Script.naming_className hl' hm', h.markOrder,
    eraseDups_map fun _ _ _ _ hx => mark_injective hx, idxOf_map_of_apart fun _ _ hx => mark_injective hx]

/-! ### Pages and rules -/

theorem member {e : Entity} {m : Mark} (he : e ∈ s.elementOrder) (hm : m ∈ s.markOrder) :
    Page.member t (t.naming l') (ρ.entity e) (ρ.mark m) = Page.member s (s.naming l) e m := by
  rw [Page.member, Page.member, h.id hl hl' he, h.className hl hl' hm, h.isInitial]

theorem backgroundMembers :
    Page.backgroundMembers t (t.naming l') = Page.backgroundMembers s (s.naming l) := by
  rw [Page.backgroundMembers, Page.backgroundMembers, h.backgrounds, List.map_map]
  refine List.map_congr_left fun b hb => ?_
  exact h.member hl hl' (Script.background_mem_elementOrder hb) (Script.background_mem_markOrder hb)

theorem characterMembers :
    Page.characterMembers t (t.naming l') = Page.characterMembers s (s.naming l) := by
  refine map_of_forall₂ h.cast ?_
  rintro c c' ⟨hc, hname⟩
  rw [hname]
  exact h.member hl hl' (Script.character_mem_elementOrder hc) (Script.presence_mem_markOrder hc)

theorem emoteMembers : Page.emoteMembers t (t.naming l') = Page.emoteMembers s (s.naming l) := by
  refine flatMap_of_forall₂ h.cast ?_
  rintro c c' ⟨hc, hname⟩
  rw [hname, h.emotes, List.map_map]
  refine List.map_congr_left fun e he => ?_
  exact h.member hl hl' (Script.emote_mem_elementOrder hc he) (Script.emote_mem_markOrder he)

theorem motionSelectors {c : Character} (hc : c ∈ s.cast) (m : Motion) :
    Page.motionSelectors t (t.naming l') m (ρ.character c.normalized) =
      Page.motionSelectors s (s.naming l) m c.normalized := by
  have hid := h.id hl hl' (Script.character_mem_elementOrder hc)
  have hinitial := h.isInitial (.motion c.normalized m)
  simp only [entity, mark] at hid hinitial
  unfold Page.motionSelectors
  rw [h.moves]
  by_cases hmoves : Page.moves s c.normalized m = true
  · have hclass := h.className hl hl' (Script.motion_mem_markOrder hmoves)
    simp only [mark] at hclass
    simp only [hmoves, hid, hclass, hinitial]
  · simp only [hmoves, Bool.false_eq_true, if_false]

theorem animationRules (d : Direction) :
    Page.animationRules t (t.naming l') d = Page.animationRules s (s.naming l) d := by
  unfold Page.animationRules
  rw [h.animations]
  refine List.map_congr_left fun a _ => ?_
  have hselectors : (t.cast.flatMap fun c => Page.motionSelectors t (t.naming l') ⟨d, a⟩ c.normalized) =
      s.cast.flatMap fun c => Page.motionSelectors s (s.naming l) ⟨d, a⟩ c.normalized := by
    refine flatMap_of_forall₂ h.cast ?_
    rintro c c' ⟨hc, hname⟩
    rw [hname, h.motionSelectors hl hl' hc]
  rw [hselectors]

/-- The rules of a kind are the same if its members are, and its class, where there are members. -/
theorem activationRules (m : Mark) (kind : String) (r : Page.Reach) {members members' : List Page.Member}
    (hmembers : members' = members) (hm : members ≠ [] → m ∈ s.kinds) (hmark : ρ.mark m = m) :
    Page.activationRules ((t.naming l').className m) kind r members' =
      Page.activationRules ((s.naming l).className m) kind r members := by
  subst hmembers
  by_cases hnil : members' = []
  · rw [hnil]
    rfl
  · have hclass := h.className hl hl' (Page.mem_markOrder_of_kind (hm hnil))
    rw [hmark] at hclass
    rw [hclass]

theorem stateRules (hs : s.states ≠ []) :
    Page.stateRules (t.naming l') t.states.length = Page.stateRules (s.naming l) s.states.length := by
  obtain ⟨first, rest, hfirst⟩ := List.exists_cons_of_ne_nil hs
  have hfirst : s.states[0]? = some first := by simp [hfirst]
  have hid := h.id hl hl' (Script.state_mem_elementOrder hfirst)
  have hclass := h.className hl hl'
    (Script.mark_mem_markOrder (List.mem_of_getElem? hfirst) (State.mem_marks.mpr (Or.inl rfl)))
  simp only [entity, mark] at hid hclass
  simp only [Page.stateRules, hid, hclass, List.Forall₂.length_eq h]

/-- **The rules are the same.** -/
theorem rules (hs : s.states ≠ []) : Page.rules t (t.naming l') = Page.rules s (s.naming l) := by
  have hcast : s.cast ≠ [] → Mark.characters ∈ s.kinds ∧ Mark.emotes ∈ s.kinds := by
    intro hne
    simp [Script.kinds, hne]
  have hbackgrounds := h.activationRules hl hl' .backgrounds "background" .beside
    (h.backgroundMembers hl hl') (fun hne => by simpa [Script.kinds, Page.backgroundMembers] using hne) rfl
  have hcharacters := h.activationRules hl hl' .characters "character" .beside
    (h.characterMembers hl hl') (fun hne => (hcast (by simpa [Page.characterMembers] using hne)).1) rfl
  have hemotes := h.activationRules hl hl' .emotes "emote" .within
    (h.emoteMembers hl hl') (fun hne => (hcast fun hnil => hne (by simp [Page.emoteMembers, hnil])).2) rfl
  rw [Page.rules, Page.rules, h.stateRules hl hl' hs, hbackgrounds, hcharacters, hemotes,
    h.animationRules hl hl', h.animationRules hl hl']

theorem scenes : (Page.ofScript t (t.naming l')).scenes.map (·.attributes) =
    (Page.ofScript s (s.naming l)).scenes.map (·.attributes) := by
  simp only [Page.ofScript, List.map_map]
  refine map_of_forall₂ h.pageStates ?_
  rintro ⟨st, i⟩ ⟨st', i'⟩ ⟨hst, hcarries, hi⟩
  obtain rfl : i = i' := hi
  have hid := h.id hl hl' (Script.state_mem_elementOrder hst)
  have hclasses : (st'.marks t.characters).map (t.naming l').className =
      (st.marks s.characters).map (s.naming l).className := by
    rw [hcarries.marks, List.map_map]
    exact List.map_congr_left fun m hm =>
      h.className hl hl' (Script.mark_mem_markOrder (List.mem_of_getElem? hst) hm)
  simp only [Function.comp_apply, Page.scene, hclasses, ← hid]
  rfl

theorem backdrops : (Page.ofScript t (t.naming l')).backdrops.map (·.attributes) =
    (Page.ofScript s (s.naming l)).backdrops.map (·.attributes) := by
  simp only [Page.ofScript, List.map_map, h.backgrounds]
  refine List.map_congr_left fun b hb => ?_
  have hid := h.id hl hl' (Script.background_mem_elementOrder hb)
  have hclass := h.className hl hl' (m := .backgrounds)
    (Page.mem_markOrder_of_kind (by simp [Script.kinds, List.ne_nil_of_mem hb]))
  simp only [entity, mark] at hid hclass
  simp only [Function.comp_apply, Page.backdrop, hid, hclass]

theorem actors : (Page.ofScript t (t.naming l')).actors.map (fun a => (a.attributes, a.faces.map (·.attributes))) =
    (Page.ofScript s (s.naming l)).actors.map fun a => (a.attributes, a.faces.map (·.attributes)) := by
  simp only [Page.ofScript, List.map_map]
  refine map_of_forall₂ h.cast ?_
  rintro c c' ⟨hc, hname⟩
  have hkind : ∀ m ∈ [Mark.characters, .emotes], m ∈ s.markOrder := fun m hm =>
    Page.mem_markOrder_of_kind (by simpa [Script.kinds, List.ne_nil_of_mem hc] using Or.inr hm)
  have hid := h.id hl hl' (Script.character_mem_elementOrder hc)
  have hcharacters := h.className hl hl' (hkind .characters (by simp))
  have hemotes := h.className hl hl' (hkind .emotes (by simp))
  have hfaces : ∀ e ∈ s.emotes c.normalized, _ := fun e he =>
    h.id hl hl' (Script.emote_mem_elementOrder hc he)
  simp only [entity, mark] at hid hcharacters hemotes hfaces
  simp only [Function.comp_apply, Page.actor, hname, h.emotes, List.map_map, hid, hcharacters, Prod.mk.injEq,
    true_and]
  exact List.map_congr_left fun e he => by simp only [Function.comp_apply, Page.face, hfaces e he, hemotes]

omit hl hl' in
theorem assets : List.Forall₂ ρ.CarriesPath s.assets t.assets := by
  unfold Script.assets
  refine List.rel_append ?_ (List.rel_flatMap h.cast ?_)
  · rw [h.backgrounds, List.map_map, List.forall₂_map_left_iff, List.forall₂_map_right_iff, List.forall₂_same]
    exact fun b _ => .background b
  · rintro c c' ⟨-, hname⟩
    beta_reduce
    rw [hname, h.emotes, List.map_map, List.forall₂_map_left_iff, List.forall₂_map_right_iff, List.forall₂_same]
    exact fun e _ => .emote _ e

end Carries

end Renaming

/-- **Names ignore names.** Take two scripts that become pages, of which one has the shape of the other under
new names: as many states, the same animations, and slot by slot the same backgrounds, characters and emotes
up to a renaming that keeps different names different. Whatever else the scripts say, their pages add the
same rules to the stylesheet, and their scenes, backdrops, actors and faces have the same ids and classes.
The graphics correspond one by one. -/
theorem Blueprint.names_ignore_renaming {s t : Script} {b b' : Blueprint} (hs : ofScript s = .ok b)
    (ht : ofScript t = .ok b') {ρ : Renaming} (h : ρ.Carries s t) :
    b'.fragment = b.fragment ∧
    b'.page.scenes.map (·.attributes) = b.page.scenes.map (·.attributes) ∧
    b'.page.backdrops.map (·.attributes) = b.page.backdrops.map (·.attributes) ∧
    b'.page.actors.map (fun a => (a.attributes, a.faces.map (·.attributes))) =
      b.page.actors.map (fun a => (a.attributes, a.faces.map (·.attributes))) ∧
    List.Forall₂ ρ.CarriesPath b.assets b'.assets := by
  obtain ⟨hfault, l, hl, rfl⟩ := ofScript_eq_ok.mp hs
  obtain ⟨-, l', hl', rfl⟩ := ofScript_eq_ok.mp ht
  have hstates : s.states ≠ [] := (Script.fault?_eq_none.mp hfault).1
  refine ⟨?_, h.scenes hl hl', h.backdrops hl hl', h.actors hl hl', h.assets⟩
  exact congrArg Rule.renderAll (h.rules hl hl' hstates)

/-- The outing with other words, and with the names of its backgrounds, of its characters and of the first
character's emotes exchanged. -/
def Script.excursion : Script where
  characters := [⟨"bob", "Robert"⟩, ⟨"ann", "Annie"⟩]
  states := [
    ⟨some "forest", [.entering "fade" "sad", .absent], ["zoe"], some [], .dismiss 2⟩,
    ⟨some "beach", [.present "happy", .present "happy"], ["ann", "bob"], none, .menu []⟩,
    ⟨none, [.exiting "slide" "happy", .absent], [], none, .dismiss 1⟩]

/-- The renaming that exchanges them. -/
def Renaming.exchange : Renaming where
  background := (Equiv.swap "beach" "forest").toEmbedding
  character := (Equiv.swap "ann" "bob").toEmbedding
  emote c := if c = "ann" then (Equiv.swap "happy" "sad").toEmbedding else .refl _

theorem Renaming.exchange_carries : exchange.Carries .outing .excursion := by
  have hslot {x y : Character × Presence} (hq : y.2 = x.2.withEmote (exchange.emote x.1.normalized))
      (hc : y.1.normalized = exchange.character x.1.normalized) : exchange.CarriesSlot x y := ⟨hq, fun _ => hc⟩
  refine .cons ⟨by decide, ?_⟩ (.cons ⟨by decide, ?_⟩ (.cons ⟨by decide, ?_⟩ .nil))
  all_goals exact .cons (hslot (by decide) (by decide)) (.cons (hslot (by decide) (by decide)) .nil)

/-- The excursion has the page of the outing, as far as names go. -/
theorem Blueprint.names_ignore_exchange : ∃ b b', ofScript .outing = .ok b ∧ ofScript .excursion = .ok b' ∧
    b'.fragment = b.fragment ∧
    b'.page.scenes.map (·.attributes) = b.page.scenes.map (·.attributes) ∧
    b.assets.map Path.display = ["backgrounds/beach.svg", "backgrounds/forest.svg",
      "characters/ann/emotes/happy.svg", "characters/ann/emotes/sad.svg", "characters/bob/emotes/happy.svg"] ∧
    b'.assets.map Path.display = ["backgrounds/forest.svg", "backgrounds/beach.svg",
      "characters/bob/emotes/sad.svg", "characters/bob/emotes/happy.svg", "characters/ann/emotes/happy.svg"] ∧
    List.Forall₂ Renaming.exchange.CarriesPath b.assets b'.assets := by
  obtain ⟨b, hb⟩ := ofScript_outing
  obtain ⟨l', hl'⟩ := Option.isSome_iff_exists.mp (by decide : Script.excursion.ledger?.isSome)
  have hb' : ofScript .excursion = .ok (draw .excursion l') := ofScript_eq_ok.mpr ⟨by decide, l', hl', rfl⟩
  obtain ⟨-, l, -, rfl⟩ := ofScript_eq_ok.mp hb
  obtain ⟨hfragment, hscenes, -, -, hassets⟩ := names_ignore_renaming hb hb' Renaming.exchange_carries
  refine ⟨_, _, hb, hb', hfragment, hscenes, ?_, ?_, hassets⟩
  · change Script.outing.assets.map Path.display = _
    decide
  · change Script.excursion.assets.map Path.display = _
    decide

end SkitPage
