import Mathlib.Algebra.GroupWithZero.Nat
import Mathlib.Data.List.Nodup
import SkitPage.Proofs.FragmentText
import SkitPage.Proofs.Mentions
import SkitPage.Proofs.Visibility

/-!
# The names on a page leave no gap

In document order the ids of a page are the names of the numbers `0, 1, 2, …`, and so are its classes, each
counted where it is first seen (`Blueprint.names_dense`). The rules mention no other name: whatever they
need was named for the page already.

A table names its keys in the order of first look-up (`NameTable.keys_ofKeys`), so what remains is about the
orders of look-up. Elements are looked up in document order, each once (`Script.nodup_elementOrder`). Marks
are looked up as the scenes show them, and the marks of the kinds after that; on the page a kind is marked
again on each of its elements, which adds no first occurrence (`Script.eraseDups_shown`). How many
marks there are is counted on a list that has each of them once (`Script.distinctMarks`).

Key definitions: `Page.elements`, `Attributes.tokens`, `Script.shown`, `Script.classCount`, `Page.Has`,
`Page.Named`.
Key theorems: `NameTable.keys_ofKeys`, `Script.eraseDups_shown`, `Script.length_eraseDups_markOrder`,
`Page.named_of_rules`, `Blueprint.names_dense`.
-/

namespace SkitPage

/-! ### First occurrences -/

section FirstOccurrences

variable {α β : Type} [DecidableEq α] [DecidableEq β]

theorem eraseDups_concat (xs : List α) (x : α) :
    (xs ++ [x]).eraseDups = if x ∈ xs then xs.eraseDups else xs.eraseDups ++ [x] := by
  rw [List.eraseDups_append]
  by_cases h : x ∈ xs <;> simp [List.removeAll, List.eraseDups_cons, h]

theorem eraseDups_filter (p : α → Bool) (xs : List α) : (xs.filter p).eraseDups = xs.eraseDups.filter p := by
  induction xs using List.reverseRecOn with
  | nil => rfl
  | append_singleton xs x ih =>
    rw [List.filter_append, eraseDups_concat]
    by_cases hp : p x = true
    · rw [List.filter_cons_of_pos hp, List.filter_nil, eraseDups_concat, ih]
      by_cases hx : x ∈ xs <;> simp [hx, hp]
    · rw [List.filter_cons_of_neg hp, List.filter_nil, List.append_nil, ih]
      by_cases hx : x ∈ xs <;> simp [hx, hp]

theorem eraseDups_map {f : α → β} {xs : List α} (h : ∀ a ∈ xs, ∀ b ∈ xs, f a = f b → a = b) :
    (xs.map f).eraseDups = xs.eraseDups.map f := by
  induction xs using List.reverseRecOn with
  | nil => rfl
  | append_singleton xs x ih =>
    have hmem : f x ∈ xs.map f ↔ x ∈ xs := by
      refine ⟨fun hx => ?_, List.mem_map_of_mem⟩
      obtain ⟨y, hy, heq⟩ := List.mem_map.mp hx
      rwa [← h y (List.mem_append_left _ hy) x (by simp) heq]
    have ih' := ih fun a ha b hb => h a (List.mem_append_left _ ha) b (List.mem_append_left _ hb)
    rw [List.map_append, List.map_singleton, eraseDups_concat, eraseDups_concat, ih']
    simp only [hmem]
    split <;> simp

theorem eraseDups_eq_self {xs : List α} (h : xs.Nodup) : xs.eraseDups = xs := by
  induction xs using List.reverseRecOn with
  | nil => rfl
  | append_singleton xs x ih =>
    obtain ⟨hxs, -, hx⟩ := List.nodup_append.mp h
    rw [eraseDups_concat, if_neg fun hmem => hx x hmem x (List.mem_singleton_self x) rfl, ih hxs]

/-- What was there already adds no first occurrence. -/
theorem eraseDups_append_of_subset {xs ys : List α} (h : ys ⊆ xs) : (xs ++ ys).eraseDups = xs.eraseDups := by
  have hnil : ys.removeAll xs = [] := List.filter_eq_nil_iff.mpr fun y hy => by simpa using h hy
  rw [List.eraseDups_append, hnil, List.eraseDups_nil, List.append_nil]

/-- The first occurrences in two lists one after the other depend on those in each of them. -/
theorem eraseDups_append_congr {xs xs' ys ys' : List α} (hx : xs.eraseDups = xs'.eraseDups)
    (hy : ys.eraseDups = ys'.eraseDups) : (xs ++ ys).eraseDups = (xs' ++ ys').eraseDups := by
  have hmem : ∀ a, a ∈ xs ↔ a ∈ xs' := fun a => by
    rw [← List.mem_eraseDups, hx, List.mem_eraseDups]
  have hrest : ys.removeAll xs = ys.filter (fun a => decide (a ∉ xs')) := by
    simp [List.removeAll, hmem]
  have hrest' : ys'.removeAll xs' = ys'.filter (fun a => decide (a ∉ xs')) := by
    simp [List.removeAll]
  rw [List.eraseDups_append, List.eraseDups_append, hx, hrest, hrest', eraseDups_filter, eraseDups_filter, hy]

end FirstOccurrences

/-! ### Tables without gaps -/

theorem Name.blank_not_mem (n : Nat) : ' ' ∉ (ofNumber n).toList := fun h =>
  absurd (List.all_eq_true.mp (isWord_ofNumber n).2 ' ' h) (by decide)

namespace NameTable

variable {κ : Type} [DecidableEq κ]

theorem keys_ofKeys (ks : List κ) : (ofKeys ks).keys = ks.eraseDups := by
  induction ks using List.reverseRecOn with
  | nil => rfl
  | append_singleton ks k ih =>
    have hregister : ofKeys (ks ++ [k]) = (ofKeys ks).register k := by
      rw [ofKeys, List.foldl_append]
      rfl
    rw [hregister, register, eraseDups_concat, ← ih]
    simp only [mem_ofKeys]
    split <;> rfl

/-- The keys of a table have the names of the numbers from zero on. -/
theorem map_nameOf_keys {t : NameTable κ} (h : t.keys.Nodup) :
    t.keys.map t.nameOf = (List.range t.size).map Name.ofNumber := by
  apply List.ext_getElem
  · simp [size]
  · intro i hi _
    simp [nameOf, h.idxOf_getElem]

theorem eraseDups_map_nameOf (ks : List κ) : (ks.map (ofKeys ks).nameOf).eraseDups =
    (List.range ks.eraseDups.length).map Name.ofNumber := by
  have hinj : ∀ a ∈ ks, ∀ b ∈ ks, (ofKeys ks).nameOf a = (ofKeys ks).nameOf b → a = b :=
    fun a ha b _ he => (nameOf_inj (mem_ofKeys.mpr ha)).mp he
  have hnodup : (ofKeys ks).keys.Nodup := by
    rw [keys_ofKeys]
    exact nodup_eraseDups ks
  rw [eraseDups_map hinj, ← keys_ofKeys ks, map_nameOf_keys hnodup]
  rfl

end NameTable

namespace Ledger

variable {rs : List Role} {l : Ledger} {α : Type} [DecidableEq α] {role : α → Role} {order : List α}

/-- Things that play different roles, all of them in the ledger, have as many keys as there are things. -/
theorem eraseDups_map_key (h : ofRoles? rs = some l) (hrole : Function.Injective role)
    (hall : ∀ a ∈ order, role a ∈ rs) :
    (order.map fun a => l.key (role a)).eraseDups = order.eraseDups.map fun a => l.key (role a) := by
  refine eraseDups_map fun a ha b hb he => hrole ?_
  exact (Numbered.of_roles h).key_inj (noted_of_mem h (hall a ha)) (noted_of_mem h (hall b hb)) he

/-- Their names leave no gap. -/
theorem eraseDups_map_nameOf_key (h : ofRoles? rs = some l) (hrole : Function.Injective role)
    (hall : ∀ a ∈ order, role a ∈ rs) :
    (order.map fun a =>
        (NameTable.ofKeys (order.map fun x => l.key (role x))).nameOf (l.key (role a))).eraseDups =
      (List.range order.eraseDups.length).map Name.ofNumber := by
  have hdense := NameTable.eraseDups_map_nameOf (order.map fun a => l.key (role a))
  rw [eraseDups_map_key h hrole hall, List.length_map, List.map_map] at hdense
  exact hdense

end Ledger

/-! ### Elements in document order -/

/-- The classes of an element, as they stand between blanks. -/
def Attributes.tokens (a : Attributes) : List String := (a.classText.toList.splitOn ' ').map String.ofList

theorem Attributes.tokens_eq {a : Attributes} (hne : a.classes ≠ []) (h : ∀ c ∈ a.classes, ' ' ∉ c.toList) :
    a.tokens = a.classes := by
  have hsplit : a.classText.toList.splitOn ' ' = a.classes.map String.toList := by
    rw [classText, String.toList_intercalate]
    exact List.splitOn_intercalate ' ' (by simpa using h) (by simpa using hne)
  rw [tokens, hsplit, List.map_map]
  simp [Function.comp_def]

/-- The elements of a page in document order; the faces of an actor come after the actor itself. -/
def Page.elements (p : Page) : List Attributes :=
  p.scenes.map (·.attributes) ++ p.backdrops.map (·.attributes) ++
    p.actors.flatMap fun a => a.attributes :: a.faces.map (·.attributes)

namespace Script

/-- The elements of a page in document order, each with its marks. -/
def shown (s : Script) : List (Entity × List Mark) :=
  s.pageStates.map (fun (state, i) => (.state i, state.marks s.characters)) ++
    s.backgrounds.map (fun b => (.background b, [.backgrounds])) ++
    s.cast.flatMap fun c =>
      (.character c.normalized, [.characters]) ::
        (s.emotes c.normalized).map fun e => (.emote c.normalized e, [.emotes])

end Script

namespace Page

variable {s : Script} {n : Naming} {l : Ledger}

theorem elements_ofScript : (ofScript s n).elements =
    s.shown.map fun x => ⟨n.id x.1, x.2.map n.className⟩ := by
  simp [elements, ofScript, Script.shown, scene, backdrop, actor, face, List.map_flatMap,
    List.flatMap_map, Function.comp_def]

theorem map_id_elements : (ofScript s n).elements.map (·.id) = s.elementOrder.map n.id := by
  simp [elements_ofScript, Script.shown, Script.elementOrder, List.map_flatMap, Function.comp_def]

theorem classes_elements :
    (ofScript s n).elements.flatMap (·.classes) = (s.shown.flatMap (·.2)).map n.className := by
  rw [elements_ofScript, List.flatMap_map, List.map_flatMap]

/-- No element goes without a mark. -/
theorem marks_ne_nil : ∀ x ∈ s.shown, x.2 ≠ [] := by
  intro x hx
  simp only [Script.shown, List.mem_append, List.mem_map, List.mem_flatMap, List.mem_cons] at hx
  obtain (⟨⟨st, i⟩, -, rfl⟩ | ⟨b, -, rfl⟩) | ⟨c, -, rfl | ⟨e, -, rfl⟩⟩ := hx
  · simp [State.marks]
  all_goals exact List.cons_ne_nil _ _

theorem tokens_of_mem {a : Attributes} (ha : a ∈ (ofScript s (s.naming l)).elements) : a.tokens = a.classes := by
  rw [elements_ofScript] at ha
  obtain ⟨x, hx, rfl⟩ := List.mem_map.mp ha
  refine Attributes.tokens_eq (by simpa using marks_ne_nil x hx) fun c hc => ?_
  obtain ⟨m, -, rfl⟩ := List.mem_map.mp hc
  exact Name.blank_not_mem _

theorem tokens_elements : (ofScript s (s.naming l)).elements.flatMap (·.tokens) =
    (s.shown.flatMap (·.2)).map (s.naming l).className := by
  rw [← classes_elements]
  exact List.flatMap_congr fun a ha => tokens_of_mem ha

end Page

/-! ### Elements are named once -/

namespace Script

variable {s : Script} {l : Ledger}

theorem nodup_normalized_cast : (s.cast.map (·.normalized)).Nodup := by
  rw [map_normalized_cast]
  exact nodup_eraseDups _

/-- What the members of the cast have, member by member, holds nothing twice if no member has anything
twice and none has what another has. -/
theorem nodup_flatMap_cast {β : Type} {f : String → List β} (hf : ∀ c, (f c).Nodup)
    (howner : ∀ c c' x, x ∈ f c → x ∈ f c' → c = c') : (s.cast.flatMap fun c => f c.normalized).Nodup := by
  refine List.nodup_flatMap.mpr ⟨fun c _ => hf c.normalized, ?_⟩
  have hpair : s.cast.Pairwise fun c c' => c.normalized ≠ c'.normalized :=
    List.pairwise_map.mp s.nodup_normalized_cast
  exact hpair.imp fun hne x hx hx' => hne (howner _ _ x hx hx')

theorem nodup_pageStates : (s.pageStates.map (·.2)).Nodup := by
  have hlast : ∀ xs : List (State × Nat), (initialLast xs).Perm xs := by
    intro xs
    cases xs with
    | nil => exact List.Perm.refl _
    | cons x xs => exact List.perm_append_singleton x xs
  rw [pageStates, ((hlast _).map _).nodup_iff, List.zipIdx_map_snd]
  exact List.nodup_range'

theorem nodup_emotes (c : String) : (s.emotes c).Nodup := nodup_eraseDups _

theorem nodup_backgrounds : s.backgrounds.Nodup := nodup_eraseDups _

theorem nodup_elementOrder : s.elementOrder.Nodup := by
  have hstates : (s.pageStates.map fun x => Entity.state x.2).Nodup := by
    rw [← Function.comp_def Entity.state, ← List.map_map]
    exact s.nodup_pageStates.map fun _ _ => Entity.state.inj
  have hbackgrounds : (s.backgrounds.map Entity.background).Nodup :=
    s.nodup_backgrounds.map fun _ _ => Entity.background.inj
  have hcast : (s.cast.flatMap fun c =>
      Entity.character c.normalized :: (s.emotes c.normalized).map (Entity.emote c.normalized)).Nodup := by
    apply nodup_flatMap_cast (f := fun c => Entity.character c :: (s.emotes c).map (Entity.emote c))
    · intro c
      exact List.nodup_cons.mpr ⟨by simp, (s.nodup_emotes c).map fun _ _ h => (Entity.emote.inj h).2⟩
    · intro c c' x hx hx'
      simp only [List.mem_cons, List.mem_map] at hx hx'
      obtain rfl | ⟨e, -, rfl⟩ := hx <;> simp_all
  unfold elementOrder
  refine List.nodup_append.mpr ⟨List.nodup_append.mpr ⟨hstates, hbackgrounds, ?_⟩, hcast, ?_⟩
  · intro x hx y hy
    obtain ⟨_, -, rfl⟩ := List.mem_map.mp hx
    obtain ⟨_, -, rfl⟩ := List.mem_map.mp hy
    exact nofun
  · intro x hx y hy
    simp only [List.mem_append, List.mem_map, List.mem_flatMap, List.mem_cons] at hx hy
    obtain ⟨_, _, rfl⟩ | ⟨_, _, rfl⟩ := hx <;> obtain ⟨_, _, rfl | ⟨_, _, rfl⟩⟩ := hy <;> exact nofun

/-! ### Marks are counted once -/

/-- The animations of one direction that a character plays, in order of first use. -/
def motions (s : Script) (character : String) (d : Direction) : List String :=
  (((s.appearances.filter fun a => a.name == character).filterMap (·.motion)).filter (·.direction == d)).map
    (·.animation) |>.eraseDups

theorem mem_motions {c a : String} {d : Direction} :
    a ∈ s.motions c d ↔ ∃ x ∈ s.appearances, x.name = c ∧ x.motion = some ⟨d, a⟩ := by
  simp only [motions, List.mem_eraseDups, List.mem_map, List.mem_filter, List.mem_filterMap, beq_iff_eq]
  constructor
  · rintro ⟨v, ⟨⟨x, ⟨hx, hname⟩, hv⟩, rfl⟩, rfl⟩
    exact ⟨x, hx, hname, hv⟩
  · rintro ⟨x, hx, hname, hv⟩
    exact ⟨⟨d, a⟩, ⟨⟨x, ⟨hx, hname⟩, hv⟩, rfl⟩, rfl⟩

theorem nodup_motions (c : String) (d : Direction) : (s.motions c d).Nodup := nodup_eraseDups _

/-- The kinds of elements that there are besides the states. -/
def kinds (s : Script) : List Mark :=
  (if s.backgrounds.isEmpty then [] else [.backgrounds]) ++ if s.cast.isEmpty then [] else [.characters, .emotes]

/-- The marks that states have because of one character, each once. -/
def marksOf (s : Script) (c : String) : List Mark :=
  .presence c :: ((s.motions c .entry).map (fun a => .motion c ⟨.entry, a⟩) ++
    (s.motions c .exit).map (fun a => .motion c ⟨.exit, a⟩) ++ (s.emotes c).map (.emote c))

/-- All marks of a page, each once. -/
def distinctMarks (s : Script) : List Mark :=
  .states :: s.backgrounds.map .background ++ s.cast.flatMap (fun c => s.marksOf c.normalized) ++ s.kinds

theorem nodup_marksOf (c : String) : (s.marksOf c).Nodup := by
  have hmotions : ∀ d, ((s.motions c d).map fun a => Mark.motion c ⟨d, a⟩).Nodup := fun d =>
    (s.nodup_motions c d).map fun _ _ h => (Motion.mk.inj (Mark.motion.inj h).2).2
  have hemotes : ((s.emotes c).map (Mark.emote c)).Nodup :=
    (s.nodup_emotes c).map fun _ _ h => (Mark.emote.inj h).2
  refine List.nodup_cons.mpr ⟨by simp, List.nodup_append.mpr ⟨List.nodup_append.mpr ⟨hmotions _, hmotions _, ?_⟩,
    hemotes, ?_⟩⟩
  · simp
  · intro m hm m' hm'
    obtain ⟨_, -, rfl⟩ := List.mem_map.mp hm'
    simp only [List.mem_append, List.mem_map] at hm
    obtain ⟨_, -, rfl⟩ | ⟨_, -, rfl⟩ := hm <;> exact nofun

theorem mem_marksOf_cast {m : Mark} : m ∈ s.cast.flatMap (fun c => s.marksOf c.normalized) ↔
    ∃ a ∈ s.appearances, m ∈ a.marks := by
  simp only [List.mem_flatMap, marksOf, List.mem_cons, List.mem_append, List.mem_map, Appearance.mem_marks]
  constructor
  · rintro ⟨c, hc, rfl | (⟨v, hv, rfl⟩ | ⟨v, hv, rfl⟩) | ⟨e, he, rfl⟩⟩
    · obtain ⟨a, ha, hname⟩ := exists_appearance hc
      exact ⟨a, ha, Or.inl (by rw [hname])⟩
    · obtain ⟨a, ha, hname, hv⟩ := mem_motions.mp hv
      exact ⟨a, ha, Or.inr (Or.inl ⟨_, hv, by rw [hname]⟩)⟩
    · obtain ⟨a, ha, hname, hv⟩ := mem_motions.mp hv
      exact ⟨a, ha, Or.inr (Or.inl ⟨_, hv, by rw [hname]⟩)⟩
    · obtain ⟨a, ha, hname, rfl⟩ := mem_emotes.mp he
      exact ⟨a, ha, Or.inr (Or.inr (by rw [hname]))⟩
  · rintro ⟨a, ha, hm⟩
    obtain ⟨c, hc, hname⟩ := exists_cast ha
    refine ⟨c, hc, ?_⟩
    rw [hname]
    obtain rfl | ⟨⟨d, v⟩, hv, rfl⟩ | rfl := hm
    · exact Or.inl rfl
    · have hmem : v ∈ s.motions a.name d := mem_motions.mpr ⟨a, ha, rfl, hv⟩
      cases d with
      | entry => exact Or.inr (Or.inl (Or.inl ⟨v, hmem, rfl⟩))
      | exit => exact Or.inr (Or.inl (Or.inr ⟨v, hmem, rfl⟩))
    · exact Or.inr (Or.inr ⟨a.emote, mem_emotes.mpr ⟨a, ha, rfl, rfl⟩, rfl⟩)

theorem nodup_distinctMarks : s.distinctMarks.Nodup := by
  have hbackgrounds : (s.backgrounds.map Mark.background).Nodup :=
    s.nodup_backgrounds.map fun _ _ => Mark.background.inj
  have hcast : (s.cast.flatMap fun c => s.marksOf c.normalized).Nodup := by
    refine nodup_flatMap_cast s.nodup_marksOf fun c c' m hm hm' => ?_
    simp only [marksOf, List.mem_cons, List.mem_append, List.mem_map] at hm hm'
    obtain rfl | (⟨_, -, rfl⟩ | ⟨_, -, rfl⟩) | ⟨_, -, rfl⟩ := hm <;> simp_all
  have hkinds : s.kinds.Nodup := by
    unfold kinds
    split <;> split <;> decide
  have hkind : ∀ m ∈ s.kinds, m = .backgrounds ∨ m = .characters ∨ m = .emotes := by
    intro m hm
    simp only [kinds, List.mem_append, List.mem_ite_nil_left, List.mem_cons, List.not_mem_nil, or_false] at hm
    tauto
  refine List.nodup_append.mpr ⟨List.nodup_append.mpr ⟨?_, hcast, ?_⟩, hkinds, ?_⟩
  · exact List.nodup_cons.mpr ⟨by simp, hbackgrounds⟩
  · intro m hm m' hm'
    obtain ⟨a, -, ha⟩ := mem_marksOf_cast.mp hm'
    simp only [List.mem_cons, List.mem_map, Appearance.mem_marks] at hm ha
    obtain rfl | ⟨_, -, rfl⟩ := hm <;> obtain rfl | ⟨_, -, rfl⟩ | rfl := ha <;> exact nofun
  · intro m hm m' hm'
    have hm := List.mem_append.mp hm
    rw [mem_marksOf_cast] at hm
    simp only [List.mem_cons, List.mem_map, Appearance.mem_marks] at hm
    obtain (rfl | ⟨_, -, rfl⟩) | ⟨_, -, rfl | ⟨_, -, rfl⟩ | rfl⟩ := hm <;>
      obtain rfl | rfl | rfl := hkind m' hm' <;> exact nofun

theorem mem_stateMarks (hs : s.states ≠ []) {m : Mark} :
    m ∈ s.pageStates.flatMap (fun (state, _) => state.marks s.characters) ↔
      m = .states ∨ (∃ b ∈ s.backgrounds, m = .background b) ∨ ∃ a ∈ s.appearances, m ∈ a.marks := by
  have hpage : m ∈ s.pageStates.flatMap (fun (state, _) => state.marks s.characters) ↔
      ∃ st ∈ s.states, m ∈ st.marks s.characters := by
    constructor
    · intro h
      obtain ⟨⟨st, i⟩, hst, hm⟩ := List.mem_flatMap.mp h
      exact ⟨st, List.mem_of_getElem? (mem_pageStates.mp hst), hm⟩
    · rintro ⟨st, hst, hm⟩
      obtain ⟨i, hi⟩ := List.mem_iff_getElem?.mp hst
      exact List.mem_flatMap.mpr ⟨(st, i), mem_pageStates.mpr hi, hm⟩
  rw [hpage]
  constructor
  · rintro ⟨st, hst, hm⟩
    obtain rfl | ⟨b, hb, rfl⟩ | ⟨a, ha, hm⟩ := State.mem_marks.mp hm
    · exact Or.inl rfl
    · exact Or.inr (Or.inl ⟨b, mem_backgrounds.mpr ⟨st, hst, hb⟩, rfl⟩)
    · exact Or.inr (Or.inr ⟨a, List.mem_flatMap.mpr ⟨st, hst, ha⟩, hm⟩)
  · rintro (rfl | ⟨b, hb, rfl⟩ | ⟨a, ha, hm⟩)
    · obtain ⟨st, hst⟩ := List.exists_mem_of_ne_nil _ hs
      exact ⟨st, hst, State.mem_marks.mpr (Or.inl rfl)⟩
    · obtain ⟨st, hst, hb⟩ := mem_backgrounds.mp hb
      exact ⟨st, hst, State.mem_marks.mpr (Or.inr (Or.inl ⟨b, hb, rfl⟩))⟩
    · obtain ⟨st, hst, ha⟩ := List.mem_flatMap.mp ha
      exact ⟨st, hst, State.mem_marks.mpr (Or.inr (Or.inr ⟨a, ha, hm⟩))⟩

theorem markOrder_eq (s : Script) :
    s.markOrder = s.pageStates.flatMap (fun (state, _) => state.marks s.characters) ++ s.kinds :=
  List.append_assoc ..

theorem length_eraseDups_markOrder (hs : s.states ≠ []) :
    s.markOrder.eraseDups.length = s.distinctMarks.length := by
  refine ((List.perm_ext_iff_of_nodup (nodup_eraseDups _) s.nodup_distinctMarks).mpr fun m => ?_).length_eq
  rw [List.mem_eraseDups, markOrder_eq, List.mem_append, mem_stateMarks hs, distinctMarks, List.mem_append,
    List.mem_append, mem_marksOf_cast]
  simp only [List.mem_cons, List.mem_map, eq_comm, or_assoc]

theorem emotes_ne_nil {c : Character} (h : c ∈ s.cast) : s.emotes c.normalized ≠ [] := by
  obtain ⟨a, ha, hname⟩ := exists_appearance h
  exact List.ne_nil_of_mem (mem_emotes.mpr ⟨a, ha, hname, rfl⟩)

/-- On the page a kind is marked on each of its elements, which adds no first occurrence. -/
theorem eraseDups_shown : (s.shown.flatMap (·.2)).eraseDups = s.markOrder.eraseDups := by
  have hshown : s.shown.flatMap (·.2) =
      s.pageStates.flatMap (fun (state, _) => state.marks s.characters) ++
        s.backgrounds.flatMap (fun _ => [Mark.backgrounds]) ++
        s.cast.flatMap fun c => Mark.characters :: (s.emotes c.normalized).flatMap fun _ => [Mark.emotes] := by
    simp [shown, List.flatMap_map, List.flatMap_assoc]
  have hbackgrounds : (s.backgrounds.flatMap fun _ => [Mark.backgrounds]).eraseDups =
      (if s.backgrounds.isEmpty then [] else [Mark.backgrounds]).eraseDups := by
    cases s.backgrounds with
    | nil => rfl
    | cons b bs =>
      rw [List.flatMap_cons, eraseDups_append_of_subset]
      · rfl
      · intro m hm
        obtain ⟨_, -, hm⟩ := List.mem_flatMap.mp hm
        exact hm
  have hcast : (s.cast.flatMap fun c =>
      Mark.characters :: (s.emotes c.normalized).flatMap fun _ => [Mark.emotes]).eraseDups =
        (if s.cast.isEmpty then [] else [Mark.characters, .emotes]).eraseDups := by
    cases hc : s.cast with
    | nil => rfl
    | cons c cs =>
      -- The first character has an emote, so both kinds are seen before the second character.
      obtain ⟨e, es, he⟩ := List.exists_cons_of_ne_nil (emotes_ne_nil (hc ▸ List.mem_cons_self : c ∈ s.cast))
      rw [List.flatMap_cons, he, List.flatMap_cons, ← List.cons_append, List.append_assoc,
        eraseDups_append_of_subset]
      · rfl
      · intro m hm
        simp only [List.mem_append, List.mem_flatMap, List.mem_cons, List.not_mem_nil, or_false] at hm
        obtain ⟨_, -, rfl⟩ | ⟨_, -, rfl | ⟨_, -, rfl⟩⟩ := hm <;> simp
  rw [hshown, markOrder]
  exact eraseDups_append_congr (eraseDups_append_congr rfl hbackgrounds) hcast

theorem mem_shown {m : Mark} : m ∈ s.shown.flatMap (·.2) ↔ m ∈ s.markOrder := by
  rw [← List.mem_eraseDups, eraseDups_shown, List.mem_eraseDups]

/-- How many classes the page of a script has: one for the states, one for each background, each character
and each animation and emote of a character, and one for each kind of element that the page has. -/
def classCount (s : Script) (p : Page) : Nat :=
  1 + p.backdrops.length + p.actors.length +
    (p.actors.map fun a => (s.motions a.normalized .entry).length).sum +
    (p.actors.map fun a => (s.motions a.normalized .exit).length).sum +
    (p.actors.map fun a => a.faces.length).sum +
    (if p.backdrops.isEmpty then 0 else 1) + (if p.actors.isEmpty then 0 else 1) +
    if (p.actors.flatMap (·.faces)).isEmpty then 0 else 1

theorem length_marksOf (c : String) : (s.marksOf c).length =
    1 + (s.motions c .entry).length + (s.motions c .exit).length + (s.emotes c).length := by
  simp only [marksOf, List.length_cons, List.length_append, List.length_map]
  omega

theorem length_marksOf_cast : (s.cast.flatMap fun c => s.marksOf c.normalized).length =
    s.cast.length + (s.cast.map fun c => (s.motions c.normalized .entry).length).sum +
      (s.cast.map fun c => (s.motions c.normalized .exit).length).sum +
      (s.cast.map fun c => (s.emotes c.normalized).length).sum := by
  induction s.cast with
  | nil => rfl
  | cons c cs ih =>
    rw [List.flatMap_cons, List.length_append, ih, length_marksOf]
    simp only [List.map_cons, List.sum_cons, List.length_cons]
    omega

theorem length_kinds (n : Naming) : s.kinds.length =
    (if s.backgrounds.isEmpty then 0 else 1) + (if s.cast.isEmpty then 0 else 1) +
      if ((Page.ofScript s n).actors.flatMap (·.faces)).isEmpty then 0 else 1 := by
  have hfaces : ((Page.ofScript s n).actors.flatMap (·.faces)).isEmpty = s.cast.isEmpty := by
    cases hc : s.cast with
    | nil => simp [Page.ofScript, hc]
    | cons c cs =>
      have hne := emotes_ne_nil (hc ▸ List.mem_cons_self : c ∈ s.cast)
      simp [Page.ofScript, hc, Page.actor, hne]
  rw [hfaces, kinds]
  cases s.backgrounds <;> cases s.cast <;> rfl

theorem length_distinctMarks (n : Naming) : s.distinctMarks.length = s.classCount (.ofScript s n) := by
  have hactors : (Page.ofScript s n).actors = s.cast.map (Page.actor s n) := rfl
  rw [classCount, distinctMarks, List.length_append, List.length_append, length_marksOf_cast, length_kinds n]
  simp only [Page.ofScript, List.length_cons, List.length_map, List.map_map, Function.comp_def, Page.actor,
    List.isEmpty_map]
  omega

end Script

/-! ### Names in rules -/

/-- A page has a name: one of its elements has it as its id, or as a class. -/
def Page.Has (p : Page) : Mention → Prop
  | .id name => ∃ a ∈ p.elements, a.id = name
  | .cls name => ∃ a ∈ p.elements, name ∈ a.tokens

namespace Page

variable {s : Script} {n : Naming} {l : Ledger} {r : Rule} {m : Mention}

theorem mem_markOrder_of_kind {k : Mark} (h : k ∈ s.kinds) : k ∈ s.markOrder := by
  rw [Script.markOrder_eq]
  exact List.mem_append_right _ h

/-- A name was given to an element of the page, or to one of its marks. -/
def Named (s : Script) (n : Naming) : Mention → Prop
  | .id name => ∃ e ∈ s.elementOrder, name = n.id e
  | .cls name => ∃ k ∈ s.markOrder, name = n.className k

theorem named_of_stateRules (hs : s.states ≠ []) (hr : r ∈ stateRules n s.states.length) (hm : r.Mentions m) :
    Named s n m := by
  obtain ⟨st, states, hst⟩ := List.exists_cons_of_ne_nil hs
  have h0 : s.states[0]? = some st := by simp [hst]
  rcases mention_stateRules hr hm with rfl | rfl
  · exact ⟨_, Script.mark_mem_markOrder (List.mem_of_getElem? h0) (State.mem_marks.mpr (Or.inl rfl)), rfl⟩
  · exact ⟨_, Script.state_mem_elementOrder h0, rfl⟩

/-- The rules of a kind mention nothing new if the kind is marked and its members are named. -/
theorem named_of_activationRules {cls kind : String} {reach : Reach} {members : List Member}
    (hkind : members ≠ [] → Named s n (.cls cls))
    (hmembers : ∀ x ∈ members, Named s n (.id x.id) ∧ Named s n (.cls x.activation))
    (hr : r ∈ activationRules cls kind reach members) (hm : r.Mentions m) : Named s n m := by
  obtain ⟨hne, rfl⟩ | ⟨x, hx, rfl | rfl⟩ := mention_activationRules hr hm
  · exact hkind hne
  · exact (hmembers x hx).1
  · exact (hmembers x hx).2

theorem named_of_animationRules {d : Direction} (hr : r ∈ animationRules s n d) (hm : r.Mentions m) :
    Named s n m := by
  obtain ⟨c, hc, rfl | ⟨v, hv, rfl⟩⟩ := mention_animationRules hr hm
  · exact ⟨_, Script.character_mem_elementOrder hc, rfl⟩
  · obtain ⟨a, ha, hname, hmotion⟩ : ∃ a ∈ s.appearances, a.name = c.normalized ∧ a.motion = some v := by
      simpa [moves] using hv
    refine ⟨_, Script.appearance_mem_markOrder ha (Appearance.mem_marks.mpr ?_), rfl⟩
    exact Or.inr (Or.inl ⟨v, hmotion, by rw [hname]⟩)

/-- **The rules mention only what was named for the page.** -/
theorem named_of_rules (hs : s.states ≠ []) (hr : r ∈ rules s n) (hm : r.Mentions m) : Named s n m := by
  simp only [rules, List.mem_append, or_assoc] at hr
  obtain hr | hr | hr | hr | hr | hr := hr
  · exact named_of_stateRules hs hr hm
  · refine named_of_activationRules (fun hne => ⟨_, mem_markOrder_of_kind ?_, rfl⟩) (fun x hx => ?_) hr hm
    · simpa [Script.kinds, backgroundMembers] using hne
    · obtain ⟨b, hb, rfl⟩ := List.mem_map.mp hx
      exact ⟨⟨_, Script.background_mem_elementOrder hb, rfl⟩, ⟨_, Script.background_mem_markOrder hb, rfl⟩⟩
  · refine named_of_activationRules (fun hne => ⟨_, mem_markOrder_of_kind ?_, rfl⟩) (fun x hx => ?_) hr hm
    · have hcast : s.cast ≠ [] := by simpa [characterMembers] using hne
      simp [Script.kinds, hcast]
    · obtain ⟨c, hc, rfl⟩ := List.mem_map.mp hx
      exact ⟨⟨_, Script.character_mem_elementOrder hc, rfl⟩, ⟨_, Script.presence_mem_markOrder hc, rfl⟩⟩
  · exact named_of_animationRules hr hm
  · exact named_of_animationRules hr hm
  · refine named_of_activationRules (fun hne => ⟨_, mem_markOrder_of_kind ?_, rfl⟩) (fun x hx => ?_) hr hm
    · have hcast : s.cast ≠ [] := by
        rintro hcast
        simp [emoteMembers, hcast] at hne
      simp [Script.kinds, hcast]
    · obtain ⟨c, hc, hx⟩ := List.mem_flatMap.mp hx
      obtain ⟨e, he, rfl⟩ := List.mem_map.mp hx
      exact ⟨⟨_, Script.emote_mem_elementOrder hc he, rfl⟩, ⟨_, Script.emote_mem_markOrder he, rfl⟩⟩

theorem has_id {e : Entity} (he : e ∈ s.elementOrder) : (ofScript s n).Has (.id (n.id e)) := by
  have hmem : n.id e ∈ (ofScript s n).elements.map (·.id) := by
    rw [map_id_elements]
    exact List.mem_map_of_mem he
  exact List.mem_map.mp hmem

theorem has_class {k : Mark} (hk : k ∈ s.markOrder) :
    (ofScript s (s.naming l)).Has (.cls ((s.naming l).className k)) := by
  have hmem : (s.naming l).className k ∈ (ofScript s (s.naming l)).elements.flatMap (·.tokens) := by
    rw [tokens_elements]
    exact List.mem_map_of_mem (Script.mem_shown.mpr hk)
  exact List.mem_flatMap.mp hmem

/-- Whatever was named for the page is on it. -/
theorem Named.has (h : Named s (s.naming l) m) : (ofScript s (s.naming l)).Has m := by
  cases m with
  | id name =>
    obtain ⟨e, he, rfl⟩ := h
    exact has_id he
  | cls name =>
    obtain ⟨k, hk, rfl⟩ := h
    exact has_class hk

end Page

/-! ### Names without gaps -/

namespace Script

variable {s : Script} {l : Ledger}

theorem size_elementTable (hl : s.ledger? = some l) : (s.elementTable l).size = s.elementOrder.length := by
  rw [elementTable, NameTable.size, NameTable.keys_ofKeys,
    Ledger.eraseDups_map_key hl (fun _ _ => Role.element.inj) fun _ => element_mem_roles, List.length_map,
    eraseDups_eq_self s.nodup_elementOrder]

theorem size_markTable (hl : s.ledger? = some l) : (s.markTable l).size = s.markOrder.eraseDups.length := by
  rw [markTable, NameTable.size, NameTable.keys_ofKeys,
    Ledger.eraseDups_map_key hl (fun _ _ => Role.mark.inj) fun _ => mark_mem_roles, List.length_map]

theorem nodup_map_id (hl : s.ledger? = some l) : (s.elementOrder.map (s.naming l).id).Nodup :=
  s.nodup_elementOrder.map_on fun _ he _ he' h => (naming_id_inj hl he he').mp h

/-- In document order the ids are the names of the numbers from zero on. -/
theorem map_id_elementOrder (hl : s.ledger? = some l) :
    s.elementOrder.map (s.naming l).id = (List.range s.elementOrder.length).map Name.ofNumber := by
  have hdense : (s.elementOrder.map (s.naming l).id).eraseDups = _ :=
    Ledger.eraseDups_map_nameOf_key hl (fun _ _ => Role.element.inj) fun _ => element_mem_roles
  rwa [eraseDups_eq_self (nodup_map_id hl), eraseDups_eq_self s.nodup_elementOrder] at hdense

/-- In document order the classes, each where it is first seen, are the names of the numbers from zero on. -/
theorem eraseDups_map_className (hl : s.ledger? = some l) :
    ((s.shown.flatMap (·.2)).map (s.naming l).className).eraseDups =
      (List.range s.markOrder.eraseDups.length).map Name.ofNumber := by
  have hdense : (s.markOrder.map (s.naming l).className).eraseDups = _ :=
    Ledger.eraseDups_map_nameOf_key hl (fun _ _ => Role.mark.inj) fun _ => mark_mem_roles
  have hinj : ∀ m ∈ s.markOrder, ∀ m' ∈ s.markOrder,
      (s.naming l).className m = (s.naming l).className m' → m = m' :=
    fun m hm m' hm' h => (naming_className_inj hl hm hm').mp h
  calc ((s.shown.flatMap (·.2)).map (s.naming l).className).eraseDups
      = (s.shown.flatMap (·.2)).eraseDups.map (s.naming l).className :=
        eraseDups_map fun m hm m' hm' => hinj m (mem_shown.mp hm) m' (mem_shown.mp hm')
    _ = s.markOrder.eraseDups.map (s.naming l).className := by rw [eraseDups_shown]
    _ = (s.markOrder.map (s.naming l).className).eraseDups := (eraseDups_map hinj).symm
    _ = (List.range s.markOrder.eraseDups.length).map Name.ofNumber := hdense

end Script

/-- **Names leave no gap.** Take a script that becomes a page. In document order the ids of the page are the
names of the numbers below the number of its elements, so no two are equal; and the classes, each where it
is first seen, are the names of the numbers below the count of the classes. The tables hold just these
names. The rules mention only ids and classes that the page has, so they take no further name. -/
theorem Blueprint.names_dense {s : Script} {b : Blueprint} (h : ofScript s = .ok b) :
    b.page.elements.map (·.id) = (List.range b.page.elements.length).map Name.ofNumber ∧
    (b.page.elements.map (·.id)).Nodup ∧
    (b.page.elements.flatMap (·.tokens)).eraseDups = (List.range (s.classCount b.page)).map Name.ofNumber ∧
    (∃ l, s.ledger? = some l ∧ (s.elementTable l).size = b.page.elements.length ∧
      (s.markTable l).size = s.classCount b.page) ∧
    ∀ r ∈ b.rules, ∀ m, r.Mentions m → b.page.Has m := by
  obtain ⟨hok, l, hl, rfl⟩ := ofScript_eq_ok.mp h
  have hs : s.states ≠ [] := (Script.fault?_eq_none.mp hok).1
  have hids : (draw s l).page.elements.map (·.id) = s.elementOrder.map (s.naming l).id := Page.map_id_elements
  have hlength : (draw s l).page.elements.length = s.elementOrder.length := by
    simpa using congrArg List.length hids
  have hcount : s.markOrder.eraseDups.length = s.classCount (draw s l).page := by
    rw [Script.length_eraseDups_markOrder hs]
    exact Script.length_distinctMarks (s.naming l)
  refine ⟨?_, ?_, ?_, ⟨l, hl, ?_, ?_⟩, fun r hr m hm => ?_⟩
  · rw [hids, hlength, Script.map_id_elementOrder hl]
  · rw [hids]
    exact Script.nodup_map_id hl
  · rw [← hcount, ← Script.eraseDups_map_className hl]
    exact congrArg List.eraseDups Page.tokens_elements
  · rw [Script.size_elementTable hl, hlength]
  · rw [Script.size_markTable hl, hcount]
  · exact (Page.named_of_rules hs hr hm).has

/-- The page of the outing has ten elements and thirteen classes. -/
theorem Blueprint.names_dense_outing : ∃ b, ofScript .outing = .ok b ∧
    b.page.elements.map (·.id) = ["a", "b", "c", "d", "e", "f", "g", "h", "i", "j"] ∧
    (b.page.elements.flatMap (·.tokens)).eraseDups =
      ["a", "b", "c", "d", "e", "f", "g", "h", "i", "j", "k", "l", "m"] := by
  obtain ⟨b, hb⟩ := ofScript_outing
  have hcounts : (ofScript .outing).toOption.map
      (fun b => (b.page.elements.length, Script.outing.classCount b.page)) = some (10, 13) := by
    decide +kernel
  rw [hb] at hcounts
  obtain ⟨helements, hclasses⟩ := Prod.mk.inj (Option.some.inj hcounts)
  obtain ⟨hids, -, htokens, -⟩ := names_dense hb
  rw [helements] at hids
  rw [hclasses] at htokens
  exact ⟨b, hb, hids.trans (by decide +kernel), htokens.trans (by decide +kernel)⟩

end SkitPage
