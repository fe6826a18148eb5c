import Mathlib.Data.Prod.Lex
import SkitPage.Proofs.BuildState
import SkitPage.Proofs.DenseNames

/-!
# What a script shows, in order of discovery

A page has a backdrop for each background of the script, an actor for each character that is seen, and
inside it a face for each emote of the character. They stand in the order in which a reader of the script
meets them, state after state and in a state slot after slot, and each stands once
(`Blueprint.page_in_order_of_discovery`). A slot is a position: the state, then the place in the state.

Whatever is collected from a script is collected from the same walk over its slots (`Script.placed`), whose
positions increase. So one lemma covers backgrounds, characters, emotes and animations: of what is found at
increasing positions, dropping repetitions leaves the order of first use (`firstUses_filterMap`).

The graphics of a page follow the same order. No two are the same, since a path can be read back
(`Path.background_inj`, `Path.emote_inj`).

Key definitions: `FirstUses`, `Script.slot?`, `Script.SeenAt`, `Script.placed`.
Key theorems: `firstUses_filterMap`, `first_of_mem_eraseDupsBy`, `Script.mem_placed`, `Script.nodup_assets`,
`Blueprint.page_in_order_of_discovery`.
-/

namespace SkitPage

/-! ### Order of first use -/

/-- The list holds what is used at some position, each once, in the order of first use: what comes earlier
in the list has a use before every use of what comes later. -/
structure FirstUses {ι α : Type} [LT ι] (uses : ι → α → Prop) (xs : List α) : Prop where
  /-- Nothing stands twice. -/
  nodup : xs.Nodup
  /-- What is in the list is what is used. -/
  mem_iff : ∀ x, x ∈ xs ↔ ∃ i, uses i x
  /-- What comes earlier is used earlier. -/
  order : xs.Pairwise fun x y => ∃ i, uses i x ∧ ∀ j, uses j y → i < j

theorem FirstUses.congr {ι α : Type} [LT ι] {uses uses' : ι → α → Prop} {xs : List α} (h : FirstUses uses xs)
    (huses : ∀ i x, uses' i x ↔ uses i x) : FirstUses uses' xs := by
  obtain rfl : uses' = uses := funext fun i => funext fun x => propext (huses i x)
  exact h

section FirstUses

variable {ι α β : Type} [LinearOrder ι]

/-- Finds at increasing positions. -/
def Increasing (found : List (ι × α)) : Prop := found.Pairwise fun x y => x.1 < y.1

/-- Of finds at increasing positions, dropping repetitions leaves the order of first use. -/
theorem firstUses_eraseDups [DecidableEq α] {found : List (ι × α)} (h : Increasing found) :
    FirstUses (fun i x => (i, x) ∈ found) (found.map (·.2)).eraseDups := by
  refine ⟨nodup_eraseDups _, fun x => by simp, ?_⟩
  induction hn : found.length using Nat.strongRecOn generalizing found with
  | ind n ih =>
    cases found with
    | nil => exact List.Pairwise.nil
    | cons first rest =>
      obtain ⟨hfirst, hrest⟩ := List.pairwise_cons.mp h
      -- what is left to list are the finds that differ from the first one
      have hothers : ((rest.map (·.2)).filter fun x => !x == first.2) =
          (rest.filter fun y => !y.2 == first.2).map (·.2) := by
        rw [List.filter_map]
        rfl
      have hlater : ∀ j x, x ≠ first.2 → (j, x) ∈ first :: rest →
          (j, x) ∈ rest.filter fun y => !y.2 == first.2 := by
        intro j x hne hmem
        rcases List.mem_cons.mp hmem with rfl | hmem
        · exact absurd rfl hne
        · exact List.mem_filter.mpr ⟨hmem, by simpa using hne⟩
      rw [List.map_cons, List.eraseDups_cons, hothers]
      refine List.pairwise_cons.mpr ⟨fun y hy => ⟨first.1, List.mem_cons_self .., fun j hj => ?_⟩, ?_⟩
      · obtain ⟨z, hz, rfl⟩ := List.mem_map.mp (List.mem_eraseDups.mp hy)
        have hne : z.2 ≠ first.2 := by simpa using (List.mem_filter.mp hz).2
        exact hfirst _ (List.mem_of_mem_filter (hlater j z.2 hne hj))
      · have hlt : (rest.filter fun y => !y.2 == first.2).length < n := hn ▸ length_filter_lt _ first rest
        refine (ih _ hlt (hrest.filter _) rfl).imp_of_mem fun {x y} hx hy => ?_
        rintro ⟨i, hi, hbefore⟩
        obtain ⟨z, hz, rfl⟩ := List.mem_map.mp (List.mem_eraseDups.mp hy)
        have hne : z.2 ≠ first.2 := by simpa using (List.mem_filter.mp hz).2
        exact ⟨i, List.mem_cons_of_mem _ (List.mem_of_mem_filter hi), fun j hj => hbefore j (hlater j z.2 hne hj)⟩

/-- What `f` reads off finds, each where it was found. -/
def readOff (f : α → Option β) (found : List (ι × α)) : List (ι × β) :=
  found.filterMap fun x => (f x.2).map (x.1, ·)

omit [LinearOrder ι] in
theorem map_snd_readOff (f : α → Option β) (found : List (ι × α)) :
    (readOff f found).map (·.2) = (found.map (·.2)).filterMap f := by
  rw [readOff, List.filterMap_map, List.map_filterMap]
  simp [Function.comp_def]

omit [LinearOrder ι] in
theorem mem_readOff {f : α → Option β} {found : List (ι × α)} {i : ι} {y : β} :
    (i, y) ∈ readOff f found ↔ ∃ x, (i, x) ∈ found ∧ f x = some y := by
  simp [readOff]

theorem Increasing.readOff {found : List (ι × α)} (h : Increasing found) (f : α → Option β) :
    Increasing (readOff f found) := by
  refine h.filterMap _ fun x y hlt u hu v hv => ?_
  obtain ⟨_, -, rfl⟩ := Option.map_eq_some_iff.mp hu
  obtain ⟨_, -, rfl⟩ := Option.map_eq_some_iff.mp hv
  exact hlt

/-- What is read off finds at increasing positions, without repetitions, is in the order of first use. -/
theorem firstUses_filterMap [DecidableEq β] {found : List (ι × α)} (h : Increasing found) (f : α → Option β) :
    FirstUses (fun i y => ∃ x, (i, x) ∈ found ∧ f x = some y) ((found.map (·.2)).filterMap f).eraseDups := by
  rw [← map_snd_readOff]
  simpa only [mem_readOff] using firstUses_eraseDups (h.readOff f)

/-- What represents a value of `f` was found before everything else with that value. -/
theorem first_of_mem_eraseDupsBy [DecidableEq β] {found : List (ι × α)} (h : Increasing found) (f : α → β)
    {x : α} (hx : x ∈ (found.map (·.2)).eraseDupsBy fun a b => f a == f b) :
    ∃ i, (i, x) ∈ found ∧ ∀ j y, (j, y) ∈ found → f y = f x → i ≤ j := by
  induction hn : found.length using Nat.strongRecOn generalizing found with
  | ind n ih =>
    cases found with
    | nil => simp at hx
    | cons first rest =>
      obtain ⟨hfirst, hrest⟩ := List.pairwise_cons.mp h
      rw [List.map_cons, List.eraseDupsBy_cons, List.filter_map] at hx
      rcases List.mem_cons.mp hx with rfl | hx
      · refine ⟨first.1, List.mem_cons_self .., fun j y hj _ => ?_⟩
        rcases List.mem_cons.mp hj with rfl | hj
        · exact le_refl _
        · exact (hfirst _ hj).le
      · obtain ⟨i, hi, hleast⟩ := ih _ (hn ▸ length_filter_lt _ first rest) (hrest.filter _) hx rfl
        obtain ⟨hi, hne⟩ := List.mem_filter.mp hi
        have hne : f x ≠ f first.2 := by simpa using hne
        refine ⟨i, List.mem_cons_of_mem _ hi, fun j y hj hy => ?_⟩
        rcases List.mem_cons.mp hj with rfl | hj
        · exact absurd hy.symm hne
        · exact hleast j y (List.mem_filter.mpr ⟨hj, by simpa [hy] using hne⟩) hy

end FirstUses

/-! ### The walk over the slots -/

/-- The appearance that a slot makes, unless its character is absent. -/
def Appearance.ofSlot? (x : Character × Presence) : Option Appearance :=
  x.2.emote?.map fun e => { character := x.1, motion := x.2.motion?, emote := e }

namespace Script

/-- The declared character and its presence at a slot, which is a place in a state. -/
def slot? (s : Script) (p : ℕ ×ₗ ℕ) : Option (Character × Presence) := do
  let state ← s.states[(ofLex p).1]?
  let c ← s.characters[(ofLex p).2]?
  let q ← state.presences[(ofLex p).2]?
  return (c, q)

/-- At a slot a declared character is seen, in the given way. -/
def SeenAt (s : Script) (p : ℕ ×ₗ ℕ) (c : Character) (q : Presence) : Prop :=
  s.slot? p = some (c, q) ∧ q ≠ .absent

/-- The state at a position has a background. -/
def BackgroundAt (s : Script) (i : ℕ) (name : String) : Prop :=
  ∃ st, s.states[i]? = some st ∧ st.background = some name

/-- At a slot a character of a name is seen. -/
def NameAt (s : Script) (p : ℕ ×ₗ ℕ) (name : String) : Prop := ∃ c q, s.SeenAt p c q ∧ c.normalized = name

/-- At a slot a character of a name is seen with an emote. -/
def EmoteAt (s : Script) (name : String) (p : ℕ ×ₗ ℕ) (emote : String) : Prop :=
  ∃ c q, s.SeenAt p c q ∧ c.normalized = name ∧ q.emote? = some emote

/-- The slots of a script in order. -/
def slots (s : Script) : List ((ℕ ×ₗ ℕ) × (Character × Presence)) :=
  s.states.zipIdx.flatMap fun (state, i) =>
    (s.characters.zip state.presences).zipIdx.map fun (x, k) => (toLex (i, k), x)

/-- The appearances of a script in order, each with its slot. -/
def placed (s : Script) : List ((ℕ ×ₗ ℕ) × Appearance) := readOff Appearance.ofSlot? s.slots

variable {s : Script}

theorem slot?_eq_some {p : ℕ ×ₗ ℕ} {c : Character} {q : Presence} : s.slot? p = some (c, q) ↔
    ∃ st, s.states[(ofLex p).1]? = some st ∧ s.characters[(ofLex p).2]? = some c ∧
      st.presences[(ofLex p).2]? = some q := by
  simp [slot?, Option.bind_eq_some_iff]

theorem mem_slots {p : ℕ ×ₗ ℕ} {x : Character × Presence} : (p, x) ∈ s.slots ↔ s.slot? p = some x := by
  obtain ⟨c, q⟩ := x
  simp only [slots, List.mem_flatMap, List.mem_map, Prod.exists, List.mem_zipIdx_iff_getElem?,
    List.getElem?_zip_eq_some, slot?_eq_some]
  constructor
  · rintro ⟨st, i, hst, _, _, k, hk, heq⟩
    cases heq
    exact ⟨st, hst, hk⟩
  · rintro ⟨st, hst, hk⟩
    exact ⟨st, _, hst, c, q, _, hk, rfl⟩

theorem pairwise_zipIdx {α : Type} (xs : List α) : xs.zipIdx.Pairwise fun x y => x.2 < y.2 := by
  have h := List.pairwise_lt_range' (s := 0) (n := xs.length) 1
  rw [← List.zipIdx_map_snd 0 xs] at h
  exact List.pairwise_map.mp h

theorem increasing_slots : Increasing s.slots := by
  refine List.pairwise_flatMap.mpr ⟨fun (st, i) _ => ?_,
    (pairwise_zipIdx s.states).imp fun {x y} hlt u hu v hv => ?_⟩
  · refine List.pairwise_map.mpr ((pairwise_zipIdx _).imp fun {x y} hlt => ?_)
    exact Prod.Lex.toLex_lt_toLex.mpr (Or.inr ⟨rfl, hlt⟩)
  · obtain ⟨_, -, rfl⟩ := List.mem_map.mp hu
    obtain ⟨_, -, rfl⟩ := List.mem_map.mp hv
    exact Prod.Lex.toLex_lt_toLex.mpr (Or.inl hlt)

theorem map_snd_slots : s.slots.map (·.2) = s.states.flatMap fun st => s.characters.zip st.presences := by
  have hzip : ∀ {α : Type} (xs : List α), xs.zipIdx.map (fun x => x.1) = xs := fun xs =>
    List.zipIdx_map_fst 0 xs
  conv_rhs => rw [← hzip s.states, List.flatMap_map]
  rw [slots, List.map_flatMap]
  refine List.flatMap_congr fun x _ => ?_
  rw [List.map_map]
  exact hzip _

theorem map_snd_placed : s.placed.map (·.2) = s.appearances := by
  rw [placed, map_snd_readOff, map_snd_slots, List.filterMap_flatMap]
  rfl

theorem increasing_placed : Increasing s.placed := s.increasing_slots.readOff _

theorem mem_placed {p : ℕ ×ₗ ℕ} {a : Appearance} : (p, a) ∈ s.placed ↔
    ∃ q, s.slot? p = some (a.character, q) ∧ a.motion = q.motion? ∧ q.emote? = some a.emote := by
  simp only [placed, mem_readOff, Appearance.ofSlot?, Option.map_eq_some_iff, mem_slots]
  constructor
  · rintro ⟨⟨c, q⟩, hslot, e, he, rfl⟩
    exact ⟨q, hslot, rfl, he⟩
  · rintro ⟨q, hslot, hm, he⟩
    exact ⟨(a.character, q), hslot, a.emote, he, by rw [← hm]⟩

/-! ### What is collected -/

theorem firstUses_backgrounds : FirstUses s.BackgroundAt s.backgrounds := by
  have hincreasing : Increasing (s.states.zipIdx.map fun x => (x.2, x.1)) :=
    List.pairwise_map.mpr (pairwise_zipIdx s.states)
  have hstates : (s.states.zipIdx.map fun x => (x.2, x.1)).map (·.2) = s.states := by
    rw [List.map_map]
    exact List.zipIdx_map_fst 0 s.states
  have h := firstUses_filterMap hincreasing State.background
  rw [hstates] at h
  exact h.congr fun i name => by simp [BackgroundAt, List.mem_zipIdx_iff_getElem?]

/-- What is collected from the appearances is in the order of the slots. -/
theorem firstUses_appearances {β : Type} [DecidableEq β] (f : Appearance → Option β) :
    FirstUses (fun p y => ∃ a, (p, a) ∈ s.placed ∧ f a = some y) (s.appearances.filterMap f).eraseDups := by
  rw [← map_snd_placed]
  exact firstUses_filterMap s.increasing_placed f

theorem seenAt_of_placed {p : ℕ ×ₗ ℕ} {a : Appearance} (h : (p, a) ∈ s.placed) :
    ∃ q, s.SeenAt p a.character q ∧ a.motion = q.motion? ∧ q.emote? = some a.emote := by
  obtain ⟨q, hslot, hm, he⟩ := mem_placed.mp h
  exact ⟨q, ⟨hslot, Presence.ne_absent_iff.mpr ⟨_, he⟩⟩, hm, he⟩

theorem SeenAt.placed {p : ℕ ×ₗ ℕ} {c : Character} {q : Presence} (h : s.SeenAt p c q) :
    ∃ e, q.emote? = some e ∧ (p, ⟨c, q.motion?, e⟩) ∈ s.placed := by
  obtain ⟨e, he⟩ := Presence.ne_absent_iff.mp h.2
  exact ⟨e, he, mem_placed.mpr ⟨q, h.1, rfl, he⟩⟩

theorem nameAt_iff {p : ℕ ×ₗ ℕ} {name : String} :
    s.NameAt p name ↔ ∃ a, (p, a) ∈ s.placed ∧ a.name = name := by
  constructor
  · rintro ⟨c, q, hseen, rfl⟩
    obtain ⟨e, -, ha⟩ := hseen.placed
    exact ⟨_, ha, rfl⟩
  · rintro ⟨a, ha, rfl⟩
    obtain ⟨q, hseen, -⟩ := seenAt_of_placed ha
    exact ⟨_, q, hseen, rfl⟩

theorem emoteAt_iff {p : ℕ ×ₗ ℕ} {name emote : String} :
    s.EmoteAt name p emote ↔ ∃ a, (p, a) ∈ s.placed ∧ a.name = name ∧ a.emote = emote := by
  constructor
  · rintro ⟨c, q, hseen, rfl, he⟩
    obtain ⟨e, he', ha⟩ := hseen.placed
    exact ⟨_, ha, rfl, Option.some.inj (he'.symm.trans he)⟩
  · rintro ⟨a, ha, rfl, rfl⟩
    obtain ⟨q, hseen, -, he⟩ := seenAt_of_placed ha
    exact ⟨_, q, hseen, rfl, he⟩

theorem firstUses_cast : FirstUses s.NameAt (s.cast.map (·.normalized)) := by
  rw [map_normalized_cast, ← List.filterMap_eq_map']
  exact (s.firstUses_appearances fun a => some a.name).congr fun p name => by simp [nameAt_iff]

theorem firstUses_emotes (name : String) : FirstUses (s.EmoteAt name) (s.emotes name) := by
  rw [emotes_eq]
  exact (s.firstUses_appearances _).congr fun p emote => by simp [emoteAt_iff]

/-- A member of the cast was declared at the slot where its name is first seen. -/
theorem seen_first {c : Character} (h : c ∈ s.cast) :
    ∃ p q, s.SeenAt p c q ∧ ∀ p', s.NameAt p' c.normalized → p ≤ p' := by
  have hincreasing : Increasing (readOff (fun a => some a.character) s.placed) := s.increasing_placed.readOff _
  have hcast : c ∈ ((readOff (fun a => some a.character) s.placed).map (·.2)).eraseDupsBy
      fun a b => a.normalized == b.normalized := by
    rw [map_snd_readOff, map_snd_placed, List.filterMap_eq_map']
    exact h
  obtain ⟨p, hp, hleast⟩ := first_of_mem_eraseDupsBy hincreasing (·.normalized) hcast
  obtain ⟨a, ha, hac⟩ := mem_readOff.mp hp
  obtain rfl := Option.some.inj hac
  obtain ⟨q, hseen, -⟩ := seenAt_of_placed ha
  refine ⟨p, q, hseen, fun p' hp' => ?_⟩
  obtain ⟨a', ha', hname⟩ := nameAt_iff.mp hp'
  exact hleast p' a'.character (mem_readOff.mpr ⟨a', ha', rfl⟩) hname

end Script

/-! ### Graphics -/

namespace Path

theorem background_inj {name name' : String} : background name = background name' ↔ name = name' := by
  simp [background]

theorem emote_inj {c c' e e' : String} : emote c e = emote c' e' ↔ c = c' ∧ e = e' := by
  simp [emote]

theorem background_ne_emote (name c e : String) : background name ≠ emote c e := by
  simp [background, emote]

end Path

namespace Script

variable {s : Script}

/-- No graphic is needed twice. -/
theorem nodup_assets : s.assets.Nodup := by
  have hbackgrounds : (s.backgrounds.map Path.background).Nodup :=
    s.nodup_backgrounds.map fun _ _ => Path.background_inj.mp
  have hemotes : (s.cast.flatMap fun c => (s.emotes c.normalized).map (Path.emote c.normalized)).Nodup := by
    apply nodup_flatMap_cast (f := fun c => (s.emotes c).map (Path.emote c))
    · intro c
      exact (s.nodup_emotes c).map fun _ _ h => (Path.emote_inj.mp h).2
    · intro c c' path hc hc'
      obtain ⟨e, -, rfl⟩ := List.mem_map.mp hc
      obtain ⟨e', -, heq⟩ := List.mem_map.mp hc'
      exact (Path.emote_inj.mp heq).1.symm
  refine List.nodup_append.mpr ⟨hbackgrounds, hemotes, fun path hpath path' hpath' => ?_⟩
  obtain ⟨name, -, rfl⟩ := List.mem_map.mp hpath
  obtain ⟨c, -, hpath'⟩ := List.mem_flatMap.mp hpath'
  obtain ⟨e, -, rfl⟩ := List.mem_map.mp hpath'
  exact Path.background_ne_emote _ _ _

/-- The graphics that a script needs are those of its backgrounds, and of the emotes with which its
characters are seen. -/
theorem mem_assets {path : Path} : path ∈ s.assets ↔
    (∃ i name, s.BackgroundAt i name ∧ path = .background name) ∨
      ∃ p name emote, s.EmoteAt name p emote ∧ path = .emote name emote := by
  simp only [assets, List.mem_append, List.mem_map, List.mem_flatMap]
  constructor
  · rintro (⟨name, hname, rfl⟩ | ⟨c, -, e, he, rfl⟩)
    · obtain ⟨i, hi⟩ := (s.firstUses_backgrounds.mem_iff name).mp hname
      exact Or.inl ⟨i, name, hi, rfl⟩
    · obtain ⟨p, hp⟩ := ((s.firstUses_emotes _).mem_iff e).mp he
      exact Or.inr ⟨p, _, e, hp, rfl⟩
  · rintro (⟨i, name, hi, rfl⟩ | ⟨p, name, e, hp, rfl⟩)
    · exact Or.inl ⟨name, (s.firstUses_backgrounds.mem_iff name).mpr ⟨i, hi⟩, rfl⟩
    · obtain ⟨c, q, hseen, rfl, he⟩ := hp
      have hname := (s.firstUses_cast.mem_iff _).mpr ⟨p, c, q, hseen, rfl⟩
      obtain ⟨c', hc', heq⟩ := List.mem_map.mp hname
      have hemote := ((s.firstUses_emotes c.normalized).mem_iff e).mpr ⟨p, c, q, hseen, rfl, he⟩
      exact Or.inr ⟨c', hc', e, heq ▸ hemote, by rw [heq]⟩

end Script

/-- **A page follows its script.** Take a script that becomes a page. Its backdrops are the backgrounds of
the states, in order of first use; its actors are the characters that are seen, in the order of the slots
where they are first seen, each called as it was declared for that slot; and the faces of an actor are the
emotes with which its name is seen, in order of first use. The graphics are those of the backdrops and then
those of the faces, in the order of the page. None is listed twice, and they are the graphics of what the
states show. -/
theorem Blueprint.page_in_order_of_discovery {s : Script} {b : Blueprint} (h : ofScript s = .ok b) :
    FirstUses s.BackgroundAt (b.page.backdrops.map (·.normalized)) ∧
    FirstUses s.NameAt (b.page.actors.map (·.normalized)) ∧
    (∀ a ∈ b.page.actors,
      (∃ p q, s.SeenAt p ⟨a.normalized, a.verbatim⟩ q ∧ ∀ p', s.NameAt p' a.normalized → p ≤ p') ∧
      FirstUses (s.EmoteAt a.normalized) (a.faces.map (·.normalized))) ∧
    b.assets = b.page.backdrops.map (·.path) ++ b.page.actors.flatMap (fun a => a.faces.map (·.path)) ∧
    (∀ d ∈ b.page.backdrops, d.path = .background d.normalized) ∧
    (∀ a ∈ b.page.actors, ∀ f ∈ a.faces, f.path = .emote a.normalized f.normalized) ∧
    b.assets.Nodup ∧
    ∀ path, path ∈ b.assets ↔ (∃ i name, s.BackgroundAt i name ∧ path = .background name) ∨
      ∃ p name emote, s.EmoteAt name p emote ∧ path = .emote name emote := by
  obtain ⟨-, l, -, rfl⟩ := ofScript_eq_ok.mp h
  have hbackdrops : (draw s l).page.backdrops.map (·.normalized) = s.backgrounds := by
    simp [draw, Page.ofScript, Page.backdrop, Function.comp_def]
  have hactors : (draw s l).page.actors.map (·.normalized) = s.cast.map (·.normalized) := by
    simp [draw, Page.ofScript, Page.actor, Function.comp_def]
  have hactor : ∀ a ∈ (draw s l).page.actors, ∃ c ∈ s.cast, a = Page.actor s (s.naming l) c := by
    intro a ha
    obtain ⟨c, hc, rfl⟩ := List.mem_map.mp ha
    exact ⟨c, hc, rfl⟩
  have hfaces : ∀ c, (Page.actor s (s.naming l) c).faces.map (·.normalized) = s.emotes c.normalized := by
    simp [Page.actor, Page.face, Function.comp_def]
  refine ⟨?_, ?_, fun a ha => ?_, ?_, ?_, ?_, s.nodup_assets, fun path => Script.mem_assets⟩
  · rw [hbackdrops]
    exact s.firstUses_backgrounds
  · rw [hactors]
    exact s.firstUses_cast
  · obtain ⟨c, hc, rfl⟩ := hactor a ha
    rw [hfaces]
    exact ⟨Script.seen_first hc, s.firstUses_emotes _⟩
  · exact (Page.paths_ofScript s (s.naming l)).symm
  · intro d hd
    obtain ⟨name, -, rfl⟩ := List.mem_map.mp hd
    rfl
  · intro a ha f hf
    obtain ⟨c, -, rfl⟩ := hactor a ha
    obtain ⟨e, -, rfl⟩ := List.mem_map.mp hf
    rfl

/-- A script in which a name is declared twice and first seen as the second of them. -/
def Script.namesakes : Script where
  characters := [⟨"ann", "Ann"⟩, ⟨"bob", "Bob"⟩, ⟨"ann", "Anna"⟩]
  states := [
    ⟨none, [.absent, .present "calm", .entering "fade" "happy"], [], none, .dismiss 1⟩,
    ⟨some "beach", [.exiting "fade" "sad", .absent, .present "happy"], [], none, .dismiss 0⟩]

theorem Blueprint.ofScript_namesakes : ∃ b, ofScript .namesakes = .ok b := by
  obtain ⟨l, hl⟩ := Option.isSome_iff_exists.mp (by decide : Script.namesakes.ledger?.isSome)
  exact ⟨_, ofScript_eq_ok.mpr ⟨by decide, l, hl, rfl⟩⟩

/-- Bob comes before Ann, who is called Anna as in the slot first seen. -/
theorem Blueprint.page_in_order_of_discovery_namesakes : ∃ b, ofScript .namesakes = .ok b ∧
    FirstUses Script.namesakes.NameAt ["bob", "ann"] ∧
    (∃ p q, Script.namesakes.SeenAt p ⟨"ann", "Anna"⟩ q ∧ ∀ p', Script.namesakes.NameAt p' "ann" → p ≤ p') ∧
    FirstUses (Script.namesakes.EmoteAt "ann") ["happy", "sad"] ∧ b.assets.Nodup := by
  obtain ⟨b, hb⟩ := ofScript_namesakes
  obtain ⟨-, l, -, rfl⟩ := ofScript_eq_ok.mp hb
  obtain ⟨-, hnames, hactors, -, -, -, hnodup, -⟩ := page_in_order_of_discovery hb
  have hann : Page.actor .namesakes (Script.namesakes.naming l) ⟨"ann", "Anna"⟩ ∈ (draw .namesakes l).page.actors :=
    List.mem_map_of_mem (by decide : ⟨"ann", "Anna"⟩ ∈ Script.namesakes.cast)
  obtain ⟨hfirst, hemotes⟩ := hactors _ hann
  exact ⟨_, hb, hnames, hfirst, hemotes, hnodup⟩

end SkitPage
