import SkitPage.Proofs.DenseNames
import SkitPage.Proofs.Faults
import SkitPage.Proofs.Maps

/-!
# What a walk over a script finds

A walk goes through the states of a script once. It looks each character up by its slot, and what it finds
by a position that is kept for each name (`Registry`); on its way it checks each state. Here a position may
be out of range, and the walk then stops.

It never does. The positions in a registry are those of its entries (`Registry.Sound`), and the presences
of a state are counted before their slots are looked up. So a visit refuses a state for its fault or finds
what is in it (`Findings.visit_eq`), and the walk refuses the states for their first fault or finds the
backgrounds, the characters and their emotes in order of first use (`Findings.foldlM_visit`).

Key definitions: `Stop`, `fetch`, `Registry`, `Finding`, `Findings.visit`, `Findings.Holds`.
Key theorems: `Registry.Sound.find_eq`, `Registry.Shows.appear`, `Findings.visit_eq`,
`Findings.foldlM_visit`.
-/

namespace SkitPage

/-! ### Positions and names -/

/-- Why a reading by position stops. -/
inductive Stop
  | refused (error : ScriptError)
  | outOfRange
deriving DecidableEq, Repr

/-- The item at a position. -/
def fetch {α : Type} (xs : List α) (i : Nat) : Except Stop α :=
  match xs[i]? with
  | some x => .ok x
  | none => .error .outOfRange

/-- Things in the order in which they are found, and the position of each by its name. -/
structure Registry (α : Type) where
  entries : List α := []
  positions : List (String × Nat) := []

namespace Registry

variable {α : Type}

/-- The thing with a name and its position; if there is none, `new` is entered. -/
def find (r : Registry α) (name : String) (new : α) : Except Stop (Registry α × Nat × α) :=
  match r.positions.lookup name with
  | some i => do return (r, i, ← fetch r.entries i)
  | none =>
    let grown : Registry α := ⟨r.entries ++ [new], (name, r.entries.length) :: r.positions⟩
    do return (grown, r.entries.length, ← fetch grown.entries r.entries.length)

/-- The registry with another thing at a position. -/
def replace (r : Registry α) (i : Nat) (a : α) : Registry α := { r with entries := r.entries.set i a }

/-- The registry of names in which a name is entered. -/
def enter (r : Registry String) (name : String) : Except Stop (Registry String) := do
  let (r, _, _) ← r.find name name
  return r

/-- The positions are those of the entries, each by its name. -/
def Sound (key : α → String) (r : Registry α) : Prop :=
  ∀ name i, r.positions.lookup name = some i ↔ r.entries[i]?.map key = some name

theorem sound_empty (key : α → String) : ({} : Registry α).Sound key := by
  intro name i
  simp

section

variable {key : α → String} {r : Registry α} {i : Nat} {a b : α} (h : r.Sound key)
include h

theorem Sound.mem_iff {name : String} : name ∈ r.entries.map key ↔ ∃ i, r.positions.lookup name = some i := by
  simp only [h name, List.mem_iff_getElem?, List.getElem?_map]

/-- No two entries have the same name. -/
theorem Sound.position_inj {j : Nat} (ha : r.entries[i]? = some a) (hb : r.entries[j]? = some b)
    (hkey : key b = key a) : i = j := by
  have hi : r.positions.lookup (key a) = some i := (h _ _).mpr (by rw [ha, Option.map_some])
  have hj : r.positions.lookup (key a) = some j := (h _ _).mpr (by rw [hb, Option.map_some, hkey])
  exact Option.some.inj (hi.symm.trans hj)

theorem Sound.eq_of_key (ha : r.entries[i]? = some a) (hb : b ∈ r.entries) (hkey : key b = key a) :
    b = a := by
  obtain ⟨j, hj⟩ := List.mem_iff_getElem?.mp hb
  obtain rfl := h.position_inj ha hj hkey
  exact Option.some.inj (hj.symm.trans ha)

theorem Sound.replace (ha : r.entries[i]? = some a) (hb : key b = key a) : (r.replace i b).Sound key := by
  intro name j
  rw [Registry.replace, h name j, List.getElem?_set]
  by_cases hij : i = j
  · subst hij
    rw [if_pos rfl, if_pos (List.getElem?_eq_some_iff.mp ha).1, ha, Option.map_some, Option.map_some, hb]
  · rw [if_neg hij]

theorem Sound.entries_replace (ha : r.entries[i]? = some a) :
    (r.replace i b).entries = r.entries.map fun x => if key x = key a then b else x := by
  refine List.ext_getElem? fun j => ?_
  rw [Registry.replace, List.getElem?_set, List.getElem?_map]
  by_cases hij : i = j
  · subst hij
    rw [if_pos rfl, if_pos (List.getElem?_eq_some_iff.mp ha).1, ha, Option.map_some, if_pos rfl]
  · rw [if_neg hij]
    cases hx : r.entries[j]? with
    | none => rfl
    | some x => rw [Option.map_some, if_neg fun heq => hij (h.position_inj ha hx heq)]

theorem Sound.grow {name : String} {new : α} (hnew : key new = name) (hnot : name ∉ r.entries.map key) :
    Sound key ⟨r.entries ++ [new], (name, r.entries.length) :: r.positions⟩ := by
  intro name' j
  rw [OrderedMap.lookup_cons_ite, List.getElem?_append]
  by_cases hname : name' = name
  · subst hname
    rw [if_pos rfl]
    split
    · rename_i hlt
      refine ⟨fun hj => absurd (Option.some.inj hj) (Nat.ne_of_gt hlt), fun hj => absurd ?_ hnot⟩
      rw [← List.getElem?_map] at hj
      exact List.mem_of_getElem? hj
    · rename_i hge
      rw [List.getElem?_singleton]
      split
      · rename_i hzero
        simp [hnew]
        omega
      · rename_i hpos
        simp
        omega
  · rw [if_neg hname, h name' j]
    split
    · rfl
    · rename_i hge
      rw [List.getElem?_eq_none (Nat.le_of_not_lt hge), List.getElem?_singleton]
      split
      · simp [hnew, Ne.symm hname]
      · rfl

/-- Every position that a sound registry gives is the position of an entry. -/
theorem Sound.find_eq (name : String) {new : α} (hnew : key new = name) :
    ∃ r' i a, r.find name new = .ok (r', i, a) ∧ r'.Sound key ∧ r'.entries[i]? = some a ∧ key a = name ∧
      r'.entries = if name ∈ r.entries.map key then r.entries else r.entries ++ [new] := by
  unfold find
  cases hi : r.positions.lookup name with
  | some i =>
    obtain ⟨a, ha, hkey⟩ := Option.map_eq_some_iff.mp ((h name i).mp hi)
    refine ⟨r, i, a, ?_, h, ha, hkey, ?_⟩
    · simp [fetch, ha, bind, Except.bind, pure, Except.pure]
    · rw [if_pos (h.mem_iff.mpr ⟨i, hi⟩)]
  | none =>
    have hnot : name ∉ r.entries.map key := by
      intro hmem
      obtain ⟨i, hi'⟩ := h.mem_iff.mp hmem
      rw [hi] at hi'
      cases hi'
    refine ⟨_, r.entries.length, new, ?_, h.grow hnew hnot, by simp, hnew, by rw [if_neg hnot]⟩
    simp [fetch, bind, Except.bind, pure, Except.pure]

end

/-- Enter a name in a registry of names. -/
theorem Sound.enter_eq {r : Registry String} (h : r.Sound id) (name : String) :
    ∃ r', r.enter name = .ok r' ∧ r'.Sound id ∧
      r'.entries = if name ∈ r.entries then r.entries else r.entries ++ [name] := by
  obtain ⟨r', i, a, hfind, hsound, -, -, hentries⟩ := h.find_eq name rfl
  refine ⟨r', ?_, hsound, by simpa using hentries⟩
  rw [enter, hfind]
  rfl

end Registry

/-! ### Reading a script by position -/

/-- A character as it is found: where it is declared, and what it does. -/
structure Finding where
  slot : Nat
  entries : Registry String := {}
  exits : Registry String := {}
  emotes : Registry String := {}

namespace Finding

/-- The finding after a motion. -/
def move (f : Finding) : Option Motion → Except Stop Finding
  | none => .ok f
  | some ⟨.entry, a⟩ => do return { f with entries := ← f.entries.enter a }
  | some ⟨.exit, a⟩ => do return { f with exits := ← f.exits.enter a }

/-- The finding after an appearance. -/
def appear (f : Finding) (motion : Option Motion) (emote : String) : Except Stop Finding := do
  let f ← f.move motion
  return { f with emotes := ← f.emotes.enter emote }

/-- The character that a finding is of. -/
def character? (declared : List Character) (f : Finding) : Option Character := declared[f.slot]?

/-- The name by which a finding is found. -/
def name (declared : List Character) (f : Finding) : String :=
  ((f.character? declared).map (·.normalized)).getD ""

/-- The positions that a finding keeps are those of its names. -/
structure Sound (f : Finding) : Prop where
  entries : f.entries.Sound id
  exits : f.exits.Sound id
  emotes : f.emotes.Sound id

theorem Sound.move_eq {f : Finding} (h : f.Sound) (motion : Option Motion) :
    ∃ f', f.move motion = .ok f' ∧ f'.Sound ∧ f'.slot = f.slot ∧ f'.emotes = f.emotes := by
  match motion with
  | none => exact ⟨f, rfl, h, rfl, rfl⟩
  | some ⟨.entry, a⟩ =>
    obtain ⟨r, hr, hsound, -⟩ := h.entries.enter_eq a
    exact ⟨{ f with entries := r }, by rw [move, hr]; rfl, ⟨hsound, h.exits, h.emotes⟩, rfl, rfl⟩
  | some ⟨.exit, a⟩ =>
    obtain ⟨r, hr, hsound, -⟩ := h.exits.enter_eq a
    exact ⟨{ f with exits := r }, by rw [move, hr]; rfl, ⟨h.entries, hsound, h.emotes⟩, rfl, rfl⟩

theorem Sound.appear_eq {f : Finding} (h : f.Sound) (motion : Option Motion) (emote : String) :
    ∃ f', f.appear motion emote = .ok f' ∧ f'.Sound ∧ f'.slot = f.slot ∧
      f'.emotes.entries =
        if emote ∈ f.emotes.entries then f.emotes.entries else f.emotes.entries ++ [emote] := by
  obtain ⟨f₁, hf₁, hsound, hslot, hemotes⟩ := h.move_eq motion
  obtain ⟨r, hr, hrsound, hentries⟩ := hsound.emotes.enter_eq emote
  refine ⟨{ f₁ with emotes := r }, ?_, ⟨hsound.entries, hsound.exits, hrsound⟩, hslot, ?_⟩
  · rw [appear, hf₁]
    dsimp only [bind, Except.bind]
    rw [hr]
    rfl
  · rw [← hemotes]
    exact hentries

end Finding

/-- What is found in the states of a script. -/
structure Findings where
  backgrounds : Registry String := {}
  characters : Registry Finding := {}

namespace Findings

/-- The findings after a background. -/
def paint (fs : Findings) : Option String → Except Stop Findings
  | none => .ok fs
  | some name => do return { fs with backgrounds := ← fs.backgrounds.enter name }

/-- The findings after the presence in a slot. -/
def meet (declared : List Character) (fs : Findings) (p : Presence × Nat) : Except Stop Findings :=
  match p.1.emote? with
  | none => .ok fs
  | some emote => do
    let c ← fetch declared p.2
    let (characters, i, f) ← fs.characters.find c.normalized { slot := p.2 }
    return { fs with characters := characters.replace i (← f.appear p.1.motion? emote) }

/-- A target has to be a state. -/
def inRange (index count target : Nat) : Except Stop Unit :=
  if target < count then .ok () else .error (.refused (.targetOutOfRange index target count))

/-- The findings after the state at a position. -/
def visit (declared : List Character) (count : Nat) (fs : Findings) (p : State × Nat) :
    Except Stop Findings := do
  let fs ← fs.paint p.1.background
  if p.1.presences.length ≠ declared.length then
    .error (.refused (.presenceCount p.2 p.1.presences.length declared.length))
  else
    let fs ← p.1.presences.zipIdx.foldlM (meet declared) fs
    p.1.interaction.targets.forM (inRange p.2 count)
    return fs

end Findings

/-! ### What is found -/

/-- The characters in appearances, in order of the first. -/
def castOf (as : List Appearance) : List Character :=
  (as.map (·.character)).eraseDupsBy fun a b => a.normalized == b.normalized

/-- The emotes of a character in appearances, in order of first use. -/
def emotesOf (as : List Appearance) (name : String) : List String :=
  ((as.filter fun a => a.character.normalized == name).map (·.emote)).eraseDups

theorem eraseDupsBy_concat {α β : Type} [DecidableEq β] (f : α → β) (xs : List α) (x : α) :
    (xs ++ [x]).eraseDupsBy (fun a b => f a == f b) =
      if f x ∈ xs.map f then xs.eraseDupsBy (fun a b => f a == f b)
      else xs.eraseDupsBy (fun a b => f a == f b) ++ [x] := by
  induction hn : xs.length using Nat.strongRecOn generalizing xs with
  | ind n ih =>
    cases xs with
    | nil => simp [List.eraseDupsBy_cons]
    | cons a xs =>
      have hlt : (xs.filter fun b => (f b == f a) = false).length < n := hn ▸ length_filter_lt _ a xs
      rw [List.cons_append, List.eraseDupsBy_cons, List.eraseDupsBy_cons, List.filter_append]
      by_cases hx : f x = f a
      · simp [hx]
      · have hkeep : ([x].filter fun b => (f b == f a) = false) = [x] := by simp [hx]
        have hmem : f x ∈ (xs.filter fun b => (f b == f a) = false).map f ↔ f x ∈ (a :: xs).map f := by
          rw [List.map_cons, List.mem_cons, or_iff_right hx]
          simp only [List.mem_map, List.mem_filter]
          constructor
          · rintro ⟨b, ⟨hb, -⟩, hfb⟩
            exact ⟨b, hb, hfb⟩
          · rintro ⟨b, hb, hfb⟩
            exact ⟨b, ⟨hb, by simp [hfb, hx]⟩, hfb⟩
        rw [hkeep, ih _ hlt _ rfl]
        simp only [hmem]
        split <;> simp

theorem castOf_concat (as : List Appearance) (a : Appearance) :
    castOf (as ++ [a]) =
      if a.name ∈ (castOf as).map (·.normalized) then castOf as else castOf as ++ [a.character] := by
  have hmem : a.name ∈ (castOf as).map (·.normalized) ↔
      a.character.normalized ∈ (as.map (·.character)).map (·.normalized) := by
    rw [castOf, map_eraseDupsBy, List.mem_eraseDups]
    rfl
  simp only [hmem]
  unfold castOf
  rw [List.map_append, List.map_singleton, eraseDupsBy_concat]

theorem emotesOf_concat (as : List Appearance) (a : Appearance) (name : String) :
    emotesOf (as ++ [a]) name =
      if name = a.name then
        if a.emote ∈ emotesOf as name then emotesOf as name else emotesOf as name ++ [a.emote]
      else emotesOf as name := by
  unfold emotesOf
  rw [List.filter_append, List.map_append]
  by_cases hname : name = a.name
  · subst hname
    rw [if_pos rfl, List.filter_cons_of_pos (by simp [Appearance.name]), List.filter_nil, List.map_singleton,
      eraseDups_concat]
    simp only [List.mem_eraseDups]
  · rw [if_neg hname, List.filter_cons_of_neg (by simpa [Appearance.name] using Ne.symm hname)]
    simp

theorem emotesOf_eq_nil {as : List Appearance} {name : String} (h : name ∉ (castOf as).map (·.normalized)) :
    emotesOf as name = [] := by
  rw [castOf, map_eraseDupsBy, List.mem_eraseDups] at h
  have hnil : (as.filter fun a => a.character.normalized == name) = [] := by
    refine List.filter_eq_nil_iff.mpr fun a ha heq => h ?_
    rw [List.map_map]
    exact List.mem_map.mpr ⟨a, ha, by simpa using heq⟩
  rw [emotesOf, hnil]
  rfl

/-- What a finding says of a character. -/
def Finding.view (declared : List Character) (f : Finding) : Option Character × List String :=
  (f.character? declared, f.emotes.entries)

/-- The findings of the characters are those of some appearances. -/
structure Registry.Shows (declared : List Character) (as : List Appearance) (r : Registry Finding) :
    Prop where
  sound : r.Sound (Finding.name declared)
  parts : ∀ f ∈ r.entries, f.Sound
  views : r.entries.map (Finding.view declared) = (castOf as).map fun c => (some c, emotesOf as c.normalized)

namespace Registry.Shows

variable {declared : List Character} {as : List Appearance} {r : Registry Finding} (h : r.Shows declared as)
include h

theorem names : r.entries.map (Finding.name declared) = (castOf as).map (·.normalized) := by
  have hnames := congrArg (List.map fun v => (v.1.map Character.normalized).getD "") h.views
  rw [List.map_map, List.map_map] at hnames
  exact hnames

/-- The findings when a character is looked up for an appearance, of which nothing else is known yet. -/
theorem find_eq {slot : Nat} {a : Appearance} (ha : declared[slot]? = some a.character) :
    ∃ r' i f, r.find a.name { slot := slot } = .ok (r', i, f) ∧ r'.Sound (Finding.name declared) ∧
      (∀ f ∈ r'.entries, f.Sound) ∧ r'.entries[i]? = some f ∧ f.name declared = a.name ∧
      r'.entries.map (Finding.view declared) =
        (castOf (as ++ [a])).map fun c => (some c, emotesOf as c.normalized) := by
  have hnew : Finding.name declared { slot := slot } = a.name := by
    simp [Finding.name, Finding.character?, ha, Appearance.name]
  obtain ⟨r', i, f, hfind, hsound, hf, hname, hentries⟩ := h.sound.find_eq a.name hnew
  rw [h.names] at hentries
  refine ⟨r', i, f, hfind, hsound, ?_, hf, hname, ?_⟩
  · rw [hentries]
    split
    · exact h.parts
    · have hnone : Finding.Sound { slot := slot } := ⟨sound_empty _, sound_empty _, sound_empty _⟩
      exact List.forall_mem_append.mpr ⟨h.parts, by simpa using hnone⟩
  · rw [hentries, castOf_concat]
    split
    · exact h.views
    · rename_i hnot
      have hnil : emotesOf as a.character.normalized = [] := emotesOf_eq_nil hnot
      rw [List.map_append, List.map_append, h.views, List.map_singleton, List.map_singleton, hnil,
        Finding.view, Finding.character?, ha]

/-- The findings after an appearance. -/
theorem appear {slot : Nat} {a : Appearance} (ha : declared[slot]? = some a.character) :
    ∃ r' i f f', r.find a.name { slot := slot } = .ok (r', i, f) ∧ f.appear a.motion a.emote = .ok f' ∧
      (r'.replace i f').Shows declared (as ++ [a]) := by
  obtain ⟨r', i, f, hfind, hsound, hparts, hf, hname, hviews⟩ := h.find_eq ha
  obtain ⟨f', happear, hf', hslot, hemotes⟩ := (hparts f (List.mem_of_getElem? hf)).appear_eq a.motion a.emote
  have hcharacter : f'.character? declared = f.character? declared := by
    rw [Finding.character?, Finding.character?, hslot]
  have hname' : f'.name declared = f.name declared := by
    rw [Finding.name, Finding.name, hcharacter]
  refine ⟨r', i, f, f', hfind, happear, hsound.replace hf hname', ?_, ?_⟩
  · rw [hsound.entries_replace hf, List.forall_mem_map]
    intro x hx
    split
    · exact hf'
    · exact hparts x hx
  · let enrich (v : Option Character × List String) : Option Character × List String :=
      (v.1, if (v.1.map (·.normalized)).getD "" = a.name then
          if a.emote ∈ v.2 then v.2 else v.2 ++ [a.emote]
        else v.2)
    have hviews' : (r'.replace i f').entries.map (Finding.view declared) =
        (r'.entries.map (Finding.view declared)).map enrich := by
      rw [hsound.entries_replace hf, List.map_map, List.map_map]
      refine List.map_congr_left fun x hx => ?_
      rw [Function.comp_apply, Function.comp_apply]
      split
      · rename_i heq
        obtain rfl := hsound.eq_of_key hf hx heq
        rw [Finding.name] at hname
        simp only [Finding.view, enrich, hcharacter, hemotes]
        rw [if_pos hname]
      · rename_i hne
        rw [hname, Finding.name] at hne
        simp only [Finding.view, enrich]
        rw [if_neg hne]
    rw [hviews', hviews, List.map_map]
    refine List.map_congr_left fun c _ => ?_
    simp only [Function.comp_apply, enrich, emotesOf_concat, Option.map_some, Option.getD_some]

end Registry.Shows

namespace Findings

/-- The findings are those of some states. -/
structure Holds (declared : List Character) (states : List State) (fs : Findings) : Prop where
  sound : fs.backgrounds.Sound id
  backgrounds : fs.backgrounds.entries = (states.filterMap (·.background)).eraseDups
  characters : fs.characters.Shows declared (states.flatMap (·.appearances declared))

variable {declared : List Character} {count : Nat}

theorem holds_empty (declared : List Character) : ({} : Findings).Holds declared [] :=
  ⟨Registry.sound_empty _, rfl, ⟨Registry.sound_empty _, nofun, rfl⟩⟩

theorem paint_eq {fs : Findings} {names : List String} (hsound : fs.backgrounds.Sound id)
    (hnames : fs.backgrounds.entries = names.eraseDups) (background : Option String) :
    ∃ fs', fs.paint background = .ok fs' ∧ fs'.characters = fs.characters ∧ fs'.backgrounds.Sound id ∧
      fs'.backgrounds.entries = (names ++ background.toList).eraseDups := by
  cases background with
  | none => exact ⟨fs, rfl, rfl, hsound, by simpa using hnames⟩
  | some name =>
    obtain ⟨r, hr, hrsound, hentries⟩ := hsound.enter_eq name
    refine ⟨{ fs with backgrounds := r }, by rw [paint, hr]; rfl, rfl, hrsound, ?_⟩
    rw [hentries, hnames, Option.toList_some, eraseDups_concat]
    simp only [List.mem_eraseDups]

theorem meet_eq {fs : Findings} {as : List Appearance} (h : fs.characters.Shows declared as) {slot : Nat}
    {c : Character} (hc : declared[slot]? = some c) (p : Presence) :
    ∃ fs', fs.meet declared (p, slot) = .ok fs' ∧ fs'.backgrounds = fs.backgrounds ∧
      fs'.characters.Shows declared (as ++ (p.emote?.map fun e => ⟨c, p.motion?, e⟩).toList) := by
  unfold meet
  dsimp only
  cases p.emote? with
  | none => exact ⟨fs, rfl, rfl, by simpa using h⟩
  | some emote =>
    obtain ⟨r, i, f, f', hfind, happear, hshows⟩ := h.appear (a := ⟨c, p.motion?, emote⟩) hc
    refine ⟨{ fs with characters := r.replace i f' }, ?_, rfl, hshows⟩
    have hfetch : fetch declared slot = .ok c := by rw [fetch, hc]
    have hfind : fs.characters.find c.normalized { slot := slot } = .ok (r, i, f) := hfind
    have happear : f.appear p.motion? emote = .ok f' := happear
    simp only [hfetch, bind, Except.bind, hfind, happear]
    rfl

/-- The presences of a state and the declared characters that are left are of the same number, so that each
slot has its character. -/
theorem foldlM_meet : ∀ {left : List Character} {presences : List Presence} {slot : Nat} {fs : Findings}
    {as : List Appearance}, declared.drop slot = left → presences.length = left.length →
    fs.characters.Shows declared as →
    ∃ fs', (presences.zipIdx slot).foldlM (meet declared) fs = .ok fs' ∧ fs'.backgrounds = fs.backgrounds ∧
      fs'.characters.Shows declared (as ++ (left.zip presences).filterMap fun (c, p) =>
        p.emote?.map fun e => { character := c, motion := p.motion?, emote := e })
  | [], [], slot, fs, as, _, _, h => ⟨fs, rfl, rfl, by simpa using h⟩
  | c :: left, p :: presences, slot, fs, as, hdrop, hlength, h => by
    have hc : declared[slot]? = some c := by
      rw [← List.head?_drop, hdrop, List.head?_cons]
    have hleft : declared.drop (slot + 1) = left := by
      rw [← List.tail_drop, hdrop, List.tail_cons]
    obtain ⟨fs₁, hmeet, hbackgrounds, hshows⟩ := meet_eq h hc p
    obtain ⟨fs₂, hfold, hbackgrounds', hshows'⟩ := foldlM_meet hleft (Nat.succ.inj hlength) hshows
    refine ⟨fs₂, ?_, hbackgrounds'.trans hbackgrounds, ?_⟩
    · rw [List.zipIdx_cons, List.foldlM_cons, hmeet]
      exact hfold
    · rw [List.append_assoc] at hshows'
      rw [List.zip_cons_cons, List.filterMap_cons]
      cases hp : p.emote? <;> simpa [hp] using hshows'

theorem forM_inRange (index : Nat) : ∀ targets : List Nat,
    targets.forM (inRange index count) = match targets.find? (count ≤ ·) with
      | some t => .error (.refused (.targetOutOfRange index t count))
      | none => .ok ()
  | [] => rfl
  | t :: targets => by
    rw [List.forM, inRange]
    by_cases ht : t < count
    · rw [if_pos ht, List.find?_cons_of_neg (by simpa using ht)]
      exact forM_inRange index targets
    · rw [if_neg ht, List.find?_cons_of_pos (by simpa using ht)]
      rfl

/-- **One state.** A visit refuses the state for its fault, or finds what is in it. -/
theorem visit_eq {fs : Findings} {states : List State} (h : fs.Holds declared states) (count : Nat)
    (st : State) (index : Nat) :
    match st.fault? declared.length count index with
    | some e => fs.visit declared count (st, index) = .error (.refused e)
    | none => ∃ fs', fs.visit declared count (st, index) = .ok fs' ∧ fs'.Holds declared (states ++ [st]) := by
  obtain ⟨fs₁, hpaint, hcharacters, hsound, hbackgrounds⟩ := paint_eq h.sound h.backgrounds st.background
  unfold State.fault?
  by_cases hlength : st.presences.length = declared.length
  · have hshows := hcharacters ▸ h.characters
    obtain ⟨fs₂, hfold, hsame, hshows'⟩ := foldlM_meet (List.drop_zero) hlength hshows
    have hvisit : fs.visit declared count (st, index) =
        st.interaction.targets.forM (inRange index count) >>= fun _ => .ok fs₂ := by
      unfold visit
      dsimp only
      rw [hpaint]
      dsimp only [bind, Except.bind]
      rw [if_neg (not_not.mpr hlength), hfold]
      rfl
    rw [if_neg (not_not.mpr hlength), hvisit, forM_inRange]
    cases st.interaction.targets.find? (count ≤ ·) with
    | some t => rfl
    | none =>
      refine ⟨fs₂, rfl, hsame ▸ hsound, ?_, ?_⟩
      · rw [hsame, hbackgrounds, List.filterMap_append]
        cases hb : st.background <;> simp [hb]
      · simpa [State.appearances] using hshows'
  · rw [if_pos hlength]
    unfold visit
    dsimp only
    rw [hpaint]
    dsimp only [bind, Except.bind]
    rw [if_pos hlength]

/-- **All states.** A walk refuses the states for their first fault, or finds what is in them. -/
theorem foldlM_visit (count : Nat) : ∀ (left : List State) (index : Nat) {fs : Findings}
    {states : List State}, fs.Holds declared states →
    match Script.statesFault? declared.length count index left with
    | some e => (left.zipIdx index).foldlM (visit declared count) fs = .error (.refused e)
    | none => ∃ fs', (left.zipIdx index).foldlM (visit declared count) fs = .ok fs' ∧
        fs'.Holds declared (states ++ left)
  | [], index, fs, states, h => ⟨fs, rfl, by simpa using h⟩
  | st :: left, index, fs, states, h => by
    have hvisit := visit_eq h count st index
    rw [Script.statesFault?, List.zipIdx_cons, List.foldlM_cons]
    cases hst : st.fault? declared.length count index with
    | some e =>
      rw [hst] at hvisit
      rw [Option.some_or, hvisit]
      rfl
    | none =>
      rw [hst] at hvisit
      obtain ⟨fs₁, hfs₁, hholds⟩ := hvisit
      have hleft := foldlM_visit count left (index + 1) hholds
      rw [Option.none_or, hfs₁]
      rw [List.append_assoc] at hleft
      exact hleft

end Findings

end SkitPage
