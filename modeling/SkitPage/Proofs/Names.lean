import Mathlib.Data.List.Nodup
import Mathlib.Data.List.Range
import SkitPage.Page.Naming

/-!
# Names tell apart what they name

A name is a number in letters, and the number can be read back (`Name.value_letters`), so different
numbers have different names. A name table gives a key the number of its first look-up
(`NameTable.nameOf_inj`), and a ledger gives each role a key of its own as long as its count does not
overflow (`Ledger.Numbered`). Together: on the page of a script no two elements share an id, and no two
marks share a class (`Script.naming_id_inj`, `Script.naming_className_inj`).

Key definitions: `Name.value`, `Ledger.Numbered`.
Key theorems: `Name.ofNumber_injective`, `NameTable.nameOf_inj`, `Ledger.nameOf_key_inj`,
`Script.naming_id_inj`, `Script.naming_className_inj`.
-/

namespace SkitPage

/-! ### Letters -/

namespace Name

/-- The number that letters stand for, digit by digit. -/
def value (cs : List Char) : Nat := cs.foldl (fun v c => 26 * v + (c.toNat - 'a'.toNat)) 0

theorem value_append_singleton (cs : List Char) (c : Char) :
    value (cs ++ [c]) = 26 * value cs + (c.toNat - 'a'.toNat) := by
  simp [value]

theorem toNat_letter {d : Nat} (h : d < 26) : (letter d).toNat = 'a'.toNat + d := by
  have : ∀ d < 26, (letter d).toNat = 'a'.toNat + d := by decide
  exact this d h

/-- The letters of a number can be read back. -/
theorem value_letters (n : Nat) : value (letters n) = n := by
  induction n using Nat.strongRecOn with
  | ind n ih =>
    rw [letters]
    by_cases h : n < 26
    · rw [if_pos h]
      simp [value, toNat_letter h]
    · rw [if_neg h, value_append_singleton, ih (n / 26) (by omega), toNat_letter (by omega)]
      omega

theorem letters_injective : Function.Injective letters :=
  Function.LeftInverse.injective value_letters

theorem ofNumber_injective : Function.Injective ofNumber := by
  intro m n h
  exact letters_injective (String.ofList_injective h)

end Name

/-! ### Tables -/

namespace NameTable

variable {κ : Type} [DecidableEq κ]

theorem mem_register {t : NameTable κ} {k k' : κ} :
    k' ∈ (t.register k).keys ↔ k' = k ∨ k' ∈ t.keys := by
  unfold register
  split
  · rename_i h
    exact ⟨Or.inr, fun h' => h'.elim (fun e => e ▸ h) id⟩
  · simp [or_comm]

theorem mem_foldl_register {k : κ} : ∀ (ks : List κ) (t : NameTable κ),
    k ∈ (ks.foldl register t).keys ↔ k ∈ ks ∨ k ∈ t.keys
  | [], t => by simp
  | k' :: ks, t => by
    rw [List.foldl_cons, mem_foldl_register ks, mem_register, List.mem_cons]
    tauto

@[simp]
theorem mem_ofKeys {ks : List κ} {k : κ} : k ∈ (ofKeys ks).keys ↔ k ∈ ks := by
  simp [ofKeys, mem_foldl_register, empty]

/-- A key in a table shares its name with no other key. -/
theorem nameOf_inj {t : NameTable κ} {k k' : κ} (h : k ∈ t.keys) :
    t.nameOf k = t.nameOf k' ↔ k = k' := by
  unfold nameOf
  rw [Name.ofNumber_injective.eq_iff, List.idxOf_inj h]

end NameTable

/-! ### Keys -/

namespace Ledger

/-- The keys are numbered in the order of the entries, and their count is right. -/
structure Numbered (l : Ledger) : Prop where
  /-- The source has counted every entry. -/
  count : l.source.issued.toNat = l.entries.length
  /-- The key of the entry at position `i` is number `i`. -/
  numbers : l.entries.map (fun e => e.2.number.toNat) = List.range l.entries.length

/-- What taking note can do: nothing, or one new entry with the next key. -/
theorem note?_cases {l l' : Ledger} {r : Role} (h : l.note? r = some l') :
    ((∃ k, l.entries.lookup r = some k) ∧ l' = l) ∨
      (l.entries.lookup r = none ∧ l.source.issued + 1 ≠ 0 ∧
        l' = ⟨⟨l.source.issued + 1⟩, l.entries ++ [(r, ⟨l.source.issued⟩)]⟩) := by
  unfold note? at h
  split at h
  · rename_i k hk
    exact Or.inl ⟨⟨k, hk⟩, (Option.some.inj h).symm⟩
  · rename_i hn
    unfold KeySource.next? at h
    split at h
    · simp at h
    · rename_i h0
      exact Or.inr ⟨hn, h0, by simpa using h.symm⟩

theorem note?_numbered {l l' : Ledger} {r : Role} (hl : l.Numbered) (h : l.note? r = some l') :
    l'.Numbered := by
  obtain ⟨-, rfl⟩ | ⟨-, h0, rfl⟩ := note?_cases h
  · exact hl
  · refine ⟨?_, ?_⟩
    · have hlt := l.source.issued.toNat_lt
      have hne : (l.source.issued + 1).toNat ≠ 0 := fun e => h0 (UInt32.toNat_inj.mp e)
      simp only [UInt32.toNat_add, UInt32.toNat_one, List.length_append, List.length_singleton] at hne ⊢
      rw [← hl.count]
      omega
    · simp [hl.numbers, hl.count, List.range_succ]

/-- A role that has a key keeps it. -/
theorem note?_lookup {l l' : Ledger} {r r' : Role} {k : Key} (h : l.note? r = some l')
    (hk : l.entries.lookup r' = some k) : l'.entries.lookup r' = some k := by
  obtain ⟨-, rfl⟩ | ⟨-, -, rfl⟩ := note?_cases h
  · exact hk
  · simp [List.lookup_append, hk]

theorem note?_noted {l l' : Ledger} {r : Role} (h : l.note? r = some l') :
    (l'.entries.lookup r).isSome := by
  obtain ⟨⟨k, hk⟩, rfl⟩ | ⟨hn, -, rfl⟩ := note?_cases h
  · simp only [hk, Option.isSome_some]
  · simp only [List.lookup_append, hn, Option.none_or, List.lookup_cons_self, Option.isSome_some]

/-- A run of notes keeps the numbering and every key, and gives each role of the list a key. -/
theorem foldlM_note? : ∀ (rs : List Role) {l l' : Ledger}, l.Numbered → rs.foldlM note? l = some l' →
    l'.Numbered ∧ (∀ r k, l.entries.lookup r = some k → l'.entries.lookup r = some k) ∧
      ∀ r ∈ rs, (l'.entries.lookup r).isSome
  | [], l, l', hl, h => by
    obtain rfl : l = l' := by simpa using h
    exact ⟨hl, fun _ _ hk => hk, fun _ hr => by simp at hr⟩
  | r :: rs, l, l', hl, h => by
    rw [List.foldlM_cons] at h
    obtain ⟨m, hm, h⟩ := Option.bind_eq_some_iff.mp h
    obtain ⟨hn, hkeep, hall⟩ := foldlM_note? rs (note?_numbered hl hm) h
    refine ⟨hn, fun r' k hk => hkeep r' k (note?_lookup hm hk), fun r' hr' => ?_⟩
    rcases List.mem_cons.mp hr' with rfl | hr'
    · obtain ⟨k, hk⟩ := Option.isSome_iff_exists.mp (note?_noted hm)
      exact Option.isSome_iff_exists.mpr ⟨k, hkeep _ k hk⟩
    · exact hall r' hr'

theorem numbered_empty : Numbered {} := ⟨rfl, rfl⟩

theorem Numbered.of_roles {rs : List Role} {l : Ledger} (h : ofRoles? rs = some l) : l.Numbered :=
  (foldlM_note? rs numbered_empty h).1

theorem noted_of_mem {rs : List Role} {l : Ledger} (h : ofRoles? rs = some l) {r : Role} (hr : r ∈ rs) :
    (l.entries.lookup r).isSome :=
  (foldlM_note? rs numbered_empty h).2.2 r hr

/-- An entry is found again by the number of its key. -/
theorem Numbered.entry_at {l : Ledger} (h : l.Numbered) {r : Role} {k : Key}
    (hk : l.entries.lookup r = some k) : l.entries[k.number.toNat]? = some (r, k) := by
  obtain ⟨l₁, l₂, he, -⟩ := List.lookup_eq_some_iff.mp hk
  have hnum := congrArg (fun ns => ns[l₁.length]?) h.numbers
  simp only [he, List.map_append, List.map_cons] at hnum
  have : k.number.toNat = l₁.length := by
    simpa [List.getElem?_range] using hnum
  rw [this, he]
  simp

/-- Different roles have different keys. -/
theorem Numbered.key_inj {l : Ledger} (h : l.Numbered) {r r' : Role} (hr : (l.entries.lookup r).isSome)
    (hr' : (l.entries.lookup r').isSome) (he : l.key r = l.key r') : r = r' := by
  obtain ⟨k, hk⟩ := Option.isSome_iff_exists.mp hr
  obtain ⟨k', hk'⟩ := Option.isSome_iff_exists.mp hr'
  obtain rfl : k = k' := by simpa [key, hk, hk'] using he
  have := (h.entry_at hk).symm.trans (h.entry_at hk')
  simpa using this

/-- Things that play different roles, all of them in the ledger, have different names in the table of their
keys. -/
theorem nameOf_key_inj {rs : List Role} {l : Ledger} (h : ofRoles? rs = some l) {α : Type} {role : α → Role}
    (hrole : Function.Injective role) {order : List α} (hall : ∀ a ∈ order, role a ∈ rs) {a a' : α}
    (ha : a ∈ order) (ha' : a' ∈ order) :
    (NameTable.ofKeys (order.map fun x => l.key (role x))).nameOf (l.key (role a)) =
      (NameTable.ofKeys (order.map fun x => l.key (role x))).nameOf (l.key (role a')) ↔ a = a' := by
  refine ⟨fun he => hrole ?_, fun he => he ▸ rfl⟩
  have hkey := (NameTable.nameOf_inj (NameTable.mem_ofKeys.mpr (List.mem_map.mpr ⟨a, ha, rfl⟩))).mp he
  exact (Numbered.of_roles h).key_inj (noted_of_mem h (hall a ha)) (noted_of_mem h (hall a' ha')) hkey

end Ledger

/-! ### What a script needs is in its ledger -/

theorem length_filter_lt {α : Type} (p : α → Bool) (x : α) (xs : List α) :
    (xs.filter p).length < (x :: xs).length :=
  Nat.lt_succ_of_le (List.length_filter_le p xs)

/-- One representative for each value of `f`, in order of first occurrence. -/
theorem map_eraseDupsBy {α β : Type} [BEq β] [LawfulBEq β] (f : α → β) (xs : List α) :
    (xs.eraseDupsBy fun a b => f a == f b).map f = (xs.map f).eraseDups := by
  induction hn : xs.length using Nat.strongRecOn generalizing xs with
  | ind n ih =>
    cases xs with
    | nil => rfl
    | cons x xs =>
      have hlt : (xs.filter fun b => (f b == f x) = false).length < n := hn ▸ length_filter_lt _ x xs
      rw [List.eraseDupsBy_cons, List.map_cons, List.map_cons, List.eraseDups_cons, ih _ hlt _ rfl,
        List.filter_map]
      simp [Function.comp_def]

theorem nodup_eraseDups {α : Type} [BEq α] [LawfulBEq α] (xs : List α) : xs.eraseDups.Nodup := by
  induction hn : xs.length using Nat.strongRecOn generalizing xs with
  | ind n ih =>
    cases xs with
    | nil => simp
    | cons x xs =>
      rw [List.eraseDups_cons, List.nodup_cons]
      exact ⟨by simp [List.mem_eraseDups], ih _ (hn ▸ length_filter_lt _ x xs) _ rfl⟩

namespace Script

variable {s : Script}

theorem mem_backgrounds {b : String} : b ∈ s.backgrounds ↔ ∃ st ∈ s.states, st.background = some b := by
  simp [backgrounds]

theorem map_normalized_cast : s.cast.map (·.normalized) = (s.appearances.map Appearance.name).eraseDups := by
  unfold cast
  rw [map_eraseDupsBy, List.map_map]
  rfl

theorem mem_emotes {c e : String} : e ∈ s.emotes c ↔ ∃ a ∈ s.appearances, a.name = c ∧ a.emote = e := by
  simp [emotes, Appearance.name, and_assoc]

theorem emotes_eq (c : String) : s.emotes c =
    (s.appearances.filterMap fun a => if a.name = c then some a.emote else none).eraseDups := by
  rw [emotes, ← List.filterMap_eq_map, List.filterMap_filter]
  simp only [beq_iff_eq]
  rfl

/-- Whoever is in the cast appears somewhere. -/
theorem exists_appearance {c : Character} (h : c ∈ s.cast) : ∃ a ∈ s.appearances, a.name = c.normalized := by
  have : c.normalized ∈ s.cast.map (·.normalized) := List.mem_map_of_mem h
  rw [map_normalized_cast, List.mem_eraseDups] at this
  simpa using this

/-- Whoever appears is in the cast. -/
theorem exists_cast {a : Appearance} (h : a ∈ s.appearances) : ∃ c ∈ s.cast, c.normalized = a.name := by
  have hmem : a.name ∈ s.cast.map (·.normalized) := by
    rw [map_normalized_cast, List.mem_eraseDups]
    exact List.mem_map_of_mem h
  simpa using hmem

theorem mem_roles_of_state {i : Nat} {st : State} (h : s.states[i]? = some st) {r : Role}
    (hr : r ∈ st.roles s.characters i) : r ∈ s.roles := by
  refine List.mem_cons_of_mem _ (List.mem_flatMap.mpr ⟨(st, i), ?_, hr⟩)
  exact List.mem_zipIdx_iff_getElem?.mpr h

theorem mem_roles_of_background {b : String} (h : b ∈ s.backgrounds) {r : Role}
    (hr : r ∈ State.backgroundRoles b) : r ∈ s.roles := by
  obtain ⟨st, hst, hb⟩ := mem_backgrounds.mp h
  obtain ⟨i, hi⟩ := List.mem_iff_getElem?.mp hst
  refine mem_roles_of_state hi ?_
  simp [State.roles, hb, hr]

theorem mem_roles_of_appearance {a : Appearance} (h : a ∈ s.appearances) {r : Role} (hr : r ∈ a.roles) :
    r ∈ s.roles := by
  obtain ⟨st, hst, ha⟩ := List.mem_flatMap.mp h
  obtain ⟨i, hi⟩ := List.mem_iff_getElem?.mp hst
  refine mem_roles_of_state hi ?_
  simp only [State.roles, List.mem_append, List.mem_flatMap]
  exact Or.inl (Or.inr ⟨a, ha, hr⟩)

theorem mem_pageStates {st : State} {i : Nat} : (st, i) ∈ s.pageStates ↔ s.states[i]? = some st := by
  have : ∀ xs : List (State × Nat), (st, i) ∈ initialLast xs ↔ (st, i) ∈ xs := by
    intro xs
    cases xs <;> simp [initialLast, or_comm]
  rw [pageStates, this, List.mem_zipIdx_iff_getElem?]

/-- Every element of the page was needed in the walk. -/
theorem element_mem_roles {e : Entity} (h : e ∈ s.elementOrder) : .element e ∈ s.roles := by
  simp only [elementOrder, List.mem_append, List.mem_map, List.mem_flatMap, List.mem_cons] at h
  obtain (⟨⟨st, i⟩, hst, rfl⟩ | ⟨b, hb, rfl⟩) | ⟨c, hc, rfl | ⟨e, he, rfl⟩⟩ := h
  · exact mem_roles_of_state (mem_pageStates.mp hst) (by simp [State.roles])
  · exact mem_roles_of_background hb (by simp [State.backgroundRoles])
  · obtain ⟨a, ha, hn⟩ := exists_appearance hc
    exact mem_roles_of_appearance ha (by simp [Appearance.roles, hn])
  · obtain ⟨a, ha, hn, rfl⟩ := mem_emotes.mp he
    exact mem_roles_of_appearance ha (by simp [Appearance.roles, hn])

end Script

theorem State.mem_marks {declared : List Character} {st : State} {m : Mark} :
    m ∈ st.marks declared ↔ m = .states ∨ (∃ b, st.background = some b ∧ m = .background b) ∨
      ∃ a ∈ st.appearances declared, m ∈ a.marks := by
  simp [State.marks, eq_comm]

theorem Appearance.mem_marks {a : Appearance} {m : Mark} :
    m ∈ a.marks ↔ m = .presence a.name ∨ (∃ v, a.motion = some v ∧ m = .motion a.name v) ∨
      m = .emote a.name a.emote := by
  cases h : a.motion <;> simp [Appearance.marks, h]

namespace Script

variable {s : Script}

theorem mark_mem_roles_of_state {st : State} (hst : st ∈ s.states) {m : Mark}
    (h : m ∈ st.marks s.characters) : .mark m ∈ s.roles := by
  obtain rfl | ⟨b, hb, rfl⟩ | ⟨a, ha, hm⟩ := State.mem_marks.mp h
  · exact List.mem_cons_self ..
  · exact mem_roles_of_background (mem_backgrounds.mpr ⟨st, hst, hb⟩) (by simp [State.backgroundRoles])
  · refine mem_roles_of_appearance (List.mem_flatMap.mpr ⟨st, hst, ha⟩) ?_
    obtain rfl | ⟨v, hv, rfl⟩ | rfl := Appearance.mem_marks.mp hm
    · simp [Appearance.roles]
    · simp [Appearance.roles, hv]
    · simp [Appearance.roles]

/-- Every mark of the page was needed in the walk. -/
theorem mark_mem_roles {m : Mark} (h : m ∈ s.markOrder) : .mark m ∈ s.roles := by
  simp only [markOrder, List.mem_append, List.mem_flatMap] at h
  obtain (⟨⟨st, i⟩, hst, hm⟩ | hm) | hm := h
  · exact mark_mem_roles_of_state (List.mem_of_getElem? (mem_pageStates.mp hst)) hm
  · split at hm
    · simp at hm
    · rename_i hne
      obtain ⟨b, hb⟩ := List.exists_mem_of_ne_nil _ (by simpa using hne)
      refine mem_roles_of_background hb ?_
      simp_all [State.backgroundRoles]
  · split at hm
    · simp at hm
    · rename_i hne
      obtain ⟨c, hc⟩ := List.exists_mem_of_ne_nil _ (by simpa using hne)
      obtain ⟨a, ha, -⟩ := exists_appearance hc
      refine mem_roles_of_appearance ha ?_
      simp only [List.mem_cons, List.not_mem_nil, or_false] at hm
      obtain rfl | rfl := hm <;> simp [Appearance.roles]

/-! ### Names on the page -/

variable {l : Ledger}

/-- No two elements of a page have the same id. -/
theorem naming_id_inj (hl : s.ledger? = some l) {e e' : Entity} (he : e ∈ s.elementOrder)
    (he' : e' ∈ s.elementOrder) : (s.naming l).id e = (s.naming l).id e' ↔ e = e' :=
  Ledger.nameOf_key_inj hl (fun _ _ => Role.element.inj) (fun _ => element_mem_roles) he he'

/-- No two marks of a page have the same class. -/
theorem naming_className_inj (hl : s.ledger? = some l) {m m' : Mark} (hm : m ∈ s.markOrder)
    (hm' : m' ∈ s.markOrder) : (s.naming l).className m = (s.naming l).className m' ↔ m = m' :=
  Ledger.nameOf_key_inj hl (fun _ _ => Role.mark.inj) (fun _ => mark_mem_roles) hm hm'

end Script

end SkitPage
