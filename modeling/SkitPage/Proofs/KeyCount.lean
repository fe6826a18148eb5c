import Mathlib.Data.List.Perm.Subperm
import Mathlib.Logic.Basic
import SkitPage.Proofs.DenseNames
import SkitPage.Proofs.Maps
import SkitPage.Proofs.Refusals

/-!
# How many keys a script takes

A walk over a script gives out keys before it is known which of them will be named. None is given out in vain:
every key is looked up in one of the two tables, for an element or for a mark, and in no more than one
(`Script.keys_perm`). So the keys are as many as the names in both tables.

There are four keys for the kinds of elements, at most three more for each state, and at most five more for each
slot in which someone is seen (`Script.length_eraseDups_roles_le`). A script for which that is less than the keys
that can be counted does not run out of them, and its keys differ from each other
(`Blueprint.keys_accounted`).

Key definitions: `Ledger.keys`, `Script.namedRoles`, `Script.shownSlots`, `Mention.IsIn`.
Key theorems: `Ledger.keys_eq`, `Script.mem_roles_iff`, `Script.keys_perm`,
`Script.length_eraseDups_roles_le`, `Blueprint.keys_accounted`.
-/

namespace SkitPage

/-! ### Keys that were given out -/

namespace Ledger

/-- The keys that were given out, in order. -/
def keys (l : Ledger) : List Key := l.entries.map (·.2)

theorem Numbered.nodup_keys {l : Ledger} (h : l.Numbered) : l.keys.Nodup := by
  have hnumbers : (l.keys.map fun k => k.number.toNat).Nodup := by
    rw [keys, List.map_map]
    exact h.numbers ▸ List.nodup_range
  exact hnumbers.of_map

/-- The invariant of the walk: there is one entry for each role that was needed so far. -/
theorem map_entries_foldlM : ∀ (rs : List Role) {l l' : Ledger} {seen : List Role},
    l.entries.map (·.1) = seen.eraseDups → rs.foldlM note? l = some l' →
    l'.entries.map (·.1) = (seen ++ rs).eraseDups
  | [], l, l', seen, hseen, h => by
    obtain rfl : l = l' := by simpa using h
    rw [List.append_nil, hseen]
  | r :: rs, l, l', seen, hseen, h => by
    rw [List.foldlM_cons] at h
    obtain ⟨m, hm, h⟩ := Option.bind_eq_some_iff.mp h
    have hrest := map_entries_foldlM rs (roles_note? hseen hm) h
    rwa [List.append_assoc] at hrest

variable {rs : List Role} {l : Ledger}

theorem map_entries (h : ofRoles? rs = some l) : l.entries.map (·.1) = rs.eraseDups :=
  map_entries_foldlM rs (show ({} : Ledger).entries.map (·.1) = List.eraseDups [] from rfl) h

/-- A key was given out for a role, and is the key of this role. -/
theorem keys_eq (h : ofRoles? rs = some l) : l.keys = rs.eraseDups.map l.key := by
  have hnodup : (l.entries.map (·.1)).Nodup := by
    rw [map_entries h]
    exact nodup_eraseDups rs
  rw [← map_entries h, keys, List.map_map]
  refine List.map_congr_left fun e he => ?_
  have hlookup : l.entries.lookup e.1 = some e.2 :=
    (OrderedMap.lookup_eq_some_iff fun k v v' hv hv' =>
      congrArg Prod.snd (List.inj_on_of_nodup_map hnodup hv hv' rfl)).mpr he
  rw [Function.comp_apply, key, hlookup]
  rfl

end Ledger

/-! ### Every key is looked up once -/

namespace Script

variable {s : Script} {l : Ledger}

theorem mem_kinds_of_background {b : String} (h : b ∈ s.backgrounds) : .backgrounds ∈ s.kinds := by
  have hne : s.backgrounds ≠ [] := List.ne_nil_of_mem h
  simp [kinds, hne]

theorem mem_kinds_of_cast {c : Character} (h : c ∈ s.cast) : .characters ∈ s.kinds ∧ .emotes ∈ s.kinds := by
  have hne : s.cast ≠ [] := List.ne_nil_of_mem h
  simp [kinds, hne]

/-- The roles that are named in the end: the elements and the marks of the page. -/
def namedRoles (s : Script) : List Role := s.markOrder.map .mark ++ s.elementOrder.map .element

theorem mark_mem_namedRoles {m : Mark} (h : m ∈ s.markOrder) : .mark m ∈ s.namedRoles :=
  List.mem_append_left _ (List.mem_map_of_mem h)

theorem element_mem_namedRoles {e : Entity} (h : e ∈ s.elementOrder) : .element e ∈ s.namedRoles :=
  List.mem_append_right _ (List.mem_map_of_mem h)

theorem background_mem_namedRoles {b : String} (h : b ∈ s.backgrounds) {r : Role}
    (hr : r ∈ State.backgroundRoles b) : r ∈ s.namedRoles := by
  simp only [State.backgroundRoles, List.mem_cons, List.not_mem_nil, or_false] at hr
  obtain rfl | rfl | rfl := hr
  · exact mark_mem_namedRoles (Page.mem_markOrder_of_kind (mem_kinds_of_background h))
  · exact element_mem_namedRoles (background_mem_elementOrder h)
  · exact mark_mem_namedRoles (background_mem_markOrder h)

theorem appearance_mem_namedRoles {a : Appearance} (h : a ∈ s.appearances) {r : Role} (hr : r ∈ a.roles) :
    r ∈ s.namedRoles := by
  obtain ⟨c, hc, hname⟩ := exists_cast h
  have hmarks : ∀ m ∈ a.marks, Role.mark m ∈ s.namedRoles := fun m hm =>
    mark_mem_namedRoles (appearance_mem_markOrder h hm)
  simp only [Appearance.roles, List.mem_append, List.mem_cons, List.not_mem_nil, or_false, Option.mem_toList,
    Option.map_eq_some_iff] at hr
  obtain ((rfl | rfl | rfl) | ⟨v, hv, rfl⟩) | (rfl | rfl | rfl) := hr
  · exact mark_mem_namedRoles (Page.mem_markOrder_of_kind (mem_kinds_of_cast hc).1)
  · exact element_mem_namedRoles (hname ▸ character_mem_elementOrder hc)
  · exact hmarks _ (Appearance.mem_marks.mpr (Or.inl rfl))
  · exact hmarks _ (Appearance.mem_marks.mpr (Or.inr (Or.inl ⟨v, hv, rfl⟩)))
  · exact mark_mem_namedRoles (Page.mem_markOrder_of_kind (mem_kinds_of_cast hc).2)
  · have hemote : a.emote ∈ s.emotes c.normalized := mem_emotes.mpr ⟨a, h, hname.symm, rfl⟩
    exact element_mem_namedRoles (hname ▸ emote_mem_elementOrder hc hemote)
  · exact hmarks _ (Appearance.mem_marks.mpr (Or.inr (Or.inr rfl)))

/-- What the walk needs is what is named in the end. -/
theorem mem_roles_iff (hs : s.states ≠ []) {r : Role} : r ∈ s.roles ↔ r ∈ s.namedRoles := by
  constructor
  · intro hr
    rcases List.mem_cons.mp hr with rfl | hr
    · obtain ⟨st, hst⟩ := List.exists_mem_of_ne_nil _ hs
      exact mark_mem_namedRoles (mark_mem_markOrder hst (State.mem_marks.mpr (Or.inl rfl)))
    · obtain ⟨⟨st, i⟩, hst, hr⟩ := List.mem_flatMap.mp hr
      have hi : s.states[i]? = some st := List.mem_zipIdx_iff_getElem?.mp hst
      have hmem : st ∈ s.states := List.mem_of_getElem? hi
      simp only [State.roles, List.mem_append, List.mem_flatMap, List.mem_singleton] at hr
      obtain (hr | ⟨a, ha, hr⟩) | rfl := hr
      · cases hb : st.background with
        | none => simp [hb] at hr
        | some b =>
          rw [hb] at hr
          exact background_mem_namedRoles (mem_backgrounds.mpr ⟨st, hmem, hb⟩) hr
      · exact appearance_mem_namedRoles (List.mem_flatMap.mpr ⟨st, hmem, ha⟩) hr
      · exact element_mem_namedRoles (state_mem_elementOrder hi)
  · intro hr
    rcases List.mem_append.mp hr with hr | hr
    · obtain ⟨m, hm, rfl⟩ := List.mem_map.mp hr
      exact mark_mem_roles hm
    · obtain ⟨e, he, rfl⟩ := List.mem_map.mp hr
      exact element_mem_roles he

/-- The keys are those of the two tables, and each of them is in one. -/
theorem keys_perm (hs : s.states ≠ []) (hl : s.ledger? = some l) :
    l.keys.Perm ((s.markTable l).keys ++ (s.elementTable l).keys) := by
  have hmarks : (s.markTable l).keys = (s.markOrder.eraseDups.map Role.mark).map l.key := by
    rw [markTable, NameTable.keys_ofKeys,
      Ledger.eraseDups_map_key hl (fun _ _ => Role.mark.inj) fun _ => mark_mem_roles, List.map_map]
    rfl
  have helements : (s.elementTable l).keys = (s.elementOrder.eraseDups.map Role.element).map l.key := by
    rw [elementTable, NameTable.keys_ofKeys,
      Ledger.eraseDups_map_key hl (fun _ _ => Role.element.inj) fun _ => element_mem_roles, List.map_map]
    rfl
  have hnodup : (s.markOrder.eraseDups.map Role.mark ++ s.elementOrder.eraseDups.map Role.element).Nodup := by
    refine List.nodup_append.mpr ⟨(nodup_eraseDups _).map fun _ _ => Role.mark.inj,
      (nodup_eraseDups _).map fun _ _ => Role.element.inj, fun r hr r' hr' => ?_⟩
    obtain ⟨_, -, rfl⟩ := List.mem_map.mp hr
    obtain ⟨_, -, rfl⟩ := List.mem_map.mp hr'
    simp
  have hroles : s.roles.eraseDups.Perm
      (s.markOrder.eraseDups.map Role.mark ++ s.elementOrder.eraseDups.map Role.element) := by
    refine (List.perm_ext_iff_of_nodup (nodup_eraseDups _) hnodup).mpr fun r => ?_
    rw [List.mem_eraseDups, mem_roles_iff hs, namedRoles]
    simp
  rw [hmarks, helements, ← List.map_append, Ledger.keys_eq hl]
  exact hroles.map l.key

end Script

/-! ### Four, three and five -/

/-- The marks of the kinds, which all elements of a kind share. -/
def Role.kinds : List Role := [.mark .states, .mark .backgrounds, .mark .characters, .mark .emotes]

/-- Whether a role is the mark of a kind. -/
def Role.isKind (r : Role) : Bool := r ∈ kinds

theorem Appearance.length_own_le (a : Appearance) : (a.roles.filter (!·.isKind)).length ≤ 5 := by
  cases h : a.motion <;> simp [Appearance.roles, Role.isKind, Role.kinds, h]

namespace State

/-- How many slots of a state show someone. -/
def shownSlots (st : State) : Nat := st.presences.countP (· ≠ .absent)

theorem countP_zip_le : ∀ (declared : List Character) (ps : List Presence),
    (declared.zip ps).countP (fun x => x.2 ≠ .absent) ≤ ps.countP (· ≠ .absent)
  | [], _ => by simp
  | _ :: _, [] => by simp
  | _ :: cs, p :: ps => by
    have hrest := countP_zip_le cs ps
    rw [List.zip_cons_cons, List.countP_cons, List.countP_cons]
    exact Nat.add_le_add_right hrest _

theorem length_appearances_le (declared : List Character) (st : State) :
    (st.appearances declared).length ≤ st.shownSlots := by
  rw [appearances, List.length_filterMap_eq_countP]
  refine Nat.le_trans (Nat.le_of_eq (List.countP_congr ?_)) (countP_zip_le declared st.presences)
  rintro ⟨c, p⟩ -
  cases p <;> simp [Presence.emote?]

theorem length_own_background_le (b : Option String) :
    (((b.map backgroundRoles).getD []).filter (!·.isKind)).length ≤ 2 := by
  cases b <;> simp [backgroundRoles, Role.isKind, Role.kinds]

theorem length_own_appearances_le : ∀ as : List Appearance,
    ((as.flatMap Appearance.roles).filter (!·.isKind)).length ≤ 5 * as.length
  | [] => by simp
  | a :: as => by
    have ha := a.length_own_le
    have has := length_own_appearances_le as
    rw [List.flatMap_cons, List.filter_append, List.length_append, List.length_cons]
    omega

/-- What a state needs besides the kinds. -/
theorem length_own_le (declared : List Character) (st : State) (i : Nat) :
    ((st.roles declared i).filter (!·.isKind)).length ≤ 3 + 5 * st.shownSlots := by
  have hbackground := length_own_background_le st.background
  have happearances := length_own_appearances_le (st.appearances declared)
  have hshown := length_appearances_le declared st
  have hself : ([Role.element (.state i)].filter (!·.isKind)).length = 1 := rfl
  rw [roles, List.filter_append, List.filter_append, List.length_append, List.length_append, hself]
  omega

end State

namespace Script

/-- How many slots of a script show someone. -/
def shownSlots (s : Script) : Nat := (s.states.map State.shownSlots).sum

theorem length_own_states_le (declared : List Character) : ∀ (states : List State) (k : Nat),
    (((states.zipIdx k).flatMap fun (st, i) => st.roles declared i).filter (!·.isKind)).length ≤
      3 * states.length + 5 * (states.map State.shownSlots).sum
  | [], _ => by simp
  | st :: states, k => by
    have hst := st.length_own_le declared k
    have hstates := length_own_states_le declared states (k + 1)
    rw [List.zipIdx_cons, List.flatMap_cons, List.filter_append, List.length_append, List.length_cons,
      List.map_cons, List.sum_cons]
    exact (Nat.add_le_add hst hstates).trans (by omega)

theorem length_eraseDups_roles_le (s : Script) :
    s.roles.eraseDups.length ≤ 4 + 3 * s.states.length + 5 * s.shownSlots := by
  have hown : (s.roles.filter (!·.isKind)).length ≤ 3 * s.states.length + 5 * s.shownSlots := by
    rw [roles, List.filter_cons_of_neg (by decide)]
    exact length_own_states_le s.characters s.states 0
  have hsplit : s.roles.eraseDups ⊆ Role.kinds ++ s.roles.filter (!·.isKind) := by
    intro r hr
    by_cases hkind : r ∈ Role.kinds
    · exact List.mem_append_left _ hkind
    · refine List.mem_append_right _ (List.mem_filter.mpr ⟨List.mem_eraseDups.mp hr, ?_⟩)
      simpa [Role.isKind] using hkind
  have hle := (List.subperm_of_subset (nodup_eraseDups s.roles) hsplit).length_le
  have hfour : Role.kinds.length = 4 := rfl
  rw [List.length_append, hfour] at hle
  omega

end Script

/-! ### The account of keys -/

/-- A name that one of two tables has given, one being for ids and the other for classes. -/
def Mention.IsIn (ids classes : NameTable Key) : Mention → Prop
  | .id name => ∃ k ∈ ids.keys, name = ids.nameOf k
  | .cls name => ∃ k ∈ classes.keys, name = classes.nameOf k

theorem Page.Named.isIn {s : Script} {l : Ledger} {m : Mention} (h : Named s (s.naming l) m) :
    m.IsIn (s.elementTable l) (s.markTable l) := by
  cases m with
  | id name =>
    obtain ⟨e, he, rfl⟩ := h
    exact ⟨_, NameTable.mem_ofKeys.mpr (List.mem_map_of_mem he), rfl⟩
  | cls name =>
    obtain ⟨k, hk, rfl⟩ := h
    exact ⟨_, NameTable.mem_ofKeys.mpr (List.mem_map_of_mem hk), rfl⟩

theorem xor_mem_of_nodup {α : Type} {xs ys : List α} (h : (xs ++ ys).Nodup) {a : α} (ha : a ∈ xs ++ ys) :
    Xor (a ∈ xs) (a ∈ ys) := by
  obtain ⟨-, -, hapart⟩ := List.nodup_append.mp h
  rcases List.mem_append.mp ha with hx | hy
  · exact Or.inl ⟨hx, fun hy => hapart a hx a hy rfl⟩
  · exact Or.inr ⟨hy, fun hx => hapart a hx a hy rfl⟩

/-- **Every key is accounted for.** Where a script becomes a page, its keys are as many as the names in both
tables: every key is looked up in just one of them, and the rules look up nothing that is not there yet. They are
at most four, and three for each state, and five for each slot that shows someone. A script for which this number
can be counted does not run out of keys, and no key is given out twice. -/
theorem Blueprint.keys_accounted (s : Script) :
    (∀ b, ofScript s = .ok b → ∃ l, s.ledger? = some l ∧
      l.source.issued.toNat = (s.markTable l).size + (s.elementTable l).size ∧
      (∀ k ∈ l.keys, Xor (k ∈ (s.markTable l).keys) (k ∈ (s.elementTable l).keys)) ∧
      (∀ r ∈ b.rules, ∀ m, r.Mentions m → m.IsIn (s.elementTable l) (s.markTable l)) ∧
      l.source.issued.toNat ≤ 4 + 3 * s.states.length + 5 * s.shownSlots) ∧
    (4 + 3 * s.states.length + 5 * s.shownSlots < UInt32.size →
      ofScript s ≠ .error .noKeysLeft ∧
      ∃ l, s.ledger? = some l ∧ l.keys.length = l.source.issued.toNat ∧ l.keys.Nodup) := by
  constructor
  · intro b hb
    obtain ⟨hok, l, hl, rfl⟩ := ofScript_eq_ok.mp hb
    have hs : s.states ≠ [] := (Script.fault?_eq_none.mp hok).1
    have hnumbered : l.Numbered := .of_roles hl
    have hperm := Script.keys_perm hs hl
    have hissued : l.source.issued.toNat = l.keys.length := by
      rw [hnumbered.count, Ledger.keys, List.length_map]
    refine ⟨l, hl, ?_, fun k hk => ?_, fun r hr m hm => (Page.named_of_rules hs hr hm).isIn, ?_⟩
    · rw [hissued, hperm.length_eq, List.length_append]
      rfl
    · exact xor_mem_of_nodup (hperm.nodup_iff.mp hnumbered.nodup_keys) (hperm.mem_iff.mp hk)
    · rw [hissued, Ledger.keys_eq hl, List.length_map]
      exact s.length_eraseDups_roles_le
  · intro hbound
    have hroles : ¬ UInt32.size ≤ s.roles.eraseDups.length :=
      Nat.not_le.mpr (Nat.lt_of_le_of_lt s.length_eraseDups_roles_le hbound)
    have hledger : s.ledger? ≠ none := fun hnone => hroles (Ledger.ofRoles?_eq_none.mp hnone)
    obtain ⟨l, hl⟩ := Option.ne_none_iff_exists'.mp hledger
    have hnumbered : l.Numbered := .of_roles hl
    refine ⟨fun herror => ?_, l, hl, ?_, hnumbered.nodup_keys⟩
    · obtain hfault | ⟨-, hmany, -⟩ := ofScript_eq_error.mp herror
      · exact hfault.ne_noKeysLeft rfl
      · exact hroles hmany
    · rw [hnumbered.count, Ledger.keys, List.length_map]

/-- The outing has four slots that show someone; it does not run out of keys, and 33 would do. -/
theorem Blueprint.keys_accounted_outing : ofScript .outing ≠ .error .noKeysLeft ∧
    ∃ l, Script.outing.ledger? = some l ∧ (Script.outing.markTable l).size + (Script.outing.elementTable l).size ≤ 33 := by
  obtain ⟨b, hb⟩ := ofScript_outing
  obtain ⟨l, hl, hcount, -, -, hle⟩ := (keys_accounted .outing).1 b hb
  have hbound : 4 + 3 * Script.outing.states.length + 5 * Script.outing.shownSlots = 33 := by decide
  refine ⟨((keys_accounted .outing).2 (hbound ▸ by decide)).1, l, hl, ?_⟩
  rw [← hcount, ← hbound]
  exact hle

end SkitPage
