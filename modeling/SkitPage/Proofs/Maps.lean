import SkitPage.OrderedMap
import Mathlib.Data.List.Nodup

/-!
# What an ordered map holds

A map is read with `get?`, and each operation is determined by what can be read after it. Reading finds
the first entry of a key; a map has each key once, because its entries are in increasing order.

Key theorems: `OrderedMap.get?_insert`, `OrderedMap.get?_filterKeys`, `OrderedMap.get?_absorb`,
`OrderedMap.get?_ofList_iff`, `OrderedMap.ofList_of_perm`, `OrderedMap.ext_get?`.
-/

namespace SkitPage

namespace OrderedMap

variable {κ ν : Type}

/-! ### Reading -/

section Lookup

variable [DecidableEq κ]

theorem lookup_cons_ite (k k' : κ) (v : ν) (es : List (κ × ν)) :
    ((k', v) :: es).lookup k = if k = k' then some v else es.lookup k := by
  rw [List.lookup_cons]
  by_cases h : k = k'
  · simp [h]
  · rw [if_neg h, beq_eq_false_iff_ne.mpr h]

theorem lookup_eq_some_iff {es : List (κ × ν)} (h : ∀ k v v', (k, v) ∈ es → (k, v') ∈ es → v = v')
    {k : κ} {v : ν} : es.lookup k = some v ↔ (k, v) ∈ es := by
  induction es with
  | nil => simp
  | cons e es ih =>
    obtain ⟨k₁, v₁⟩ := e
    rw [lookup_cons_ite]
    by_cases hk : k = k₁
    · subst hk
      rw [if_pos rfl, Option.some.injEq]
      exact ⟨fun hv => hv ▸ List.mem_cons_self, fun hv => h k v₁ v List.mem_cons_self hv⟩
    · rw [if_neg hk, ih fun k v v' hv hv' => h k v v' (List.mem_cons_of_mem _ hv) (List.mem_cons_of_mem _ hv')]
      simp [hk]

theorem lookup_filter (keep : κ → Bool) (k : κ) : ∀ es : List (κ × ν),
    (es.filter fun e => keep e.1).lookup k = if keep k then es.lookup k else none
  | [] => by simp
  | (k', v) :: es => by
    rw [List.filter_cons, lookup_cons_ite]
    by_cases hkeep : keep k' = true
    · rw [if_pos hkeep, lookup_cons_ite, lookup_filter keep k es]
      by_cases hk : k = k' <;> simp [hk, hkeep]
    · rw [if_neg hkeep, lookup_filter keep k es]
      by_cases hk : k = k' <;> simp [hk, hkeep]

end Lookup

variable [LT κ]

section Reading

variable [DecidableEq κ]

@[simp] theorem get?_empty (k : κ) : (empty : OrderedMap κ ν).get? k = none := rfl

theorem get?_of_isEmpty {m : OrderedMap κ ν} (h : m.isEmpty = true) (k : κ) : m.get? k = none := by
  rw [get?, List.isEmpty_iff.mp h, List.lookup_nil]

theorem contains_iff {m : OrderedMap κ ν} {k : κ} : m.contains k = true ↔ ∃ v, m.get? k = some v :=
  Option.isSome_iff_exists

theorem get?_filterKeys (m : OrderedMap κ ν) (keep : κ → Bool) (k : κ) :
    (m.filterKeys keep).get? k = if keep k then m.get? k else none :=
  lookup_filter keep k m.entries

end Reading

section Order

variable [KeyOrder κ]

theorem nodup_keys (m : OrderedMap κ ν) : (m.entries.map (·.1)).Nodup := by
  refine List.pairwise_map.mpr (m.sorted.imp ?_)
  rintro e _ hlt heq
  exact KeyOrder.lt_irrefl e.1 (heq ▸ hlt)

theorem get?_eq_some_iff [DecidableEq κ] {m : OrderedMap κ ν} {k : κ} {v : ν} :
    m.get? k = some v ↔ (k, v) ∈ m.entries :=
  lookup_eq_some_iff fun _ _ _ hv hv' => congrArg Prod.snd (List.inj_on_of_nodup_map m.nodup_keys hv hv' rfl)

/-- It does not matter from which end an entry is looked up. -/
theorem lookup_reverse [DecidableEq κ] (m : OrderedMap κ ν) (k : κ) :
    m.entries.reverse.lookup k = m.get? k := by
  refine Option.ext fun v => ?_
  rw [get?_eq_some_iff, lookup_eq_some_iff, List.mem_reverse]
  intro k v v' hv hv'
  exact Option.some.inj ((get?_eq_some_iff.mpr (List.mem_reverse.mp hv)).symm.trans
    (get?_eq_some_iff.mpr (List.mem_reverse.mp hv')))

end Order

/-! ### Insertion -/

section Insertion

variable [DecidableLT κ] [KeyOrder κ]

/-- A new key only adds its entry. -/
theorem perm_insertEntry {k : κ} {v : ν} : ∀ {es : List (κ × ν)}, k ∉ es.map (·.1) →
    (insertEntry k v es).Perm ((k, v) :: es)
  | [], _ => .refl _
  | (k₁, v₁) :: es, h => by
    unfold insertEntry
    split
    case isTrue => exact .refl _
    case isFalse h₁ =>
      split
      case isTrue =>
        have ih := perm_insertEntry (v := v) fun hk => h (List.mem_cons_of_mem _ hk)
        exact (ih.cons _).trans (.swap ..)
      case isFalse h₂ =>
        obtain rfl : k = k₁ := KeyOrder.eq_of_not_lt h₁ h₂
        exact absurd List.mem_cons_self h

theorem lookup_insertEntry [DecidableEq κ] (k : κ) (v : ν) (k' : κ) :
    ∀ es : List (κ × ν), (insertEntry k v es).lookup k' = if k' = k then some v else es.lookup k'
  | [] => by by_cases h : k' = k <;> simp [insertEntry, h]
  | (k₁, v₁) :: es => by
    have ih := lookup_insertEntry k v k' es
    unfold insertEntry
    split
    · exact lookup_cons_ite k' k v _
    · split
      case isTrue hlt =>
        -- The entry that is passed has a smaller key, so it is not the one that is looked up.
        have hne : k ≠ k₁ := fun h => KeyOrder.lt_irrefl k₁ (h ▸ hlt)
        rw [lookup_cons_ite, lookup_cons_ite, ih]
        by_cases h : k' = k
        · simp [h, hne]
        · simp [h]
      case isFalse h₁ h₂ =>
        obtain rfl : k = k₁ := KeyOrder.eq_of_not_lt h₁ h₂
        rw [lookup_cons_ite, lookup_cons_ite]
        by_cases h : k' = k <;> simp [h]

theorem perm_foldl_insert : ∀ (es : List (κ × ν)) {m : OrderedMap κ ν},
    ((es ++ m.entries).map (·.1)).Nodup →
    (es.foldl (fun acc e => acc.insert e.1 e.2) m).entries.Perm (es ++ m.entries)
  | [], _, _ => .refl _
  | (k, v) :: es, m, h => by
    have hnew : (es ++ (m.insert k v).entries).Perm ((k, v) :: es ++ m.entries) := by
      have hk : k ∉ m.entries.map (·.1) := by
        intro hk
        rw [List.map_append, List.nodup_append] at h
        exact h.2.2 k List.mem_cons_self k hk rfl
      exact ((perm_insertEntry hk).append_left es).trans List.perm_middle
    exact (perm_foldl_insert es ((hnew.map _).nodup_iff.mpr h)).trans hnew

/-- Where a list has each key once, its map has the entries of the list. -/
theorem perm_ofList {es : List (κ × ν)} (h : (es.map (·.1)).Nodup) : (ofList es).entries.Perm es := by
  have hfold := perm_foldl_insert es (m := empty)
  rw [empty, List.append_nil] at hfold
  exact hfold h

/-- A map does not depend on the order in which its entries are inserted. -/
theorem ofList_of_perm {m : OrderedMap κ ν} {es : List (κ × ν)} (h : es.Perm m.entries) : ofList es = m := by
  have hnodup : (es.map (·.1)).Nodup := (h.map _).nodup_iff.mpr m.nodup_keys
  have hperm : (ofList es).entries.Perm m.entries := (perm_ofList hnodup).trans h
  refine OrderedMap.ext (hperm.eq_of_pairwise (fun p q _ _ hpq hqp => ?_) (ofList es).sorted m.sorted)
  exact absurd (KeyOrder.lt_trans hpq hqp) (KeyOrder.lt_irrefl p.1)

variable [DecidableEq κ]

/-- Two maps are the same if the same can be read from them. -/
theorem ext_get? {m n : OrderedMap κ ν} (h : ∀ k, m.get? k = n.get? k) : m = n := by
  have hperm : m.entries.Perm n.entries := by
    refine (List.perm_ext_iff_of_nodup (List.Nodup.of_map _ m.nodup_keys)
      (List.Nodup.of_map _ n.nodup_keys)).mpr fun e => ?_
    rw [← get?_eq_some_iff, ← get?_eq_some_iff, h]
  rw [← ofList_of_perm (List.Perm.refl m.entries), ofList_of_perm hperm]

theorem get?_insert (m : OrderedMap κ ν) (k : κ) (v : ν) (k' : κ) :
    (m.insert k v).get? k' = if k' = k then some v else m.get? k' :=
  lookup_insertEntry k v k' m.entries

/-- After several insertions the last value for a key stays. -/
theorem get?_foldl_insert (k : κ) : ∀ (es : List (κ × ν)) (m : OrderedMap κ ν),
    (es.foldl (fun acc e => acc.insert e.1 e.2) m).get? k = (es.reverse.lookup k).or (m.get? k)
  | [], m => by simp
  | (k₁, v₁) :: es, m => by
    rw [List.foldl_cons, get?_foldl_insert k es, get?_insert, List.reverse_cons, List.lookup_append]
    rw [lookup_cons_ite, Option.or_assoc]
    by_cases h : k = k₁ <;> simp [h]

/-- Where a list has one value for each key, its map holds just its pairs. -/
theorem get?_ofList_iff {es : List (κ × ν)} (h : ∀ k v v', (k, v) ∈ es → (k, v') ∈ es → v = v')
    {k : κ} {v : ν} : (ofList es).get? k = some v ↔ (k, v) ∈ es := by
  rw [ofList, get?_foldl_insert, get?_empty, Option.or_none, lookup_eq_some_iff, List.mem_reverse]
  simpa using h

theorem get?_absorb (m n : OrderedMap κ ν) (k : κ) :
    (m.absorb n).get? k = (n.get? k).or (m.get? k) := by
  rw [absorb, get?_foldl_insert, lookup_reverse]

end Insertion

end OrderedMap

end SkitPage
