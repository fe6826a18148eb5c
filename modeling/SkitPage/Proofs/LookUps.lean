import Mathlib.Data.Finset.Card
import SkitPage.Proofs.DenseNames

/-!
# The answers of a name table

Keys are looked up in a new table one after the other, in any order and any number of times. Each answer is
the name of a number, and the number is how many different keys were looked up before this one was for the
first time (`NameTable.answers_by_first_look_up`). So equal keys have equal names and different keys have
different ones, and no later look-up changes a name.

One look-up leaves alone the names of the keys that are in the table, and afterwards its own key is one of
them, with the name that was answered (`NameTable.nameOf_register`). Hence all answers can be read off the last
table (`NameTable.answers_eq`), whose keys are the first occurrences of the keys that were looked up.

Key definitions: `distinctBefore`, `NameTable.answers`.
Key theorems: `idxOf_eraseDups`, `NameTable.nameOf_register`, `NameTable.answers_eq`,
`NameTable.answers_by_first_look_up`.
-/

namespace SkitPage

variable {κ : Type} [DecidableEq κ]

/-! ### Positions of first occurrence -/

/-- How many different keys occur for the first time before `k` does. -/
def distinctBefore (ks : List κ) (k : κ) : Nat :=
  (ks.toFinset.filter fun k' => ks.idxOf k' < ks.idxOf k).card

theorem length_eraseDups (ks : List κ) : ks.eraseDups.length = ks.toFinset.card := by
  have hsame : ks.toFinset = ks.eraseDups.toFinset := by
    ext k
    simp
  rw [hsame, List.toFinset_card_of_nodup (nodup_eraseDups ks)]

theorem distinctBefore_append {front back : List κ} {k : κ} (h : k ∉ front) :
    distinctBefore (front ++ k :: back) k = front.eraseDups.length := by
  have hk : (front ++ k :: back).idxOf k = front.length := by
    rw [List.idxOf_append_of_notMem h, List.idxOf_cons_self, Nat.add_zero]
  rw [distinctBefore, hk, length_eraseDups]
  refine congrArg Finset.card (Finset.ext fun k' => ?_)
  rw [Finset.mem_filter, List.mem_toFinset, List.mem_toFinset]
  by_cases hmem : k' ∈ front
  · have hlt : (front ++ k :: back).idxOf k' < front.length := by
      rw [List.idxOf_append_of_mem hmem]
      exact List.idxOf_lt_length_of_mem hmem
    simp [hmem, hlt]
  · have hle : ¬ (front ++ k :: back).idxOf k' < front.length := by
      rw [List.idxOf_append_of_notMem hmem]
      omega
    simp [hmem, hle]

theorem idxOf_eraseDups {ks : List κ} {k : κ} (h : k ∈ ks) : ks.eraseDups.idxOf k = distinctBefore ks k := by
  obtain ⟨front, back, rfl, hfront⟩ := List.eq_append_cons_of_mem h
  have hrest : (k :: back).removeAll front = k :: back.removeAll front := by
    simp [List.removeAll, hfront]
  have hfront' : k ∉ front.eraseDups := fun hmem => hfront (List.mem_eraseDups.mp hmem)
  rw [distinctBefore_append hfront, List.eraseDups_append, hrest, List.eraseDups_cons,
    List.idxOf_append_of_notMem hfront', List.idxOf_cons_self, Nat.add_zero]

theorem getElem?_map_eq_iff {α β : Type} {f : α → β} {xs : List α} (h : ∀ a ∈ xs, ∀ b ∈ xs, f a = f b → a = b)
    (i j : Nat) : (xs.map f)[i]? = (xs.map f)[j]? ↔ xs[i]? = xs[j]? := by
  rw [List.getElem?_map, List.getElem?_map]
  cases hi : xs[i]? with
  | none => cases xs[j]? <;> simp
  | some a =>
    cases hj : xs[j]? with
    | none => simp
    | some b =>
      have hinj := h a (List.mem_of_getElem? hi) b (List.mem_of_getElem? hj)
      simpa using ⟨hinj, fun he => he ▸ rfl⟩

namespace NameTable

/-! ### One look-up after the other -/

/-- Look keys up from left to right: the names that are answered, and the table after that. -/
def answers (t : NameTable κ) : List κ → List String × NameTable κ
  | [] => ([], t)
  | k :: ks =>
    let (answer, t) := t.name k
    let (rest, t) := t.answers ks
    (answer :: rest, t)

theorem snd_answers : ∀ (ks : List κ) (t : NameTable κ), (t.answers ks).2 = ks.foldl register t
  | [], _ => rfl
  | k :: ks, t => snd_answers ks (t.register k)

/-- A look-up changes no name that was given, and answers the name that its key has from then on. -/
theorem nameOf_register {t : NameTable κ} {k k' : κ} (h : k' = k ∨ k' ∈ t.keys) :
    (t.register k).nameOf k' = t.nameOf k' := by
  unfold register
  split
  case isTrue => rfl
  case isFalse =>
    rw [nameOf, nameOf]
    by_cases hmem : k' ∈ t.keys
    · rw [List.idxOf_append_of_mem hmem]
    · obtain rfl : k' = k := h.resolve_right hmem
      rw [List.idxOf_append_of_notMem hmem, List.idxOf_eq_length hmem, List.idxOf_cons_self, Nat.add_zero]

/-- No run of look-ups changes a name that was given. -/
theorem nameOf_foldl_register {k : κ} : ∀ (ks : List κ) {t : NameTable κ}, k ∈ t.keys →
    (ks.foldl register t).nameOf k = t.nameOf k
  | [], _, _ => rfl
  | k' :: ks, t, h => by
    have hkeep : k ∈ (t.register k').keys := mem_register.mpr (Or.inr h)
    rw [List.foldl_cons, nameOf_foldl_register ks hkeep, nameOf_register (Or.inr h)]

/-- What was answered on the way is what the last table says. -/
theorem answers_eq : ∀ (ks : List κ) (t : NameTable κ), (t.answers ks).1 = ks.map (ks.foldl register t).nameOf
  | [], _ => rfl
  | k :: ks, t => by
    have hk : k ∈ (t.register k).keys := mem_register.mpr (Or.inl rfl)
    have hname : (ks.foldl register (t.register k)).nameOf k = t.nameOf k := by
      rw [nameOf_foldl_register ks hk, nameOf_register (Or.inl rfl)]
    rw [List.foldl_cons, List.map_cons, hname, ← answers_eq ks (t.register k)]
    rfl

theorem nameOf_ofKeys {ks : List κ} {k : κ} (h : k ∈ ks) :
    (ofKeys ks).nameOf k = Name.ofNumber (distinctBefore ks k) := by
  rw [nameOf, keys_ofKeys, idxOf_eraseDups h]

/-- **Names follow first look-ups.** Look keys up in a new table, one after the other. Each answer is the name of
the number of keys whose first look-up was before the first one of its own key. Two answers are equal just where
the keys are. Whatever is looked up after that, every key is answered its name again. The table has as many names
as there were different keys. -/
theorem answers_by_first_look_up (ks : List κ) :
    (empty.answers ks).1 = ks.map (fun k => Name.ofNumber (distinctBefore ks k)) ∧
    (∀ i j : Nat, (empty.answers ks).1[i]? = (empty.answers ks).1[j]? ↔ ks[i]? = ks[j]?) ∧
    (∀ more, ks.map (fun k => ((empty.answers (ks ++ more)).2.name k).1) = (empty.answers ks).1) ∧
    (empty.answers ks).2.size = ks.toFinset.card := by
  have hanswers : (empty.answers ks).1 = ks.map (ofKeys ks).nameOf := answers_eq ks empty
  refine ⟨?_, fun i j => ?_, fun more => ?_, ?_⟩
  · rw [hanswers]
    exact List.map_congr_left fun k hk => nameOf_ofKeys hk
  · rw [hanswers]
    refine getElem?_map_eq_iff (fun a ha b _ he => ?_) i j
    exact (nameOf_inj (mem_ofKeys.mpr ha)).mp he
  · have hlast : (empty.answers (ks ++ more)).2 = more.foldl register (ofKeys ks) := by
      rw [snd_answers, List.foldl_append]
      rfl
    rw [hanswers, hlast]
    exact List.map_congr_left fun k hk => nameOf_foldl_register more (mem_ofKeys.mpr hk)
  · have htable : (empty.answers ks).2 = ofKeys ks := snd_answers ks empty
    rw [htable, size, keys_ofKeys, length_eraseDups]

end NameTable

end SkitPage
