import Mathlib.Data.Char
import Mathlib.Data.List.Induction
import Mathlib.Data.List.Shortlex
import Mathlib.Tactic.Ring
import SkitPage.Proofs.Names

/-!
# Names are in order

The names of the numbers come in the order of a word list by length: a shorter name before a longer one, and
names of one length alphabetically. Which words are names can be told from the word: it is `a`, or it does not
begin with `a` and its number is not too large (`Name.names_in_shortlex_order`).

Both rest on the words that a number can have, the numerals (`Name.IsNumeral`). The letters of a number are one
(`Name.isNumeral_letters`). Words of one length are ordered as their values are, since the first letter in which
they differ outweighs all that follow (`Name.value_lt_of_lex`); a longer numeral has the greater value, since
its first letter is not `a` (`Name.pow_le_value`). So a value determines its numeral, and reading and writing
undo each other in both directions.

Key definition: `Name.IsNumeral`.
Key theorems: `Name.value_cons`, `Name.value_lt_value_iff`, `Name.letters_value`,
`Name.names_in_shortlex_order`.
-/

namespace SkitPage.Name

/-! ### Values -/

/-- All letters are small ones. -/
def Lower (cs : List Char) : Prop := ∀ c ∈ cs, c.isLower = true

theorem isLower_iff {c : Char} : c.isLower = true ↔ 'a'.toNat ≤ c.toNat ∧ c.toNat < 'a'.toNat + 26 := by
  have hz : 'z'.toNat + 1 = 'a'.toNat + 26 := rfl
  change (decide ('a'.val ≤ c.val) && decide (c.val ≤ 'z'.val)) = true ↔ _
  rw [Bool.and_eq_true, decide_eq_true_eq, decide_eq_true_eq, UInt32.le_iff_toNat_le, UInt32.le_iff_toNat_le]
  change 'a'.toNat ≤ c.toNat ∧ c.toNat ≤ 'z'.toNat ↔ _
  omega

theorem Lower.digit_lt {c : Char} {cs : List Char} (h : Lower cs) (hc : c ∈ cs) : c.toNat - 'a'.toNat < 26 := by
  have hlower := isLower_iff.mp (h c hc)
  omega

/-- The first letter counts for as much as there are words of the remaining length. -/
theorem value_cons (c : Char) (cs : List Char) :
    value (c :: cs) = (c.toNat - 'a'.toNat) * 26 ^ cs.length + value cs := by
  induction cs using List.reverseRecOn with
  | nil => simp [value]
  | append_singleton cs d ih =>
    rw [← List.cons_append, value_append_singleton, value_append_singleton, ih, List.length_append,
      List.length_singleton]
    ring

/-- There are so many words of a length, and their values are the numbers below that. -/
theorem value_lt : ∀ {cs : List Char}, Lower cs → value cs < 26 ^ cs.length
  | [], _ => by simp [value]
  | c :: cs, h => by
    have ih : value cs < 26 ^ cs.length := value_lt fun d hd => h d (List.mem_cons_of_mem c hd)
    have hdigit : c.toNat - 'a'.toNat + 1 ≤ 26 := h.digit_lt List.mem_cons_self
    calc value (c :: cs) = (c.toNat - 'a'.toNat) * 26 ^ cs.length + value cs := value_cons c cs
      _ < (c.toNat - 'a'.toNat) * 26 ^ cs.length + 26 ^ cs.length := Nat.add_lt_add_left ih _
      _ = (c.toNat - 'a'.toNat + 1) * 26 ^ cs.length := by ring
      _ ≤ 26 * 26 ^ cs.length := Nat.mul_le_mul_right _ hdigit
      _ = 26 ^ (c :: cs).length := by rw [List.length_cons, pow_succ']

/-- Of two words of one length, the one that comes first in the alphabet has the smaller value. -/
theorem value_lt_of_lex {cs ds : List Char} (h : List.Lex (· < ·) cs ds) (hcs : Lower cs) (hds : Lower ds)
    (hlength : cs.length = ds.length) : value cs < value ds := by
  induction h with
  | nil => cases hlength
  | @cons a as bs h ih =>
    have hrest := ih (fun c hc => hcs c (List.mem_cons_of_mem a hc)) (fun c hc => hds c (List.mem_cons_of_mem a hc))
      (Nat.succ.inj hlength)
    rw [value_cons, value_cons, Nat.succ.inj hlength]
    exact Nat.add_lt_add_left hrest _
  | @rel a as b bs hab =>
    -- The first letters differ by one at least, and the other letters cannot make up for that.
    have hlt : value as < 26 ^ as.length := value_lt fun c hc => hcs c (List.mem_cons_of_mem a hc)
    have ha := isLower_iff.mp (hcs a List.mem_cons_self)
    have hdigit : a.toNat - 'a'.toNat + 1 ≤ b.toNat - 'a'.toNat := by
      have htoNat : a.toNat < b.toNat := UInt32.lt_iff_toNat_lt.mp (Char.lt_def.mp hab)
      omega
    calc value (a :: as) = (a.toNat - 'a'.toNat) * 26 ^ as.length + value as := value_cons a as
      _ < (a.toNat - 'a'.toNat) * 26 ^ as.length + 26 ^ as.length := Nat.add_lt_add_left hlt _
      _ = (a.toNat - 'a'.toNat + 1) * 26 ^ as.length := by ring
      _ ≤ (b.toNat - 'a'.toNat) * 26 ^ as.length := Nat.mul_le_mul_right _ hdigit
      _ = (b.toNat - 'a'.toNat) * 26 ^ bs.length := by rw [Nat.succ.inj hlength]
      _ ≤ (b.toNat - 'a'.toNat) * 26 ^ bs.length + value bs := Nat.le_add_right _ _
      _ = value (b :: bs) := (value_cons b bs).symm

/-! ### Numerals -/

/-- The words that a number can have: small letters, of which the first is not `a` unless it is the only one. -/
structure IsNumeral (cs : List Char) : Prop where
  lower : Lower cs
  leading : cs = ['a'] ∨ cs ≠ [] ∧ cs.head? ≠ some 'a'

theorem letter_eq_a_iff {d : Nat} (h : d < 26) : letter d = 'a' ↔ d = 0 := by
  constructor
  · intro hletter
    have htoNat := toNat_letter h
    rw [hletter] at htoNat
    omega
  · rintro rfl
    rfl

theorem isLower_letter {d : Nat} (h : d < 26) : (letter d).isLower = true := by
  rw [isLower_iff, toNat_letter h]
  omega

theorem isNumeral_letters (n : Nat) : IsNumeral (letters n) := by
  induction n using Nat.strongRecOn with
  | ind n ih =>
    rw [letters]
    split
    · rename_i hn
      refine ⟨fun c hc => List.mem_singleton.mp hc ▸ isLower_letter hn, ?_⟩
      by_cases hzero : n = 0
      · exact Or.inl (by rw [hzero, (letter_eq_a_iff (by omega)).mpr rfl])
      · exact Or.inr ⟨List.cons_ne_nil _ _, fun h => hzero ((letter_eq_a_iff hn).mp (Option.some.inj h))⟩
    · rename_i hn
      obtain ⟨hlower, hleading⟩ := ih (n / 26) (by omega)
      refine ⟨fun c hc => ?_, Or.inr ⟨List.append_ne_nil_of_right_ne_nil _ (List.cons_ne_nil _ _), ?_⟩⟩
      · rcases List.mem_append.mp hc with hc | hc
        · exact hlower c hc
        · exact List.mem_singleton.mp hc ▸ isLower_letter (Nat.mod_lt n (by omega))
      · -- What stands before the last letter is not zero, so it does not begin with `a` either.
        obtain ⟨hne, hhead⟩ := hleading.resolve_left fun ha => by
          have hvalue := value_letters (n / 26)
          rw [ha] at hvalue
          have : n / 26 = 0 := hvalue.symm
          omega
        rwa [List.head?_append_of_ne_nil _ hne]

/-- A numeral of more than one letter has a value that no shorter word has. -/
theorem pow_le_value {cs : List Char} (h : IsNumeral cs) (hlong : 1 < cs.length) :
    26 ^ (cs.length - 1) ≤ value cs := by
  obtain ⟨hlower, rfl | ⟨hne, hhead⟩⟩ := h
  · cases Nat.lt_irrefl 1 hlong
  · obtain ⟨c, cs, rfl⟩ := List.exists_cons_of_ne_nil hne
    have hdigit : 1 ≤ c.toNat - 'a'.toNat := by
      have hc := isLower_iff.mp (hlower c List.mem_cons_self)
      have hnot : c.toNat ≠ 'a'.toNat := fun hc => hhead (congrArg some (Char.toNat_inj.mp hc))
      omega
    calc 26 ^ ((c :: cs).length - 1) = 1 * 26 ^ cs.length := (Nat.one_mul _).symm
      _ ≤ (c.toNat - 'a'.toNat) * 26 ^ cs.length := Nat.mul_le_mul_right _ hdigit
      _ ≤ (c.toNat - 'a'.toNat) * 26 ^ cs.length + value cs := Nat.le_add_right _ _
      _ = value (c :: cs) := (value_cons c cs).symm

theorem IsNumeral.length_pos {cs : List Char} (h : IsNumeral cs) : 0 < cs.length := by
  obtain ⟨-, rfl | ⟨hne, -⟩⟩ := h
  · exact Nat.one_pos
  · exact List.length_pos_of_ne_nil hne

theorem value_lt_of_shortlex {cs ds : List Char} (hcs : IsNumeral cs) (hds : IsNumeral ds)
    (h : cs.Shortlex (· < ·) ds) : value cs < value ds := by
  rcases List.shortlex_def.mp h with hlength | ⟨hlength, hlex⟩
  · have hpos := hcs.length_pos
    calc value cs < 26 ^ cs.length := value_lt hcs.lower
      _ ≤ 26 ^ (ds.length - 1) := Nat.pow_le_pow_right (by omega) (by omega)
      _ ≤ value ds := pow_le_value hds (by omega)
  · exact value_lt_of_lex hlex hcs.lower hds.lower hlength

/-- Numerals are ordered as their values are. -/
theorem value_lt_value_iff {cs ds : List Char} (hcs : IsNumeral cs) (hds : IsNumeral ds) :
    value cs < value ds ↔ cs.Shortlex (· < ·) ds := by
  refine ⟨fun hlt => ?_, value_lt_of_shortlex hcs hds⟩
  by_contra hnot
  have heq : cs = ds := Std.Trichotomous.trichotomous (r := List.Shortlex (· < ·)) cs ds hnot fun h =>
    Nat.lt_asymm hlt (value_lt_of_shortlex hds hcs h)
  exact absurd hlt (heq ▸ Nat.lt_irrefl _)

/-- A value determines its numeral. -/
theorem eq_of_value_eq {cs ds : List Char} (hcs : IsNumeral cs) (hds : IsNumeral ds) (h : value cs = value ds) :
    cs = ds :=
  Std.Trichotomous.trichotomous (r := List.Shortlex (· < ·)) cs ds
    (fun hlt => h.not_lt (value_lt_of_shortlex hcs hds hlt))
    (fun hlt => h.not_gt (value_lt_of_shortlex hds hcs hlt))

/-- A numeral is the letters of its value. -/
theorem letters_value {cs : List Char} (h : IsNumeral cs) : letters (value cs) = cs :=
  eq_of_value_eq (isNumeral_letters _) h (value_letters _)

/-! ### Names -/

theorem toList_ofNumber (n : Nat) : (ofNumber n).toList = letters n := String.toList_ofList

/-- A word is the name of a number just if it is a numeral, and then the number is its value. -/
theorem ofNumber_eq_iff {n : Nat} {s : String} :
    ofNumber n = s ↔ IsNumeral s.toList ∧ value s.toList = n := by
  constructor
  · rintro rfl
    rw [toList_ofNumber]
    exact ⟨isNumeral_letters n, value_letters n⟩
  · rintro ⟨hnumeral, rfl⟩
    rw [ofNumber, letters_value hnumeral, String.ofList_toList]

theorem isNumeral_toList_iff {s : String} : IsNumeral s.toList ↔
    s.toList.all Char.isLower = true ∧ (s = "a" ∨ s ≠ "" ∧ s.toList.head? ≠ some 'a') := by
  have ha : s.toList = "a".toList ↔ s = "a" := String.toList_inj
  have hnil : s.toList ≠ "".toList ↔ s ≠ "" := not_congr String.toList_inj
  rw [List.all_eq_true, ← ha, ← hnil]
  exact ⟨fun h => ⟨h.lower, h.leading⟩, fun h => ⟨h.1, h.2⟩⟩

/-- **Names are in order, and can be told from other words.** Of two numbers of 64 bits the smaller has the
name that is shorter, or of the same length and first in the alphabet. So no two have the same name; and the
letters of a name, read as digits with `a` for zero, give back its number. A word is the name of such a number
just if it is made of small letters and is `a`, or is not empty, does not begin with `a` and stands for a
number of 64 bits. -/
theorem names_in_shortlex_order :
    (∀ n m : UInt64, n < m ↔ (ofNumber n.toNat).toList.Shortlex (· < ·) (ofNumber m.toNat).toList) ∧
    (Function.Injective fun n : UInt64 => ofNumber n.toNat) ∧
    (∀ n : UInt64, value (ofNumber n.toNat).toList = n.toNat) ∧
    ∀ s : String, (∃ n : UInt64, ofNumber n.toNat = s) ↔ s.toList.all Char.isLower = true ∧
      (s = "a" ∨ s ≠ "" ∧ s.toList.head? ≠ some 'a' ∧ value s.toList < UInt64.size) := by
  refine ⟨fun n m => ?_, fun n m h => ?_, fun n => ?_, fun s => ?_⟩
  · rw [toList_ofNumber, toList_ofNumber, ← value_lt_value_iff (isNumeral_letters _) (isNumeral_letters _),
      value_letters, value_letters]
    exact UInt64.lt_iff_toNat_lt
  · exact UInt64.toNat_inj.mp (ofNumber_injective h)
  · rw [toList_ofNumber, value_letters]
  · have hfits : (∃ n : UInt64, ofNumber n.toNat = s) ↔ IsNumeral s.toList ∧ value s.toList < UInt64.size := by
      simp only [ofNumber_eq_iff]
      constructor
      · rintro ⟨n, hnumeral, hvalue⟩
        exact ⟨hnumeral, hvalue ▸ n.toNat_lt_size⟩
      · rintro ⟨hnumeral, hlt⟩
        exact ⟨.ofNat (value s.toList), hnumeral, (UInt64.toNat_ofNat_of_lt' hlt).symm⟩
    have ha : s = "a" → value s.toList < UInt64.size := by
      rintro rfl
      decide
    rw [hfits, isNumeral_toList_iff, and_assoc]
    refine and_congr_right fun _ => ?_
    constructor
    · rintro ⟨heq | ⟨hne, hhead⟩, hlt⟩
      · exact Or.inl heq
      · exact Or.inr ⟨hne, hhead, hlt⟩
    · rintro (heq | ⟨hne, hhead, hlt⟩)
      · exact ⟨Or.inl heq, ha heq⟩
      · exact ⟨Or.inr ⟨hne, hhead⟩, hlt⟩

end SkitPage.Name
