import Mathlib.Data.List.Basic
import SkitPage.Text.Bytes

/-!
# Text in the order of its bytes

Texts are compared by code points, and that is the order of their UTF-8 bytes (`Text.utf8_lt_iff`).

A character is written as a leading byte and up to three trailing ones, which hold six bits each
(`Text.utf8EncodeChar_eq`). Of two characters with the same number of bytes the greater has the greater
bytes, digit by digit (`Text.spread_lt`). Of two with different numbers of bytes the longer is the greater,
and its leading byte says so (`Text.leadBits_add_high_lt`). In both cases the bytes differ before one of the
characters ends, so what follows does not matter.

Key definitions: `Text.utf8`, `Text.spread`, `Text.trailing`.
Key theorems: `Text.utf8EncodeChar_eq`, `Text.utf8EncodeChar_append_lt`, `Text.utf8_lt_iff`.
-/

namespace SkitPage.Text

/-- The bytes of a text. -/
def utf8 (s : String) : List UInt8 := s.toByteArray.data.toList

theorem utf8_eq (s : String) : utf8 s = s.toList.flatMap String.utf8EncodeChar := by
  conv_lhs => rw [← String.ofList_toList (s := s)]
  rw [utf8, String.toByteArray_ofList, List.utf8Encode, List.data_toByteArray]

/-! ### The bytes of a character -/

/-- What is left of a number for the leading byte when `k` trailing bytes hold six bits each. -/
def high : Nat → Nat → Nat
  | 0, v => v
  | k + 1, v => high k (v / 64)

/-- A number in a leading byte, which is marked by `lead`, and `k` trailing bytes. -/
def spread (lead : Nat) : Nat → Nat → List UInt8
  | 0, v => [UInt8.ofNat (lead + v)]
  | k + 1, v => spread lead k (v / 64) ++ [UInt8.ofNat (v % 64 + 128)]

/-- How many trailing bytes a character needs. -/
def trailing (v : Nat) : Nat := if v ≤ 127 then 0 else if v ≤ 2047 then 1 else if v ≤ 65535 then 2 else 3

/-- The mark of a leading byte by the number of trailing ones; there are at most three. -/
def leadBits : Nat → Nat
  | 0 => 0
  | 1 => 192
  | 2 => 224
  | 3 => 240
  | _ => 256

theorem toNat_lt (c : Char) : c.val.toNat < 1114112 := by
  rcases c.valid with h | h
  · omega
  · exact h.2

theorem utf8EncodeChar_eq (c : Char) : String.utf8EncodeChar c =
    spread (leadBits (trailing c.val.toNat)) (trailing c.val.toNat) c.val.toNat := by
  have hlt := toNat_lt c
  unfold String.utf8EncodeChar trailing
  generalize c.val.toNat = v at *
  dsimp only
  split_ifs <;> simp only [spread, leadBits, Nat.zero_add, List.nil_append, List.cons_append,
    Nat.div_div_eq_div_mul, Nat.reduceMul]
  · rw [Nat.mod_eq_of_lt (by omega : v / 64 < 32), Nat.add_comm]
  · rw [Nat.mod_eq_of_lt (by omega : v / 4096 < 16), Nat.add_comm]
  · rw [Nat.mod_eq_of_lt (by omega : v / 262144 < 8), Nat.add_comm]

/-! ### Comparing characters -/

theorem ofNat_lt_ofNat {a b : Nat} (hlt : a < b) (hb : b < 256) : UInt8.ofNat a < UInt8.ofNat b := by
  rw [UInt8.lt_iff_toNat_lt, UInt8.toNat_ofNat', UInt8.toNat_ofNat']
  omega

/-- Numbers in equally many bytes are compared digit by digit. -/
theorem spread_lt {lead : Nat} : ∀ (k : Nat) {m n : Nat} (xs ys : List UInt8), m < n →
    lead + high k n < 256 → spread lead k m ++ xs < spread lead k n ++ ys
  | 0, m, n, xs, ys, hlt, hn => List.Lex.rel (ofNat_lt_ofNat (Nat.add_lt_add_left hlt lead) hn)
  | k + 1, m, n, xs, ys, hlt, hn => by
    rw [spread, spread, List.append_assoc, List.append_assoc]
    rcases Nat.lt_or_ge (m / 64) (n / 64) with hhigh | hhigh
    · exact spread_lt k _ _ hhigh hn
    · -- all bytes but the last are the same
      have heq : m / 64 = n / 64 := by omega
      rw [heq]
      refine List.append_left_lt (List.Lex.rel (ofNat_lt_ofNat ?_ ?_)) <;> omega

theorem spread_eq_cons (lead : Nat) : ∀ k v : Nat,
    ∃ bytes, spread lead k v = UInt8.ofNat (lead + high k v) :: bytes
  | 0, v => ⟨[], rfl⟩
  | k + 1, v => by
    obtain ⟨bytes, h⟩ := spread_eq_cons lead k (v / 64)
    refine ⟨bytes ++ [UInt8.ofNat (v % 64 + 128)], ?_⟩
    rw [spread, h, List.cons_append]
    rfl

/-- A leading byte stays below the marks for more trailing bytes. -/
theorem leadBits_add_high_lt {v : Nat} (hv : v < 1114112) :
    leadBits (trailing v) + high (trailing v) v < leadBits (trailing v + 1) := by
  unfold trailing
  split_ifs <;> simp only [leadBits, high] <;> omega

theorem leadBits_le {k k' : Nat} (h : k ≤ k') (hk' : k' ≤ 4) : leadBits k ≤ leadBits k' := by
  have hall : ∀ k' ≤ 4, ∀ k ≤ k', leadBits k ≤ leadBits k' := by decide
  exact hall k' hk' k h

theorem trailing_le_three (v : Nat) : trailing v ≤ 3 := by
  unfold trailing
  split_ifs <;> omega

theorem trailing_mono {m n : Nat} (h : m ≤ n) : trailing m ≤ trailing n := by
  unfold trailing
  split_ifs <;> omega

/-- A smaller character has smaller bytes, whatever follows. -/
theorem utf8EncodeChar_append_lt {c d : Char} (h : c < d) (xs ys : List UInt8) :
    String.utf8EncodeChar c ++ xs < String.utf8EncodeChar d ++ ys := by
  have hlt : c.val.toNat < d.val.toNat := UInt32.lt_iff_toNat_lt.mp h
  have hc := leadBits_add_high_lt (toNat_lt c)
  have hd := leadBits_add_high_lt (toNat_lt d)
  have hthree := trailing_le_three d.val.toNat
  have hbyte : leadBits (trailing d.val.toNat + 1) ≤ 256 := leadBits_le (Nat.succ_le_succ hthree) (Nat.le_refl 4)
  rw [utf8EncodeChar_eq, utf8EncodeChar_eq]
  rcases Nat.eq_or_lt_of_le (trailing_mono (Nat.le_of_lt hlt)) with heq | hless
  · rw [heq]
    exact spread_lt _ xs ys hlt (by omega)
  · have hmarks : leadBits (trailing c.val.toNat + 1) ≤ leadBits (trailing d.val.toNat) :=
      leadBits_le hless (by omega)
    obtain ⟨bytes, hbytes⟩ := spread_eq_cons (leadBits (trailing c.val.toNat)) (trailing c.val.toNat) c.val.toNat
    obtain ⟨bytes', hbytes'⟩ := spread_eq_cons (leadBits (trailing d.val.toNat)) (trailing d.val.toNat) d.val.toNat
    rw [hbytes, hbytes']
    exact List.Lex.rel (ofNat_lt_ofNat (by omega) (by omega))

/-! ### Comparing texts -/

theorem flatMap_utf8EncodeChar_lt : ∀ {cs ds : List Char}, cs < ds →
    cs.flatMap String.utf8EncodeChar < ds.flatMap String.utf8EncodeChar
  | [], [], h => absurd h (List.lt_irrefl [])
  | [], d :: ds, _ => by
    obtain ⟨byte, bytes, hbytes⟩ := List.exists_cons_of_ne_nil (String.utf8EncodeChar_ne_nil (c := d))
    rw [List.flatMap_cons, hbytes]
    exact List.Lex.nil
  | c :: cs, [], h => absurd h (List.not_lt_nil _)
  | c :: cs, d :: ds, h => by
    rw [List.flatMap_cons, List.flatMap_cons]
    rcases List.cons_lt_cons_iff.mp h with hlt | ⟨rfl, hlt⟩
    · exact utf8EncodeChar_append_lt hlt _ _
    · exact List.append_left_lt (flatMap_utf8EncodeChar_lt hlt)

theorem utf8_lt_of_lt {a b : String} (h : a < b) : utf8 a < utf8 b := by
  rw [utf8_eq, utf8_eq]
  exact flatMap_utf8EncodeChar_lt h

/-- **Texts are in the order of their bytes.** -/
theorem utf8_lt_iff {a b : String} : utf8 a < utf8 b ↔ a < b := by
  refine ⟨fun h => ?_, utf8_lt_of_lt⟩
  by_contra hnot
  by_cases hlt : b < a
  · exact List.lt_asymm h (utf8_lt_of_lt hlt)
  · obtain rfl := String.le_antisymm (String.not_lt.mp hlt) (String.not_lt.mp hnot)
    exact List.lt_irrefl _ h

end SkitPage.Text
