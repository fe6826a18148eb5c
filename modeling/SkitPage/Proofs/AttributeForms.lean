import SkitPage.Text.Escape
import SkitPage.Proofs.Lexemes
import SkitPage.Proofs.Maps

/-!
# How attributes are written

What stands in a tag after its name is a row of attributes, each a key, an equals sign and a value in
quotes, with blanks between them as one likes (`Markup.AttributesText`). A value stands for the text in
which its references are replaced (`Markup.Denotes`). The attributes of a tag can be read just where it is
written so and no key stands twice, and they are the map of its keys and the texts of their values
(`Markup.attributes_eq_ok`).

A reference is the name of one of the five characters that have one, or the number of a character in
decimal or hexadecimal digits (`Markup.Reference`). A number may have any number of leading zeros; the
bound of 32 bits that is kept while it is read refuses nothing, since no character has a larger number.

Key definitions: `Markup.Reference`, `Markup.Denotes`, `Markup.AttributesText`, `Markup.HasAttributes`.
Key theorems: `Markup.unescape_eq_ok`, `Markup.AttributeText.next_eq`, `Markup.attributes_eq_ok`.
-/

namespace SkitPage.Markup

/-! ### References -/

/-- The number that digits continue `n` to, if they are digits. -/
def numeral? (base n : Nat) (digits : List Char) : Option Nat :=
  digits.foldlM (fun n c => (Text.digit? base c).map (base * n + ·)) n

/-- What may stand between `&` and `;`, and the character that it is: the name of one of the five
characters that have one, or the number of a character. -/
inductive Reference : List Char → Char → Prop
  | named {c : Char} {name : String} : Text.entity? c = some name → Reference name.toList c
  | decimal {c : Char} {digits : List Char} :
      digits ≠ [] → numeral? 10 0 digits = some c.toNat → c ≠ '\x00' → Reference ('#' :: digits) c
  | hexadecimal {c : Char} {digits : List Char} :
      digits ≠ [] → numeral? 16 0 digits = some c.toNat → c ≠ '\x00' → Reference ('#' :: 'x' :: digits) c

/-- The text that the value of an attribute stands for. -/
inductive Denotes : List Char → List Char → Prop
  | nil : Denotes [] []
  | plain {c : Char} {raw value : List Char} : c ≠ '&' → Denotes raw value → Denotes (c :: raw) (c :: value)
  | reference {body raw value : List Char} {c : Char} :
      Reference body c → Denotes raw value → Denotes ('&' :: body ++ ';' :: raw) (c :: value)

theorem numeral?_cons (base n : Nat) (c : Char) (cs : List Char) :
    numeral? base n (c :: cs) = (Text.digit? base c).bind fun d => numeral? base (base * n + d) cs := by
  rw [numeral?, List.foldlM_cons]
  cases Text.digit? base c <;> rfl

theorem le_of_numeral? {base : Nat} (hbase : 0 < base) {m : Nat} : ∀ {cs : List Char} {n : Nat},
    numeral? base n cs = some m → n ≤ m
  | [], n, h => Nat.le_of_eq (Option.some.inj h)
  | c :: cs, n, h => by
    rw [numeral?_cons] at h
    obtain ⟨d, -, h⟩ := Option.bind_eq_some_iff.mp h
    have hrest := le_of_numeral? hbase h
    have hn : n ≤ base * n := Nat.le_mul_of_pos_left n hbase
    omega

/-- Only the number itself has to fit: what is read of it first is smaller. -/
theorem number_eq_ok {base : Nat} (hbase : 0 < base) {m : Nat} : ∀ {cs : List Char} {n : Nat}, n < UInt32.size →
    (number base n cs = .ok m ↔ numeral? base n cs = some m ∧ m < UInt32.size)
  | [], n, hn => by
    rw [number, Except.ok.injEq]
    constructor
    · rintro rfl
      exact ⟨rfl, hn⟩
    · rintro ⟨h, -⟩
      exact Option.some.inj h
  | c :: cs, n, hn => by
    rw [number, numeral?_cons]
    cases hd : Text.digit? base c with
    | none => simp
    | some d =>
      rw [Option.bind_some]
      dsimp only
      by_cases hlt : base * n + d < UInt32.size
      · rw [if_pos hlt, number_eq_ok hbase hlt]
      · rw [if_neg hlt]
        refine ⟨nofun, ?_⟩
        rintro ⟨h, hm⟩
        have := le_of_numeral? hbase h
        omega

theorem unsigned_eq_ok {base : Nat} (hbase : 0 < base) {digits : List Char} {m : Nat} :
    unsigned base digits = .ok m ↔ digits ≠ [] ∧ numeral? base 0 digits = some m ∧ m < UInt32.size := by
  have hsign : ∀ c cs, c = '+' ∨ c = '-' → numeral? base 0 (c :: cs) = none := by
    intro c cs hc
    have : Text.digit? base c = none := by
      rcases hc with rfl | rfl <;> rfl
    rw [numeral?_cons, this, Option.bind_none]
  unfold unsigned
  split
  · simp
  · simp [hsign]
  · simp [hsign]
  · rename_i hne _ _
    rw [number_eq_ok hbase (by decide)]
    exact ⟨fun h => ⟨hne, h⟩, fun h => h.2⟩

/-- The character with a number. -/
def characterOf (code : Nat) : Except ReferenceFault Char :=
  if code = 0 then .error .zero
  else if code.isValidChar then .ok (Char.ofNat code)
  else .error (.noCharacter code)

theorem characterOf_eq_ok {code : Nat} {c : Char} : characterOf code = .ok c ↔ code = c.toNat ∧ c ≠ '\x00' := by
  unfold characterOf
  by_cases hzero : code = 0
  · rw [if_pos hzero]
    refine ⟨nofun, ?_⟩
    rintro ⟨rfl, hc⟩
    exact absurd (Char.toNat_inj.mp hzero) hc
  · rw [if_neg hzero]
    by_cases hvalid : code.isValidChar
    · rw [if_pos hvalid, Except.ok.injEq]
      constructor
      · rintro rfl
        have hcode : (Char.ofNat code).toNat = code := by
          rw [Char.ofNat, dif_pos hvalid]
          rfl
        refine ⟨hcode.symm, fun h => hzero ?_⟩
        rw [← hcode, h]
        rfl
      · rintro ⟨rfl, -⟩
        exact Char.ofNat_toNat c
    · rw [if_neg hvalid]
      refine ⟨nofun, ?_⟩
      rintro ⟨rfl, -⟩
      exact absurd c.valid hvalid

theorem entityChar?_eq_some {name : List Char} {c : Char} :
    entityChar? name = some c ↔ Text.entity? c = some (String.ofList name) := by
  constructor
  · intro h
    unfold entityChar? at h
    split at h <;> cases h <;> decide
  · intro h
    have hname : name = (String.ofList name).toList := (String.toList_ofList).symm
    unfold Text.entity? at h
    split at h
    case h_6 => cases h
    all_goals
      rw [hname, ← Option.some.inj h]
      rfl

theorem numbered_eq_ok {base : Nat} (hbase : 0 < base) {digits : List Char} {c : Char} :
    (unsigned base digits >>= characterOf) = .ok c ↔
      digits ≠ [] ∧ numeral? base 0 digits = some c.toNat ∧ c ≠ '\x00' := by
  have hsmall : c.toNat < UInt32.size := c.val.toNat_lt
  constructor
  · intro h
    cases hcode : unsigned base digits with
    | error e =>
      rw [hcode] at h
      cases h
    | ok code =>
      rw [hcode] at h
      obtain ⟨rfl, hc⟩ := characterOf_eq_ok.mp h
      obtain ⟨hne, hnumeral, -⟩ := (unsigned_eq_ok hbase).mp hcode
      exact ⟨hne, hnumeral, hc⟩
  · rintro ⟨hne, hnumeral, hc⟩
    rw [(unsigned_eq_ok hbase).mpr ⟨hne, hnumeral, hsmall⟩]
    exact characterOf_eq_ok.mpr ⟨rfl, hc⟩

theorem character_decimal {cs : List Char} (h : ∀ digits, cs ≠ 'x' :: digits) :
    character cs = unsigned 10 cs >>= characterOf := by
  unfold character
  split
  · exact absurd rfl (h _)
  · rfl

theorem character_eq_ok {cs : List Char} {c : Char} : character cs = .ok c ↔ Reference ('#' :: cs) c := by
  have hnamed : ∀ name, Text.entity? c = some name → name.toList ≠ '#' :: cs := by
    intro name h
    unfold Text.entity? at h
    split at h <;> cases h <;> exact nofun
  by_cases hx : ∃ digits, cs = 'x' :: digits
  · obtain ⟨digits, rfl⟩ := hx
    have hdef : character ('x' :: digits) = unsigned 16 digits >>= characterOf := rfl
    rw [hdef, numbered_eq_ok (by decide)]
    refine ⟨fun ⟨hne, hnumeral, hc⟩ => .hexadecimal hne hnumeral hc, fun h => ?_⟩
    generalize hcs : '#' :: 'x' :: digits = w at h
    cases h with
    | named h => exact absurd hcs.symm (hnamed _ h)
    | decimal _ hnumeral =>
      obtain ⟨-, rfl⟩ := List.cons.inj hcs
      cases hnumeral
    | hexadecimal hne hnumeral hc =>
      obtain ⟨-, rfl⟩ := List.cons.inj (List.cons.inj hcs).2
      exact ⟨hne, hnumeral, hc⟩
  · rw [character_decimal (not_exists.mp hx), numbered_eq_ok (by decide)]
    refine ⟨fun ⟨hne, hnumeral, hc⟩ => .decimal hne hnumeral hc, fun h => ?_⟩
    generalize hcs : '#' :: cs = w at h
    cases h with
    | named h => exact absurd hcs.symm (hnamed _ h)
    | decimal hne hnumeral hc =>
      obtain ⟨-, rfl⟩ := List.cons.inj hcs
      exact ⟨hne, hnumeral, hc⟩
    | hexadecimal =>
      obtain ⟨-, rfl⟩ := List.cons.inj hcs
      exact absurd ⟨_, rfl⟩ hx

theorem entityBody?_eq_some {cs body rest : List Char} :
    entityBody? cs = some (body, rest) ↔ cs = body ++ ';' :: rest ∧ ∀ c ∈ body, c ≠ ';' ∧ c ≠ '&' := by
  fun_induction entityBody? cs generalizing body with
  | case1 => simp
  | case2 after =>
    constructor
    · intro h
      obtain ⟨rfl, rfl⟩ : [] = body ∧ after = rest := Prod.mk.inj (Option.some.inj h)
      exact ⟨rfl, List.forall_mem_nil _⟩
    · rintro ⟨hcs, hbody⟩
      cases body with
      | nil =>
        obtain ⟨-, rfl⟩ := List.cons.inj hcs
        rfl
      | cons c body =>
        obtain ⟨rfl, -⟩ := List.cons.inj hcs
        exact absurd rfl (hbody _ List.mem_cons_self).1
  | case3 after =>
    refine ⟨by rintro ⟨⟩, ?_⟩
    rintro ⟨hcs, hbody⟩
    cases body with
    | nil => exact absurd (List.cons.inj hcs).1 (by decide)
    | cons c body =>
      obtain ⟨rfl, -⟩ := List.cons.inj hcs
      exact absurd rfl (hbody _ List.mem_cons_self).2
  | case4 c after hsemi hamp ih =>
    rw [Option.map_eq_some_iff]
    constructor
    · rintro ⟨⟨body', rest'⟩, hbody', heq⟩
      obtain ⟨rfl, rfl⟩ : c :: body' = body ∧ rest' = rest := Prod.mk.inj heq
      obtain ⟨rfl, hplain⟩ := ih.mp hbody'
      refine ⟨rfl, fun x hx => ?_⟩
      rcases List.mem_cons.mp hx with rfl | hx
      · exact ⟨hsemi, hamp⟩
      · exact hplain x hx
    · rintro ⟨hcs, hbody⟩
      cases body with
      | nil => exact absurd (List.cons.inj hcs).1 hsemi
      | cons c' body =>
        obtain ⟨rfl, hafter⟩ := List.cons.inj hcs
        exact ⟨(body, rest), ih.mpr ⟨hafter, fun x hx => hbody x (List.mem_cons_of_mem _ hx)⟩, rfl⟩

theorem digit_of_numeral? {base m : Nat} : ∀ {cs : List Char} {n : Nat}, numeral? base n cs = some m →
    ∀ c ∈ cs, Text.digit? base c ≠ none
  | [], _, _, _, hc => absurd hc List.not_mem_nil
  | c :: cs, n, h, x, hx => by
    rw [numeral?_cons] at h
    obtain ⟨d, hd, h⟩ := Option.bind_eq_some_iff.mp h
    rcases List.mem_cons.mp hx with rfl | hx
    · simp [hd]
    · exact digit_of_numeral? h x hx

theorem Reference.plain {body : List Char} {c : Char} (h : Reference body c) :
    ∀ x ∈ body, x ≠ ';' ∧ x ≠ '&' := by
  have hdigits : ∀ {base m : Nat} {digits : List Char}, numeral? base 0 digits = some m →
      ∀ x ∈ digits, x ≠ ';' ∧ x ≠ '&' := by
    intro base m digits h x hx
    constructor <;> rintro rfl <;> exact absurd rfl (digit_of_numeral? h _ hx)
  cases h with
  | named h =>
    unfold Text.entity? at h
    split at h <;> cases h <;> simp
  | decimal _ h =>
    rw [List.forall_mem_cons]
    exact ⟨by decide, hdigits h⟩
  | hexadecimal _ h =>
    rw [List.forall_mem_cons, List.forall_mem_cons]
    exact ⟨by decide, by decide, hdigits h⟩

/-- What is made of the character that a reference stands for. -/
theorem referent_eq_ok {body : List Char} {fault : List Char → MarkupFault} {β : Type}
    {make : Char → Except MarkupFault β} {b : β} :
    (match body with
      | '#' :: digits => (character digits).mapError MarkupFault.reference >>= make
      | name => match entityChar? name with
        | some c => Except.ok c >>= make
        | none => Except.error (fault name) >>= make) = Except.ok b ↔
      ∃ c, Reference body c ∧ make c = .ok b := by
  split
  case h_1 digits =>
    cases hcode : character digits with
    | error e =>
      refine ⟨by rintro ⟨⟩, ?_⟩
      rintro ⟨c, hc, -⟩
      rw [character_eq_ok.mpr hc] at hcode
      cases hcode
    | ok c =>
      refine ⟨fun h => ⟨c, character_eq_ok.mp hcode, h⟩, ?_⟩
      rintro ⟨c', hc', h⟩
      obtain rfl := Except.ok.inj ((character_eq_ok.mpr hc').symm.trans hcode)
      exact h
  case h_2 hhash =>
    have hnamed : ∀ c, entityChar? body = some c ↔ Reference body c := by
      intro c
      rw [entityChar?_eq_some]
      constructor
      · intro h
        have := Reference.named h
        rwa [String.toList_ofList] at this
      · intro h
        cases h with
        | named h => rwa [String.ofList_toList]
        | decimal => exact absurd rfl (hhash _)
        | hexadecimal => exact absurd rfl (hhash _)
    cases hc : entityChar? body with
    | none =>
      refine ⟨by rintro ⟨⟩, ?_⟩
      rintro ⟨c, hc', -⟩
      rw [(hnamed c).mpr hc'] at hc
      cases hc
    | some c =>
      refine ⟨fun h => ⟨c, (hnamed c).mp hc, h⟩, ?_⟩
      rintro ⟨c', hc', h⟩
      obtain rfl := Option.some.inj (((hnamed c').mpr hc').symm.trans hc)
      exact h

theorem unescapeFrom_plain {size : Nat} {c : Char} (hc : c ≠ '&') (cs : List Char) :
    unescapeFrom size (c :: cs) = (unescapeFrom size cs).map (c :: ·) := by
  rw [unescapeFrom]
  · cases unescapeFrom size cs <;> rfl
  · exact hc

theorem unescapeFrom_reference {size : Nat} {rest value : List Char} :
    unescapeFrom size ('&' :: rest) = .ok value ↔ ∃ body after c tail, entityBody? rest = some (body, after) ∧
      Reference body c ∧ unescapeFrom size after = .ok tail ∧ value = c :: tail := by
  have htail : ∀ {after : List Char} {c : Char},
      (unescapeFrom size after >>= fun tail => pure (c :: tail)) = Except.ok value ↔
        ∃ tail, unescapeFrom size after = .ok tail ∧ value = c :: tail := by
    intro after c
    cases unescapeFrom size after with
    | error e => exact ⟨nofun, fun ⟨_, h, _⟩ => nomatch h⟩
    | ok tail =>
      refine ⟨fun h => ⟨tail, rfl, (Except.ok.inj h).symm⟩, ?_⟩
      rintro ⟨_, h, rfl⟩
      obtain rfl := Except.ok.inj h
      rfl
  rw [unescapeFrom]
  dsimp only
  constructor
  · intro h
    split at h
    case h_1 => cases h
    case h_2 body after hbody =>
      obtain ⟨c, hc, h⟩ := referent_eq_ok.mp h
      obtain ⟨tail, hafter, rfl⟩ := htail.mp h
      exact ⟨body, after, c, tail, hbody, hc, hafter, rfl⟩
  · rintro ⟨body, after, c, tail, hbody, hc, hafter, rfl⟩
    split
    case h_1 hnone =>
      rw [hbody] at hnone
      cases hnone
    case h_2 body' after' hbody' =>
      obtain ⟨rfl, rfl⟩ : body = body' ∧ after = after' :=
        Prod.mk.inj (Option.some.inj (hbody.symm.trans hbody'))
      exact referent_eq_ok.mpr ⟨c, hc, htail.mpr ⟨tail, hafter, rfl⟩⟩

theorem denotes_of_unescapeFrom {size : Nat} : ∀ {raw value : List Char}, unescapeFrom size raw = .ok value →
    Denotes raw value
  | [], value, h => by
    rw [unescapeFrom] at h
    obtain rfl := Except.ok.inj h
    exact .nil
  | c :: raw, value, h => by
    by_cases hc : c = '&'
    · subst hc
      obtain ⟨body, after, c, tail, hbody, hc, htail, rfl⟩ := unescapeFrom_reference.mp h
      have := entityBody?_shorter hbody
      obtain ⟨rfl, -⟩ := entityBody?_eq_some.mp hbody
      exact .reference hc (denotes_of_unescapeFrom htail)
    · rw [unescapeFrom_plain hc] at h
      cases htail : unescapeFrom size raw with
      | error e =>
        rw [htail] at h
        cases h
      | ok tail =>
        rw [htail] at h
        obtain rfl := Except.ok.inj h
        exact .plain hc (denotes_of_unescapeFrom htail)
termination_by raw => raw.length

theorem Denotes.unescapeFrom_eq {raw value : List Char} (h : Denotes raw value) (size : Nat) :
    unescapeFrom size raw = .ok value := by
  induction h with
  | nil => rw [unescapeFrom]
  | plain hc _ ih =>
    rw [unescapeFrom_plain hc, ih]
    rfl
  | @reference body raw value c hc _ ih =>
    refine unescapeFrom_reference.mpr ⟨body, raw, c, value, ?_, hc, ih, rfl⟩
    exact entityBody?_eq_some.mpr ⟨rfl, hc.plain⟩

theorem unescape_eq_ok {raw value : List Char} : unescape raw = .ok value ↔ Denotes raw value :=
  ⟨denotes_of_unescapeFrom, fun h => h.unescapeFrom_eq _⟩

/-! ### Attributes -/

/-- A key: its first character is not looked at, and it goes on up to a blank or an equals sign. -/
def IsKey (key : List Char) : Prop :=
  ∃ first tail, key = first :: tail ∧ isBlank first = false ∧ ∀ c ∈ tail, endsKey c = false

/-- An attribute as it may be written, with its key and with its value between quotes. -/
inductive AttributeText (key raw : List Char) : List Char → Prop
  | mk {before after : List Char} {q : Char} : IsKey key → (∀ c ∈ before, isBlank c = true) →
      (∀ c ∈ after, isBlank c = true) → IsQuote q → q ∉ raw →
      AttributeText key raw (key ++ before ++ '=' :: after ++ q :: raw ++ [q])

/-- The attributes in a tag, in order: each may have blanks before it, and so may the end of the tag. -/
inductive AttributesText : List Char → List (List Char × List Char) → Prop
  | nil {blanks : List Char} : (∀ c ∈ blanks, isBlank c = true) → AttributesText blanks []
  | cons {blanks key raw value w cs : List Char} {pairs : List (List Char × List Char)} :
      (∀ c ∈ blanks, isBlank c = true) → AttributeText key raw w → Denotes raw value → AttributesText cs pairs →
      AttributesText (blanks ++ w ++ cs) ((key, value) :: pairs)

theorem dropWhile_eq_cons {p : Char → Bool} {cs rest : List Char} {c : Char} :
    cs.dropWhile p = c :: rest ↔ ∃ pre, cs = pre ++ c :: rest ∧ (∀ x ∈ pre, p x = true) ∧ p c = false := by
  constructor
  · intro h
    refine ⟨cs.takeWhile p, ?_, fun x hx => List.mem_takeWhile_imp hx, ?_⟩
    · rw [← h, List.takeWhile_append_dropWhile]
    · simpa [h] using List.head?_dropWhile_not p cs
  · rintro ⟨pre, rfl, hpre, hc⟩
    rw [List.dropWhile_append_of_pos hpre, List.dropWhile_cons_of_neg (by simp [hc])]

theorem takeWhile_eq_of {p : Char → Bool} {pre rest : List Char} {c : Char} (hpre : ∀ x ∈ pre, p x = true)
    (hc : p c = false) : (pre ++ c :: rest).takeWhile p = pre := by
  rw [List.takeWhile_append_of_pos hpre, List.takeWhile_cons_of_neg (by simp [hc]), List.append_nil]

theorem nextAttribute_eq_none {size : Nat} {seen : List (List Char × Nat)} {cs : List Char} :
    nextAttribute size seen cs = .ok none ↔ ∀ c ∈ cs, isBlank c = true := by
  rw [← List.dropWhile_eq_nil_iff]
  unfold nextAttribute
  dsimp only
  split
  case h_1 h => simp [h]
  case h_2 first rest h =>
    refine ⟨fun hnone => ?_, fun hnil => absurd (h.symm.trans hnil) (by simp)⟩
    split at hnone
    case h_1 =>
      split at hnone
      case h_1 => cases hnone
      case h_2 =>
        split at hnone
        case h_1 => cases hnone
        case h_2 =>
          split at hnone
          · split at hnone <;> cases hnone
          · cases hnone
    case h_2 => cases hnone

theorem attributeText_of_next {size : Nat} {seen : List (List Char × Nat)} {cs left : List Char}
    {a : RawAttribute} (h : nextAttribute size seen cs = .ok (some (a, left))) :
    ∃ blanks w, cs = blanks ++ w ++ left ∧ (∀ c ∈ blanks, isBlank c = true) ∧ AttributeText a.key a.value w ∧
      seen.lookup a.key = none := by
  unfold nextAttribute at h
  dsimp only at h
  split at h
  case h_1 => cases h
  case h_2 first rest hfirst =>
    obtain ⟨blanks, rfl, hblanks, hfirst⟩ := dropWhile_eq_cons.mp hfirst
    split at h
    case h_2 => cases h
    case h_1 afterEquals hequals =>
      obtain ⟨before, hrest, hbefore, -⟩ := dropWhile_eq_cons.mp hequals
      split at h
      case h_1 => cases h
      case h_2 hseen =>
        split at h
        case h_1 => cases h
        case h_2 q afterQuote hquote =>
          obtain ⟨after, rfl, hafter, -⟩ := dropWhile_eq_cons.mp hquote
          split at h
          case isFalse => cases h
          case isTrue hq =>
            split at h
            case h_1 => cases h
            case h_2 q' left' hclose =>
              obtain ⟨raw, rfl, hraw, hq'⟩ := dropWhile_eq_cons.mp hclose
              obtain rfl : q' = q := by simpa using hq'
              obtain ⟨rfl, rfl⟩ : _ = a ∧ left' = left := Prod.mk.inj (Option.some.inj (Except.ok.inj h))
              have hkey : rest = rest.takeWhile (!endsKey ·) ++
                  (before ++ '=' :: (after ++ q' :: (raw ++ q' :: left'))) := by
                rw [← hrest, List.takeWhile_append_dropWhile]
              refine ⟨blanks, _, ?_, hblanks, .mk ⟨first, _, rfl, hfirst, fun c hc => ?_⟩ hbefore hafter hq ?_,
                hseen⟩
              · conv_lhs => rw [hkey]
                rw [takeWhile_eq_of hraw hq']
                simp
              · simpa using List.mem_takeWhile_imp hc
              · rw [takeWhile_eq_of hraw hq']
                intro hmem
                simpa using hraw q' hmem

theorem AttributeText.next_eq {key raw w : List Char} (h : AttributeText key raw w) {blanks : List Char}
    (hblanks : ∀ c ∈ blanks, isBlank c = true) {seen : List (List Char × Nat)} (hseen : seen.lookup key = none)
    (size : Nat) (left : List Char) :
    ∃ position, nextAttribute size seen (blanks ++ w ++ left) = .ok (some (⟨key, position, raw⟩, left)) := by
  obtain ⟨hkey, hbefore, hafter, hq, hraw⟩ := h
  rename_i before after q
  obtain ⟨first, tail, rfl, hfirst, htail⟩ := hkey
  have hequals : isBlank '=' = false := by decide
  have hquote : isBlank q = false := by
    rcases hq with rfl | rfl <;> decide
  have hraw' : ∀ c ∈ raw, decide (c ≠ q) = true := by
    intro c hc
    refine decide_eq_true ?_
    rintro rfl
    exact hraw hc
  -- What stands after the key begins with a character that ends it.
  obtain ⟨stop, more, hmore, hstop⟩ : ∃ stop more,
      before ++ '=' :: (after ++ q :: (raw ++ q :: left)) = stop :: more ∧ (!endsKey stop) = false := by
    cases before with
    | nil => exact ⟨_, _, rfl, by decide⟩
    | cons b before => exact ⟨b, _, rfl, by simp [endsKey, hbefore b List.mem_cons_self]⟩
  have htail' : ∀ c ∈ tail, (!endsKey c) = true := fun c hc => by simp [htail c hc]
  have hw : blanks ++ (first :: tail ++ before ++ '=' :: after ++ q :: raw ++ [q]) ++ left =
      blanks ++ first :: (tail ++ stop :: more) := by
    rw [← hmore]
    simp
  refine ⟨size - Text.byteLength (first :: (tail ++ stop :: more)), ?_⟩
  unfold nextAttribute
  rw [hw, dropWhile_eq_cons.mpr ⟨blanks, rfl, hblanks, hfirst⟩]
  dsimp only
  rw [takeWhile_eq_of htail' hstop, dropWhile_eq_cons.mpr ⟨tail, rfl, htail', hstop⟩, ← hmore,
    dropWhile_eq_cons.mpr ⟨before, rfl, hbefore, hequals⟩]
  simp only [hseen, dropWhile_eq_cons.mpr ⟨after, rfl, hafter, hquote⟩, if_pos (show _ ∨ _ from hq)]
  rw [dropWhile_eq_cons.mpr ⟨raw, rfl, hraw', by simp⟩, takeWhile_eq_of hraw' (by simp)]

/-- The map of attributes, inserted in the order in which they are written. -/
def insertPairs (found : OrderedMap String String) (pairs : List (List Char × List Char)) :
    OrderedMap String String :=
  pairs.foldl (fun m p => m.insert (String.ofList p.1) (String.ofList p.2)) found

theorem attributesFrom_sound {size : Nat} {m : OrderedMap String String} :
    ∀ {cs : List Char} {seen : List (List Char × Nat)} {found : OrderedMap String String},
    attributesFrom size seen found cs = .ok m → ∃ pairs, AttributesText cs pairs ∧ (pairs.map (·.1)).Nodup ∧
      (∀ p ∈ pairs, seen.lookup p.1 = none) ∧ insertPairs found pairs = m := by
  intro cs seen found h
  rw [attributesFrom] at h
  split at h
  case h_1 => cases h
  case h_2 hnone =>
    exact ⟨[], .nil (nextAttribute_eq_none.mp hnone), List.nodup_nil, List.forall_mem_nil _, Except.ok.inj h⟩
  case h_3 a left hnext =>
    split at h
    case h_1 => cases h
    case h_2 value hvalue =>
      have := nextAttribute_shorter hnext
      obtain ⟨pairs, htext, hnodup, hseen, hm⟩ := attributesFrom_sound h
      obtain ⟨blanks, w, rfl, hblanks, hw, hkey⟩ := attributeText_of_next hnext
      have hnew : ∀ p ∈ pairs, p.1 ≠ a.key ∧ seen.lookup p.1 = none := by
        intro p hp
        have := List.lookup_eq_none_iff.mp (hseen p hp)
        obtain ⟨hne, hbefore⟩ := List.forall_mem_cons.mp this
        exact ⟨bne_iff_ne.mp hne, List.lookup_eq_none_iff.mpr hbefore⟩
      refine ⟨(a.key, value) :: pairs, .cons hblanks hw (unescape_eq_ok.mp hvalue) htext, ?_, ?_, hm⟩
      · refine List.nodup_cons.mpr ⟨fun hmem => ?_, hnodup⟩
        obtain ⟨p, hp, heq⟩ := List.mem_map.mp hmem
        exact (hnew p hp).1 heq
      · refine List.forall_mem_cons.mpr ⟨hkey, fun p hp => (hnew p hp).2⟩
termination_by cs => cs.length

theorem AttributesText.attributesFrom_eq {cs : List Char} {pairs : List (List Char × List Char)}
    (h : AttributesText cs pairs) (size : Nat) :
    ∀ {seen : List (List Char × Nat)} {found : OrderedMap String String}, (pairs.map (·.1)).Nodup →
      (∀ p ∈ pairs, seen.lookup p.1 = none) →
      attributesFrom size seen found cs = .ok (insertPairs found pairs) := by
  induction h with
  | nil hblanks =>
    intro seen found _ _
    rw [attributesFrom]
    split
    case h_1 herr =>
      rw [nextAttribute_eq_none.mpr hblanks] at herr
      cases herr
    case h_2 => rfl
    case h_3 hsome =>
      rw [nextAttribute_eq_none.mpr hblanks] at hsome
      cases hsome
  | @cons blanks key raw value w cs pairs hblanks hw hvalue _ ih =>
    intro seen found hnodup hseen
    obtain ⟨hkey, hrest⟩ := List.forall_mem_cons.mp hseen
    obtain ⟨hfresh, hnodup⟩ := List.nodup_cons.mp hnodup
    obtain ⟨position, hnext⟩ := hw.next_eq hblanks hkey size cs
    rw [attributesFrom]
    split
    case h_1 herr =>
      rw [hnext] at herr
      cases herr
    case h_2 hnone =>
      rw [hnext] at hnone
      cases hnone
    case h_3 a left hsome =>
      obtain ⟨rfl, rfl⟩ : ⟨key, position, raw⟩ = a ∧ cs = left :=
        Prod.mk.inj (Option.some.inj (Except.ok.inj (hnext.symm.trans hsome)))
      dsimp only
      rw [unescape_eq_ok.mpr hvalue]
      dsimp only
      refine ih hnodup fun p hp => ?_
      have hne : p.1 ≠ key := by
        intro heq
        exact hfresh (List.mem_map.mpr ⟨p, hp, heq⟩)
      refine List.lookup_eq_none_iff.mpr (List.forall_mem_cons.mpr ⟨bne_iff_ne.mpr hne, ?_⟩)
      exact List.lookup_eq_none_iff.mp (hrest p hp)

/-- The attributes of a tag, from what stands between its brackets. -/
def HasAttributes (content : List Char) (found : OrderedMap String String) : Prop :=
  ∃ pairs, AttributesText (content.drop (nameOf content).length) pairs ∧ (pairs.map (·.1)).Nodup ∧
    insertPairs .empty pairs = found

theorem attributes_eq_ok {content : List Char} {found : OrderedMap String String} :
    attributes content = .ok found ↔ HasAttributes content found := by
  unfold attributes HasAttributes
  constructor
  · intro h
    obtain ⟨pairs, htext, hnodup, -, hfound⟩ := attributesFrom_sound h
    exact ⟨pairs, htext, hnodup, hfound⟩
  · rintro ⟨pairs, htext, hnodup, rfl⟩
    exact htext.attributesFrom_eq _ hnodup fun _ _ => rfl

end SkitPage.Markup
