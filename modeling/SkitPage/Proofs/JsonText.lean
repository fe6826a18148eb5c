import SkitPage.Json.Printer
import SkitPage.Json.Reader
import SkitPage.Proofs.Maps

/-!
# Reading what was written

The reader gets back a value from its compact text, up to the order of the fields in its objects, which the
reader sorts by name (`Json.parse?_compact`). The value has to be one that a text can hold: no doubles, whole
numbers of 64 bits and no deeper nesting than the reader follows (`Json.Exact`).

What is read at each place is said for a text with anything behind it that can follow a value
(`Json.Closed`), so that a value is read the same alone, in an array and in an object. The fuel of the reader
is counted in characters: twice the length of a text is enough for its value.

Key definitions: `Json.Exact`, `Json.ordered`, `Json.Closed`.
Key theorems: `Json.readString_quote`, `Json.readNumber_digits`, `Json.Exact.reads`, `Json.parse?_compact`.
-/

namespace SkitPage.Json

/-- What can follow a value in a compact text: nothing, or what ends an item or a field. -/
def Closed (rest : List Char) : Prop := ∀ c ∈ rest.head?, c ∈ [',', ']', '\x7d']

/-! ### Numbers -/

/-- The values of the decimal digits of a number. -/
def digits (n : Nat) : List Nat := (Nat.toDigits 10 n).map fun c => c.toNat - '0'.toNat

theorem spanDigits_append {cs rest : List Char} (hcs : ∀ c ∈ cs, c.isDigit = true) (hrest : Closed rest) :
    spanDigits (cs ++ rest) = (cs.map fun c => c.toNat - '0'.toNat, rest) := by
  induction cs with
  | nil =>
    cases rest with
    | nil => rfl
    | cons c rest =>
      have hc : c.isDigit = false := by
        have := hrest c rfl
        simp only [List.mem_cons, List.not_mem_nil, or_false] at this
        rcases this with rfl | rfl | rfl <;> rfl
      simp [spanDigits, digit?, hc]
  | cons c cs ih =>
    have hc := hcs c List.mem_cons_self
    simp [spanDigits, digit?, hc, ih fun x hx => hcs x (List.mem_cons_of_mem _ hx)]

theorem spanDigits_toDigits (n : Nat) {rest : List Char} (hrest : Closed rest) :
    spanDigits (Nat.toDigits 10 n ++ rest) = (digits n, rest) :=
  spanDigits_append (fun _ hc => Nat.isDigit_of_mem_toDigits (by decide) (by decide) hc) hrest

/-- A number is not shorter than what is read of it first. -/
theorem le_foldl_digits : ∀ (ds : List Nat) (m : Nat), m ≤ ds.foldl (fun n d => 10 * n + d) m
  | [], _ => Nat.le_refl _
  | d :: ds, m => by
    have := le_foldl_digits ds (10 * m + d)
    rw [List.foldl_cons]
    omega

theorem accumulate_of_le : ∀ (ds : List Nat) (m : Nat), ds.foldl (fun n d => 10 * n + d) m ≤ maxWord →
    accumulate m ds = (ds.foldl (fun n d => 10 * n + d) m, 0)
  | [], _, _ => rfl
  | d :: ds, m, h => by
    rw [List.foldl_cons] at h ⊢
    rw [accumulate, if_pos (Nat.le_trans (le_foldl_digits ds _) h), accumulate_of_le ds _ h]

theorem accumulate_digits {n : Nat} (h : n ≤ maxWord) : accumulate 0 (digits n) = (n, 0) := by
  have hfold : (digits n).foldl (fun n d => 10 * n + d) 0 = n := by
    rw [digits, List.foldl_map]
    exact Nat.ofDigitChars_toDigits (by decide) (by decide)
  rw [accumulate_of_le _ _ (by rwa [hfold]), hfold]

/-- Decimal digits have no zero in front. -/
theorem digits_eq_cons (n : Nat) : ∃ d ds, digits n = d :: ds ∧ (d = 0 → n = 0 ∧ ds = []) := by
  induction n using Nat.strongRecOn with
  | ind n ih =>
    rw [digits, Nat.toDigits_eq_if (by decide)]
    split
    case isTrue h =>
      refine ⟨n, [], ?_, fun hn => ⟨hn, rfl⟩⟩
      simp [Nat.toNat_digitChar_of_lt_ten h]
    case isFalse h =>
      obtain ⟨d, ds, hds, hd⟩ := ih (n / 10) (by omega)
      rw [List.map_append, ← digits, hds]
      refine ⟨d, _, rfl, fun hzero => ?_⟩
      have := (hd hzero).1
      omega

theorem toDigits_eq_cons (n : Nat) : ∃ c cs, Nat.toDigits 10 n = c :: cs ∧ c.isDigit = true := by
  obtain ⟨c, cs, hcs⟩ := List.exists_cons_of_ne_nil (Nat.toDigits_ne_nil (n := n) (b := 10))
  exact ⟨c, cs, hcs, Nat.isDigit_of_mem_toDigits (by decide) (by decide) (hcs ▸ List.mem_cons_self)⟩

/-- What stands before the digits of a number. -/
def sign (negative : Bool) : List Char := if negative then ['-'] else []

/-- A sign and digits are read as a whole number. -/
theorem readNumber_digits {negative : Bool} {n : Nat} {v : Json} {rest : List Char}
    (hv : wholeNumber? negative (digits n) = some v) (hrest : Closed rest) :
    readNumber (sign negative ++ Nat.toDigits 10 n ++ rest) = some (v, rest) := by
  obtain ⟨d, ds, hds, hd⟩ := digits_eq_cons n
  unfold readNumber
  split
  rename_i negative' cs hsign
  obtain ⟨rfl, rfl⟩ : negative' = negative ∧ cs = Nat.toDigits 10 n ++ rest := by
    obtain ⟨c, cs, hcs, hc⟩ := toDigits_eq_cons n
    rw [hcs] at hsign ⊢
    cases negative with
    | true => simpa [sign] using hsign.symm
    | false =>
      have hminus : c ≠ '-' := by
        rintro rfl
        exact absurd hc (by decide)
      simpa [sign, hminus] using hsign.symm
  rw [spanDigits_toDigits n hrest]
  split
  case h_1 h => simp [hds] at h
  case h_2 h => simp_all
  case h_3 h =>
    obtain ⟨-, rfl⟩ := Prod.mk.inj h
    exact absurd (hrest '.' rfl) (by decide)
  case h_4 c _ _ _ _ h =>
    obtain ⟨rfl, rfl⟩ := Prod.mk.inj h
    have hc := hrest c rfl
    have hexponent : ¬(c = 'e' ∨ c = 'E') := by
      rintro (rfl | rfl) <;> exact absurd hc (by decide)
    rw [if_neg hexponent, hv]
    rfl
  case h_5 h =>
    obtain ⟨rfl, rfl⟩ := Prod.mk.inj h
    rw [hv]
    rfl

theorem toList_integer (k : Int) : (toString k).toList = sign (k < 0) ++ Nat.toDigits 10 k.natAbs := by
  cases k with
  | ofNat n => exact Nat.toList_repr
  | negSucc n =>
    change ("-" ++ Nat.repr (n + 1)).toList = _
    rw [String.toList_append, Nat.toList_repr]
    simp [sign]

theorem wholeNumber?_digits {k : Int} (hleast : -(Nat.pow 2 63 : Int) ≤ k) (hgreatest : k ≤ maxWord) :
    wholeNumber? (k < 0) (digits k.natAbs) = some (.integer k) := by
  have hword : k.natAbs ≤ maxWord := by
    have hmax : maxWord = 2 * Nat.pow 2 63 - 1 := rfl
    omega
  unfold wholeNumber?
  rw [accumulate_digits hword]
  by_cases hk : k < 0
  · have hrange : 0 < k.natAbs ∧ k.natAbs ≤ Nat.pow 2 63 := by omega
    have hvalue : -(k.natAbs : Int) = k := by omega
    simp only [decide_eq_true hk, Bool.not_true, Bool.false_eq_true, if_false, if_pos hrange, hvalue]
  · have hvalue : (k.natAbs : Int) = k := by omega
    simp only [decide_eq_false hk, Bool.not_false, if_true, hvalue]

/-! ### Strings -/

theorem hexDigit?_hexChar : ∀ d < 16, hexDigit? (hexChar d) = some d := by decide

/-- Four hexadecimal digits of no surrogate stand for their character, whatever follows. -/
theorem readString_unicode {a b c d : Char} {n : Nat} (hn : hex4? a b c d = some n) (hlow : n < 0xD800)
    (cs : List Char) :
    readString ('\\' :: 'u' :: a :: b :: c :: d :: cs) =
      (readString cs).map fun (text, rest) => (Char.ofNat n :: text, rest) := by
  rw [readString.eq_def]
  split
  case h_1 h => cases h
  case h_2 h => cases h
  case h_3 h =>
    -- Another escape follows. It is looked at only for the second half of a surrogate pair.
    cases h
    have hhigh : ¬(0xD800 ≤ n ∧ n < 0xDC00) := by omega
    have hsecond : ¬(0xDC00 ≤ n ∧ n < 0xE000) := by omega
    simp only [hn, Option.bind_eq_bind, Option.bind_some, if_neg hhigh, if_neg hsecond]
    cases readString _ <;> rfl
  case h_4 h =>
    cases h
    have hsurrogate : ¬(0xD800 ≤ n ∧ n < 0xE000) := by omega
    simp only [hn, Option.bind_eq_bind, Option.bind_some, if_neg hsurrogate]
    cases readString _ <;> rfl
  case h_5 hno h =>
    cases h
    exact (hno _ _ _ _ _ rfl rfl).elim
  case h_6 hno h =>
    cases h
    exact (hno _ _ rfl rfl).elim

theorem readString_simple {e c : Char} (h : simpleEscape? e = some c) (cs : List Char) :
    readString ('\\' :: e :: cs) = (readString cs).map fun (text, rest) => (c :: text, rest) := by
  have hu : e ≠ 'u' := by
    rintro rfl
    cases h
  rw [readString.eq_def]
  split
  case h_5 heq =>
    cases heq
    rw [h]
    cases readString cs <;> rfl
  case h_6 hno heq =>
    cases heq
    exact (hno _ _ rfl rfl).elim
  all_goals simp_all

theorem readString_plain {c : Char} (hquote : c ≠ '"') (hslash : c ≠ '\\') (hcontrol : ¬c.toNat < 0x20)
    (cs : List Char) :
    readString (c :: cs) = (readString cs).map fun (text, rest) => (c :: text, rest) := by
  rw [readString.eq_def]
  split
  case h_6 h =>
    cases h
    rw [if_neg (by simp [hcontrol, hslash])]
    cases readString cs <;> rfl
  all_goals simp_all

theorem readString_quoteChar (c : Char) (cs : List Char) :
    readString (quoteChar c ++ cs) = (readString cs).map fun (text, rest) => (c :: text, rest) := by
  unfold quoteChar
  split
  case h_8 hquote hslash _ _ _ _ _ =>
    split
    case isTrue hcontrol =>
      have hhex : hex4? '0' '0' (hexChar (c.toNat / 16)) (hexChar (c.toNat % 16)) = some c.toNat := by
        have hzero : hexDigit? '0' = some 0 := by decide
        rw [hex4?, hzero, hexDigit?_hexChar _ (show c.toNat / 16 < 16 by omega),
          hexDigit?_hexChar _ (show c.toNat % 16 < 16 by omega)]
        exact congrArg some (by omega)
      have hread := readString_unicode hhex (by omega) cs
      rwa [Char.ofNat_toNat] at hread
    case isFalse hcontrol => exact readString_plain hquote hslash hcontrol cs
  all_goals exact readString_simple rfl cs

/-- A text is read back from its quotation. -/
theorem readString_quote (text rest : List Char) :
    readString (text.flatMap quoteChar ++ '"' :: rest) = some (text, rest) := by
  induction text with
  | nil => rfl
  | cons c text ih =>
    rw [List.flatMap_cons, List.append_assoc, readString_quoteChar, ih]
    rfl

/-! ### Values -/

mutual

/-- The value with the fields of all its objects in order. -/
def ordered : Json → Json
  | .array items => .array (orderedItems items)
  | .fields entries => .object (orderedFields entries)
  | v => v

/-- The items, each with its fields in order. -/
def orderedItems : List Json → List Json
  | [] => []
  | v :: vs => ordered v :: orderedItems vs

/-- The fields, each with the fields of its value in order. -/
def orderedFields : List (String × Json) → List (String × Json)
  | [] => []
  | (name, v) :: rest => (name, ordered v) :: orderedFields rest

end

@[simp] theorem orderedItems_eq_map : ∀ items, orderedItems items = items.map ordered
  | [] => rfl
  | v :: vs => by rw [orderedItems, orderedItems_eq_map vs, List.map_cons]

@[simp] theorem orderedFields_eq_map :
    ∀ entries, orderedFields entries = entries.map fun e => (e.1, e.2.ordered)
  | [] => rfl
  | (name, v) :: rest => by rw [orderedFields, orderedFields_eq_map rest, List.map_cons]

@[simp] theorem compactItems_eq_map : ∀ items, compactItems items = items.map compact
  | [] => rfl
  | v :: vs => by rw [compactItems, compactItems_eq_map vs, List.map_cons]

@[simp] theorem compactFields_eq_map :
    ∀ entries, compactFields entries = entries.map fun e => quote e.1 ++ ":" ++ compact e.2
  | [] => rfl
  | (name, v) :: rest => by rw [compactFields, compactFields_eq_map rest, List.map_cons]

/-- The characters of the compact text. -/
def chars (v : Json) : List Char := v.compact.toList

/-- The characters of a field. -/
def fieldChars (e : String × Json) : List Char :=
  '"' :: e.1.toList.flatMap quoteChar ++ '"' :: ':' :: e.2.chars

theorem chars_string (text : String) :
    (Json.string text).chars = '"' :: text.toList.flatMap quoteChar ++ ['"'] := by
  rw [chars, compact, quote, String.toList_ofList]

theorem chars_array (items : List Json) :
    (Json.array items).chars = '[' :: [','].intercalate (items.map chars) ++ [']'] := by
  have hitems : items.map chars = (items.map compact).map String.toList := by
    rw [List.map_map]
    rfl
  rw [chars, compact, compactItems_eq_map, hitems, String.toList_append, String.toList_append,
    String.toList_intercalate]
  rfl

theorem chars_fields (entries : List (String × Json)) :
    (Json.fields entries).chars = '\x7b' :: [','].intercalate (entries.map fieldChars) ++ ['\x7d'] := by
  have hentries : entries.map fieldChars =
      (entries.map fun e => quote e.1 ++ ":" ++ compact e.2).map String.toList := by
    rw [List.map_map]
    exact List.map_congr_left fun e _ => by simp [fieldChars, chars, quote, String.toList_append]
  rw [chars, compact, compactFields_eq_map, hentries, String.toList_append, String.toList_append,
    String.toList_intercalate]
  rfl

/-- A value that a text holds without loss and that nests at most `depth` deep. -/
inductive Exact : Nat → Json → Prop
  | null {depth : Nat} : Exact depth .null
  | bool {depth : Nat} (b : Bool) : Exact depth (.bool b)
  | integer {depth : Nat} {k : Int} (hleast : -(Nat.pow 2 63 : Int) ≤ k) (hgreatest : k ≤ maxWord) :
    Exact depth (.integer k)
  | string {depth : Nat} (text : String) : Exact depth (.string text)
  | array {depth : Nat} {items : List Json} (h : ∀ v ∈ items, Exact depth v) : Exact (depth + 1) (.array items)
  | fields {depth : Nat} {entries : List (String × Json)} (h : ∀ e ∈ entries, Exact depth e.2) :
    Exact (depth + 1) (.fields entries)

theorem skipBlanks_cons {c : Char} (h : isBlank c = false) (cs : List Char) :
    skipBlanks (c :: cs) = c :: cs := by
  rw [skipBlanks, List.dropWhile_cons, h]
  rfl

/-- No number begins with a blank, with a bracket or like another value. -/
theorem ne_of_number {c x : Char} (hc : c.isDigit = true ∨ c = '-')
    (hx : x ∈ [' ', '\t', '\n', '\r', 'n', 't', 'f', '"', '[', ']', '\x7b']) : c ≠ x := by
  have hall : [' ', '\t', '\n', '\r', 'n', 't', 'f', '"', '[', ']', '\x7b'].all
      (fun x => !x.isDigit && x != '-') = true := by decide
  rintro rfl
  have hnone := List.all_eq_true.mp hall c hx
  rcases hc with hc | rfl
  · simp [hc] at hnone
  · simp at hnone

theorem isBlank_of_number {c : Char} (hc : c.isDigit = true ∨ c = '-') : isBlank c = false := by
  simp [isBlank, ne_of_number hc]

theorem exists_chars_integer (k : Int) :
    ∃ c cs, (Json.integer k).chars = c :: cs ∧ (c.isDigit = true ∨ c = '-') := by
  obtain ⟨c, cs, hcs, hc⟩ := toDigits_eq_cons k.natAbs
  rw [chars, compact, toList_integer, hcs]
  by_cases hk : k < 0
  · exact ⟨'-', c :: cs, by simp [sign, hk], Or.inr rfl⟩
  · exact ⟨c, cs, by simp [sign, hk], Or.inl hc⟩

/-- The text of a value begins with no blank and with no closing bracket. -/
theorem exists_chars {depth : Nat} {v : Json} (h : v.Exact depth) :
    ∃ c cs, v.chars = c :: cs ∧ isBlank c = false ∧ c ≠ ']' := by
  cases h with
  | null => exact ⟨'n', _, rfl, by decide, by decide⟩
  | bool b =>
    cases b with
    | false => exact ⟨'f', _, rfl, by decide, by decide⟩
    | true => exact ⟨'t', _, rfl, by decide, by decide⟩
  | @integer _ k =>
    obtain ⟨c, cs, hcs, hc⟩ := exists_chars_integer k
    exact ⟨c, cs, hcs, isBlank_of_number hc, ne_of_number hc (by simp)⟩
  | string text => exact ⟨'"', _, chars_string text, by decide, by decide⟩
  | array => exact ⟨'[', _, chars_array _, by decide, by decide⟩
  | fields => exact ⟨'\x7b', _, chars_fields _, by decide, by decide⟩

theorem readValue_number {fuel depth : Nat} {c : Char} {cs : List Char} (hc : c.isDigit = true ∨ c = '-') :
    readValue (fuel + 1) depth (c :: cs) = readNumber (c :: cs) := by
  rw [readValue, skipBlanks_cons (isBlank_of_number hc)]
  split
  case h_7 => rfl
  all_goals
    rename_i h
    exact absurd (List.cons.inj h).1 (ne_of_number hc (by simp))

/-- The reader gets a value back from its text, with twice as much fuel as the text is long. -/
def Reads (depth : Nat) (v : Json) : Prop :=
  ∀ fuel rest, Closed rest → 2 * v.chars.length ≤ fuel →
    readValue (fuel + 1) depth (v.chars ++ rest) = some (v.ordered, rest)

theorem readItems_chars {depth : Nat} : ∀ {v : Json} {vs : List Json}, (∀ x ∈ v :: vs, Reads depth x) →
    ∀ (fuel : Nat) (rest : List Char), 2 * ([','].intercalate ((v :: vs).map chars)).length + 2 ≤ fuel →
    readItems fuel depth ([','].intercalate ((v :: vs).map chars) ++ ']' :: rest) =
      some ((v :: vs).map ordered, rest)
  | v, [], h, fuel + 2, rest, hfuel => by
    simp only [List.map_cons, List.map_nil, List.intercalate_singleton] at hfuel ⊢
    have hv := h v List.mem_cons_self fuel (']' :: rest) (by simp [Closed]) (by omega)
    rw [readItems, hv]
    rfl
  | v, w :: ws, h, fuel + 2, rest, hfuel => by
    have hws := readItems_chars (fun x hx => h x (List.mem_cons_of_mem _ hx)) (fuel + 1) rest
    rw [List.map_cons, List.map_cons, List.intercalate_cons_cons, ← List.map_cons] at hfuel ⊢
    simp only [List.length_append, List.length_singleton] at hfuel
    have hv := h v List.mem_cons_self fuel (',' :: ([','].intercalate ((w :: ws).map chars) ++ ']' :: rest))
      (by simp [Closed]) (by omega)
    rw [List.append_assoc, List.append_assoc, List.singleton_append, readItems, hv]
    simp only [Option.bind_eq_bind, Option.bind_some, skipBlanks_cons (show isBlank ',' = false from rfl),
      hws (by omega)]
    rfl

theorem length_fieldChars (e : String × Json) : e.2.chars.length ≤ (fieldChars e).length := by
  simp only [fieldChars, List.length_append, List.length_cons]
  omega

/-- A field is read once its value is, and the character behind the value says if there is another. -/
theorem readFields_field {fuel depth : Nat} {e : String × Json} {cs rest : List Char} {c : Char} {v : Json}
    (hv : readValue fuel depth (e.2.chars ++ cs) = some (v, c :: rest)) (hc : isBlank c = false) :
    readFields (fuel + 1) depth (fieldChars e ++ cs) =
      if c = ',' then (readFields fuel depth rest).map fun (es, rest) => ((e.1, v) :: es, rest)
      else if c = '\x7d' then some ([(e.1, v)], rest) else none := by
  have hname := readString_quote e.1.toList (':' :: (e.2.chars ++ cs))
  have hchars : fieldChars e ++ cs =
      '"' :: (e.1.toList.flatMap quoteChar ++ '"' :: ':' :: (e.2.chars ++ cs)) := by
    simp [fieldChars]
  rw [hchars, readFields, skipBlanks_cons (show isBlank '"' = false from rfl)]
  simp only [hname, Option.bind_eq_bind, Option.bind_some,
    skipBlanks_cons (show isBlank ':' = false from rfl), hv, skipBlanks_cons hc, String.ofList_toList]
  split
  case h_1 h =>
    obtain ⟨rfl, rfl⟩ := List.cons.inj h
    rw [if_pos rfl]
    cases readFields _ _ _ <;> rfl
  case h_2 h =>
    obtain ⟨rfl, rfl⟩ := List.cons.inj h
    rfl
  case h_3 hcomma hbrace =>
    rw [if_neg fun h => hcomma rest (by rw [h]), if_neg fun h => hbrace rest (by rw [h])]

theorem readFields_chars {depth : Nat} : ∀ {e : String × Json} {es : List (String × Json)},
    (∀ x ∈ e :: es, Reads depth x.2) →
    ∀ (fuel : Nat) (rest : List Char), 2 * ([','].intercalate ((e :: es).map fieldChars)).length + 2 ≤ fuel →
    readFields fuel depth ([','].intercalate ((e :: es).map fieldChars) ++ '\x7d' :: rest) =
      some ((e :: es).map fun e => (e.1, e.2.ordered), rest)
  | e, [], h, fuel + 2, rest, hfuel => by
    simp only [List.map_cons, List.map_nil, List.intercalate_singleton] at hfuel ⊢
    have hlength := length_fieldChars e
    have hv := h e List.mem_cons_self fuel ('\x7d' :: rest) (by simp [Closed]) (by omega)
    rw [readFields_field hv rfl]
    rfl
  | e, e' :: es, h, fuel + 2, rest, hfuel => by
    have hes := readFields_chars (fun x hx => h x (List.mem_cons_of_mem _ hx)) (fuel + 1) rest
    have hlength := length_fieldChars e
    rw [List.map_cons, List.map_cons, List.intercalate_cons_cons, ← List.map_cons] at hfuel ⊢
    simp only [List.length_append, List.length_singleton] at hfuel
    have hv := h e List.mem_cons_self fuel
      (',' :: ([','].intercalate ((e' :: es).map fieldChars) ++ '\x7d' :: rest)) (by simp [Closed]) (by omega)
    rw [List.append_assoc, List.append_assoc, List.singleton_append, readFields_field hv rfl, if_pos rfl,
      hes (by omega)]
    rfl

theorem exists_intercalate {c : Char} {cs : List Char} : ∀ xss : List (List Char),
    ∃ cs', [','].intercalate ((c :: cs) :: xss) = c :: cs'
  | [] => ⟨cs, List.intercalate_singleton⟩
  | _ :: _ => ⟨_, List.intercalate_cons_cons⟩

/-- An array is read if its items are. -/
theorem reads_array {depth : Nat} {items : List Json} (hexact : ∀ v ∈ items, v.Exact depth)
    (h : ∀ v ∈ items, Reads depth v) : Reads (depth + 1) (.array items) := by
  intro fuel rest _ hfuel
  rw [chars_array] at hfuel ⊢
  simp only [List.cons_append, List.length_cons, List.length_append, List.append_assoc,
    List.nil_append] at hfuel ⊢
  rw [readValue, skipBlanks_cons (show isBlank '[' = false from rfl)]
  cases items with
  | nil => rfl
  | cons v vs =>
    have hitems := readItems_chars h fuel rest (by omega)
    obtain ⟨c, cs, hcs, hblank, hclose⟩ := exists_chars (hexact v List.mem_cons_self)
    obtain ⟨cs', hcs'⟩ : ∃ cs', [','].intercalate ((v :: vs).map chars) = c :: cs' := by
      rw [List.map_cons, hcs]
      exact exists_intercalate _
    rw [hcs', List.cons_append] at hitems ⊢
    simp only [skipBlanks_cons hblank, ordered, orderedItems_eq_map]
    split
    case h_1 hbracket => exact absurd (List.cons.inj hbracket).1 hclose
    case h_2 =>
      rw [hitems]
      rfl

/-- An object is read if its fields are. -/
theorem reads_fields {depth : Nat} {entries : List (String × Json)} (h : ∀ e ∈ entries, Reads depth e.2) :
    Reads (depth + 1) (.fields entries) := by
  intro fuel rest _ hfuel
  rw [chars_fields] at hfuel ⊢
  simp only [List.cons_append, List.length_cons, List.length_append, List.append_assoc,
    List.nil_append] at hfuel ⊢
  rw [readValue, skipBlanks_cons (show isBlank '\x7b' = false from rfl)]
  cases entries with
  | nil => rfl
  | cons e es =>
    have hfields := readFields_chars h fuel rest (by omega)
    obtain ⟨cs, hcs⟩ : ∃ cs, [','].intercalate ((e :: es).map fieldChars) = '"' :: cs := exists_intercalate _
    rw [hcs, List.cons_append] at hfields ⊢
    simp only [skipBlanks_cons (show isBlank '"' = false from rfl), ordered, orderedFields_eq_map]
    split
    case h_1 hbrace => exact absurd (List.cons.inj hbrace).1 (by decide)
    case h_2 =>
      rw [hfields]
      rfl

theorem Exact.reads {depth : Nat} {v : Json} (h : v.Exact depth) : Reads depth v := by
  induction h with
  | null => exact fun _ _ _ _ => rfl
  | bool b => cases b <;> exact fun _ _ _ _ => rfl
  | @integer _ k hleast hgreatest =>
    intro fuel rest hrest _
    obtain ⟨c, cs, hcs, hc⟩ := exists_chars_integer k
    have hnumber := readNumber_digits (wholeNumber?_digits hleast hgreatest) hrest
    rw [← toList_integer] at hnumber
    rw [hcs, List.cons_append, readValue_number hc, ← List.cons_append, ← hcs]
    exact hnumber
  | string text =>
    intro fuel rest _ _
    have htext := readString_quote text.toList rest
    rw [chars_string, List.cons_append, List.cons_append, List.append_assoc, List.singleton_append, readValue,
      skipBlanks_cons (show isBlank '"' = false from rfl)]
    simp only [htext, Option.map_some, String.ofList_toList]
    rfl
  | array h ih => exact reads_array h ih
  | fields _ ih => exact reads_fields ih

/-- **A text gives its value back,** with the fields of its objects in order. -/
theorem parse?_compact {v : Json} (h : v.Exact maxDepth) : parse? v.compact = some v.ordered := by
  have hread := h.reads (2 * v.chars.length + 1) [] (by simp [Closed]) (by omega)
  rw [List.append_nil, chars] at hread
  simp only [parse?, hread]
  rfl

end SkitPage.Json
