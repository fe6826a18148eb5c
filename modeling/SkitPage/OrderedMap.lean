/-!
# Ordered maps

A finite map kept as a list of entries with increasing keys. Listing a map, comparing two maps and
writing one out therefore need no further ordering step, and an insertion replaces the entry that is
already there. Keys are strings, lists of strings or paths in this library, all ordered by code point,
which for text is also the order of the UTF-8 bytes.

A map carries the proof that its keys increase. Each operation therefore comes with the reason why it
keeps them so; for an insertion this is `OrderedMap.sorted_insertEntry`.

Key definitions: `KeyOrder`, `OrderedMap`, `OrderedMap.insert`, `OrderedMap.get?`, `OrderedMap.erase`,
`OrderedMap.filterKeys`, `OrderedMap.absorb`.
-/

namespace SkitPage

/-- Keys can be put in order: none is below itself, and of two different ones one is below the other. -/
class KeyOrder (κ : Type) [LT κ] : Prop where
  lt_irrefl (a : κ) : ¬ a < a
  lt_trans {a b c : κ} (hab : a < b) (hbc : b < c) : a < c
  eq_of_not_lt {a b : κ} (hab : ¬ a < b) (hba : ¬ b < a) : a = b

instance : KeyOrder String where
  lt_irrefl := String.lt_irrefl
  lt_trans := String.lt_trans
  eq_of_not_lt hab hba := String.le_antisymm (String.not_lt.mp hba) (String.not_lt.mp hab)

instance : KeyOrder (List String) where
  lt_irrefl := List.lt_irrefl
  lt_trans := List.lt_trans
  eq_of_not_lt hab hba := List.le_antisymm (List.not_lt.mp hba) (List.not_lt.mp hab)

/-- A finite map from `κ` to `ν`, its entries in increasing order of keys. -/
@[ext]
structure OrderedMap (κ ν : Type) [LT κ] where
  /-- The entries, smallest key first. -/
  entries : List (κ × ν)
  /-- Each key is below the keys after it. -/
  sorted : entries.Pairwise fun e e' => e.1 < e'.1
deriving Repr

namespace OrderedMap

variable {κ ν : Type} [LT κ]

/-- The map without entries. -/
def empty : OrderedMap κ ν := ⟨[], .nil⟩

instance : Inhabited (OrderedMap κ ν) := ⟨empty⟩

instance [DecidableEq κ] [DecidableEq ν] : DecidableEq (OrderedMap κ ν) := fun a b =>
  if h : a.entries = b.entries then isTrue (OrderedMap.ext h)
  else isFalse fun e => h (congrArg entries e)

/-- Number of entries. -/
def size (m : OrderedMap κ ν) : Nat := m.entries.length

/-- Whether there is no entry. -/
def isEmpty (m : OrderedMap κ ν) : Bool := m.entries.isEmpty

/-- The keys in increasing order. -/
def keys (m : OrderedMap κ ν) : List κ := m.entries.map (·.1)

/-- The value at `k`, if there is one. -/
def get? [DecidableEq κ] (m : OrderedMap κ ν) (k : κ) : Option ν := m.entries.lookup k

/-- Whether `k` has a value. -/
def contains [DecidableEq κ] (m : OrderedMap κ ν) (k : κ) : Bool := (m.get? k).isSome

/-- The entries whose keys satisfy `keep`. -/
def filterKeys (m : OrderedMap κ ν) (keep : κ → Bool) : OrderedMap κ ν :=
  ⟨m.entries.filter (fun e => keep e.1), m.sorted.filter _⟩

/-- The map without an entry at `k`. -/
def erase [DecidableEq κ] (m : OrderedMap κ ν) (k : κ) : OrderedMap κ ν :=
  ⟨m.entries.filter (fun e => e.1 ≠ k), m.sorted.filter _⟩

/-! ### Insertion -/

variable [DecidableLT κ]

/-- `insertEntry k v es` puts `(k, v)` at its place in `es`, over an entry with the same key. -/
def insertEntry (k : κ) (v : ν) : List (κ × ν) → List (κ × ν)
  | [] => [(k, v)]
  | (k', v') :: rest =>
    if k < k' then (k, v) :: (k', v') :: rest
    else if k' < k then (k', v') :: insertEntry k v rest
    else (k, v) :: rest

theorem mem_of_mem_insertEntry {k : κ} {v : ν} {e : κ × ν} : ∀ {es : List (κ × ν)},
    e ∈ insertEntry k v es → e = (k, v) ∨ e ∈ es
  | [], h => Or.inl (List.mem_singleton.mp h)
  | (k', v') :: es, h => by
    have ih : e ∈ insertEntry k v es → _ := mem_of_mem_insertEntry
    unfold insertEntry at h
    grind

variable [KeyOrder κ]

theorem sorted_insertEntry (k : κ) (v : ν) : ∀ {es : List (κ × ν)},
    es.Pairwise (fun e e' => e.1 < e'.1) → (insertEntry k v es).Pairwise fun e e' => e.1 < e'.1
  | [], _ => List.pairwise_singleton ..
  | (k', v') :: es, h => by
    obtain ⟨hfirst, hrest⟩ := List.pairwise_cons.mp h
    unfold insertEntry
    split
    case isTrue hlt =>
      refine List.pairwise_cons.mpr ⟨fun e he => ?_, h⟩
      rcases List.mem_cons.mp he with rfl | he
      · exact hlt
      · exact KeyOrder.lt_trans hlt (hfirst e he)
    case isFalse h₁ =>
      split
      case isTrue hlt =>
        refine List.pairwise_cons.mpr ⟨fun e he => ?_, sorted_insertEntry k v hrest⟩
        rcases mem_of_mem_insertEntry he with rfl | he
        · exact hlt
        · exact hfirst e he
      case isFalse h₂ =>
        obtain rfl : k = k' := KeyOrder.eq_of_not_lt h₁ h₂
        exact List.pairwise_cons.mpr ⟨hfirst, hrest⟩

/-- The map with `v` at `k`. -/
def insert (m : OrderedMap κ ν) (k : κ) (v : ν) : OrderedMap κ ν :=
  ⟨insertEntry k v m.entries, sorted_insertEntry k v m.sorted⟩

/-- The map of a list of pairs; of two values for one key the later stays. -/
def ofList (pairs : List (κ × ν)) : OrderedMap κ ν :=
  pairs.foldl (fun m p => m.insert p.1 p.2) empty

/-- `m.absorb n` holds every entry of `n`, and those of `m` at the other keys. -/
def absorb (m n : OrderedMap κ ν) : OrderedMap κ ν :=
  n.entries.foldl (fun acc e => acc.insert e.1 e.2) m

end OrderedMap

end SkitPage
