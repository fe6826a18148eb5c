import SkitPage.Proofs.Confinement
import SkitPage.Storage.Memory

/-!
# What builds rely on in a store

A build reads texts, and writes one. What it relies on is said here once for all stores, in memory, on a disk
and behind a guard.

`LawfulStorage` says what can be read after a write. A write that succeeds puts its text in place, and all
other texts stay, as long as they are not in the same file: two paths may lead to one file on a disk, so a
store says which paths are apart. A write that fails loses no text. It may still make a path readable, since
on a disk the directories that were made for it stay, and a path may lead through one and out again.

`SteadyStorage` says what does not count. Stores are equivalent if they hold the same, whatever they have
counted; reading does not leave the equivalence. A write that fails changes no file, and it leaves the store
as it was where the path is housed: the directory that its file is in is there. That is so after every write
that succeeds, and no later write undoes it.

Key definitions: `LawfulStorage`, `SteadyStorage`, `Disk.Keeps`, `Disk.Housed`.
Key theorems: `Disk.walk_mono`, `Disk.readText_mono`, `Disk.readText_writeText`, `Disk.furnished_of_error`,
`Disk.housed_writeText`, `Disk.writeText_of_housed`.
-/

namespace SkitPage

/-- A store in which reading and writing go together. -/
class LawfulStorage (σ : Type) [Storage σ] where
  /-- Two paths lead to different files. -/
  Apart : σ → Path → Path → Prop
  apart_charge (store : σ) (paths : List Path) : Apart (Storage.charge store paths) = Apart store
  apart_write (store : σ) (path : Path) (text : String) : Apart (Storage.write store path text).2 = Apart store
  view_charge (store : σ) (paths : List Path) : Storage.view (Storage.charge store paths) = Storage.view store
  view_written {store after : σ} {path : Path} {text : String}
    (h : Storage.write store path text = (.ok (), after)) : Storage.view after path = .ok text
  view_apart {store after : σ} {path : Path} {text : String}
    (h : Storage.write store path text = (.ok (), after)) {p : Path} (hp : Apart store path p) {t : String}
    (ht : Storage.view store p = .ok t) : Storage.view after p = .ok t
  view_unwritten {store after : σ} {path : Path} {text : String} {e : IoError}
    (h : Storage.write store path text = (.error e, after)) {p : Path} {t : String}
    (ht : Storage.view store p = .ok t) : Storage.view after p = .ok t

/-- A store that reads and failed writes do not change, but for what it counts. -/
class SteadyStorage (σ : Type) [Storage σ] extends Setoid σ where
  /-- Both have the same files. -/
  SameFiles : σ → σ → Prop
  /-- The directory that the file at a path is in is there. -/
  Housed : σ → Path → Prop
  view_eq {s t : σ} (h : s ≈ t) : Storage.view s = Storage.view t
  sameFiles {s t : σ} (h : s ≈ t) : SameFiles s t
  housed_iff {s t : σ} (h : s ≈ t) (path : Path) : Housed s path ↔ Housed t path
  charge_equiv (s : σ) (paths : List Path) : Storage.charge s paths ≈ s
  write_equiv {s t : σ} (h : s ≈ t) (path : Path) (text : String) :
    (Storage.write s path text).1 = (Storage.write t path text).1 ∧
      (Storage.write s path text).2 ≈ (Storage.write t path text).2
  sameFiles_of_error {s t after : σ} {path : Path} {text : String} {e : IoError}
    (h : Storage.write s path text = (.error e, after)) (hst : s ≈ t) : SameFiles after t
  equiv_of_error {s after : σ} {path : Path} {text : String} {e : IoError} (hs : Housed s path)
    (h : Storage.write s path text = (.error e, after)) : after ≈ s
  housed_of_ok {s after : σ} {path : Path} {text : String}
    (h : Storage.write s path text = (.ok (), after)) : Housed after path
  housed_write {s : σ} {p : Path} (h : Housed s p) (path : Path) (text : String) :
    Housed (Storage.write s path text).2 p

/-! ### Memory -/

namespace MemoryStore

theorem files_noteRead (paths : List Path) (s : MemoryStore) :
    (paths.foldl noteRead s).files = s.files := by
  induction paths generalizing s with
  | nil => rfl
  | cons p paths ih => exact ih (s.noteRead p)

theorem view_eq_of_files {s t : MemoryStore} (h : s.files = t.files) : s.view = t.view := by
  funext path
  simp only [view, get?, h]

theorem view_put (s : MemoryStore) (path : Path) (text : String) (p : Path) :
    (s.put path text).view p = if p = path then .ok text else s.view p := by
  simp only [view, get?, put, OrderedMap.get?_insert]
  by_cases h : p = path <;> simp [h]

end MemoryStore

instance : LawfulStorage MemoryStore where
  Apart _ p q := p ≠ q
  apart_charge _ _ := rfl
  apart_write _ _ _ := rfl
  view_charge s paths := MemoryStore.view_eq_of_files (MemoryStore.files_noteRead paths s)
  view_written {s _ path text} h := by
    cases h
    exact (s.view_put path text path).trans (if_pos rfl)
  view_apart {s _ path text} h p hp t ht := by
    cases h
    exact (s.view_put path text p).trans ((if_neg (Ne.symm hp)).trans ht)
  view_unwritten h := by cases h

instance : SteadyStorage MemoryStore where
  r s t := s.files = t.files
  iseqv := ⟨fun _ => rfl, Eq.symm, Eq.trans⟩
  SameFiles s t := s.files = t.files
  Housed _ _ := True
  view_eq := MemoryStore.view_eq_of_files
  sameFiles h := h
  housed_iff _ _ := Iff.rfl
  charge_equiv s paths := MemoryStore.files_noteRead paths s
  write_equiv h path text := ⟨rfl, congrArg (OrderedMap.insert · path text) h⟩
  sameFiles_of_error h := by cases h
  equiv_of_error _ h := by cases h
  housed_of_ok _ := trivial
  housed_write _ _ _ := trivial

/-! ### Disks -/

namespace Disk

variable {d d' : Disk} {place : List Char} {path : Path}

/-- All directories of a disk are on another, too. -/
def Keeps (d d' : Disk) : Prop := ∀ way, d.node? way = some .directory → d'.node? way = some .directory

theorem enter_of_directory {way next : List String} {name : String} (h : d.enter way name = .ok next) :
    d.node? way = some .directory := by
  rw [enter] at h
  split at h
  · cases h
  · rename_i hdirectory
    exact not_not.mp hdirectory

theorem enter_mono (hkeeps : d.Keeps d') {way next : List String} {name : String}
    (hnext : (d.node? next).isSome → (d'.node? next).isSome) (h : d.enter way name = .ok next) :
    d'.enter way name = .ok next := by
  have hdirectory := hkeeps way (enter_of_directory h)
  have heq := enter_eq_ok h
  rw [enter, if_neg (not_not_intro (enter_of_directory h))] at h
  rw [enter, if_neg (not_not_intro hdirectory)]
  by_cases hdot : name = "."
  · rwa [if_pos hdot] at h ⊢
  by_cases hup : name = ".."
  · rwa [if_neg hdot, if_pos hup] at h ⊢
  rw [if_neg hdot, if_neg hup] at h heq ⊢
  subst heq
  split at h
  · cases h
  rename_i hshort
  split at h
  · rename_i hsome
    rw [if_neg hshort, if_pos (hnext hsome)]
  · cases h

/-- A walk goes through directories, and may end at something else. -/
theorem walk_mono (hkeeps : d.Keeps d') {names way : List String}
    (hend : (d.node? way).isSome → (d'.node? way).isSome) (h : d.walk names = .ok way) :
    d'.walk names = .ok way := by
  induction names using List.reverseRecOn generalizing way with
  | nil => exact h
  | append_singleton names name ih =>
    rw [walk_concat] at h ⊢
    cases hwalk : d.walk names with
    | error e =>
      rw [hwalk] at h
      cases h
    | ok before =>
      rw [hwalk] at h
      have hbefore := hkeeps before (enter_of_directory h)
      rw [ih (fun _ => by rw [hbefore]; rfl) hwalk]
      exact enter_mono hkeeps hend h

theorem readAt_mono (hkeeps : d.Keeps d')
    (hend : d'.node? (Place.location place) = d.node? (Place.location place)) {bytes : List UInt8}
    (h : d.readAt place = .ok bytes) : d'.readAt place = .ok bytes := by
  obtain ⟨hscreened, hread⟩ := of_screen h
  obtain ⟨hwalked, hread⟩ := of_walk hread
  have hwalked' := walk_mono hkeeps (fun hsome => by rwa [← Place.location, hend]) hwalked
  rw [← Place.location, ← hend] at hread
  rw [readAt, hscreened, hwalked']
  exact hread

/-- A text stays as long as no directory is lost and its file is the same. -/
theorem readText_mono (hroot : d'.root = d.root) (hkeeps : d.Keeps d')
    (hend : d'.node? (d.location path) = d.node? (d.location path)) {text : String}
    (h : d.readText path = .ok text) : d'.readText path = .ok text := by
  have hplace : d'.place path = d.place path := by rw [place, place, hroot]
  rw [readText] at h ⊢
  cases hbytes : d.readBytes path with
  | error e =>
    rw [hbytes] at h
    cases h
  | ok bytes =>
    rw [readBytes, hplace, readAt_mono hkeeps hend hbytes]
    rwa [hbytes] at h

/-! ### Writing -/

/-- What was put into a slot can be walked to. -/
theorem Slot.walk_insert (hslot : d.Slot place) (hfree : d.node? (Place.location place) ≠ some .directory)
    (node : DiskNode) : ({ d with nodes := d.nodes.insert (Place.location place) node } : Disk).walk
      (Place.components place) = .ok (Place.location place) := by
  have hnode := node?_insert d hslot.location_ne_nil node
  have hkeeps : d.Keeps { d with nodes := d.nodes.insert (Place.location place) node } := by
    intro way hway
    rw [hnode, if_neg, hway]
    rintro rfl
    exact hfree hway
  obtain ⟨name, hlast, hdot, hup, hshort⟩ := hslot.named
  have hbefore := hkeeps _ hslot.directory
  have hwalk := walk_mono hkeeps (fun _ => by rw [hbefore]; rfl) hslot.walked
  have hlocation := location_of_getLast? hlast hdot hup
  conv_lhs => rw [← List.dropLast_append_getLast? name hlast]
  rw [walk_concat, hwalk]
  change enter _ _ name = _
  rw [enter, if_neg (not_not_intro hbefore), if_neg hdot, if_neg hup, if_neg hshort, ← hlocation, hnode,
    if_pos rfl]
  rfl

theorem readAt_storeAt {bytes : List UInt8} {stored : Disk} (h : d.storeAt place bytes = .ok stored) :
    stored.readAt place = .ok bytes := by
  obtain ⟨hslot, hslash, hfree, rfl⟩ := storeAt_eq_ok h
  have hwalk := hslot.walk_insert hfree (.file bytes)
  have hnode := (node?_insert d hslot.location_ne_nil (.file bytes) (Place.location place)).trans (if_pos rfl)
  rw [readAt, hslot.screened, hwalk]
  dsimp only [bind, Except.bind]
  rw [hnode]
  dsimp only
  rw [hslash]
  rfl

theorem isDirectoryAt_makeDirectory {made : Disk} (h : d.makeDirectory place = .ok made) :
    made.isDirectoryAt place = true := by
  obtain ⟨hslot, hnone, rfl⟩ := makeDirectory_eq_ok h
  have hwalk := hslot.walk_insert (by simp [hnone]) .directory
  have hnode := (node?_insert d hslot.location_ne_nil .directory (Place.location place)).trans (if_pos rfl)
  rw [isDirectoryAt, hslot.screened, hwalk]
  dsimp only
  rw [hnode]
  rfl

theorem Furnished.keeps {places : List (List Char)} (h : Furnished d places d') : d.Keeps d' := by
  intro way hway
  rcases h.at_way way with heq | ⟨hnone, -, -⟩
  · rw [heq, hway]
  · rw [hway] at hnone
    cases hnone

/-- A write that fails has made directories at most. -/
theorem furnished_of_error {bytes : List UInt8} {e : IoError} {after : Disk}
    (h : d.writeBytes path bytes = (.error e, after)) :
    Furnished d (Place.enclosing (d.place path)) after := by
  have hmade := furnished_makeDirectories (Place.enclosing (d.place path)) d
  rw [writeBytes] at h
  split at h
  · rename_i made hmake
    rw [hmake] at hmade
    cases h
    exact hmade
  · rename_i made hmake
    rw [hmake] at hmade
    rw [storeBytes] at h
    split at h <;> cases h
    exact hmade

/-- A write that succeeds has made directories, and put its file into a slot. -/
theorem writeBytes_eq_ok {bytes : List UInt8} {after : Disk} (h : d.writeBytes path bytes = (.ok (), after)) :
    ∃ made, d.makeDirectories (Place.enclosing (d.place path)) = (.ok (), made) ∧
      Furnished d (Place.enclosing (d.place path)) made ∧ made.storeAt (d.place path) bytes = .ok after := by
  have hmade := furnished_makeDirectories (Place.enclosing (d.place path)) d
  rw [writeBytes] at h
  split at h
  · cases h
  · rename_i made hmake
    rw [hmake] at hmade
    have hplace : made.place path = d.place path := by rw [place, place, hmade.root_eq]
    rw [storeBytes, hplace] at h
    split at h <;> cases h
    rename_i hstored
    exact ⟨made, hmake, hmade, hstored⟩

section Written

variable {bytes : List UInt8} {after : Disk} (h : d.writeBytes path bytes = (.ok (), after))
include h

theorem root_of_ok : after.root = d.root := by
  obtain ⟨made, -, hmade, hstored⟩ := writeBytes_eq_ok h
  obtain ⟨-, -, -, rfl⟩ := storeAt_eq_ok hstored
  exact hmade.root_eq

theorem keeps_of_ok : d.Keeps after := by
  obtain ⟨made, -, hmade, hstored⟩ := writeBytes_eq_ok h
  obtain ⟨hslot, -, hfree, rfl⟩ := storeAt_eq_ok hstored
  intro way hway
  have hdirectory := hmade.keeps way hway
  rw [node?_insert made hslot.location_ne_nil, if_neg, hdirectory]
  rintro rfl
  exact hfree hdirectory

end Written

theorem root_writeBytes (d : Disk) (path : Path) (bytes : List UInt8) :
    (d.writeBytes path bytes).2.root = d.root := by
  cases hw : d.writeBytes path bytes with
  | mk result after =>
    cases result with
    | ok _ => exact root_of_ok hw
    | error e => exact (furnished_of_error hw).root_eq

theorem keeps_writeBytes (d : Disk) (path : Path) (bytes : List UInt8) :
    d.Keeps (d.writeBytes path bytes).2 := by
  cases hw : d.writeBytes path bytes with
  | mk result after =>
    cases result with
    | ok _ => exact keeps_of_ok hw
    | error e => exact (furnished_of_error hw).keeps

theorem fromUTF8?_bytes (text : String) : String.fromUTF8? ⟨text.toUTF8.data.toList.toArray⟩ = some text := by
  have hbytes : (⟨text.toUTF8.data.toList.toArray⟩ : ByteArray) = text.toByteArray := by
    rw [Array.toArray_toList]
    rfl
  rw [hbytes, String.fromUTF8?, dif_pos text.isValidUTF8]
  rfl

/-- What was written can be read. -/
theorem readText_writeText {text : String} {after : Disk} (h : d.writeText path text = (.ok (), after)) :
    after.readText path = .ok text := by
  obtain ⟨made, -, -, hstored⟩ := writeBytes_eq_ok h
  have hplace : after.place path = d.place path := by rw [place, place, root_of_ok h]
  rw [readText, readBytes, hplace, readAt_storeAt hstored]
  dsimp only [bind, Except.bind]
  rw [fromUTF8?_bytes]
  rfl

/-! ### Directories that are there -/

/-- The directory that the file at a path is in is there. -/
def Housed (d : Disk) (path : Path) : Prop :=
  ∀ outer ∈ (Place.enclosing (d.place path)).head?, d.isDirectoryAt outer = true

theorem isDirectoryAt_iff : d.isDirectoryAt place = true ↔ screen place = .ok () ∧
    d.walk (Place.components place) = .ok (Place.location place) ∧
      d.node? (Place.location place) = some .directory := by
  rw [isDirectoryAt]
  split
  · rename_i hscreen hwalk
    obtain rfl := walk_eq_ok hwalk
    simp [hscreen, hwalk, Place.location]
  · rename_i hnot
    simp only [Bool.false_eq_true, false_iff, not_and]
    intro hscreen hwalk
    exact absurd hwalk (hnot () _ hscreen)

theorem isDirectoryAt_mono (hkeeps : d.Keeps d') (h : d.isDirectoryAt place = true) :
    d'.isDirectoryAt place = true := by
  obtain ⟨hscreen, hwalk, hnode⟩ := isDirectoryAt_iff.mp h
  have hnode' := hkeeps _ hnode
  exact isDirectoryAt_iff.mpr ⟨hscreen, walk_mono hkeeps (fun _ => by rw [hnode']; rfl) hwalk, hnode'⟩

theorem Housed.mono (h : d.Housed path) (hroot : d'.root = d.root) (hkeeps : d.Keeps d') : d'.Housed path := by
  intro outer houter
  rw [place, hroot] at houter
  exact isDirectoryAt_mono hkeeps (h outer houter)

/-- Where a directory is, none is made. -/
theorem makeDirectory_of_isDirectoryAt (h : d.isDirectoryAt place = true) :
    d.makeDirectory place = .error .alreadyExists := by
  obtain ⟨hscreen, hwalk, hnode⟩ := isDirectoryAt_iff.mp h
  rw [makeDirectory, hscreen]
  dsimp only [bind, Except.bind]
  split
  · rfl
  · rename_i name hlast
    rw [← List.dropLast_append_getLast? name hlast, walk_concat] at hwalk
    cases hbefore : d.walk (Place.components place).dropLast with
    | error e =>
      rw [hbefore] at hwalk
      cases hwalk
    | ok before =>
      rw [hbefore] at hwalk
      have hentered : d.enter before name = .ok (Place.location place) := hwalk
      dsimp only
      rw [if_neg (not_not_intro (enter_of_directory hentered))]
      by_cases hname : name = "." ∨ name = ".."
      · rw [if_pos hname]
      · obtain ⟨hdot, hup⟩ := not_or.mp hname
        rw [enter, if_neg (not_not_intro (enter_of_directory hentered)), if_neg hdot, if_neg hup] at hentered
        split at hentered
        · cases hentered
        rename_i hshort
        split at hentered
        · rename_i hsome
          rw [if_neg hname, if_neg hshort, if_pos hsome]
        · cases hentered

theorem makeDirectories_of_head {places : List (List Char)}
    (h : ∀ outer ∈ places.head?, d.isDirectoryAt outer = true) : d.makeDirectories places = (.ok (), d) := by
  cases places with
  | nil => rfl
  | cons outer places =>
    have houter := h outer rfl
    rw [makeDirectories, makeDirectory_of_isDirectoryAt houter]
    dsimp only
    rw [if_pos houter]

/-- After directories were made the innermost is there. -/
theorem head_makeDirectories : ∀ {places : List (List Char)} {d made : Disk},
    d.makeDirectories places = (.ok (), made) → ∀ outer ∈ places.head?, made.isDirectoryAt outer = true
  | [], _, _, _, _, houter => by cases houter
  | outer :: places, d, made, h, _, rfl => by
    rw [makeDirectories] at h
    split at h
    · rename_i hmade
      cases h
      exact isDirectoryAt_makeDirectory hmade
    · split at h
      · cases h
      · split at h
        · rename_i hmade
          cases h
          exact isDirectoryAt_makeDirectory hmade
        · split at h
          · rename_i houter
            cases h
            exact houter
          · cases h
    · split at h
      · rename_i houter
        cases h
        exact houter
      · cases h

theorem housed_writeText {text : String} {after : Disk} (h : d.writeText path text = (.ok (), after)) :
    after.Housed path := by
  obtain ⟨made, hmake, hmade, hstored⟩ := writeBytes_eq_ok h
  obtain ⟨hslot, -, hfree, rfl⟩ := storeAt_eq_ok hstored
  have hhoused : made.Housed path := by
    intro outer houter
    rw [place, hmade.root_eq] at houter
    exact head_makeDirectories hmake outer houter
  refine hhoused.mono rfl fun way hway => ?_
  rw [node?_insert made hslot.location_ne_nil, if_neg, hway]
  rintro rfl
  exact hfree hway

/-- Where the directory is there, a write that fails does nothing. -/
theorem writeText_of_housed (hd : d.Housed path) {text : String} {e : IoError} {after : Disk}
    (h : d.writeText path text = (.error e, after)) : after = d := by
  rw [writeText, writeBytes, makeDirectories_of_head hd] at h
  dsimp only at h
  rw [storeBytes] at h
  split at h <;> cases h
  rfl

/-- The same files are on both disks, which have the same root. -/
def SameFiles (d d' : Disk) : Prop :=
  d.root = d'.root ∧ ∀ way bytes, d.node? way = some (.file bytes) ↔ d'.node? way = some (.file bytes)

theorem Furnished.sameFiles {places : List (List Char)} (h : Furnished d places d') : d'.SameFiles d := by
  refine ⟨h.root_eq, fun way bytes => ?_⟩
  rcases h.at_way way with heq | ⟨hnone, hmade, -⟩
  · rw [heq]
  · rw [hnone, hmade]
    simp

end Disk

instance : LawfulStorage Disk where
  Apart d p q := d.location p ≠ d.location q
  apart_charge _ _ := rfl
  apart_write d path text := by
    funext p q
    have hroot : (d.writeText path text).2.root = d.root := d.root_writeBytes path _
    simp only [Storage.write, Disk.location, Disk.place, hroot]
  view_charge _ _ := rfl
  view_written h := Disk.readText_writeText h
  view_apart {d after path text} h p hp t ht := by
    obtain ⟨bytes, hnode, -⟩ := Disk.readText_eq_ok ht
    refine Disk.readText_mono (Disk.root_of_ok h) (Disk.keeps_of_ok h) ?_ ht
    have hafter : after = (d.writeBytes path text.toUTF8.data.toList).2 := congrArg Prod.snd h.symm
    rcases d.node?_writeBytes path text.toUTF8.data.toList (Ne.symm hp) with heq | ⟨hnone, -⟩
    · rw [hafter, heq]
    · rw [hnode] at hnone
      cases hnone
  view_unwritten {d after path text e} h p t ht := by
    obtain ⟨bytes, hnode, -⟩ := Disk.readText_eq_ok ht
    have hmade := Disk.furnished_of_error h
    refine Disk.readText_mono hmade.root_eq hmade.keeps ?_ ht
    rcases hmade.at_way (d.location p) with heq | ⟨hnone, -⟩
    · exact heq
    · rw [hnode] at hnone
      cases hnone

instance (d : Disk) (p q : Path) : Decidable (LawfulStorage.Apart d p q) :=
  inferInstanceAs (Decidable (d.location p ≠ d.location q))

instance : SteadyStorage Disk where
  r := Eq
  iseqv := eq_equivalence
  SameFiles := Disk.SameFiles
  Housed := Disk.Housed
  view_eq := congrArg _
  sameFiles h := by
    cases h
    exact ⟨rfl, fun _ _ => Iff.rfl⟩
  housed_iff h path := by
    cases h
    rfl
  charge_equiv _ _ := rfl
  write_equiv h path text := by
    cases h
    exact ⟨rfl, rfl⟩
  sameFiles_of_error h hst := by
    cases hst
    exact (Disk.furnished_of_error h).sameFiles
  equiv_of_error hs h := Disk.writeText_of_housed hs h
  housed_of_ok h := Disk.housed_writeText h
  housed_write h path text := h.mono (Disk.root_writeBytes _ path _) (Disk.keeps_writeBytes _ path _)

/-! ### Guards -/

namespace Guarded

variable {σ : Type} [Storage σ]

theorem write_cases {g after : Guarded σ} {path : Path} {text : String} {r : Except IoError Unit}
    (h : Storage.write g path text = (r, after)) : (r = .error .refused ∧ after = g) ∨
      ∃ store, Storage.write g.store path text = (r, store) ∧ after = { g with store } := by
  change (if g.refusing then _ else _) = _ at h
  split at h
  · cases h
    exact Or.inl ⟨rfl, rfl⟩
  · cases h
    exact Or.inr ⟨_, rfl, rfl⟩

end Guarded

instance {σ : Type} [Storage σ] [LawfulStorage σ] : LawfulStorage (Guarded σ) where
  Apart g := LawfulStorage.Apart g.store
  apart_charge g paths := LawfulStorage.apart_charge g.store paths
  apart_write g path text := by
    cases hwrite : Storage.write g path text with
    | mk result after =>
      rcases Guarded.write_cases hwrite with ⟨-, rfl⟩ | ⟨store, hw, rfl⟩
      · rfl
      · have hapart := LawfulStorage.apart_write g.store path text
        rwa [hw] at hapart
  view_charge g paths := LawfulStorage.view_charge g.store paths
  view_written h := by
    rcases Guarded.write_cases h with ⟨hr, -⟩ | ⟨store, hw, rfl⟩
    · cases hr
    · have hview : Storage.view store _ = _ := LawfulStorage.view_written hw
      exact hview
  view_apart h p hp t ht := by
    rcases Guarded.write_cases h with ⟨hr, -⟩ | ⟨store, hw, rfl⟩
    · cases hr
    · have hview : Storage.view store p = _ := LawfulStorage.view_apart hw hp ht
      exact hview
  view_unwritten h p t ht := by
    rcases Guarded.write_cases h with ⟨-, rfl⟩ | ⟨store, hw, rfl⟩
    · exact ht
    · have hview : Storage.view store p = _ := LawfulStorage.view_unwritten hw ht
      exact hview

instance {σ : Type} [Storage σ] [SteadyStorage σ] : SteadyStorage (Guarded σ) where
  r g g' := g.store ≈ g'.store ∧ g.refusing = g'.refusing
  iseqv :=
    ⟨fun g => ⟨Setoid.refl g.store, rfl⟩, fun h => ⟨Setoid.symm h.1, h.2.symm⟩,
      fun h h' => ⟨Setoid.trans h.1 h'.1, h.2.trans h'.2⟩⟩
  SameFiles g g' := SteadyStorage.SameFiles g.store g'.store
  Housed g := SteadyStorage.Housed g.store
  view_eq {g g'} h := by
    have hstore : Storage.view g.store = Storage.view g'.store := SteadyStorage.view_eq h.1
    exact hstore
  sameFiles h := SteadyStorage.sameFiles h.1
  housed_iff h path := SteadyStorage.housed_iff h.1 path
  charge_equiv g paths := ⟨SteadyStorage.charge_equiv g.store paths, rfl⟩
  write_equiv {g g'} h path text := by
    obtain ⟨hstore, hrefusing⟩ := h
    obtain ⟨hresult, hafter⟩ := SteadyStorage.write_equiv hstore path text
    simp only [Storage.write, ← hrefusing]
    split
    · exact ⟨rfl, hstore, hrefusing⟩
    · exact ⟨hresult, hafter, rfl⟩
  sameFiles_of_error h hst := by
    rcases Guarded.write_cases h with ⟨-, rfl⟩ | ⟨store, hw, rfl⟩
    · exact SteadyStorage.sameFiles hst.1
    · exact SteadyStorage.sameFiles_of_error hw hst.1
  equiv_of_error hs h := by
    rcases Guarded.write_cases h with ⟨-, rfl⟩ | ⟨store, hw, rfl⟩
    · exact ⟨Setoid.refl _, rfl⟩
    · exact ⟨SteadyStorage.equiv_of_error hs hw, rfl⟩
  housed_of_ok h := by
    rcases Guarded.write_cases h with ⟨hr, -⟩ | ⟨store, hw, rfl⟩
    · cases hr
    · exact SteadyStorage.housed_of_ok hw
  housed_write {g p} h path text := by
    cases hwrite : Storage.write g path text with
    | mk result after =>
      rcases Guarded.write_cases hwrite with ⟨-, rfl⟩ | ⟨store, hw, rfl⟩
      · exact h
      · have hhoused : SteadyStorage.Housed (Storage.write g.store path text).2 p :=
          SteadyStorage.housed_write h path text
        rwa [hw] at hhoused

end SkitPage
