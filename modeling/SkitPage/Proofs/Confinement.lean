import SkitPage.Proofs.Maps
import SkitPage.Proofs.Ways
import SkitPage.Storage.Disk

/-!
# What a store on a disk touches

A walk that meets no obstacle leads where its names lead as text, so a read is of the file at the location of
the path, and a write is to it; besides, a write makes the directories around the path. This holds wherever the
path leads. At a confined path the whole way from the root on is below the root: then what is read depends
on nothing else, and a write changes nothing else.

Key definitions: `Disk.location`, `Disk.Slot`, `Disk.Furnished`, `Disk.HasRoot`, `Disk.OnlyAt`,
`Disk.StaysBelow`.
Key theorems: `Disk.walk_eq_ok`, `Disk.readAt_congr`, `Disk.furnished_makeDirectories`, `Disk.node?_writeBytes`,
`Disk.way_of_confined`, `Disk.access_follows_path`.
-/

namespace SkitPage.Disk

variable {d d' : Disk} {place : List Char}

/-! ### Walking -/

theorem walk_concat (d : Disk) (names : List String) (name : String) :
    d.walk (names ++ [name]) = d.walk names >>= fun way => d.enter way name := by
  rw [walk, List.foldlM_append]
  simp only [List.foldlM_cons, List.foldlM_nil, bind_pure]
  rfl

theorem enter_eq_ok {way next : List String} {name : String} (h : d.enter way name = .ok next) :
    next = if name = "." then way else if name = ".." then way.dropLast else way ++ [name] := by
  rw [enter] at h
  split at h
  · cases h
  by_cases hdot : name = "."
  · rw [if_pos hdot] at h ⊢
    exact (Except.ok.inj h).symm
  rw [if_neg hdot] at h ⊢
  by_cases hup : name = ".."
  · rw [if_pos hup] at h ⊢
    exact (Except.ok.inj h).symm
  rw [if_neg hup] at h ⊢
  split at h
  · cases h
  split at h
  · exact (Except.ok.inj h).symm
  · cases h

/-- A walk that meets no obstacle leads where the names lead as text. -/
theorem walk_eq_ok {names way : List String} (h : d.walk names = .ok way) : way = Place.lexical names := by
  induction names using List.reverseRecOn generalizing way with
  | nil => exact (Except.ok.inj h).symm
  | append_singleton names name ih =>
    rw [walk_concat] at h
    cases hwalk : d.walk names with
    | error e =>
      rw [hwalk] at h
      cases h
    | ok before =>
      rw [hwalk] at h
      rw [enter_eq_ok h, ih hwalk, Place.lexical_concat]

theorem enter_congr {way : List String} {name : String} (hway : d'.node? way = d.node? way)
    (hnext : name ≠ "." → name ≠ ".." → d'.node? (way ++ [name]) = d.node? (way ++ [name])) :
    d'.enter way name = d.enter way name := by
  rw [enter, enter, hway]
  by_cases hdot : name = "."
  · rw [if_pos hdot, if_pos hdot]
  by_cases hup : name = ".."
  · rw [if_pos hup, if_pos hup]
  rw [hnext hdot hup]

/-- A walk depends on what is on the way. -/
theorem walk_congr {names : List String}
    (h : ∀ way, way <+: names → d'.node? (Place.lexical way) = d.node? (Place.lexical way)) :
    d'.walk names = d.walk names := by
  induction names using List.reverseRecOn with
  | nil => rfl
  | append_singleton names name ih =>
    rw [walk_concat, walk_concat, ih fun way hway => h way (hway.trans (List.prefix_append _ _))]
    cases hwalk : d.walk names with
    | error e => rfl
    | ok way =>
      obtain rfl := walk_eq_ok hwalk
      refine enter_congr (h names (List.prefix_append _ _)) fun hdot hup => ?_
      have hnext := h (names ++ [name]) List.prefix_rfl
      rwa [Place.lexical_concat, if_neg hdot, if_neg hup] at hnext

variable {α : Type}

theorem of_screen {next : Except IoError α} {a : α} (h : (screen place >>= fun _ => next) = .ok a) :
    screen place = .ok () ∧ next = .ok a := by
  cases hscreen : screen place with
  | error e =>
    rw [hscreen] at h
    cases h
  | ok _ =>
    rw [hscreen] at h
    exact ⟨rfl, h⟩

/-- What comes after a walk goes on from where its names lead. -/
theorem of_walk {names : List String} {next : List String → Except IoError α} {a : α}
    (h : d.walk names >>= next = .ok a) :
    d.walk names = .ok (Place.lexical names) ∧ next (Place.lexical names) = .ok a := by
  cases hwalk : d.walk names with
  | error e =>
    rw [hwalk] at h
    cases h
  | ok way =>
    rw [hwalk] at h
    rw [← walk_eq_ok hwalk]
    exact ⟨rfl, h⟩

/-! ### Reading -/

theorem readAt_eq_ok {bytes : List UInt8} (h : d.readAt place = .ok bytes) :
    d.node? (Place.location place) = some (.file bytes) := by
  have hfound := (of_walk (of_screen h).2).2
  split at hfound
  case h_1 bytes' hnode =>
    split at hfound
    · cases hfound
    · rw [Place.location, hnode, Except.ok.inj hfound]
  case h_2 => cases hfound

theorem readAt_congr (h : ∀ way, way <+: Place.components place →
    d'.node? (Place.lexical way) = d.node? (Place.lexical way)) : d'.readAt place = d.readAt place := by
  rw [readAt, readAt, walk_congr h]
  cases hwalk : d.walk (Place.components place) with
  | error e => rfl
  | ok way =>
    obtain rfl := walk_eq_ok hwalk
    dsimp only [bind, Except.bind]
    rw [h _ List.prefix_rfl]

/-! ### Making and changing -/

theorem node?_insert (d : Disk) {way : List String} (hway : way ≠ []) (node : DiskNode) (other : List String) :
    ({ d with nodes := d.nodes.insert way node } : Disk).node? other =
      if other = way then some node else d.node? other := by
  rw [node?, node?]
  cases other with
  | nil => rw [if_neg (Ne.symm hway)]; rfl
  | cons name names => exact OrderedMap.get?_insert d.nodes way node (name :: names)

theorem location_of_getLast? {name : String} (hlast : (Place.components place).getLast? = some name)
    (hdot : name ≠ ".") (hup : name ≠ "..") :
    Place.location place = Place.lexical (Place.components place).dropLast ++ [name] := by
  rw [Place.location, ← List.dropLast_append_getLast? name hlast, Place.lexical_concat, if_neg hdot, if_neg hup,
    List.dropLast_concat]

/-- A place where something can be put: all but its last name leads to a directory, and the last is a proper
name. -/
structure Slot (d : Disk) (place : List Char) : Prop where
  screened : screen place = .ok ()
  directory : d.node? (Place.lexical (Place.components place).dropLast) = some .directory
  walked : d.walk (Place.components place).dropLast = .ok (Place.lexical (Place.components place).dropLast)
  named : ∃ name, (Place.components place).getLast? = some name ∧ name ≠ "." ∧ name ≠ ".." ∧
    ¬ maxName < name.utf8ByteSize

theorem Slot.location_ne_nil (h : d.Slot place) : Place.location place ≠ [] := by
  obtain ⟨name, hlast, hdot, hup, -⟩ := h.named
  simp [location_of_getLast? hlast hdot hup]

theorem makeDirectory_eq_ok {made : Disk} (h : d.makeDirectory place = .ok made) :
    d.Slot place ∧ d.node? (Place.location place) = none ∧
      made = { d with nodes := d.nodes.insert (Place.location place) .directory } := by
  obtain ⟨hscreened, h⟩ := of_screen h
  dsimp only at h
  split at h
  case h_1 => cases h
  case h_2 name hlast =>
    obtain ⟨hwalked, hmade⟩ := of_walk h
    split at hmade
    · cases hmade
    rename_i hdirectory
    split at hmade
    · cases hmade
    rename_i hname
    split at hmade
    · cases hmade
    rename_i hshort
    split at hmade
    · cases hmade
    rename_i hnone
    obtain ⟨hdot, hup⟩ := not_or.mp hname
    rw [location_of_getLast? hlast hdot hup]
    exact ⟨⟨hscreened, not_not.mp hdirectory, hwalked, name, hlast, hdot, hup, hshort⟩, by simpa using hnone,
      (Except.ok.inj hmade).symm⟩

theorem storeAt_eq_ok {bytes : List UInt8} {stored : Disk} (h : d.storeAt place bytes = .ok stored) :
    d.Slot place ∧ Place.endsInSlash place = false ∧ d.node? (Place.location place) ≠ some .directory ∧
      stored = { d with nodes := d.nodes.insert (Place.location place) (.file bytes) } := by
  obtain ⟨hscreened, h⟩ := of_screen h
  dsimp only at h
  split at h
  case h_1 => cases h
  case h_2 name hlast =>
    obtain ⟨hwalked, hstored⟩ := of_walk h
    split at hstored
    · cases hstored
    rename_i hdirectory
    split at hstored
    · cases hstored
    rename_i hname
    split at hstored
    · cases hstored
    rename_i hshort
    split at hstored
    · cases hstored
    rename_i hfree
    obtain ⟨hdot, hrest⟩ := not_or.mp hname
    obtain ⟨hup, hslash⟩ := not_or.mp hrest
    rw [location_of_getLast? hlast hdot hup]
    exact ⟨⟨hscreened, not_not.mp hdirectory, hwalked, name, hlast, hdot, hup, hshort⟩,
      Bool.eq_false_iff.mpr hslash, hfree, (Except.ok.inj hstored).symm⟩

/-- All that was there is still there, and what is new are directories at some of the places. -/
structure Furnished (d : Disk) (places : List (List Char)) (d' : Disk) : Prop where
  root_eq : d'.root = d.root
  at_way : ∀ way, d'.node? way = d.node? way ∨
    d.node? way = none ∧ d'.node? way = some .directory ∧ ∃ place ∈ places, way = Place.location place

namespace Furnished

variable {places : List (List Char)}

theorem refl (d : Disk) (places : List (List Char)) : Furnished d places d := ⟨rfl, fun _ => .inl rfl⟩

theorem mono {more : List (List Char)} (h : Furnished d places d') (hmore : places ⊆ more) :
    Furnished d more d' := by
  refine ⟨h.root_eq, fun way => (h.at_way way).imp_right ?_⟩
  rintro ⟨hnone, hdir, place, hplace, hway⟩
  exact ⟨hnone, hdir, place, hmore hplace, hway⟩

theorem trans {d'' : Disk} (h : Furnished d places d') (h' : Furnished d' places d'') : Furnished d places d'' := by
  refine ⟨h'.root_eq.trans h.root_eq, fun way => ?_⟩
  rcases h'.at_way way with heq' | ⟨hnone', hdir', hplace'⟩
  · rw [heq']
    exact h.at_way way
  · rcases h.at_way way with heq | ⟨-, hdir, -⟩
    · exact .inr ⟨heq ▸ hnone', hdir', hplace'⟩
    · rw [hdir] at hnone'
      cases hnone'

theorem of_makeDirectory (h : d.makeDirectory place = .ok d') (hplace : place ∈ places) :
    Furnished d places d' := by
  obtain ⟨hslot, hnone, rfl⟩ := makeDirectory_eq_ok h
  refine ⟨rfl, fun way => ?_⟩
  rw [node?_insert d hslot.location_ne_nil]
  split
  case isTrue hway => exact .inr ⟨hway ▸ hnone, rfl, place, hplace, hway⟩
  case isFalse => exact .inl rfl

end Furnished

/-- What was made before an obstacle counts as well. -/
theorem furnished_makeDirectories (places : List (List Char)) :
    ∀ d : Disk, Furnished d places (d.makeDirectories places).2 := by
  induction places with
  | nil => exact fun d => .refl d []
  | cons place outer ih =>
    intro d
    have hfirst : place ∈ place :: outer := List.mem_cons_self
    rw [makeDirectories]
    split
    · rename_i made hmade
      exact .of_makeDirectory hmade hfirst
    · have houter := (ih d).mono (List.subset_cons_self place outer)
      split
      · rename_i made hmade
        rw [hmade] at houter
        exact houter
      · rename_i made hmade
        rw [hmade] at houter
        split
        · rename_i made' hmade'
          exact houter.trans (.of_makeDirectory hmade' hfirst)
        · split <;> exact houter
    · split <;> exact .refl d _

/-! ### Paths -/

/-- Where the file at a path lies. -/
def location (d : Disk) (path : Path) : List String := Place.location (d.place path)

/-- Where the root directory lies. -/
def rootLocation (d : Disk) : List String := Place.location (placeOf d.root)

variable {path : Path}

theorem storeBytes_eq_ok {bytes : List UInt8} {stored : Disk} (h : d.storeBytes path bytes = (.ok (), stored)) :
    stored.node? (d.location path) = some (.file bytes) := by
  rw [storeBytes] at h
  split at h
  · rename_i stored' hstored
    obtain rfl := (Prod.mk.inj h).2
    obtain ⟨hslot, -, -, rfl⟩ := storeAt_eq_ok hstored
    exact (node?_insert d hslot.location_ne_nil _ _).trans (if_pos rfl)
  · cases (Prod.mk.inj h).1

theorem node?_storeBytes (d : Disk) (path : Path) (bytes : List UInt8) {way : List String}
    (h : way ≠ d.location path) : (d.storeBytes path bytes).2.node? way = d.node? way := by
  rw [storeBytes]
  split
  · rename_i stored hstored
    obtain ⟨hslot, -, -, rfl⟩ := storeAt_eq_ok hstored
    exact (node?_insert d hslot.location_ne_nil _ _).trans (if_neg h)
  · rfl

theorem Furnished.location_eq {places : List (List Char)} (h : Furnished d places d') (path : Path) :
    d'.location path = d.location path := by
  rw [location, place, h.root_eq]
  rfl

/-- A write that succeeds leaves the bytes at the location of the path. -/
theorem node?_writeBytes_location {bytes : List UInt8} (h : (d.writeBytes path bytes).1 = .ok ()) :
    (d.writeBytes path bytes).2.node? (d.location path) = some (.file bytes) := by
  have hmade := furnished_makeDirectories (Place.enclosing (d.place path)) d
  rw [writeBytes] at h ⊢
  split at h
  · cases h
  · rename_i made hmake
    rw [hmake] at hmade
    rw [← hmade.location_eq path]
    exact storeBytes_eq_ok (Prod.ext h rfl)

/-- Elsewhere a write makes directories around the path and nothing more. -/
theorem node?_writeBytes (d : Disk) (path : Path) (bytes : List UInt8) {way : List String}
    (h : way ≠ d.location path) :
    (d.writeBytes path bytes).2.node? way = d.node? way ∨
      d.node? way = none ∧ (d.writeBytes path bytes).2.node? way = some .directory ∧
        ∃ outer ∈ Place.enclosing (d.place path), way = Place.location outer := by
  have hmade := furnished_makeDirectories (Place.enclosing (d.place path)) d
  rw [writeBytes]
  split
  · rename_i made hmake
    rw [hmake] at hmade
    exact hmade.at_way way
  · rename_i made hmake
    rw [hmake] at hmade
    rw [← hmade.location_eq path] at h
    rw [node?_storeBytes made path bytes h]
    exact hmade.at_way way

/-! ### Confined paths -/

/-- The root is there, and the way to it leads through directories. -/
def HasRoot (d : Disk) : Prop :=
  ∀ way ∈ (Place.components (placeOf d.root)).inits, d.node? (Place.lexical way) = some .directory

instance (d : Disk) : Decidable d.HasRoot := List.decidableBAll _ _

/-- The way to a confined path leads to the root, and stays below it from there on. -/
theorem way_of_confined (h : path.Confined) {way : List String}
    (hway : way <+: Place.components (d.place path)) :
    way ∈ (Place.components (placeOf d.root)).inits ∨ d.rootLocation <+: Place.lexical way := by
  rw [place, Place.components_resolve, h.1, if_neg Bool.false_ne_true] at hway
  rcases List.prefix_or_prefix_of_prefix hway (List.prefix_append _ _) with hroot | ⟨names, rfl⟩
  · exact .inl ((List.mem_inits _ _).mpr hroot)
  · have hnames : names <+: path.names := (List.prefix_append_right_inj _).mp hway
    have hclimbs : (Place.course names).climbs = 0 :=
      Nat.le_zero.mp ((Place.climbs_le_of_prefix hnames).trans_eq h.2)
    exact .inr (Place.lexical_prefix_append hclimbs _)

/-- What is read at a confined path depends on what is below the root. -/
theorem readBytes_congr (h : path.Confined) (hd : d.HasRoot) (hd' : d'.HasRoot) (hroot : d'.root = d.root)
    (hbelow : ∀ way, d.rootLocation <+: way → d'.node? way = d.node? way) :
    d'.readBytes path = d.readBytes path := by
  rw [readBytes, readBytes, place, hroot]
  refine readAt_congr fun way hway => ?_
  rcases way_of_confined h hway with hinits | hinside
  · rw [hd way hinits]
    rw [← hroot] at hinits
    exact hd' way hinits
  · exact hbelow _ hinside

/-- Nothing is changed outside the root by a write at a confined path. -/
theorem node?_writeBytes_of_confined (h : path.Confined) (hd : d.HasRoot) (bytes : List UInt8)
    {way : List String} (hway : ¬ d.rootLocation <+: way) :
    (d.writeBytes path bytes).2.node? way = d.node? way := by
  have hlocation : way ≠ d.location path := by
    rintro rfl
    exact hway (h.inside (placeOf d.root))
  rcases node?_writeBytes d path bytes hlocation with heq | ⟨hnone, -, outer, houter, rfl⟩
  · exact heq
  · -- A directory that is made is not on the way to the root, where all directories are there.
    rcases way_of_confined h (Place.components_of_mem_enclosing houter) with hinits | hinside
    · rw [Place.location, hd _ hinits] at hnone
      cases hnone
    · exact absurd hinside hway

theorem readText_eq_ok {text : String} (h : d.readText path = .ok text) :
    ∃ bytes, d.node? (d.location path) = some (.file bytes) ∧
      String.fromUTF8? ⟨bytes.toArray⟩ = some text := by
  rw [readText] at h
  cases hbytes : d.readBytes path with
  | error e =>
    rw [hbytes] at h
    cases h
  | ok bytes =>
    rw [hbytes] at h
    dsimp only [bind, Except.bind] at h
    split at h
    · rename_i text' htext
      exact ⟨bytes, readAt_eq_ok hbytes, htext.trans (congrArg some (Except.ok.inj h))⟩
    · cases h

/-- Reading and writing at a path has to do with the file where the path leads, and with no other. -/
structure OnlyAt (d : Disk) (path : Path) : Prop where
  bytes_read : ∀ bytes, d.readBytes path = .ok bytes → d.node? (d.location path) = some (.file bytes)
  text_read : ∀ text, d.readText path = .ok text → ∃ bytes,
    d.node? (d.location path) = some (.file bytes) ∧ String.fromUTF8? ⟨bytes.toArray⟩ = some text
  written : ∀ text, (d.writeText path text).1 = .ok () →
    (d.writeText path text).2.node? (d.location path) = some (.file text.toUTF8.data.toList)
  kept : ∀ text way, way ≠ d.location path → (d.writeText path text).2.node? way = d.node? way ∨
    d.node? way = none ∧ (d.writeText path text).2.node? way = some .directory

/-- What is read at a path is the same on every disk with the same below the root, and a write changes nothing
outside the root. -/
structure StaysBelow (d : Disk) (path : Path) : Prop where
  reads : ∀ d' : Disk, d'.root = d.root → d'.HasRoot →
    (∀ way, d.rootLocation <+: way → d'.node? way = d.node? way) →
    d'.readBytes path = d.readBytes path ∧ d'.readText path = d.readText path
  writes : ∀ text way, ¬ d.rootLocation <+: way → (d.writeText path text).2.node? way = d.node? way

theorem onlyAt (d : Disk) (path : Path) : d.OnlyAt path where
  bytes_read _ h := readAt_eq_ok h
  text_read _ h := readText_eq_ok h
  written _ h := node?_writeBytes_location h
  kept text way hway := by
    refine (node?_writeBytes d path text.toUTF8.data.toList hway).imp_right ?_
    rintro ⟨hnone, hmade, -⟩
    exact ⟨hnone, hmade⟩

theorem staysBelow (h : path.Confined) (hd : d.HasRoot) : d.StaysBelow path where
  reads d' hroot hd' hbelow := by
    have hbytes := readBytes_congr h hd hd' hroot hbelow
    exact ⟨hbytes, by rw [readText, readText, hbytes]⟩
  writes text _ hway := node?_writeBytes_of_confined h hd text.toUTF8.data.toList hway

/-- **An access is to the file where the path leads, which need not be below the root.** A path gives up names of
the way to the root and adds its own, and it leads below the root just if it names again what it has given up.
Below every root are the confined paths, and an access at one has nothing to do with what is outside. The path of
a graphic is confined if its names have no slashes, and not always if they have. -/
theorem access_follows_path (d : Disk) (path : Path) :
    d.OnlyAt path ∧
    d.location path = d.rootLocation.take (path.keeps (placeOf d.root)) ++ path.course.names ∧
    (d.rootLocation <+: d.location path ↔
      d.rootLocation.drop (path.keeps (placeOf d.root)) <+: path.course.names) ∧
    (path.Confined ↔ ∀ root, Place.Inside root (Place.resolve root path)) ∧
    (path.Confined → d.HasRoot → d.StaysBelow path) ∧
    (∀ name, (Path.background name).Confined ↔
      Place.fromTop (name ++ ".svg") = false ∧ (Place.segmentCourse (name ++ ".svg")).climbs ≤ 1) ∧
    (∀ character emote, (Path.emote character emote).Confined ↔
      Place.fromTop character = false ∧ Place.fromTop (emote ++ ".svg") = false ∧
        (Place.segmentCourse character).climbs ≤ 1 ∧
        (Place.segmentCourse (emote ++ ".svg")).climbs ≤
          2 - (Place.segmentCourse character).climbs + (Place.segmentCourse character).names.length) ∧
    ∀ name : String, '/' ∉ name.toList → (Path.background name).Confined ∧
      ∀ character : String, '/' ∉ character.toList → (Path.emote character name).Confined :=
  ⟨d.onlyAt path, path.location_resolve _, path.inside_iff _, path.confined_iff, staysBelow,
    Path.confined_background_iff, Path.confined_emote_iff, fun _ => Path.confined_of_no_slash⟩

/-- The emote of a character with the name of the directory above stays below the root. -/
theorem access_follows_path_dots :
    fresh.HasRoot ∧ fresh.location (Path.emote ".." "..") = ["tmp", "skit", "emotes", "...svg"] ∧
      fresh.StaysBelow (Path.emote ".." "..") := by
  have hroot : fresh.HasRoot := by decide +kernel
  obtain ⟨-, -, -, -, hstays, -, -, hnames⟩ := access_follows_path fresh (Path.emote ".." "..")
  refine ⟨hroot, by decide +kernel, hstays ?_ hroot⟩
  exact (hnames ".." (by decide)).2 ".." (by decide)

/-- Both a step up and a slash in front lead out of the root: what is written is not among its files. -/
theorem written_outside_root :
    fresh.location ⟨["..", "skit-note.txt"]⟩ = ["tmp", "skit-note.txt"] ∧
      (fresh.writeText ⟨["..", "skit-note.txt"]⟩ "hi").1 = .ok () ∧
      (fresh.writeText ⟨["..", "skit-note.txt"]⟩ "hi").2.files = [] ∧
      fresh.location (Path.background "../../skit-beach") = ["tmp", "skit-beach.svg"] ∧
      fresh.location (Path.emote "/tmp" "glad") = ["tmp", "emotes", "glad.svg"] ∧
      ¬ fresh.rootLocation <+: ["tmp", "skit-note.txt"] := by
  decide +kernel

end SkitPage.Disk
