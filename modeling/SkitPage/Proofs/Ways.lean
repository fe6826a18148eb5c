import Mathlib.Data.List.Infix
import SkitPage.Storage.Place

/-!
# Where a path leads

The location of a place is where its names lead when `.` and `..` are taken as text. A path does two things
to the location of the root it is resolved from: it gives up some names at the end of it, all of them if a
segment begins at the top, and adds others. So the place of a path need not be inside the root. It is inside
every root just if no segment begins at the top and no step goes above where the path began
(`Path.confined_iff`).

Key definitions: `Place.location`, `Place.Inside`, `Place.Course`, `Path.keeps`, `Path.Confined`.
Key theorems: `Place.components_resolve`, `Place.lexical_append`, `Path.location_resolve`, `Path.inside_iff`,
`Path.confined_iff`, `Place.components_of_mem_enclosing`.
-/

namespace SkitPage

namespace Place

/-! ### The names of a place -/

theorem pieces_ne_nil (cs : List Char) : pieces cs ≠ [] := by
  cases cs with
  | nil => simp [pieces]
  | cons c cs =>
    rw [pieces]
    split
    · simp
    · split <;> simp

theorem pieces_append_slash (b : List Char) : ∀ a : List Char, pieces (a ++ '/' :: b) = pieces a ++ pieces b
  | [] => by simp [pieces]
  | c :: a => by
    rw [List.cons_append, pieces, pieces_append_slash b a, pieces]
    split
    · rfl
    · obtain ⟨p, ps, hp⟩ := List.exists_cons_of_ne_nil (pieces_ne_nil a)
      rw [hp]
      rfl

theorem pieces_of_no_slash : ∀ {cs : List Char}, '/' ∉ cs → pieces cs = [cs]
  | [], _ => rfl
  | c :: cs, h => by
    have hc : c ≠ '/' := fun hc => h (hc ▸ List.mem_cons_self)
    rw [pieces, if_neg hc, pieces_of_no_slash fun hmem => h (List.mem_cons_of_mem c hmem)]

theorem no_slash_of_mem_pieces : ∀ {cs piece : List Char}, piece ∈ pieces cs → '/' ∉ piece
  | [], piece, h => by
    rw [List.mem_singleton.mp h]
    exact List.not_mem_nil
  | c :: cs, piece, h => by
    rw [pieces] at h
    split at h
    · rcases List.mem_cons.mp h with rfl | h
      · exact List.not_mem_nil
      · exact no_slash_of_mem_pieces h
    case isFalse hc =>
      obtain ⟨p, ps, hp⟩ := List.exists_cons_of_ne_nil (pieces_ne_nil cs)
      have hcs : ∀ q ∈ p :: ps, '/' ∉ q := fun q hq => no_slash_of_mem_pieces (hp ▸ hq)
      rw [hp] at h
      rcases List.mem_cons.mp h with rfl | h
      · rw [List.mem_cons, not_or]
        exact ⟨Ne.symm hc, hcs p List.mem_cons_self⟩
      · exact hcs piece (List.mem_cons_of_mem p h)

theorem components_nil : components [] = [] := rfl

theorem components_append_slash (a b : List Char) :
    components (a ++ '/' :: b) = components a ++ components b := by
  rw [components, pieces_append_slash, List.filter_append, List.map_append]
  rfl

theorem components_of_no_slash {cs : List Char} (h : '/' ∉ cs) (hne : cs ≠ []) :
    components cs = [String.ofList cs] := by
  rw [components, pieces_of_no_slash h]
  simp [hne]

/-- Whether a segment begins at the top of the disk. -/
def fromTop (segment : String) : Bool := ['/'].isPrefixOf segment.toList

theorem components_join (place : List Char) (segment : String) :
    components (join place segment.toList) =
      (if fromTop segment then [] else components place) ++ components segment.toList := by
  rw [join, fromTop]
  split
  · rfl
  split
  case isTrue hend =>
    rcases hend with hempty | hslash
    · rw [List.isEmpty_iff.mp hempty, components_nil]
      rfl
    · -- The slash at the end of the place stands in for the one that would be put in.
      obtain ⟨front, rfl⟩ := List.getLast?_eq_some_iff.mp hslash
      rw [List.append_assoc, List.singleton_append, components_append_slash, components_append_slash,
        components_nil, List.append_nil]
  case isFalse => exact components_append_slash place segment.toList

end Place

namespace Path

/-- Whether a segment of the path begins at the top of the disk. -/
def fromTop (path : Path) : Bool := path.segments.any Place.fromTop

/-- The names that count: those of all segments, or those from the last segment on that begins at the top. -/
def names (path : Path) : List String :=
  path.segments.foldl
    (fun names segment => (if Place.fromTop segment then [] else names) ++ Place.components segment.toList) []

theorem names_concat (segments : List String) (segment : String) : names ⟨segments ++ [segment]⟩ =
    (if Place.fromTop segment then [] else names ⟨segments⟩) ++ Place.components segment.toList := by
  rw [names, List.foldl_append]
  rfl

end Path

theorem Place.components_resolve (root : List Char) (path : Path) :
    components (resolve root path) = (if path.fromTop then [] else components root) ++ path.names := by
  obtain ⟨segments⟩ := path
  induction segments using List.reverseRecOn with
  | nil => simp [resolve, Path.fromTop, Path.names]
  | append_singleton segments segment ih =>
    have hresolve : resolve root ⟨segments ++ [segment]⟩ = join (resolve root ⟨segments⟩) segment.toList := by
      rw [resolve, List.foldl_append]
      rfl
    have htop : Path.fromTop ⟨segments ++ [segment]⟩ = (Path.fromTop ⟨segments⟩ || fromTop segment) := by
      simp [Path.fromTop, List.any_append]
    rw [hresolve, components_join, ih, Path.names_concat, htop]
    cases fromTop segment with
    | true => simp
    | false => simp [List.append_assoc]

namespace Place

/-! ### Where a way leads -/

theorem lexical_concat (names : List String) (name : String) : lexical (names ++ [name]) =
    if name = "." then lexical names
    else if name = ".." then (lexical names).dropLast
    else lexical names ++ [name] := by
  rw [lexical, List.foldl_append, List.foldl_cons, List.foldl_nil, stepLexically]
  split
  · rfl
  · split
    · rw [List.drop_one, lexical, List.dropLast_reverse]
    · rw [List.reverse_cons, lexical]

/-- The location of a place: where its names lead if `.` and `..` are taken as text. -/
def location (place : List Char) : List String := lexical (components place)

/-- The place is in the root directory or below it, or is the root itself. -/
def Inside (root place : List Char) : Prop := location root <+: location place

instance (root place : List Char) : Decidable (Inside root place) :=
  inferInstanceAs (Decidable (location root <+: location place))

/-- What a way does to the directory in which it begins: how far it climbs above it, and by which names it
goes down from there. -/
structure Course where
  climbs : Nat := 0
  names : List String := []
deriving DecidableEq, Repr

/-- One step more. A step up takes back a step down, if there is one. -/
def Course.step (c : Course) (name : String) : Course :=
  if name = "." then c
  else if name = ".." then
    if c.names.isEmpty then { c with climbs := c.climbs + 1 } else { c with names := c.names.dropLast }
  else { c with names := c.names ++ [name] }

/-- The course of a way. -/
def course (names : List String) : Course := names.foldl Course.step {}

/-- The course of a segment. -/
def segmentCourse (segment : String) : Course := course (components segment.toList)

theorem course_concat (names : List String) (name : String) :
    course (names ++ [name]) = (course names).step name := by
  rw [course, List.foldl_append]
  rfl

theorem Course.climbs_le_step (c : Course) (name : String) : c.climbs ≤ (c.step name).climbs := by
  rw [step]
  split
  · exact Nat.le_refl _
  · split
    · split
      · exact Nat.le_succ _
      · exact Nat.le_refl _
    · exact Nat.le_refl _

/-- A way does not come back from above where it began. -/
theorem climbs_le_of_prefix {names more : List String} (h : names <+: more) :
    (course names).climbs ≤ (course more).climbs := by
  obtain ⟨rest, rfl⟩ := h
  induction rest using List.reverseRecOn with
  | nil => simp
  | append_singleton rest name ih =>
    rw [← List.append_assoc, course_concat]
    exact ih.trans (Course.climbs_le_step _ name)

theorem dropLast_take_sub {α : Type} (xs : List α) (n : Nat) :
    (xs.take (xs.length - n)).dropLast = xs.take (xs.length - (n + 1)) := by
  rw [List.dropLast_eq_take, List.take_take, List.length_take]
  congr 1
  omega

/-- A way that goes on from another gives up the last names of it and adds others. Once all are given up, it
climbs above where the other began. -/
theorem course_append (names more : List String) : course (names ++ more) =
    { climbs := (course names).climbs + ((course more).climbs - (course names).names.length)
      names := (course names).names.take ((course names).names.length - (course more).climbs)
        ++ (course more).names } := by
  induction more using List.reverseRecOn with
  | nil => simp [course]
  | append_singleton more name ih =>
    rw [← List.append_assoc, course_concat, course_concat, ih, Course.step, Course.step]
    by_cases hdot : name = "."
    · rw [if_pos hdot, if_pos hdot]
    rw [if_neg hdot, if_neg hdot]
    by_cases hup : name = ".."
    · rw [if_pos hup, if_pos hup]
      by_cases hmore : (course more).names = []
      · simp only [hmore, List.append_nil, List.isEmpty_nil, if_true]
        by_cases hleft : (course names).names.length ≤ (course more).climbs
        · have hgone : (course names).names.length - (course more).climbs = 0 := by omega
          have hgone' : (course names).names.length - ((course more).climbs + 1) = 0 := by omega
          rw [hgone, hgone', List.take_zero, if_pos List.isEmpty_nil, Course.mk.injEq]
          exact ⟨by omega, rfl⟩
        · have hkept : ((course names).names.take
              ((course names).names.length - (course more).climbs)).isEmpty ≠ true := by
            rw [Ne, List.isEmpty_iff_length_eq_zero, List.length_take]
            omega
          rw [if_neg hkept, dropLast_take_sub, Course.mk.injEq]
          exact ⟨by omega, rfl⟩
      · have hall : ∀ front : List String, (front ++ (course more).names).isEmpty = false := by simp [hmore]
        have hown : (course more).names.isEmpty = false := by simp [hmore]
        simp only [hall, hown, List.dropLast_append_of_ne_nil hmore, Bool.false_eq_true, if_false]
    · rw [if_neg hup, if_neg hup, List.append_assoc]

/-- From the top there is no way up. -/
theorem lexical_eq (names : List String) : lexical names = (course names).names := by
  induction names using List.reverseRecOn with
  | nil => rfl
  | append_singleton names name ih =>
    rw [lexical_concat, course_concat, Course.step, ih]
    split
    · rfl
    split
    · split
      case isTrue hempty => simp [List.isEmpty_iff.mp hempty]
      case isFalse => rfl
    · rfl

theorem lexical_append (base names : List String) : lexical (base ++ names) =
    (lexical base).take ((lexical base).length - (course names).climbs) ++ (course names).names := by
  rw [lexical_eq, lexical_eq, course_append]

theorem lexical_prefix_append {names : List String} (h : (course names).climbs = 0) (base : List String) :
    lexical base <+: lexical (base ++ names) := by
  rw [lexical_append, h, Nat.sub_zero, List.take_length]
  exact List.prefix_append _ _

theorem fromTop_of_no_slash {segment : String} (h : '/' ∉ segment.toList) : fromTop segment = false := by
  refine Bool.eq_false_iff.mpr fun htop => h ?_
  exact (List.isPrefixOf_iff_prefix.mp htop).subset List.mem_cons_self

theorem segmentCourse_of_no_slash {segment : String} (h : '/' ∉ segment.toList) (hne : segment ≠ "") :
    segmentCourse segment = Course.step {} segment := by
  rw [segmentCourse, components_of_no_slash h (by simpa using hne), String.ofList_toList]
  rfl

theorem climbs_le_one_of_no_slash {segment : String} (h : '/' ∉ segment.toList) :
    (segmentCourse segment).climbs ≤ 1 := by
  by_cases hne : segment = ""
  · rw [hne]
    decide
  rw [segmentCourse_of_no_slash h hne, Course.step]
  split
  · exact Nat.zero_le 1
  split
  · exact Nat.le_refl 1
  · exact Nat.zero_le 1

/-- The name of a file with its ending is neither of the two names that do not lead down. -/
theorem climbs_svg_of_no_slash {name : String} (h : '/' ∉ (name ++ ".svg").toList) :
    (segmentCourse (name ++ ".svg")).climbs = 0 := by
  have hlong : ∀ short : String, short.length < 4 → name ++ ".svg" ≠ short := by
    rintro _ hshort rfl
    rw [String.length_append, show ".svg".length = 4 by decide] at hshort
    omega
  rw [segmentCourse_of_no_slash h (hlong "" (by decide)), Course.step, if_neg (hlong "." (by decide)),
    if_neg (hlong ".." (by decide))]

/-! ### The directories around a place -/

theorem components_intercalate : ∀ {ps : List (List Char)}, (∀ p ∈ ps, '/' ∉ p) →
    components (['/'].intercalate ps) = (ps.filter (!·.isEmpty)).map String.ofList
  | [], _ => rfl
  | [p], h => by
    rw [List.intercalate_singleton, components, pieces_of_no_slash (h p List.mem_cons_self)]
  | p :: q :: ps, h => by
    obtain ⟨hp, hps⟩ := List.forall_mem_cons.mp h
    rw [List.intercalate_cons_cons, List.append_assoc, List.singleton_append, components_append_slash,
      components_intercalate hps, components, pieces_of_no_slash hp, ← List.map_append, ← List.filter_append,
      List.singleton_append]

theorem exists_suffix_of_mem_outwards {place : List Char} : ∀ {ps : List (List Char)}, place ∈ outwards ps →
    ∃ qs, qs <:+ ps ∧ place = ['/'].intercalate qs.reverse
  | [], h => nomatch h
  | p :: ps, h => by
    rw [outwards] at h
    split at h
    · obtain ⟨qs, hqs, hplace⟩ := exists_suffix_of_mem_outwards h
      exact ⟨qs, hqs.trans (List.suffix_cons p ps), hplace⟩
    · rcases List.mem_cons.mp h with hplace | h
      · exact ⟨p :: ps, List.suffix_rfl, hplace⟩
      · obtain ⟨qs, hqs, hplace⟩ := exists_suffix_of_mem_outwards h
        exact ⟨qs, hqs.trans (List.suffix_cons p ps), hplace⟩

/-- The way to a directory around a place is the beginning of the way to the place. -/
theorem components_of_mem_enclosing {place outer : List Char} (h : outer ∈ enclosing place) :
    components outer <+: components place := by
  obtain ⟨qs, hqs, rfl⟩ := exists_suffix_of_mem_outwards (List.mem_of_mem_drop h)
  have hpieces : qs.reverse <+: pieces place := by
    rw [← List.reverse_reverse (pieces place)]
    exact List.reverse_prefix.mpr hqs
  rw [components_intercalate fun p hp => no_slash_of_mem_pieces (hpieces.subset hp)]
  exact (hpieces.filter _).map _

end Place

namespace Path

/-! ### Paths below a root -/

/-- What a path does to its root, or to the top if a segment begins there. -/
def course (path : Path) : Place.Course := Place.course path.names

/-- How many names of the way to the root a path keeps. -/
def keeps (path : Path) (root : List Char) : Nat :=
  if path.fromTop then 0 else (Place.location root).length - path.course.climbs

/-- No segment begins at the top, and no step goes above where the path began. -/
def Confined (path : Path) : Prop := path.fromTop = false ∧ path.course.climbs = 0

instance (path : Path) : Decidable path.Confined :=
  inferInstanceAs (Decidable (_ ∧ _))

/-- A path keeps the first names of the way to its root, and adds its own. -/
theorem location_resolve (path : Path) (root : List Char) : Place.location (Place.resolve root path) =
    (Place.location root).take (path.keeps root) ++ path.course.names := by
  rw [Place.location, Place.components_resolve, keeps]
  split
  · rw [Place.lexical_append, show Place.lexical [] = [] from rfl, List.take_nil, List.take_zero, course]
  · exact Place.lexical_append _ _

/-- The place of a path is inside the root just if the path names again what it has given up. -/
theorem inside_iff (path : Path) (root : List Char) : Place.Inside root (Place.resolve root path) ↔
    (Place.location root).drop (path.keeps root) <+: path.course.names := by
  rw [Place.Inside, location_resolve]
  nth_rewrite 1 [← List.take_append_drop (path.keeps root) (Place.location root)]
  exact List.prefix_append_right_inj _

theorem Confined.inside {path : Path} (h : path.Confined) (root : List Char) :
    Place.Inside root (Place.resolve root path) := by
  rw [inside_iff, keeps, h.1, h.2]
  simp

/-- For a root of one name a path that is not confined keeps nothing. -/
theorem keeps_eq_zero {path : Path} (h : ¬ path.Confined) {root : List Char}
    (hroot : (Place.location root).length = 1) : path.keeps root = 0 := by
  rw [keeps]
  split
  · rfl
  case isFalse htop =>
    have hclimbs : path.course.climbs ≠ 0 := fun hzero => h ⟨by simpa using htop, hzero⟩
    omega

/-- The paths that stay inside every root. -/
theorem confined_iff (path : Path) :
    path.Confined ↔ ∀ root, Place.Inside root (Place.resolve root path) := by
  refine ⟨Confined.inside, fun h => Decidable.by_contra fun hconfined => ?_⟩
  have ha := (inside_iff path "/a".toList).mp (h "/a".toList)
  have hb := (inside_iff path "/b".toList).mp (h "/b".toList)
  -- The path does not depend on the root, so it cannot go back into both of these.
  rw [keeps_eq_zero hconfined (by decide)] at ha hb
  have hab := List.prefix_of_prefix_length_le ha hb (by decide)
  exact absurd hab (by decide)

/-! ### The paths of graphics -/

theorem names_of_relative {path : Path} (h : path.fromTop = false) :
    path.names = path.segments.flatMap fun segment => Place.components segment.toList := by
  obtain ⟨segments⟩ := path
  induction segments using List.reverseRecOn with
  | nil => rfl
  | append_singleton segments segment ih =>
    obtain ⟨hsegments, hsegment⟩ : fromTop ⟨segments⟩ = false ∧ Place.fromTop segment = false := by
      simpa [fromTop, List.any_append] using h
    rw [names_concat, hsegment, if_neg Bool.false_ne_true, ih hsegments, List.flatMap_append,
      List.flatMap_singleton]

/-- A background's name may go up once, out of the directory of backgrounds. -/
theorem confined_background_iff (name : String) : (background name).Confined ↔
    Place.fromTop (name ++ ".svg") = false ∧ (Place.segmentCourse (name ++ ".svg")).climbs ≤ 1 := by
  have htop : (background name).fromTop = Place.fromTop (name ++ ".svg") := by
    simp [background, fromTop, show Place.fromTop "backgrounds" = false by decide]
  rw [Confined, htop]
  refine and_congr_right fun hname => ?_
  have hcourse : (background name).course =
      Place.course (["backgrounds"] ++ Place.components (name ++ ".svg").toList) := by
    rw [course, names_of_relative (htop.trans hname), background, List.flatMap_cons, List.flatMap_singleton,
      show Place.components "backgrounds".toList = ["backgrounds"] by decide]
  rw [hcourse, Place.course_append, Place.segmentCourse]
  simp [show Place.course ["backgrounds"] = { names := ["backgrounds"] } by decide, Nat.sub_eq_zero_iff_le]

/-- A character's name may go up once, and the emote's name as often as the steps down before it allow. -/
theorem confined_emote_iff (character emote : String) : (Path.emote character emote).Confined ↔
    Place.fromTop character = false ∧ Place.fromTop (emote ++ ".svg") = false ∧
      (Place.segmentCourse character).climbs ≤ 1 ∧
      (Place.segmentCourse (emote ++ ".svg")).climbs ≤
        2 - (Place.segmentCourse character).climbs + (Place.segmentCourse character).names.length := by
  have htop : (Path.emote character emote).fromTop =
      (Place.fromTop character || Place.fromTop (emote ++ ".svg")) := by
    simp [Path.emote, fromTop, show Place.fromTop "characters" = false by decide,
      show Place.fromTop "emotes" = false by decide]
  rw [Confined, htop, Bool.or_eq_false_iff, and_assoc]
  refine and_congr_right fun hcharacter => and_congr_right fun hemote => ?_
  have hcourse : (Path.emote character emote).course = Place.course ((["characters"] ++
      Place.components character.toList) ++ ["emotes"] ++ Place.components (emote ++ ".svg").toList) := by
    rw [course, names_of_relative (by rw [htop, hcharacter, hemote]; rfl), Path.emote, List.flatMap_cons,
      List.flatMap_cons, List.flatMap_cons, List.flatMap_singleton, List.append_assoc, List.append_assoc,
      show Place.components "characters".toList = ["characters"] by decide,
      show Place.components "emotes".toList = ["emotes"] by decide]
  rw [hcourse, Place.course_append, Place.course_append, Place.course_append, ← Place.segmentCourse,
    ← Place.segmentCourse]
  simp only [show Place.course ["characters"] = { names := ["characters"] } by decide,
    show Place.course ["emotes"] = { names := ["emotes"] } by decide, List.length_append, List.length_take,
    List.length_cons, List.length_nil]
  omega

theorem no_slash_svg {name : String} (h : '/' ∉ name.toList) : '/' ∉ (name ++ ".svg").toList := by
  simpa using h

/-- Names without slashes keep the paths of graphics inside the root, even if they are `..`. -/
theorem confined_of_no_slash {name : String} (h : '/' ∉ name.toList) :
    (background name).Confined ∧
      ∀ character : String, '/' ∉ character.toList → (Path.emote character name).Confined := by
  have hfile := no_slash_svg h
  have hclimbs := Place.climbs_svg_of_no_slash hfile
  constructor
  · rw [confined_background_iff, hclimbs]
    exact ⟨Place.fromTop_of_no_slash hfile, Nat.zero_le 1⟩
  · intro character hcharacter
    rw [confined_emote_iff, hclimbs]
    exact ⟨Place.fromTop_of_no_slash hcharacter, Place.fromTop_of_no_slash hfile,
      Place.climbs_le_one_of_no_slash hcharacter, Nat.zero_le _⟩

end Path

end SkitPage
