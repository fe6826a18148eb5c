import Mathlib.Data.List.Forall2
import Mathlib.Data.List.Nodup
import SkitPage.Proofs.JsonText
import SkitPage.Script.Json

/-!
# The forms of a script

A script has many forms as JSON. Each record in it is an object with its fields in any order, or the array
of its fields in the order of their declaration, and each choice is made anew at every place where a record
stands; a tagged value is a record whose first field is its tag. Every form of a script is decoded to that
script, as a value and as a text, and the form that is written is one of them
(`Script.every_form_decodes`).

A form is a set of values (`Json.Records`, `Json.Listed`, `Json.Nullable`), built like the decoder that it is
for. Each of them has two lemmas: the decoder takes all its values to the same result (`Shape.Decodes`), and
writing and reading a text leaves its values among its values (`Json.Settled`).

Key definitions: `Json.Records`, `Script.Written`, `Shape.Decodes`, `Json.Settled`.
Key theorems: `Shape.decodes_record`, `Shape.decodes_tagged`, `Json.settled_records`, `Script.decodes`,
`Script.settled`, `Script.every_form_decodes`.
-/

namespace SkitPage

/-! ### Forms of values -/

namespace Json

/-- The one value. -/
def Is (v : Json) : Json → Prop := (· = v)

/-- A text. -/
def Text (t : String) : Json → Prop := Is (.string t)

/-- An array with a form of each item of a list, in order. -/
inductive Listed {α : Type} (form : α → Json → Prop) (xs : List α) : Json → Prop
  | array {items : List Json} (h : List.Forall₂ form xs items) : Listed form xs (.array items)

/-- A form of what there is, or null for nothing. -/
inductive Nullable {α : Type} (form : α → Json → Prop) : Option α → Json → Prop
  | null : Nullable form none .null
  | some {a : α} {v : Json} (h : form a v) : Nullable form (some a) v

/-- A field of a record: its name, and the values that it may have. -/
structure Part where
  /-- The name of the field. -/
  name : String
  /-- The form of its value. -/
  form : Json → Prop

/-- The fields are those of a record, in any order. -/
structure Holds (parts : List Part) (entries : List (String × Json)) : Prop where
  /-- No name stands twice. -/
  distinct : (entries.map (·.1)).Nodup
  /-- There is no other field. -/
  names : ∀ e ∈ entries, ∃ p ∈ parts, p.name = e.1
  /-- Every field has its form. -/
  forms : ∀ p ∈ parts, ∃ v, (p.name, v) ∈ entries ∧ p.form v

/-- A record, as an object or as the array of its fields in the order of their declaration. -/
inductive Records (parts : List Part) : Json → Prop
  | object {entries : List (String × Json)} (h : Holds parts entries) : Records parts (.fields entries)
  | array {items : List Json} (h : List.Forall₂ Part.form parts items) : Records parts (.array items)

section Holds

variable {parts : List Part} {entries : List (String × Json)} (h : Holds parts entries)

include h

theorem Holds.functional (name : String) (v v' : Json) (hv : (name, v) ∈ entries) (hv' : (name, v') ∈ entries) :
    v = v' :=
  (Prod.mk.inj (List.inj_on_of_nodup_map h.distinct hv hv' rfl)).2

theorem Holds.lookup {p : Part} (hp : p ∈ parts) : ∃ v, entries.lookup p.name = some v ∧ p.form v := by
  obtain ⟨v, hv, hform⟩ := h.forms p hp
  exact ⟨v, (OrderedMap.lookup_eq_some_iff h.functional).mpr hv, hform⟩

theorem Holds.exists_part {e : String × Json} (he : e ∈ entries) : ∃ p ∈ parts, p.name = e.1 ∧ p.form e.2 := by
  obtain ⟨p, hp, hname⟩ := h.names e he
  obtain ⟨v, hv, hform⟩ := h.forms p hp
  obtain rfl : v = e.2 := h.functional e.1 v e.2 (hname ▸ hv) he
  exact ⟨p, hp, hname, hform⟩

/-- Sorting the fields of a record changes only their order. -/
theorem Holds.object : Records parts (.object entries) := by
  have hperm := OrderedMap.perm_ofList h.distinct
  refine .object ⟨(hperm.map _).nodup_iff.mpr h.distinct, fun e he => h.names e (hperm.mem_iff.mp he),
    fun p hp => ?_⟩
  obtain ⟨v, hv, hform⟩ := h.forms p hp
  exact ⟨v, hperm.mem_iff.mpr hv, hform⟩

end Holds

/-- The tag of a tagged value, as its first field. -/
def tagPart (tag : String) : Part := ⟨"type", Text tag⟩

end Json

open Json (Is Text Listed Nullable Part Holds Records tagPart)

/-! ### Forms of scripts -/

/-- The fields of a run. -/
def Run.parts (r : Run) : List Part :=
  [⟨"bold", Is (.bool r.bold)⟩, ⟨"italic", Is (.bool r.italic)⟩, ⟨"code", Is (.bool r.code)⟩,
    ⟨"plainText", Text r.text⟩]

/-- The forms of a run. -/
def Run.Written (r : Run) : Json → Prop := Records r.parts

/-- The fields of a character. -/
def Character.parts (c : Character) : List Part :=
  [⟨"normalized", Text c.normalized⟩, ⟨"verbatim", Text c.verbatim⟩]

/-- The forms of a character. -/
def Character.Written (c : Character) : Json → Prop := Records c.parts

/-- The tag of a presence. -/
def Presence.tag : Presence → String
  | .absent => "notPresent"
  | .entering _ _ => "entering"
  | .present _ => "present"
  | .exiting _ _ => "exiting"

/-- The fields of a presence besides its tag. -/
def Presence.parts : Presence → List Part
  | .absent => []
  | .entering a e => [⟨"animation", Text a⟩, ⟨"emote", Text e⟩]
  | .present e => [⟨"emote", Text e⟩]
  | .exiting a e => [⟨"animation", Text a⟩, ⟨"emote", Text e⟩]

/-- The forms of a presence. -/
def Presence.Written (q : Presence) : Json → Prop := Records (tagPart q.tag :: q.parts)

/-- The fields of a menu entry. -/
def MenuOption.parts (m : MenuOption) : List Part :=
  [⟨"content", Listed Run.Written m.content⟩, ⟨"stateIndex", Is (.nat m.target)⟩]

/-- The forms of a menu entry. -/
def MenuOption.Written (m : MenuOption) : Json → Prop := Records m.parts

/-- The tag of an interaction. -/
def Interaction.tag : Interaction → String
  | .dismiss _ => "dismiss"
  | .menu _ => "menu"

/-- The fields of an interaction besides its tag. -/
def Interaction.parts : Interaction → List Part
  | .dismiss t => [⟨"stateIndex", Is (.nat t)⟩]
  | .menu options => [⟨"options", Listed MenuOption.Written options⟩]

/-- The forms of an interaction. -/
def Interaction.Written (i : Interaction) : Json → Prop := Records (tagPart i.tag :: i.parts)

/-- The fields of a state. -/
def State.parts (st : State) : List Part :=
  [⟨"background", Nullable Text st.background⟩, ⟨"characters", Listed Presence.Written st.presences⟩,
    ⟨"speakers", Listed Text st.speakers⟩, ⟨"line", Nullable (Listed Run.Written) st.line⟩,
    ⟨"interaction", st.interaction.Written⟩]

/-- The forms of a state. -/
def State.Written (st : State) : Json → Prop := Records st.parts

/-- The fields of a script. -/
def Script.parts (s : Script) : List Part :=
  [⟨"states", Listed State.Written s.states⟩, ⟨"characters", Listed Character.Written s.characters⟩]

/-- The forms of a script. -/
def Script.Written (s : Script) : Json → Prop := Records s.parts

/-! ### Decoding a form -/

namespace Shape

variable {α : Type}

/-- All values of a form are decoded to one result. -/
def Decodes (decode : Json → Except ShapeError α) (form : Json → Prop) (a : α) : Prop :=
  ∀ v, form v → decode v = .ok a

theorem decodes_text (t : String) : Decodes text (Text t) t := by
  rintro _ rfl
  rfl

theorem decodes_flag (b : Bool) : Decodes flag (Is (.bool b)) b := by
  rintro _ rfl
  rfl

theorem decodes_index (n : Nat) : Decodes index (Is (.nat n)) n := by
  rintro _ rfl
  simp [index, Json.nat]

theorem decodes_list {item : Json → Except ShapeError α} {form : α → Json → Prop} {xs : List α}
    (h : ∀ x, Decodes item (form x) x) : Decodes (list item) (Listed form xs) xs := by
  rintro _ ⟨hitems⟩
  change List.mapM item _ = _
  induction hitems with
  | nil => rfl
  | cons hx _ ih =>
    rw [List.mapM_cons, h _ _ hx, ih]
    rfl

theorem decodes_nullable {item : Json → Except ShapeError α} {form : α → Json → Prop} {o : Option α}
    (h : ∀ x, Decodes item (form x) x) (hnull : ∀ a, item .null ≠ .ok a) :
    Decodes (nullable item) (Nullable form o) o := by
  rintro v (_ | hv)
  · rfl
  · have hdecode := h _ _ hv
    cases v with
    | null => exact absurd hdecode (hnull _)
    | _ => simp only [nullable, hdecode, Except.map]

theorem decodes_record {name : String} {ofFields : List (String × Json) → Except ShapeError α}
    {ofItems : List Json → Except ShapeError α} {parts : List Part} {a : α}
    (hfields : ∀ entries, Holds parts entries → ofFields entries = .ok a)
    (hitems : ∀ items, List.Forall₂ Part.form parts items → ofItems items = .ok a) :
    Decodes (record name ofFields ofItems) (Records parts) a := by
  rintro _ (h | h)
  · exact hfields _ h
  · exact hitems _ h

/-- The field at a position of a record is found by its name and decoded. -/
theorem field?_eq_ok {parts : List Part} {entries : List (String × Json)} (h : Holds parts entries) (i : Nat)
    {name : String} {form : Json → Prop} (hp : parts[i]? = some ⟨name, form⟩)
    {decode : Json → Except ShapeError α} {a : α} (hdecode : Decodes decode form a) :
    field? entries name decode = .ok (some a) := by
  obtain ⟨v, hv, hform⟩ := h.lookup (List.mem_of_getElem? hp)
  simp only [field?, hv, hdecode v hform, Except.map]

theorem decodes_tagged {name tag : String} {decode : String → Body → Except ShapeError α}
    {parts : List Part} {a : α}
    (hfields : ∀ entries, Holds (tagPart tag :: parts) entries → decode tag (.fields entries) = .ok a)
    (hitems : ∀ items, List.Forall₂ Part.form parts items → decode tag (.items items) = .ok a) :
    Decodes (tagged name decode) (Records (tagPart tag :: parts)) a := by
  rintro _ (h | h)
  · obtain ⟨_, hv, rfl⟩ := h.lookup List.mem_cons_self
    simp only [tagged, tagPart] at hv ⊢
    rw [hv]
    exact hfields _ h
  · cases h with
    | cons htag h =>
      obtain rfl := htag
      exact hitems _ h

end Shape

open Shape

/-! ### Decoding the forms of a script

The fields of an object are looked up by name. The items of an array are in the order of declaration, so its
length is known and the decoder runs on them. -/

theorem Run.decodes (setting : Setting) (r : Run) :
    Decodes (record "Run" ofFields (ofItems setting)) r.Written r := by
  refine decodes_record (fun entries h => ?_) fun items h => ?_
  · rw [ofFields, field?_eq_ok h 0 rfl (decodes_flag r.bold), field?_eq_ok h 1 rfl (decodes_flag r.italic),
      field?_eq_ok h 2 rfl (decodes_flag r.code), field?_eq_ok h 3 rfl (decodes_text r.text)]
    rfl
  · obtain _ | ⟨rfl, _ | ⟨rfl, _ | ⟨rfl, _ | ⟨rfl, _ | _⟩⟩⟩⟩ := h
    rfl

theorem Run.decodes_list (setting : Setting) (runs : List Run) :
    Decodes (listOfJson setting) (Listed Run.Written runs) runs :=
  Shape.decodes_list (decodes setting)

theorem Character.decodes (c : Character) : Decodes (record "MapCharacter" ofFields ofItems) c.Written c := by
  refine decodes_record (fun entries h => ?_) fun items h => ?_
  · rw [ofFields, field?_eq_ok h 0 rfl (decodes_text c.normalized),
      field?_eq_ok h 1 rfl (decodes_text c.verbatim)]
    rfl
  · obtain _ | ⟨rfl, _ | ⟨rfl, _ | _⟩⟩ := h
    rfl

/-- The two presences with an animation are decoded alike. -/
theorem Presence.decodes_animated {tag a e what : String} {make : String → String → Presence}
    (hparts : ∀ body, ofParts tag body = animated what make body) :
    Decodes ofJson (Records [tagPart tag, ⟨"animation", Text a⟩, ⟨"emote", Text e⟩]) (make a e) := by
  refine decodes_tagged (fun entries h => ?_) fun items h => ?_
  · rw [hparts, animated, field?_eq_ok h 1 rfl (decodes_text a), field?_eq_ok h 2 rfl (decodes_text e)]
    rfl
  · obtain _ | ⟨rfl, _ | ⟨rfl, _ | _⟩⟩ := h
    rw [hparts]
    rfl

theorem Presence.decodes (q : Presence) : Decodes ofJson q.Written q := by
  cases q with
  | absent =>
    refine decodes_tagged (fun entries h => rfl) fun items h => ?_
    obtain _ | _ := h
    rfl
  | entering a e => exact decodes_animated fun _ => rfl
  | present e =>
    refine decodes_tagged (fun entries h => ?_) fun items h => ?_
    · change still (.fields entries) = _
      rw [still, field?_eq_ok h 1 rfl (decodes_text e)]
      rfl
    · obtain _ | ⟨rfl, _ | _⟩ := h
      rfl
  | exiting a e => exact decodes_animated fun _ => rfl

theorem MenuOption.decodes (m : MenuOption) : Decodes (record "MenuOption" ofFields ofItems) m.Written m := by
  have hruns := Run.decodes_list .insideTagged m.content
  refine decodes_record (fun entries h => ?_) fun items h => ?_
  · rw [ofFields, field?_eq_ok h 0 rfl hruns, field?_eq_ok h 1 rfl (decodes_index m.target)]
    rfl
  · obtain _ | ⟨hcontent, _ | ⟨rfl, _ | _⟩⟩ := h
    simp only [ofItems, item, List.getElem?_cons_zero, List.getElem?_cons_succ, hruns _ hcontent,
      decodes_index m.target _ rfl]
    rfl

theorem Interaction.decodes (i : Interaction) : Decodes ofJson i.Written i := by
  cases i with
  | dismiss t =>
    refine decodes_tagged (fun entries h => ?_) fun items h => ?_
    · change single (.fields entries) = _
      rw [single, field?_eq_ok h 1 rfl (decodes_index t)]
      rfl
    · obtain _ | ⟨rfl, _ | _⟩ := h
      rfl
  | menu options =>
    have hoptions : Decodes MenuOption.listOfJson _ options := decodes_list MenuOption.decodes
    refine decodes_tagged (fun entries h => ?_) fun items h => ?_
    · change several (.fields entries) = _
      rw [several, field?_eq_ok h 1 rfl hoptions]
      rfl
    · obtain _ | ⟨hitems, _ | _⟩ := h
      change several (.items _) = _
      simp only [several, item, List.getElem?_cons_zero, hoptions _ hitems]
      rfl

theorem State.decodes (st : State) : Decodes (record "MapState" ofFields ofItems) st.Written st := by
  have hbackground : Decodes (nullable text) (Nullable Text st.background) st.background :=
    decodes_nullable decodes_text fun _ h => nomatch h
  have hpresences : Decodes (list Presence.ofJson) _ st.presences := decodes_list Presence.decodes
  have hspeakers : Decodes (list text) _ st.speakers := decodes_list decodes_text
  have hline : Decodes (nullable (Run.listOfJson .plain)) (Nullable (Listed Run.Written) st.line) st.line :=
    decodes_nullable (Run.decodes_list .plain) fun _ h => nomatch h
  have hinteraction := Interaction.decodes st.interaction
  refine decodes_record (fun entries h => ?_) fun items h => ?_
  · rw [ofFields, field?_eq_ok h 0 rfl hbackground, field?_eq_ok h 1 rfl hpresences,
      field?_eq_ok h 2 rfl hspeakers, field?_eq_ok h 3 rfl hline, field?_eq_ok h 4 rfl hinteraction]
    rfl
  · obtain _ | ⟨h₀, _ | ⟨h₁, _ | ⟨h₂, _ | ⟨h₃, _ | ⟨h₄, _ | _⟩⟩⟩⟩⟩ := h
    simp only [ofItems, item, itemOr, List.getElem?_cons_zero, List.getElem?_cons_succ, hbackground _ h₀,
      hpresences _ h₁, hspeakers _ h₂, hline _ h₃, hinteraction _ h₄]
    rfl

theorem Script.decodes (s : Script) : Decodes ofJson s.Written s := by
  have hstates : Decodes statesOfJson _ s.states := decodes_list State.decodes
  have hcharacters : Decodes charactersOfJson _ s.characters := decodes_list Character.decodes
  refine decodes_record (fun entries h => ?_) fun items h => ?_
  · rw [ofFields, field?_eq_ok h 0 rfl hstates, field?_eq_ok h 1 rfl hcharacters]
    rfl
  · obtain _ | ⟨h₀, _ | ⟨h₁, _ | _⟩⟩ := h
    simp only [ofItems, item, List.getElem?_cons_zero, List.getElem?_cons_succ, hstates _ h₀, hcharacters _ h₁]
    rfl

/-! ### Texts of forms -/

namespace Json

/-- A text can hold every value of a form, and reading it gives a value of the form again. -/
def Settled (depth : Nat) (form : Json → Prop) : Prop := ∀ v, form v → v.Exact depth ∧ form v.ordered

theorem settled_is {depth : Nat} {v : Json} (h : v.Exact depth) (hordered : v.ordered = v) :
    Settled depth (Is v) := by
  rintro _ rfl
  exact ⟨h, hordered⟩

theorem settled_text {depth : Nat} (t : String) : Settled depth (Text t) := settled_is (.string t) rfl

theorem settled_bool {depth : Nat} (b : Bool) : Settled depth (Is (.bool b)) := settled_is (.bool b) rfl

theorem settled_nat {depth n : Nat} (h : n ≤ maxWord) : Settled depth (Is (.nat n)) :=
  settled_is (.integer (by omega) (by omega)) rfl

/-- Item by item, an array stays of its form. -/
theorem settled_items {α : Type} {depth : Nat} {form : α → Json → Prop} {xs : List α} {items : List Json}
    (hitems : List.Forall₂ form xs items) (h : ∀ x ∈ xs, Settled depth (form x)) :
    (∀ v ∈ items, v.Exact depth) ∧ List.Forall₂ form xs (items.map ordered) := by
  induction hitems with
  | nil => exact ⟨by simp, .nil⟩
  | cons hv _ ih =>
    obtain ⟨hexact, hordered⟩ := h _ List.mem_cons_self _ hv
    obtain ⟨ihexact, ihordered⟩ := ih fun x hx => h x (List.mem_cons_of_mem _ hx)
    exact ⟨List.forall_mem_cons.mpr ⟨hexact, ihexact⟩, .cons hordered ihordered⟩

theorem settled_listed {α : Type} {depth : Nat} {form : α → Json → Prop} {xs : List α}
    (h : ∀ x ∈ xs, Settled depth (form x)) : Settled (depth + 1) (Listed form xs) := by
  rintro _ ⟨hitems⟩
  obtain ⟨hexact, hordered⟩ := settled_items hitems h
  rw [ordered, orderedItems_eq_map]
  exact ⟨.array hexact, .array hordered⟩

theorem settled_nullable {α : Type} {depth : Nat} {form : α → Json → Prop} {o : Option α}
    (h : ∀ a ∈ o, Settled depth (form a)) : Settled depth (Nullable form o) := by
  rintro v (_ | hv)
  · exact ⟨.null, .null⟩
  · obtain ⟨hexact, hordered⟩ := h _ rfl _ hv
    exact ⟨hexact, .some hordered⟩

theorem Holds.map_ordered {parts : List Part} {entries : List (String × Json)} (h : Holds parts entries)
    (hparts : ∀ p ∈ parts, ∀ v, p.form v → p.form v.ordered) :
    Holds parts (entries.map fun e => (e.1, e.2.ordered)) where
  distinct := by
    rw [List.map_map]
    exact h.distinct
  names := by
    intro _ hmem
    obtain ⟨e, he, rfl⟩ := List.mem_map.mp hmem
    exact h.names e he
  forms := by
    intro p hp
    obtain ⟨v, hv, hform⟩ := h.forms p hp
    exact ⟨v.ordered, List.mem_map.mpr ⟨_, hv, rfl⟩, hparts p hp v hform⟩

theorem settled_records {depth : Nat} {parts : List Part} (h : ∀ p ∈ parts, Settled depth p.form) :
    Settled (depth + 1) (Records parts) := by
  rintro _ (hentries | hitems)
  · rw [ordered, orderedFields_eq_map]
    refine ⟨.fields fun e he => ?_, (hentries.map_ordered fun p hp v hv => (h p hp v hv).2).object⟩
    obtain ⟨p, hp, -, hform⟩ := hentries.exists_part he
    exact (h p hp _ hform).1
  · obtain ⟨hexact, hordered⟩ := settled_items hitems h
    rw [ordered, orderedItems_eq_map]
    exact ⟨.array hexact, .array hordered⟩

end Json

open Json (Settled settled_records settled_listed settled_nullable settled_text settled_bool settled_nat)

theorem Run.settled {depth : Nat} (r : Run) : Settled (depth + 1) r.Written :=
  settled_records (by simp [parts, settled_bool, settled_text])

theorem Character.settled {depth : Nat} (c : Character) : Settled (depth + 1) c.Written :=
  settled_records (by simp [parts, settled_text])

theorem Presence.settled {depth : Nat} (q : Presence) : Settled (depth + 1) q.Written :=
  settled_records (by cases q <;> simp [parts, tagPart, settled_text])

theorem MenuOption.settled {depth : Nat} {m : MenuOption} (h : m.target ≤ Json.maxWord) :
    Settled (depth + 3) m.Written := by
  have hcontent : Settled (depth + 2) (Listed Run.Written m.content) := settled_listed fun r _ => r.settled
  exact settled_records (by simp [parts, hcontent, settled_nat h])

theorem Interaction.settled {depth : Nat} {i : Interaction} (h : ∀ t ∈ i.targets, t ≤ Json.maxWord) :
    Settled (depth + 5) i.Written := by
  cases i with
  | dismiss t =>
    have ht : t ≤ Json.maxWord := h t List.mem_cons_self
    exact settled_records (by simp [parts, tagPart, settled_text, settled_nat ht])
  | menu options =>
    have hoptions : Settled (depth + 4) (Listed MenuOption.Written options) :=
      settled_listed fun m hm => MenuOption.settled (h _ (List.mem_map_of_mem hm))
    exact settled_records (by simp [parts, tagPart, settled_text, hoptions])

theorem State.settled {depth : Nat} {st : State} (h : ∀ t ∈ st.interaction.targets, t ≤ Json.maxWord) :
    Settled (depth + 6) st.Written := by
  have hbackground : Settled (depth + 5) (Nullable Text st.background) :=
    settled_nullable fun b _ => settled_text b
  have hpresences : Settled (depth + 5) (Listed Presence.Written st.presences) :=
    settled_listed fun q _ => q.settled
  have hspeakers : Settled (depth + 5) (Listed Text st.speakers) := settled_listed fun t _ => settled_text t
  have hline : Settled (depth + 5) (Nullable (Listed Run.Written) st.line) :=
    settled_nullable fun runs _ => settled_listed fun r _ => r.settled
  have hinteraction : Settled (depth + 5) st.interaction.Written := Interaction.settled h
  exact settled_records (by simp [parts, hbackground, hpresences, hspeakers, hline, hinteraction])

/-- A script nests eight deep. -/
theorem Script.settled {depth : Nat} {s : Script}
    (h : ∀ st ∈ s.states, ∀ t ∈ st.interaction.targets, t ≤ Json.maxWord) : Settled (depth + 8) s.Written := by
  have hstates : Settled (depth + 7) (Listed State.Written s.states) :=
    settled_listed fun st hst => State.settled (h st hst)
  have hcharacters : Settled (depth + 7) (Listed Character.Written s.characters) :=
    settled_listed fun c _ => c.settled
  exact settled_records (by simp [parts, hstates, hcharacters])

/-! ### The form that is written -/

namespace Json

/-- The fields of a record in the order of their declaration. -/
theorem Holds.of_forall₂ {parts : List Part} {pairs : List (String × Json)}
    (hdistinct : (pairs.map (·.1)).Nodup)
    (h : List.Forall₂ (fun p e => p.name = e.1 ∧ p.form e.2) parts pairs) : Holds parts pairs := by
  refine ⟨hdistinct, ?_, ?_⟩ <;> clear hdistinct
  · induction h with
    | nil => simp
    | cons hp _ ih =>
      refine List.forall_mem_cons.mpr ⟨⟨_, List.mem_cons_self, hp.1⟩, fun e he => ?_⟩
      obtain ⟨p, hmem, hname⟩ := ih e he
      exact ⟨p, List.mem_cons_of_mem _ hmem, hname⟩
  · induction h with
    | nil => simp
    | cons hp _ ih =>
      refine List.forall_mem_cons.mpr ⟨⟨_, hp.1 ▸ List.mem_cons_self, hp.2⟩, fun p hmem => ?_⟩
      obtain ⟨v, hv, hform⟩ := ih p hmem
      exact ⟨v, List.mem_cons_of_mem _ hv, hform⟩

theorem records_object {parts : List Part} {pairs : List (String × Json)} (hdistinct : (pairs.map (·.1)).Nodup)
    (h : List.Forall₂ (fun p e => p.name = e.1 ∧ p.form e.2) parts pairs) : Records parts (.object pairs) :=
  (Holds.of_forall₂ hdistinct h).object

theorem text_string (t : String) : Text t (.string t) := rfl

theorem listed_map {α : Type} {form : α → Json → Prop} {f : α → Json} (h : ∀ x, form x (f x)) (xs : List α) :
    Listed form xs (.array (xs.map f)) :=
  .array (List.forall₂_map_right_iff.mpr (List.forall₂_same.mpr fun x _ => h x))

theorem nullable_ofOption {α : Type} {form : α → Json → Prop} {f : α → Json} (h : ∀ x, form x (f x))
    (o : Option α) : Nullable form o (.ofOption (o.map f)) := by
  cases o with
  | none => exact .null
  | some a => exact .some (h a)

end Json

open Json (records_object text_string listed_map nullable_ofOption)

theorem Run.written_toJson (r : Run) : r.Written r.toJson :=
  records_object (by simp) (.cons ⟨rfl, rfl⟩ (.cons ⟨rfl, rfl⟩ (.cons ⟨rfl, rfl⟩ (.cons ⟨rfl, rfl⟩ .nil))))

theorem Character.written_toJson (c : Character) : c.Written c.toJson :=
  records_object (by simp) (.cons ⟨rfl, rfl⟩ (.cons ⟨rfl, rfl⟩ .nil))

theorem Presence.written_toJson (q : Presence) : q.Written q.toJson := by
  cases q with
  | absent => exact records_object (by simp) (.cons ⟨rfl, rfl⟩ .nil)
  | entering a e => exact records_object (by simp) (.cons ⟨rfl, rfl⟩ (.cons ⟨rfl, rfl⟩ (.cons ⟨rfl, rfl⟩ .nil)))
  | present e => exact records_object (by simp) (.cons ⟨rfl, rfl⟩ (.cons ⟨rfl, rfl⟩ .nil))
  | exiting a e => exact records_object (by simp) (.cons ⟨rfl, rfl⟩ (.cons ⟨rfl, rfl⟩ (.cons ⟨rfl, rfl⟩ .nil)))

theorem MenuOption.written_toJson (m : MenuOption) : m.Written m.toJson :=
  records_object (by simp) (.cons ⟨rfl, listed_map Run.written_toJson _⟩ (.cons ⟨rfl, rfl⟩ .nil))

theorem Interaction.written_toJson (i : Interaction) : i.Written i.toJson := by
  cases i with
  | dismiss t => exact records_object (by simp) (.cons ⟨rfl, rfl⟩ (.cons ⟨rfl, rfl⟩ .nil))
  | menu options =>
    exact records_object (by simp)
      (.cons ⟨rfl, rfl⟩ (.cons ⟨rfl, listed_map MenuOption.written_toJson _⟩ .nil))

theorem State.written_toJson (st : State) : st.Written st.toJson := by
  have hbackground := nullable_ofOption text_string st.background
  have hline := nullable_ofOption (listed_map Run.written_toJson) st.line
  exact records_object (by simp)
    (.cons ⟨rfl, hbackground⟩ (.cons ⟨rfl, listed_map Presence.written_toJson _⟩
      (.cons ⟨rfl, listed_map text_string _⟩ (.cons ⟨rfl, hline⟩
        (.cons ⟨rfl, st.interaction.written_toJson⟩ .nil)))))

theorem Script.written_toJson (s : Script) : s.Written s.toJson :=
  records_object (by simp)
    (.cons ⟨rfl, listed_map State.written_toJson _⟩ (.cons ⟨rfl, listed_map Character.written_toJson _⟩ .nil))

/-- **Every form of a script is decoded to it.** The form that is written is one of the forms of a script. The
others have some of the records, whichever they are, as objects with their fields in another order or as the
arrays of their fields. From each of them the script is decoded, and also from the text of each of them if the
positions that states lead to are numbers of 64 bits. -/
theorem Script.every_form_decodes (s : Script) :
    s.Written s.toJson ∧
    (∀ v, s.Written v → ofJson v = .ok s) ∧
    ((∀ st ∈ s.states, ∀ t ∈ st.interaction.targets, t ≤ Json.maxWord) →
      ∀ v, s.Written v → ∃ v', Json.parse? v.compact = some v' ∧ ofJson v' = .ok s) := by
  refine ⟨s.written_toJson, s.decodes, fun htargets v hv => ?_⟩
  have hsettled : Settled Json.maxDepth s.Written := Script.settled htargets
  obtain ⟨hexact, hordered⟩ := hsettled v hv
  exact ⟨v.ordered, Json.parse?_compact hexact, s.decodes _ hordered⟩

/-- A script in which someone comes, says farewell and stays if asked to. -/
def Script.farewell : Script where
  characters := [⟨"ann", "Ann"⟩]
  states := [
    ⟨some "beach", [.entering "fade" "happy"], ["ann"], some [⟨true, false, false, "Bye,\n\"all\""⟩],
      .menu [⟨[⟨false, true, false, "Stay"⟩], 1⟩]⟩,
    ⟨none, [.absent], [], none, .dismiss 0⟩]

/-- A form of the farewell with objects and arrays in turn, the fields of objects in the order of their
declaration. -/
def Script.farewellForm : Json :=
  .array [
    .array [
      .fields [
        ("background", .string "beach"),
        ("characters", .array [.array [.string "entering", .string "fade", .string "happy"]]),
        ("speakers", .array [.string "ann"]),
        ("line", .array [.array [.bool true, .bool false, .bool false, .string "Bye,\n\"all\""]]),
        ("interaction", .fields [
          ("type", .string "menu"),
          ("options", .array [.array [
            .array [.fields [("bold", .bool false), ("italic", .bool true), ("code", .bool false),
              ("plainText", .string "Stay")]],
            .nat 1]])])],
      .array [.null, .array [.fields [("type", .string "notPresent")]], .array [], .null,
        .array [.string "dismiss", .nat 0]]],
    .array [.array [.string "ann", .string "Ann"]]]

theorem Script.written_farewellForm : farewell.Written farewellForm := by
  have hbye : Run.Written ⟨true, false, false, "Bye,\n\"all\""⟩
      (.array [.bool true, .bool false, .bool false, .string "Bye,\n\"all\""]) :=
    .array (.cons rfl (.cons rfl (.cons rfl (.cons rfl .nil))))
  have hstay : Run.Written ⟨false, true, false, "Stay"⟩
      (.fields [("bold", .bool false), ("italic", .bool true), ("code", .bool false),
        ("plainText", .string "Stay")]) :=
    .object (.of_forall₂ (by decide)
      (.cons ⟨rfl, rfl⟩ (.cons ⟨rfl, rfl⟩ (.cons ⟨rfl, rfl⟩ (.cons ⟨rfl, rfl⟩ .nil)))))
  have hentering : Presence.Written (.entering "fade" "happy")
      (.array [.string "entering", .string "fade", .string "happy"]) :=
    .array (.cons rfl (.cons rfl (.cons rfl .nil)))
  have habsent : Presence.Written .absent (.fields [("type", .string "notPresent")]) :=
    .object (.of_forall₂ (by decide) (.cons ⟨rfl, rfl⟩ .nil))
  have hdismiss : Interaction.Written (.dismiss 0) (.array [.string "dismiss", .nat 0]) :=
    .array (.cons rfl (.cons rfl .nil))
  refine .array (.cons (.array (.cons (.object (.of_forall₂ (by decide) ?_)) (.cons (.array ?_) .nil)))
    (.cons (.array (.cons (.array (.cons rfl (.cons rfl .nil))) .nil)) .nil))
  · refine .cons ⟨rfl, .some rfl⟩ (.cons ⟨rfl, .array (.cons hentering .nil)⟩
      (.cons ⟨rfl, .array (.cons rfl .nil)⟩ (.cons ⟨rfl, .some (.array (.cons hbye .nil))⟩
        (.cons ⟨rfl, .object (.of_forall₂ (by decide) ?_)⟩ .nil))))
    refine .cons ⟨rfl, rfl⟩ (.cons ⟨rfl, .array (.cons (.array ?_) .nil)⟩ .nil)
    exact .cons (.array (.cons hstay .nil)) (.cons rfl .nil)
  · exact .cons .null (.cons (.array (.cons habsent .nil)) (.cons (.array .nil)
      (.cons .null (.cons hdismiss .nil))))

/-- The farewell is decoded from that form, and from its text. -/
theorem Script.farewell_form_decodes :
    farewell.Written farewellForm ∧ ofJson farewellForm = .ok farewell ∧
    ∃ v, Json.parse? farewellForm.compact = some v ∧ ofJson v = .ok farewell := by
  obtain ⟨-, hvalue, htext⟩ := every_form_decodes farewell
  exact ⟨written_farewellForm, hvalue _ written_farewellForm, htext (by decide) _ written_farewellForm⟩

end SkitPage
