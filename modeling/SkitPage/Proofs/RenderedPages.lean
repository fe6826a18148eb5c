import SkitPage.Proofs.BuildState
import SkitPage.Proofs.Maps
import SkitPage.Proofs.Renaming

/-!
# Pages with their graphics in place

A page can be rendered just if all graphics that its script names are there. Each backdrop and each face is
then the graphic of its path under the id and the class that the page has for it (`Graphic.PlacedAs`), in the
order of the page. So a template that reads the ids of all elements in document order (`Json.pageIds`) finds
the names of the numbers from zero, whatever ids the graphics came with.

Key definitions: `Graphic.PlacedAs`, `Page.RenderedAs`, `Json.pageIds`.
Key theorems: `Page.renderedAs_of_render?`, `Page.exists_render?_iff`, `Page.RenderedAs.pageIds_context`,
`Blueprint.rendered_in_place`.
-/

namespace SkitPage

open List

/-! ### A graphic in place -/

/-- `placed` is the graphic `g` as the element with attributes `a`: these give its id and its class, and all else
is that of the graphic. -/
structure Graphic.PlacedAs (g : Graphic) (a : Attributes) (placed : Graphic) : Prop where
  /-- The id is that of the element. -/
  id : placed.attributes.get? "id" = some a.id
  /-- The class is that of the element. -/
  cls : placed.attributes.get? "class" = some a.classText
  /-- No other attribute is changed, added or lost. -/
  others : ∀ name, name ≠ "id" → name ≠ "class" → placed.attributes.get? name = g.attributes.get? name
  /-- The content is that of the graphic. -/
  content : placed.content = g.content

theorem Graphic.placedAs_place (g : Graphic) (a : Attributes) : g.PlacedAs a (g.place a.id a.classText) where
  id := by rw [place, OrderedMap.get?_insert, if_pos rfl]
  cls := by
    rw [place, OrderedMap.get?_insert, if_neg (by decide), OrderedMap.get?_insert, if_pos rfl]
  others name hid hcls := by
    rw [place, OrderedMap.get?_insert, if_neg hid, OrderedMap.get?_insert, if_neg hcls]
  content := rfl

namespace Page

/-! ### The whole page -/

/-- The graphic at a path is there, and `x` is it as the element with attributes `a`. -/
def InPlace (graphics : Path → Option Graphic) (path : Path) (a : Attributes) (x : Graphic) : Prop :=
  ∃ g, graphics path = some g ∧ g.PlacedAs a x

/-- A page with its graphics in place. -/
structure RenderedAs (p : Page) (graphics : Path → Option Graphic) (r : Rendering) : Prop where
  /-- Each backdrop is in place. -/
  backdrops : Forall₂ (fun d x => InPlace graphics d.path d.attributes x) p.backdrops r.backdrops
  /-- Each actor keeps its attributes, and each of its faces is in place. -/
  actors : Forall₂ (fun a x => x.attributes = a.attributes ∧
    Forall₂ (fun f y => InPlace graphics f.path f.attributes y) a.faces x.faces) p.actors r.actors

theorem forall₂_of_mapM {α β : Type} {f : α → Option β} : ∀ {xs : List α} {ys : List β},
    xs.mapM f = some ys → Forall₂ (fun x y => f x = some y) xs ys
  | [], ys, h => by
    obtain rfl := Option.some.inj h
    exact .nil
  | x :: xs, ys, h => by
    rw [mapM_cons] at h
    obtain ⟨y, hy, h⟩ := Option.bind_eq_some_iff.mp h
    obtain ⟨zs, hzs, h⟩ := Option.bind_eq_some_iff.mp h
    obtain rfl := Option.some.inj h
    exact .cons hy (forall₂_of_mapM hzs)

theorem exists_of_forall₂ {α β : Type} {R : α → β → Prop} {xs : List α} {ys : List β} (h : Forall₂ R xs ys) :
    ∀ x ∈ xs, ∃ y, R x y := by
  induction h with
  | nil => exact forall_mem_nil _
  | cons hxy _ ih => exact forall_mem_cons.mpr ⟨⟨_, hxy⟩, ih⟩

variable {p : Page} {graphics : Path → Option Graphic} {r : Rendering}

theorem inPlace_of_placed? {path : Path} {a : Attributes} {x : Graphic} (h : placed? graphics path a = some x) :
    InPlace graphics path a x := by
  obtain ⟨g, hg, rfl⟩ := Option.map_eq_some_iff.mp h
  exact ⟨g, hg, g.placedAs_place a⟩

/-- What is rendered is in place. -/
theorem renderedAs_of_render? (h : p.render? graphics = some r) : p.RenderedAs graphics r := by
  rw [render?_eq] at h
  obtain ⟨backdrops, hbackdrops, h⟩ := Option.bind_eq_some_iff.mp h
  obtain ⟨actors, hactors, h⟩ := Option.bind_eq_some_iff.mp h
  obtain rfl := Option.some.inj h
  refine ⟨(forall₂_of_mapM hbackdrops).imp fun _ _ => inPlace_of_placed?,
    (forall₂_of_mapM hactors).imp fun a x hx => ?_⟩
  obtain ⟨faces, hfaces, hx⟩ := Option.bind_eq_some_iff.mp hx
  obtain rfl := Option.some.inj hx
  exact ⟨rfl, (forall₂_of_mapM hfaces).imp fun _ _ => inPlace_of_placed?⟩

/-- All graphics of a page in place are there. -/
theorem RenderedAs.exists_graphic (h : p.RenderedAs graphics r) : ∀ path ∈ p.paths, ∃ g, graphics path = some g := by
  intro path hpath
  simp only [paths, mem_append, mem_map, mem_flatMap] at hpath
  obtain ⟨d, hd, rfl⟩ | ⟨a, ha, f, hf, rfl⟩ := hpath
  · obtain ⟨_, g, hg, -⟩ := exists_of_forall₂ h.backdrops d hd
    exact ⟨g, hg⟩
  · obtain ⟨_, -, hfaces⟩ := exists_of_forall₂ h.actors a ha
    obtain ⟨_, g, hg, -⟩ := exists_of_forall₂ hfaces f hf
    exact ⟨g, hg⟩

/-- A page can be rendered just if all graphics that it shows are there. -/
theorem exists_render?_iff : (∃ r, p.render? graphics = some r) ↔ ∀ path ∈ p.paths, ∃ g, graphics path = some g :=
  ⟨fun ⟨_, h⟩ => (renderedAs_of_render? h).exists_graphic, exists_render?⟩

end Page

/-! ### What a template reads -/

namespace Json

/-- The items of the array in a field. -/
def items (name : String) (j : Json) : List Json :=
  match j.field? name with
  | some (.array items) => items
  | _ => []

/-- The id among the attributes of an element. -/
def elementId? (j : Json) : Option String :=
  match (j.field? "attributes").bind (field? "id") with
  | some (.string name) => some name
  | _ => none

/-- The ids of a page in document order: those of the states, of the backgrounds, and of the characters, each of
which is followed by its emotes. -/
def pageIds (j : Json) : List (Option String) :=
  (j.items "states").map elementId? ++ (j.items "backgrounds").map elementId? ++
    (j.items "characters").flatMap fun c => c.elementId? :: (c.items "emotes").map elementId?

theorem field?_object (name : String) (pairs : List (String × Json)) :
    (object pairs).field? name = pairs.reverse.lookup name := by
  have h := OrderedMap.get?_foldl_insert name pairs OrderedMap.empty
  rwa [OrderedMap.get?_empty, Option.or_none] at h

end Json

theorem lookup_map_snd {κ ν μ : Type} [DecidableEq κ] (f : ν → μ) (k : κ) : ∀ es : List (κ × ν),
    (es.map fun e => (e.1, f e.2)).lookup k = (es.lookup k).map f
  | [] => rfl
  | (k', v) :: es => by
    rw [map_cons, OrderedMap.lookup_cons_ite, OrderedMap.lookup_cons_ite, lookup_map_snd f k es]
    split <;> rfl

@[simp] theorem Scene.elementId?_toJson (s : Scene) : s.toJson.elementId? = some s.attributes.id := by
  simp [Scene.toJson, Attributes.toJson, Json.elementId?, Json.field?_object, OrderedMap.lookup_cons_ite]

@[simp] theorem RenderedActor.elementId?_toJson (a : RenderedActor) : a.toJson.elementId? = some a.attributes.id := by
  simp [RenderedActor.toJson, Attributes.toJson, Json.elementId?, Json.field?_object, OrderedMap.lookup_cons_ite]

@[simp] theorem RenderedActor.items_toJson (a : RenderedActor) :
    a.toJson.items "emotes" = a.faces.map Graphic.toJson := by
  simp [RenderedActor.toJson, Json.items, Json.field?_object]

theorem Graphic.elementId?_toJson (g : Graphic) :
    g.toJson.elementId? = g.attributes.get? "id" := by
  have hattributes : g.toJson.field? "attributes" =
      some (.object (g.attributes.entries.map fun e => (e.1, .string e.2))) := by
    simp [Graphic.toJson, Json.field?_object, OrderedMap.lookup_cons_ite]
  have hid : (Json.object (g.attributes.entries.map fun e => (e.1, .string e.2))).field? "id" =
      (g.attributes.get? "id").map .string := by
    -- an object keeps the last of the fields of one name; in order there is one of each
    rw [Json.field?_object, ← map_reverse, lookup_map_snd, OrderedMap.lookup_reverse]
  rw [Json.elementId?, hattributes, Option.bind_some, hid]
  cases g.attributes.get? "id" <;> rfl

theorem Rendering.pageIds_context (r : Rendering) (scenes : List Scene) (css : String) :
    (r.context scenes css).pageIds = (scenes.map fun s => some s.attributes.id) ++
      r.backdrops.map (fun g => g.toJson.elementId?) ++
      r.actors.flatMap fun a => some a.attributes.id :: a.faces.map fun g => g.toJson.elementId? := by
  have hstates : (r.context scenes css).items "states" = scenes.map Scene.toJson := by
    simp [Rendering.context, Json.items, Json.field?_object, OrderedMap.lookup_cons_ite]
  have hbackdrops : (r.context scenes css).items "backgrounds" = r.backdrops.map Graphic.toJson := by
    simp [Rendering.context, Json.items, Json.field?_object, OrderedMap.lookup_cons_ite]
  have hactors : (r.context scenes css).items "characters" = r.actors.map RenderedActor.toJson := by
    simp [Rendering.context, Json.items, Json.field?_object]
  simp [Json.pageIds, hstates, hbackdrops, hactors, flatMap_map, Function.comp_def]

/-- The ids that a template reads are those of the page. -/
theorem Page.RenderedAs.pageIds_context {p : Page} {graphics : Path → Option Graphic} {r : Rendering}
    (h : p.RenderedAs graphics r) (css : String) :
    (r.context p.scenes css).pageIds = p.elements.map fun a => some a.id := by
  have hplaced : ∀ path a x, InPlace graphics path a x → x.toJson.elementId? = some a.id := by
    rintro path a x ⟨g, -, hx⟩
    rw [Graphic.elementId?_toJson, hx.id]
  have hbackdrops := map_of_forall₂ h.backdrops (f := fun d => some d.attributes.id)
    (g := fun x => x.toJson.elementId?) fun d x hx => hplaced _ _ _ hx
  have hactors := flatMap_of_forall₂ h.actors
    (f := fun a => some a.attributes.id :: a.faces.map fun f => some f.attributes.id)
    (g := fun x => some x.attributes.id :: x.faces.map fun y => y.toJson.elementId?) fun a x ⟨hx, hfaces⟩ => by
      rw [hx, map_of_forall₂ hfaces fun f y hy => hplaced _ _ _ hy]
  rw [Rendering.pageIds_context, hbackdrops, hactors, elements]
  simp [map_flatMap, Function.comp_def]

/-- A graphic that comes with an id and a class. -/
def Graphic.labelled : Graphic := ⟨.ofList [("viewBox", "0 0 1 1"), ("id", "a"), ("class", "b")], "<path/>"⟩

namespace Blueprint

/-- **Graphics take the place that the page has for them.** Take a script that becomes a page, and any graphics. The
page can be rendered just if there is a graphic at each path that the script asks for. Then backdrops, actors and
faces are those of the page, in its order: each backdrop and each face is the graphic of its path with the id and the
class of the element. So the ids that a template reads in document order are the names of the numbers below the
number of elements. -/
theorem rendered_in_place {s : Script} {b : Blueprint} (h : ofScript s = .ok b) (graphics : Path → Option Graphic) :
    ((∃ r, b.page.render? graphics = some r) ↔ ∀ path ∈ b.assets, ∃ g, graphics path = some g) ∧
    ∀ r, b.page.render? graphics = some r → b.page.RenderedAs graphics r ∧
      ∀ css, (r.context b.page.scenes css).pageIds =
        (List.range b.page.elements.length).map fun i => some (Name.ofNumber i) := by
  obtain ⟨hok, l, hl, rfl⟩ := ofScript_eq_ok.mp h
  have hpaths : (draw s l).page.paths = (draw s l).assets := Page.paths_ofScript s (s.naming l)
  have hids : (draw s l).page.elements.map (·.id) =
      (List.range (draw s l).page.elements.length).map Name.ofNumber := by
    have hmap : (draw s l).page.elements.map (·.id) = s.elementOrder.map (s.naming l).id := Page.map_id_elements
    have hlength : (draw s l).page.elements.length = s.elementOrder.length := by
      simpa using congrArg List.length hmap
    rw [hmap, hlength, Script.map_id_elementOrder hl]
  refine ⟨hpaths ▸ Page.exists_render?_iff, fun r hr => ?_⟩
  have hrendered := Page.renderedAs_of_render? hr
  refine ⟨hrendered, fun css => ?_⟩
  rw [hrendered.pageIds_context css]
  simpa only [map_map, Function.comp_def] using congrArg (List.map some) hids

/-- The outing with this graphic everywhere: each of the ten elements has the id of its place. With one graphic
missing there is no page. -/
theorem rendered_in_place_outing : ∃ b r, ofScript .outing = .ok b ∧
    b.page.render? (fun _ => some .labelled) = some r ∧ b.page.RenderedAs (fun _ => some .labelled) r ∧
    (r.context b.page.scenes "").pageIds = ["a", "b", "c", "d", "e", "f", "g", "h", "i", "j"].map some ∧
    ∀ path ∈ b.assets, ¬ ∃ r, b.page.render? (fun p => if p = path then none else some .labelled) = some r := by
  obtain ⟨b, hb⟩ := ofScript_outing
  have hlength : b.page.elements.length = 10 := by
    have hcount : (ofScript .outing).toOption.map (·.page.elements.length) = some 10 := by decide +kernel
    rw [hb] at hcount
    exact Option.some.inj hcount
  obtain ⟨hall, hrendered⟩ := rendered_in_place hb fun _ => some .labelled
  obtain ⟨r, hr⟩ := hall.mpr fun _ _ => ⟨_, rfl⟩
  obtain ⟨hplaced, hids⟩ := hrendered r hr
  refine ⟨b, r, hb, hr, hplaced, ?_, fun path hpath hmissing => ?_⟩
  · rw [hids "", hlength]
    decide +kernel
  · obtain ⟨hfound, -⟩ := rendered_in_place hb fun p => if p = path then none else some .labelled
    obtain ⟨g, hg⟩ := hfound.mp hmissing path hpath
    simp at hg

end Blueprint

end SkitPage
