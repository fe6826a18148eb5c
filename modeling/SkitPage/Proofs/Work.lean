import SkitPage.Proofs.Atomicity
import SkitPage.Proofs.Names
import Mathlib.Data.List.Nodup

/-!
# What a run does

A run that succeeds does what its changes ask for, each thing once, and nothing else
(`Compiler.work_of_recompile`). What there is to do is cut into errands, one for each part that a file
plays: a path that is a source and a graphic at once is read for both. The record of a run is the work of
its errands one after the other.

Whether an errand is due depends on the changes, on the graphics that the script needs, and on those that
it needed before. The compiler looks at the graphics that it keeps instead; between runs these are just
those that the script needs (`Compiler.Settled.toLoad_eq`). A stage that succeeds has always done the same
(`Job.Does`), so the record of a run can be read off its stages (`Compiler.Stages.log_eq`).

Key definitions: `Errand`, `Errand.Due`, `errands`, `Job.Does`, `Compiler.Fulfils`.
Key theorems: `flatMap_errands`, `Compiler.Stages.log_eq`, `Compiler.Stages.matters_iff`,
`Compiler.Settled.log_of_none`, `Compiler.Settled.log_of_some`, `Compiler.work_of_recompile`.
-/

namespace SkitPage

/-! ### Errands -/

/-- A part of what a run may have to do. -/
inductive Errand
  | script
  | stylesheet
  | css
  | template
  | graphic (path : Path)
  | page
deriving DecidableEq, Repr

namespace Errand

/-- What is done on an errand. -/
def work (layout : Layout) : Errand → List Work
  | .script => [.read layout.script, .parse, .map]
  | .stylesheet => [.read layout.stylesheet]
  | .css => [.compileStylesheet]
  | .template => [.read layout.template, .compileTemplate]
  | .graphic path => [.read path, .optimize]
  | .page => [.render, .minify, .write layout.page]

/-- What changes make necessary, where the script needed graphics before and needs graphics now. -/
def Due (layout : Layout) (changed before now : List Path) : Errand → Prop
  | .script => layout.script ∈ changed
  | .stylesheet => layout.stylesheet ∈ changed
  | .css => layout.script ∈ changed ∨ layout.stylesheet ∈ changed
  | .template => layout.template ∈ changed
  | .graphic path => path ∈ now ∧ (path ∉ before ∨ path ∈ changed)
  | .page => layout.script ∈ changed ∨ layout.template ∈ changed ∨ layout.stylesheet ∈ changed ∨
      ∃ path ∈ now, path ∉ before ∨ path ∈ changed

variable {layout : Layout} {changed before now : List Path}

instance : DecidablePred (Due layout changed before now)
  | .script => inferInstanceAs (Decidable (_ ∈ _))
  | .stylesheet => inferInstanceAs (Decidable (_ ∈ _))
  | .css => inferInstanceAs (Decidable (_ ∨ _))
  | .template => inferInstanceAs (Decidable (_ ∈ _))
  | .graphic _ => inferInstanceAs (Decidable (_ ∧ _))
  | .page => inferInstanceAs (Decidable (_ ∨ _))

/-- Whatever is due, the page is due with it. -/
theorem Due.page {e : Errand} (h : e.Due layout changed before now) : Due layout changed before now .page := by
  cases e with
  | script => exact Or.inl h
  | stylesheet => exact Or.inr (Or.inr (Or.inl h))
  | css => exact h.elim Or.inl fun h => Or.inr (Or.inr (Or.inl h))
  | template => exact Or.inr (Or.inl h)
  | graphic path => exact Or.inr (Or.inr (Or.inr ⟨path, h⟩))
  | page => exact h

end Errand

/-- All errands that there can be, in the order of a run. -/
def Errand.all (now : List Path) : List Errand :=
  [.script, .stylesheet, .css, .template] ++ (now.eraseDups.map .graphic ++ [.page])

/-- The errands that are due, in the order of a run. -/
def errands (layout : Layout) (changed before now : List Path) : List Errand :=
  (Errand.all now).filter (·.Due layout changed before now)

section Errands

variable {layout : Layout} {changed before now : List Path}

theorem mem_errands {e : Errand} :
    e ∈ errands layout changed before now ↔ e.Due layout changed before now := by
  simp only [errands, Errand.all, List.mem_filter, decide_eq_true_eq, and_iff_right_iff_imp]
  intro h
  cases e with
  | graphic path => simpa [List.mem_eraseDups] using h.1
  | _ => simp

theorem nodup_errands : (errands layout changed before now).Nodup := by
  have hgraphics : (now.eraseDups.map Errand.graphic).Nodup :=
    List.Nodup.map (fun _ _ => Errand.graphic.inj) (nodup_eraseDups now)
  have hlater : (now.eraseDups.map Errand.graphic ++ [Errand.page]).Nodup :=
    List.nodup_append.mpr ⟨hgraphics, List.nodup_singleton _, by simp⟩
  refine List.Nodup.filter _ (List.nodup_append.mpr ⟨by decide, hlater, ?_⟩)
  rintro e he _ he' rfl
  rcases List.mem_append.mp he' with hgraphic | hpage
  · obtain ⟨path, -, rfl⟩ := List.mem_map.mp hgraphic
    simp at he
  · obtain rfl := List.mem_singleton.mp hpage
    simp at he

theorem flatMap_filter_eq {α β : Type} (p : α → Bool) (f : α → List β) (xs : List α) :
    (xs.filter p).flatMap f = xs.flatMap fun x => if p x then f x else [] := by
  induction xs with
  | nil => rfl
  | cons x xs ih =>
    rw [List.filter_cons, List.flatMap_cons, ← ih]
    split
    · rfl
    · rfl

/-- What is done on all errands that are due. -/
theorem flatMap_errands : (errands layout changed before now).flatMap (Errand.work layout) =
    (if layout.script ∈ changed then Errand.script.work layout else []) ++
    ((if layout.stylesheet ∈ changed then Errand.stylesheet.work layout else []) ++
    ((if layout.script ∈ changed ∨ layout.stylesheet ∈ changed then Errand.css.work layout else []) ++
    ((if layout.template ∈ changed then Errand.template.work layout else []) ++
    ((now.eraseDups.filter fun path => (Errand.graphic path).Due layout changed before now).flatMap
      (fun path => (Errand.graphic path).work layout) ++
    (if Errand.page.Due layout changed before now then Errand.page.work layout else []))))) := by
  simp only [errands, Errand.all, flatMap_filter_eq, List.flatMap_append, List.flatMap_cons, List.flatMap_nil,
    List.flatMap_map, List.append_nil, List.append_assoc, decide_eq_true_eq]
  rfl

end Errands

/-! ### The record of a job -/

namespace Job

variable {α β : Type} {j : Job α} {next : α → Job β} {log log' : List Work}

/-- If a job succeeds, it has done what the record says. -/
def Does (j : Job α) (log : List Work) : Prop := ∀ a, j.result = .ok a → j.log = log

theorem log_bind {a : α} (h : j.result = .ok a) : (j >>= next).log = j.log ++ (next a).log := by
  change (j.bind next).log = _
  rw [Job.bind, h]

theorem does_step (w : Work) (r : Except BuildError α) : (step w r).Does [w] := fun _ _ => rfl

theorem does_done (r : Except BuildError α) : (done r).Does [] := fun _ _ => rfl

theorem does_pure (a : α) : (pure a : Job α).Does [] := fun _ _ => rfl

theorem does_error (e : BuildError) : (done (.error e) : Job α).Does log := nofun

theorem Does.bind (hj : j.Does log) (hn : ∀ a, (next a).Does log') : (j >>= next).Does (log ++ log') := by
  intro b hb
  obtain ⟨a, ha, hnext⟩ := bind_eq_ok.mp hb
  rw [log_bind ha, hj a ha, hn a b hnext]

theorem Does.onlyIf (condition : Bool) (hj : j.Does log) :
    (onlyIf condition j).Does (if condition then log else []) := by
  intro o ho
  rcases onlyIf_eq_ok.mp ho with ⟨rfl, a, ha, -⟩ | ⟨rfl, -⟩
  · exact hj a ha
  · rfl

theorem does_all {ι : Type} {job : ι → Job α} {work : ι → List Work} {xs : List ι}
    (h : ∀ x ∈ xs, (job x).Does (work x)) : (all (xs.map job)).Does (xs.flatMap work) := by
  intro as has
  have hall := List.forall₂_map_left_iff.mp (all_eq_ok.mp has)
  clear has
  change (xs.map job).flatMap (·.log) = _
  induction hall with
  | nil => rfl
  | @cons x a xs as hx hxs ih =>
    rw [List.map_cons, List.flatMap_cons, List.flatMap_cons, h x List.mem_cons_self a hx,
      ih fun y hy => h y (List.mem_cons_of_mem _ hy)]

end Job

/-! ### The record of a run -/

namespace Compiler

variable {c : Compiler} {files : Files} {ch : Changes} {staged : Staged} {b : Blueprint}

theorem does_readText (path : Path) : (readText files path).Does [.read path] := Job.does_step _ _

theorem does_loadBlueprint : (c.loadBlueprint files).Does (Errand.script.work c.options.layout) :=
  (does_readText _).bind fun _ => (Job.does_step _ _).bind fun _ => (Job.does_step _ _).bind fun _ =>
    Job.does_done _

theorem does_compileCss (sheet fragment : String) :
    (c.compileCss sheet fragment).Does (Errand.css.work c.options.layout) := by
  refine (Job.does_step _ _).bind fun css => ?_
  split
  · exact Job.does_done _
  · exact Job.does_pure _

theorem does_loadTemplate : (c.loadTemplate files).Does (Errand.template.work c.options.layout) :=
  (does_readText _).bind fun _ => Job.does_step _ _

theorem does_loadGraphic (path : Path) :
    (c.loadGraphic files path).Does ((Errand.graphic path).work c.options.layout) := by
  have hread : (readGraphic files path).Does [.read path] := Job.does_step _ _
  have hmake : ∀ text, (c.makeGraphic path text).Does [.optimize] := fun text =>
    (Job.does_step _ _).bind fun _ => Job.does_done _
  exact hread.bind fun text => (hmake text).bind fun graphic => Job.does_pure _

theorem does_loadGraphics (paths : List Path) : (c.loadGraphics files paths).Does
    (paths.flatMap fun path => (Errand.graphic path).work c.options.layout) := by
  have hall : (Job.all (paths.map (c.loadGraphic files))).Does _ :=
    Job.does_all fun path _ => does_loadGraphic path
  have hbind := hall.bind fun loaded => Job.does_pure (OrderedMap.ofList loaded)
  rwa [List.append_nil] at hbind

theorem does_available {α : Type} (made kept : Option α) (artifact : Artifact) :
    (available made kept artifact).Does [] := by
  unfold available
  split
  · exact Job.does_done _
  · exact Job.does_done _

theorem does_pageText : (c.pageText staged ch).Does [.render, .minify] := by
  refine (does_available _ _ _).bind fun b => ?_
  refine (does_available _ _ _).bind fun css => ?_
  refine (does_available _ _ _).bind fun t => ?_
  split
  · exact Job.does_error _
  · exact (Job.does_step _ _).bind fun _ => Job.does_step _ _

namespace Stages

variable (h : Stages c files ch staged b)

include h

/-- What was done to stage what the changes touch. -/
theorem log_eq : (c.stage files ch).log =
    (if ch.script then Errand.script.work c.options.layout else []) ++
    ((if ch.stylesheet then Errand.stylesheet.work c.options.layout else []) ++
    ((if ch.script || ch.stylesheet then Errand.css.work c.options.layout else []) ++
    ((if ch.template then Errand.template.work c.options.layout else []) ++
    (toLoad b.assets c.artifacts.graphics ch.paths).flatMap fun path =>
      (Errand.graphic path).work c.options.layout))) := by
  have hcurrent : (available staged.blueprint c.artifacts.blueprint .blueprint).result = .ok b :=
    available_eq_ok.mpr h.current
  have hcss := ((does_available staged.stylesheet c.artifacts.stylesheet .stylesheet).bind
    fun source => c.does_compileCss source b.fragment).onlyIf (ch.script || ch.stylesheet) _ h.css
  simp only [stage]
  rw [Job.log_bind h.blueprint, Job.log_bind h.stylesheet, Job.log_bind hcurrent, Job.log_bind h.css,
    Job.log_bind h.template, Job.log_bind h.graphics, hcss, does_loadBlueprint.onlyIf _ _ h.blueprint,
    (does_readText _).onlyIf _ _ h.stylesheet, does_available _ _ _ _ hcurrent,
    does_loadTemplate.onlyIf _ _ h.template, does_loadGraphics _ _ h.graphics]
  simp [Errand.work, pure]

/-- No graphic is loaded just if none was to be. -/
theorem isEmpty_graphics : staged.graphics.isEmpty = true ↔
    toLoad b.assets c.artifacts.graphics ch.paths = [] := by
  obtain ⟨loaded, hall, hloaded⟩ := loadGraphics_eq_ok.mp h.graphics
  constructor
  · intro hempty
    refine List.eq_nil_iff_forall_not_mem.mpr fun path hpath => ?_
    obtain ⟨g, hg⟩ := exists_loadGraphics.mp ⟨_, h.graphics⟩ path hpath
    have hstaged := (get?_loadGraphics h.graphics).mpr ⟨hpath, hg⟩
    rw [OrderedMap.get?_of_isEmpty hempty] at hstaged
    cases hstaged
  · intro hnone
    rw [hnone, List.forall₂_nil_left_iff] at hall
    rw [← hloaded, hall]
    rfl

end Stages

variable {old : Blueprint} {t : Template} {sheet css page : String}

/-- Between runs the graphics to load are those that are due. -/
theorem Settled.toLoad_eq (hkept : Settled c old t sheet css page) (layout : Layout) (now changed : List Path) :
    toLoad now c.artifacts.graphics changed =
      now.eraseDups.filter fun path => (Errand.graphic path).Due layout changed old.assets now := by
  refine List.filter_congr fun path hpath => ?_
  have hneeded : path ∈ now := List.mem_eraseDups.mp hpath
  have hcontains := hkept.graphics path
  rw [Bool.eq_iff_iff]
  simp [Errand.Due, hneeded, ← hcontains]

/-- Between runs the page has to be written just if it is due. -/
theorem Stages.matters_iff {paths : List Path}
    (h : Stages c files (.classify paths c.options.layout) staged b)
    (hkept : Settled c old t sheet css page) : Matters (.classify paths c.options.layout) staged ↔
      Errand.page.Due c.options.layout paths old.assets b.assets := by
  have hgraphics : staged.graphics.isEmpty = false ↔
      ∃ path ∈ b.assets, path ∉ old.assets ∨ path ∈ paths := by
    rw [← Bool.not_eq_true, h.isEmpty_graphics, List.eq_nil_iff_forall_not_mem, not_forall_not]
    simp only [hkept.toLoad_eq c.options.layout, List.mem_filter, List.mem_eraseDups, decide_eq_true_eq]
    exact exists_congr fun path => and_iff_right_of_imp And.left
  simp only [Matters, Changes.classify, Bool.or_eq_true, decide_eq_true_eq, Bool.not_eq_true', hgraphics,
    Errand.Due, or_assoc]

/-- What was done up to the page is what is done on the errands before it. -/
theorem Stages.flatMap_errands_eq {paths : List Path}
    (h : Stages c files (.classify paths c.options.layout) staged b)
    (hkept : Settled c old t sheet css page) :
    (errands c.options.layout paths old.assets b.assets).flatMap (Errand.work c.options.layout) =
      (c.stage files (.classify paths c.options.layout)).log ++
        (if Errand.page.Due c.options.layout paths old.assets b.assets then
          Errand.page.work c.options.layout else []) := by
  rw [flatMap_errands, h.log_eq, hkept.toLoad_eq c.options.layout]
  simp only [Changes.classify, Bool.or_eq_true, decide_eq_true_eq, List.append_assoc]
  rfl

/-- The blueprint at hand is that of the script in the files if the script changed, and the kept one if
not. -/
theorem Stages.current_eq {paths : List Path}
    (h : Stages c files (.classify paths c.options.layout) staged b)
    (hkept : c.artifacts.blueprint = some old) :
    if c.options.layout.script ∈ paths then (c.loadBlueprint files).result = .ok b else b = old := by
  rcases Job.onlyIf_or h.blueprint h.current with ⟨hread, hload⟩ | ⟨hnot, hb⟩
  · rw [if_pos (of_decide_eq_true hread)]
    exact hload
  · rw [if_neg (of_decide_eq_false hnot)]
    exact Option.some.inj (hb.symm.trans hkept)

/-- A run that has something to write has made the page after it staged what the changes touch. -/
theorem log_prepare_of_some {text : String} (h : (c.prepare files ch).result = .ok (some (staged, text))) :
    (c.prepare files ch).log = (c.stage files ch).log ++ [.render, .minify] := by
  obtain ⟨hstage, hmatters, hpage⟩ := prepare_eq_some.mp h
  unfold Matters at hmatters
  rw [prepare, Job.log_bind hstage, if_pos hmatters, Job.log_bind hpage, does_pageText _ hpage]
  rfl

theorem log_prepare_of_not_matters (hstage : (c.stage files ch).result = .ok staged)
    (hmatters : ¬ Matters ch staged) : (c.prepare files ch).log = (c.stage files ch).log := by
  unfold Matters at hmatters
  rw [prepare, Job.log_bind hstage, if_neg hmatters]
  exact List.append_nil _

variable {σ : Type} [Storage σ] {paths : List Path} {store : σ}

/-- A run that succeeds has found nothing to write, or has written the page last. -/
theorem recompile_eq_of_ok (hok : (c.recompile paths store).result = .ok ()) :
    ((c.preparation paths store).result = .ok none ∧
      c.recompile paths store = ⟨(c.preparation paths store).log, c.charged paths store, c, .ok ()⟩) ∨
    ∃ staged text after, (c.preparation paths store).result = .ok (some (staged, text)) ∧
      Storage.write (c.charged paths store) c.options.layout.page text = (.ok (), after) ∧
      c.recompile paths store =
        ⟨(c.preparation paths store).log ++ [.write c.options.layout.page], after,
          { c with artifacts := c.artifacts.commit staged paths }, .ok ()⟩ := by
  rw [recompile_eq] at hok ⊢
  split at hok
  case h_1 e h => cases hok
  case h_2 h =>
    rw [h]
    exact Or.inl ⟨rfl, rfl⟩
  case h_3 staged text h =>
    rw [h]
    refine Or.inr ⟨staged, text, ?_⟩
    split at hok
    case h_1 e after hw => cases hok
    case h_2 after hw =>
      rw [hw]
      exact ⟨after, rfl, rfl, rfl⟩

theorem readPaths_append_write (log : List Work) (path : Path) :
    Work.readPaths (log ++ [.write path]) = Work.readPaths log := by
  simp [Work.readPaths]

/-- A run that finds nothing to write has done the work of its errands, and the page is not one of them. -/
theorem Settled.log_of_none (hkept : Settled c old t sheet css page)
    (h : (c.preparation paths store).result = .ok none) :
    ∃ staged new, Stages c (Storage.view store) (.classify paths c.options.layout) staged new ∧
      ¬ Errand.page.Due c.options.layout paths old.assets new.assets ∧
      (c.preparation paths store).log =
        (errands c.options.layout paths old.assets new.assets).flatMap (Errand.work c.options.layout) := by
  obtain ⟨staged, hstage, hmatters⟩ := prepare_eq_none h
  obtain ⟨new, hs⟩ := stage_eq_ok.mp hstage
  have hdue := mt (hs.matters_iff hkept).mpr hmatters
  refine ⟨staged, new, hs, hdue, ?_⟩
  rw [hs.flatMap_errands_eq hkept, if_neg hdue, List.append_nil]
  exact log_prepare_of_not_matters hstage hmatters

/-- A run that writes the page has done the work of its errands, and the page is the last of them. -/
theorem Settled.log_of_some (hkept : Settled c old t sheet css page) {text : String}
    (h : (c.preparation paths store).result = .ok (some (staged, text))) :
    ∃ new, Stages c (Storage.view store) (.classify paths c.options.layout) staged new ∧
      Errand.page.Due c.options.layout paths old.assets new.assets ∧
      (c.preparation paths store).log ++ [.write c.options.layout.page] =
        (errands c.options.layout paths old.assets new.assets).flatMap (Errand.work c.options.layout) := by
  obtain ⟨hstage, hmatters, -⟩ := prepare_eq_some.mp h
  obtain ⟨new, hs⟩ := stage_eq_ok.mp hstage
  have hdue := (hs.matters_iff hkept).mp hmatters
  have hlog : (c.preparation paths store).log = _ := log_prepare_of_some h
  refine ⟨new, hs, hdue, ?_⟩
  rw [hs.flatMap_errands_eq hkept, if_pos hdue, hlog, List.append_assoc]
  rfl

/-! ### What errands come to -/

/-- The plain stylesheet is made of a stylesheet and the rules of a blueprint, and made small if it is to be. -/
theorem compileCss_eq_ok {fragment : String} : (c.compileCss sheet fragment).result = .ok css ↔ ∃ plain,
    c.tools.compileStylesheet (Stylesheet.source sheet fragment) = .ok plain ∧
      (if c.options.minifyCss then c.tools.shrinkCss plain else .ok plain) = .ok css := by
  simp only [compileCss, Job.bind_eq_ok, Job.result_step, mapError_eq_ok]
  refine exists_congr fun plain => and_congr_right fun _ => ?_
  split
  · exact mapError_eq_ok
  · simp only [Job.result_pure, Except.ok.injEq]

/-- What an errand comes to in a run from one compiler to another that writes a page. The tools are given what the
files hold, or what was made of them before, and what the tools give is kept. -/
def Fulfils (c : Compiler) (files : Files) (c' : Compiler) (page : String) : Errand → Prop
  | .script => ∃ text tree s b, files c.options.layout.script = .ok text ∧ c.tools.parse text = .ok tree ∧
      c.tools.map tree = .ok s ∧ Blueprint.ofScript s = .ok b ∧ c'.artifacts.blueprint = some b
  | .stylesheet => ∃ text, files c.options.layout.stylesheet = .ok text ∧ c'.artifacts.stylesheet = some text
  | .css => ∃ sheet b plain css, c'.artifacts.stylesheet = some sheet ∧ c'.artifacts.blueprint = some b ∧
      c.tools.compileStylesheet (Stylesheet.source sheet b.fragment) = .ok plain ∧
      (if c.options.minifyCss then c.tools.shrinkCss plain else .ok plain) = .ok css ∧
      c'.artifacts.css = some css
  | .template => ∃ text t, files c.options.layout.template = .ok text ∧ c.tools.compileTemplate text = .ok t ∧
      c'.artifacts.template = some t
  | .graphic path => ∃ text optimized g, files path = .ok text ∧ c.tools.optimize text = .ok optimized ∧
      Markup.split optimized = .ok g ∧ c'.artifacts.graphics.get? path = some g
  | .page => ∃ b t css, c'.artifacts.blueprint = some b ∧ c'.artifacts.template = some t ∧
      c'.artifacts.css = some css ∧ c.tools.Makes b t css c'.artifacts.graphics.get? page

/-- Every errand that is due is done with the tools. -/
theorem Settled.fulfils (hkept : Settled c old t sheet css page) {text : String} {new : Blueprint}
    (hs : Stages c files (.classify paths c.options.layout) staged new)
    (htext : (c.pageText staged (.classify paths c.options.layout)).result = .ok text) {e : Errand}
    (he : e.Due c.options.layout paths old.assets new.assets) :
    c.Fulfils files { c with artifacts := c.artifacts.commit staged paths } text e := by
  obtain ⟨t', sheet', css', h'⟩ := Ready.settled (Or.inr ⟨old, t, sheet, css, page, hkept⟩) hs htext
  cases e with
  | script =>
    have hload : (c.loadBlueprint files).result = .ok new := by
      have hcurrent := hs.current_eq hkept.blueprint
      rwa [if_pos (show c.options.layout.script ∈ paths from he)] at hcurrent
    simp only [loadBlueprint, readText, Job.bind_eq_ok, Job.result_step, Job.result_done, mapError_eq_ok] at hload
    obtain ⟨text, htext, tree, htree, s, hmap, hb⟩ := hload
    exact ⟨text, tree, s, new, htext, htree, hmap, hb, h'.blueprint⟩
  | stylesheet =>
    rcases Job.onlyIf_or hs.stylesheet h'.stylesheet with ⟨-, hread⟩ | ⟨hnot, -⟩
    · exact ⟨sheet', mapError_eq_ok.mp hread, h'.stylesheet⟩
    · exact absurd he (of_decide_eq_false hnot)
  | css =>
    obtain ⟨plain, hplain, hcss⟩ := compileCss_eq_ok.mp h'.compiled
    exact ⟨sheet', new, plain, css', h'.stylesheet, h'.blueprint, hplain, hcss, h'.plain⟩
  | template =>
    rcases Job.onlyIf_or hs.template h'.template with ⟨-, hload⟩ | ⟨hnot, -⟩
    · obtain ⟨text, hread, ht⟩ := Job.bind_eq_ok.mp hload
      exact ⟨text, t', mapError_eq_ok.mp hread, mapError_eq_ok.mp ht, h'.template⟩
    · exact absurd he (of_decide_eq_false hnot)
  | graphic path =>
    have hload : path ∈ toLoad new.assets c.artifacts.graphics paths := by
      rw [hkept.toLoad_eq c.options.layout]
      exact List.mem_filter.mpr ⟨List.mem_eraseDups.mpr he.1, decide_eq_true he⟩
    obtain ⟨g, hg⟩ := exists_loadGraphics.mp ⟨_, hs.graphics⟩ path hload
    have hstaged := (get?_loadGraphics hs.graphics).mpr ⟨hload, hg⟩
    obtain ⟨-, text, optimized, hread, hoptimized, hsplit⟩ := loadGraphic_eq_ok.mp hg
    have hkept' := hs.graphics_commit path
    rw [hstaged, Option.some_or] at hkept'
    exact ⟨text, optimized, g, hread, hoptimized, hsplit, hkept'⟩
  | page => exact ⟨new, t', css', h'.blueprint, h'.template, h'.plain, h'.makes⟩

/-- **A run does what is due, once, and nothing else.** Let a run succeed, at any time after a first build.
The graphics that count are those of the script in the files if the script is among the changes, and of the
script that was kept if not. Then what the run has done is the work of errands, none of them twice, and an
errand is among them just if it is due: the sources that changed, the graphics that are needed for the first
time or changed, the plain stylesheet if the script or the stylesheet changed, and the page if anything
else was due. The store was read as the record says. If the page was due, each errand was done with its tools, and
the page that they have made was written once; if not, nothing was done, and the compiler and all files are as they
were. -/
theorem work_of_recompile {τ : Type} [Storage τ] [SteadyStorage τ] {tools : Toolchain}
    {options : BuildOptions} {j : Journaled σ} (h : Reached tools options c j) {store : τ} {c' : Compiler}
    (hok : (c.recompile paths store).result = .ok ()) (hc' : (c.recompile paths store).compiler = c') :
    ∃ old new : Blueprint, c.artifacts.blueprint = some old ∧ c'.artifacts.blueprint = some new ∧
      (if options.layout.script ∈ paths then (c.loadBlueprint (Storage.view store)).result = .ok new
        else new = old) ∧
      (∃ es : List Errand, es.Nodup ∧ (∀ e, e ∈ es ↔ e.Due options.layout paths old.assets new.assets) ∧
        (c.recompile paths store).log = es.flatMap (Errand.work options.layout)) ∧
      if Errand.page.Due options.layout paths old.assets new.assets then
        ∃ text, (∀ e : Errand, e.Due options.layout paths old.assets new.assets →
            c.Fulfils (Storage.view store) c' text e) ∧
          Storage.write (Storage.charge store (Work.readPaths (c.recompile paths store).log))
            options.layout.page text = (.ok (), (c.recompile paths store).store)
      else c' = c ∧ (c.recompile paths store).log = [] ∧
        Storage.view (c.recompile paths store).store = Storage.view store := by
  obtain ⟨rfl, rfl, old, t, sheet, css, page, hkept, -⟩ := h.settled
  rcases recompile_eq_of_ok hok with ⟨hnone, heq⟩ | ⟨staged, text, after, hsome, hw, heq⟩
  · obtain ⟨staged, new, hs, hdue, hlog⟩ := hkept.log_of_none hnone
    have hnothing : errands c.options.layout paths old.assets new.assets = [] :=
      List.eq_nil_iff_forall_not_mem.mpr fun e he => hdue (mem_errands.mp he).page
    have hcurrent := hs.current_eq hkept.blueprint
    have hnew : new = old := by rwa [if_neg fun hscript => hdue (Or.inl hscript)] at hcurrent
    rw [heq] at hc' ⊢
    cases hc'
    refine ⟨old, new, hkept.blueprint, hnew ▸ hkept.blueprint, hcurrent,
      ⟨_, nodup_errands, fun e => mem_errands, hlog⟩, ?_⟩
    rw [if_neg hdue]
    refine ⟨rfl, ?_, SteadyStorage.view_eq (c.charged_equiv paths store)⟩
    rw [hlog, hnothing, List.flatMap_nil]
  · obtain ⟨new, hs, hdue, hlog⟩ := hkept.log_of_some hsome
    obtain ⟨-, -, htext⟩ := prepare_eq_some.mp hsome
    rw [heq] at hc' ⊢
    cases hc'
    refine ⟨old, new, hkept.blueprint, hs.current, hs.current_eq hkept.blueprint,
      ⟨_, nodup_errands, fun e => mem_errands, hlog⟩, ?_⟩
    rw [if_pos hdue, readPaths_append_write]
    exact ⟨text, fun e he => hkept.fulfils hs htext he, hw⟩

/-- A graphic of the outing, twice, and a path that is nothing to it. -/
def outingChanges : List Path :=
  [⟨["backgrounds", "beach.svg"]⟩, ⟨["notes"]⟩, ⟨["backgrounds", "beach.svg"]⟩]

theorem due_outingChanges (e : Errand) :
    e.Due {} outingChanges Script.outing.assets Script.outing.assets ↔
      e = .graphic ⟨["backgrounds", "beach.svg"]⟩ ∨ e = .page := by
  cases e with
  | graphic path =>
    constructor
    · rintro ⟨hneeded, hchanged⟩
      have hmem : path ∈ outingChanges := hchanged.resolve_left (not_not_intro hneeded)
      simp only [outingChanges, List.mem_cons, List.not_mem_nil, or_false] at hmem
      rcases hmem with rfl | rfl | rfl
      · exact Or.inl rfl
      · exact absurd hneeded (by decide +kernel)
      · exact Or.inl rfl
    · rintro (heq | heq)
      · cases heq
        decide +kernel
      · cases heq
  | script => decide +kernel
  | stylesheet => decide +kernel
  | css => decide +kernel
  | template => decide +kernel
  | page => decide +kernel

/-- The outing with another background. -/
def redrawn : MemoryStore :=
  MemoryStore.outing.put ⟨["backgrounds", "beach.svg"]⟩ "<svg width='8'><g/></svg>"

theorem view_redrawn :
    Storage.view redrawn ⟨["backgrounds", "beach.svg"]⟩ = .ok "<svg width='8'><g/></svg>" :=
  (MemoryStore.view_put _ _ _ _).trans (if_pos rfl)

theorem split_redrawn : Markup.split "<svg width='8'><g/></svg>" = .ok ⟨.ofList [("width", "8")], "<g/>"⟩ := by
  decide +kernel

theorem exists_redrawn : ∃ (c : Compiler) (j : Journaled MemoryStore), Reached (.plain .outing) {} c j ∧
    (c.recompile outingChanges redrawn).result = .ok () ∧
    c.artifacts.blueprint.map (·.assets) = some Script.outing.assets := by
  let j : Journaled MemoryStore := ⟨.outing, []⟩
  exact ⟨(compile (.plain .outing) {} j).compiler, (compile (.plain .outing) {} j).store,
    .compiled (by decide +kernel), by decide +kernel⟩

/-- After a first build of the outing the background was drawn anew. The run that is told of these changes loads it
and writes the page. -/
theorem work_of_recompile_outing : ∃ (c c' : Compiler) (j : Journaled MemoryStore),
    Reached (.plain .outing) {} c j ∧
    (c.recompile outingChanges redrawn).result = .ok () ∧ (c.recompile outingChanges redrawn).compiler = c' ∧
    (∃ es : List Errand, es.Nodup ∧
      (∀ e, e ∈ es ↔ e = .graphic ⟨["backgrounds", "beach.svg"]⟩ ∨ e = .page) ∧
      (c.recompile outingChanges redrawn).log = es.flatMap (Errand.work {})) ∧
    c'.artifacts.graphics.get? ⟨["backgrounds", "beach.svg"]⟩ = some ⟨.ofList [("width", "8")], "<g/>"⟩ := by
  obtain ⟨c, j, hreached, hok, hassets⟩ := exists_redrawn
  obtain ⟨old, new, hold, -, hcurrent, ⟨es, hnodup, hes, hlog⟩, hpage⟩ := work_of_recompile hreached hok rfl
  rw [if_neg (by decide)] at hcurrent
  subst hcurrent
  rw [hold, Option.map_some] at hassets
  rw [Option.some.inj hassets] at hes hpage
  rw [if_pos ((due_outingChanges .page).mpr (Or.inr rfl))] at hpage
  obtain ⟨page, hfulfils, -⟩ := hpage
  obtain ⟨text, optimized, g, htext, hoptimized, hsplit, hg⟩ :=
    hfulfils (.graphic ⟨["backgrounds", "beach.svg"]⟩) ((due_outingChanges _).mpr (Or.inl rfl))
  obtain rfl := Except.ok.inj (view_redrawn.symm.trans htext)
  rw [hreached.settled.1] at hoptimized
  obtain rfl := Except.ok.inj hoptimized
  obtain rfl := Except.ok.inj (split_redrawn.symm.trans hsplit)
  exact ⟨c, _, j, hreached, hok, rfl, ⟨es, hnodup, fun e => (hes e).trans (due_outingChanges e), hlog⟩, hg⟩

end Compiler

end SkitPage
