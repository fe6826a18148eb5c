import Mathlib.Logic.Relation
import SkitPage.Proofs.DenseNames
import SkitPage.Proofs.Work

/-!
# The order in which graphics are loaded does not matter

The graphics of a page may be loaded side by side. A loader goes through the paths that are needed and starts a
load for each that it has not met yet, unless the graphic is kept and did not change. A load reads its file,
stores what it makes of it in a map that all loads share, and completes. The loader looks at the loads in the
order in which they complete, stops at the first that has failed, and hands the map over when none is left. In
between, any of them may go on at any time (`Loading.Step`).

Whatever the order, the loader comes to an end, and if it hands over a map, this is the one that loading one
graphic after the other gives (`Compiler.load_order_immaterial`). The invariant is `Loading.Sound`: the loads
that were started are those that are due among the paths gone through, each once; what a load holds is what
its file gives; and the map holds what was stored, no more and no less. A load that goes on concerns the entry
of its own path only, and no two loads have the same (`Loading.Sound.advance`). Every order in which the loads
could complete is the order of some execution (`Loading.exists_execution`).

Key definitions: `Phase`, `Load`, `Loading`, `Loading.Step`, `Loading.Sound`, `Compiler.Due`.
Key theorems: `Loading.Step.lt_remaining`, `Loading.exists_step`, `Loading.Sound.step`, `Loading.Sound.of_ok`,
`Loading.exists_execution`, `Compiler.load_order_immaterial`.
-/

namespace SkitPage

/-! ### Loads side by side -/

/-- How far a load has come. -/
inductive Phase
  /-- It has yet to read its file. -/
  | started
  /-- It has what it has read. -/
  | holding (text : Except BuildError String)
  /-- It has done its work, and what it loaded is stored. -/
  | stored (result : Except BuildError Graphic)
  /-- It has completed. -/
  | completed (result : Except BuildError Graphic)

/-- The load of the graphic at a path. -/
structure Load where
  /-- The path. -/
  path : Path
  /-- How far it has come. -/
  phase : Phase

/-- The loading of graphics, under way. -/
structure Loading where
  /-- The paths that the loader has yet to go through. -/
  ahead : List Path
  /-- The paths that it has gone through. -/
  seen : List Path := []
  /-- The loads that it has started. -/
  loads : List Load := []
  /-- What has come of the loads that have completed, in the order in which they did. -/
  completed : List (Path × Except BuildError Graphic) := []
  /-- How many of these the loader has looked at. -/
  received : Nat := 0
  /-- The map that all loads store in. -/
  staging : OrderedMap Path Graphic := .empty
  /-- What was done, in order. -/
  log : List Work := []
  /-- What the loader has come to, if it has come to an end. -/
  returned : Option (Except BuildError (OrderedMap Path Graphic)) := none

namespace Loading

/-- What a load does with what it has read: a graphic is made of a text. -/
def finish (c : Compiler) (path : Path) (text : Except BuildError String) : Job Graphic :=
  Job.done text >>= c.makeGraphic path

/-- A graphic that was loaded is stored. -/
def store (m : OrderedMap Path Graphic) (path : Path) : Except BuildError Graphic → OrderedMap Path Graphic
  | .ok g => m.insert path g
  | .error _ => m

/-- The loader passes over a path that it has met before, and over one whose graphic is kept and did not
change. -/
def Passes (c : Compiler) (changed : List Path) (s : Loading) (path : Path) : Prop :=
  path ∈ s.seen ∨ (c.artifacts.graphics.contains path = true ∧ path ∉ changed)

instance (c : Compiler) (changed : List Path) (s : Loading) (path : Path) : Decidable (s.Passes c changed path) :=
  inferInstanceAs (Decidable (_ ∨ _))

/-- What may happen next. The first two and the last three are the loader's, the others those of any load. -/
inductive Step (c : Compiler) (files : Files) (changed : List Path) : Loading → Loading → Prop
  | pass {s : Loading} {path : Path} {rest : List Path} (hr : s.returned = none) (ha : s.ahead = path :: rest)
    (h : s.Passes c changed path) :
    Step c files changed s { s with ahead := rest, seen := s.seen ++ [path] }
  | start {s : Loading} {path : Path} {rest : List Path} (hr : s.returned = none) (ha : s.ahead = path :: rest)
    (h : ¬ s.Passes c changed path) :
    Step c files changed s
      { s with ahead := rest, seen := s.seen ++ [path], loads := s.loads ++ [⟨path, .started⟩] }
  | read {s : Loading} {before after : List Load} {path : Path}
    (h : s.loads = before ++ ⟨path, .started⟩ :: after) :
    Step c files changed s
      { s with
        loads := before ++ ⟨path, .holding (Compiler.readGraphic files path).result⟩ :: after
        log := s.log ++ (Compiler.readGraphic files path).log }
  | store {s : Loading} {before after : List Load} {path : Path} {text : Except BuildError String}
    (h : s.loads = before ++ ⟨path, .holding text⟩ :: after) :
    Step c files changed s
      { s with
        loads := before ++ ⟨path, .stored (finish c path text).result⟩ :: after
        staging := Loading.store s.staging path (finish c path text).result
        log := s.log ++ (finish c path text).log }
  | complete {s : Loading} {before after : List Load} {path : Path} {result : Except BuildError Graphic}
    (h : s.loads = before ++ ⟨path, .stored result⟩ :: after) :
    Step c files changed s
      { s with
        loads := before ++ ⟨path, .completed result⟩ :: after
        completed := s.completed ++ [(path, result)] }
  | receive {s : Loading} {path : Path} {g : Graphic} (hr : s.returned = none) (ha : s.ahead = [])
    (h : s.completed[s.received]? = some (path, .ok g)) :
    Step c files changed s { s with received := s.received + 1 }
  | fail {s : Loading} {path : Path} {e : BuildError} (hr : s.returned = none) (ha : s.ahead = [])
    (h : s.completed[s.received]? = some (path, .error e)) :
    Step c files changed s { s with returned := some (.error e) }
  | succeed {s : Loading} (hr : s.returned = none) (ha : s.ahead = [])
    (hall : ∀ l ∈ s.loads, ∃ result, l.phase = .completed result) (h : s.completed[s.received]? = none) :
    Step c files changed s { s with returned := some (.ok s.staging) }

/-- Any number of steps. -/
abbrev Steps (c : Compiler) (files : Files) (changed : List Path) : Loading → Loading → Prop :=
  Relation.ReflTransGen (Step c files changed)

variable {c : Compiler} {files : Files} {changed referenced : List Path} {s s' : Loading}

/-! ### An end is reached -/

/-- How many steps a load still has to go, with the one in which the loader looks at it. -/
def toGo : Phase → Nat
  | .started => 4
  | .holding _ => 3
  | .stored _ => 2
  | .completed _ => 0

/-- How many steps there can be at most. -/
def remaining (s : Loading) : Nat :=
  5 * s.ahead.length + (s.loads.map fun l => toGo l.phase).sum + (s.completed.length - s.received) +
    if s.returned.isNone then 1 else 0

/-- Every step brings the end nearer. -/
theorem Step.lt_remaining (h : Step c files changed s s') : s'.remaining < s.remaining := by
  cases h with
  | pass hr ha h => simp [remaining, ha]
  | start hr ha h =>
    simp only [remaining, toGo, ha, List.map_append, List.map_cons, List.map_nil, List.sum_append, List.sum_cons,
      List.sum_nil, List.length_cons, Nat.add_lt_add_iff_right]
    omega
  | read h => simp [remaining, h, toGo]
  | store h => simp [remaining, h, toGo]
  | complete h =>
    simp only [remaining, toGo, h, List.map_append, List.map_cons, List.sum_append, List.sum_cons,
      List.length_append, List.length_singleton, Nat.add_lt_add_iff_right]
    omega
  | receive hr ha h =>
    obtain ⟨hlt, -⟩ := List.getElem?_eq_some_iff.mp h
    simp only [remaining, Nat.add_lt_add_iff_right, Nat.add_lt_add_iff_left]
    omega
  | fail hr ha h => simp [remaining, hr]
  | succeed hr ha hall h => simp [remaining, hr]

/-- Until the loader has come to an end, there is always something that may happen next. -/
theorem exists_step (hr : s.returned = none) : ∃ s', Step c files changed s s' := by
  cases ha : s.ahead with
  | cons path rest =>
    by_cases h : s.Passes c changed path
    · exact ⟨_, .pass hr ha h⟩
    · exact ⟨_, .start hr ha h⟩
  | nil =>
    cases hnext : s.completed[s.received]? with
    | some e =>
      obtain ⟨path, g | e⟩ := e
      · exact ⟨_, .fail hr ha hnext⟩
      · exact ⟨_, .receive hr ha hnext⟩
    | none =>
      -- Nothing to look at: either all loads have completed, or one of them can go on.
      by_cases hall : ∀ l ∈ s.loads, ∃ result, l.phase = .completed result
      · exact ⟨_, .succeed hr ha hall hnext⟩
      · simp only [not_forall] at hall
        obtain ⟨⟨path, phase⟩, hmem, hopen⟩ := hall
        obtain ⟨before, after, hloads⟩ := List.append_of_mem hmem
        cases phase with
        | started => exact ⟨_, .read hloads⟩
        | holding text => exact ⟨_, .store hloads⟩
        | stored result => exact ⟨_, .complete hloads⟩
        | completed result => exact absurd ⟨result, rfl⟩ hopen

/-! ### What a load comes to -/

/-- What a load comes to when it is left to itself. -/
def outcome (c : Compiler) (files : Files) (path : Path) : Except BuildError Graphic :=
  (finish c path (Compiler.readGraphic files path).result).result

/-- What a load does when it is left to itself. -/
def effort (c : Compiler) (files : Files) (path : Path) : List Work :=
  (Compiler.readGraphic files path).log ++ (finish c path (Compiler.readGraphic files path).result).log

/-- A graphic by itself is loaded as it is among others. -/
theorem loadGraphic_eq (c : Compiler) (files : Files) (path : Path) :
    c.loadGraphic files path = ⟨effort c files path, (outcome c files path).map (path, ·)⟩ := by
  simp only [Compiler.loadGraphic, effort, outcome, finish, Bind.bind, Job.bind, Job.result_done]
  cases (Compiler.readGraphic files path).result with
  | error e => simp [Job.done, Except.map]
  | ok text => cases hmake : (c.makeGraphic path text).result <;> simp [Job.done, Except.map, hmake, pure]

theorem result_loadGraphic_eq_ok {path : Path} {g : Graphic} :
    (c.loadGraphic files path).result = .ok (path, g) ↔ outcome c files path = .ok g := by
  rw [loadGraphic_eq]
  cases outcome c files path <;> simp [Except.map]

theorem outcome_eq_ok {path : Path} {g : Graphic} :
    outcome c files path = .ok g ↔ Graphic.load files c.tools.optimize path = .ok g := by
  rw [← result_loadGraphic_eq_ok, Compiler.result_loadGraphic, mapError_eq_ok]
  cases Graphic.load files c.tools.optimize path <;> simp [Except.map]

/-- The text is read at first, and no other path. -/
theorem count_read_effort (path p : Path) : (effort c files p).count (.read path) = [p].count path := by
  have hmake : ∀ text, (c.makeGraphic p text).log = [.optimize] := by
    intro text
    simp only [Compiler.makeGraphic, Bind.bind, Job.bind, Job.result_step]
    cases c.tools.optimize text <;> rfl
  simp only [effort, Compiler.readGraphic, Job.step, finish, Bind.bind, Job.bind, Job.result_done]
  cases files p <;> simp [Except.mapError, Job.done, hmake, List.count_cons]

end Loading

/-- Whether the work of a load is done. -/
def Phase.isStored : Phase → Bool
  | .started => false
  | .holding _ => false
  | .stored _ => true
  | .completed _ => true

namespace Load

/-- What a load has is what its file gives. -/
def Faithful (c : Compiler) (files : Files) (l : Load) : Prop :=
  match l.phase with
  | .started => True
  | .holding text => text = (Compiler.readGraphic files l.path).result
  | .stored result => result = Loading.outcome c files l.path
  | .completed result => result = Loading.outcome c files l.path

/-- What a load has done. -/
def work (c : Compiler) (files : Files) (l : Load) : List Work :=
  match l.phase with
  | .started => []
  | .holding _ => (Compiler.readGraphic files l.path).log
  | .stored _ => Loading.effort c files l.path
  | .completed _ => Loading.effort c files l.path

end Load

namespace Loading

variable {c : Compiler} {files : Files} {changed referenced : List Path} {s s' : Loading}

/-- The work on the graphic at a path is done. -/
def Stored (s : Loading) (path : Path) : Prop := ∃ l ∈ s.loads, l.path = path ∧ l.phase.isStored = true

/-- No load is left that could go on, or be started. -/
def Quiet (s : Loading) : Prop := s.ahead = [] ∧ ∀ l ∈ s.loads, ∃ result, l.phase = .completed result

/-- What holds at any time. -/
structure Sound (c : Compiler) (files : Files) (changed referenced : List Path) (s : Loading) : Prop where
  /-- The loader goes through the paths in order. -/
  walked : s.seen ++ s.ahead = referenced
  /-- The loads are those that are due, each once. -/
  started : s.loads.map (·.path) = Compiler.toLoad s.seen c.artifacts.graphics changed
  faithful : ∀ l ∈ s.loads, l.Faithful c files
  /-- The map holds what was loaded and is stored. -/
  staged : ∀ path g, s.staging.get? path = some g ↔ s.Stored path ∧ outcome c files path = .ok g
  completed : ∀ e, e ∈ s.completed ↔ ⟨e.1, .completed e.2⟩ ∈ s.loads
  bounded : s.received ≤ s.completed.length
  /-- The loader goes on only after loads that have succeeded. -/
  received : ∀ e ∈ s.completed.take s.received, ∃ g, e.2 = .ok g
  /-- What was done is what the loads have done. -/
  log : s.log.Perm (s.loads.flatMap (·.work c files))
  failed : ∀ e, s.returned = some (.error e) → ∃ path, (path, .error e) ∈ s.completed
  succeeded : ∀ m, s.returned = some (.ok m) → s.Quiet ∧ s.completed.length ≤ s.received ∧ m = s.staging

theorem sound_start (c : Compiler) (files : Files) (changed referenced : List Path) :
    Sound c files changed referenced { ahead := referenced } where
  walked := rfl
  started := rfl
  faithful := List.forall_mem_nil _
  staged path g := by simp [Stored]
  completed e := by simp
  bounded := Nat.zero_le _
  received := List.forall_mem_nil _
  log := .refl _
  failed := nofun
  succeeded := nofun

theorem nodup_toLoad (needed : List Path) (kept : OrderedMap Path Graphic) (changed : List Path) :
    (Compiler.toLoad needed kept changed).Nodup :=
  (nodup_eraseDups needed).filter _

/-- One more path is one more graphic to load, unless the loader passes over it. -/
theorem toLoad_concat (s : Loading) (path : Path) :
    Compiler.toLoad (s.seen ++ [path]) c.artifacts.graphics changed =
      Compiler.toLoad s.seen c.artifacts.graphics changed ++
        if s.Passes c changed path then [] else [path] := by
  unfold Compiler.toLoad
  rw [eraseDups_concat]
  by_cases hseen : path ∈ s.seen
  · simp [Passes, hseen]
  · by_cases hkept : c.artifacts.graphics.contains path = true ∧ path ∉ changed
    · simp [Passes, hseen, hkept]
    · rw [not_and_or, not_not, Bool.not_eq_true] at hkept
      rcases hkept with hkept | hkept <;> simp [Passes, hseen, hkept]

namespace Sound

variable (h : Sound c files changed referenced s)

include h

theorem nodup_paths : (s.loads.map (·.path)).Nodup := h.started ▸ nodup_toLoad _ _ _

theorem pass {path : Path} {rest : List Path} (ha : s.ahead = path :: rest) (hp : s.Passes c changed path) :
    Sound c files changed referenced { s with ahead := rest, seen := s.seen ++ [path] } where
  __ := h
  walked := by simpa [ha] using h.walked
  started := by rw [toLoad_concat, if_pos hp, List.append_nil, h.started]
  succeeded m hm := by simp [(h.succeeded m hm).1.1] at ha

theorem start {path : Path} {rest : List Path} (ha : s.ahead = path :: rest) (hp : ¬ s.Passes c changed path) :
    Sound c files changed referenced
      { s with ahead := rest, seen := s.seen ++ [path], loads := s.loads ++ [⟨path, .started⟩] } where
  __ := h
  walked := by simpa [ha] using h.walked
  started := by rw [List.map_append, h.started, toLoad_concat, if_neg hp, List.map_singleton]
  faithful := by
    intro l hl
    rcases List.mem_append.mp hl with hl | hl
    · exact h.faithful l hl
    · rw [List.mem_singleton.mp hl]
      trivial
  staged p g := by
    rw [h.staged]
    simp [Stored, or_and_right, exists_or, Phase.isStored]
  completed e := by simp [h.completed]
  log := by simpa [Load.work] using h.log
  succeeded m hm := by simp [(h.succeeded m hm).1.1] at ha

/-- A load goes on: it comes to a new phase, does what there is to do in between, stores what it has loaded and
completes, as the new phase says. -/
theorem advance {before after : List Load} {path : Path} {old : Phase}
    (hloads : s.loads = before ++ ⟨path, old⟩ :: after) (hopen : ∀ result, old ≠ .completed result)
    (new : Phase) (ended : List (Path × Except BuildError Graphic)) (staging : OrderedMap Path Graphic)
    (done : List Work) (hfaithful : Load.Faithful c files ⟨path, new⟩)
    (hdone : Load.work c files ⟨path, new⟩ = Load.work c files ⟨path, old⟩ ++ done)
    (hstored : old.isStored = true → new.isStored = true)
    (hstaging : ∀ p g, staging.get? p = some g ↔
      (s.Stored p ∨ p = path ∧ new.isStored = true) ∧ outcome c files p = .ok g)
    (hended : ∀ e, e ∈ ended ↔ e.1 = path ∧ new = .completed e.2) :
    Sound c files changed referenced
      { s with
        loads := before ++ ⟨path, new⟩ :: after
        completed := s.completed ++ ended
        staging := staging
        log := s.log ++ done } where
  walked := h.walked
  started := by simpa [hloads] using h.started
  faithful l hl := by
    have hold := h.faithful l
    simp only [hloads, List.mem_append, List.mem_cons] at hold hl
    rcases hl with hl | rfl | hl
    · exact hold (Or.inl hl)
    · exact hfaithful
    · exact hold (Or.inr (Or.inr hl))
  staged p g := by
    rw [hstaging]
    refine and_congr_left fun _ => ?_
    simp only [Stored, hloads, List.mem_append, List.mem_cons, or_and_right, exists_or, exists_eq_left]
    grind
  completed e := by
    have hne : (⟨e.1, .completed e.2⟩ : Load) ≠ ⟨path, old⟩ := fun heq => hopen e.2 (congrArg Load.phase heq).symm
    rw [List.mem_append, h.completed, hended, hloads]
    simp only [List.mem_append, List.mem_cons, hne, false_or, Load.mk.injEq]
    grind
  bounded := h.bounded.trans (by simp)
  received := by
    rw [List.take_append_of_le_length h.bounded]
    exact h.received
  log := by
    have hlog := h.log
    rw [hloads, List.flatMap_append, List.flatMap_cons] at hlog
    rw [List.flatMap_append, List.flatMap_cons, hdone, List.append_assoc]
    refine (hlog.append_right done).trans ?_
    simp only [List.append_assoc]
    exact (List.perm_append_comm.append_left _).append_left _
  failed e he := by
    obtain ⟨p, hp⟩ := h.failed e he
    exact ⟨p, List.mem_append_left _ hp⟩
  succeeded m hm := by
    obtain ⟨⟨-, hall⟩, -⟩ := h.succeeded m hm
    obtain ⟨result, hresult⟩ := hall ⟨path, old⟩ (by simp [hloads])
    exact absurd hresult (hopen result)

theorem read {before after : List Load} {path : Path} (hloads : s.loads = before ++ ⟨path, .started⟩ :: after) :
    Sound c files changed referenced
      { s with
        loads := before ++ ⟨path, .holding (Compiler.readGraphic files path).result⟩ :: after
        log := s.log ++ (Compiler.readGraphic files path).log } := by
  have hnext := h.advance hloads nofun (.holding (Compiler.readGraphic files path).result) [] s.staging
    (Compiler.readGraphic files path).log rfl rfl nofun (fun p g => by simp [h.staged, Phase.isStored]) (by simp)
  simpa only [List.append_nil] using hnext

theorem store {before after : List Load} {path : Path} {text : Except BuildError String}
    (hloads : s.loads = before ++ ⟨path, .holding text⟩ :: after) :
    Sound c files changed referenced
      { s with
        loads := before ++ ⟨path, .stored (finish c path text).result⟩ :: after
        staging := Loading.store s.staging path (finish c path text).result
        log := s.log ++ (finish c path text).log } := by
  obtain rfl : text = (Compiler.readGraphic files path).result :=
    h.faithful ⟨path, .holding text⟩ (by simp [hloads])
  have hstaging : ∀ p g, (Loading.store s.staging path (outcome c files path)).get? p = some g ↔
      (s.Stored p ∨ p = path ∧ true = true) ∧ outcome c files p = .ok g := by
    intro p g
    have hstaged := h.staged p g
    cases hresult : outcome c files path with
    | error e =>
      by_cases hp : p = path
      · subst hp
        simp [Loading.store, hstaged, hresult]
      · simp [Loading.store, hstaged, hp]
    | ok g' =>
      rw [Loading.store, OrderedMap.get?_insert]
      by_cases hp : p = path
      · simp [hp, hresult]
      · simp [hp, hstaged]
  have hnext := h.advance hloads (by simp) (.stored (outcome c files path)) [] _ _ rfl rfl (fun _ => rfl) hstaging
    (by simp)
  rw [List.append_nil] at hnext
  exact hnext

theorem complete {before after : List Load} {path : Path} {result : Except BuildError Graphic}
    (hloads : s.loads = before ++ ⟨path, .stored result⟩ :: after) :
    Sound c files changed referenced
      { s with
        loads := before ++ ⟨path, .completed result⟩ :: after
        completed := s.completed ++ [(path, result)] } := by
  have hfaithful : result = outcome c files path := h.faithful ⟨path, .stored result⟩ (by simp [hloads])
  have hstored : s.Stored path := ⟨⟨path, .stored result⟩, by simp [hloads], rfl, rfl⟩
  have hnext := h.advance hloads nofun (.completed result) [(path, result)] s.staging [] hfaithful
    (List.append_nil _).symm (fun _ => rfl) (fun p g => ?_) (fun e => ?_)
  · simpa only [List.append_nil] using hnext
  · rw [h.staged]
    refine and_congr_left fun _ => (or_iff_left_of_imp ?_).symm
    rintro ⟨rfl, -⟩
    exact hstored
  · simp [Prod.ext_iff, eq_comm]

/-- What holds at any time is kept by every step. -/
theorem step (hstep : Step c files changed s s') : Sound c files changed referenced s' := by
  cases hstep with
  | pass hr ha hp => exact h.pass ha hp
  | start hr ha hp => exact h.start ha hp
  | read hloads => exact h.read hloads
  | store hloads => exact h.store hloads
  | complete hloads => exact h.complete hloads
  | receive hr ha hnext =>
    obtain ⟨hlt, hget⟩ := List.getElem?_eq_some_iff.mp hnext
    refine { h with bounded := hlt, received := fun e he => ?_, succeeded := fun m hm => ?_ }
    · rw [List.take_add_one, hnext] at he
      rcases List.mem_append.mp he with he | he
      · exact h.received e he
      · exact ⟨_, congrArg Prod.snd (List.mem_singleton.mp he)⟩
    · exact absurd (hr.symm.trans hm) nofun
  | fail hr ha hnext =>
    refine { h with failed := fun e he => ?_, succeeded := fun m hm => ?_ }
    · cases he
      exact ⟨_, List.mem_of_getElem? hnext⟩
    · cases hm
  | succeed hr ha hall hnext =>
    refine { h with failed := fun e he => ?_, succeeded := fun m hm => ?_ }
    · cases he
    · cases hm
      exact ⟨⟨ha, hall⟩, List.getElem?_eq_none_iff.mp hnext, rfl⟩

end Sound

/-- What holds at any time holds along every execution. -/
theorem Sound.steps (h : Sound c files changed referenced s) (hsteps : Steps c files changed s s') :
    Sound c files changed referenced s' := by
  induction hsteps with
  | refl => exact h
  | tail _ hstep ih => exact ih.step hstep

/-! ### What the loader comes to -/

namespace Sound

variable (h : Sound c files changed referenced s)

include h

/-- A load is started only for a graphic that is to be loaded. -/
theorem mem_toLoad {l : Load} (hl : l ∈ s.loads) :
    l.path ∈ Compiler.toLoad referenced c.artifacts.graphics changed := by
  have hpath : l.path ∈ s.loads.map (·.path) := List.mem_map_of_mem hl
  rw [h.started, Compiler.mem_toLoad] at hpath
  rw [Compiler.mem_toLoad, ← h.walked]
  exact ⟨List.mem_append_left _ hpath.1, hpath.2⟩

/-- The loader fails only if a load does. -/
theorem of_error {e : BuildError} (he : s.returned = some (.error e)) :
    ∃ path ∈ Compiler.toLoad referenced c.artifacts.graphics changed, outcome c files path = .error e := by
  obtain ⟨path, hpath⟩ := h.failed e he
  have hload : ⟨path, .completed (.error e)⟩ ∈ s.loads := (h.completed _).mp hpath
  have hresult : .error e = outcome c files path := h.faithful _ hload
  exact ⟨path, h.mem_toLoad hload, hresult.symm⟩

/-- A loader that has gone through all paths has started a load for each graphic that is to be loaded. -/
theorem paths_of_walked (ha : s.ahead = []) :
    s.loads.map (·.path) = Compiler.toLoad referenced c.artifacts.graphics changed := by
  have hwalked := h.walked
  rw [ha, List.append_nil] at hwalked
  rw [h.started, hwalked]

/-- When it hands a map over, all loads have completed, and none has failed. -/
theorem completed_of_ok {m : OrderedMap Path Graphic} (hm : s.returned = some (.ok m)) {l : Load}
    (hl : l ∈ s.loads) : ∃ g, outcome c files l.path = .ok g ∧ l.phase = .completed (.ok g) := by
  obtain ⟨⟨-, hall⟩, hreceived, -⟩ := h.succeeded m hm
  obtain ⟨result, hphase⟩ := hall l hl
  have hload : ⟨l.path, .completed result⟩ ∈ s.loads := by
    rw [← hphase]
    exact hl
  have hmem : (l.path, result) ∈ s.completed.take s.received := by
    rw [List.take_of_length_le hreceived]
    exact (h.completed (l.path, result)).mpr hload
  obtain ⟨g, hg⟩ := h.received _ hmem
  have hresult : result = outcome c files l.path := h.faithful _ hload
  have hok : result = .ok g := hg
  exact ⟨g, hresult ▸ hok, hok ▸ hphase⟩

/-- The map that the loader hands over is the one that loading one graphic after the other gives. -/
theorem of_ok {m : OrderedMap Path Graphic} (hm : s.returned = some (.ok m)) :
    (c.loadGraphics files (Compiler.toLoad referenced c.artifacts.graphics changed)).result = .ok m := by
  have hpaths := h.paths_of_walked (h.succeeded m hm).1.1
  have hload : ∀ path ∈ Compiler.toLoad referenced c.artifacts.graphics changed, ∃ l ∈ s.loads, l.path = path :=
    fun path hpath => List.mem_map.mp (hpaths ▸ hpath)
  obtain ⟨m', hm'⟩ : ∃ m', (c.loadGraphics files
      (Compiler.toLoad referenced c.artifacts.graphics changed)).result = .ok m' := by
    refine Compiler.exists_loadGraphics.mpr fun path hpath => ?_
    obtain ⟨l, hl, rfl⟩ := hload path hpath
    obtain ⟨g, hg, -⟩ := h.completed_of_ok hm hl
    exact ⟨g, result_loadGraphic_eq_ok.mpr hg⟩
  obtain ⟨-, -, rfl⟩ := h.succeeded m hm
  have heq : m' = s.staging := by
    refine OrderedMap.ext_get? fun path => Option.ext fun g => ?_
    rw [Compiler.get?_loadGraphics hm', result_loadGraphic_eq_ok, h.staged]
    refine and_congr_left fun _ => ⟨fun hpath => ?_, ?_⟩
    · obtain ⟨l, hl, rfl⟩ := hload path hpath
      obtain ⟨g, -, hphase⟩ := h.completed_of_ok hm hl
      exact ⟨l, hl, rfl, by rw [hphase]; rfl⟩
    · rintro ⟨l, hl, rfl, -⟩
      exact h.mem_toLoad hl
  rw [hm', heq]

/-- Until then, it has done what loading one graphic after the other does, in some order. -/
theorem log_of_ok {m : OrderedMap Path Graphic} (hm : s.returned = some (.ok m)) :
    s.log.Perm ((Compiler.toLoad referenced c.artifacts.graphics changed).flatMap fun path =>
      [.read path, .optimize]) := by
  have hwork : ∀ l ∈ s.loads, l.work c files = [.read l.path, .optimize] := by
    intro l hl
    obtain ⟨g, hg, hphase⟩ := h.completed_of_ok hm hl
    have hlog := Compiler.does_loadGraphic l.path _ (result_loadGraphic_eq_ok.mpr hg)
    rw [loadGraphic_eq] at hlog
    rw [Load.work, hphase]
    exact hlog
  rw [← h.paths_of_walked (h.succeeded m hm).1.1, List.flatMap_map, ← List.flatMap_congr hwork]
  exact h.log

/-- At no time has a path been read twice. -/
theorem count_read_le (path : Path) : s.log.count (.read path) ≤ 1 := by
  have hwork : ∀ l : Load, (l.work c files).count (.read path) ≤ [l.path].count path := by
    rintro ⟨p, phase⟩
    cases phase with
    | started => exact Nat.zero_le _
    | holding text => simp [Load.work, Compiler.readGraphic, Job.step, List.count_cons]
    | stored result => exact (count_read_effort path p).le
    | completed result => exact (count_read_effort path p).le
  have hcount : ∀ ls : List Load, (ls.flatMap (·.work c files)).count (.read path) ≤ (ls.map (·.path)).count path := by
    intro ls
    induction ls with
    | nil => exact Nat.le_refl 0
    | cons l ls ih =>
      rw [List.flatMap_cons, List.count_append, List.map_cons, List.count_cons]
      have hl := hwork l
      rw [List.count_singleton] at hl
      omega
  calc s.log.count (.read path) = (s.loads.flatMap (·.work c files)).count (.read path) := h.log.count_eq _
    _ ≤ (s.loads.map (·.path)).count path := hcount s.loads
    _ ≤ 1 := List.nodup_iff_count_le_one.mp h.nodup_paths path

end Sound

/-! ### Every order is possible -/

/-- When no load is left to go on, it stays so, and nothing completes any more. -/
theorem Quiet.step (h : s.Quiet) (hstep : Step c files changed s s') : s'.Quiet ∧ s'.completed = s.completed := by
  obtain ⟨hahead, hall⟩ := h
  cases hstep with
  | pass hr ha hp => simp [hahead] at ha
  | start hr ha hp => simp [hahead] at ha
  | read hloads =>
    obtain ⟨result, hphase⟩ := hall _ (hloads ▸ List.mem_append_right _ List.mem_cons_self)
    cases hphase
  | store hloads =>
    obtain ⟨result, hphase⟩ := hall _ (hloads ▸ List.mem_append_right _ List.mem_cons_self)
    cases hphase
  | complete hloads =>
    obtain ⟨result, hphase⟩ := hall _ (hloads ▸ List.mem_append_right _ List.mem_cons_self)
    cases hphase
  | receive hr ha hnext => exact ⟨⟨hahead, hall⟩, rfl⟩
  | fail hr ha hnext => exact ⟨⟨hahead, hall⟩, rfl⟩
  | succeed hr ha hall hnext => exact ⟨⟨hahead, hall⟩, rfl⟩

section Orders

variable (c files changed)

/-- The loader can go through all paths before any load goes on. -/
theorem exists_walk (hr : s.returned = none) (hstarted : ∀ l ∈ s.loads, l.phase = .started) :
    ∃ s', Steps c files changed s s' ∧ s'.ahead = [] ∧ s'.returned = none ∧ s'.completed = s.completed ∧
      ∀ l ∈ s'.loads, l.phase = .started := by
  induction hahead : s.ahead generalizing s with
  | nil => exact ⟨s, .refl, hahead, hr, rfl, hstarted⟩
  | cons path rest ih =>
    by_cases hp : s.Passes c changed path
    · obtain ⟨s', hsteps, hend⟩ := ih (s := { s with ahead := rest, seen := s.seen ++ [path] }) hr hstarted rfl
      exact ⟨s', .head (.pass hr hahead hp) hsteps, hend⟩
    · have hnew : ∀ l ∈ s.loads ++ [⟨path, .started⟩], l.phase = .started := by
        intro l hl
        rcases List.mem_append.mp hl with hl | hl
        · exact hstarted l hl
        · rw [List.mem_singleton.mp hl]
      obtain ⟨s', hsteps, hend⟩ := ih
        (s := { s with ahead := rest, seen := s.seen ++ [path], loads := s.loads ++ [⟨path, .started⟩] })
        hr hnew rfl
      exact ⟨s', .head (.start hr hahead hp) hsteps, hend⟩

/-- A load that was started can be carried through while all others rest. -/
theorem exists_carried {path : Path} (hl : ⟨path, .started⟩ ∈ s.loads) :
    ∃ s', Steps c files changed s s' ∧ s'.ahead = s.ahead ∧ s'.returned = s.returned ∧
      s'.completed = s.completed ++ [(path, outcome c files path)] ∧
      ∀ l ∈ s.loads, l.path ≠ path → l ∈ s'.loads := by
  obtain ⟨before, after, hloads⟩ := List.append_of_mem hl
  refine ⟨_, .head (.read hloads) (.head (.store rfl) (.single (.complete rfl))), rfl, rfl, rfl, ?_⟩
  intro l hmem hne
  rw [hloads, List.mem_append, List.mem_cons] at hmem
  rcases hmem with hmem | rfl | hmem
  · exact List.mem_append_left _ hmem
  · exact absurd rfl hne
  · exact List.mem_append_right _ (List.mem_cons_of_mem _ hmem)

/-- Loads that were started can be carried through in any order. -/
theorem exists_carried_all {order : List Path} (hnodup : order.Nodup)
    (hstarted : ∀ path ∈ order, ⟨path, .started⟩ ∈ s.loads) :
    ∃ s', Steps c files changed s s' ∧ s'.ahead = s.ahead ∧ s'.returned = s.returned ∧
      s'.completed = s.completed ++ order.map fun path => (path, outcome c files path) := by
  induction order generalizing s with
  | nil => exact ⟨s, .refl, rfl, rfl, (List.append_nil _).symm⟩
  | cons path order ih =>
    obtain ⟨hpath, hnodup⟩ := List.nodup_cons.mp hnodup
    obtain ⟨hhead, htail⟩ := List.forall_mem_cons.mp hstarted
    obtain ⟨s₁, hsteps₁, hahead₁, hreturned₁, hcompleted₁, hkept⟩ := exists_carried c files changed hhead
    have hstarted₁ : ∀ p ∈ order, ⟨p, .started⟩ ∈ s₁.loads :=
      fun p hp => hkept _ (htail p hp) fun heq => hpath (heq ▸ hp)
    obtain ⟨s₂, hsteps₂, hahead₂, hreturned₂, hcompleted₂⟩ := ih hnodup hstarted₁
    refine ⟨s₂, hsteps₁.trans hsteps₂, hahead₂.trans hahead₁, hreturned₂.trans hreturned₁, ?_⟩
    rw [hcompleted₂, hcompleted₁, List.append_assoc, List.map_cons, List.singleton_append]

/-- When all loads have completed, the loader comes to its end by itself. -/
theorem Quiet.exists_end (h : s.Quiet) :
    ∃ s', Steps c files changed s s' ∧ s'.completed = s.completed ∧ s'.returned.isSome = true := by
  induction hn : s.remaining using Nat.strong_induction_on generalizing s with
  | _ n ih =>
    cases hr : s.returned with
    | some r => exact ⟨s, .refl, rfl, by rw [hr]; rfl⟩
    | none =>
      obtain ⟨s₁, hstep⟩ : ∃ s₁, Step c files changed s s₁ := exists_step hr
      obtain ⟨hquiet, hcompleted⟩ := h.step hstep
      obtain ⟨s₂, hsteps, hcompleted₂, hend⟩ := ih _ (hn ▸ hstep.lt_remaining) hquiet rfl
      exact ⟨s₂, .head hstep hsteps, hcompleted₂.trans hcompleted, hend⟩

/-- In whatever order the graphics that are to be loaded are given, there is an execution in which their loads
complete in this order. -/
theorem exists_execution {order : List Path}
    (horder : order.Perm (Compiler.toLoad referenced c.artifacts.graphics changed)) :
    ∃ s, Steps c files changed { ahead := referenced } s ∧ s.completed.map Prod.fst = order ∧
      s.returned.isSome = true := by
  obtain ⟨s₁, hsteps₁, hahead₁, hreturned₁, hcompleted₁, hstarted⟩ :=
    exists_walk c files changed (s := { ahead := referenced }) rfl (List.forall_mem_nil _)
  have hsound₁ := (sound_start c files changed referenced).steps hsteps₁
  have hstarted₁ : ∀ path ∈ order, ⟨path, .started⟩ ∈ s₁.loads := by
    intro path hpath
    rw [horder.mem_iff, ← hsound₁.paths_of_walked hahead₁] at hpath
    obtain ⟨l, hl, rfl⟩ := List.mem_map.mp hpath
    rw [← hstarted l hl]
    exact hl
  have hnodup : order.Nodup := horder.nodup_iff.mpr (nodup_toLoad _ _ _)
  obtain ⟨s₂, hsteps₂, hahead₂, -, hcompleted₂⟩ :=
    exists_carried_all c files changed hnodup hstarted₁
  rw [hcompleted₁, List.nil_append] at hcompleted₂
  have hsound₂ := hsound₁.steps hsteps₂
  have hquiet : s₂.Quiet := by
    refine ⟨hahead₂.trans hahead₁, fun l hl => ?_⟩
    have hpath : l.path ∈ order := horder.mem_iff.mpr (hsound₂.mem_toLoad hl)
    have hdone : (l.path, outcome c files l.path) ∈ s₂.completed :=
      hcompleted₂ ▸ List.mem_map_of_mem hpath
    -- The load that has completed at this path is the only one there.
    have hsame := List.inj_on_of_nodup_map hsound₂.nodup_paths hl ((hsound₂.completed _).mp hdone) rfl
    exact ⟨_, congrArg Load.phase hsame⟩
  obtain ⟨s₃, hsteps₃, hcompleted₃, hend⟩ := hquiet.exists_end c files changed
  refine ⟨s₃, (hsteps₁.trans hsteps₂).trans hsteps₃, ?_, hend⟩
  rw [hcompleted₃, hcompleted₂, List.map_map]
  exact List.map_id order

end Orders

end Loading

namespace Compiler

/-- A graphic is due if it is needed, and is not kept or changed. -/
def Due (c : Compiler) (changed referenced : List Path) (path : Path) : Prop :=
  path ∈ referenced ∧ (c.artifacts.graphics.get? path = none ∨ path ∈ changed)

/-- Graphics are loaded side by side. Every execution comes to an end, no path is ever read twice, and the
loads can complete in any order. Whatever the order, the loader succeeds if and only if each graphic that is due
can be loaded. It then hands over exactly these graphics, as loading one after the other does, and each was
read and optimised once; and the page that is made with them is the page that the compiler makes. -/
theorem load_order_immaterial (c : Compiler) (files : Files) (changed referenced : List Path) :
    WellFounded (fun s' s => Loading.Step c files changed s s') ∧
    (∀ order : List Path, order.Nodup → (∀ path, path ∈ order ↔ c.Due changed referenced path) →
      ∃ s, Loading.Steps c files changed { ahead := referenced } s ∧ s.completed.map Prod.fst = order ∧
        s.returned.isSome = true) ∧
    ∀ s, Loading.Steps c files changed { ahead := referenced } s →
      (s.returned = none → ∃ s', Loading.Step c files changed s s') ∧
      (∀ path, s.log.count (.read path) ≤ 1) ∧
      (∀ r, s.returned = some r → ((∃ m, r = .ok m) ↔
        ∀ path, c.Due changed referenced path → ∃ g, Graphic.load files c.tools.optimize path = .ok g)) ∧
      ∀ m, s.returned = some (.ok m) →
        (∀ path g, m.get? path = some g ↔
          c.Due changed referenced path ∧ Graphic.load files c.tools.optimize path = .ok g) ∧
        (c.loadGraphics files (toLoad referenced c.artifacts.graphics changed)).result = .ok m ∧
        (∃ paths : List Path, paths.Nodup ∧ (∀ path, path ∈ paths ↔ c.Due changed referenced path) ∧
          s.log.Perm (paths.flatMap fun path => [.read path, .optimize])) ∧
        ∀ ch staged b, Stages c files ch staged b → ch.paths = changed → b.assets = referenced →
          c.pageText { staged with graphics := m } ch = c.pageText staged ch := by
  have hnodup := Loading.nodup_toLoad referenced c.artifacts.graphics changed
  refine ⟨?_, ?_, ?_⟩
  · exact Subrelation.wf (fun hstep => hstep.lt_remaining) (measure Loading.remaining).wf
  · intro order horder hdue
    refine Loading.exists_execution c files changed ((List.perm_ext_iff_of_nodup horder hnodup).mpr fun path => ?_)
    rw [hdue, mem_toLoad, Due]
  · intro s hsteps
    have hsound := (Loading.sound_start c files changed referenced).steps hsteps
    refine ⟨Loading.exists_step, hsound.count_read_le, ?_, ?_⟩
    · intro r hr
      constructor
      · rintro ⟨m, rfl⟩ path hdue
        obtain ⟨g, hg⟩ := exists_loadGraphics.mp ⟨m, hsound.of_ok hr⟩ path (mem_toLoad.mpr hdue)
        exact ⟨g, Loading.outcome_eq_ok.mp (Loading.result_loadGraphic_eq_ok.mp hg)⟩
      · intro hall
        cases r with
        | ok m => exact ⟨m, rfl⟩
        | error e =>
          obtain ⟨path, hpath, he⟩ := hsound.of_error hr
          obtain ⟨g, hg⟩ := hall path (mem_toLoad.mp hpath)
          rw [← Loading.outcome_eq_ok, he] at hg
          cases hg
    · intro m hm
      have hload := hsound.of_ok hm
      refine ⟨fun path g => ?_, hload, ⟨_, hnodup, fun path => mem_toLoad, hsound.log_of_ok hm⟩, ?_⟩
      · rw [get?_loadGraphics hload, mem_toLoad, Loading.result_loadGraphic_eq_ok, Loading.outcome_eq_ok, Due]
      · rintro ch staged b hstages rfl rfl
        have hsame : staged.graphics = m := Except.ok.inj (hstages.graphics.symm.trans hload)
        rw [← hsame]

/-- A compiler that keeps graphics of the beach and of the forest, and nothing else. -/
def keeping : Compiler where
  tools := .plain .outing
  options := {}
  artifacts :=
    { graphics := .ofList [(⟨["backgrounds", "beach.svg"]⟩, ⟨.empty, "old"⟩),
        (⟨["backgrounds", "forest.svg"]⟩, ⟨.empty, "old"⟩)] }

/-- All sources changed, and the forest. -/
def forestChanges : Changes :=
  .classify (⟨["backgrounds", "forest.svg"]⟩ :: sources {}) {}

/-- The outing needs five graphics. The beach is kept, the others are loaded, the forest among them. Their loads
can complete in the reverse order, and the page can be made with what they give. -/
theorem load_order_immaterial_reversed : ∃ (staged : Staged) (b : Blueprint) (page : String) (s : Loading)
    (m : OrderedMap Path Graphic),
    Stages keeping MemoryStore.outing.view forestChanges staged b ∧
    Loading.Steps keeping MemoryStore.outing.view forestChanges.paths { ahead := b.assets } s ∧
    s.completed.map Prod.fst = [⟨["characters", "bob", "emotes", "happy.svg"]⟩,
      ⟨["characters", "ann", "emotes", "sad.svg"]⟩, ⟨["characters", "ann", "emotes", "happy.svg"]⟩,
      ⟨["backgrounds", "forest.svg"]⟩] ∧
    s.returned = some (.ok m) ∧
    m.get? ⟨["backgrounds", "forest.svg"]⟩ = some ⟨.ofList [("width", "9")], "<path/>"⟩ ∧
    (keeping.pageText { staged with graphics := m } forestChanges).result = .ok page := by
  have hrun : (keeping.prepare MemoryStore.outing.view forestChanges).result.toOption.join.map
      (fun e => e.1.blueprint.map (·.assets)) = some (some Script.outing.assets) := by
    decide +kernel
  obtain ⟨⟨staged, page⟩, hsome, hassets⟩ := Option.map_eq_some_iff.mp hrun
  have hprepared := toOption_eq_some.mp (Option.join_eq_some_iff.mp hsome)
  obtain ⟨hstaged, -, hpage⟩ := prepare_eq_some.mp hprepared
  obtain ⟨b, hstages⟩ := stage_eq_ok.mp hstaged
  have hb : b.assets = Script.outing.assets := by
    obtain ⟨b', hb', hassets⟩ := Option.map_eq_some_iff.mp hassets
    have hcurrent := hstages.current
    rw [hb', Option.some_or] at hcurrent
    rw [← Option.some.inj hcurrent, hassets]
  obtain ⟨-, horders, hall⟩ := load_order_immaterial keeping MemoryStore.outing.view forestChanges.paths b.assets
  obtain ⟨s, hsteps, hcompleted, hend⟩ := horders
    (toLoad b.assets keeping.artifacts.graphics forestChanges.paths).reverse
    (List.nodup_reverse.mpr (Loading.nodup_toLoad _ _ _)) (fun path => List.mem_reverse.trans mem_toLoad)
  obtain ⟨r, hr⟩ := Option.isSome_iff_exists.mp hend
  obtain ⟨-, -, hok, hloaded⟩ := hall s hsteps
  have hdue : ∀ path ∈ toLoad Script.outing.assets keeping.artifacts.graphics forestChanges.paths,
      Graphic.load MemoryStore.outing.view keeping.tools.optimize path = .ok ⟨.ofList [("width", "9")], "<path/>"⟩ := by
    decide +kernel
  rw [← hb] at hdue
  obtain ⟨m, rfl⟩ := (hok r hr).mpr fun path hpath => ⟨_, hdue path (mem_toLoad.mpr hpath)⟩
  obtain ⟨hget, -, -, hsame⟩ := hloaded m hr
  have hforest : (⟨["backgrounds", "forest.svg"]⟩ : Path) ∈
      toLoad b.assets keeping.artifacts.graphics forestChanges.paths := by
    rw [hb]
    decide +kernel
  refine ⟨staged, b, page, s, m, hstages, hsteps, ?_, hr, ?_, ?_⟩
  · rw [hcompleted, hb]
    decide +kernel
  · exact (hget _ _).mpr ⟨mem_toLoad.mp hforest, hdue _ hforest⟩
  · rw [hsame forestChanges staged b hstages rfl rfl]
    exact hpage

end Compiler

end SkitPage
