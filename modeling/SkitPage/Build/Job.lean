import SkitPage.Build.Error

/-!
# Jobs

A job is a piece of a build: what it did, in order, and what came out of it. The record of what was done
is kept when a job fails, and a job that follows a failed one does nothing.

Key definitions: `Work`, `Job`, `Job.step`, `Job.all`.
-/

namespace SkitPage

/-- Something that a build does and that costs time. -/
inductive Work
  | read (path : Path)
  | parse
  | map
  | compileTemplate
  | render
  | compileStylesheet
  | optimize
  | minify
  | write (path : Path)
deriving DecidableEq, Repr

/-- The paths that were read, in order. -/
def Work.readPaths (log : List Work) : List Path :=
  log.filterMap fun
    | .read path => some path
    | _ => none

/-- What was done, and what came out of it. -/
structure Job (α : Type) where
  /-- What was done, in order. -/
  log : List Work
  /-- What came out of it. -/
  result : Except BuildError α

namespace Job

variable {α β : Type}

/-- Nothing was done. -/
def done (result : Except BuildError α) : Job α := ⟨[], result⟩

/-- One thing was done. -/
def step (work : Work) (result : Except BuildError α) : Job α := ⟨[work], result⟩

/-- One job after the other. -/
def bind (j : Job α) (next : α → Job β) : Job β :=
  match j.result with
  | .ok a => ⟨j.log ++ (next a).log, (next a).result⟩
  | .error e => ⟨j.log, .error e⟩

instance : Monad Job where
  pure a := ⟨[], .ok a⟩
  bind := bind

/-- All jobs, each whether or not one before it failed; of several failures the first counts. -/
def all (jobs : List (Job α)) : Job (List α) :=
  ⟨jobs.flatMap (·.log), jobs.mapM (·.result)⟩

/-- A job that may have to be done. -/
def onlyIf (condition : Bool) (j : Job α) : Job (Option α) :=
  if condition then ⟨j.log, j.result.map some⟩ else ⟨[], .ok none⟩

end Job

end SkitPage
