import DesignSystem.Disk
import DesignSystem.Instant
/-!
# Jobs

A job is a computation that now and then asks its surroundings for something: to read or change
files, for an identifier that is nowhere in use, or for the time. The job itself is plain data, so
it can be run on a workbench, whose disk, identifiers and clock are values (`Job.run`), or by
whatever else answers requests.
-/

namespace DesignSystem

/-- What a job may ask for. -/
inductive Request where
  | read (path : String)
  | makeFolders (path : String)
  | write (path text : String)
  | rename (source target : String)
  | remove (path : String)
  | freshId
  | now

namespace Request

/-- What a request is answered with. -/
def Reply : Request → Type
  | read _ => Except Disk.Error String
  | makeFolders _ | write _ _ | rename _ _ | remove _ => Except Disk.Error Unit
  | freshId => String
  | now => Instant

end Request

/-- A job with a result. -/
inductive Job (α : Type) where
  | done (result : α)
  | ask (request : Request) (next : request.Reply → Job α)

namespace Job

variable {α β : Type}

/-- The job that goes on from the result of another. -/
protected def bind : Job α → (α → Job β) → Job β
  | done a, f => f a
  | ask r next, f => ask r fun x => (next x).bind f

instance : Monad Job where
  pure := done
  bind := Job.bind

/-- The job that asks for one thing. -/
def request (r : Request) : Job r.Reply :=
  ask r done

/-- Asks for the text of a file. -/
def read (path : String) : Job (Except Disk.Error String) :=
  request (.read path)

/-- Asks for the folders of a path. -/
def makeFolders (path : String) : Job (Except Disk.Error Unit) :=
  request (.makeFolders path)

/-- Asks to write a file. -/
def write (path text : String) : Job (Except Disk.Error Unit) :=
  request (.write path text)

/-- Asks to move a file. -/
def rename (source target : String) : Job (Except Disk.Error Unit) :=
  request (.rename source target)

/-- Asks to remove a file. -/
def remove (path : String) : Job (Except Disk.Error Unit) :=
  request (.remove path)

/-- Asks for an identifier. -/
def freshId : Job String :=
  request .freshId

/-- Asks for the time. -/
def now : Job Instant :=
  request .now

end Job

/-- Surroundings as a value: a disk, the identifiers to come and the times to come. -/
structure Workbench where
  disk : Disk
  ids : Nat → String
  times : Nat → Instant
  usedIds : Nat
  usedTimes : Nat

namespace Workbench

/-- The outcome of a change of the disk that may fail. -/
def change (w : Workbench) (r : Except Disk.Error Disk) : Except Disk.Error Unit × Workbench :=
  match r with
  | .error e => (.error e, w)
  | .ok disk => (.ok (), { w with disk })

/-- Answers a request. -/
def answer (w : Workbench) : (r : Request) → r.Reply × Workbench
  | .read path => (w.disk.read path, w)
  | .makeFolders path =>
    let (result, disk) := w.disk.makeFolders path
    (result, { w with disk })
  | .write path text => w.change (w.disk.write path text)
  | .rename source target => w.change (w.disk.rename source target)
  | .remove path => w.change (w.disk.remove path)
  | .freshId => (w.ids w.usedIds, { w with usedIds := w.usedIds + 1 })
  | .now => (w.times w.usedTimes, { w with usedTimes := w.usedTimes + 1 })

end Workbench

namespace Job

variable {α β : Type}

/-- Runs a job on a workbench. -/
def run : Job α → Workbench → α × Workbench
  | done a, w => (a, w)
  | ask r next, w =>
    let (x, w) := w.answer r
    (next x).run w

@[simp] theorem run_pure (a : α) (w : Workbench) : (pure a : Job α).run w = (a, w) := rfl

@[simp] theorem run_bind (j : Job α) (f : α → Job β) (w : Workbench) :
    (j >>= f).run w = (f (j.run w).1).run (j.run w).2 := by
  induction j generalizing w with
  | done a => rfl
  | ask r next ih => exact ih _ _

@[simp] theorem run_request (r : Request) (w : Workbench) : (request r).run w = w.answer r := rfl

end Job

end DesignSystem
