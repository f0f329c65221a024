import PeerCache.Table
import PeerCache.Error
import PeerCache.Text.Quoted
/-!
# PeerCache — shared executions

Callers that ask for the same key at the same time share one execution of the work behind it. A
`Flight` is the state of one such board: the executions so far, the markers of the keys in
flight, and who waits for which execution.

## Events

* **call** — a caller asks for a key. If the key has a marker, the caller waits for the execution
  that set it; otherwise its own work is registered, marked, and waited for.
* **advance** — an execution goes on, without an end yet.
* **finish** — an execution ends, by a value, a failure or a panic. Its key loses its marker.
* **deliver** — a waiting caller picks up the outcome of an execution that has ended.
* **abandon** — a waiting caller stops waiting. The execution goes on.

An execution is known by the caller whose work it runs, its *leader*; each caller calls once. An
event that does not apply changes nothing, so `step` is total and a run is a list of events.
-/

namespace PeerCache

/-- What a caller gets. -/
abbrev Outcome (α : Type) := Except CacheError α

/-- How an execution ends. -/
inductive Ending (α : Type) where
  | value (v : α)
  | failed (e : CacheError)
  /-- By a panic with a text. What else a panic may carry is left out; it would be told of in other
  words. -/
  | panicked (text : String)
deriving DecidableEq, Repr

/-- What the callers of an execution get: its value, its failure, or a failure that tells of its
panic. The number of the task that ran it is not told; the letter `N` stands for it. -/
def Ending.outcome {α : Type} : Ending α → Outcome α
  | .value v => .ok v
  | .failed e => .error e
  | .panicked text =>
    .error (.source ("load task failed: task N panicked with message " ++ Text.quoted text))

/-- How far an execution has come; `σ` is what is known of one that has not ended. -/
inductive Progress (σ α : Type) where
  | underway (work : σ)
  | ended (how : Ending α)
deriving DecidableEq, Repr

/-- Whether an execution has not ended. -/
def Progress.isUnderway {σ α : Type} : Progress σ α → Bool
  | .underway _ => true
  | .ended _ => false

/-- The work of one caller, run on behalf of everybody who waits for it. -/
structure Execution (ι σ α : Type) where
  leader : ι
  key : String
  progress : Progress σ α
deriving DecidableEq, Repr

/-- The state of one board of shared executions. -/
structure Flight (ι σ α : Type) where
  /-- All executions, in the order in which they were registered. -/
  executions : List (Execution ι σ α)
  /-- The keys in flight, each with the leader of its execution. -/
  markers : Table String ι
  /-- The callers that wait, each with the leader it waits for, in the order of their calls. -/
  waiting : List (ι × ι)
  /-- The callers that have been answered, with their outcomes. -/
  answered : List (ι × Outcome α)
  /-- Everybody who has called. -/
  callers : List ι

namespace Flight

variable {ι σ α : Type}

/-- The board before the first call. -/
def empty : Flight ι σ α := ⟨[], .empty, [], [], []⟩

instance : Inhabited (Flight ι σ α) := ⟨empty⟩

/-- The number of keys in flight. -/
def inFlight (f : Flight ι σ α) : Nat := f.markers.size

/-- The executions that have not ended. -/
def underway (f : Flight ι σ α) : List (Execution ι σ α) :=
  f.executions.filter fun x => x.progress.isUnderway

variable [DecidableEq ι]

/-- The execution of a leader. -/
def execution? (f : Flight ι σ α) (leader : ι) : Option (Execution ι σ α) :=
  f.executions.find? fun x => x.leader = leader

/-- What is known of a leader's execution while it has not ended. -/
def work? (f : Flight ι σ α) (leader : ι) : Option σ :=
  match f.execution? leader with
  | some ⟨_, _, .underway w⟩ => some w
  | _ => none

/-- How a leader's execution ended, if it did. -/
def ending? (f : Flight ι σ α) (leader : ι) : Option (Ending α) :=
  match f.execution? leader with
  | some ⟨_, _, .ended how⟩ => some how
  | _ => none

/-- The key that a leader's execution is for. -/
def key? (f : Flight ι σ α) (leader : ι) : Option String :=
  (f.execution? leader).map Execution.key

/-- The leader that a caller waits for. -/
def leaderOf? (f : Flight ι σ α) (caller : ι) : Option ι :=
  (f.waiting.find? fun w => w.1 = caller).map Prod.snd

/-- What a caller was answered. -/
def answer? (f : Flight ι σ α) (caller : ι) : Option (Outcome α) :=
  (f.answered.find? fun a => a.1 = caller).map Prod.snd

/-- Gives a leader's execution a new progress. -/
def setProgress (leader : ι) (p : Progress σ α) (xs : List (Execution ι σ α)) :
    List (Execution ι σ α) :=
  xs.map fun x => if x.leader = leader then { x with progress := p } else x

/-- A caller asks for a key, with its own work should it be the one that runs. -/
def call (f : Flight ι σ α) (caller : ι) (key : String) (work : σ) : Flight ι σ α :=
  if caller ∈ f.callers then f
  else
    match f.markers.find? key with
    -- The work of this caller will never run.
    | some leader =>
      { f with
        waiting := f.waiting ++ [(caller, leader)]
        callers := f.callers ++ [caller] }
    | none =>
      { f with
        executions := f.executions ++ [⟨caller, key, .underway work⟩]
        markers := f.markers.insert key caller
        waiting := f.waiting ++ [(caller, caller)]
        callers := f.callers ++ [caller] }

/-- An execution goes on. -/
def advance (f : Flight ι σ α) (leader : ι) (work : σ) : Flight ι σ α :=
  match f.work? leader with
  | some _ => { f with executions := setProgress leader (.underway work) f.executions }
  | none => f

/-- An execution ends; its key is no longer in flight. -/
def finish (f : Flight ι σ α) (leader : ι) (how : Ending α) : Flight ι σ α :=
  match f.execution? leader with
  | some ⟨_, key, .underway _⟩ =>
    { f with
      executions := setProgress leader (.ended how) f.executions
      -- The marker is this execution's own: as long as it stood, no other work was registered.
      markers := f.markers.erase key }
  | _ => f

/-- A waiting caller picks up the outcome of the execution it waits for. -/
def deliver (f : Flight ι σ α) (caller : ι) : Flight ι σ α :=
  match (f.leaderOf? caller).bind f.ending? with
  | some how =>
    { f with
      waiting := f.waiting.filter fun w => w.1 ≠ caller
      answered := f.answered ++ [(caller, how.outcome)] }
  | none => f

/-- A waiting caller stops waiting. -/
def abandon (f : Flight ι σ α) (caller : ι) : Flight ι σ α :=
  { f with waiting := f.waiting.filter fun w => w.1 ≠ caller }

/-! ## Runs -/

/-- One thing that happens on a board. -/
inductive Event (ι σ α : Type) where
  | call (caller : ι) (key : String) (work : σ)
  | advance (leader : ι) (work : σ)
  | finish (leader : ι) (how : Ending α)
  | deliver (caller : ι)
  | abandon (caller : ι)

/-- What an event does. -/
def step (f : Flight ι σ α) : Event ι σ α → Flight ι σ α
  | .call caller key work => f.call caller key work
  | .advance leader work => f.advance leader work
  | .finish leader how => f.finish leader how
  | .deliver caller => f.deliver caller
  | .abandon caller => f.abandon caller

/-- What a list of events does, one after another. -/
def run (f : Flight ι σ α) (events : List (Event ι σ α)) : Flight ι σ α :=
  events.foldl step f

end Flight

end PeerCache
