import PeerCache.Flight.Basic
import PeerCache.ByteView
import PeerCache.Bench.Script
/-!
# PeerCache — the bench for shared executions

Runs one board of shared executions against scripted work. Calls that start together all join or
register before any work runs; work then runs in the order in which it was registered, one piece
at a time, until it ends or comes to a gate. Opening a gate lets the work behind it go on, in the
order in which it came there.
-/

namespace PeerCache.Bench

/-- What a call came to. -/
inductive Done (α : Type) where
  | outcome (o : Outcome α)
  | abandoned

/-- A call that has not come to an end: its number, its name, and what was asked. -/
structure Pending (κ : Type) where
  number : Nat
  name : String
  what : κ

/-- One call of a scripted run. -/
structure Request where
  name : String
  key : String
  line : Line

/-- One step of a scripted run. -/
inductive BoardStep where
  | calls (requests : List Request)
  | release (gate : Option String)
  | abandon (name : String)

/-- What a step itself answers. -/
inductive Answer where
  | nothing
  | count (n : Nat)
  | flag (b : Bool)

/-- What can be seen after a step: its answer, the calls that came to an end, the names of those
that wait, the work that began, and the number of keys in flight. -/
structure BoardReport where
  answer : Answer
  done : List (String × Done ByteView)
  pending : List String
  log : List (String × String)
  inFlight : Nat

/-- A board with its script. A piece of work carries the name of the call it belongs to, its key
and its line. -/
structure Board where
  flight : Flight Nat Request ByteView
  calls : List (Pending Unit)
  /-- The gates with the work that waits there, in the order of arrival. -/
  gates : List (String × Nat)
  nextNumber : Nat

namespace Board

/-- The board before the first step. -/
def new : Board := ⟨.empty, [], [], 0⟩

/-- How work ends that gave this. -/
def ending : Played → Ending ByteView
  | .value bytes => .value ⟨bytes⟩
  | .failure text => .failed (.source text)
  | .panic text => .panicked text

/-- Lets the work of a leader end as its line says. -/
def complete (b : Board) (leader : Nat) : Board :=
  match b.flight.work? leader with
  | some r => { b with flight := b.flight.finish leader (ending (r.line.act.play r.key)) }
  | none => b

/-- Runs the work of a leader, as far as the gate on its line; the log tells that it began. -/
def runWork (b : Board) (leader : Nat) : Board × List (String × String) :=
  match b.flight.work? leader with
  | none => (b, [])
  | some r =>
    match r.line.gate with
    | some gate => ({ b with gates := b.gates ++ [(gate, leader)] }, [(r.name, r.key)])
    | none => (b.complete leader, [(r.name, r.key)])

/-- Runs the work of several leaders, one after another. -/
def runAll (b : Board) : List Nat → Board × List (String × String)
  | [] => (b, [])
  | leader :: rest =>
    let (b, log) := b.runWork leader
    let (b, logs) := b.runAll rest
    (b, log ++ logs)

/-- A caller calls; the second part of the answer is the work this registered. -/
def call (b : Board) (r : Request) : Board × List Nat :=
  let n := b.nextNumber
  let flight := b.flight.call n r.key r
  let b' : Board :=
    { flight := flight
      calls := b.calls ++ [⟨n, r.name, ()⟩]
      gates := b.gates
      nextNumber := n + 1 }
  (b', if (flight.work? n).isSome then [n] else [])

/-- Callers call one after another. -/
def callAll (b : Board) : List Request → Board × List Nat
  | [] => (b, [])
  | r :: rest =>
    let (b, new) := b.call r
    let (b, more) := b.callAll rest
    (b, new ++ more)

/-- Hands the outcomes that are there to the calls that wait for them. -/
def collect (b : Board) : Board × List (String × Done ByteView) :=
  let flight := b.calls.foldl (fun f c => f.deliver c.number) b.flight
  let done := b.calls.filterMap fun c =>
    (flight.answer? c.number).map fun o => (c.name, Done.outcome o)
  let calls := b.calls.filter fun c => (flight.answer? c.number).isNone
  ({ b with flight := flight, calls := calls }, done)

/-- One step, run until nothing can move, and what can be seen then. -/
def step (b : Board) (s : BoardStep) : Board × BoardReport :=
  let (b, answer, done, log) : Board × Answer × List (String × Done ByteView)
      × List (String × String) :=
    match s with
    | .calls requests =>
      let (b, new) := b.callAll requests
      let (b, log) := b.runAll new
      (b, .nothing, [], log)
    | .release gate =>
      let opens := fun (w : String × Nat) => gate.isNone || gate = some w.1
      let freed := b.gates.filter opens
      let b := { b with gates := b.gates.filter fun w => !opens w }
      (freed.foldl (fun b w => b.complete w.2) b, .count freed.length, [], [])
    | .abandon name =>
      match b.calls.find? fun c => c.name = name with
      | none => (b, .flag false, [], [])
      | some c =>
        ({ b with
            flight := b.flight.abandon c.number
            calls := b.calls.filter fun d => d.number ≠ c.number },
          .flag true, [(name, .abandoned)], [])
  let (b, more) := b.collect
  (b,
    { answer := answer
      done := done ++ more
      pending := (b.calls.map Pending.name).mergeSort fun x y => decide (x ≤ y)
      log := log
      inFlight := b.flight.inFlight })

/-- The reports of a list of steps. -/
def run (b : Board) : List BoardStep → List BoardReport
  | [] => []
  | s :: rest =>
    let (b, report) := b.step s
    report :: b.run rest

end Board

end PeerCache.Bench
