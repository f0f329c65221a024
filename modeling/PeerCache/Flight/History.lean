import PeerCache.Flight.Basic
/-!
# PeerCache — what a run of a board does

A board's state tells which executions there are and how they ended. Whether a work was run once
or twice is a question about the whole run: `started` lists the works that a run starts, in order,
and `ended` the ends that executions come to. An event that changes nothing adds to neither. What a
run has started and not ended is `unfinished`.
-/

namespace PeerCache

namespace Flight

variable {ι σ α : Type} [DecidableEq ι]

/-- The execution that an event starts, if it starts one. -/
def starts (f : Flight ι σ α) : Event ι σ α → List (Execution ι σ α)
  | .call caller key work =>
    if caller ∈ f.callers then []
    else
      match f.markers.find? key with
      | some _ => []
      | none => [⟨caller, key, .underway work⟩]
  | _ => []

/-- The execution that an event ends, if it ends one, and how. -/
def ends (f : Flight ι σ α) : Event ι σ α → List (ι × Ending α)
  | .finish leader how =>
    match f.work? leader with
    | some _ => [(leader, how)]
    | none => []
  | _ => []

/-- The executions that a run starts, as they stand at their start. -/
def started (f : Flight ι σ α) : List (Event ι σ α) → List (Execution ι σ α)
  | [] => []
  | e :: es => f.starts e ++ (f.step e).started es

/-- The ends that a run brings executions to. -/
def ended (f : Flight ι σ α) : List (Event ι σ α) → List (ι × Ending α)
  | [] => []
  | e :: es => f.ends e ++ (f.step e).ended es

/-- The executions that a run starts and does not end, as they stand at their start. -/
def unfinished (f : Flight ι σ α) (events : List (Event ι σ α)) : List (Execution ι σ α) :=
  (f.started events).filter fun x => x.leader ∉ (f.ended events).map Prod.fst

/-- The leader whose execution a caller of `key` is attached to: the one that the key's marker
names, else the caller itself. -/
def attached (f : Flight ι σ α) (caller : ι) (key : String) : ι :=
  (f.markers.find? key).getD caller

end Flight

end PeerCache
