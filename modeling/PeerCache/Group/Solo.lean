import Mathlib.Data.List.Dedup
import PeerCache.Group.Basic
/-!
# PeerCache — calls made one after another

The plainest use of a group: nobody calls before the caller before has its answer, there is no
router, and the source answers a key the same way whenever it is asked. A `Call` is then four events
in a row, of which those that do not apply change nothing, and what the group holds can be told from
the list of calls alone: `accessed` has each entry that they read, the one read last in front.
-/

namespace PeerCache

namespace Group

/-- A source that answers a key always the same way. -/
abbrev Source := String → Except String (List UInt8)

/-- One call from outside. -/
structure Call where
  access : Access
  key : String
deriving DecidableEq, Repr

/-- All that happens from a call of `caller` to its answer. -/
def Call.events (source : Source) (c : Call) (caller : Nat) : List (Event Nat) :=
  [.lookup caller c.access c.key, .start c.access caller none,
    .sourceReply c.access caller (source c.key), .deliver c.access caller]

/-- All that happens in a list of calls, each made by a caller of its own. -/
def callEvents (source : Source) (calls : List Call) : List (Event Nat) :=
  calls.zipIdx.flatMap fun c => c.1.events source c.2

/-- The group after some calls. -/
def afterCalls (g : Group Nat) (source : Source) (calls : List Call) : Group Nat :=
  g.run (callEvents source calls)

/-- After the other calls, `c` is a hit. -/
def Hits (g : Group Nat) (source : Source) (calls : List Call) (c : Call) : Prop :=
  (g.afterCalls source (calls ++ [c])).counters.hits =
    (g.afterCalls source calls).counters.hits + 1

/-- The entry that a call reads; there is none for the empty key, and none if the source fails. -/
def Call.entry? (source : Source) (c : Call) : Option (String × ByteView) :=
  if c.key = "" then none
  else
    match source c.key with
    | .ok bytes => some (c.key, ⟨bytes⟩)
    | .error _ => none

/-- The distinct entries that some calls read, the one read last in front. -/
def accessed (source : Source) (calls : List Call) : List (String × ByteView) :=
  (calls.filterMap (Call.entry? source)).dedup.reverse

end Group

end PeerCache
