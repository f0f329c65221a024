import PeerCache.Table
import PeerCache.Text.Utf8
/-!
# PeerCache — scripts for the bench

The bench runs parts of the cache against sources and peers that follow a script. A script says,
key by key, how one call after another comes out; the last line for a key stays. A line may wait
at a gate before it is played.
-/

namespace PeerCache.Bench

/-- How a call comes out. -/
inductive Act where
  /-- It gives these bytes. -/
  | give (bytes : List UInt8)
  /-- It gives a text followed by the key. -/
  | echo (text : String)
  /-- It fails with a text. -/
  | fail (text : String)
  /-- It panics with a text. -/
  | panic (text : String)
deriving DecidableEq, Repr

/-- One line of a script: how a call comes out, and the gate where it waits first. -/
structure Line where
  act : Act
  gate : Option String
deriving DecidableEq, Repr

/-- What came out of a call. -/
inductive Played where
  | value (bytes : List UInt8)
  | failure (text : String)
  | panic (text : String)
deriving DecidableEq, Repr

/-- What comes out of a call for a key. -/
def Act.play (act : Act) (key : String) : Played :=
  match act with
  | give bytes => .value bytes
  | echo text => .value (Text.utf8 text ++ Text.utf8 key)
  | fail text => .failure text
  | panic text => .panic text

/-- The lines for each key, and the line for all other keys. -/
structure Script where
  table : Table String (List Line)
  fallback : Option Line
deriving Inhabited

namespace Script

/-- The line for a key that no script mentions: the key does not exist. -/
def missing (key : String) : Line := ⟨.fail (key ++ " not exist"), none⟩

/-- The line for the next call for a key, and the script after it. -/
def next (s : Script) (key : String) : Line × Script :=
  match s.table.find? key with
  | some (line :: l :: rest) => (line, { s with table := s.table.insert key (l :: rest) })
  | some [line] => (line, s)
  | _ => (s.fallback.getD (missing key), s)

/-- Replaces the lines for a key. -/
def set (s : Script) (key : String) (lines : List Line) : Script :=
  { s with table := s.table.insert key lines }

end Script

end PeerCache.Bench
