import PeerCache.Config.Settings
/-!
# PeerCache — the command line of a node

Reads the settings of a node from its arguments and its environment, refuses those with which no
cluster can work, and prints what the node would listen on.
-/

open PeerCache

namespace PeerCache.Main

/-- The environment variables that an option can come from, with their values. -/
def environment : IO (List (String × String)) := do
  let values ← Settings.options.mapM fun o => do
    pure ((← IO.getEnv o.envName).map fun v => (o.envName, v))
  pure (values.filterMap id)

/-- The text of a usage error. -/
def usageText : Config.UsageError → String
  | .unknownArgument w => "unexpected argument '" ++ w ++ "' found"
  | .invalidValue o => "a value is required for '" ++ o ++ "' but none was supplied"
  | .valueValidation o => "invalid value for '" ++ o ++ "'"
  | .argumentConflict o => "the argument '" ++ o ++ "' cannot be used multiple times"
  | .tooManyValues o => "unexpected value for '" ++ o ++ "'"
  | .missingRequired os => "required arguments were not provided: " ++ " ".intercalate os
  | .displayHelp => "options: " ++ " ".intercalate (Settings.options.map Config.Opt.shown)
  | .displayVersion => "cache-node"

/-- What a node would do with its settings, or why it would not start. -/
def plan (s : Settings) : Except CacheError (List String) := do
  s.validate
  let socket := match ← s.bindAddr with
    | .socket a => a.render
    | .resolve host port => host ++ ":" ++ toString port
  pure [
    "node " ++ s.selfAddr ++ ", peers " ++ Text.quotedList s.peerAddrs,
    "peer endpoint on " ++ socket ++ " under " ++ s.basePath]

end PeerCache.Main

/-- Prints the plan of a node, or the error that keeps it from starting. -/
def main (args : List String) : IO UInt32 := do
  match Settings.parse args (← PeerCache.Main.environment) with
  | .error e => do
    IO.eprintln (PeerCache.Main.usageText e)
    pure 2
  | .ok s =>
    match PeerCache.Main.plan s with
    | .error e => do
      IO.eprintln e.message
      pure 1
    | .ok lines => do
      lines.forM fun line => IO.println line
      pure 0
