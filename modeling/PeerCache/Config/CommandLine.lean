/-!
# PeerCache — command lines

A command line is a list of words. A word `--name` starts an option; its value is attached after
an equals sign or is the next word. A flag is an option without a value. Two hyphens alone end
the options; no other words are known, so any further word is refused. Options that the words do
not give are taken from the environment.

## Which error wins

Words are read from left to right and the first error ends the reading. The value of an option is
looked at when the option is complete: at once if it is attached, otherwise when the next known
option comes or the words end. So a word that is not known wins over a bad value that stands
directly before it, but not over one that stands further back.
-/

namespace PeerCache.Config

/-- An option that can be given; `δ` is what the options together describe. -/
structure Opt (δ : Type) where
  name : String
  /-- How the value is called; absent for a flag. -/
  placeholder : Option String
  /-- The environment variable that gives the option when no word does. -/
  envName : String
  /-- Whether the option may be given more than once. -/
  repeats : Bool
  /-- Whether the option has to be given. -/
  required : Bool
  /-- What a value means; none if it is no value of this option. -/
  read : String → Option (δ → δ)

/-- An option as usage texts show it. -/
def Opt.shown {δ : Type} (o : Opt δ) : String :=
  "--" ++ o.name ++ (match o.placeholder with
    | some p => " <" ++ p ++ ">"
    | none => "")

/-- Why a command line is not used. -/
inductive UsageError where
  /-- A word that is not known, as it was typed but without an attached value. -/
  | unknownArgument (word : String)
  /-- An option without its value, or a flag whose variable is neither true nor false. -/
  | invalidValue (option : String)
  /-- A value that the option cannot take. -/
  | valueValidation (option : String)
  /-- An option that was given twice. -/
  | argumentConflict (option : String)
  /-- A flag with a value. -/
  | tooManyValues (option : String)
  /-- Options that have to be given and are not. -/
  | missingRequired (options : List String)
  /-- The help was asked for. -/
  | displayHelp
  /-- The version was asked for. -/
  | displayVersion
deriving DecidableEq, Repr

namespace CommandLine

/-- The words read so far. -/
structure Reading (δ : Type) where
  draft : δ
  /-- The names of the options that were given. -/
  given : List String
  /-- The option that was named last, with its value if that has come. -/
  pending : Option (Opt δ × Option String)
  /-- Whether two hyphens have ended the options. -/
  ended : Bool

variable {δ : Type}

/-- Takes an option with its value. -/
def take (r : Reading δ) (o : Opt δ) (value : String) : Except UsageError (Reading δ) :=
  if o.name ∈ r.given ∧ !o.repeats then .error (.argumentConflict o.shown)
  else
    match o.read value with
    | none => .error (.valueValidation o.shown)
    | some f => .ok { r with draft := f r.draft, given := o.name :: r.given }

/-- Takes the option that was named last. -/
def settle (r : Reading δ) : Except UsageError (Reading δ) :=
  match r.pending with
  | none => .ok r
  | some (o, none) => .error (.invalidValue o.shown)
  | some (o, some value) => take { r with pending := none } o value

/-- Cuts a word behind its two hyphens into a name and the value attached to it. -/
def splitWord (cs : List Char) : String × Option String :=
  (String.ofList (cs.takeWhile (· ≠ '=')),
    match cs.dropWhile (· ≠ '=') with
    | [] => none
    | _ :: value => some (String.ofList value))

/-- Reads a word that starts with two hyphens. -/
def long (options : List (Opt δ)) (r : Reading δ) (cs : List Char) :
    Except UsageError (Reading δ) := do
  match splitWord cs with
  | ("help", none) => do
    let _ ← settle r
    throw .displayHelp
  | ("version", none) => do
    let _ ← settle r
    throw .displayVersion
  | ("help", some _) => throw (.tooManyValues "--help")
  | ("version", some _) => throw (.tooManyValues "--version")
  | (name, value) =>
    match options.find? fun o => o.name = name with
    -- An option that waits for its value is not looked at any more.
    | none => throw (.unknownArgument ("--" ++ name))
    | some o =>
      match o.placeholder, value with
      | none, some _ => throw (.tooManyValues o.shown)
      -- From here on the option before this one is complete.
      | none, none => do take (← settle r) o "true"
      | some _, some v => do take (← settle r) o v
      | some _, none => do pure { ← settle r with pending := some (o, none) }

/-- Reads a word that starts with one hyphen: `-h` and `-V` are the only ones known. -/
def short (r : Reading δ) (c : Char) : Except UsageError (Reading δ) := do
  if c = 'h' then
    let _ ← settle r
    throw .displayHelp
  else if c = 'V' then
    let _ ← settle r
    throw .displayVersion
  else throw (.unknownArgument (String.ofList ['-', c]))

/-- Reads a word that is no option: the value of the option before it, if that waits for one. -/
def plain (r : Reading δ) (word : String) : Except UsageError (Reading δ) :=
  match r.pending with
  | some (o, none) => .ok { r with pending := some (o, some word) }
  | _ => .error (.unknownArgument word)

/-- Reads one word. -/
def word (options : List (Opt δ)) (r : Reading δ) (w : String) : Except UsageError (Reading δ) :=
  if r.ended then .error (.unknownArgument w)
  else
    match w.toList with
    | ['-', '-'] => .ok { r with ended := true }
    | '-' :: '-' :: rest => long options r rest
    | '-' :: c :: _ => short r c
    | _ => plain r w

/-- Takes an option from the environment, if no word gave it and its variable is set. -/
def fromEnvironment (env : List (String × String)) (r : Reading δ) (o : Opt δ) :
    Except UsageError (Reading δ) :=
  if o.name ∈ r.given then .ok r
  else
    match env.lookup o.envName with
    | none => .ok r
    | some value =>
      match o.read value with
      | some f => .ok { r with draft := f r.draft, given := o.name :: r.given }
      | none => .error (match o.placeholder with
        | some _ => .valueValidation o.shown
        | none => .invalidValue o.shown)

/-- Reads words, and then the environment for the options they do not give. -/
def parse (options : List (Opt δ)) (draft : δ) (words : List String)
    (env : List (String × String)) : Except UsageError δ := do
  let r ← words.foldlM (word options) ⟨draft, [], none, false⟩
  let r ← settle r
  let r ← options.foldlM (fromEnvironment env) r
  let missing := options.filter fun o => o.required && o.name ∉ r.given
  if missing.isEmpty then pure r.draft else throw (.missingRequired (missing.map Opt.shown))

end CommandLine

end PeerCache.Config
