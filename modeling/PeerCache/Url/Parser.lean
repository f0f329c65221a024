import PeerCache.Url.Basic
/-!
# PeerCache — reading URLs

`Url.parse` reads an absolute URL. Blanks and controls around it are dropped, and so are tabs and
line ends inside, though these can still set off a drive. What follows the scheme reads in one of
three ways, by the kind of the scheme:

* a web scheme has an authority, however many slashes stand in front of it;
* `file` has a host only after two slashes, and a drive in its place is none;
* any other scheme has an authority after two slashes; otherwise its path has segments if it
  starts with a slash and is a text of its own if it does not.

A question mark or a number sign ends all of that; the query and the fragment come after it.
-/

namespace PeerCache.Url

/-- A text without the blanks and controls around it. -/
def trimmed (s : String) : List Char :=
  let blank := fun (c : Char) => c.toNat ≤ 0x20
  ((s.toList.dropWhile blank).reverse.dropWhile blank).reverse

/-- Whether a character can stand in a scheme after its first letter. -/
def isSchemeChar (c : Char) : Bool := c.isAlphanum || c = '+' || c = '-' || c = '.'

/-- The scheme in lower case and what follows its colon. -/
def readScheme? (cs : List Char) : Option (String × List Char) :=
  match kept cs with
  | [] => none
  | first :: _ =>
    if first.isAlpha then
      match cutAt (fun c => !isSchemeChar c) (kept cs) with
      | (scheme, ':' :: _) =>
        some (String.ofList (scheme.map Char.toLower), behind (scheme.length + 1) cs)
      | _ => none
    else none

/-! ## Authorities -/

/-- What stands in front of the last at sign, if there is one, and what follows it. -/
def splitUserinfo (cs : List Char) : Option (List Char) × List Char :=
  if '@' ∈ cs then
    let (back, front) := cutAt (· = '@') cs.reverse
    (some (front.drop 1).reverse, back.reverse)
  else (none, cs)

/-- The user name and the password that stand in front of an at sign. An empty password is
none. -/
def readUserinfo (cs : List Char) : String × Option String :=
  let (name, rest) := cutAt (· = ':') cs
  let text := fun (part : List Char) => String.ofList (encode EncodeSet.userinfo part)
  (text name, if rest.drop 1 = [] then none else some (text (rest.drop 1)))

/-- Cuts at the colon in front of the port: the first one that stands outside brackets. -/
def splitPort (inside : Bool) : List Char → List Char × Option (List Char)
  | [] => ([], none)
  | c :: rest =>
    if c = ':' ∧ !inside then ([], some rest)
    else
      let (host, port) := splitPort (if c = '[' then true else if c = ']' then false else inside)
        rest
      (c :: host, port)

/-- Reads a port up to a backslash; the answer has what is left from there. The default port of
the scheme reads as none. -/
def readPort (scheme : String) (cs : List Char) : Except ParseError (Option Nat × List Char) :=
  let (digits, left) := cutAt (· = '\\') cs
  if digits.all Char.isDigit then
    let n := digits.foldl (fun n c => n * 10 + (c.toNat - 48)) 0
    if 65535 < n then .error .invalidPort
    else if digits.isEmpty || defaultPort? scheme = some n then .ok (none, left)
    else .ok (some n, left)
  else .error .invalidPort

/-- Reads an authority. `followed` tells whether anything stands after it. The answer has what is
left of the text behind the port. -/
def readAuthority (scheme : String) (cs : List Char) (followed : Bool) :
    Except ParseError (Authority × List Char) := do
  let (userinfo, rest) := splitUserinfo cs
  -- An at sign with nothing around it leaves no host, whatever the scheme.
  if userinfo = some [] ∧ rest = [] ∧ followed then throw .emptyHost
  let (username, password) := readUserinfo (userinfo.getD [])
  let (hostText, portText) := splitPort false rest
  let host ←
    if SchemeKind.of scheme = .web then
      if hostText.isEmpty then throw ParseError.emptyHost
      else some <$> Host.parse hostText
    else do
      let host ← Host.parseOpaque hostText
      pure (if host = .domain "" then none else some host)
  -- Neither a port nor a user can stand without a host.
  if host.isNone ∧ portText.isSome then throw .emptyHost
  let (port, left) ← match portText with
    | some p => readPort scheme p
    | none => pure (none, [])
  let a : Authority := { username, password, host, port }
  if host.isNone ∧ a.hasUserinfo then throw .emptyHost
  pure (a, left)

/-! ## The three ways -/

/-- The authority and the path of a URL with a web scheme. -/
def readWeb (scheme : String) (cs : List Char) (followed : Bool) :
    Except ParseError (Option Authority × List Char) := do
  let slash := Path.isSlash .web
  let (authority, path) := cutAt slash (cs.dropWhile slash)
  let (a, _) ← readAuthority scheme authority (followed || path ≠ [])
  pure (some a, Path.read .web ['/'] (path.drop 1))

/-- The host of a `file` URL after two slashes, and the rest. A drive is no host. -/
def readFileHost (cs : List Char) : Except ParseError (Option Host × List Char) := do
  let (hostText, path) := cutAt (Path.isSlash .file) cs
  if Path.isDrive (kept hostText) then pure (none, cs)
  else if (kept hostText).isEmpty then pure (none, path)
  else
    match ← Host.parse (kept hostText) with
    | .domain "localhost" => pure (none, path)
    | host => pure (some host, path)

/-- The authority and the path of a `file` URL. -/
def readFile (cs : List Char) : Except ParseError (Option Authority × List Char) := do
  let authority := fun (host : Option Host) =>
    some { username := "", password := none, host := host, port := none : Authority }
  match (((kept cs).take 2).takeWhile (Path.isSlash .file)).length with
  | 0 => pure (authority none, Path.read .file ['/'] cs)
  | 1 => pure (authority none, Path.read .file [] cs)
  | _ =>
    let (host, path) ← readFileHost (behind 2 cs)
    -- A drive at the root makes the URL one of this machine.
    let segments := if host.isSome then path.drop 1 else path
    let atDrive := Path.meetsDrive .file ['/'] (segments.splitOnP (Path.isSlash .file))
    let host := if atDrive then none else host
    pure (authority host, Path.read .file ['/'] segments)

/-- The authority and the path of a URL with any other scheme. -/
def readOther (scheme : String) (cs : List Char) (followed : Bool) :
    Except ParseError (Option Authority × List Char) := do
  match cs with
  | '/' :: '/' :: rest =>
    let (authority, path) := cutAt (· = '/') rest
    let (a, left) ← readAuthority scheme authority (followed || path ≠ [])
    let segments := left ++ path
    pure (some a,
      -- Only these schemes can have an empty path.
      if segments.isEmpty then []
      else Path.read .other (if segments.head? = some '/' then [] else ['/']) segments)
  | '/' :: rest => pure (none, Path.read .other ['/'] rest)
  | _ => pure (none, encode EncodeSet.controls cs)

/-! ## The whole -/

/-- The query and the fragment. -/
def readTail (kind : SchemeKind) (cs : List Char) : Option String × Option String :=
  let (query, fragment) := cutAt (· = '#') cs
  let text := fun (set : EncodeSet) (part : List Char) => String.ofList (encode set (part.drop 1))
  (if query.isEmpty then none else some (text (EncodeSet.query kind.isSpecial) query),
    if fragment.isEmpty then none else some (text EncodeSet.fragment fragment))

/-- Reads an absolute URL. -/
def parse (s : String) : Except ParseError Url := do
  match readScheme? (trimmed s) with
  | none => throw .relativeWithoutBase
  | some (scheme, rest) =>
    let kind := SchemeKind.of scheme
    let (main, tail) := cutAt (fun c => c = '?' || c = '#') rest
    let (authority, path) ← match kind with
      | .web => readWeb scheme (kept main) (tail ≠ [])
      | .file => readFile main
      | .other => readOther scheme (kept main) (tail ≠ [])
    let (query, fragment) := readTail kind (kept tail)
    pure {
      scheme := scheme
      authority := authority
      path := path
      shielded := authority.isNone && path.take 2 = ['/', '/']
      query := query
      fragment := fragment }

end PeerCache.Url
