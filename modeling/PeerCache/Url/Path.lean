import PeerCache.Url.Scheme
import PeerCache.Url.Encode
/-!
# PeerCache — paths of a URL

A path is built one segment after another. A segment `.` stands for nothing and a segment `..`
takes the segment before it away; both may be spelled with `%2e`. In a `file` URL a segment like
`C:` is a drive, which is never taken away; at the root it may also be written `C|`.

A path is empty or starts with a slash. A segment comes as a text in which tabs and line ends may
stand; `Path.spell` says how it is written, and `Path.append` what one more segment does to a path.
-/

namespace PeerCache.Url.Path

/-- Whether a segment stands for nothing. -/
def isSingleDot (seg : List Char) : Bool :=
  seg.map Char.toLower ∈ [['.'], ['%', '2', 'e']]

/-- Whether a segment takes the one before it away. -/
def isDoubleDot (seg : List Char) : Bool :=
  seg.map Char.toLower ∈
    [['.', '.'], ['.', '%', '2', 'e'], ['%', '2', 'e', '.'], ['%', '2', 'e', '%', '2', 'e']]

/-- Whether a text starts like a drive: a letter, a colon or bar, and then its end or the end of a
segment. -/
def startsWithDrive : List Char → Bool
  | letter :: mark :: rest =>
    letter.isAlpha && (mark = ':' || mark = '|')
      && (match rest with
          | [] => true
          | c :: _ => c ∈ ['/', '\\', '?', '#'])
  | _ => false

/-- Whether a segment is a drive. -/
def isDrive (seg : List Char) : Bool := seg.length = 2 && startsWithDrive seg

/-- Whether a segment is a drive written with a colon. -/
def isPlainDrive (seg : List Char) : Bool := isDrive seg && seg[1]? = some ':'

/-- How a segment reads at the root of a `file` path: the bar of a drive becomes a colon, and what
follows a drive that is set off from it becomes a segment of its own. -/
def rootSegment (setOff : Bool) (seg : List Char) : List Char :=
  match seg with
  | letter :: mark :: rest =>
    if isDrive seg then [letter, ':']
    else if setOff && isPlainDrive [letter, mark] then letter :: mark :: '/' :: rest
    else seg
  | _ => seg

/-- The written form of a segment behind a path. A character that is dropped sets off the first
two characters if it stands right behind them. -/
def spell (kind : SchemeKind) (set : EncodeSet) (path text : List Char) : List Char :=
  let seg := encode set (kept text)
  if kind = .file && path = ['/'] then rootSegment ((behind 2 text).head?.any isDropped) seg
  else seg

/-- What stands after the last slash of a path. -/
def lastSegment (path : List Char) : List Char := (path.reverse.takeWhile (· ≠ '/')).reverse

/-- A path up to its last slash, which is kept. -/
def upToLastSlash (path : List Char) : List Char := (path.reverse.dropWhile (· ≠ '/')).reverse

/-- Whether the slash at the end of a path may go: it is not the first one, and no drive stands
in front of it. -/
def canDropSlash (path : List Char) : Bool :=
  let front := path.dropLast
  '/' ∈ front && !startsWithDrive (lastSegment front ++ ['/'])

/-- Takes the last segment away and keeps the slash in front of it. -/
def shorten (kind : SchemeKind) (path : List Char) : List Char :=
  if kind = .file && isPlainDrive (lastSegment path) then path else upToLastSlash path

/-- A path after a segment; `slash` tells whether a slash follows it. -/
def append (kind : SchemeKind) (path seg : List Char) (slash : Bool) : List Char :=
  let close : List Char := if slash then ['/'] else []
  if isDoubleDot seg then
    -- The slash at the end closes the segment that is taken away.
    let front := if path.getLast? = some '/' && canDropSlash path then path.dropLast else path
    let p := shorten kind front
    if slash && p.getLast? ≠ some '/' then p ++ ['/'] else p
  else if isSingleDot seg then
    if path.getLast? = some '/' then path else path ++ ['/']
  else path ++ seg ++ close

/-- A `file` path has one slash in front. -/
def normalize (kind : SchemeKind) (path : List Char) : List Char :=
  if kind = .file then '/' :: path.dropWhile (· = '/') else path

/-- Whether a character ends a segment of a URL that is being read. -/
def isSlash (kind : SchemeKind) (c : Char) : Bool := c = '/' || (kind.isSpecial && c = '\\')

/-- Appends the segments of a text, which slashes separate. -/
def appendAll (kind : SchemeKind) : List Char → List (List Char) → List Char
  | path, [] => path
  | path, [text] => append kind path (spell kind EncodeSet.path path text) false
  | path, text :: rest =>
    appendAll kind (append kind path (spell kind EncodeSet.path path text) true) rest

/-- Whether one of the segments of a text is a drive when it is appended at the root of a path. -/
def meetsDrive (kind : SchemeKind) : List Char → List (List Char) → Bool
  | _, [] => false
  | path, text :: rest =>
    let seg := spell kind EncodeSet.path path text
    path = ['/'] && isDrive seg || meetsDrive kind (append kind path seg true) rest

/-- Appends a text to a path. -/
def read (kind : SchemeKind) (path cs : List Char) : List Char :=
  normalize kind (appendAll kind path (cs.splitOnP (isSlash kind)))

/-- Drops the last segment if it is empty. -/
def popIfEmpty (path : List Char) : List Char :=
  if 1 < path.length && path.getLast? = some '/' then path.dropLast else path

/-- Appends one segment, encoded so that it stays one. A segment that is a dot or two dots is
left out. -/
def push (kind : SchemeKind) (path text : List Char) : List Char :=
  if text = ['.'] || text = ['.', '.'] then path
  else
    -- A path that is only a slash has no segment yet.
    let front := if path = ['/'] then path else path ++ ['/']
    let seg := spell kind (EncodeSet.segment kind.isSpecial) front text
    normalize kind (append kind front seg false)

end PeerCache.Url.Path
