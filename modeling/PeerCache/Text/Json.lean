/-!
# PeerCache — compact JSON

The part of JSON that a report needs: texts, unsigned numbers, lists and objects, written without
blanks and with the fields in the order given. In a text only the quote, the backslash and the
control characters are escaped.
-/

namespace PeerCache.Text

/-- A value of a report. -/
inductive Json where
  | text (s : String)
  | number (n : Nat)
  | list (items : List Json)
  | object (fields : List (String × Json))

namespace Json

/-- A character as it stands inside a text. -/
def escapedChar (c : Char) : String :=
  if c = '"' then "\\\""
  else if c = '\\' then "\\\\"
  else if c.toNat = 0x08 then "\\b"
  else if c.toNat = 0x09 then "\\t"
  else if c.toNat = 0x0A then "\\n"
  else if c.toNat = 0x0C then "\\f"
  else if c.toNat = 0x0D then "\\r"
  else if c.toNat < 0x20 then
    "\\u00" ++ (if c.toNat < 0x10 then "0" else "") ++ String.ofList (Nat.toDigits 16 c.toNat)
  else String.singleton c

/-- A text in quotes. -/
def quote (s : String) : String :=
  "\"" ++ String.join (s.toList.map escapedChar) ++ "\""

mutual

/-- The compact text of a value. -/
def render : Json → String
  | text s => quote s
  | number n => toString n
  | list items => "[" ++ ",".intercalate (renderItems items) ++ "]"
  | object fields => "\x7b" ++ ",".intercalate (renderFields fields) ++ "\x7d"

/-- The texts of the members of a list. -/
def renderItems : List Json → List String
  | [] => []
  | v :: rest => render v :: renderItems rest

/-- The texts of the fields of an object. -/
def renderFields : List (String × Json) → List String
  | [] => []
  | (name, v) :: rest => (quote name ++ ":" ++ render v) :: renderFields rest

end

end Json

end PeerCache.Text
