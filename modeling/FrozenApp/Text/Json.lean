import FrozenApp.Text.Quoted
/-!
# JSON texts

Reports are written as JSON, indented by two spaces for each level. Members of
an object stand in the order they are given.
-/

namespace FrozenApp.Text

/-- The JSON values that reports are made of. -/
inductive Json where
  | null
  | bool (value : Bool)
  | number (value : Nat)
  | string (value : String)
  | list (items : List Json)
  | object (members : List (String × Json))

namespace Json

/-- A character as it stands in a JSON string. -/
def escapeChar (c : Char) : String :=
  if c = '"' then "\\\""
  else if c = '\\' then "\\\\"
  else if c = '\n' then "\\n"
  else if c = '\r' then "\\r"
  else if c = '\t' then "\\t"
  else if c = '\x08' then "\\b"
  else if c = '\x0C' then "\\f"
  else if c.toNat < 0x20 then "\\u00" ++ hexByte (UInt8.ofNat c.toNat)
  else String.singleton c

/-- A JSON string. -/
def quoted (s : String) : String :=
  "\"" ++ String.join (s.toList.map escapeChar) ++ "\""

/-- The start of a line at a level. -/
def indent (level : Nat) : String :=
  String.ofList (List.replicate (2 * level) ' ')

/-- Texts on lines of their own, one level further in, between brackets. -/
def enclose (level : Nat) (left right : String) (texts : List String) : String :=
  if texts.isEmpty then left ++ right
  else
    left ++ "\n" ++ ",\n".intercalate (texts.map (indent (level + 1) ++ ·)) ++ "\n" ++
      indent level ++ right

mutual

/-- The text of a value whose first line stands at a level. -/
def pretty (level : Nat) : Json → String
  | null => "null"
  | bool value => if value then "true" else "false"
  | number value => toString value
  | string value => quoted value
  | list items => enclose level "[" "]" (prettyItems (level + 1) items)
  | object members => enclose level "\x7b" "\x7d" (prettyMembers (level + 1) members)

/-- The texts of the items of a list. -/
def prettyItems (level : Nat) : List Json → List String
  | [] => []
  | item :: rest => pretty level item :: prettyItems level rest

/-- The texts of the members of an object. -/
def prettyMembers (level : Nat) : List (String × Json) → List String
  | [] => []
  | (name, value) :: rest =>
    (quoted name ++ ": " ++ pretty level value) :: prettyMembers level rest

end

end Json

end FrozenApp.Text
