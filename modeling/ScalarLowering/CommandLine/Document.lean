set_option autoImplicit false

/- JSON documents made of texts, and their two written forms: compact on one line,
and laid out with one entry a line and two blanks of indentation a level. Objects
are written in the order of their fields. -/

namespace ScalarLowering

inductive Document where
  | null
  | text (s : String)
  | array (items : List Document)
  | object (fields : List (String × Document))

namespace Document

def ofOption : Option String → Document
  | none => .null
  | some s => .text s

def texts (ss : List String) : Document := .array (ss.map .text)

def hexDigit (n : Nat) : Char := Nat.digitChar (n % 16)

/-- A character inside quotes. Quotes, backslashes and control characters are escaped. -/
def escaped (c : Char) : List Char :=
  if c = '"' then ['\\', '"']
  else if c = '\\' then ['\\', '\\']
  else if c = '\n' then ['\\', 'n']
  else if c = '\r' then ['\\', 'r']
  else if c = '\t' then ['\\', 't']
  else if c.toNat = 8 then ['\\', 'b']
  else if c.toNat = 12 then ['\\', 'f']
  else if c.toNat < 32 then ['\\', 'u', '0', '0', hexDigit (c.toNat / 16), hexDigit c.toNat]
  else [c]

def quoted (s : String) : String := "\"" ++ String.ofList (s.toList.flatMap escaped) ++ "\""

mutual

def compact : Document → String
  | .null => "null"
  | .text s => quoted s
  | .array items => "[" ++ String.intercalate "," (compactItems items) ++ "]"
  | .object fields => "\x7b" ++ String.intercalate "," (compactFields fields) ++ "\x7d"

def compactItems : List Document → List String
  | [] => []
  | item :: items => compact item :: compactItems items

def compactFields : List (String × Document) → List String
  | [] => []
  | (name, value) :: fields => (quoted name ++ ":" ++ compact value) :: compactFields fields

end

/-- Entries between two brackets, one a line; no entries leave the brackets together. -/
def block (opening closing indent : String) (entries : List String) : String :=
  if entries.isEmpty then opening ++ closing
  else
    opening ++ "\n" ++ String.intercalate ",\n" (entries.map fun e => indent ++ "  " ++ e) ++
      "\n" ++ indent ++ closing

mutual

/-- The laid out form of a document whose first line is already indented. -/
def pretty (indent : String) : Document → String
  | .null => "null"
  | .text s => quoted s
  | .array items => block "[" "]" indent (prettyItems (indent ++ "  ") items)
  | .object fields => block "\x7b" "\x7d" indent (prettyFields (indent ++ "  ") fields)

def prettyItems (indent : String) : List Document → List String
  | [] => []
  | item :: items => pretty indent item :: prettyItems indent items

def prettyFields (indent : String) : List (String × Document) → List String
  | [] => []
  | (name, value) :: fields =>
    (quoted name ++ ": " ++ pretty indent value) :: prettyFields indent fields

end

/-- The laid out form as a text of its own. -/
def page (d : Document) : String := d.pretty "" ++ "\n"

end Document

end ScalarLowering
