import TrigPainting.Decimal.Layout
import TrigPainting.Text.Quoted

/-!
# JSON documents

## Main definitions

- `Json` — a document; the fields of an object keep their order
- `Json.compact` — the text on one line, without blanks
- `Json.pretty` — the text with one item or field a line, indented by two
-/

namespace TrigPainting

/-- A JSON document. Whole numbers are kept apart from the numbers that are
written with a point or an exponent. -/
inductive Json where
  | null
  | bool (value : Bool)
  | integer (value : Int)
  | number (value : Float)
  | string (value : String)
  | array (items : List Json)
  | object (fields : List (String × Json))
deriving Inhabited

namespace Json

/-- A natural number as a document. -/
def nat (n : Nat) : Json := integer n

/-- The text of a whole number. -/
def integerText (n : Int) : String :=
  if n < 0 then "-" ++ Decimal.naturalText n.natAbs else Decimal.naturalText n.natAbs

/-- The text of a document that holds no other. -/
def atomText : Json → String
  | null => "null"
  | bool true => "true"
  | bool false => "false"
  | integer n => integerText n
  | number x => Decimal.json.write x
  | string s => Text.quote s
  | _ => ""

mutual

/-- The text of a document on one line, without blanks. -/
def compact : Json → String
  | array items => "[" ++ compactItems items ++ "]"
  | object fields => "\x7b" ++ compactFields fields ++ "\x7d"
  | atom => atom.atomText

/-- Items, separated by commas. -/
def compactItems : List Json → String
  | [] => ""
  | [item] => item.compact
  | item :: items => item.compact ++ "," ++ compactItems items

/-- Fields, separated by commas. -/
def compactFields : List (String × Json) → String
  | [] => ""
  | [(key, value)] => Text.quote key ++ ":" ++ value.compact
  | (key, value) :: fields =>
    Text.quote key ++ ":" ++ value.compact ++ "," ++ compactFields fields

end

/-- A line break and the indentation of a nesting level. -/
def breakLine (level : Nat) : String :=
  String.ofList ('\n' :: List.replicate (2 * level) ' ')

mutual

/-- The text of a document at a nesting level, one item or field a line. -/
def prettyAt (level : Nat) : Json → String
  | array [] => "[]"
  | array items => "[" ++ prettyItems (level + 1) items ++ breakLine level ++ "]"
  | object [] => "\x7b\x7d"
  | object fields => "\x7b" ++ prettyFields (level + 1) fields ++ breakLine level ++ "\x7d"
  | atom => atom.atomText

/-- Items, each on a line of its own. -/
def prettyItems (level : Nat) : List Json → String
  | [] => ""
  | [item] => breakLine level ++ prettyAt level item
  | item :: items => breakLine level ++ prettyAt level item ++ "," ++ prettyItems level items

/-- Fields, each on a line of its own. -/
def prettyFields (level : Nat) : List (String × Json) → String
  | [] => ""
  | [(key, value)] => breakLine level ++ Text.quote key ++ ": " ++ prettyAt level value
  | (key, value) :: fields =>
    breakLine level ++ Text.quote key ++ ": " ++ prettyAt level value ++ "," ++
      prettyFields level fields

end

/-- The text of a document, one item or field a line. -/
def pretty (json : Json) : String :=
  json.prettyAt 0

/-- The value of a field. -/
def field? (key : String) : Json → Option Json
  | object fields => fields.lookup key
  | _ => none

/-- What a document is, in words; text goes by its quoted form. -/
def kind : Json → String
  | null => "null"
  | bool true => "boolean " ++ "`true`"
  | bool false => "boolean " ++ "`false`"
  | integer n => "integer `" ++ integerText n ++ "`"
  | number x => "floating point `" ++ Decimal.pointed.write x ++ "`"
  | string s => "string " ++ Text.quote s
  | array _ => "sequence"
  | object _ => "map"

end Json

end TrigPainting
