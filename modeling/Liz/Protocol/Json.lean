import Liz.Base.Text

/-!
# JSON values

The arguments and the results of tool calls. The fields of an object stand in the order of its map,
and a number that is not an integer is kept as the text it is written as.
-/

namespace Liz

inductive Json
  | null
  | bool (value : Bool)
  | natural (value : Nat)
  | negative (magnitude : Nat)
  | float (literal : String)
  | string (value : String)
  | array (items : List Json)
  | object (fields : List (String × Json))

/-- The reader of JSON texts: the value of a text, with the repeated fields of its objects, or what
is wrong with it, and what is said about a value of the wrong shape. -/
class JsonText where
  parse : String → Except String Json
  mismatch : Json → String

/-- A reader that knows no text. -/
@[reducible] def noJson : JsonText :=
  ⟨fun _ => .error "expected value at line 1 column 1", fun _ => "invalid type"⟩

namespace Json

/-- The field of an object; other values have none. -/
def get? : Json → String → Option Json
  | object fields, field => fields.lookup field
  | _, _ => none

def asStr : Json → Option String
  | string value => some value
  | _ => none

def asBool : Json → Option Bool
  | bool value => some value
  | _ => none

def asU64 : Json → Option Nat
  | natural value => some value
  | _ => none

def asArray : Json → Option (List Json)
  | array items => some items
  | _ => none

/-- The items of a field that holds an array. -/
def itemsAt (value : Json) (field : String) : List Json :=
  ((value.get? field).bind asArray).getD []

/-- The text of a field that holds one. -/
def textAt (value : Json) (field : String) : Option String := (value.get? field).bind asStr

/-- The fields in the order of their names; a field that is there already is left as it is. -/
def insertField (name : String) (value : Json) : List (String × Json) → List (String × Json)
  | [] => [(name, value)]
  | (other, held) :: rest =>
      if name = other then (other, held) :: rest
      else if name < other then (name, value) :: (other, held) :: rest
      else (other, held) :: insertField name value rest

mutual

/-- A value as it is kept in a map: of a repeated field the last value. -/
def mapped : Json → Json
  | array items => array (mappedItems items)
  | object fields => object (mappedFields fields)
  | value => value

def mappedItems : List Json → List Json
  | [] => []
  | item :: rest => mapped item :: mappedItems rest

def mappedFields : List (String × Json) → List (String × Json)
  | [] => []
  | (name, value) :: rest => insertField name (mapped value) (mappedFields rest)

end

/-- The name of a variant without data: a string, or an object whose one field holds nothing. -/
def unitVariant : Json → Option String
  | string name => some name
  | object [(name, null)] => some name
  | _ => none

/-- What a structure reads for each of its fields: an object may leave a field out, ignores what it
does not know and rejects a repeated field; an array lists the fields in their order. -/
def structFields (names : List String) : Json → Option (List (Option Json))
  | object fields => names.mapM fun name =>
      match fields.filter (·.1 == name) with
      | [] => some none
      | [(_, value)] => some (some value)
      | _ => none
  | array items =>
      if items.length ≤ names.length then
        some (items.map some ++ List.replicate (names.length - items.length) none)
      else none
  | _ => none

/-- `Option` of something: `null` is nothing. -/
def optionally {α : Type} (decode : Json → Option α) : Json → Option (Option α)
  | null => some none
  | value => (decode value).map some

def decodeList {α : Type} (decode : Json → Option α) : Json → Option (List α)
  | array items => items.mapM decode
  | _ => none

/-- A field with a default. -/
def orDefault {α : Type} (default : α) (decode : Json → Option α) : Option Json → Option α
  | none => some default
  | some value => decode value

/-- `{:04x}` of a control character. -/
def hexEscape (c : Char) : String :=
  "\\u" ++ String.ofList ((Nat.toDigits 16 c.toNat).leftpad 4 '0')

def escapeChar (c : Char) : String :=
  if c = '"' then "\\\""
  else if c = '\\' then "\\\\"
  else if c = '\n' then "\\n"
  else if c = '\r' then "\\r"
  else if c = '\t' then "\\t"
  else if c.toNat = 8 then "\\b"
  else if c.toNat = 12 then "\\f"
  else if c.toNat < 32 then hexEscape c
  else String.singleton c

/-- The value of a JSON text. -/
def ofText? [JsonText] (text : String) : Option Json := (JsonText.parse text).toOption.map mapped

def renderString (s : String) : String :=
  "\"" ++ Text.join (s.toList.map escapeChar) "" ++ "\""

mutual

/-- The compact text of a value. -/
def render : Json → String
  | null => "null"
  | bool value => if value then "true" else "false"
  | natural value => Nat.repr value
  | negative magnitude => "-" ++ Nat.repr magnitude
  | float literal => literal
  | string value => renderString value
  | array items => "[" ++ Text.join (renderItems items) "," ++ "]"
  | object fields => "\x7b" ++ Text.join (renderFields fields) "," ++ "\x7d"

def renderItems : List Json → List String
  | [] => []
  | item :: rest => render item :: renderItems rest

def renderFields : List (String × Json) → List String
  | [] => []
  | (field, value) :: rest => (renderString field ++ ":" ++ render value) :: renderFields rest

end

end Json

end Liz
