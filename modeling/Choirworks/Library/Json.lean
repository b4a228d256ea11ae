import Choirworks.Library.Table
import Choirworks.Library.Text

/-!
JSON values and the conversions that a reader of untyped data applies to their
fields. How the host language shows a value and reads a number are parameters;
a number is a natural one. Codecs are put together from their fields by
`codec_list` and, for maps that are stored as lists, `of_list_rows`.
-/

namespace Choirworks

universe u v

inductive Json where
  | null
  | bool (value : Bool)
  | number (value : Nat)
  | string (value : String)
  | array (items : List Json)
  | object (fields : List (String × Json))

namespace Json

/-- What the host language does with a value. -/
structure Host where
  repr : Json → String
  parseInt : String → Except String Nat

def typeName : Json → String
  | .null => "NoneType"
  | .bool _ => "bool"
  | .number _ => "int"
  | .string _ => "str"
  | .array _ => "list"
  | .object _ => "dict"

/-- The fields of an object; nothing else has any. -/
def fields : Json → Except String (List (String × Json))
  | .object fields => .ok fields
  | other => .error ("'" ++ other.typeName ++ "' object has no attribute 'get'")

def get? (fields : List (String × Json)) (name : String) : Option Json :=
  (fields.find? fun field => field.1 = name).map Prod.snd

/-- `str(value)`. -/
def str (host : Host) : Json → String
  | .string value => value
  | other => host.repr other

/-- `int(value)`. -/
def int (host : Host) : Json → Except String Nat
  | .number value => .ok value
  | .bool value => .ok value.toNat
  | .string text => host.parseInt text
  | other => .error ("int() argument must be a string, a bytes-like object or a real number, not '" ++
      other.typeName ++ "'")

/-- `bool(value)`. -/
def truth : Json → Bool
  | .null => false
  | .bool value => value
  | .number value => value != 0
  | .string value => value != ""
  | .array items => !items.isEmpty
  | .object fields => !fields.isEmpty

/-- What a loop over the value runs through. -/
def items : Json → Except String (List Json)
  | .array items => .ok items
  | .string text => .ok (text.toList.map fun char => .string char.toString)
  | .object fields => .ok (fields.map fun field => .string field.1)
  | other => .error ("'" ++ other.typeName ++ "' object is not iterable")

/-- A missing field is read as the default. -/
def strField (host : Host) (fields : List (String × Json)) (name fallback : String) : String :=
  ((get? fields name).map (str host)).getD fallback

def intField (host : Host) (fields : List (String × Json)) (name : String) (fallback : Nat) :
    Except String Nat :=
  ((get? fields name).map (int host)).getD (.ok fallback)

def boolField (fields : List (String × Json)) (name : String) (fallback : Bool) : Bool :=
  ((get? fields name).map truth).getD fallback

def itemsField (fields : List (String × Json)) (name : String) : Except String (List Json) :=
  ((get? fields name).map items).getD (.ok [])

/-- A field that is kept as it is; the typed record holds a text or nothing. -/
def optionalField (fields : List (String × Json)) (name : String) : Except String (Option String) :=
  match get? fields name with
  | none | some .null => .ok none
  | some (.string value) => .ok (some value)
  | some other => .error ("'" ++ other.typeName ++ "' object in the text field '" ++ name ++ "'")

/-- `[str(item) for item in data.get(name, [])]`. -/
def strsField (host : Host) (fields : List (String × Json)) (name : String) :
    Except String (List String) :=
  (itemsField fields name).map (List.map (str host))

/-- A member of a string enumeration by its value. -/
def enumField {Member : Type u} (host : Host) (title : String) (members : List Member)
    (value : Member → String) (fields : List (String × Json)) (name : String) (fallback : Member) :
    Except String Member :=
  match get? fields name with
  | none => .ok fallback
  | some (.string text) =>
      match members.find? fun candidate => value candidate = text with
      | some found => .ok found
      | none => .error (host.repr (.string text) ++ " is not a valid " ++ title)
  | some other => .error (host.repr other ++ " is not a valid " ++ title)

def ofOptional : Option String → Json
  | none => .null
  | some value => .string value

def ofStrings (values : List String) : Json := .array (values.map .string)

/-! ### The text of a value -/

/-- The escapes of a text that keeps its characters beyond ASCII: quotation mark,
backslash and the control characters. -/
def escape (char : Char) : List Char :=
  if char.toNat = 34 ∨ char.toNat = 92 then backslash :: [char]
  else if char = '\n' then backslash :: ['n']
  else if char = '\r' then backslash :: ['r']
  else if char = '\t' then backslash :: ['t']
  else if char.toNat = 8 then backslash :: ['b']
  else if char.toNat = 12 then backslash :: ['f']
  else if char.toNat < 32 then
    backslash :: ['u', '0', '0', (char.toNat / 16).digitChar, (char.toNat % 16).digitChar]
  else [char]
where
  backslash : Char := Char.ofNat 92

def quote (text : String) : String :=
  let mark := (Char.ofNat 34).toString
  mark ++ String.ofList (text.toList.flatMap escape) ++ mark

mutual

/-- `json.dumps(value, ensure_ascii=False)`. -/
def dumps : Json → String
  | .null => "null"
  | .bool value => if value then "true" else "false"
  | .number value => toString value
  | .string value => quote value
  | .array items => "[" ++ Text.join ", " (dumpsItems items) ++ "]"
  | .object fields => "\x7b" ++ Text.join ", " (dumpsFields fields) ++ "\x7d"

def dumpsItems : List Json → List String
  | [] => []
  | item :: rest => dumps item :: dumpsItems rest

def dumpsFields : List (String × Json) → List String
  | [] => []
  | (name, value) :: rest => (quote name ++ ": " ++ dumps value) :: dumpsFields rest

end

/-! ### Fields come back -/

section Fields

variable {host : Host} {fields : List (String × Json)} {name fallback : String}

theorem str_field_string {value : String} (stored : get? fields name = some (.string value)) :
    strField host fields name fallback = value := by
  simp [strField, stored, str]

theorem int_field_number {value fallback : Nat} (stored : get? fields name = some (.number value)) :
    intField host fields name fallback = .ok value := by
  simp [intField, stored, int]

theorem optional_field_optional {value : Option String}
    (stored : get? fields name = some (ofOptional value)) :
    optionalField fields name = .ok value := by
  cases value <;> simp [optionalField, stored, ofOptional]

theorem items_field_array {items : List Json} (stored : get? fields name = some (.array items)) :
    itemsField fields name = .ok items := by
  simp [itemsField, stored, Json.items]

theorem strs_field_strings {values : List String}
    (stored : get? fields name = some (ofStrings values)) :
    strsField host fields name = .ok values := by
  rw [strsField, items_field_array stored]
  simp [Except.map, Function.comp_def, str]

/-- The members of an enumeration differ in their values. -/
theorem enum_field_value {Member : Type u} {title : String} {members : List Member}
    {value : Member → String} {fallback : Member}
    (listed : ∀ candidate, candidate ∈ members) (distinct : Function.Injective value)
    {member : Member} (stored : get? fields name = some (.string (value member))) :
    enumField host title members value fields name fallback = .ok member := by
  have found : members.find? (fun candidate => value candidate = value member) = some member := by
    cases search : members.find? (fun candidate => value candidate = value member) with
    | none => simpa using List.find?_eq_none.mp search member (listed member)
    | some other =>
        have same : value other = value member := by simpa using List.find?_some search
        rw [distinct same]
  simp [enumField, stored, found]

end Fields

/-- A list of coded values is read item by item. -/
theorem codec_list {Value : Type u} {Read : Type v} (encode : Value → Json)
    (decode : Json → Except String Read) (result : Value → Read) (values : List Value)
    (each : ∀ value ∈ values, decode (encode value) = .ok (result value)) :
    (values.map encode).mapM decode = .ok (values.map result) := by
  induction values with
  | nil => rfl
  | cons value rest ih =>
      rw [List.map_cons, List.mapM_cons, each value List.mem_cons_self,
        ih fun other later => each other (List.mem_cons_of_mem _ later)]
      rfl

end Json

end Choirworks
