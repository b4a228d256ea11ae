import Choirworks.Library.Surveys
import Mathlib.Algebra.Group.Nat.Defs

/-!
Parsed documents of unknown shape and the conversions that a reader applies to
them, each with the exception it raises and with the survey of its faults. How
the host language shows a value, how deep it can go and which texts it reads as
a number are parameters.
-/

namespace Choirworks

/-- The exceptions by the class that a handler names. -/
inductive Raised where
  | value
  | type
  | attribute
  | overflow
  | recursion
  deriving DecidableEq, Repr

/-- A number with a fraction or an exponent: `significand * 2 ^ exponent`. Parsers of
the host language also read the infinite ones and the one that is not a number. -/
inductive Double where
  | finite (negative : Bool) (significand : Nat) (exponent : Int)
  | infinite (negative : Bool)
  | nan

inductive Untyped where
  | null
  | bool (value : Bool)
  | integer (value : Int)
  | float (value : Double)
  | string (value : String)
  | array (items : List Untyped)
  | object (fields : List (String × Untyped))

namespace Untyped

/-- What the host language does with a value. -/
structure Host where
  repr : Untyped → String
  /-- Showing the value would exceed the recursion limit. -/
  tooDeep : Untyped → Bool
  /-- Nothing where the text is no number. -/
  parseInt : String → Option Int

variable (host : Host)

/-! ### Conversions -/

def get? (fields : List (String × Untyped)) (name : String) : Option Untyped :=
  (fields.find? fun field => field.1 = name).map Prod.snd

/-- What `value.get` looks into; nothing but an object has it. -/
def fields : Untyped → Except Raised (List (String × Untyped))
  | .object fields => .ok fields
  | _ => .error .attribute

/-- `repr(value)`. -/
def shown (value : Untyped) : Except Raised String :=
  if host.tooDeep value then .error .recursion else .ok (host.repr value)

/-- `str(value)`. -/
def str : Untyped → Except Raised String
  | .string text => .ok text
  | other => shown host other

/-- Rounding towards zero. -/
def whole (negative : Bool) (significand : Nat) (exponent : Int) : Int :=
  let magnitude := significand * 2 ^ exponent.toNat / 2 ^ (-exponent).toNat
  if negative then -(magnitude : Int) else magnitude

/-- `int(value)`. -/
def int : Untyped → Except Raised Int
  | .integer value => .ok value
  | .bool value => .ok value.toNat
  | .float (.finite negative significand exponent) => .ok (whole negative significand exponent)
  | .float (.infinite _) => .error .overflow
  | .float .nan => .error .value
  | .string text =>
      match host.parseInt text with
      | some value => .ok value
      | none => .error .value
  | _ => .error .type

/-- `bool(value)`. -/
def truth : Untyped → Bool
  | .null => false
  | .bool value => value
  | .integer value => value != 0
  | .float (.finite _ significand _) => significand != 0
  | .float _ => true
  | .string text => text != ""
  | .array items => !items.isEmpty
  | .object fields => !fields.isEmpty

/-- What a loop over the value runs through. -/
def items : Untyped → Except Raised (List Untyped)
  | .array items => .ok items
  | .string text => .ok (text.toList.map fun char => .string char.toString)
  | .object fields => .ok (fields.map fun field => .string field.1)
  | _ => .error .type

/-- `ValueError` with the value in its message. -/
def invalid {α : Type} (value : Untyped) : Except Raised α :=
  (shown host value).bind fun _ => .error .value

/-- A member of a string enumeration by its value. -/
def member {Member : Type} (members : List Member) (value : Member → String) :
    Untyped → Except Raised Member
  | .string text =>
      match members.find? fun candidate => value candidate = text with
      | some found => .ok found
      | none => .error .value
  | other => invalid host other

/-! ### Fields, with the default for a missing one -/

variable (data : List (String × Untyped)) (name : String)

/-- A field that is kept as it is. -/
def field : Untyped := (get? data name).getD .null

def strField (fallback : String) : Except Raised String :=
  ((get? data name).map (str host)).getD (.ok fallback)

def intField (fallback : Int) : Except Raised Int :=
  ((get? data name).map (int host)).getD (.ok fallback)

def boolField (fallback : Bool) : Bool := ((get? data name).map truth).getD fallback

def memberField {Member : Type} (members : List Member) (value : Member → String)
    (fallback : Member) : Except Raised Member :=
  ((get? data name).map (member host members value)).getD (.ok fallback)

def itemsField : Except Raised (List Untyped) := ((get? data name).map items).getD (.ok [])

/-- `[read(item) for item in value]`. -/
def each {α : Type} (read : Untyped → Except Raised α) (value : Untyped) : Except Raised (List α) := do
  (← items value).mapM read

/-- `[read(item) for item in data.get(name, [])]`. -/
def eachField {α : Type} (read : Untyped → Except Raised α) : Except Raised (List α) := do
  (← itemsField data name).mapM read

/-! ### Surveys -/

/-- Only what is not a text yet has to be shown. -/
def textFaults : Untyped → List Raised
  | .string _ => []
  | other => if host.tooDeep other then [.recursion] else []

def numberFaults : Untyped → List Raised
  | .integer _ | .bool _ | .float (.finite ..) => []
  | .float (.infinite _) => [.overflow]
  | .float .nan => [.value]
  | .string text => if (host.parseInt text).isSome then [] else [.value]
  | .null | .array _ | .object _ => [.type]

def refusal (value : Untyped) : List Raised :=
  [if host.tooDeep value then .recursion else .value]

def memberFaults (texts : List String) : Untyped → List Raised
  | .string text => if text ∈ texts then [] else [.value]
  | other => refusal host other

/-- A text is a list of its characters, an object one of its names. -/
def listFaults (faults : Untyped → List Raised) : Untyped → List Raised
  | .array items => items.flatMap faults
  | .string text => text.toList.flatMap fun char => faults (.string char.toString)
  | .object fields => fields.flatMap fun field => faults (.string field.1)
  | _ => [.type]

/-- A missing field has no fault. -/
def fieldFaults (faults : Untyped → List Raised) : List Raised :=
  ((get? data name).map faults).getD []

/-- The fields of a record in the order of reading, each with its faults. -/
abbrev Schema := List (String × (Untyped → List Raised))

def Schema.faults (schema : Schema) (data : List (String × Untyped)) : List Raised :=
  schema.flatMap fun row => fieldFaults data row.1 row.2

def recordFaults (schema : Schema) : Untyped → List Raised
  | .object data => schema.faults data
  | _ => [.attribute]

/-! ### The conversions follow their surveys -/

variable {host data name}

theorem shown_reports (value : Untyped) :
    Reports (shown host value) (if host.tooDeep value then [.recursion] else []) := by
  rw [shown]
  by_cases deep : host.tooDeep value = true
  · rw [if_pos deep, if_pos deep]
    exact .error _
  · rw [if_neg deep, if_neg deep]
    exact .ok _

theorem str_reports (value : Untyped) : Reports (str host value) (textFaults host value) := by
  cases value with
  | string text => exact .ok text
  | null => exact shown_reports _
  | bool _ => exact shown_reports _
  | integer _ => exact shown_reports _
  | float _ => exact shown_reports _
  | array _ => exact shown_reports _
  | object _ => exact shown_reports _

theorem int_reports (value : Untyped) : Reports (int host value) (numberFaults host value) := by
  cases value with
  | string text => cases parsed : host.parseInt text <;> simp [int, numberFaults, parsed, Reports]
  | float value => cases value <;> rfl
  | _ => rfl

theorem invalid_reports {α : Type} (value : Untyped) :
    Reports (invalid host value : Except Raised α) (refusal host value) := by
  by_cases deep : host.tooDeep value = true <;>
    simp [invalid, shown, refusal, deep, Reports, Except.bind]

theorem member_reports {Member : Type} (members : List Member) (value : Member → String)
    (json : Untyped) :
    Reports (member host members value json) (memberFaults host (members.map value) json) := by
  cases json with
  | string text =>
      rw [member, memberFaults]
      cases found : members.find? fun candidate => value candidate = text with
      | none =>
          have foreign : text ∉ members.map value := by
            simpa [List.find?_eq_none] using found
          rw [if_neg foreign]
          exact .error _
      | some candidate =>
          have same : value candidate = text := by simpa using List.find?_some found
          have known : text ∈ members.map value :=
            List.mem_map.mpr ⟨candidate, List.mem_of_find?_eq_some found, same⟩
          rw [if_pos known]
          exact .ok _
  | null => exact invalid_reports _
  | bool _ => exact invalid_reports _
  | integer _ => exact invalid_reports _
  | float _ => exact invalid_reports _
  | array _ => exact invalid_reports _
  | object _ => exact invalid_reports _

theorem each_reports {α : Type} {read : Untyped → Except Raised α} {faults : Untyped → List Raised}
    (reports : ∀ item, Reports (read item) (faults item)) (value : Untyped) :
    Reports (each read value) (listFaults faults value) := by
  cases value with
  | array items => exact .mapM items faults reports
  | string text =>
      have characters := Reports.mapM (text.toList.map fun char => .string char.toString) faults reports
      rwa [List.flatMap_map] at characters
  | object fields =>
      have names := Reports.mapM (fields.map fun field => .string field.1) faults reports
      rwa [List.flatMap_map] at names
  | _ => rfl

/-- A field is read as its value or as a default that is never at fault. -/
theorem field_reports {α : Type} {read : Untyped → Except Raised α} {faults : Untyped → List Raised}
    (reports : ∀ value, Reports (read value) (faults value)) (fallback : α) :
    Reports (((get? data name).map read).getD (.ok fallback)) (fieldFaults data name faults) := by
  rw [fieldFaults]
  cases get? data name with
  | none => exact .ok fallback
  | some value => exact reports value

theorem str_field_reports (name fallback : String) :
    Reports (strField host data name fallback) (fieldFaults data name (textFaults host)) :=
  field_reports str_reports fallback

theorem int_field_reports (name : String) (fallback : Int) :
    Reports (intField host data name fallback) (fieldFaults data name (numberFaults host)) :=
  field_reports int_reports fallback

theorem member_field_reports {Member : Type} (name : String) (members : List Member)
    (value : Member → String) (fallback : Member) :
    Reports (memberField host data name members value fallback)
      (fieldFaults data name (memberFaults host (members.map value))) :=
  field_reports (member_reports members value) fallback

theorem each_field_reports {α : Type} {read : Untyped → Except Raised α}
    {faults : Untyped → List Raised} (name : String)
    (reports : ∀ item, Reports (read item) (faults item)) :
    Reports (eachField data name read) (fieldFaults data name (listFaults faults)) := by
  have stored : Reports (((get? data name).map (each read)).getD (.ok []))
      (fieldFaults data name (listFaults faults)) :=
    field_reports (each_reports reports) []
  rw [eachField, itemsField]
  cases found : get? data name with
  | none =>
      rw [found] at stored
      exact stored
  | some value =>
      rw [found] at stored
      exact stored

/-- A record is read field by field, in the order of its schema. -/
theorem record_reports {α : Type} {schema : Schema}
    {step : List (String × Untyped) → Except Raised α}
    (reports : ∀ data, Reports (step data) (schema.faults data)) (value : Untyped) :
    Reports (fields value >>= step) (recordFaults schema value) := by
  cases value with
  | object data => exact reports data
  | _ => rfl

end Untyped

end Choirworks
