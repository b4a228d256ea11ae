import Choirworks.Library.Schemas

/-!
`_enforce_strict_openai_schema`: the schema that a provider in strict mode is
given for the structured output of an agent. What it accepts is accepted by the
schema that the answer is validated against afterwards.
-/

namespace Choirworks.LlmFlows

open Schemas (Vocabulary members elements names named placed resolve keyword accepts children Within
  Alike)

/-- `fields[name] = value`. -/
def setField (fields : List (String × Json)) (name : String) (value : Json) :
    List (String × Json) :=
  if fields.any fun field => field.1 = name then
    fields.map fun field => if field.1 = name then (name, value) else field
  else fields ++ [(name, value)]

/-- An object schema with properties is closed, and all of them are required. -/
def closeObject (fields : List (String × Json)) : List (String × Json) :=
  match Json.get? fields "type", Json.get? fields "properties" with
  | some (.string "object"), some properties =>
      let keys := ((members properties).map Prod.fst).mergeSort fun left right => left ≤ right
      setField (setField fields "additionalProperties" (.bool false)) "required"
        (Json.ofStrings keys)
  | _, _ => fields

mutual

/-- `_enforce_strict_openai_schema`; `none` is an exception. What is no object stays as
it is. An object is closed behind the visit, which keeps the names of its properties. -/
def enforceStrict : Json → Option Json
  | .object fields =>
      match Json.get? fields "$ref" with
      | some target => some (.object [("$ref", target)])
      | none => (enforceFields fields).map fun visited => .object (closeObject visited)
  | other => some other

def enforceFields : List (String × Json) → Option (List (String × Json))
  | [] => some []
  | (name, argument) :: rest =>
      let visited : Option Json :=
        match name with
        | "$defs" | "properties" =>
            match argument with
            | .object entries => (enforceEntries entries).map .object
            | _ => none
        | "anyOf" | "oneOf" | "allOf" =>
            match argument with
            | .array items => (enforceItems items).map .array
            -- a loop over a text or over the keys of an object meets no schema
            | .string _ | .object _ => some argument
            | _ => none
        | "items" => enforceStrict argument
        | _ => some argument
      visited.bind fun visited => (enforceFields rest).map fun rest => (name, visited) :: rest

def enforceEntries : List (String × Json) → Option (List (String × Json))
  | [] => some []
  | (name, schema) :: rest =>
      (enforceStrict schema).bind fun visited =>
        (enforceEntries rest).map fun rest => (name, visited) :: rest

def enforceItems : List Json → Option (List Json)
  | [] => some []
  | schema :: rest =>
      (enforceStrict schema).bind fun visited =>
        (enforceItems rest).map fun rest => visited :: rest

end

/-! ### What a visit leaves -/

/-- The argument of a keyword behind the visit. -/
inductive Visits (name : String) : Json → Json → Prop where
  | entries {entries visited : List (String × Json)} (held : name = "$defs" ∨ name = "properties")
      (each : List.Forall₂ (fun entry other => entry.1 = other.1 ∧
        enforceStrict entry.2 = some other.2) entries visited) :
      Visits name (.object entries) (.object visited)
  | items {items visited : List Json} (held : name = "anyOf" ∨ name = "oneOf" ∨ name = "allOf")
      (each : List.Forall₂ (fun item other => enforceStrict item = some other) items visited) :
      Visits name (.array items) (.array visited)
  | schema {schema visited : Json} (held : name = "items")
      (enforced : enforceStrict schema = some visited) : Visits name schema visited
  | kept {argument : Json} (blank : name = "$defs" ∨ name = "properties" ∨ name = "anyOf" ∨
      name = "oneOf" ∨ name = "allOf" ∨ name = "items" → children name argument = []) :
      Visits name argument argument

theorem enforce_entries_each {entries visited : List (String × Json)}
    (enforced : enforceEntries entries = some visited) :
    List.Forall₂ (fun entry other => entry.1 = other.1 ∧
      enforceStrict entry.2 = some other.2) entries visited := by
  induction entries generalizing visited with
  | nil =>
      cases enforced
      exact .nil
  | cons entry rest ih =>
      obtain ⟨first, here, later⟩ := Option.bind_eq_some_iff.mp enforced
      obtain ⟨behind, others, rfl⟩ := Option.map_eq_some_iff.mp later
      exact .cons ⟨rfl, here⟩ (ih others)

theorem enforce_items_each {items visited : List Json}
    (enforced : enforceItems items = some visited) :
    List.Forall₂ (fun item other => enforceStrict item = some other) items visited := by
  induction items generalizing visited with
  | nil =>
      cases enforced
      exact .nil
  | cons item rest ih =>
      obtain ⟨first, here, later⟩ := Option.bind_eq_some_iff.mp enforced
      obtain ⟨behind, others, rfl⟩ := Option.map_eq_some_iff.mp later
      exact .cons here (ih others)

theorem visits_branches {name : String} {argument visited : Json}
    (held : name = "anyOf" ∨ name = "oneOf" ∨ name = "allOf")
    (enforced : (match argument with
      | .array items => (enforceItems items).map .array
      | .string _ | .object _ => some argument
      | _ => none) = some visited) : Visits name argument visited := by
  have blank : elements argument = [] → children name argument = [] := by
    intro none
    rcases held with rfl | rfl | rfl <;> exact none
  cases argument with
  | array items =>
      obtain ⟨visited, each, rfl⟩ := Option.map_eq_some_iff.mp enforced
      exact .items held (enforce_items_each each)
  | string text =>
      cases enforced
      exact .kept fun _ => blank rfl
  | object fields =>
      cases enforced
      exact .kept fun _ => blank rfl
  | null => cases enforced
  | bool value => cases enforced
  | number value => cases enforced

theorem enforce_fields_each {fields visited : List (String × Json)}
    (enforced : enforceFields fields = some visited) :
    List.Forall₂ (fun field other => field.1 = other.1 ∧ Visits field.1 field.2 other.2)
      fields visited := by
  induction fields generalizing visited with
  | nil =>
      cases enforced
      exact .nil
  | cons field rest ih =>
      obtain ⟨name, argument⟩ := field
      unfold enforceFields at enforced
      obtain ⟨first, here, later⟩ := Option.bind_eq_some_iff.mp enforced
      obtain ⟨behind, others, rfl⟩ := Option.map_eq_some_iff.mp later
      refine .cons ⟨rfl, ?_⟩ (ih others)
      dsimp only at here ⊢
      split at here
      · split at here
        · obtain ⟨visited, each, rfl⟩ := Option.map_eq_some_iff.mp here
          exact .entries (.inl rfl) (enforce_entries_each each)
        · cases here
      · split at here
        · obtain ⟨visited, each, rfl⟩ := Option.map_eq_some_iff.mp here
          exact .entries (.inr rfl) (enforce_entries_each each)
        · cases here
      · exact visits_branches (.inl rfl) here
      · exact visits_branches (.inr (.inl rfl)) here
      · exact visits_branches (.inr (.inr rfl)) here
      · exact .schema rfl here
      · cases here
        exact .kept fun held => by simp_all

/-- A first field is visited in its place. -/
theorem get_visited {fields visited : List (String × Json)}
    (each : List.Forall₂ (fun field other => field.1 = other.1 ∧ Visits field.1 field.2 other.2)
      fields visited) (name : String) :
    Option.Rel (Visits name) (Json.get? fields name) (Json.get? visited name) := by
  induction each with
  | nil => exact .none
  | @cons field other rest behind head _ ih =>
      obtain ⟨fieldName, argument⟩ := field
      obtain ⟨otherName, visited⟩ := other
      obtain ⟨rfl, visits⟩ := head
      by_cases here : fieldName = name
      · subst here
        simpa [Json.get?] using Option.Rel.some visits
      · simpa [Json.get?, here] using ih

theorem mem_visited {fields visited : List (String × Json)}
    (each : List.Forall₂ (fun field other => field.1 = other.1 ∧ Visits field.1 field.2 other.2)
      fields visited) {field : String × Json} (listed : field ∈ fields) :
    ∃ other, (field.1, other) ∈ visited ∧ Visits field.1 field.2 other := by
  induction each with
  | nil => cases listed
  | @cons first other _ _ head _ ih =>
      rcases List.mem_cons.mp listed with rfl | later
      · exact ⟨other.2, by simp [head.1], head.2⟩
      · obtain ⟨other, found, visits⟩ := ih later
        exact ⟨other, List.mem_cons_of_mem _ found, visits⟩

theorem visited_source {fields visited : List (String × Json)}
    (each : List.Forall₂ (fun field other => field.1 = other.1 ∧ Visits field.1 field.2 other.2)
      fields visited) {field : String × Json} (listed : field ∈ visited) :
    ∃ argument, Visits field.1 argument field.2 := by
  induction each with
  | nil => cases listed
  | @cons first other _ _ head _ ih =>
      rcases List.mem_cons.mp listed with rfl | later
      · rw [← head.1]
        exact ⟨first.2, head.2⟩
      · exact ih later

/-- The properties keep their names. -/
theorem visits_names {argument visited : Json} (visits : Visits "properties" argument visited) :
    (members visited).map Prod.fst = (members argument).map Prod.fst := by
  cases visits with
  | entries _ each =>
      simp only [members]
      induction each with
      | nil => rfl
      | cons head _ ih => simp [ih, head.1]
  | items held => simp at held
  | schema held => simp at held
  | kept => rfl

theorem named_visited {fields visited : List (String × Json)}
    (each : List.Forall₂ (fun field other => field.1 = other.1 ∧ Visits field.1 field.2 other.2)
      fields visited) (key : String) : named visited key = named fields key := by
  induction each with
  | nil => rfl
  | @cons field other _ _ head _ ih =>
      obtain ⟨name, argument⟩ := field
      obtain ⟨otherName, visited⟩ := other
      obtain ⟨rfl, visits⟩ := head
      simp only [named, List.any_cons] at ih ⊢
      rw [ih]
      by_cases held : name = "properties"
      · subst held
        rw [visits_names visits]
      · simp [held]

theorem placed_visited {fields visited : List (String × Json)}
    (each : List.Forall₂ (fun field other => field.1 = other.1 ∧ Visits field.1 field.2 other.2)
      fields visited) : placed visited = placed fields := by
  have kept := get_visited each "prefixItems"
  unfold placed
  generalize Json.get? fields "prefixItems" = before at kept
  generalize Json.get? visited "prefixItems" = behind at kept
  cases kept with
  | none => rfl
  | some visits =>
      cases visits with
      | entries held => simp at held
      | items held => simp at held
      | schema held => simp at held
      | kept => rfl

/-! ### Fields that are set -/

section Fields

variable {fields : List (String × Json)} {name wanted : String} {value : Json}

theorem mem_set_field (fields : List (String × Json)) (name : String) (value : Json) :
    (name, value) ∈ setField fields name value := by
  unfold setField
  split
  · rename_i known
    obtain ⟨field, listed, same⟩ := List.any_eq_true.mp known
    exact List.mem_map.mpr ⟨field, listed, if_pos (of_decide_eq_true same)⟩
  · simp

theorem mem_set_other {field : String × Json} (other : field.1 ≠ name) :
    field ∈ setField fields name value ↔ field ∈ fields := by
  unfold setField
  split
  · rw [List.mem_map]
    constructor
    · rintro ⟨old, listed, rfl⟩
      split at other
      · exact absurd rfl other
      · rename_i kept
        rwa [if_neg kept]
    · intro listed
      exact ⟨field, listed, if_neg other⟩
  · rw [List.mem_append, List.mem_singleton]
    constructor
    · rintro (listed | rfl)
      · exact listed
      · exact absurd rfl other
    · exact Or.inl

theorem get_set_other (other : wanted ≠ name) :
    Json.get? (setField fields name value) wanted = Json.get? fields wanted := by
  unfold setField
  split
  · rename_i known
    clear known
    induction fields with
    | nil => rfl
    | cons field rest ih =>
        simp only [Json.get?, List.map_cons, List.find?_cons] at ih ⊢
        by_cases here : field.1 = name
        · simpa [here, Ne.symm other] using ih
        · by_cases reached : field.1 = wanted
          · subst reached
            simp [here]
          · simpa [here, reached] using ih
  · simp [Json.get?, List.find?_append, Ne.symm other]

end Fields

section Close

variable {fields : List (String × Json)}

/-- The fields that closing an object sets. -/
def Closing (name : String) : Prop := name = "additionalProperties" ∨ name = "required"

theorem get_close {wanted : String} (other : ¬ Closing wanted) :
    Json.get? (closeObject fields) wanted = Json.get? fields wanted := by
  simp only [Closing, not_or] at other
  unfold closeObject
  split
  · rw [get_set_other other.2, get_set_other other.1]
  · rfl

theorem mem_close {field : String × Json} (other : ¬ Closing field.1) :
    field ∈ closeObject fields ↔ field ∈ fields := by
  simp only [Closing, not_or] at other
  unfold closeObject
  split
  · rw [mem_set_other other.2, mem_set_other other.1]
  · rfl

theorem named_close (key : String) : named (closeObject fields) key = named fields key := by
  rw [Bool.eq_iff_iff]
  simp only [named, List.any_eq_true]
  refine exists_congr fun field => and_congr_left fun held => mem_close ?_
  have name : field.1 = "properties" := by
    simp only [decide_eq_true_eq] at held
    exact held.1
  rw [name]
  simp [Closing]

theorem placed_close : placed (closeObject fields) = placed fields := by
  unfold placed
  rw [get_close (by simp [Closing])]

/-- An object schema with properties is closed, any other left as it is. -/
theorem close_cases (fields : List (String × Json)) :
    closeObject fields = fields ∨ ∃ properties,
      Json.get? fields "type" = some (.string "object") ∧
        Json.get? fields "properties" = some properties ∧
        ("additionalProperties", .bool false) ∈ closeObject fields ∧
        ("required", Json.ofStrings
          (((members properties).map Prod.fst).mergeSort fun left right => left ≤ right)) ∈
          closeObject fields := by
  unfold closeObject
  split
  · rename_i properties typed stored
    refine .inr ⟨properties, typed, stored, ?_, mem_set_field _ _ _⟩
    exact (mem_set_other (by decide)).mpr (mem_set_field _ _ _)
  · exact .inl rfl

end Close

/-! ### The strict schema is narrower -/

theorem names_of_strings (texts : List String) : names (Json.ofStrings texts) = texts := by
  simp [names, Json.ofStrings, elements, List.filterMap_map]

section Narrower

variable {vocabulary : Vocabulary} {root strict : Json}

/-- What the code relies on of a schema: nothing stands beside a reference but
annotations, required are only properties, and branches of `oneOf` exclude each other. -/
structure Regular (vocabulary : Vocabulary) (root : Json) (fields : List (String × Json)) : Prop where
  alone : ∀ target, Json.get? fields "$ref" = some target → ∀ field ∈ fields,
    field ≠ ("$ref", target) → ∀ depth value,
      keyword vocabulary root (accepts vocabulary root depth) fields field.1 field.2 value = true
  required : ∀ properties, Json.get? fields "properties" = some properties →
    ∀ argument, ("required", argument) ∈ fields → ∀ name ∈ names argument,
      name ∈ (members properties).map Prod.fst
  exclusive : ∀ argument, ("oneOf", argument) ∈ fields → ∀ depth value,
    ((elements argument).filter fun branch => accepts vocabulary root depth branch value).length ≤ 1

/-- A schema within the root and what is left of it. -/
def Leaves (root schema other : Json) : Prop :=
  Within root schema ∧ (other = schema ∨ enforceStrict schema = some other)

theorem visits_alike {name : String} {argument visited : Json} (visits : Visits name argument visited)
    (within : ∀ schema ∈ children name argument, Within root schema) :
    Alike (Leaves root) name argument visited := by
  cases visits with
  | @entries entries visited held each =>
      rcases held with rfl | rfl
      · trivial
      · have listed : ∀ entry ∈ entries, Within root entry.2 :=
          fun entry listed => within _ (List.mem_map_of_mem listed)
        refine List.Forall₂.imp ?_ ((List.forall₂_and_left _ _).mpr ⟨listed, each⟩)
        rintro entry other ⟨inside, same, enforced⟩
        exact ⟨same, inside, .inr enforced⟩
  | @items items visited held each =>
      have alike : (∀ item ∈ items, Within root item) → List.Forall₂ (Leaves root) items visited := by
        intro listed
        refine List.Forall₂.imp ?_ ((List.forall₂_and_left _ _).mpr ⟨listed, each⟩)
        exact fun item other both => ⟨both.1, .inr both.2⟩
      rcases held with rfl | rfl | rfl <;> exact alike within
  | schema held enforced =>
      subst held
      exact ⟨within _ (List.mem_singleton_self _), .inr enforced⟩
  | kept => exact Schemas.alike_refl fun schema held => ⟨within schema held, .inl rfl⟩

theorem find_enforced {entries visited : List (String × Json)}
    (each : List.Forall₂ (fun entry other => entry.1 = other.1 ∧
      enforceStrict entry.2 = some other.2) entries visited)
    (test : String → Bool) {other : String × Json}
    (found : visited.find? (fun entry => test entry.1) = some other) :
    ∃ entry, entries.find? (fun entry => test entry.1) = some entry ∧
      enforceStrict entry.2 = some other.2 := by
  induction each with
  | nil => cases found
  | @cons entry first _ _ head _ ih =>
      rw [List.find?_cons] at found ⊢
      rw [head.1]
      cases reached : test first.1 with
      | true =>
          rw [reached] at found
          cases found
          exact ⟨entry, rfl, head.2⟩
      | false =>
          rw [reached] at found
          exact ih found

/-- A definition of the strict schema is what is left of one of the root. -/
theorem resolve_strict (enforced : enforceStrict root = some strict) {target : String}
    {other : Json} (found : resolve strict target = some other) :
    ∃ schema, resolve root target = some schema ∧ enforceStrict schema = some other := by
  cases root with
  | object fields =>
      unfold enforceStrict at enforced
      split at enforced
      · cases enforced
        simp [resolve, members, Json.get?] at found
      · obtain ⟨visited, each, rfl⟩ := Option.map_eq_some_iff.mp enforced
        have kept := get_visited (enforce_fields_each each) "$defs"
        obtain ⟨defs, stored, reached⟩ := Option.bind_eq_some_iff.mp found
        obtain ⟨entry, first, rfl⟩ := Option.map_eq_some_iff.mp reached
        simp only [members] at stored
        rw [get_close (by simp [Closing])] at stored
        rw [stored] at kept
        generalize held : Json.get? fields "$defs" = source at kept
        cases kept with
        | @some argument _ visits =>
            have reads : ∀ schema, ((members argument).find? fun entry =>
                "#/$defs/" ++ entry.1 = target).map Prod.snd = some schema →
                resolve (.object fields) target = some schema := by
              intro schema reads
              simp only [resolve, members]
              rw [held]
              exact reads
            cases visits with
            | entries _ each =>
                obtain ⟨source, named, enforced⟩ := find_enforced each
                  (fun name => "#/$defs/" ++ name = target) first
                exact ⟨source.2, reads _ (congrArg (Option.map Prod.snd) named), enforced⟩
            | items other => simp at other
            | schema other => simp at other
            | kept blank =>
                have nothing : members defs = [] := List.map_eq_nil_iff.mp (blank (.inl rfl))
                rw [nothing] at first
                cases first
  | _ =>
      cases enforced
      simp [resolve, members, Json.get?] at found

variable {depth : Nat} {value : Json}

/-- A field whose argument is left over from another asks no less than that one. -/
theorem field_narrower (enforced : enforceStrict root = some strict)
    (below : ∀ schema other, Leaves root schema other → ∀ value,
      accepts vocabulary strict depth other value = true →
        accepts vocabulary root depth schema value = true)
    {fields others : List (String × Json)} (regular : Regular vocabulary root fields)
    {field : String × Json} (listed : field ∈ fields) {other : Json}
    (alike : Alike (Leaves root) field.1 field.2 other)
    (properties : ∀ key, named others key = true → named fields key = true)
    (positions : field.1 = "items" → placed others = placed fields)
    (holds : keyword vocabulary strict (accepts vocabulary strict depth) others field.1 other value =
      true) :
    keyword vocabulary root (accepts vocabulary root depth) fields field.1 field.2 value = true := by
  refine Schemas.keyword_mono below ?_ properties positions ?_ alike holds
  · intro target other found
    obtain ⟨schema, reached, changed⟩ := resolve_strict enforced found
    exact ⟨schema, reached, Schemas.resolve_within reached, .inr changed⟩
  · intro one
    exact regular.exclusive field.2 (one ▸ listed) depth value

/-- A closed object asks no less than the fields that it has lost. -/
theorem closing_narrower {fields visited : List (String × Json)}
    (each : List.Forall₂ (fun field other => field.1 = other.1 ∧ Visits field.1 field.2 other.2)
      fields visited)
    (regular : Regular vocabulary root fields) {properties : Json}
    (stored : Json.get? visited "properties" = some properties)
    (shut : ("additionalProperties", .bool false) ∈ closeObject visited)
    (all : ("required", Json.ofStrings
      (((members properties).map Prod.fst).mergeSort fun left right => left ≤ right)) ∈
        closeObject visited)
    (accepted : ∀ field ∈ closeObject visited, keyword vocabulary strict
      (accepts vocabulary strict depth) (closeObject visited) field.1 field.2 value = true)
    {field : String × Json} (listed : field ∈ fields) (closing : Closing field.1) :
    keyword vocabulary root (accepts vocabulary root depth) fields field.1 field.2 value = true := by
  obtain ⟨name, argument⟩ := field
  rcases closing with rfl | rfl
  · have closed := accepted _ shut
    have nothing : ∀ value, accepts vocabulary strict depth (.bool false) value = false := by
      intro value
      cases depth <;> rfl
    simp only [keyword, nothing, Bool.or_false, List.all_eq_true] at closed ⊢
    intro member held
    rw [← named_visited each, ← named_close, closed member held]
    rfl
  · have full := accepted _ all
    simp only [keyword] at full ⊢
    cases value with
    | object given =>
        simp only [names_of_strings, List.all_eq_true] at full ⊢
        intro name wanted
        have kept := get_visited each "properties"
        rw [stored] at kept
        generalize source : Json.get? fields "properties" = before at kept
        cases kept with
        | some visits =>
            have property := regular.required _ source argument listed name wanted
            rw [← visits_names visits] at property
            exact full name (List.mem_mergeSort.mpr property)
    | _ => rfl

section Step

variable (enforced : enforceStrict root = some strict)
  (regular : ∀ fields, Within root (.object fields) → Regular vocabulary root fields)
  (below : ∀ schema other, Leaves root schema other → ∀ value,
    accepts vocabulary strict depth other value = true →
      accepts vocabulary root depth schema value = true)
include enforced regular below

/-- The same schema over definitions that are narrower. -/
theorem unchanged_narrower (schema : Json) (inside : Within root schema)
    (accepted : accepts vocabulary strict (depth + 1) schema value = true) :
    accepts vocabulary root (depth + 1) schema value = true := by
  cases schema with
  | object fields =>
      simp only [accepts, List.all_eq_true] at accepted ⊢
      intro field listed
      refine field_narrower enforced below (regular fields inside) listed ?_ (fun _ => id)
        (fun _ => rfl) (accepted field listed)
      exact Schemas.alike_refl fun schema held => ⟨.child inside listed held, .inl rfl⟩
  | bool allowed => exact accepted
  | _ => cases accepted

theorem reference_narrower {fields : List (String × Json)} (inside : Within root (.object fields))
    {target : Json} (stored : Json.get? fields "$ref" = some target)
    (accepted : accepts vocabulary strict (depth + 1) (.object [("$ref", target)]) value = true) :
    accepts vocabulary root (depth + 1) (.object fields) value = true := by
  simp only [accepts, List.all_eq_true] at accepted ⊢
  intro field listed
  by_cases reference : field = ("$ref", target)
  · subst reference
    refine field_narrower enforced below (regular fields inside) listed rfl ?_ ?_
      (accepted _ (List.mem_singleton_self _))
    · intro key held
      simp [named] at held
    · intro other
      simp at other
  · exact (regular fields inside).alone target stored field listed reference depth value

theorem visited_narrower {fields visited : List (String × Json)}
    (inside : Within root (.object fields)) (done : enforceFields fields = some visited)
    (accepted : accepts vocabulary strict (depth + 1) (.object (closeObject visited)) value = true) :
    accepts vocabulary root (depth + 1) (.object fields) value = true := by
  have each := enforce_fields_each done
  simp only [accepts, List.all_eq_true] at accepted ⊢
  intro field listed
  obtain ⟨other, found, visits⟩ := mem_visited each listed
  have through : (field.1, other) ∈ closeObject visited →
      keyword vocabulary root (accepts vocabulary root depth) fields field.1 field.2 value =
        true := by
    intro kept
    refine field_narrower enforced below (regular fields inside) listed ?_ ?_ ?_
      (accepted (field.1, other) kept)
    · exact visits_alike visits fun schema held => .child inside listed held
    · intro key held
      rwa [named_close, named_visited each] at held
    · intro _
      rw [placed_close, placed_visited each]
  rcases close_cases visited with unchanged | ⟨properties, _, stored, shut, all⟩
  · apply through
    rw [unchanged]
    exact found
  · by_cases closing : Closing field.1
    · exact closing_narrower each (regular fields inside) stored shut all accepted listed closing
    · have kept := @mem_close visited (field.1, other) closing
      exact through (kept.mpr found)

end Step

/-- A schema accepts what is accepted by what is left of it. -/
theorem leaves_narrower (enforced : enforceStrict root = some strict)
    (regular : ∀ fields, Within root (.object fields) → Regular vocabulary root fields)
    (depth : Nat) : ∀ schema other, Leaves root schema other → ∀ value,
      accepts vocabulary strict depth other value = true →
        accepts vocabulary root depth schema value = true := by
  induction depth with
  | zero =>
      intro schema other leaves value accepted
      cases accepted
  | succ depth ih =>
      rintro schema other ⟨inside, rfl | changed⟩ value accepted
      · exact unchanged_narrower enforced regular ih other inside accepted
      · cases schema with
        | object fields =>
            unfold enforceStrict at changed
            split at changed
            · rename_i target stored
              cases changed
              exact reference_narrower enforced regular ih inside stored accepted
            · obtain ⟨visited, done, rfl⟩ := Option.map_eq_some_iff.mp changed
              exact visited_narrower enforced regular ih inside done accepted
        | _ =>
            cases changed
            exact unchanged_narrower enforced regular ih _ inside accepted

end Narrower

section Sample

/-- The types of the sample; every other word is an annotation. -/
def typeWords (name : String) (argument value : Json) : Bool :=
  match name, argument, value with
  | "type", .string "object", .object _ => true
  | "type", .string "string", .string _ => true
  | "type", _, _ => false
  | _, _, _ => true

def moodText : Json := .object [("type", .string "string")]

def moodField : Json :=
  .object [("$ref", .string "#/$defs/Mood"), ("description", .string "How it went")]

def reportSchema : Json :=
  .object
    [("$defs", .object [("Mood", moodText)]), ("type", .string "object"),
      ("properties", .object [("mood", moodField), ("text", moodText)]),
      ("required", Json.ofStrings ["text"])]

/-- What is left of `reportSchema`. -/
def strictReport (keys : List String) : Json :=
  .object
    [("$defs", .object [("Mood", moodText)]), ("type", .string "object"),
      ("properties", .object
        [("mood", .object [("$ref", .string "#/$defs/Mood")]), ("text", moodText)]),
      ("required", Json.ofStrings keys), ("additionalProperties", .bool false)]

def report : Json := .object [("mood", .string "glad"), ("text", .string "Done")]

theorem report_enforced : enforceStrict reportSchema = some (strictReport ["mood", "text"]) := by
  have sorted : (["mood", "text"].mergeSort fun left right => left ≤ right) = ["mood", "text"] :=
    List.mergeSort_of_pairwise (by decide)
  exact congrArg (fun keys => some (strictReport keys)) sorted

theorem report_schemas {schema : Json} (within : Within reportSchema schema) :
    schema = reportSchema ∨ schema = moodText ∨ schema = moodField := by
  induction within with
  | refl => exact .inl rfl
  | @child schema fields field above listed held ih =>
      rcases ih with same | same | same
      · cases same
        simp only [List.mem_cons, List.not_mem_nil, or_false] at listed
        rcases listed with rfl | rfl | rfl | rfl
        · exact .inr (.inl (List.mem_singleton.mp held))
        · cases held
        · simp only [children, members, List.map_cons, List.map_nil, List.mem_cons,
            List.not_mem_nil, or_false] at held
          exact .inr held.symm
        · cases held
      · cases same
        rw [List.mem_singleton.mp listed] at held
        cases held
      · cases same
        simp only [List.mem_cons, List.not_mem_nil, or_false] at listed
        rcases listed with rfl | rfl <;> cases held

theorem report_regular (fields : List (String × Json))
    (within : Within reportSchema (.object fields)) : Regular typeWords reportSchema fields := by
  rcases report_schemas within with same | same | same
  · cases same
    refine ⟨?_, ?_, ?_⟩
    · intro target stored
      cases stored
    · rintro properties ⟨⟩ argument listed
      simp only [List.mem_cons, Prod.mk.injEq, String.reduceEq, false_and, false_or, true_and,
        List.not_mem_nil, or_false] at listed
      subst listed
      decide
    · intro argument listed
      simp at listed
  · cases same
    refine ⟨?_, ?_, ?_⟩
    · intro target stored
      cases stored
    · intro properties stored
      cases stored
    · intro argument listed
      simp at listed
  · cases same
    refine ⟨?_, ?_, ?_⟩
    · rintro target ⟨⟩ field listed other depth value
      simp only [List.mem_cons, List.not_mem_nil, or_false] at listed
      rcases listed with rfl | rfl
      · exact absurd rfl other
      · rfl
    · intro properties stored
      cases stored
    · intro argument listed
      simp at listed

end Sample

/-! ### What strict mode requires -/

/-- The schemas that the visit comes to. -/
def visitedChildren (name : String) (argument : Json) : List Json :=
  match name with
  | "$defs" | "properties" => (members argument).map Prod.snd
  | "anyOf" | "oneOf" | "allOf" => elements argument
  | "items" => [argument]
  | _ => []

inductive Visited : Json → Json → Prop where
  | refl (schema : Json) : Visited schema schema
  | child {root schema : Json} {fields : List (String × Json)} {field : String × Json}
      (above : Visited root (.object fields)) (listed : field ∈ fields)
      (held : schema ∈ visitedChildren field.1 field.2) : Visited root schema

/-- References stand alone, and objects with properties are closed and want them all. -/
structure Strict (fields : List (String × Json)) : Prop where
  alone : ∀ target, Json.get? fields "$ref" = some target → fields = [("$ref", target)]
  closed : ∀ properties, Json.get? fields "type" = some (.string "object") →
    Json.get? fields "properties" = some properties →
      Json.get? fields "additionalProperties" = some (.bool false) ∧
        ∃ keys, Json.get? fields "required" = some (Json.ofStrings keys) ∧
          keys.Perm ((members properties).map Prod.fst)

theorem get_set_field (fields : List (String × Json)) (name : String) (value : Json) :
    Json.get? (setField fields name value) name = some value := by
  unfold setField
  split
  · rename_i known
    induction fields with
    | nil => cases known
    | cons field rest ih =>
        by_cases here : field.1 = name
        · simp [Json.get?, here]
        · have later : (rest.any fun field => field.1 = name) = true := by
            simpa [here] using known
          simpa [Json.get?, here] using ih later
  · rename_i unknown
    have nothing : fields.find? (fun field => decide (field.1 = name)) = none :=
      List.find?_eq_none.mpr fun field listed held =>
        unknown (List.any_eq_true.mpr ⟨field, listed, held⟩)
    simp [Json.get?, List.find?_append, nothing]

theorem close_strict {fields : List (String × Json)} (alone : Json.get? fields "$ref" = none) :
    Strict (closeObject fields) where
  alone := by
    intro target stored
    rw [get_close (by simp [Closing]), alone] at stored
    cases stored
  closed := by
    intro properties typed stored
    rw [get_close (by simp [Closing])] at typed stored
    have shape : closeObject fields =
        setField (setField fields "additionalProperties" (.bool false)) "required"
          (Json.ofStrings
            (((members properties).map Prod.fst).mergeSort fun left right => left ≤ right)) := by
      unfold closeObject
      rw [typed, stored]
      rfl
    rw [shape]
    refine ⟨?_, _, get_set_field _ _ _, List.mergeSort_perm _ _⟩
    rw [get_set_other (by decide), get_set_field]

theorem strict_of_enforced {schema : Json} {fields : List (String × Json)}
    (enforced : enforceStrict schema = some (.object fields)) : Strict fields := by
  cases schema with
  | object given =>
      unfold enforceStrict at enforced
      split at enforced
      · cases enforced
        refine ⟨?_, ?_⟩
        · intro target stored
          simpa [Json.get?] using stored
        · intro properties typed
          simp [Json.get?] at typed
      · rename_i alone
        obtain ⟨visited, done, same⟩ := Option.map_eq_some_iff.mp enforced
        cases same
        have kept := get_visited (enforce_fields_each done) "$ref"
        rw [alone] at kept
        generalize found : Json.get? visited "$ref" = behind at kept
        cases kept
        exact close_strict found
  | _ => cases enforced

/-- A schema that the visit comes to below has been visited. -/
theorem visits_children {name : String} {argument visited : Json}
    (visits : Visits name argument visited) {schema : Json}
    (held : schema ∈ visitedChildren name visited) :
    ∃ source, enforceStrict source = some schema := by
  cases visits with
  | @entries entries visited named each =>
      have listed : schema ∈ visited.map Prod.snd := by
        rcases named with rfl | rfl <;> exact held
      obtain ⟨entry, member, rfl⟩ := List.mem_map.mp listed
      clear held listed
      induction each with
      | nil => cases member
      | @cons source _ _ _ head _ ih =>
          rcases List.mem_cons.mp member with rfl | later
          · exact ⟨source.2, head.2⟩
          · exact ih later
  | @items items visited named each =>
      have member : schema ∈ visited := by
        rcases named with rfl | rfl | rfl <;> exact held
      clear held
      induction each with
      | nil => cases member
      | @cons source _ _ _ head _ ih =>
          rcases List.mem_cons.mp member with rfl | later
          · exact ⟨source, head⟩
          · exact ih later
  | schema named enforced =>
      subst named
      rw [List.mem_singleton.mp held]
      exact ⟨argument, enforced⟩
  | kept blank =>
      have nothing : visitedChildren name argument = [] := by
        unfold visitedChildren
        unfold children at blank
        split
        · exact blank (by simp)
        · exact blank (by simp)
        · exact blank (by simp)
        · exact blank (by simp)
        · exact blank (by simp)
        · exact blank (by simp)
        · rfl
      rw [nothing] at held
      cases held

theorem enforced_of_visited {root strict : Json} (enforced : enforceStrict root = some strict)
    {schema : Json} (visited : Visited strict schema) :
    ∃ source, enforceStrict source = some schema := by
  induction visited with
  | refl => exact ⟨root, enforced⟩
  | @child schema fields field above listed held ih =>
      obtain ⟨source, changed⟩ := ih
      cases source with
      | object given =>
          unfold enforceStrict at changed
          split at changed
          · cases changed
            rw [List.mem_singleton.mp listed] at held
            cases held
          · obtain ⟨visited, done, same⟩ := Option.map_eq_some_iff.mp changed
            cases same
            by_cases closing : Closing field.1
            · have nothing : visitedChildren field.1 field.2 = [] := by
                rcases closing with name | name <;> rw [name] <;> rfl
              rw [nothing] at held
              cases held
            · obtain ⟨argument, visits⟩ :=
                visited_source (enforce_fields_each done) ((mem_close closing).mp listed)
              exact visits_children visits held
      | _ => cases changed

/-- Behind the visit every schema that it comes to is as strict mode wants it. -/
theorem enforced_strict (root strict : Json) (enforced : enforceStrict root = some strict)
    (fields : List (String × Json)) (visited : Visited strict (.object fields)) :
    Strict fields := by
  obtain ⟨source, changed⟩ := enforced_of_visited enforced visited
  exact strict_of_enforced changed

theorem enforced_strict_report : Strict (members (strictReport ["mood", "text"])) :=
  enforced_strict reportSchema (strictReport ["mood", "text"]) report_enforced _ (.refl _)

end Choirworks.LlmFlows
