import Choirworks.Library.Json

/-!
JSON schemas as data, and the values they accept. `depth` bounds how deep schemas
nest, references included. The keywords that hold no schemas are a vocabulary of
their own. `keyword_mono` is the rule for a schema that is narrower part by part.
-/

namespace Choirworks.Schemas

/-- A keyword with its argument admits a value. -/
abbrev Vocabulary := String → Json → Json → Bool

def members : Json → List (String × Json)
  | .object fields => fields
  | _ => []

def elements : Json → List Json
  | .array items => items
  | _ => []

/-- The texts among the elements. -/
def names (argument : Json) : List String :=
  (elements argument).filterMap fun | .string name => some name | _ => none

/-- The keywords beside have a property of that name. -/
def named (siblings : List (String × Json)) (key : String) : Bool :=
  siblings.any fun field => field.1 = "properties" ∧ key ∈ (members field.2).map Prod.fst

/-- The elements that the keywords beside give schemas of their own. -/
def placed (siblings : List (String × Json)) : Nat :=
  ((Json.get? siblings "prefixItems").map fun argument => (elements argument).length).getD 0

/-- What a reference to a definition of the root stands for. -/
def resolve (root : Json) (target : String) : Option Json :=
  (Json.get? (members root) "$defs").bind fun defs =>
    ((members defs).find? fun entry => "#/$defs/" ++ entry.1 = target).map Prod.snd

section Accepts

variable (vocabulary : Vocabulary) (root : Json)

/-- One keyword of a schema; `sub` is how the schemas below accept. -/
def keyword (sub : Json → Json → Bool) (siblings : List (String × Json)) (name : String)
    (argument value : Json) : Bool :=
  match name with
  | "$ref" =>
      match argument with
      | .string target =>
          match resolve root target with
          | some schema => sub schema value
          | none => false
      | _ => false
  | "$defs" => true
  | "properties" =>
      (members argument).all fun entry =>
        (members value).all fun member => member.1 ≠ entry.1 || sub entry.2 member.2
  | "required" =>
      match value with
      | .object fields => (names argument).all fun name => name ∈ fields.map Prod.fst
      | _ => true
  | "additionalProperties" =>
      (members value).all fun member => named siblings member.1 || sub argument member.2
  | "prefixItems" =>
      ((elements argument).zip (elements value)).all fun pair => sub pair.1 pair.2
  | "items" => ((elements value).drop (placed siblings)).all fun item => sub argument item
  | "anyOf" => (elements argument).any fun branch => sub branch value
  | "oneOf" => ((elements argument).filter fun branch => sub branch value).length = 1
  | "allOf" => (elements argument).all fun branch => sub branch value
  | _ => vocabulary name argument value

def accepts : Nat → Json → Json → Bool
  | 0, _, _ => false
  | _ + 1, .bool allowed, _ => allowed
  | depth + 1, .object fields, value =>
      fields.all fun field => keyword vocabulary root (accepts depth) fields field.1 field.2 value
  | _ + 1, _, _ => false

end Accepts

/-! ### The schemas of a schema -/

def children (name : String) (argument : Json) : List Json :=
  match name with
  | "$defs" | "properties" => (members argument).map Prod.snd
  | "prefixItems" | "anyOf" | "oneOf" | "allOf" => elements argument
  | "items" | "additionalProperties" => [argument]
  | _ => []

inductive Within : Json → Json → Prop where
  | refl (schema : Json) : Within schema schema
  | child {root schema : Json} {fields : List (String × Json)} {field : String × Json}
      (above : Within root (.object fields)) (listed : field ∈ fields)
      (held : schema ∈ children field.1 field.2) : Within root schema

/-- A reference leads to a schema within the root. -/
theorem resolve_within {root schema : Json} {target : String}
    (found : resolve root target = some schema) : Within root schema := by
  cases root with
  | object fields =>
      obtain ⟨defs, stored, found⟩ := Option.bind_eq_some_iff.mp found
      obtain ⟨entry, reached, rfl⟩ := Option.map_eq_some_iff.mp found
      obtain ⟨field, first, rfl⟩ := Option.map_eq_some_iff.mp stored
      have name : field.1 = "$defs" := by simpa using List.find?_some first
      refine .child (.refl _) (List.mem_of_find?_eq_some first) ?_
      rw [name]
      exact List.mem_map_of_mem (List.mem_of_find?_eq_some reached)
  | _ => simp [resolve, members, Json.get?] at found

/-! ### Narrower arguments -/

/-- The arguments of a keyword are related schema by schema. -/
def Alike (related : Json → Json → Prop) (name : String) (left right : Json) : Prop :=
  match name with
  | "$defs" => True
  | "properties" =>
      List.Forall₂ (fun entry other => entry.1 = other.1 ∧ related entry.2 other.2)
        (members left) (members right)
  | "prefixItems" | "anyOf" | "oneOf" | "allOf" =>
      List.Forall₂ related (elements left) (elements right)
  | "items" | "additionalProperties" => related left right
  | _ => left = right

theorem alike_refl {related : Json → Json → Prop} {name : String} {argument : Json}
    (each : ∀ schema ∈ children name argument, related schema schema) :
    Alike related name argument argument := by
  unfold Alike
  unfold children at each
  split
  · trivial
  · exact List.forall₂_same.mpr fun entry listed => ⟨rfl, each _ (List.mem_map_of_mem listed)⟩
  · exact List.forall₂_same.mpr each
  · exact List.forall₂_same.mpr each
  · exact List.forall₂_same.mpr each
  · exact List.forall₂_same.mpr each
  · exact each _ (List.mem_singleton_self _)
  · exact each _ (List.mem_singleton_self _)
  · rfl

section Narrower

variable {vocabulary : Vocabulary} {narrowRoot root : Json} {narrow sub : Json → Json → Bool}
  {related : Json → Json → Prop} {schemas narrower : List Json} {value : Json}

/-- Where one of the narrower branches accepts, so does one of the others. -/
theorem any_narrower (below : ∀ schema other, related schema other → ∀ value,
      narrow other value = true → sub schema value = true)
    (alike : List.Forall₂ related schemas narrower)
    (some : (narrower.any fun branch => narrow branch value) = true) :
    (schemas.any fun branch => sub branch value) = true := by
  induction alike with
  | nil => exact some
  | cons head _ ih =>
      simp only [List.any_cons, Bool.or_eq_true] at some ⊢
      exact some.imp (below _ _ head value) ih

theorem all_narrower (below : ∀ schema other, related schema other → ∀ value,
      narrow other value = true → sub schema value = true)
    (alike : List.Forall₂ related schemas narrower)
    (every : (narrower.all fun branch => narrow branch value) = true) :
    (schemas.all fun branch => sub branch value) = true := by
  induction alike with
  | nil => rfl
  | cons head _ ih =>
      simp only [List.all_cons, Bool.and_eq_true] at every ⊢
      exact ⟨below _ _ head value every.1, ih every.2⟩

theorem zip_narrower (below : ∀ schema other, related schema other → ∀ value,
      narrow other value = true → sub schema value = true)
    (alike : List.Forall₂ related schemas narrower) (items : List Json)
    (every : ((narrower.zip items).all fun pair => narrow pair.1 pair.2) = true) :
    ((schemas.zip items).all fun pair => sub pair.1 pair.2) = true := by
  induction alike generalizing items with
  | nil => rfl
  | cons head _ ih =>
      cases items with
      | nil => rfl
      | cons item rest =>
          simp only [List.zip_cons_cons, List.all_cons, Bool.and_eq_true] at every ⊢
          exact ⟨below _ _ head item every.1, ih rest every.2⟩

theorem entries_narrower (below : ∀ schema other, related schema other → ∀ value,
      narrow other value = true → sub schema value = true)
    {entries others : List (String × Json)}
    (alike : List.Forall₂ (fun entry other => entry.1 = other.1 ∧ related entry.2 other.2)
      entries others)
    (every : (others.all fun entry =>
      (members value).all fun member => member.1 ≠ entry.1 || narrow entry.2 member.2) = true) :
    (entries.all fun entry =>
      (members value).all fun member => member.1 ≠ entry.1 || sub entry.2 member.2) = true := by
  induction alike with
  | nil => rfl
  | cons head _ ih =>
      simp only [List.all_cons, Bool.and_eq_true] at every ⊢
      refine ⟨?_, ih every.2⟩
      rw [List.all_eq_true] at every ⊢
      intro member listed
      have here := every.1 member listed
      rw [← head.1] at here
      simp only [Bool.or_eq_true] at here ⊢
      exact here.imp_right (below _ _ head.2 member.2)

/-- A keyword whose argument is narrower schema by schema asks no less. Branches that
exclude each other stay the only one. -/
theorem keyword_mono (below : ∀ schema other, related schema other → ∀ value,
      narrow other value = true → sub schema value = true)
    (refs : ∀ target other, resolve narrowRoot target = some other →
      ∃ schema, resolve root target = some schema ∧ related schema other)
    {siblings others : List (String × Json)} {name : String} {argument other : Json}
    (properties : ∀ key, named others key = true → named siblings key = true)
    (positions : name = "items" → placed others = placed siblings)
    (exclusive : name = "oneOf" →
      ((elements argument).filter fun branch => sub branch value).length ≤ 1)
    (alike : Alike related name argument other)
    (holds : keyword vocabulary narrowRoot narrow others name other value = true) :
    keyword vocabulary root sub siblings name argument value = true := by
  unfold Alike at alike
  split at alike
  · rfl
  · simp only [keyword] at holds ⊢
    exact entries_narrower below alike holds
  · simp only [keyword] at holds ⊢
    exact zip_narrower below alike _ holds
  · simp only [keyword] at holds ⊢
    exact any_narrower below alike holds
  · simp only [keyword, decide_eq_true_eq] at holds ⊢
    have most := exclusive rfl
    have some : ((elements other).any fun branch => narrow branch value) = true :=
      List.any_eq_true.mpr (List.length_filter_pos_iff.mp (by omega))
    have least := List.length_filter_pos_iff.mpr
      (List.any_eq_true.mp (any_narrower below alike some))
    omega
  · simp only [keyword] at holds ⊢
    exact all_narrower below alike holds
  · simp only [keyword] at holds ⊢
    rw [positions rfl, List.all_eq_true] at holds
    rw [List.all_eq_true]
    exact fun item listed => below _ _ alike item (holds item listed)
  · simp only [keyword] at holds ⊢
    rw [List.all_eq_true] at holds ⊢
    intro member listed
    have here := holds member listed
    rw [Bool.or_eq_true] at here ⊢
    exact here.imp (properties member.1) (below _ _ alike member.2)
  · subst alike
    by_cases ref : name = "$ref"
    · subst ref
      simp only [keyword] at holds ⊢
      split at holds
      · rename_i target
        split at holds
        · rename_i other found
          obtain ⟨schema, reached, less⟩ := refs target other found
          rw [reached]
          exact below _ _ less value holds
        · cases holds
      · cases holds
    · by_cases required : name = "required"
      · subst required
        simpa only [keyword] using holds
      · -- a word of the vocabulary: no other keyword is left
        unfold keyword at holds ⊢
        split at holds <;> simp_all

end Narrower

end Choirworks.Schemas
