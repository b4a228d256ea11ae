import Mathlib.Data.List.Nodup

/-!
Insertion-ordered tables with unique keys, the shape of a Python `dict`: a
new key goes to the end, a known key keeps its place, and iteration follows
that order. `Table key` stores rows that carry their own key; `Dict` is the
table of key and value pairs. The uniqueness of keys is a field, so no
operation has to be proved to keep it again.
-/

namespace Choirworks

universe u v w

structure Table {Row : Type u} {Key : Type v} (key : Row → Key) where
  rows : List Row
  unique : (rows.map key).Nodup

namespace Table

variable {Row : Type u} {Key : Type v} {key : Row → Key}

instance [DecidableEq Row] : DecidableEq (Table key) := fun left right =>
  decidable_of_iff (left.rows = right.rows)
    ⟨fun same => by cases left; cases right; cases same; rfl, fun same => same ▸ rfl⟩

def empty : Table key := ⟨[], List.nodup_nil⟩

instance : Inhabited (Table key) := ⟨empty⟩

def keys (table : Table key) : List Key := table.rows.map key

@[simp] theorem rows_empty : (empty : Table key).rows = [] := rfl

@[simp] theorem keys_empty : (empty : Table key).keys = [] := rfl

theorem keys_nodup (table : Table key) : table.keys.Nodup := table.unique

theorem ext_rows {left right : Table key} (same : left.rows = right.rows) : left = right := by
  cases left
  cases right
  cases same
  rfl

theorem mem_keys (table : Table key) (wanted : Key) :
    wanted ∈ table.keys ↔ ∃ row ∈ table.rows, key row = wanted := by
  simp [keys]

theorem key_mem_keys (table : Table key) {row : Row} (member : row ∈ table.rows) :
    key row ∈ table.keys :=
  List.mem_map_of_mem member

/-- Mutation of every row, which keeps the keys. -/
def map (table : Table key) (change : Row → Row) (keeps : ∀ row, key (change row) = key row) :
    Table key :=
  { rows := table.rows.map change
    unique := by
      have same : (table.rows.map change).map key = table.rows.map key := by
        rw [List.map_map]
        exact List.map_congr_left fun row _ => keeps row
      rw [same]
      exact table.unique }

section Map

variable (table : Table key) (change : Row → Row) (keeps : ∀ row, key (change row) = key row)

@[simp] theorem rows_map : (table.map change keeps).rows = table.rows.map change := rfl

@[simp] theorem keys_map : (table.map change keeps).keys = table.keys := by
  simp only [keys, rows_map, List.map_map]
  exact List.map_congr_left fun row _ => keeps row

/-- A mutation that changes no row. -/
theorem map_unchanged (same : ∀ row ∈ table.rows, change row = row) :
    table.map change keeps = table := by
  obtain ⟨rows, unique⟩ := table
  have listed : rows.map change = rows := by
    calc
      rows.map change = rows.map id := List.map_congr_left same
      _ = rows := List.map_id rows
  simp [map, listed]

end Map

variable [DecidableEq Key]

def find? (table : Table key) (wanted : Key) : Option Row :=
  table.rows.find? fun row => key row = wanted

def contains (table : Table key) (wanted : Key) : Bool := wanted ∈ table.keys

/-- `d[key row] = row`: a known key keeps its position. -/
def insert (table : Table key) (row : Row) : Table key :=
  if known : key row ∈ table.keys then
    { rows := table.rows.map fun old => if key old = key row then row else old
      unique := by
        have same : (table.rows.map fun old => if key old = key row then row else old).map key =
            table.rows.map key := by
          rw [List.map_map]
          apply List.map_congr_left
          intro old _
          by_cases hit : key old = key row <;> simp [hit]
        rw [same]
        exact table.unique }
  else
    { rows := table.rows ++ [row]
      unique := by
        rw [List.map_append]
        apply List.Nodup.append table.unique (List.nodup_singleton _)
        intro found member single
        rw [List.mem_singleton] at single
        exact known (single ▸ member) }

/-- `d.pop(wanted, None)`. -/
def erase (table : Table key) (wanted : Key) : Table key :=
  { rows := table.rows.filter fun row => key row ≠ wanted
    unique := (List.Sublist.map key List.filter_sublist).nodup table.unique }

/-- Mutation of the row stored under `wanted`, which keeps its key. -/
def modify (table : Table key) (wanted : Key) (change : Row → Row)
    (keeps : ∀ row, key (change row) = key row) : Table key :=
  { rows := table.rows.map fun row => if key row = wanted then change row else row
    unique := by
      have same : (table.rows.map fun row => if key row = wanted then change row else row).map
          key = table.rows.map key := by
        rw [List.map_map]
        apply List.map_congr_left
        intro row _
        by_cases hit : key row = wanted <;> simp [hit, keeps]
      rw [same]
      exact table.unique }

@[simp] theorem find?_empty (wanted : Key) : (empty : Table key).find? wanted = none := rfl

@[simp] theorem contains_iff (table : Table key) (wanted : Key) :
    table.contains wanted = true ↔ wanted ∈ table.keys := by
  simp [contains]

theorem find?_eq_some_iff (table : Table key) (wanted : Key) (row : Row) :
    table.find? wanted = some row ↔ row ∈ table.rows ∧ key row = wanted := by
  obtain ⟨rows, unique⟩ := table
  simp only [find?]
  induction rows with
  | nil => simp
  | cons first rest ih =>
      simp only [List.map_cons, List.nodup_cons] at unique
      by_cases hit : key first = wanted
      · simp only [hit, decide_true, List.find?_cons_of_pos, Option.some.injEq, List.mem_cons]
        constructor
        · intro same
          exact ⟨Or.inl same.symm, same ▸ hit⟩
        · rintro ⟨same | later, match_key⟩
          · exact same.symm
          · exact absurd (List.mem_map.mpr ⟨row, later, match_key.trans hit.symm⟩) unique.1
      · rw [List.find?_cons_of_neg (by simpa using hit), ih unique.2]
        constructor
        · rintro ⟨later, match_key⟩
          exact ⟨List.mem_cons_of_mem first later, match_key⟩
        · rintro ⟨member, match_key⟩
          rcases List.mem_cons.mp member with same | later
          · exact absurd (same ▸ match_key) hit
          · exact ⟨later, match_key⟩

theorem find?_eq_none_iff (table : Table key) (wanted : Key) :
    table.find? wanted = none ↔ wanted ∉ table.keys := by
  simp [find?, keys, List.find?_eq_none]

theorem find?_of_mem (table : Table key) {row : Row} (member : row ∈ table.rows) :
    table.find? (key row) = some row :=
  (find?_eq_some_iff table _ row).mpr ⟨member, rfl⟩

theorem mem_of_find? {table : Table key} {wanted : Key} {row : Row}
    (found : table.find? wanted = some row) : row ∈ table.rows :=
  ((find?_eq_some_iff table wanted row).mp found).1

theorem key_of_find? {table : Table key} {wanted : Key} {row : Row}
    (found : table.find? wanted = some row) : key row = wanted :=
  ((find?_eq_some_iff table wanted row).mp found).2

theorem mem_keys_iff_find? (table : Table key) (wanted : Key) :
    wanted ∈ table.keys ↔ ∃ row, table.find? wanted = some row := by
  rw [mem_keys]
  constructor
  · rintro ⟨row, member, match_key⟩
    exact ⟨row, (find?_eq_some_iff table wanted row).mpr ⟨member, match_key⟩⟩
  · rintro ⟨row, found⟩
    exact ⟨row, mem_of_find? found, key_of_find? found⟩

theorem row_unique (table : Table key) {left right : Row} (hl : left ∈ table.rows)
    (hr : right ∈ table.rows) (same : key left = key right) : left = right := by
  have found := find?_of_mem table hl
  rw [same, find?_of_mem table hr] at found
  exact (Option.some.inj found).symm

theorem mem_insert (table : Table key) (row other : Row) :
    other ∈ (table.insert row).rows ↔
      other = row ∨ (other ∈ table.rows ∧ key other ≠ key row) := by
  by_cases known : key row ∈ table.keys
  · simp only [insert, known, ↓reduceDIte, List.mem_map]
    constructor
    · rintro ⟨old, member, result⟩
      by_cases hit : key old = key row
      · simp only [hit, ↓reduceIte] at result
        exact Or.inl result.symm
      · simp only [hit, ↓reduceIte] at result
        exact Or.inr ⟨result ▸ member, result ▸ hit⟩
    · rintro (same | ⟨member, different⟩)
      · obtain ⟨old, member, match_key⟩ := (mem_keys table _).mp known
        exact ⟨old, member, by simp [match_key, same]⟩
      · exact ⟨other, member, by simp [different]⟩
  · simp only [insert, known, ↓reduceDIte, List.mem_append, List.mem_singleton]
    constructor
    · rintro (member | same)
      · exact Or.inr ⟨member, fun match_key => known (match_key ▸ key_mem_keys table member)⟩
      · exact Or.inl same
    · rintro (same | ⟨member, _⟩)
      · exact Or.inr same
      · exact Or.inl member

/-- The later of two insertions with one key counts. -/
theorem insert_insert (table : Table key) {row later : Row} (same : key row = key later) :
    (table.insert row).insert later = table.insert later := by
  apply ext_rows
  by_cases known : key row ∈ table.keys
  · have after : key later ∈ table.keys := same ▸ known
    have behind : key later ∈ (table.insert row).keys := by
      rw [mem_keys]
      exact ⟨row, (mem_insert table row row).mpr (.inl rfl), same⟩
    simp only [insert, known, after, ↓reduceDIte] at behind ⊢
    rw [dif_pos behind]
    simp only [List.map_map]
    apply List.map_congr_left
    intro old _
    by_cases hit : key old = key row
    · simp [hit, same]
    · simp [hit, same ▸ hit]
  · have after : key later ∉ table.keys := same ▸ known
    have behind : key later ∈ (table.insert row).keys := by
      rw [mem_keys]
      exact ⟨row, (mem_insert table row row).mpr (.inl rfl), same⟩
    have others : ∀ old ∈ table.rows, key old ≠ key later :=
      fun old member hit => after (hit ▸ key_mem_keys table member)
    simp only [insert, known, after, ↓reduceDIte] at behind ⊢
    rw [dif_pos behind]
    simp only [List.map_append, List.map_cons, List.map_nil, same, ↓reduceIte]
    congr 1
    exact (List.map_congr_left fun old member => if_neg (others old member)).trans (List.map_id _)

/-- A known key: the insertion changes one row. -/
theorem insert_known (table : Table key) (row : Row) (known : key row ∈ table.keys) :
    table.insert row =
      table.map (fun old => if key old = key row then row else old)
        (fun old => by split <;> simp [*]) := by
  simp only [insert, known, ↓reduceDIte]
  rfl

theorem keys_insert_new (table : Table key) (row : Row) (fresh : key row ∉ table.keys) :
    (table.insert row).keys = table.keys ++ [key row] := by
  simp only [insert, fresh, ↓reduceDIte]
  simp [keys]

@[simp] theorem find?_insert (table : Table key) (row : Row) (wanted : Key) :
    (table.insert row).find? wanted =
      if wanted = key row then some row else table.find? wanted := by
  apply Option.ext
  intro found
  by_cases hit : wanted = key row
  · simp only [hit, ↓reduceIte, find?_eq_some_iff, mem_insert, Option.some.injEq]
    constructor
    · rintro ⟨same | ⟨_, different⟩, match_key⟩
      · exact same.symm
      · exact absurd match_key different
    · intro same
      exact ⟨Or.inl same.symm, same ▸ rfl⟩
  · simp only [hit, ↓reduceIte, find?_eq_some_iff, mem_insert]
    constructor
    · rintro ⟨same | ⟨member, _⟩, match_key⟩
      · exact absurd (match_key.symm.trans (same ▸ rfl)) hit
      · exact ⟨member, match_key⟩
    · rintro ⟨member, match_key⟩
      exact ⟨Or.inr ⟨member, fun same => hit (match_key.symm.trans same)⟩, match_key⟩

@[simp] theorem mem_keys_insert (table : Table key) (row : Row) (wanted : Key) :
    wanted ∈ (table.insert row).keys ↔ wanted = key row ∨ wanted ∈ table.keys := by
  rw [mem_keys_iff_find?, mem_keys_iff_find?]
  by_cases hit : wanted = key row <;> simp [hit]

section OfList

/-- `d[key row] = row` for one row after the other. -/
def ofList (key : Row → Key) (rows : List Row) : Table key := rows.foldl insert empty

theorem insert_rows_new (table : Table key) (row : Row) (fresh : key row ∉ table.keys) :
    (table.insert row).rows = table.rows ++ [row] := by
  simp only [insert, fresh, ↓reduceDIte]

theorem ofList_rows {rows : List Row} (distinct : (rows.map key).Nodup) :
    (ofList key rows).rows = rows := by
  have fold : ∀ table : Table key, ((table.rows ++ rows).map key).Nodup →
      (rows.foldl insert table).rows = table.rows ++ rows := by
    clear distinct
    induction rows with
    | nil => simp
    | cons row rest ih =>
        intro table once
        have fresh : key row ∉ table.keys := by
          rw [List.map_append, List.nodup_append] at once
          exact fun known => once.2.2 _ known _ List.mem_cons_self rfl
        have rowsThen := insert_rows_new table row fresh
        rw [List.foldl_cons, ih _ (by simpa [rowsThen] using once), rowsThen, List.append_assoc]
        rfl
  simpa [ofList] using fold empty (by simpa using distinct)

/-- A table stored as the list of its rows comes back. -/
theorem ofList_self (table : Table key) : ofList key table.rows = table :=
  ext_rows (ofList_rows table.unique)

end OfList

theorem mem_erase (table : Table key) (wanted : Key) (row : Row) :
    row ∈ (table.erase wanted).rows ↔ row ∈ table.rows ∧ key row ≠ wanted := by
  simp [erase]

@[simp] theorem find?_erase (table : Table key) (gone wanted : Key) :
    (table.erase gone).find? wanted = if wanted = gone then none else table.find? wanted := by
  apply Option.ext
  intro found
  by_cases hit : wanted = gone
  · simp only [hit, ↓reduceIte, find?_eq_some_iff, mem_erase, reduceCtorEq, iff_false]
    rintro ⟨⟨_, different⟩, match_key⟩
    exact different match_key
  · simp only [hit, ↓reduceIte, find?_eq_some_iff, mem_erase]
    constructor
    · rintro ⟨⟨member, _⟩, match_key⟩
      exact ⟨member, match_key⟩
    · rintro ⟨member, match_key⟩
      exact ⟨⟨member, fun same => hit (match_key.symm.trans same)⟩, match_key⟩

@[simp] theorem mem_keys_erase (table : Table key) (gone wanted : Key) :
    wanted ∈ (table.erase gone).keys ↔ wanted ∈ table.keys ∧ wanted ≠ gone := by
  rw [mem_keys_iff_find?, mem_keys_iff_find?]
  by_cases hit : wanted = gone <;> simp [hit]

section Modify

variable (table : Table key) (wanted : Key) (change : Row → Row)
  (keeps : ∀ row, key (change row) = key row)

theorem mem_modify (row : Row) :
    row ∈ (table.modify wanted change keeps).rows ↔
      (∃ old ∈ table.rows, key old = wanted ∧ row = change old) ∨
        (row ∈ table.rows ∧ key row ≠ wanted) := by
  simp only [modify, List.mem_map]
  constructor
  · rintro ⟨old, member, result⟩
    by_cases hit : key old = wanted
    · simp only [hit, ↓reduceIte] at result
      exact Or.inl ⟨old, member, hit, result.symm⟩
    · simp only [hit, ↓reduceIte] at result
      exact Or.inr ⟨result ▸ member, result ▸ hit⟩
  · rintro (⟨old, member, hit, same⟩ | ⟨member, different⟩)
    · exact ⟨old, member, by simp [hit, same]⟩
    · exact ⟨row, member, by simp [different]⟩

@[simp] theorem keys_modify : (table.modify wanted change keeps).keys = table.keys := by
  simp only [keys, modify, List.map_map]
  apply List.map_congr_left
  intro row _
  by_cases hit : key row = wanted <;> simp [hit, keeps]

@[simp] theorem find?_modify (other : Key) :
    (table.modify wanted change keeps).find? other =
      if other = wanted then (table.find? other).map change else table.find? other := by
  apply Option.ext
  intro found
  by_cases hit : other = wanted
  · subst hit
    simp only [↓reduceIte, find?_eq_some_iff, mem_modify, Option.map_eq_some_iff]
    constructor
    · rintro ⟨⟨old, member, match_key, same⟩ | ⟨_, different⟩, match_found⟩
      · exact ⟨old, ⟨member, match_key⟩, same.symm⟩
      · exact absurd match_found different
    · rintro ⟨old, ⟨member, match_key⟩, same⟩
      exact ⟨Or.inl ⟨old, member, match_key, same.symm⟩,
        by rw [← same, keeps, match_key]⟩
  · simp only [hit, ↓reduceIte, find?_eq_some_iff, mem_modify]
    constructor
    · rintro ⟨⟨old, _, match_key, same⟩ | ⟨member, _⟩, match_found⟩
      · rw [same, keeps, match_key] at match_found
        exact absurd match_found.symm hit
      · exact ⟨member, match_found⟩
    · rintro ⟨member, match_found⟩
      exact ⟨Or.inr ⟨member, fun same => hit (match_found.symm.trans same)⟩, match_found⟩

end Modify

@[simp] theorem find?_map (table : Table key) (change : Row → Row)
    (keeps : ∀ row, key (change row) = key row) (wanted : Key) :
    (table.map change keeps).find? wanted = (table.find? wanted).map change := by
  simp only [find?, rows_map, List.find?_map, Function.comp_def, keeps]

end Table

/-- `dict.fromkeys` of the values, behind those listed already. -/
def fromKeys {Value : Type u} [DecidableEq Value] (listed values : List Value) : List Value :=
  values.foldl (fun listed value => if value ∈ listed then listed else listed ++ [value]) listed

theorem mem_fromKeys {Value : Type u} [DecidableEq Value] (listed values : List Value)
    (wanted : Value) : wanted ∈ fromKeys listed values ↔ wanted ∈ listed ∨ wanted ∈ values := by
  unfold fromKeys
  induction values generalizing listed with
  | nil => simp
  | cons value rest ih =>
      rw [List.foldl_cons, ih]
      by_cases known : value ∈ listed
      · simp only [known, ↓reduceIte, List.mem_cons]
        constructor
        · rintro (old | later)
          · exact Or.inl old
          · exact Or.inr (Or.inr later)
        · rintro (old | rfl | later)
          · exact Or.inl old
          · exact Or.inl known
          · exact Or.inr later
      · simp [known, or_assoc]

/-- A Python `dict`: keys and values in insertion order. -/
abbrev Dict (Key : Type u) (Value : Type w) := Table (Prod.fst : Key × Value → Key)

namespace Dict

variable {Key : Type u} {Value : Type w} [DecidableEq Key]

def get? (dict : Dict Key Value) (wanted : Key) : Option Value :=
  (dict.find? wanted).map Prod.snd

def getD (dict : Dict Key Value) (wanted : Key) (fallback : Value) : Value :=
  (dict.get? wanted).getD fallback

def set (dict : Dict Key Value) (name : Key) (value : Value) : Dict Key Value :=
  dict.insert (name, value)

@[simp] theorem get?_empty (wanted : Key) :
    Dict.get? (Table.empty : Dict Key Value) wanted = none :=
  rfl

@[simp] theorem get?_set (dict : Dict Key Value) (name wanted : Key) (value : Value) :
    (dict.set name value).get? wanted = if wanted = name then some value else dict.get? wanted := by
  by_cases hit : wanted = name <;> simp [get?, set, hit]

@[simp] theorem get?_erase (dict : Dict Key Value) (gone wanted : Key) :
    Dict.get? (dict.erase gone) wanted = if wanted = gone then none else dict.get? wanted := by
  by_cases hit : wanted = gone <;> simp [get?, hit]

@[simp] theorem mem_keys_set (dict : Dict Key Value) (name wanted : Key) (value : Value) :
    wanted ∈ (dict.set name value).keys ↔ wanted = name ∨ wanted ∈ dict.keys := by
  simp [set]

theorem mem_keys_iff_get? (dict : Dict Key Value) (wanted : Key) :
    wanted ∈ dict.keys ↔ ∃ value, dict.get? wanted = some value := by
  simp only [Table.mem_keys_iff_find?, get?, Option.map_eq_some_iff]
  constructor
  · rintro ⟨row, found⟩
    exact ⟨row.2, row, found, rfl⟩
  · rintro ⟨_, row, found, _⟩
    exact ⟨row, found⟩

theorem get?_eq_some_iff (dict : Dict Key Value) (wanted : Key) (value : Value) :
    dict.get? wanted = some value ↔ (wanted, value) ∈ dict.rows := by
  simp only [get?, Option.map_eq_some_iff]
  constructor
  · rintro ⟨⟨name, stored⟩, found, same⟩
    have match_key : name = wanted := Table.key_of_find? found
    cases match_key
    cases same
    exact Table.mem_of_find? found
  · intro member
    exact ⟨(wanted, value), Table.find?_of_mem dict member, rfl⟩

end Dict

end Choirworks
