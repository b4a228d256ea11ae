import Choirworks.Library.Firsts
import Choirworks.Library.Table

/-!
A table that is filled item by item, each item changing the row of its key: the
keys stand in the order of their first items, and the row of a key is what its
own items make of it, in their order.
-/

namespace Choirworks.Table

universe u v w
variable {Row : Type u} {Key : Type v} {Item : Type w} {key : Row → Key} [DecidableEq Key]
  {keyOf : Item → Key} {change : Option Row → Item → Row}

/-- One item: its key's row is changed, or made. -/
def absorb (change : Option Row → Item → Row) (keyOf : Item → Key) (table : Table key)
    (item : Item) : Table key :=
  table.insert (change (table.find? (keyOf item)) item)

/-- What the items of one key make of its row. -/
def gathered (change : Option Row → Item → Row) (items : List Item) : Option Row :=
  items.foldl (fun row item => some (change row item)) none

theorem gathered_snoc (items : List Item) (item : Item) :
    gathered change (items ++ [item]) = some (change (gathered change items) item) := by
  rw [gathered, List.foldl_append]
  rfl

theorem find?_absorbed (keyed : ∀ row item, key (change row item) = keyOf item)
    (items : List Item) (wanted : Key) :
    (items.foldl (absorb change keyOf) (empty : Table key)).find? wanted =
      gathered change (items.filter fun item => keyOf item = wanted) := by
  induction items using List.reverseRecOn with
  | nil => rfl
  | append_singleton items item ih =>
      rw [List.foldl_append, List.foldl_cons, List.foldl_nil, absorb, find?_insert, keyed,
        List.filter_append, List.filter_cons, List.filter_nil]
      by_cases hit : wanted = keyOf item
      · subst hit
        simp [gathered_snoc, ih]
      · rw [if_neg hit, ih, if_neg (by simpa using Ne.symm hit), List.append_nil]

theorem keys_absorbed (keyed : ∀ row item, key (change row item) = keyOf item)
    (items : List Item) :
    (items.foldl (absorb change keyOf) (empty : Table key)).keys =
      (items.map keyOf).eraseDups := by
  induction items using List.reverseRecOn with
  | nil => simp
  | append_singleton items item ih =>
      rw [List.foldl_append, List.foldl_cons, List.foldl_nil, absorb, List.map_append,
        List.map_singleton, Firsts.firsts_snoc, ← ih]
      have listed : keyOf item ∈ (items.foldl (absorb change keyOf) (empty : Table key)).keys ↔
          keyOf item ∈ items.map keyOf := by
        rw [ih, List.mem_eraseDups]
      by_cases known : keyOf item ∈ items.map keyOf
      · rw [if_pos known, insert_known _ _ (by rw [keyed, listed]; exact known), keys_map]
      · rw [if_neg known, keys_insert_new _ _ (by rw [keyed, listed]; exact known), keyed]

/-- The rows, key by key. -/
theorem rows_absorbed (keyed : ∀ row item, key (change row item) = keyOf item)
    (items : List Item) :
    (items.foldl (absorb change keyOf) (empty : Table key)).rows.map some =
      (items.map keyOf).eraseDups.map fun wanted =>
        gathered change (items.filter fun item => keyOf item = wanted) := by
  rw [← keys_absorbed keyed, keys, List.map_map]
  apply List.map_congr_left
  intro row member
  rw [Function.comp_apply, ← find?_absorbed keyed, find?_of_mem _ member]

end Choirworks.Table
