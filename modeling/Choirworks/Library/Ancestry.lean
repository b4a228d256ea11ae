import Mathlib.Data.List.Chain
import Mathlib.Data.List.Nodup
import Mathlib.Logic.Relation

/-!
Chains of requests among colored items: `step` leads from an item to the one that
asked for it. `Apart` says that no item has an ancestor of its own color; then no
chain comes back, and none is longer than there are colors. It carries over to
twins that ask alike, and to one more item that nobody has asked through.
-/

namespace Choirworks.Ancestry

open Relation

universe u v
variable {Item : Type u} {Color : Type v}

def Apart (step : Item → Item → Prop) (color : Item → Color) : Prop :=
  ∀ item ancestor, TransGen step item ancestor → color ancestor ≠ color item

/-- Neither the item nor one of its ancestors has the color. -/
def Clear (step : Item → Item → Prop) (color : Item → Color) (item : Item) (shade : Color) : Prop :=
  ∀ ancestor, ReflTransGen step item ancestor → color ancestor ≠ shade

variable {step later : Item → Item → Prop} {color : Item → Color}

theorem Apart.acyclic (apart : Apart step color) (item : Item) : ¬TransGen step item item :=
  fun back => apart item item back rfl

/-- The colors along a chain are all different. -/
theorem Apart.nodup (apart : Apart step color) {items : List Item} (chain : items.IsChain step) :
    (items.map color).Nodup := by
  have onward : items.IsChain (TransGen step) := chain.imp fun _ _ => TransGen.single
  have pairs := List.isChain_iff_pairwise.mp onward
  exact List.pairwise_map.mpr (pairs.imp fun back => Ne.symm (apart _ _ back))

/-! ### Twins -/

/-- Whatever steps now has a twin that steps the same way. -/
structure Twins (step later : Item → Item → Prop) (color : Item → Color)
    (twin : Item → Item → Prop) : Prop where
  color : ∀ item other, twin item other → color other = color item
  onward : ∀ item other next, twin item other → later item next →
    ∃ onto, step other onto ∧ twin next onto

variable {twin : Item → Item → Prop}

theorem Twins.chain (twins : Twins step later color twin) {item other ancestor : Item}
    (same : twin item other) (back : ReflTransGen later item ancestor) :
    ∃ onto, ReflTransGen step other onto ∧ twin ancestor onto := by
  induction back with
  | refl => exact ⟨other, .refl, same⟩
  | tail _ last ih =>
      obtain ⟨mid, reached, alike⟩ := ih
      obtain ⟨onto, stepped, joined⟩ := twins.onward _ _ _ alike last
      exact ⟨onto, reached.tail stepped, joined⟩

theorem Twins.apart (twins : Twins step later color twin) (apart : Apart step color)
    (some_twin : ∀ item next, later item next → ∃ other, twin item other) : Apart later color := by
  intro item ancestor back
  obtain ⟨next, first, rest⟩ := TransGen.head'_iff.mp back
  obtain ⟨other, same⟩ := some_twin item next first
  obtain ⟨mid, stepped, alike⟩ := twins.onward item other next same first
  obtain ⟨onto, reached, joined⟩ := twins.chain alike rest
  rw [← twins.color item other same, ← twins.color ancestor onto joined]
  exact apart other onto (TransGen.head' stepped reached)

theorem Twins.clear (twins : Twins step later color twin) {item other : Item} {shade : Color}
    (same : twin item other) (clear : Clear step color other shade) :
    Clear later color item shade := by
  intro ancestor back
  obtain ⟨onto, reached, joined⟩ := twins.chain same back
  rw [← twins.color ancestor onto joined]
  exact clear onto reached

/-! ### One more item -/

/-- Nobody asks through the new item, and it asks of an old one or of nobody. -/
structure Grows (step later : Item → Item → Prop) (new : Item) : Prop where
  old : ∀ item next, item ≠ new → later item next → step item next ∧ next ≠ new
  own : ∀ next, later new next → next ≠ new

variable {new : Item}

theorem Grows.chain (grows : Grows step later new) {item ancestor : Item} (apart : item ≠ new)
    (back : ReflTransGen later item ancestor) : ReflTransGen step item ancestor ∧ ancestor ≠ new := by
  induction back with
  | refl => exact ⟨.refl, apart⟩
  | tail _ last ih =>
      obtain ⟨stepped, other⟩ := grows.old _ _ ih.2 last
      exact ⟨ih.1.tail stepped, other⟩

theorem Grows.apart (grows : Grows step later new) (apart : Apart step color)
    (own : ∀ next, later new next → Clear step color next (color new)) : Apart later color := by
  intro item ancestor back
  obtain ⟨next, first, rest⟩ := TransGen.head'_iff.mp back
  by_cases same : item = new
  · subst same
    exact own next first ancestor (grows.chain (grows.own next first) rest).1
  · obtain ⟨stepped, other⟩ := grows.old item next same first
    exact apart item ancestor (TransGen.head' stepped (grows.chain other rest).1)

theorem Grows.clear (grows : Grows step later new) {item : Item} {shade : Color} (other : item ≠ new)
    (clear : Clear step color item shade) : Clear later color item shade :=
  fun ancestor back => clear ancestor (grows.chain other back).1

end Choirworks.Ancestry
