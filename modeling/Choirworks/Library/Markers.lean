import Mathlib.Data.List.Infix
import Choirworks.Library.Text

/-!
Marker words in texts. A replacement can bring a word into a text only across a
border of what it inserts, so a word that overlaps with the inserted one at no
border stays out. A fence puts an opening and a closing marker around a text,
and a character that no marker has keeps what stands on either side of it apart.
-/

namespace Choirworks.Text

variable {probe word old new text : List Char}

/-- One of the texts starts with the other. -/
def Comparable (left right : List Char) : Prop := left <+: right ∨ right <+: left

instance (left right : List Char) : Decidable (Comparable left right) :=
  inferInstanceAs (Decidable (_ ∨ _))

theorem comparable_of_append {rest : List Char} (leads : probe <+: word ++ rest) :
    Comparable probe word :=
  List.prefix_or_prefix_of_prefix leads (List.prefix_append word rest)

/-- No occurrence of `probe` can begin in `word` or run into it. -/
def Apart (probe word : List Char) : Prop :=
  (∀ tail ∈ word.tails, tail ≠ [] → ¬Comparable probe tail) ∧
    ∀ tail ∈ probe.tails, tail ≠ [] → ¬Comparable tail word

instance (probe word : List Char) : Decidable (Apart probe word) :=
  inferInstanceAs (Decidable (_ ∧ _))

section Replaced

/-- An occurrence behind the word does not begin in it. -/
theorem Apart.behind (apart : Apart probe word) {rest : List Char}
    (occurs : probe <:+: word ++ rest) : probe <:+: rest := by
  have later : ∀ tail, tail <:+ word → probe <:+: tail ++ rest → probe <:+: rest := by
    intro tail
    induction tail with
    | nil => exact fun _ occurs => occurs
    | cons char tail ih =>
        intro suffix occurs
        rcases List.infix_cons_iff.mp occurs with leads | inside
        · have clash : Comparable probe (char :: tail) := comparable_of_append leads
          exact absurd clash (apart.1 _ ((List.mem_tails _ _).mpr suffix) (List.cons_ne_nil _ _))
        · exact ih ((List.suffix_cons char tail).trans suffix) inside
  exact later word (List.suffix_refl word) occurs

/-- What the replaced text starts with, the text starts with. -/
theorem Apart.prefix_of_replaced (apart : Apart probe new) {tail : List Char}
    (suffix : tail <:+ probe)
    (leads : tail <+: replaceMatches (replaceMatcher old new) 0 text) : tail <+: text := by
  induction text generalizing tail with
  | nil => exact leads
  | cons char rest ih =>
      cases tail with
      | nil => exact List.nil_prefix
      | cons want tail =>
          rw [replaceMatches] at leads
          cases found : replaceMatcher old new (char :: rest) with
          | none =>
              simp only [found, List.cons_prefix_cons] at leads ⊢
              exact ⟨leads.1, ih ((List.suffix_cons want tail).trans suffix) leads.2⟩
          | some hit =>
              obtain ⟨_, _, rfl⟩ := Option.map_eq_some_iff.mp found
              rw [found] at leads
              have clash := comparable_of_append leads
              exact absurd clash
                (apart.2 _ ((List.mem_tails _ _).mpr suffix) (List.cons_ne_nil _ _))

/-- Where the replaced text has the word, the text has it, at a place that was
left alone. -/
theorem Apart.of_replaced (apart : Apart probe new) (named : probe ≠ []) {skip : Nat}
    (occurs : probe <:+: replaceMatches (replaceMatcher old new) skip text) :
    ∃ rest, rest <:+ text ∧ probe <+: rest ∧ replaceMatcher old new rest = none := by
  induction text generalizing skip with
  | nil =>
      rw [replaceMatches] at occurs
      exact absurd (List.infix_nil.mp occurs) named
  | cons char rest ih =>
      have later : ∀ skip, probe <:+: replaceMatches (replaceMatcher old new) skip rest →
          ∃ tail, tail <:+ char :: rest ∧ probe <+: tail ∧ replaceMatcher old new tail = none := by
        intro skip occurs
        obtain ⟨tail, suffix, found⟩ := ih occurs
        exact ⟨tail, suffix.trans (List.suffix_cons char rest), found⟩
      cases skip with
      | succ skip =>
          rw [replaceMatches] at occurs
          exact later skip occurs
      | zero =>
          rw [replaceMatches] at occurs
          cases found : replaceMatcher old new (char :: rest) with
          | none =>
              simp only [found] at occurs
              rcases List.infix_cons_iff.mp occurs with leads | inside
              · have kept : replaceMatches (replaceMatcher old new) 0 (char :: rest) =
                    char :: replaceMatches (replaceMatcher old new) 0 rest := by
                  rw [replaceMatches, found]
                exact ⟨_, List.suffix_refl _,
                  apart.prefix_of_replaced (List.suffix_refl probe) (kept ▸ leads), found⟩
              · exact later 0 inside
          | some hit =>
              obtain ⟨_, _, rfl⟩ := Option.map_eq_some_iff.mp found
              simp only [found] at occurs
              exact later _ (apart.behind occurs)

/-- A replacement brings no word in that is apart from what it inserts. -/
theorem Apart.keeps_out (apart : Apart probe new) (named : probe ≠ [])
    (free : ¬probe <:+: text) :
    ¬probe <:+: replaceMatches (replaceMatcher old new) 0 text := by
  intro occurs
  obtain ⟨rest, suffix, leads, _⟩ := apart.of_replaced named occurs
  exact free (leads.isInfix.trans suffix.isInfix)

theorem afterPrefix_of_prefix (leads : probe <+: text) : (afterPrefix probe text).isSome = true := by
  induction probe generalizing text with
  | nil =>
      cases text <;> rfl
  | cons want probe ih =>
      cases text with
      | nil => simp at leads
      | cons char text =>
          obtain ⟨rfl, shorter⟩ := List.cons_prefix_cons.mp leads
          simpa [afterPrefix] using ih shorter

/-- A replacement leaves nothing of the replaced word. -/
theorem Apart.removes (apart : Apart old new) (named : old ≠ []) :
    ¬old <:+: replaceMatches (replaceMatcher old new) 0 text := by
  intro occurs
  obtain ⟨rest, _, leads, left⟩ := apart.of_replaced named occurs
  have hit := afterPrefix_of_prefix leads
  rw [replaceMatcher, Option.map_eq_none_iff] at left
  simp [left] at hit

end Replaced

/-! ### A character that no marker has -/

section Barrier

variable {char : Char} {left right : List Char}

variable (left) in
theorem prefix_before (foreign : char ∉ probe) (leads : probe <+: left ++ char :: right) :
    probe <+: left := by
  rcases List.prefix_or_prefix_of_prefix leads (List.prefix_append left (char :: right)) with
    inside | longer
  · exact inside
  · obtain ⟨more, rfl⟩ := longer
    have leads := (List.prefix_append_right_inj left).mp leads
    cases more with
    | nil => simp
    | cons first more =>
        obtain ⟨rfl, _⟩ := List.cons_prefix_cons.mp leads
        simp at foreign

/-- An occurrence stands on one side. -/
theorem infix_beside (foreign : char ∉ probe) (occurs : probe <:+: left ++ char :: right) :
    probe <:+: left ∨ probe <:+: right := by
  induction left with
  | nil =>
      rcases List.infix_cons_iff.mp occurs with leads | inside
      · exact Or.inl (prefix_before [] foreign leads).isInfix
      · exact Or.inr inside
  | cons first left ih =>
      rw [List.cons_append] at occurs
      rcases List.infix_cons_iff.mp occurs with leads | inside
      · exact Or.inl (prefix_before (first :: left) foreign leads).isInfix
      · exact (ih inside).imp_left fun found => found.trans (List.suffix_cons first left).isInfix

end Barrier

/-! ### Markers that stand at the ends alone -/

/-- The marker occurs once, in front. -/
def OnceInFront (marker text : List Char) : Prop :=
  marker <+: text ∧ ∀ lead rest, text = lead ++ marker ++ rest → lead = []

/-- The marker occurs once, at the end. -/
def OnceAtEnd (marker text : List Char) : Prop :=
  marker <:+ text ∧ ∀ lead rest, text = lead ++ marker ++ rest → rest = []

theorem once_in_front {marker rest : List Char} {first : Char} {others : List Char}
    (named : marker = first :: others) (free : ¬marker <:+: others ++ rest) :
    OnceInFront marker (marker ++ rest) := by
  refine ⟨List.prefix_append marker rest, fun lead behind same => ?_⟩
  cases lead with
  | nil => rfl
  | cons char lead =>
      have shifted : others ++ rest = lead ++ marker ++ behind := by
        have tails := congrArg List.tail same
        simpa [named] using tails
      exact absurd ⟨lead, behind, shifted.symm⟩ free

theorem once_at_end {marker lead : List Char} {last : Char} {others : List Char}
    (named : marker = others ++ [last]) (free : ¬marker <:+: lead ++ others) :
    OnceAtEnd marker (lead ++ marker) := by
  refine ⟨List.suffix_append lead marker, fun front rest same => ?_⟩
  rcases List.eq_nil_or_concat rest with rfl | ⟨rest, char, rfl⟩
  · rfl
  · have shifted : lead ++ others = front ++ marker ++ rest := by
      have heads := congrArg List.dropLast same
      rw [named, List.concat_eq_append, ← List.append_assoc, ← List.append_assoc,
        ← List.append_assoc, List.dropLast_concat, List.dropLast_concat] at heads
      rw [heads, named, List.append_assoc front]
    exact absurd ⟨front, rest, shifted.symm⟩ free

end Choirworks.Text
