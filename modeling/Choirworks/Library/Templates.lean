import Choirworks.Library.Text
import Mathlib.Data.List.Basic

/-!
Texts with references in them. A matcher reads the reference at the start of a
text: its key and the number of characters behind its first one. `parts` splits
a text into characters and references before any value is known, and `render`
puts the values in, so what a value contains is never read again.
-/

namespace Choirworks.Templates

universe u

inductive Piece (Key : Type u) where
  | letter (char : Char)
  | ref (key : Key)

section Parts

variable {Key : Type u}

def Piece.render (value : Key → List Char) : Piece Key → List Char
  | .letter char => [char]
  | .ref key => value key

def Piece.key? : Piece Key → Option Key
  | .letter _ => none
  | .ref key => some key

def render (value : Key → List Char) (parts : List (Piece Key)) : List Char :=
  parts.flatMap (Piece.render value)

def keys (parts : List (Piece Key)) : List Key := parts.filterMap Piece.key?

/-- A text that refers to nothing. -/
def literal (text : List Char) : List (Piece Key) := text.map .letter

variable {value other : Key → List Char} {left right : List (Piece Key)}

@[simp] theorem render_nil : render value [] = [] := rfl

@[simp] theorem render_ref (key : Key) : render value [.ref key] = value key := by
  simp [render, Piece.render]

@[simp] theorem render_append : render value (left ++ right) = render value left ++ render value right :=
  List.flatMap_append

@[simp] theorem render_literal (text : List Char) : render value (literal text) = text := by
  induction text with
  | nil => rfl
  | cons first text ih => exact congrArg (first :: ·) ih

@[simp] theorem literal_append (text rest : List Char) :
    (literal (text ++ rest) : List (Piece Key)) = literal text ++ literal rest :=
  List.map_append

theorem mem_keys {key : Key} : key ∈ keys left ↔ .ref key ∈ left := by
  simp only [keys, List.mem_filterMap]
  constructor
  · rintro ⟨_ | other, member, ⟨⟩⟩
    exact member
  · exact fun member => ⟨.ref key, member, rfl⟩

/-- Only the values of the keys of a template matter. -/
theorem render_congr (same : ∀ key ∈ keys left, value key = other key) :
    render value left = render other left := by
  apply List.flatMap_congr
  rintro (char | key) member
  · rfl
  · exact same key (mem_keys.mpr member)

/-- With nothing put in, the characters remain. -/
theorem render_nothing_length (parts : List (Piece Key)) :
    (render (fun _ => []) parts).length + (keys parts).length = parts.length := by
  induction parts with
  | nil => rfl
  | cons part rest ih =>
      cases part with
      | letter char =>
          have here : (render (fun _ => []) (.letter char :: rest)).length =
              (render (fun _ => []) rest).length + 1 := by
            simp [render, Piece.render]
          have none : keys (.letter char :: rest) = keys rest := rfl
          rw [here, none, List.length_cons]
          omega
      | ref key =>
          have here : render (fun _ => []) (.ref key :: rest) = render (fun _ => []) rest := rfl
          have some : keys (.ref key :: rest) = key :: keys rest := rfl
          rw [here, some, List.length_cons, List.length_cons]
          omega

end Parts

/-! ### Reading a text -/

section Reading

variable {Key : Type u} (matcher : List Char → Option (Key × Nat))

def parts : (skip : Nat) → List Char → List (Piece Key)
  | _, [] => []
  | skip + 1, _ :: rest => parts skip rest
  | 0, first :: rest =>
      match matcher (first :: rest) with
      | some (key, behind) => .ref key :: parts behind rest
      | none => .letter first :: parts 0 rest

variable {matcher}

/-- Replacing the references of a text renders its parts. -/
theorem replace_matches_parts (value : Key → List Char) (skip : Nat) (text : List Char) :
    Text.replaceMatches
        (fun text => (matcher text).map fun (key, behind) => (value key, behind)) skip text =
      render value (parts matcher skip text) := by
  induction text generalizing skip with
  | nil => cases skip <;> rfl
  | cons first rest ih =>
      cases skip with
      | succ skip => exact ih skip
      | zero =>
          rw [Text.replaceMatches, parts]
          cases found : matcher (first :: rest) with
          | none => exact congrArg (first :: ·) (ih 0)
          | some hit => exact congrArg (value hit.1 ++ ·) (ih hit.2)

theorem parts_length (skip : Nat) (text : List Char) :
    (parts matcher skip text).length ≤ text.length := by
  induction text generalizing skip with
  | nil => cases skip <;> exact Nat.le_refl 0
  | cons first rest ih =>
      cases skip with
      | succ skip => exact Nat.le_succ_of_le (ih skip)
      | zero =>
          rw [parts]
          split
          · exact Nat.succ_le_succ (ih _)
          · exact Nat.succ_le_succ (ih 0)

/-- Every key was read somewhere in the text. -/
theorem key_matched {key : Key} (skip : Nat) (text : List Char)
    (member : key ∈ keys (parts matcher skip text)) :
    ∃ found behind, found <:+ text ∧ matcher found = some (key, behind) := by
  induction text generalizing skip with
  | nil => cases skip <;> cases member
  | cons first rest ih =>
      have later {skip : Nat} (member : key ∈ keys (parts matcher skip rest)) :
          ∃ found behind, found <:+ first :: rest ∧ matcher found = some (key, behind) := by
        obtain ⟨found, behind, ending, hit⟩ := ih skip member
        exact ⟨found, behind, ending.trans (List.suffix_cons first rest), hit⟩
      cases skip with
      | succ skip => exact later member
      | zero =>
          rw [parts] at member
          cases found : matcher (first :: rest) with
          | none =>
              simp only [found] at member
              exact later member
          | some hit =>
              simp only [found] at member
              rcases List.mem_cons.mp member with rfl | behind
              · exact ⟨first :: rest, hit.2, List.suffix_refl _, found⟩
              · exact later behind

/-- A text is its own template exactly if it holds no reference. -/
theorem parts_literal_iff (text : List Char) :
    parts matcher 0 text = literal text ↔ keys (parts matcher 0 text) = [] := by
  constructor
  · intro plain
    rw [plain]
    apply List.eq_nil_iff_forall_not_mem.mpr
    intro key member
    obtain ⟨_, _, ⟨⟩⟩ := List.mem_map.mp (mem_keys.mp member)
  · intro keyless
    induction text with
    | nil => rfl
    | cons first rest ih =>
        rw [parts] at keyless ⊢
        cases found : matcher (first :: rest) with
        | none =>
            simp only [found] at keyless ⊢
            exact congrArg (_ :: ·) (ih keyless)
        | some hit =>
            simp only [found] at keyless
            cases keyless

theorem keyless_iff (text : List Char) :
    keys (parts matcher 0 text) = [] ↔ ∀ behind, behind <:+ text → behind ≠ [] →
      matcher behind = none := by
  induction text with
  | nil =>
      simp [parts, keys]
  | cons first rest ih =>
      have here : (∀ behind, behind <:+ first :: rest → behind ≠ [] → matcher behind = none) ↔
          matcher (first :: rest) = none ∧
            ∀ behind, behind <:+ rest → behind ≠ [] → matcher behind = none := by
        simp [List.suffix_cons_iff, or_imp, forall_and]
      rw [here, ← ih, parts]
      cases found : matcher (first :: rest) with
      | none => simp [keys, Piece.key?]
      | some hit => simp [keys, Piece.key?]

/-- Whatever the values are, a text stays as it is exactly if it holds no
reference: with nothing put in, a reference would leave a gap. -/
theorem verbatim_iff (text : List Char) :
    render (fun _ => []) (parts matcher 0 text) = text ↔ keys (parts matcher 0 text) = [] := by
  constructor
  · intro same
    -- each reference takes up a character at least, and renders none
    have count := render_nothing_length (parts matcher 0 text)
    have bound : (parts matcher 0 text).length ≤ text.length := parts_length 0 text
    rw [same] at count
    exact List.length_eq_zero_iff.mp (by omega)
  · intro keyless
    rw [(parts_literal_iff text).mpr keyless, render_literal]

/-- A text none of whose characters starts a reference is passed over. -/
theorem parts_plain {text : List Char} (rest : List Char)
    (plain : ∀ char ∈ text, ∀ behind, matcher (char :: behind) = none) :
    parts matcher 0 (text ++ rest) = literal text ++ parts matcher 0 rest := by
  induction text with
  | nil => rfl
  | cons first text ih =>
      rw [List.cons_append, parts, plain first List.mem_cons_self]
      exact congrArg (_ :: ·) (ih fun char later => plain char (List.mem_cons_of_mem _ later))

theorem parts_skip (text rest : List Char) :
    parts matcher text.length (text ++ rest) = parts matcher 0 rest := by
  induction text with
  | nil => rfl
  | cons first text ih => exact ih

theorem parts_reference {first : Char} {text rest : List Char} {key : Key}
    (found : matcher (first :: text ++ rest) = some (key, text.length)) :
    parts matcher 0 (first :: text ++ rest) = .ref key :: parts matcher 0 rest := by
  rw [List.cons_append] at found ⊢
  rw [parts, found]
  exact congrArg (_ :: ·) (parts_skip text rest)

/-! ### Texts side by side -/

/-- What holds no `stop` cannot reach beyond one. -/
theorem prefix_seam {stop : Char} {lead : List Char} (foreign : stop ∉ lead)
    (text rest : List Char) : lead <+: text ++ stop :: rest ↔ lead <+: text := by
  induction lead generalizing text with
  | nil => simp
  | cons want lead ih =>
      obtain ⟨different, foreign⟩ := List.ne_and_not_mem_of_not_mem_cons foreign
      cases text with
      | nil => simp [List.cons_prefix_cons, Ne.symm different]
      | cons first text =>
          rw [List.cons_append, List.cons_prefix_cons, List.cons_prefix_cons, ih foreign]

/-- A reference lies within the text, and none reaches beyond a `stop`. -/
structure Stops (matcher : List Char → Option (Key × Nat)) (stop : Char) : Prop where
  inside : ∀ text key behind, matcher text = some (key, behind) → behind < text.length
  stops : ∀ text rest, matcher (text ++ stop :: rest) = matcher text

theorem parts_append {stop : Char} (bounded : Stops matcher stop) (text rest : List Char)
    (skip : Nat) (inside : skip ≤ text.length) :
    parts matcher skip (text ++ stop :: rest) =
      parts matcher skip text ++ parts matcher 0 (stop :: rest) := by
  induction text generalizing skip with
  | nil =>
      obtain rfl : skip = 0 := by simpa using inside
      rfl
  | cons first text ih =>
      cases skip with
      | succ skip => exact ih skip (by simpa using inside)
      | zero =>
          have same := bounded.stops (first :: text) rest
          rw [List.cons_append] at same ⊢
          rw [parts, parts, same]
          -- a reference that starts in the text ends in it
          cases found : matcher (first :: text) with
          | none => exact congrArg (_ :: ·) (ih 0 (Nat.zero_le _))
          | some hit =>
              have within := bounded.inside _ _ _ found
              exact congrArg (_ :: ·) (ih hit.2 (Nat.le_of_lt_succ within))

/-! ### Replacing a text -/

/-- The replacements are keys of their own. -/
theorem replace_matches_render (matcher : List Char → Option (List Char × Nat)) (skip : Nat)
    (text : List Char) :
    Text.replaceMatches matcher skip text = render id (parts matcher skip text) := by
  simpa using @replace_matches_parts (List Char) matcher id skip text

section Replace

variable {old new : List Char} {stop : Char}

theorem replace_stops (some_old : old ≠ []) (foreign : stop ∉ old) :
    Stops (Text.replaceMatcher old new) stop where
  inside := by
    intro text key behind found
    rw [Text.replace_matcher_eq] at found
    split at found
    · rename_i start
      cases found
      have long := List.length_pos_iff.mpr some_old
      have short := start.length_le
      omega
    · cases found
  stops := by
    intro text rest
    rw [Text.replace_matcher_eq, Text.replace_matcher_eq]
    simp only [prefix_seam foreign]

/-- No match reaches beyond a character that is not in the pattern. -/
theorem replace_matches_append (some_old : old ≠ []) (foreign : stop ∉ old)
    (text rest : List Char) :
    Text.replaceMatches (Text.replaceMatcher old new) 0 (text ++ stop :: rest) =
      Text.replaceMatches (Text.replaceMatcher old new) 0 text ++
        Text.replaceMatches (Text.replaceMatcher old new) 0 (stop :: rest) := by
  simp only [replace_matches_render]
  rw [parts_append (replace_stops some_old foreign) text rest 0 (Nat.zero_le _), render_append]

/-- A text without the first character of the pattern stays as it is. -/
theorem replace_matches_free {want : Char} {lead text : List Char} (free : want ∉ text) :
    Text.replaceMatches (Text.replaceMatcher (want :: lead) new) 0 text = text := by
  have plain : ∀ char ∈ text, ∀ behind,
      Text.replaceMatcher (want :: lead) new (char :: behind) = none := by
    intro char member behind
    have different : want ≠ char := fun same => free (same ▸ member)
    rw [Text.replace_matcher_eq, if_neg]
    exact fun start => different (List.cons_prefix_cons.mp start).1
  have split := parts_plain [] plain
  rw [List.append_nil] at split
  rw [replace_matches_render, split, render_append, render_literal]
  exact List.append_nil text

end Replace

end Reading

end Choirworks.Templates
