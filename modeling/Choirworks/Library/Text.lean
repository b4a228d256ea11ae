/-!
The string operations of Python's standard library that the modelled code
uses, over lists of characters. `replaceMatches` is `re.sub` for a pattern
given by its matcher: it scans from the left, replaces every match and goes on
behind it.
-/

namespace Choirworks.Text

/-- `str.isspace` of one character. -/
def isSpace (char : Char) : Bool :=
  let code := char.toNat
  (9 ≤ code && code ≤ 13) || (28 ≤ code && code ≤ 32) || code == 0x85 || code == 0xa0 ||
    code == 0x1680 || (0x2000 ≤ code && code ≤ 0x200a) || code == 0x2028 || code == 0x2029 ||
    code == 0x202f || code == 0x205f || code == 0x3000

/-- `text.strip()`. -/
def strip (text : List Char) : List Char :=
  ((text.dropWhile isSpace).reverse.dropWhile isSpace).reverse

def stripString (text : String) : String := String.ofList (strip text.toList)

def isLineBreak (char : Char) : Bool :=
  let code := char.toNat
  (10 ≤ code && code ≤ 13) || (28 ≤ code && code ≤ 30) || code == 0x85 || code == 0x2028 ||
    code == 0x2029

/-- `text.splitlines()`; `line` is what the current line has so far, last first. -/
def splitLines (line : List Char) : List Char → List (List Char)
  | [] => if line = [] then [] else [line.reverse]
  | '\r' :: '\n' :: rest => line.reverse :: splitLines [] rest
  | char :: rest =>
      if isLineBreak char then line.reverse :: splitLines [] rest
      else splitLines (char :: line) rest

/-- `text.split(separator)` for a separator of one character. -/
def split (separator : Char) : List Char → List (List Char)
  | [] => [[]]
  | char :: rest =>
      if char = separator then [] :: split separator rest
      else match split separator rest with
        | [] => [[char]]
        | first :: others => (char :: first) :: others

/-- The text in front of the first `separator` and the text behind it. -/
def cut (separator : Char) : List Char → Option (List Char × List Char)
  | [] => none
  | char :: rest =>
      if char = separator then some ([], rest)
      else (cut separator rest).map fun (before, after) => (char :: before, after)

/-- `separator.join(parts)`. -/
def join (separator : String) (parts : List String) : String :=
  separator.intercalate parts

/-- `afterPrefix lead text` is what follows `lead` at the start of `text`. -/
def afterPrefix : List Char → List Char → Option (List Char)
  | [], text => some text
  | _ :: _, [] => none
  | want :: lead, char :: text => if want = char then afterPrefix lead text else none

/-- `matcher` answers the replacement of a match at the start of a text and the
number of characters behind its first one; `skip` counts those still to leave
out. -/
def replaceMatches (matcher : List Char → Option (List Char × Nat)) :
    (skip : Nat) → List Char → List Char
  | _, [] => []
  | skip + 1, _ :: rest => replaceMatches matcher skip rest
  | 0, char :: rest =>
      match matcher (char :: rest) with
      | some (replacement, behind) => replacement ++ replaceMatches matcher behind rest
      | none => char :: replaceMatches matcher 0 rest

/-- `text.replace(old, new)` for a non-empty `old`. -/
def replace (old new : String) (text : String) : String :=
  let matcher := fun text =>
    (afterPrefix old.toList text).map fun _ => (new.toList, old.length - 1)
  String.ofList (replaceMatches matcher 0 text.toList)

/-- `needle in text`. -/
def occurs (needle : List Char) : List Char → Bool
  | [] => needle.isEmpty
  | char :: rest => (afterPrefix needle (char :: rest)).isSome || occurs needle rest

/-- `text[:limit]`. -/
def take (limit : Nat) (text : String) : String := String.ofList (text.toList.take limit)

/-! ### Pieces of a text -/

section Pieces

variable {separator : Char} {text : List Char}

theorem strip_within (text : List Char) : strip text <:+: text := by
  have front : (text.dropWhile isSpace).reverse.dropWhile isSpace <:+ (text.dropWhile isSpace).reverse :=
    List.dropWhile_suffix isSpace
  have back := List.reverse_prefix.mpr front
  rw [List.reverse_reverse] at back
  exact back.isInfix.trans (List.dropWhile_suffix isSpace).isInfix

/-- The first piece stands at the start of the text, the others in it. -/
theorem split_pieces (separator : Char) (text : List Char) :
    ∃ first others, split separator text = first :: others ∧ first <+: text ∧
      ∀ piece ∈ others, piece <:+: text := by
  induction text with
  | nil => exact ⟨[], [], rfl, List.prefix_refl _, by simp⟩
  | cons char rest ih =>
      obtain ⟨first, others, pieces, start, inside⟩ := ih
      have later : ∀ piece, piece <:+: rest → piece <:+: char :: rest :=
        fun piece within => within.trans (List.suffix_cons char rest).isInfix
      rw [split]
      split
      · refine ⟨[], split separator rest, rfl, List.nil_prefix, ?_⟩
        intro piece member
        rw [pieces] at member
        rcases List.mem_cons.mp member with rfl | behind
        · exact later piece start.isInfix
        · exact later piece (inside piece behind)
      · rw [pieces]
        exact ⟨char :: first, others, rfl, List.cons_prefix_cons.mpr ⟨rfl, start⟩,
          fun piece member => later piece (inside piece member)⟩

theorem cut_behind {before after : List Char} (found : cut separator text = some (before, after)) :
    after <:+ text := by
  induction text generalizing before with
  | nil => cases found
  | cons char rest ih =>
      rw [cut] at found
      split at found
      · cases found
        exact List.suffix_cons char _
      · obtain ⟨⟨front, back⟩, later, same⟩ := Option.map_eq_some_iff.mp found
        cases same
        exact (ih later).trans (List.suffix_cons char rest)

theorem split_free {text : List Char} (free : separator ∉ text) : split separator text = [text] := by
  induction text with
  | nil => rfl
  | cons char rest ih =>
      simp only [List.mem_cons, not_or] at free
      rw [split, if_neg (Ne.symm free.1), ih free.2]

/-- A last piece is split off. -/
theorem split_snoc (text : List Char) {piece : List Char} (free : separator ∉ piece) :
    split separator (text ++ separator :: piece) = split separator text ++ [piece] := by
  induction text with
  | nil =>
      simp only [List.nil_append, split, if_pos, split_free free]
      rfl
  | cons char rest ih =>
      simp only [List.cons_append, split]
      split
      · rw [ih, List.cons_append]
      · obtain ⟨first, others, pieces, _⟩ := split_pieces separator rest
        rw [ih, pieces]
        rfl

@[simp] theorem join_nil : join "" [] = "" := by simp [join]

theorem join_cons (text : String) (rest : List String) :
    join "" (text :: rest) = text ++ join "" rest := by
  cases rest with
  | nil => simp [join]
  | cons next rest => simp [join, String.intercalate_cons_cons]

theorem join_append (front back : List String) :
    join "" (front ++ back) = join "" front ++ join "" back := by
  induction front with
  | nil => simp [join]
  | cons text rest ih => rw [List.cons_append, join_cons, ih, join_cons, String.append_assoc]

theorem join_snoc (separator text last : String) (others : List String) :
    join separator (text :: others ++ [last]) = join separator (text :: others) ++ separator ++ last := by
  induction others generalizing text with
  | nil => simp [join]
  | cons next rest ih =>
      have later := ih next
      simp only [join, List.cons_append] at later ⊢
      simp only [String.intercalate_cons_cons, later, String.append_assoc]

/-- The pieces of a text with the separators between them are the text. -/
theorem join_split (separator : String) (char : Char) (single : separator.toList = [char])
    (text : List Char) : (join separator ((split char text).map String.ofList)).toList = text := by
  induction text with
  | nil => simp [split, join]
  | cons head rest ih =>
      obtain ⟨first, others, pieces, _⟩ := split_pieces char rest
      rw [split]
      split
      · rename_i same
        subst same
        rw [pieces] at ih ⊢
        simp only [join, List.map_cons] at ih ⊢
        rw [String.intercalate_cons_cons, String.toList_append, String.toList_append, ih, single]
        rfl
      · rw [pieces] at ih ⊢
        cases others with
        | nil =>
            simp only [join, List.map_cons, List.map_nil, String.intercalate_singleton,
              String.toList_ofList] at ih ⊢
            rw [ih]
        | cons next later =>
            simp only [join, List.map_cons, String.intercalate_cons_cons, String.toList_append,
              String.toList_ofList] at ih ⊢
            rw [← ih]
            simp

theorem cut_first {front : List Char} (free : separator ∉ front) (rest : List Char) :
    cut separator (front ++ separator :: rest) = some (front, rest) := by
  induction front with
  | nil => simp [cut]
  | cons char front ih =>
      simp only [List.mem_cons, not_or] at free
      rw [List.cons_append, cut, if_neg (Ne.symm free.1), ih free.2]
      rfl

end Pieces

/-! ### Replacing a text -/

section Replace

theorem after_prefix_iff {lead text rest : List Char} :
    afterPrefix lead text = some rest ↔ text = lead ++ rest := by
  induction lead generalizing text with
  | nil => cases text <;> exact Option.some_inj
  | cons want lead ih =>
      cases text with
      | nil => simp [afterPrefix]
      | cons first text =>
          rw [afterPrefix, List.cons_append, List.cons.injEq, eq_comm (a := first)]
          split
          · rename_i same
            simp [same, ih]
          · rename_i different
            simp [different]

/-- The matcher of `replace`. -/
def replaceMatcher (old new : List Char) (text : List Char) : Option (List Char × Nat) :=
  (afterPrefix old text).map fun _ => (new, old.length - 1)

theorem replace_eq (old new text : String) :
    (replace old new text).toList = replaceMatches (replaceMatcher old.toList new.toList) 0 text.toList := by
  simp only [replace, String.toList_ofList]
  rfl

theorem replace_matcher_eq (old new text : List Char) :
    replaceMatcher old new text = if old <+: text then some (new, old.length - 1) else none := by
  unfold replaceMatcher
  cases found : afterPrefix old text with
  | some rest =>
      have start : old <+: text := ⟨rest, (after_prefix_iff.mp found).symm⟩
      rw [if_pos start, Option.map_some]
  | none =>
      have different : ¬ old <+: text := by
        rintro ⟨rest, rfl⟩
        rw [after_prefix_iff.mpr rfl] at found
        cases found
      rw [if_neg different, Option.map_none]

end Replace

/-- `re.findall` of a mark and the word behind it, where the mark is no part of
a word: the words, in order. -/
def findWords (mark : Char) (isWord : Char → Bool) : List Char → List String
  | [] => []
  | char :: rest =>
      let word := rest.takeWhile isWord
      if char = mark ∧ word ≠ [] then String.ofList word :: findWords mark isWord rest
      else findWords mark isWord rest

/-! ### Texts that end in a number -/

theorem toString_nat_injective {left right : Nat} (same : toString left = toString right) :
    left = right := by
  have digits : Nat.toDigits 10 left = Nat.toDigits 10 right := by
    simpa using congrArg String.toList same
  have back := congrArg (fun digits => Nat.ofDigitChars 10 digits 0) digits
  simpa [Nat.ofDigitChars_toDigits] using back

/-- The digits at the end of a text, last first. -/
def trailingDigits (text : String) : List Char := text.toList.reverse.takeWhile Char.isDigit

def beforeDigits (text : String) : List Char := text.toList.reverse.dropWhile Char.isDigit

section Number

variable (lead : String) (last : Char) (count : Nat)

theorem digits_of_nat : ∀ char ∈ (toString count).toList.reverse, char.isDigit = true := by
  intro char member
  simp only [Nat.toString_eq_repr, Nat.toList_repr, List.mem_reverse] at member
  exact Nat.isDigit_of_mem_toDigits (by decide) (by decide) member

variable (letter : last.isDigit = false)

include letter in
theorem trailingDigits_number :
    trailingDigits (lead ++ String.singleton last ++ toString count) =
      (toString count).toList.reverse := by
  simp only [trailingDigits, String.toList_append, List.reverse_append, String.toList_singleton]
  rw [List.takeWhile_append_of_pos (digits_of_nat count)]
  simp [letter]

include letter in
theorem beforeDigits_number :
    beforeDigits (lead ++ String.singleton last ++ toString count) =
      last :: lead.toList.reverse := by
  simp only [beforeDigits, String.toList_append, List.reverse_append, String.toList_singleton]
  rw [List.dropWhile_append_of_pos (digits_of_nat count)]
  simp [letter]

include letter in
/-- The number at the end of a text can be read back. -/
theorem number_of_trailingDigits {other : Nat}
    (same : trailingDigits (lead ++ String.singleton last ++ toString count) =
      (toString other).toList.reverse) : count = other := by
  rw [trailingDigits_number lead last count letter] at same
  exact toString_nat_injective (String.toList_inj.mp (List.reverse_inj.mp same))

end Number

end Choirworks.Text
