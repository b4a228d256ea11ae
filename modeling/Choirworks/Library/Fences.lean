import Choirworks.Library.Markers

/-!
A fence puts text of others between an opening and a closing marker and elides
the markers in it. A traced text says of each character whether it is foreign;
it is fenced if the markers in it alternate, none is left open, and every
foreign character stands between an opening marker and its closing one.
-/

namespace Choirworks.Text

structure Fence where
  opening : String
  closing : String
  elided : String
  opens : opening.toList ≠ []
  closes : closing.toList ≠ []
  opening_apart : Apart opening.toList elided.toList
  closing_apart : Apart closing.toList elided.toList
  opening_line : '\n' ∉ opening.toList
  closing_line : '\n' ∉ closing.toList
  closing_alone : ¬opening.toList <:+: closing.toList
  opening_alone : ¬closing.toList <:+: opening.toList

namespace Fence

variable (fence : Fence)

def elide (text : String) : String :=
  replace fence.closing fence.elided (replace fence.opening fence.elided text)

def quote (text : String) : String :=
  fence.opening ++ "\n" ++ fence.elide text ++ "\n" ++ fence.closing

/-- No marker occurs in the text. -/
def Free (text : List Char) : Prop :=
  ¬fence.opening.toList <:+: text ∧ ¬fence.closing.toList <:+: text

/-! ### A quoted text -/

theorem elide_free (text : String) : fence.Free (fence.elide text).toList := by
  rw [elide, replace_eq, replace_eq]
  have removed : ¬fence.opening.toList <:+: replaceMatches
      (replaceMatcher fence.opening.toList fence.elided.toList) 0 text.toList :=
    fence.opening_apart.removes fence.opens
  exact ⟨fence.opening_apart.keeps_out fence.opens removed, fence.closing_apart.removes fence.closes⟩

theorem quote_chars (text : String) :
    (fence.quote text).toList =
      fence.opening.toList ++ '\n' :: ((fence.elide text).toList ++ '\n' :: fence.closing.toList) := by
  simp [quote]

theorem quote_opens (text : String) :
    OnceInFront fence.opening.toList (fence.quote text).toList := by
  cases named : fence.opening.toList with
  | nil => exact absurd named fence.opens
  | cons first others =>
      rw [quote_chars, ← named]
      refine once_in_front named fun occurs => ?_
      rcases infix_beside fence.opening_line occurs with inside | behind
      · have shorter := inside.length_le
        rw [named, List.length_cons] at shorter
        omega
      · rcases infix_beside fence.opening_line behind with inside | behind
        · exact (fence.elide_free text).1 inside
        · exact fence.closing_alone behind

theorem quote_closes (text : String) :
    OnceAtEnd fence.closing.toList (fence.quote text).toList := by
  rcases List.eq_nil_or_concat fence.closing.toList with none | ⟨others, last, named⟩
  · exact absurd none fence.closes
  · rw [List.concat_eq_append] at named
    have split : (fence.quote text).toList =
        (fence.opening.toList ++ '\n' :: ((fence.elide text).toList ++ ['\n'])) ++
          fence.closing.toList := by
      simp [quote_chars]
    rw [split]
    refine once_at_end named fun occurs => ?_
    simp only [List.append_assoc, List.cons_append, List.nil_append] at occurs
    rcases infix_beside fence.closing_line occurs with inside | behind
    · exact fence.opening_alone inside
    · rcases infix_beside fence.closing_line behind with inside | behind
      · exact (fence.elide_free text).2 inside
      · have shorter := behind.length_le
        rw [named, List.length_append, List.length_singleton] at shorter
        omega

end Fence

/-! ### Traced texts -/

/-- The characters of a text, each with whether it is foreign. -/
abbrev Traced := List (Char × Bool)

def own (text : String) : Traced := text.toList.map fun char => (char, false)

def foreign (text : String) : Traced := text.toList.map fun char => (char, true)

def chars (traced : Traced) : List Char := traced.map Prod.fst

@[simp] theorem chars_append (left right : Traced) :
    chars (left ++ right) = chars left ++ chars right := List.map_append

@[simp] theorem chars_own (text : String) : chars (own text) = text.toList := by
  simp [chars, own, Function.comp_def]

@[simp] theorem chars_foreign (text : String) : chars (foreign text) = text.toList := by
  simp [chars, foreign, Function.comp_def]

@[simp] theorem length_own (text : String) : List.length (own text) = text.length := by
  rw [own, List.length_map, String.length_toList]

@[simp] theorem own_append (left right : String) : own (left ++ right) = own left ++ own right := by
  simp [own]

namespace Fence

variable (fence : Fence)

/-- Whether the text is fenced, from a place that is inside of a fence or not.
`skip` counts the characters of a marker that are still to come. -/
def holds : (inside : Bool) → (skip : Nat) → Traced → Bool
  | inside, _, [] => !inside
  | inside, skip + 1, char :: rest => !char.2 && holds inside skip rest
  | inside, 0, char :: rest =>
      if fence.opening.toList <+: chars (char :: rest) then
        !inside && !char.2 && holds true (fence.opening.length - 1) rest
      else if fence.closing.toList <+: chars (char :: rest) then
        inside && !char.2 && holds false (fence.closing.length - 1) rest
      else (inside || !char.2) && holds inside 0 rest

/-- The text from its start. -/
def Fenced (traced : Traced) : Prop := fence.holds false 0 traced = true

instance (traced : Traced) : Decidable (fence.Fenced traced) :=
  inferInstanceAs (Decidable (_ = _))

variable {fence} {inside : Bool} {traced rest : Traced}

/-- The rest of a marker. -/
theorem holds_marker (text : List Char) :
    fence.holds inside text.length (text.map (fun char => (char, false)) ++ rest) =
      fence.holds inside 0 rest := by
  induction text with
  | nil => rfl
  | cons char text ih => simpa [holds] using ih

theorem holds_opening :
    fence.holds false 0 (own fence.opening ++ rest) = fence.holds true 0 rest := by
  cases named : fence.opening.toList with
  | nil => exact absurd named fence.opens
  | cons first others =>
      have length : fence.opening.length - 1 = others.length := by
        simp [← String.length_toList, named]
      have leads : fence.opening.toList <+: chars (own fence.opening ++ rest) := by simp
      have shape : own fence.opening ++ rest =
          (first, false) :: (others.map (fun char => (char, false)) ++ rest) := by
        simp [own, named]
      rw [shape] at leads ⊢
      rw [holds, if_pos leads, length, holds_marker]
      rfl

theorem holds_closing :
    fence.holds true 0 (own fence.closing ++ rest) = fence.holds false 0 rest := by
  cases named : fence.closing.toList with
  | nil => exact absurd named fence.closes
  | cons first others =>
      have length : fence.closing.length - 1 = others.length := by
        simp [← String.length_toList, named]
      have leads : fence.closing.toList <+: chars (own fence.closing ++ rest) := by simp
      have shape : own fence.closing ++ rest =
          (first, false) :: (others.map (fun char => (char, false)) ++ rest) := by
        simp [own, named]
      rw [shape] at leads ⊢
      have unopened : ¬fence.opening.toList <+: chars
          ((first, false) :: (others.map (fun char => (char, false)) ++ rest)) := by
        intro opened
        rcases List.prefix_or_prefix_of_prefix opened leads with within | around
        · exact fence.closing_alone within.isInfix
        · exact fence.opening_alone around.isInfix
      rw [holds, if_neg unopened, if_pos leads, length, holds_marker]
      rfl

/-- A stretch in which no marker begins, and without foreign characters unless
it is inside. -/
theorem holds_quiet
    (quiet : ∀ tail, tail <:+ traced → tail ≠ [] →
      ¬fence.opening.toList <+: chars (tail ++ rest) ∧
        ¬fence.closing.toList <+: chars (tail ++ rest))
    (shown : ∀ char ∈ traced, char.2 = true → inside = true) :
    fence.holds inside 0 (traced ++ rest) = fence.holds inside 0 rest := by
  induction traced with
  | nil => rfl
  | cons char traced ih =>
      obtain ⟨unopened, unclosed⟩ := quiet _ (List.suffix_refl _) (List.cons_ne_nil _ _)
      have later := ih (fun tail suffix => quiet tail (suffix.trans (List.suffix_cons char traced)))
        fun other member => shown other (List.mem_cons_of_mem char member)
      rw [List.cons_append] at unopened unclosed ⊢
      rw [holds, if_neg unopened, if_neg unclosed, later]
      have allowed : (inside || !char.2) = true := by
        cases kind : char.2 with
        | false => simp
        | true => simp [shown char List.mem_cons_self kind]
      rw [allowed, Bool.true_and]

theorem chars_suffix {tail : Traced} (suffix : tail <:+ traced) : chars tail <:+ chars traced := by
  obtain ⟨lead, rfl⟩ := suffix
  simp

/-- A line without markers. -/
theorem holds_line (text : List Char) (line : chars traced = text ++ ['\n']) (free : fence.Free text)
    (shown : ∀ char ∈ traced, char.2 = true → inside = true) :
    fence.holds inside 0 (traced ++ rest) = fence.holds inside 0 rest := by
  refine holds_quiet (fun tail suffix some => ?_) shown
  have kept := chars_suffix suffix
  rw [line] at kept
  -- What is left of the line is its end, so a marker there would be in the line.
  have inLine : ∃ front, front <:+ text ∧ chars tail = front ++ ['\n'] := by
    obtain ⟨lead, split⟩ := kept
    rcases List.eq_nil_or_concat (chars tail) with none | ⟨front, last, shape⟩
    · exact absurd (List.map_eq_nil_iff.mp none) some
    · rw [List.concat_eq_append] at shape
      rw [shape, ← List.append_assoc] at split
      obtain ⟨front_same, last_same⟩ := List.append_inj' split rfl
      exact ⟨front, ⟨lead, front_same⟩, by rw [shape, last_same]⟩
  obtain ⟨front, within, shape⟩ := inLine
  have clear : ∀ marker : List Char, '\n' ∉ marker → ¬marker <:+: text →
      ¬marker <+: chars (tail ++ rest) := by
    intro marker foreign absent leads
    rw [chars_append, shape, List.append_assoc] at leads
    exact absent ((prefix_before _ foreign leads).isInfix.trans within.isInfix)
  exact ⟨clear _ fence.opening_line free.1, clear _ fence.closing_line free.2⟩

/-- The end of a text. -/
theorem holds_end (free : fence.Free (chars traced))
    (shown : ∀ char ∈ traced, char.2 = true → inside = true) :
    fence.holds inside 0 traced = !inside := by
  have through : fence.holds inside 0 (traced ++ []) = fence.holds inside 0 [] := by
    refine holds_quiet (fun tail suffix _ => ?_) shown
    have kept := (chars_suffix suffix).isInfix
    rw [List.append_nil]
    exact ⟨fun leads => free.1 (leads.isInfix.trans kept),
      fun leads => free.2 (leads.isInfix.trans kept)⟩
  rw [List.append_nil] at through
  rw [through, holds]

/-! ### Texts without markers -/

section Free

variable {text part left right : List Char}

theorem Free.within (free : fence.Free text) (inside : part <:+: text) : fence.Free part :=
  ⟨fun occurs => free.1 (occurs.trans inside), fun occurs => free.2 (occurs.trans inside)⟩

theorem Free.beside (before : fence.Free left) (char : Char)
    (apart : char ∉ fence.opening.toList ∧ char ∉ fence.closing.toList)
    (behind : fence.Free right) :
    fence.Free (left ++ char :: right) := by
  constructor
  · intro occurs
    exact (infix_beside apart.1 occurs).elim before.1 behind.1
  · intro occurs
    exact (infix_beside apart.2 occurs).elim before.2 behind.2

theorem free_empty : fence.Free [] :=
  ⟨fun occurs => fence.opens (List.infix_nil.mp occurs),
    fun occurs => fence.closes (List.infix_nil.mp occurs)⟩

/-- A text without a character that both markers have. -/
theorem free_of_missing (char : Char) (opening : char ∈ fence.opening.toList) (closing : char ∈ fence.closing.toList)
    (missing : char ∉ text) : fence.Free text :=
  ⟨fun occurs => missing (occurs.subset opening), fun occurs => missing (occurs.subset closing)⟩

theorem dropLast_shorter (named : text ≠ []) : ¬text <:+: text.dropLast := by
  intro occurs
  have shorter := occurs.length_le
  have some := List.length_pos_iff.mpr named
  rw [List.length_dropLast] at shorter
  omega

/-- Neither marker stands in the front of a marker. -/
theorem opening_front : fence.Free fence.opening.toList.dropLast :=
  ⟨dropLast_shorter fence.opens,
    fun occurs => fence.opening_alone (occurs.trans (List.dropLast_prefix _).isInfix)⟩

theorem closing_front : fence.Free fence.closing.toList.dropLast :=
  ⟨fun occurs => fence.closing_alone (occurs.trans (List.dropLast_prefix _).isInfix),
    dropLast_shorter fence.closes⟩

theorem line_apart : '\n' ∉ fence.opening.toList ∧ '\n' ∉ fence.closing.toList :=
  ⟨fence.opening_line, fence.closing_line⟩

theorem take_within (text : List Char) {limit : Nat} (short : limit < text.length) :
    text.take limit <:+: text.dropLast := by
  rw [List.dropLast_eq_take]
  exact (List.take_prefix_take_left (by omega)).isInfix

end Free

/-! ### Quoted texts with traces -/

/-- The quoted text with its traces. -/
def quoted (fence : Fence) (text : String) : Traced :=
  own (fence.opening ++ "\n") ++ foreign (fence.elide text) ++ own ("\n" ++ fence.closing)

theorem chars_quoted (text : String) : chars (fence.quoted text) = (fence.quote text).toList := by
  simp [quoted, quote]

/-- What a quoted text has behind its opening marker. -/
def inner (fence : Fence) (text : String) : Traced :=
  own "\n" ++ foreign (fence.elide text) ++ own ("\n" ++ fence.closing)

theorem quoted_inner (text : String) : fence.quoted text = own fence.opening ++ fence.inner text := by
  simp [quoted, inner, List.append_assoc]

theorem inner_front (text : String) : fence.Free (chars (fence.inner text)).dropLast := by
  have shape : (chars (fence.inner text)).dropLast =
      [] ++ '\n' :: ((fence.elide text).toList ++ '\n' :: fence.closing.toList.dropLast) := by
    have split : chars (fence.inner text) =
        ('\n' :: ((fence.elide text).toList ++ ['\n'])) ++ fence.closing.toList := by
      simp [inner]
    rw [split, List.dropLast_append_of_ne_nil fence.closes]
    simp
  rw [shape]
  exact free_empty.beside _ line_apart ((fence.elide_free text).beside _ line_apart closing_front)

theorem holds_quoted (text : String) :
    fence.holds false 0 (fence.quoted text ++ rest) = fence.holds false 0 rest := by
  have lines : chars (own "\n" ++ foreign (fence.elide text) ++ own "\n") =
      ('\n' :: (fence.elide text).toList) ++ ['\n'] := by
    simp
  have shape : fence.quoted text ++ rest = own fence.opening ++
      ((own "\n" ++ foreign (fence.elide text) ++ own "\n") ++ (own fence.closing ++ rest)) := by
    simp [quoted, List.append_assoc]
  have free : fence.Free ('\n' :: (fence.elide text).toList) :=
    free_empty.beside _ line_apart (fence.elide_free text)
  rw [shape, holds_opening, holds_line _ lines free (fun _ _ _ => rfl), holds_closing]

section Headed

variable {line notice : String} {intro : List Char}

theorem own_shown {text : String} {inside : Bool} :
    ∀ char ∈ own text, char.2 = true → inside = true := by
  intro char member foreign
  obtain ⟨_, _, rfl⟩ := List.mem_map.mp member
  cases foreign

theorem holds_headed (ends : line.toList = intro ++ ['\n']) (free : fence.Free intro)
    (text : String) :
    fence.holds false 0 (own line ++ fence.quoted text ++ rest) = fence.holds false 0 rest := by
  rw [List.append_assoc, holds_line _ (by rw [chars_own, ends]) free own_shown, holds_quoted]

/-- A cut inside of the quoted text leaves its fence open. -/
theorem holds_headed_cut (ends : line.toList = intro ++ ['\n']) (free : fence.Free intro)
    (closed : fence.Free notice.toList) (text : String) (limit : Nat)
    (short : limit < (own line ++ fence.quoted text).length) :
    fence.holds false 0 ((own line ++ fence.quoted text).take limit ++ own ("\n" ++ notice)) =
      !decide (line.length + fence.opening.length ≤ limit) := by
  have notice_line : ∀ {inside : Bool} {front : Traced}, fence.Free (chars front) →
      (∀ char ∈ front, char.2 = true → inside = true) →
        fence.holds inside 0 (front ++ own ("\n" ++ notice)) = !inside := by
    intro inside front front_free shown
    have lines : chars (front ++ own "\n") = chars front ++ ['\n'] := by simp
    rw [own_append, ← List.append_assoc, holds_line _ lines front_free]
    · exact holds_end (by rwa [chars_own]) own_shown
    · intro char member
      rcases List.mem_append.mp member with old | new
      · exact shown char old
      · exact own_shown char new
  by_cases opened : line.length + fence.opening.length ≤ limit
  · -- The opening marker is complete, the closing one is not.
    have split : (own line ++ fence.quoted text).take limit = own line ++ (own fence.opening ++
        (fence.inner text).take (limit - line.length - fence.opening.length)) := by
      rw [quoted_inner, List.take_append, List.take_append, List.take_of_length_le,
        List.take_of_length_le]
      · simp only [length_own]
      · simp only [length_own]
        omega
      · simp only [length_own]
        omega
    have inside : limit - line.length - fence.opening.length < (fence.inner text).length := by
      rw [quoted_inner] at short
      simp only [List.length_append, length_own] at short
      omega
    rw [split, List.append_assoc, holds_line _ (by rw [chars_own, ends]) free own_shown,
      List.append_assoc, holds_opening, notice_line]
    · simp [opened]
    · have taken := take_within (chars (fence.inner text)) (by simpa [chars] using inside)
      have front := (fence.inner_front text).within taken
      rwa [chars, List.map_take]
    · exact fun _ _ _ => rfl
  · have whole : (own line ++ fence.quoted text).take limit =
        own (String.ofList ((line ++ fence.opening).toList.take limit)) := by
      rw [quoted_inner, ← List.append_assoc, ← own_append, List.take_append_of_le_length]
      · simp [own, List.map_take]
      · simp only [length_own, String.length_append]
        omega
    rw [whole, notice_line]
    · simp [opened]
    · have taken := take_within (line ++ fence.opening).toList (by
        rw [String.length_toList, String.length_append]
        exact Nat.lt_of_not_le opened)
      have shape : (line ++ fence.opening).toList.dropLast =
          intro ++ '\n' :: fence.opening.toList.dropLast := by
        rw [String.toList_append, ends, List.dropLast_append_of_ne_nil fence.opens]
        simp
      rw [shape] at taken
      rw [chars_own, String.toList_ofList]
      exact (free.beside _ line_apart opening_front).within taken
    · exact own_shown

end Headed

end Fence

end Choirworks.Text
