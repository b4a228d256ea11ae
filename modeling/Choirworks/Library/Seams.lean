import Choirworks.Library.Text
import Mathlib.Data.List.DropRight

/-!
A document of several texts, each put together from pieces. The full writing
breaks the line between two pieces of a text, the sparse one does not; both join
the texts that are not empty with a gap, and strip the document. They agree
exactly if no break stands between two characters that show. A character that
only the full writing has carries a mark.
-/

namespace Choirworks.Seams

variable {α : Type} (blank : α → Bool)

def strip (text : List α) : List α := (text.dropWhile blank).rdropWhile blank

def Shows (text : List α) : Prop := ∃ char ∈ text, blank char = false

@[simp] theorem shows_nil : Shows blank ([] : List α) ↔ False := by
  simp [Shows]

@[simp] theorem shows_cons (char : α) (text : List α) :
    Shows blank (char :: text) ↔ blank char = false ∨ Shows blank text := by
  simp [Shows]

@[simp] theorem shows_append (first rest : List α) :
    Shows blank (first ++ rest) ↔ Shows blank first ∨ Shows blank rest := by
  simp [Shows, or_and_right, exists_or]

/-! ### Marked texts -/

section Marks

def full (text : List (α × Bool)) : List α := text.map Prod.fst

def sparse (text : List (α × Bool)) : List α := (text.filter fun mark => !mark.2).map Prod.fst

@[simp] theorem full_append (first rest : List (α × Bool)) :
    full (first ++ rest) = full first ++ full rest := List.map_append

@[simp] theorem sparse_append (first rest : List (α × Bool)) :
    sparse (first ++ rest) = sparse first ++ sparse rest := by
  simp [sparse]

theorem sparse_cons (mark : α × Bool) (rest : List (α × Bool)) :
    sparse (mark :: rest) = if mark.2 = true then sparse rest else mark.1 :: sparse rest := by
  split <;> simp_all [sparse]

theorem sparse_eq_full_iff (text : List (α × Bool)) :
    sparse text = full text ↔ ∀ mark ∈ text, mark.2 = false := by
  constructor
  · intro same mark member
    have length := congrArg List.length same
    simp only [sparse, full, List.length_map] at length
    simpa using List.length_filter_eq_length_iff.mp length mark member
  · intro plain
    rw [sparse, List.filter_eq_self.mpr]
    · rfl
    · intro mark member
      simp [plain mark member]

/-- Every marked character is blank. -/
def Filled (text : List (α × Bool)) : Prop := ∀ mark ∈ text, mark.2 = true → blank mark.1 = true

theorem shows_sparse {text : List (α × Bool)} (filled : Filled blank text) :
    Shows blank (sparse text) ↔ Shows blank (full text) := by
  constructor
  · rintro ⟨char, member, shown⟩
    obtain ⟨mark, kept, rfl⟩ := List.mem_map.mp member
    exact ⟨mark.1, List.mem_map_of_mem (List.mem_of_mem_filter kept), shown⟩
  · rintro ⟨char, member, shown⟩
    obtain ⟨mark, inside, rfl⟩ := List.mem_map.mp member
    have plain : mark.2 ≠ true := by
      intro extra
      simp [filled mark inside extra] at shown
    exact ⟨mark.1, List.mem_map_of_mem (List.mem_filter.mpr ⟨inside, by simpa using plain⟩), shown⟩

/-- A marked character stands between two that show; `left` and `right` say
whether one shows before the text and behind it. -/
def Gap (left right : Prop) : List (α × Bool) → Prop
  | [] => False
  | mark :: rest =>
      (mark.2 = true ∧ left ∧ (Shows blank (full rest) ∨ right)) ∨
        Gap (left ∨ blank mark.1 = false) right rest

theorem gap_append (left right : Prop) (first rest : List (α × Bool)) :
    Gap blank left right (first ++ rest) ↔
      Gap blank left (Shows blank (full rest) ∨ right) first ∨
        Gap blank (left ∨ Shows blank (full first)) right rest := by
  induction first generalizing left with
  | nil => simp [Gap, full]
  | cons mark first ih =>
      have opened : (left ∨ blank mark.1 = false) ∨ Shows blank (full first) ↔
          left ∨ Shows blank (full (mark :: first)) := by
        simp [full, or_assoc]
      simp only [List.cons_append, Gap, ih, full_append, shows_append, opened, or_assoc]

theorem gap_of_extra {left right : Prop} {text : List (α × Bool)} (before : left) (behind : right) :
    Gap blank left right text ↔ ∃ mark ∈ text, mark.2 = true := by
  induction text generalizing left with
  | nil => simp [Gap]
  | cons mark rest ih =>
      rw [Gap, ih (.inl before), List.exists_mem_cons_iff]
      simp [before, behind]

/-- Without a character that shows before the text, its leading blanks do not matter. -/
theorem gap_drop {right : Prop} {text : List (α × Bool)} :
    Gap blank False right (text.dropWhile (blank ∘ Prod.fst)) ↔ Gap blank False right text := by
  induction text with
  | nil => rfl
  | cons mark rest ih =>
      rw [List.dropWhile_cons]
      split
      · rename_i empty
        have empty : blank mark.1 = true := empty
        simp [Gap, empty, ih]
      · rfl

theorem gap_rdrop {left : Prop} {text : List (α × Bool)} (before : left) (filled : Filled blank text) :
    Gap blank left False text ↔
      ∃ mark ∈ text.rdropWhile (blank ∘ Prod.fst), mark.2 = true := by
  induction text using List.reverseRecOn with
  | nil => simp [Gap]
  | append_singleton text mark ih =>
      have inner := ih fun other member => filled other (by simp [member])
      rw [gap_append]
      cases shown : blank mark.1 with
      | true =>
          rw [List.rdropWhile_concat_pos _ _ _ (by simpa using shown), ← inner]
          simp [Gap, full, shown]
      | false =>
          have plain : ¬ mark.2 = true := by
            intro marked
            simp [filled mark (by simp) marked] at shown
          rw [List.rdropWhile_concat_neg _ _ _ (by simpa using shown),
            gap_of_extra blank before (by simp [full, shown])]
          simp [Gap, plain, or_and_right, exists_or]

theorem rdropWhile_cons_of_not {β : Type} (drop : β → Bool) {first : β}
    (kept : drop first = false) (rest : List β) : (first :: rest).rdropWhile drop = first :: rest.rdropWhile drop := by
  induction rest using List.reverseRecOn with
  | nil => simp [List.rdropWhile_singleton, kept]
  | append_singleton rest last ih =>
      rw [← List.cons_append, List.rdropWhile_concat, List.rdropWhile_concat]
      split
      · exact ih
      · rfl

theorem strip_full (text : List (α × Bool)) :
    strip blank (full text) = full (strip (blank ∘ Prod.fst) text) := by
  simp only [strip, full, List.rdropWhile, List.dropWhile_map, ← List.map_reverse]

theorem filter_dropWhile {text : List (α × Bool)} (filled : Filled blank text) :
    (text.filter fun mark => !mark.2).dropWhile (blank ∘ Prod.fst) =
      (text.dropWhile (blank ∘ Prod.fst)).filter fun mark => !mark.2 := by
  induction text with
  | nil => rfl
  | cons mark rest ih =>
      have inner := ih fun other member => filled other (List.mem_cons_of_mem _ member)
      have self := filled mark List.mem_cons_self
      cases marked : mark.2 with
      | true => simpa [List.filter_cons, List.dropWhile_cons, marked, self marked] using inner
      | false =>
          rw [List.filter_cons_of_pos (by simp [marked]), List.dropWhile_cons, List.dropWhile_cons]
          split
          · exact inner
          · simp [marked]

theorem strip_sparse {text : List (α × Bool)} (filled : Filled blank text) :
    strip blank (sparse text) = sparse (strip (blank ∘ Prod.fst) text) := by
  have front := filter_dropWhile blank filled
  have back := @filter_dropWhile _ blank (text.dropWhile (blank ∘ Prod.fst)).reverse
    fun mark member => filled mark ((List.dropWhile_sublist _).subset (List.mem_reverse.mp member))
  simp only [strip, sparse, List.rdropWhile, List.dropWhile_map, ← List.map_reverse, front,
    ← List.filter_reverse, back]

/-- The stripped writings agree exactly if no marked character stands between two that show. -/
theorem strip_sparse_iff {text : List (α × Bool)} (filled : Filled blank text) :
    strip blank (sparse text) = strip blank (full text) ↔ ¬ Gap blank False False text := by
  rw [strip_full, strip_sparse blank filled, sparse_eq_full_iff, ← gap_drop]
  have trimmed : Filled blank (text.dropWhile (blank ∘ Prod.fst)) := fun mark member =>
    filled mark ((List.dropWhile_sublist _).subset member)
  cases remaining : text.dropWhile (blank ∘ Prod.fst) with
  | nil => simp [strip, remaining, Gap]
  | cons first rest =>
      have shown : blank first.1 = false := by
        have head := List.head_dropWhile_not (blank ∘ Prod.fst) (l := text) (by simp [remaining])
        simpa [remaining] using head
      rw [remaining] at trimmed
      have plain : ¬ first.2 = true := by
        intro marked
        simp [trimmed first List.mem_cons_self marked] at shown
      have kept : strip (blank ∘ Prod.fst) text = first :: rest.rdropWhile (blank ∘ Prod.fst) := by
        rw [strip, remaining]
        exact rdropWhile_cons_of_not (blank ∘ Prod.fst) shown rest
      rw [kept, Gap, gap_rdrop blank (.inr shown)
        fun mark member => trimmed mark (List.mem_cons_of_mem _ member)]
      simp [plain]

theorem strip_eq_nil_iff (text : List α) : strip blank text = [] ↔ ¬ Shows blank text := by
  constructor
  · rintro none ⟨char, member, shown⟩
    rw [strip, List.rdropWhile_eq_nil_iff] at none
    have split : text.takeWhile blank ++ text.dropWhile blank = text :=
      List.takeWhile_append_dropWhile
    rw [← split, List.mem_append] at member
    rcases member with front | behind
    · simp [List.mem_takeWhile_imp front] at shown
    · simp [none char behind] at shown
  · intro dark
    have blanks : ∀ char ∈ text, blank char = true := by
      intro char member
      by_contra shown
      exact dark ⟨char, member, by simpa using shown⟩
    rw [strip, List.dropWhile_eq_nil_iff.mpr blanks, List.rdropWhile_nil]

end Marks

/-! ### Pieces and texts -/

section Pieces

variable (line : α)

def plain (piece : List α) : List (α × Bool) := piece.map (·, false)

/-- The pieces of a text with marked breaks between them. -/
def marked : List (List α) → List (α × Bool)
  | [] => []
  | [piece] => plain piece
  | piece :: next :: rest => plain piece ++ (line, true) :: marked (next :: rest)

@[simp] theorem full_plain (piece : List α) : full (plain piece) = piece := by
  simp [full, plain, Function.comp_def]

@[simp] theorem sparse_plain (piece : List α) : sparse (plain piece) = piece := by
  simp [sparse, plain, List.filter_map, Function.comp_def]

@[simp] theorem gap_plain (left right : Prop) (piece : List α) :
    Gap blank left right (plain piece) ↔ False := by
  induction piece generalizing left with
  | nil => rfl
  | cons char piece ih => simpa [plain, Gap] using ih _

theorem full_marked (pieces : List (List α)) :
    full (marked line pieces) = [line].intercalate pieces := by
  induction pieces using marked.induct with
  | case1 => rfl
  | case2 piece => simp [marked]
  | case3 piece next rest ih =>
      rw [marked, full_append, full_plain, List.intercalate_cons_cons, ← ih]
      simp [full]

theorem sparse_marked (pieces : List (List α)) : sparse (marked line pieces) = pieces.flatten := by
  induction pieces using marked.induct with
  | case1 => rfl
  | case2 piece => simp [marked]
  | case3 piece next rest ih =>
      rw [marked, sparse_append, sparse_plain, List.flatten_cons, ← ih]
      simp [sparse]

theorem filled_marked (break_blank : blank line = true) (pieces : List (List α)) :
    Filled blank (marked line pieces) := by
  induction pieces using marked.induct with
  | case1 => simp [marked, Filled]
  | case2 piece => simp [marked, Filled, plain]
  | case3 piece next rest ih =>
      intro mark member
      rw [marked, List.mem_append, List.mem_cons] at member
      rcases member with inside | rfl | later
      · simp only [plain, List.mem_map] at inside
        obtain ⟨char, _, rfl⟩ := inside
        simp
      · exact fun _ => break_blank
      · exact ih mark later

/-- A break between two pieces of the text stands between characters that show. -/
def Torn (left right : Prop) (pieces : List (List α)) : Prop :=
  ∃ front back, pieces = front ++ back ∧ front ≠ [] ∧ back ≠ [] ∧
    (left ∨ Shows blank front.flatten) ∧ (Shows blank back.flatten ∨ right)

theorem torn_short {left right : Prop} {pieces : List (List α)} (short : pieces.length ≤ 1) :
    ¬ Torn blank left right pieces := by
  rintro ⟨front, back, rfl, some_front, some_back, _⟩
  have first := List.length_pos_iff.mpr some_front
  have second := List.length_pos_iff.mpr some_back
  rw [List.length_append] at short
  omega

theorem torn_cons {left right : Prop} {piece next : List α} {rest : List (List α)} :
    Torn blank left right (piece :: next :: rest) ↔
      ((left ∨ Shows blank piece) ∧ (Shows blank (next :: rest).flatten ∨ right)) ∨
        Torn blank (left ∨ Shows blank piece) right (next :: rest) := by
  constructor
  · rintro ⟨front, back, same, some_front, some_back, before, behind⟩
    cases front with
    | nil => exact absurd rfl some_front
    | cons first front =>
        obtain ⟨rfl, tail⟩ := List.cons.inj same
        cases front with
        | nil =>
            obtain rfl : next :: rest = back := tail
            exact .inl ⟨by simpa using before, behind⟩
        | cons second front =>
            refine .inr ⟨second :: front, back, tail, by simp, some_back, ?_, behind⟩
            simpa [or_assoc] using before
  · rintro (⟨before, behind⟩ | ⟨front, back, same, some_front, some_back, before, behind⟩)
    · exact ⟨[piece], next :: rest, rfl, by simp, by simp, by simpa using before, behind⟩
    · exact ⟨piece :: front, back, by simp [same], by simp, some_back,
        by simpa [or_assoc] using before, behind⟩

theorem gap_marked (break_blank : blank line = true) (left right : Prop) (pieces : List (List α)) :
    Gap blank left right (marked line pieces) ↔ Torn blank left right pieces := by
  induction pieces using marked.induct generalizing left with
  | case1 => simp [marked, Gap, torn_short]
  | case2 piece => simp [marked, torn_short]
  | case3 piece next rest ih =>
      have shown : Shows blank (full (marked line (next :: rest))) ↔
          Shows blank (next :: rest).flatten := by
        rw [← sparse_marked line, shows_sparse blank (filled_marked blank line break_blank _)]
      rw [marked, gap_append, gap_plain, false_or, full_plain, Gap, torn_cons, ih, shown]
      simp [break_blank]

/-! ### Documents -/

variable (gap : α)

/-- Two parts of a document; an empty one leaves no gap. -/
def glue (first rest : List α) : List α :=
  if first = [] then rest else if rest = [] then first else first ++ gap :: rest

theorem intercalate_filter [DecidableEq α] (texts : List (List α)) :
    [gap].intercalate (texts.filter (· ≠ [])) = texts.foldr (glue gap) [] := by
  induction texts with
  | nil => rfl
  | cons text texts ih =>
      rw [List.foldr_cons, ← ih, glue]
      cases text with
      | nil => simp
      | cons char text =>
          rw [List.filter_cons_of_pos (by simp)]
          cases remaining : texts.filter (· ≠ []) with
          | nil => simp
          | cons next others =>
              have some_next : next ≠ [] := by
                have member : next ∈ texts.filter (· ≠ []) := by
                  rw [remaining]
                  exact List.mem_cons_self
                simpa using (List.mem_filter.mp member).2
              have some_rest : [gap].intercalate (next :: others) ≠ [] := by
                cases others <;> simp [List.intercalate_cons_cons, some_next]
              rw [List.intercalate_cons_cons, if_neg (by simp), if_neg some_rest]
              simp

/-- The gap is marked where the sparse writing has none. -/
def glueMarked (first rest : List (α × Bool)) : List (α × Bool) :=
  if first = [] then rest else if rest = [] then first
  else first ++ (gap, (sparse first).isEmpty || (sparse rest).isEmpty) :: rest

theorem full_glueMarked (first rest : List (α × Bool)) :
    full (glueMarked gap first rest) = glue gap (full first) (full rest) := by
  unfold glueMarked glue
  split
  · simp [*, full]
  · split <;> simp [*, full]

theorem sparse_glueMarked (first rest : List (α × Bool)) :
    sparse (glueMarked gap first rest) = glue gap (sparse first) (sparse rest) := by
  rw [glueMarked]
  split
  · simp [*, sparse, glue]
  · split
    · cases empty : sparse first <;> simp [*, sparse, glue]
    · rw [sparse_append, sparse_cons]
      cases front : sparse first with
      | nil => simp [glue]
      | cons char text => cases back : sparse rest <;> simp [glue]

theorem filled_glueMarked (gap_blank : blank gap = true) {first rest : List (α × Bool)}
    (front : Filled blank first) (back : Filled blank rest) :
    Filled blank (glueMarked gap first rest) := by
  intro mark member
  rw [glueMarked] at member
  split at member
  · exact back mark member
  · split at member
    · exact front mark member
    · rcases List.mem_append.mp member with inside | inside
      · exact front mark inside
      · rcases List.mem_cons.mp inside with rfl | inside
        · exact fun _ => gap_blank
        · exact back mark inside

theorem not_shows_of_sparse_nil {text : List (α × Bool)} (filled : Filled blank text)
    (none : sparse text = []) : ¬ Shows blank (full text) := by
  rw [← shows_sparse blank filled, none]
  simp

theorem extra_of_sparse_nil {mark : α × Bool} {rest : List (α × Bool)}
    (none : sparse (mark :: rest) = []) : mark.2 = true := by
  rw [sparse_cons] at none
  split at none
  · assumption
  · cases none

/-- A marked gap adds no break of its own: the text beside it is blank and breaks itself. -/
theorem gap_glueMarked (gap_blank : blank gap = true) {left right : Prop}
    {first rest : List (α × Bool)} (front : Filled blank first) (back : Filled blank rest) :
    Gap blank left right (glueMarked gap first rest) ↔
      Gap blank left (Shows blank (full rest) ∨ right) first ∨
        Gap blank (left ∨ Shows blank (full first)) right rest := by
  rw [glueMarked]
  split
  · simp [*, Gap, full]
  · split
    · simp [*, Gap, full]
    · rename_i some_first some_rest
      rw [gap_append, Gap]
      have shown : Shows blank (full ((gap, (sparse first).isEmpty || (sparse rest).isEmpty) :: rest)) ↔
          Shows blank (full rest) := by
        simp [full, gap_blank]
      simp only [shown, gap_blank, Bool.true_eq_false, or_false]
      constructor
      · rintro (inside | ⟨extra, before, behind⟩ | inside)
        · exact .inl inside
        · rcases Bool.or_eq_true_iff.mp extra with empty | empty
          · have none := List.isEmpty_iff.mp empty
            have dark := not_shows_of_sparse_nil blank front none
            left
            cases first with
            | nil => exact absurd rfl some_first
            | cons mark first =>
                exact .inl ⟨extra_of_sparse_nil none, before.resolve_right dark, .inr behind⟩
          · have none := List.isEmpty_iff.mp empty
            have dark := not_shows_of_sparse_nil blank back none
            right
            cases rest with
            | nil => exact absurd rfl some_rest
            | cons mark rest =>
                exact .inl ⟨extra_of_sparse_nil none, before, .inr (behind.resolve_left dark)⟩
        · exact .inr inside
      · rintro (inside | inside)
        · exact .inl inside
        · exact .inr (.inr inside)

/-- Some break inside a text of the document stands between characters that show. -/
def Visible (left right : Prop) (document : List (List (List α))) : Prop :=
  ∃ before text behind, document = before ++ text :: behind ∧
    Torn blank (left ∨ Shows blank before.flatten.flatten)
      (Shows blank behind.flatten.flatten ∨ right) text

theorem visible_cons {left right : Prop} {text : List (List α)} {rest : List (List (List α))} :
    Visible blank left right (text :: rest) ↔
      Torn blank left (Shows blank rest.flatten.flatten ∨ right) text ∨
        Visible blank (left ∨ Shows blank text.flatten) right rest := by
  constructor
  · rintro ⟨before, torn, behind, same, found⟩
    cases before with
    | nil =>
        obtain ⟨rfl, rfl⟩ := List.cons.inj same
        exact .inl (by simpa using found)
    | cons first before =>
        obtain ⟨rfl, tail⟩ := List.cons.inj same
        exact .inr ⟨before, torn, behind, tail, by simpa [or_assoc] using found⟩
  · rintro (found | ⟨before, torn, behind, same, found⟩)
    · exact ⟨[], text, rest, rfl, by simpa using found⟩
    · exact ⟨text :: before, torn, behind, by simp [same], by simpa [or_assoc] using found⟩

def markedDocument (document : List (List (List α))) : List (α × Bool) :=
  (document.map (marked line)).foldr (glueMarked gap) []

theorem full_markedDocument (document : List (List (List α))) :
    full (markedDocument line gap document) =
      (document.map [line].intercalate).foldr (glue gap) [] := by
  induction document with
  | nil => rfl
  | cons text rest ih =>
      rw [markedDocument, List.map_cons, List.foldr_cons, full_glueMarked, full_marked]
      rw [markedDocument] at ih
      rw [ih, List.map_cons, List.foldr_cons]

theorem sparse_markedDocument (document : List (List (List α))) :
    sparse (markedDocument line gap document) =
      (document.map List.flatten).foldr (glue gap) [] := by
  induction document with
  | nil => rfl
  | cons text rest ih =>
      rw [markedDocument, List.map_cons, List.foldr_cons, sparse_glueMarked, sparse_marked]
      rw [markedDocument] at ih
      rw [ih, List.map_cons, List.foldr_cons]

variable (break_blank : blank line = true) (gap_blank : blank gap = true)

include break_blank gap_blank

theorem filled_markedDocument (document : List (List (List α))) :
    Filled blank (markedDocument line gap document) := by
  induction document with
  | nil => simp [markedDocument, Filled]
  | cons text rest ih =>
      exact filled_glueMarked blank gap gap_blank (filled_marked blank line break_blank text) ih

theorem shows_markedDocument (document : List (List (List α))) :
    Shows blank (full (markedDocument line gap document)) ↔
      Shows blank document.flatten.flatten := by
  rw [← shows_sparse blank (filled_markedDocument blank line gap break_blank gap_blank document),
    sparse_markedDocument]
  induction document with
  | nil => simp
  | cons text rest ih =>
      rw [List.map_cons, List.foldr_cons, glue, List.flatten_cons, List.flatten_append, shows_append,
        ← ih]
      split
      · simp [*]
      · split
        · simp [*]
        · simp [gap_blank]

theorem gap_markedDocument (left right : Prop) (document : List (List (List α))) :
    Gap blank left right (markedDocument line gap document) ↔
      Visible blank left right document := by
  induction document generalizing left with
  | nil => simp [markedDocument, Gap, Visible]
  | cons text rest ih =>
      have front := filled_marked blank line break_blank text
      have back := filled_markedDocument blank line gap break_blank gap_blank rest
      have first := @gap_glueMarked _ blank gap gap_blank left right _ _ front back
      have shown : Shows blank (full (marked line text)) ↔ Shows blank text.flatten := by
        rw [← sparse_marked line, shows_sparse blank front]
      rw [gap_marked blank line break_blank, ih, shown,
        shows_markedDocument blank line gap break_blank gap_blank] at first
      exact first.trans (visible_cons blank).symm

/-- Both writings of a document agree exactly if no break in it is visible. -/
theorem writings_agree_iff (document : List (List (List α))) :
    strip blank ((document.map List.flatten).foldr (glue gap) []) =
        strip blank ((document.map [line].intercalate).foldr (glue gap) []) ↔
      ¬ Visible blank False False document := by
  rw [← sparse_markedDocument line gap, ← full_markedDocument line gap,
    strip_sparse_iff blank (filled_markedDocument blank line gap break_blank gap_blank document),
    gap_markedDocument blank line gap break_blank gap_blank]

/-- A document with a visible break is not empty. -/
theorem writing_of_visible {document : List (List (List α))}
    (visible : Visible blank False False document) :
    strip blank ((document.map [line].intercalate).foldr (glue gap) []) ≠ [] := by
  rw [← full_markedDocument line gap, Ne, strip_eq_nil_iff, not_not]
  rw [shows_markedDocument blank line gap break_blank gap_blank]
  obtain ⟨before, text, behind, rfl, front, back, rfl, _, _, shown, _⟩ := visible
  rw [false_or] at shown
  simp only [List.flatten_append, List.flatten_cons, shows_append]
  rcases shown with shown | shown
  · exact .inl shown
  · exact .inr (.inl (.inl shown))

end Pieces

end Choirworks.Seams
