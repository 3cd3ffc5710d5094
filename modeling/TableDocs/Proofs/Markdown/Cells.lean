import Mathlib.Data.List.Chain
import Mathlib.Data.List.TakeWhile
import TableDocs.Markdown.Render

/-!
# TableDocs — rows keep their cells

A row is a line in which pipes part the cells. So a text can only break a row by a line end or by a
pipe that no backslash guards.

* **`OneCell`** — a text without either.
* **`oneCell_cell`** — what `cell` makes of any text is `OneCell`.
* **`cellsOf_row`** — a reader that parts a row at its bare pipes finds the cells it was made of.
-/

namespace TableDocs.Markdown

/-- Each pipe of a text stands directly behind a backslash. The space stands for the character in
front of the text. -/
def Guarded (text : List Char) : Prop :=
  (' ' :: text).IsChain fun before ch => ch = '|' → before = '\\'

/-- A text that can be a cell: it stands on one line, and no pipe of it is bare. -/
structure OneCell (text : List Char) : Prop where
  oneLine : ∀ ch ∈ text, Text.isLineEnd ch = false
  guarded : Guarded text

/-- Parts a line at its bare pipes; `pending` holds the cell under way, last character first. -/
def cellsFrom (pending : List Char) : List Char → List (List Char)
  | [] => [pending.reverse]
  | c :: rest =>
    if c = '|' ∧ pending.head? ≠ some '\\' then pending.reverse :: cellsFrom [] rest
    else cellsFrom (c :: pending) rest

/-- The texts between the bare pipes of a line, with those in front of the first and behind the
last. -/
def cellsOf (line : List Char) : List (List Char) :=
  cellsFrom [] line

/-- A cell with the spaces around it. -/
def padded (text : List Char) : List Char :=
  ' ' :: text ++ [' ']

/-! ## Guarded texts

To be guarded is a property of neighbours, so it is inherited by parts of a text. The one exception
is the part behind a backslash, whose first pipe would lose its guard. -/

section Guarded

variable {s t : List Char} {b : Char}

/-- A text without pipes has none to guard. -/
theorem guarded_of_no_pipe (h : ∀ ch ∈ t, ch ≠ '|') : Guarded t := by
  refine (List.isChain_iff_forall_rel_of_append_cons_cons).mpr ?_
  intro before ch l₁ l₂ heq hch
  refine absurd hch (h ch ?_)
  cases l₁ with
  | nil => simp_all
  | cons a l₁ => simp_all

/-- The front of a guarded text is guarded. -/
theorem Guarded.left (h : Guarded (s ++ t)) : Guarded s :=
  (List.isChain_append.mp (show List.IsChain _ ((' ' :: s) ++ t) from h)).1

/-- So is what stands behind any character but a backslash. -/
theorem Guarded.right (h : Guarded (s ++ b :: t)) (hb : b ≠ '\\') : Guarded t := by
  have ht : (b :: t).IsChain _ :=
    (List.isChain_append.mp (show List.IsChain _ ((' ' :: s) ++ b :: t) from h)).2.1
  cases t with
  | nil => exact .singleton _
  | cons c t =>
    obtain ⟨hbc, ht⟩ := List.isChain_cons_cons.mp ht
    exact List.isChain_cons_cons.mpr ⟨fun hc => absurd (hbc hc) hb, ht⟩

/-- Two guarded texts with a space between them: the space guards nothing, and needs no guard. -/
theorem Guarded.append (hs : Guarded s) (ht : Guarded t) : Guarded (s ++ ' ' :: t) := by
  rw [Guarded, ← List.cons_append]
  refine List.isChain_append.mpr ⟨hs, ht, ?_⟩
  intro before _ ch hch hpipe
  simp_all

/-- The character in front of a pipe of a guarded text is a backslash. -/
theorem Guarded.head?_of_pipe (h : Guarded (s.reverse ++ '|' :: t)) : s.head? = some '\\' := by
  obtain ⟨-, -, hlink⟩ :=
    List.isChain_append.mp (show List.IsChain _ ((' ' :: s.reverse) ++ '|' :: t) from h)
  cases s with
  | nil => exact absurd (hlink ' ' (by simp) '|' (by simp) rfl) (by decide)
  | cons b s =>
    have hlast : b ∈ (' ' :: (b :: s).reverse).getLast? := by
      rw [List.reverse_cons, ← List.cons_append, List.getLast?_append]
      rfl
    exact congrArg some (hlink b hlast '|' rfl rfl)

end Guarded

/-! ## What a cell is made of

The text of a cell is escaped, cut into lines, joined with spaces and trimmed. Each of these steps
keeps pipes guarded, and the second one takes the line ends away. -/

/-- Escaping puts a backslash in front of each pipe. -/
theorem guarded_escapePipes (text : List Char) : Guarded (escapePipes text) := by
  -- the induction needs the character in front, whatever it is
  have hbehind : ∀ before, (before :: escapePipes text).IsChain
      fun before ch => ch = '|' → before = '\\' := by
    induction text with
    | nil => exact fun before => .singleton _
    | cons c text ih =>
      intro before
      by_cases hc : c = '|'
      · simp only [escapePipes, List.flatMap_cons, if_pos hc]
        exact .cons_cons (fun h => absurd h (by decide)) (.cons_cons (fun _ => rfl) (ih '|'))
      · simp only [escapePipes, List.flatMap_cons, if_neg hc]
        exact .cons_cons (fun h => absurd h hc) (ih c)
  exact hbehind ' '

theorem ne_backslash_of_isLineEnd {c : Char} (h : Text.isLineEnd c = true) : c ≠ '\\' := by
  rintro rfl
  exact absurd h (by decide)

theorem ne_backslash_of_isBlank {c : Char} (h : Text.isBlank c = true) : c ≠ '\\' := by
  rintro rfl
  exact absurd h (by decide)

/-- The lines of a guarded text are cells. -/
theorem oneCell_of_mem_linesFrom {pending text : List Char}
    (hguarded : Guarded (pending.reverse ++ text))
    (hpending : ∀ ch ∈ pending, Text.isLineEnd ch = false) :
    ∀ line ∈ Text.linesFrom pending text, OneCell line := by
  -- The line under way is guarded together with what is still to be read.
  have hunder : OneCell pending.reverse := ⟨by simpa using hpending, hguarded.left⟩
  fun_induction Text.linesFrom pending text with
  | case1 pending hempty => simp
  | case2 pending hempty => simpa using hunder
  | case3 pending rest ih =>
    have hrest : Guarded rest := by
      rw [List.append_cons] at hguarded
      exact hguarded.right (by decide)
    intro line hline
    rcases List.mem_cons.mp hline with rfl | hline
    · exact hunder
    · exact ih hrest (by simp) ⟨by simp, .singleton _⟩ line hline
  | case4 pending c rest _ hend ih =>
    have hrest : Guarded rest := hguarded.right (ne_backslash_of_isLineEnd hend)
    intro line hline
    rcases List.mem_cons.mp hline with rfl | hline
    · exact hunder
    · exact ih hrest (by simp) ⟨by simp, .singleton _⟩ line hline
  | case5 pending c rest _ hend ih =>
    have hc : ∀ ch ∈ c :: pending, Text.isLineEnd ch = false := by
      simpa using And.intro ((eq_false_of_ne_true hend)) hpending
    have hguarded : Guarded ((c :: pending).reverse ++ rest) := by simpa using hguarded
    exact ih hguarded hc ⟨fun ch hch => hc ch (List.mem_reverse.mp hch), hguarded.left⟩

theorem OneCell.nil : OneCell [] :=
  ⟨by simp, .singleton _⟩

/-- Two cells joined by a space are one. -/
theorem OneCell.append {front rest : List Char} (hfront : OneCell front) (hrest : OneCell rest) :
    OneCell (front ++ ' ' :: rest) where
  oneLine ch hch := by
    rcases List.mem_append.mp hch with hch | hch
    · exact hfront.oneLine ch hch
    · rcases List.mem_cons.mp hch with rfl | hch
      · decide
      · exact hrest.oneLine ch hch
  guarded := hfront.guarded.append hrest.guarded

/-- So are any number of them. -/
theorem OneCell.intercalate {lines : List (List Char)} (h : ∀ line ∈ lines, OneCell line) :
    OneCell (List.intercalate [' '] lines) := by
  induction lines with
  | nil => exact .nil
  | cons line lines ih =>
    have hlines : OneCell (List.intercalate [' '] lines) :=
      ih fun l hl => h l (List.mem_cons_of_mem _ hl)
    cases lines with
    | nil => simpa [List.intercalate] using h line (by simp)
    | cons next lines =>
      rw [List.intercalate_cons_cons, List.append_assoc]
      exact (h line (by simp)).append hlines

/-- Trimming takes a stretch off either end, and only characters that satisfy the predicate off the
front. -/
theorem trimWhere_eq (p : Char → Bool) (text : List Char) :
    ∃ front back, text = front ++ (Text.trimWhere p text ++ back) ∧ ∀ ch ∈ front, p ch = true := by
  refine ⟨text.takeWhile p, ((text.dropWhile p).reverse.takeWhile p).reverse, ?_, ?_⟩
  · rw [Text.trimWhere, ← List.reverse_append, List.takeWhile_append_dropWhile,
      List.reverse_reverse, List.takeWhile_append_dropWhile]
  · exact fun ch hch => List.mem_takeWhile_imp hch

/-- Trimming a cell leaves a cell. -/
theorem OneCell.trim {text : List Char} (h : OneCell text) :
    OneCell (Text.trimWhere Text.isBlank text) := by
  obtain ⟨front, back, htext, hfront⟩ := trimWhere_eq Text.isBlank text
  constructor
  · intro ch hch
    exact h.oneLine ch (by rw [htext]; simp [hch])
  · have hguarded := h.guarded
    rw [htext] at hguarded
    -- Blanks are no backslashes, so dropping them at the front bares no pipe.
    induction front using List.reverseRecOn with
    | nil => exact hguarded.left (s := Text.trimWhere Text.isBlank text)
    | append_singleton front b _ =>
      rw [List.append_assoc] at hguarded
      have hb : b ≠ '\\' := ne_backslash_of_isBlank (hfront b (by simp))
      exact (hguarded.right hb).left (s := Text.trimWhere Text.isBlank text)

/-- **Any text fits into a cell.** -/
theorem oneCell_cell (text : String) : OneCell (cell text) := by
  have hguarded : Guarded (escapePipes text.toList) := guarded_escapePipes _
  have hlines : ∀ line ∈ Text.lines (escapePipes text.toList), OneCell line :=
    oneCell_of_mem_linesFrom hguarded (by simp)
  exact (OneCell.intercalate hlines).trim

/-! ## What a row is made of

A reader goes through a row with the cell under way. Inside a guarded cell no pipe stops it, so it
reads on to the bare pipe that the row puts behind the cell. -/

/-- A guarded text is read into the cell under way as a whole. -/
theorem cellsFrom_append {s t : List Char} (h : Guarded (s.reverse ++ t)) (rest : List Char) :
    cellsFrom s (t ++ rest) = cellsFrom (t.reverse ++ s) rest := by
  induction t generalizing s with
  | nil => rfl
  | cons c t ih =>
    have hinside : ¬(c = '|' ∧ s.head? ≠ some '\\') := by
      rintro ⟨rfl, hhead⟩
      exact hhead h.head?_of_pipe
    rw [List.cons_append, cellsFrom, if_neg hinside, ih (by simpa using h)]
    simp

/-- The cells of a row, behind whatever stands in front of its first pipe. -/
theorem cellsFrom_row {cells : List (List Char)} (h : ∀ c ∈ cells, Guarded c) {pending : List Char}
    (hpending : pending.head? ≠ some '\\') :
    cellsFrom pending (row cells) = pending.reverse :: (cells.map padded ++ [[]]) := by
  induction cells generalizing pending with
  | nil =>
    rw [row, List.flatMap_nil, List.nil_append, cellsFrom, if_pos ⟨rfl, hpending⟩]
    rfl
  | cons c cells ih =>
    -- the space at the end of the cell keeps the pipe behind it bare
    have hc : Guarded (padded c) := by
      have hspaced : Guarded (c ++ ' ' :: []) := (h c (by simp)).append (.singleton _)
      exact Guarded.append (s := []) (.singleton _) hspaced
    have hrow : row (c :: cells) = '|' :: (padded c ++ row cells) := by simp [row, padded]
    have hcells : ∀ a ∈ cells, Guarded a := fun a ha => h a (List.mem_cons_of_mem _ ha)
    rw [hrow, cellsFrom, if_pos ⟨rfl, hpending⟩,
      cellsFrom_append (s := []) (t := padded c) hc, ih hcells (by simp [padded])]
    simp

/-- A row that stands alone has an empty text in front of it and one behind it. -/
theorem cellsOf_row {cells : List (List Char)} (h : ∀ c ∈ cells, OneCell c) :
    cellsOf (row cells) = [] :: (cells.map padded ++ [[]]) :=
  cellsFrom_row (fun c hc => (h c hc).guarded) (by simp)

/-- A row of cells is one line. -/
theorem row_oneLine {cells : List (List Char)} (h : ∀ c ∈ cells, OneCell c) :
    ∀ ch ∈ row cells, Text.isLineEnd ch = false := by
  intro ch hch
  rcases List.mem_append.mp hch with hch | hch
  · obtain ⟨c, hc, hch⟩ := List.mem_flatMap.mp hch
    simp only [List.cons_append, List.nil_append, List.mem_cons, List.mem_append,
      List.not_mem_nil, or_false] at hch
    rcases hch with rfl | rfl | hch | rfl
    · decide
    · decide
    · exact (h c hc).oneLine ch hch
    · decide
  · obtain rfl := List.mem_singleton.mp hch
    decide

end TableDocs.Markdown
