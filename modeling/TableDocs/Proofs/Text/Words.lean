import Mathlib.Data.List.Chain
import TableDocs.Text.Blank

/-!
# TableDocs — words and the texts that collapsing leaves

* **`WordsOf`**, **`wordsOf_iff`** — the words of a text, whatever blanks stand between them.
* **`Collapsed`** — texts whose only blanks are single spaces between other characters.
* **`collapsed_collapse`**, **`Collapsed.collapse_eq`** — they are what collapsing leaves and what
  it leaves alone.
* **`Collapsed.cut`** — a cut that is marked by a word leaves such a text, wherever it falls.
* **`lines_eq_singleton`** — a text without line ends is one line.
-/

namespace TableDocs.Text

/-! ## Words

The words of a text are described with the blanks around them, which is how a reader sees them. The
function that collects them keeps the word under way, last character first. -/

/-- A word has a character, and none of its characters is blank. -/
structure IsWord (w : List Char) : Prop where
  ne_nil : w ≠ []
  noBlank : ∀ c ∈ w, isBlank c = false

/-- The words of a text, with any blanks around them. -/
inductive WordsOf : List (List Char) → List Char → Prop
  | nil {gap : List Char} (hgap : ∀ c ∈ gap, isBlank c = true) : WordsOf [] gap
  | cons {gap w behind : List Char} {ws : List (List Char)} (hgap : ∀ c ∈ gap, isBlank c = true)
      (hw : IsWord w) (hend : ∀ c ∈ behind.head?, isBlank c = true) (hws : WordsOf ws behind) :
      WordsOf (w :: ws) (gap ++ (w ++ behind))

theorem wordsFrom_of_blank {c : Char} (hc : isBlank c = true) (rest : List Char) :
    wordsFrom [] (c :: rest) = wordsFrom [] rest := by
  rw [wordsFrom, if_pos hc]
  rfl

/-- Blanks in front of a word give nothing. -/
theorem wordsFrom_blanks {gap : List Char} (hgap : ∀ c ∈ gap, isBlank c = true)
    (t : List Char) : wordsFrom [] (gap ++ t) = wordsFrom [] t := by
  induction gap with
  | nil => rfl
  | cons c gap ih =>
    rw [List.cons_append, wordsFrom_of_blank (hgap c List.mem_cons_self)]
    exact ih fun d hd => hgap d (List.mem_cons_of_mem c hd)

/-- The characters of a word go to the word under way. -/
theorem wordsFrom_append {w : List Char} (hw : ∀ c ∈ w, isBlank c = false) (pending t : List Char) :
    wordsFrom pending (w ++ t) = wordsFrom (w.reverse ++ pending) t := by
  induction w generalizing pending with
  | nil => rfl
  | cons c w ih =>
    have hc : ¬isBlank c = true := Bool.eq_false_iff.mp (hw c List.mem_cons_self)
    rw [List.cons_append, wordsFrom, if_neg hc, ih fun d hd => hw d (List.mem_cons_of_mem c hd),
      List.reverse_cons, List.append_assoc]
    rfl

/-- A word ends at the end of the text or in front of a blank. -/
theorem wordsFrom_of_end {pending t : List Char} (hpending : pending ≠ [])
    (hend : ∀ c ∈ t.head?, isBlank c = true) :
    wordsFrom pending t = pending.reverse :: wordsFrom [] t := by
  have hempty : ¬pending.isEmpty = true := by simpa using hpending
  cases t with
  | nil => rw [wordsFrom, if_neg hempty]; rfl
  | cons c rest =>
    have hc : isBlank c = true := hend c rfl
    rw [wordsFrom, if_pos hc, if_neg hempty, wordsFrom_of_blank hc]

/-- A text has the words that it is described by. -/
theorem WordsOf.words_eq {ws : List (List Char)} {t : List Char} (h : WordsOf ws t) :
    words t = ws := by
  induction h with
  | @nil gap hgap =>
    rw [words, ← List.append_nil gap, wordsFrom_blanks hgap]
    rfl
  | @cons gap w behind ws hgap hw hend hws ih =>
    have hne : w.reverse ++ [] ≠ [] := by simpa using hw.ne_nil
    rw [words, wordsFrom_blanks hgap, wordsFrom_append hw.noBlank, wordsFrom_of_end hne hend,
      List.append_nil, List.reverse_reverse, ← words, ih]

theorem WordsOf.cons_blank {ws : List (List Char)} {t : List Char} {c : Char}
    (hc : isBlank c = true) (h : WordsOf ws t) : WordsOf ws (c :: t) := by
  cases h with
  | nil hgap => exact .nil (List.forall_mem_cons.mpr ⟨hc, hgap⟩)
  | cons hgap hw hend hws => exact .cons (List.forall_mem_cons.mpr ⟨hc, hgap⟩) hw hend hws

theorem WordsOf.cons_word {ws : List (List Char)} {w behind : List Char} (hw : IsWord w)
    (hend : ∀ c ∈ behind.head?, isBlank c = true) (hws : WordsOf ws behind) :
    WordsOf (w :: ws) (w ++ behind) :=
  show WordsOf (w :: ws) ([] ++ (w ++ behind)) from .cons (List.forall_mem_nil _) hw hend hws

theorem isWord_reverse {pending : List Char} (hpending : ∀ c ∈ pending, isBlank c = false)
    (hne : ¬pending.isEmpty = true) : IsWord pending.reverse :=
  ⟨by simpa using hne, by simpa using hpending⟩

/-- And every text is described by its words, those of a word under way included. -/
theorem wordsOf_wordsFrom {pending : List Char} (hpending : ∀ c ∈ pending, isBlank c = false)
    (t : List Char) : WordsOf (wordsFrom pending t) (pending.reverse ++ t) := by
  induction t generalizing pending with
  | nil =>
    rw [wordsFrom]
    split
    · next hempty =>
      rw [List.isEmpty_iff.mp hempty]
      exact .nil (List.forall_mem_nil _)
    · next hne =>
      exact .cons_word (isWord_reverse hpending hne) (by simp) (.nil (List.forall_mem_nil _))
  | cons c rest ih =>
    rw [wordsFrom]
    split
    · next hc =>
      -- a blank ends the word under way, if there is one
      have hrest : WordsOf (wordsFrom [] rest) (c :: rest) :=
        .cons_blank hc (ih (List.forall_mem_nil _))
      split
      · next hempty =>
        rw [List.isEmpty_iff.mp hempty]
        exact hrest
      · next hne => exact .cons_word (isWord_reverse hpending hne) (by simpa using hc) hrest
    · next hc =>
      have hword := ih (List.forall_mem_cons.mpr ⟨by simpa using hc, hpending⟩)
      rwa [List.reverse_cons, List.append_assoc] at hword

/-- **The words of a text.** -/
theorem wordsOf_iff {ws : List (List Char)} {t : List Char} : WordsOf ws t ↔ words t = ws := by
  refine ⟨WordsOf.words_eq, ?_⟩
  rintro rfl
  exact wordsOf_wordsFrom (by simp) t

/-- Each of the words is one. -/
theorem WordsOf.isWord {ws : List (List Char)} {t : List Char} (h : WordsOf ws t) :
    ∀ w ∈ ws, IsWord w := by
  induction h with
  | nil => exact List.forall_mem_nil _
  | cons hgap hw hend hws ih => exact List.forall_mem_cons.mpr ⟨hw, ih⟩

/-- Words hold all characters of their text but the blanks. -/
theorem WordsOf.flatten_eq {ws : List (List Char)} {t : List Char} (h : WordsOf ws t) :
    ws.flatten = t.filter fun c => !isBlank c := by
  induction h with
  | nil hgap =>
    rw [List.flatten_nil, eq_comm, List.filter_eq_nil_iff]
    exact fun c hc => by simp [hgap c hc]
  | @cons gap w behind ws hgap hw hend hws ih =>
    -- of a gap nothing is kept, and of a word everything
    have hnone : (gap.filter fun c => !isBlank c) = [] :=
      List.filter_eq_nil_iff.mpr fun c hc => by simp [hgap c hc]
    have hall : (w.filter fun c => !isBlank c) = w :=
      List.filter_eq_self.mpr fun c hc => by simp [hw.noBlank c hc]
    rw [List.flatten_cons, List.filter_append, List.filter_append, hnone, hall, List.nil_append, ih]

/-! ## Collapsed texts

Collapsing joins the words of a text with single spaces. So what it leaves has no other blanks, no
two of them in a row and none at an end, and such a text is left alone. -/

/-- A text whose only blanks are spaces, each of them between other characters. -/
structure Collapsed (t : List Char) : Prop where
  blanks : ∀ c ∈ t, isBlank c = true → c = ' '
  single : t.IsChain fun c d => ¬(c = ' ' ∧ d = ' ')
  head : t.head? ≠ some ' '
  last : t.getLast? ≠ some ' '

theorem IsWord.ne_space {w : List Char} (hw : IsWord w) {c : Char} (hc : c ∈ w) : c ≠ ' ' := by
  rintro rfl
  exact absurd (hw.noBlank ' ' hc) (by decide)

/-- A word has no blanks at all. -/
theorem IsWord.collapsed {w : List Char} (hw : IsWord w) : Collapsed w where
  blanks c hc hblank := absurd (hw.noBlank c hc) (by simp [hblank])
  single := by
    apply List.Pairwise.isChain
    exact List.pairwise_of_forall_mem_list fun c hc _ _ => not_and_of_not_left _ (hw.ne_space hc)
  head h := hw.ne_space (List.mem_of_head? h) rfl
  last h := hw.ne_space (List.mem_of_getLast? h) rfl

/-- A word in front of a collapsed text, one space apart. -/
theorem Collapsed.cons_word {w t : List Char} (hw : IsWord w) (ht : Collapsed t) (hne : t ≠ []) :
    Collapsed (w ++ ' ' :: t) where
  blanks c hc hblank := by
    rcases List.mem_append.mp hc with hc | hc
    · exact hw.collapsed.blanks c hc hblank
    · rcases List.mem_cons.mp hc with rfl | hc
      · rfl
      · exact ht.blanks c hc hblank
  single := by
    have hspace : (' ' :: t).IsChain fun c d => ¬(c = ' ' ∧ d = ' ') := by
      cases t with
      | nil => exact absurd rfl hne
      | cons c t =>
        refine List.isChain_cons_cons.mpr ⟨fun h => ht.head ?_, ht.single⟩
        rw [h.2]
        rfl
    -- no two spaces stand side by side, in the word, behind it or at the seam
    refine List.isChain_append.mpr ⟨hw.collapsed.single, hspace, fun c hc d _ h => ?_⟩
    exact hw.ne_space (List.mem_of_getLast? hc) h.1
  head h := by
    rw [List.head?_append_of_ne_nil w hw.ne_nil] at h
    exact hw.collapsed.head h
  last h := by
    rw [List.getLast?_append_of_ne_nil w (List.cons_ne_nil ' ' t),
      List.getLast?_cons_of_ne_nil hne] at h
    exact ht.last h

theorem intercalate_ne_nil {w : List Char} (hw : IsWord w) (ws : List (List Char)) :
    [' '].intercalate (w :: ws) ≠ [] := by
  cases ws with
  | nil =>
    rw [List.intercalate_singleton]
    exact hw.ne_nil
  | cons w' ws =>
    rw [List.intercalate_cons_cons]
    simp

/-- Words that are joined by spaces. -/
theorem collapsed_intercalate {ws : List (List Char)} (hws : ∀ w ∈ ws, IsWord w) :
    Collapsed ([' '].intercalate ws) := by
  induction ws with
  | nil => exact ⟨by simp, by simp, by simp, by simp⟩
  | cons w ws ih =>
    have hw : IsWord w := hws w List.mem_cons_self
    cases ws with
    | nil =>
      rw [List.intercalate_singleton]
      exact hw.collapsed
    | cons w' ws =>
      obtain ⟨-, hrest⟩ := List.forall_mem_cons.mp hws
      have hw' : IsWord w' := hrest w' List.mem_cons_self
      rw [List.intercalate_cons_cons, List.append_assoc, List.singleton_append]
      exact (ih hrest).cons_word hw (intercalate_ne_nil hw' ws)

/-- **What collapsing leaves.** -/
theorem collapsed_collapse (t : List Char) : Collapsed (collapse t) :=
  collapsed_intercalate (wordsOf_iff.mpr rfl).isWord

/-- Behind a word under way a text need not start with a character. -/
theorem intercalate_wordsFrom {pending t : List Char}
    (hblanks : ∀ c ∈ t, isBlank c = true → c = ' ')
    (hsingle : t.IsChain fun c d => ¬(c = ' ' ∧ d = ' ')) (hlast : t.getLast? ≠ some ' ')
    (hhead : pending = [] → t.head? ≠ some ' ') :
    [' '].intercalate (wordsFrom pending t) = pending.reverse ++ t := by
  induction t generalizing pending with
  | nil =>
    rw [wordsFrom, List.append_nil]
    split
    · next hempty =>
      rw [List.isEmpty_iff.mp hempty]
      rfl
    · rw [List.intercalate_singleton]
  | cons c rest ih =>
    obtain ⟨hc, hmore⟩ := List.forall_mem_cons.mp hblanks
    have hlast' : rest.getLast? ≠ some ' ' := by
      cases rest with
      | nil => simp
      | cons d rest => rwa [List.getLast?_cons_cons] at hlast
    rw [wordsFrom]
    split
    · next hblank =>
      -- a blank ends the word under way, and another word follows it
      obtain rfl := hc hblank
      split
      · next hempty => exact absurd rfl (hhead (List.isEmpty_iff.mp hempty))
      · have hrest : rest ≠ [] := by
          rintro rfl
          exact hlast rfl
        have hnext : rest.head? ≠ some ' ' := by
          cases rest with
          | nil => simp
          | cons d rest =>
            rw [List.head?_cons]
            rintro hd
            exact (List.isChain_cons_cons.mp hsingle).1 ⟨rfl, Option.some.inj hd⟩
        have hwords : [' '].intercalate (wordsFrom [] rest) = rest :=
          ih hmore hsingle.tail hlast' fun _ => hnext
        have hne : wordsFrom [] rest ≠ [] := by
          intro hnil
          rw [hnil] at hwords
          exact hrest hwords.symm
        rw [List.intercalate_cons_of_ne_nil hne, hwords]
        simp
    · rw [ih hmore hsingle.tail hlast' fun h => absurd h (List.cons_ne_nil c pending),
        List.reverse_cons, List.append_assoc]
      rfl

/-- **What collapsing leaves alone.** -/
theorem Collapsed.collapse_eq {t : List Char} (h : Collapsed t) : collapse t = t :=
  intercalate_wordsFrom h.blanks h.single h.last fun _ => h.head

/-- **A marked cut.** It may fall beside a space, for the mark is a word. -/
theorem Collapsed.cut {t mark : List Char} (h : Collapsed t) (hmark : IsWord mark) (n : Nat) :
    Collapsed (t.take (n + 1) ++ mark) where
  blanks c hc hblank := by
    rcases List.mem_append.mp hc with hc | hc
    · exact h.blanks c (List.mem_of_mem_take hc) hblank
    · exact hmark.collapsed.blanks c hc hblank
  single := by
    refine List.isChain_append.mpr ⟨h.single.take (n + 1), hmark.collapsed.single, ?_⟩
    exact fun c _ d hd hspaces => hmark.ne_space (List.mem_of_head? hd) hspaces.2
  head hhead := by
    -- a cut takes at least one character, so an empty text is all that could start with the mark
    cases t with
    | nil => exact hmark.collapsed.head hhead
    | cons c t => exact h.head hhead
  last hlast := by
    rw [List.getLast?_append_of_ne_nil _ hmark.ne_nil] at hlast
    exact hmark.collapsed.last hlast

/-! ## Lines

A line ends at more characters than the line feed, all of them blank. So a collapsed text has none
of them. -/

theorem oneLine_of_all {s : List Char} (h : (s.all fun c => !isLineEnd c) = true) :
    ∀ c ∈ s, isLineEnd c = false := by
  simpa using h

/-- A character that ends a line is blank. -/
theorem isBlank_of_isLineEnd {c : Char} (h : isLineEnd c = true) : isBlank c = true := by
  simp only [isLineEnd, isBlank, Bool.or_eq_true, Bool.and_eq_true, decide_eq_true_eq,
    beq_iff_eq] at h ⊢
  omega

/-- No character of a collapsed text ends a line. -/
theorem Collapsed.isLineEnd_eq_false {t : List Char} (h : Collapsed t) {c : Char} (hc : c ∈ t) :
    isLineEnd c = false := by
  rw [← Bool.not_eq_true]
  intro hend
  obtain rfl := h.blanks c hc (isBlank_of_isLineEnd hend)
  exact absurd hend (by decide)

/-- Any other character goes to the line under way. -/
theorem linesFrom_of_other {c : Char} (hc : isLineEnd c = false) (pending s : List Char) :
    linesFrom pending (c :: s) = linesFrom (c :: pending) s := by
  rw [linesFrom.eq_def]
  split
  · next he => exact absurd he (List.cons_ne_nil c s)
  · next he =>
    cases he
    exact absurd hc (by decide)
  · next he =>
    cases he
    rw [if_neg (by simp [hc])]

/-- A line end ends the line under way, unless it is the first half of one of two characters. -/
theorem linesFrom_of_isLineEnd {c : Char} {s : List Char} (hc : isLineEnd c = true)
    (hpair : c = '\r' → s.head? ≠ some '\n') (pending : List Char) :
    linesFrom pending (c :: s) = pending.reverse :: linesFrom [] s := by
  rw [linesFrom.eq_def]
  split
  · next he => exact absurd he (List.cons_ne_nil c s)
  · next he =>
    cases he
    exact absurd rfl (hpair rfl)
  · next he =>
    cases he
    rw [if_pos hc]

/-- Without line ends all that is left goes to the line under way. -/
theorem linesFrom_of_oneLine {t : List Char} (ht : ∀ c ∈ t, isLineEnd c = false)
    {pending : List Char} (hne : pending.reverse ++ t ≠ []) :
    linesFrom pending t = [pending.reverse ++ t] := by
  induction t generalizing pending with
  | nil =>
    rw [List.append_nil] at hne ⊢
    rw [linesFrom, if_neg (by simpa using hne)]
  | cons c rest ih =>
    obtain ⟨hc, hrest⟩ := List.forall_mem_cons.mp ht
    have hmoved : (c :: pending).reverse ++ rest = pending.reverse ++ c :: rest := by simp
    rw [linesFrom_of_other hc, ih hrest (hmoved ▸ hne), hmoved]

/-- **A text without line ends** is one line. -/
theorem lines_eq_singleton {t : List Char} (ht : ∀ c ∈ t, isLineEnd c = false) (hne : t ≠ []) :
    lines t = [t] :=
  linesFrom_of_oneLine ht hne

end TableDocs.Text
