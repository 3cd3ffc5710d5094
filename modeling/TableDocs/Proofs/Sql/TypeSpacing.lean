import TableDocs.Proofs.Sql.BodyAlone
import TableDocs.Proofs.Sql.LayoutIndependence

/-!
# TableDocs — the spacing of a type

The text of a type is the text of its lexemes with something in each gap. In the source it is what
stands there, in the normal form a space or nothing:

* **`filled`** — lexemes with their gaps filled.
* **`gap_eq`** — which gaps keep a space, in terms of the gap and of the kinds on both sides of it.
* **`slice_eq_filled`** — the source text of lexemes that stand in order, as those of a script do
  (`normalize_of_ofScript`).
* **`laidOut`** — the same lexemes at the places that they have in the normal form.
* **`normalize_laidOut`** — from there the normal form is the same again. A gap that was closed has
  no room any more, and one that keeps a space still has room for it.
-/

namespace TableDocs.Sql.TypeText

/-! ## Lexemes with their gaps filled

The source and the normal form hold the same lexemes and differ in what stands between them. So both
are told by one function, with what fills a gap as a parameter. -/

/-- The text of lexemes behind `previous`, with `fill` between neighbours. -/
def filledAfter (script : Array Char) (fill : Lexeme → Lexeme → List Char) (previous : Lexeme) :
    List Lexeme → List Char
  | [] => []
  | l :: ls => fill previous l ++ slice script l.start l.stop ++ filledAfter script fill l ls

/-- The text of lexemes, with `fill` between neighbours. -/
def filled (script : Array Char) (fill : Lexeme → Lexeme → List Char) : List Lexeme → List Char
  | [] => []
  | l :: ls => slice script l.start l.stop ++ filledAfter script fill l ls

/-- Neighbours that are one space apart in the normal form. -/
structure Spaced (previous l : Lexeme) : Prop where
  /-- The source has a gap there. -/
  gap : previous.stop < l.start
  before : ∀ p ∈ [Punct.openParen, .closeParen, .openBracket, .closeBracket, .comma],
    l.kind ≠ .punct p
  behind : ∀ p ∈ [Punct.openParen, .openBracket], previous.kind ≠ .punct p

instance (previous l : Lexeme) : Decidable (Spaced previous l) :=
  decidable_of_iff
    (previous.stop < l.start ∧
      (∀ p ∈ [Punct.openParen, .closeParen, .openBracket, .closeBracket, .comma],
        l.kind ≠ .punct p) ∧
      ∀ p ∈ [Punct.openParen, .openBracket], previous.kind ≠ .punct p)
    ⟨fun ⟨hgap, hbefore, hbehind⟩ => ⟨hgap, hbefore, hbehind⟩,
      fun h => ⟨h.gap, h.before, h.behind⟩⟩

/-- What stands between neighbours in the normal form. -/
def space (previous l : Lexeme) : List Char :=
  if Spaced previous l then [' '] else []

/-- **The gaps of the normal form.** -/
theorem gap_eq (previous l : Lexeme) : gap previous l = space previous l := by
  have hbefore : closesUp l = false ↔
      ∀ p ∈ [Punct.openParen, .closeParen, .openBracket, .closeBracket, .comma],
        l.kind ≠ .punct p := by
    simp [closesUp, Lexeme.isPunct]
  have hbehind : opensTight previous = false ↔
      ∀ p ∈ [Punct.openParen, .openBracket], previous.kind ≠ .punct p := by
    simp [opensTight, Lexeme.isPunct]
  have hspaced : Spaced previous l ↔
      (decide (previous.stop < l.start) && !closesUp l && !opensTight previous) = true := by
    simp only [Bool.and_eq_true, decide_eq_true_eq, Bool.not_eq_true', hbefore, hbehind]
    exact ⟨fun h => ⟨⟨h.gap, h.before⟩, h.behind⟩, fun h => ⟨h.1.1, h.1.2, h.2⟩⟩
  rw [gap, space]
  exact if_congr hspaced.symm rfl rfl

/-- Behind a lexeme the normal form fills each gap with its space. -/
theorem textAfter_eq_filledAfter (script : Array Char) (previous : Lexeme) (ls : List Lexeme) :
    textAfter script previous ls = filledAfter script space previous ls := by
  induction ls generalizing previous with
  | nil => rfl
  | cons l ls ih => rw [textAfter, filledAfter, gap_eq, ih]

/-- **The normal form** has a space or nothing in each gap. -/
theorem normalize_eq_filled (script : Array Char) (ls : List Lexeme) :
    normalize script ls = filled script space ls := by
  cases ls with
  | nil => rfl
  | cons l ls => rw [normalize, filled, textAfter_eq_filledAfter]

/-! ## The source text

In the source a gap holds the characters between two lexemes. Cutting out a stretch gives back
lexemes and gaps only if the lexemes stand in order, which a sublist of a script does. -/

/-- Lexemes that stand in order and do not overlap. -/
structure InOrder (ls : List Lexeme) : Prop where
  spans : ∀ l ∈ ls, l.start ≤ l.stop
  apart : ls.IsChain fun l next => l.stop ≤ next.start

/-- The lexemes of a script stand in order, and so do any of them. -/
theorem inOrder_of_ofScript {dialect : Dialect} {script : Array Char} {ls type : List Lexeme}
    (h : Lexeme.ofScript dialect script = .ok ls) (htype : type.Sublist ls) : InOrder type := by
  obtain ⟨-, -, -, hordered, -⟩ := Lexeme.lexemes_of_script h
  constructor
  · intro l hl
    exact (hordered.within _ (List.mem_map_of_mem (htype.subset hl))).1
  · have hpairwise := (List.pairwise_map.mp hordered.inOrder).sublist htype
    exact (hpairwise.imp fun hbefore => hbefore.apart).isChain

/-- Order is kept when the first lexeme is taken away. -/
theorem InOrder.tail {l : Lexeme} {ls : List Lexeme} (h : InOrder (l :: ls)) : InOrder ls :=
  ⟨fun x hx => h.spans x (List.mem_cons_of_mem l hx), h.apart.tail⟩

/-- Lexemes in order take a stretch of the source. -/
theorem InOrder.start_le_stop {first : Lexeme} {rest : List Lexeme} (h : InOrder (first :: rest)) :
    first.start ≤ (rest.getLastD first).stop := by
  induction rest generalizing first with
  | nil => exact h.spans first List.mem_cons_self
  | cons l rest ih =>
    have hfirst : first.start ≤ first.stop := h.spans first List.mem_cons_self
    have hgap : first.stop ≤ l.start := (List.isChain_cons_cons.mp h.apart).1
    have hrest : l.start ≤ (rest.getLastD l).stop := ih h.tail
    rw [List.getLastD_cons]
    omega

/-- What stands between neighbours in a script. -/
def sourceGap (script : Array Char) (previous l : Lexeme) : List Char :=
  slice script previous.stop l.start

/-- **The source text** of lexemes in order is their text with what stands between them. -/
theorem slice_eq_filled (script : Array Char) {first : Lexeme} {rest : List Lexeme}
    (h : InOrder (first :: rest)) :
    slice script first.start (rest.getLastD first).stop =
      filled script (sourceGap script) (first :: rest) := by
  induction rest generalizing first with
  | nil =>
    rw [filled, filledAfter, List.append_nil]
    rfl
  | cons l rest ih =>
    have hfirst : first.start ≤ first.stop := h.spans first List.mem_cons_self
    have hgap : first.stop ≤ l.start := (List.isChain_cons_cons.mp h.apart).1
    have hrest : l.start ≤ (rest.getLastD l).stop := h.tail.start_le_stop
    -- the first lexeme, the gap behind it, and the rest
    calc slice script first.start ((l :: rest).getLastD first).stop
        = slice script first.start (rest.getLastD l).stop := by rw [List.getLastD_cons]
      _ = slice script first.start first.stop ++
            (slice script first.stop l.start ++ slice script l.start (rest.getLastD l).stop) := by
          rw [slice_append hgap hrest, slice_append hfirst (by omega)]
      _ = filled script (sourceGap script) (first :: l :: rest) := by
          rw [ih h.tail, filled, filled, filledAfter, sourceGap, List.append_assoc]

/-! ## The lexemes in the normal form

The normal form is a text without lexemes of its own. They are given places in it here, one behind
the other, so that it can be normalized again. -/

/-- The lexeme at another place, where it takes as much room as its text. -/
def placed (script : Array Char) (l : Lexeme) (start : Nat) : Lexeme :=
  { l with start, stop := start + (slice script l.start l.stop).length }

/-- The lexemes behind `previous` at the places that they have in the normal form, where `previous`
stops at `offset`. -/
def laidOutAfter (script : Array Char) (previous : Lexeme) (offset : Nat) :
    List Lexeme → List Lexeme
  | [] => []
  | l :: ls =>
    let l' := placed script l (offset + (space previous l).length)
    l' :: laidOutAfter script l l'.stop ls

/-- The lexemes at the places that they have in the normal form. -/
def laidOut (script : Array Char) : List Lexeme → List Lexeme
  | [] => []
  | l :: ls => placed script l 0 :: laidOutAfter script l (placed script l 0).stop ls

/-- A lexeme of the same kind and with the same text in another script. -/
structure SameLexeme (script script' : Array Char) (l l' : Lexeme) : Prop where
  kind : l'.kind = l.kind
  text : slice script' l'.start l'.stop = slice script l.start l.stop

section LaidOut

variable {script result : Array Char} {previous previous' l : Lexeme} {ls : List Lexeme}
  {offset start : Nat} {text behind : List Char}

/-- Where the text of a lexeme stands, the lexeme can be placed. -/
theorem sameLexeme_placed
    (h : result.toList.drop start = slice script l.start l.stop ++ behind) :
    SameLexeme script result l (placed script l start) :=
  ⟨rfl, slice_of_drop h⟩

/-- In the normal form a lexeme is what it was in the source. -/
theorem sameLexeme_laidOutAfter
    (h : result.toList.drop offset = filledAfter script space previous ls) :
    List.Forall₂ (SameLexeme script result) ls (laidOutAfter script previous offset ls) := by
  induction ls generalizing previous offset with
  | nil => exact .nil
  | cons l ls ih =>
    rw [filledAfter, List.append_assoc] at h
    exact .cons (sameLexeme_placed (drop_of_drop h)) (ih (drop_of_drop (drop_of_drop h)))

/-- Lexemes that are laid out do not overlap. -/
theorem inOrder_laidOutAfter (hspan : previous'.start ≤ previous'.stop) :
    InOrder (previous' :: laidOutAfter script previous previous'.stop ls) := by
  induction ls generalizing previous previous' with
  | nil =>
    refine ⟨fun x hx => ?_, List.isChain_singleton _⟩
    rw [List.mem_singleton.mp hx]
    exact hspan
  | cons l ls ih =>
    have htail : InOrder (laidOutAfter script previous previous'.stop (l :: ls)) :=
      ih (Nat.le_add_right _ _)
    refine ⟨fun x hx => ?_, List.isChain_cons_cons.mpr ⟨Nat.le_add_right _ _, htail.apart⟩⟩
    rcases List.mem_cons.mp hx with rfl | hx
    · exact hspan
    · exact htail.spans x hx

/-- Neighbours that were one space apart still are, and the others touch. -/
theorem space_placed (hprevious : previous'.kind = previous.kind) :
    space previous' (placed script l (previous'.stop + (space previous l).length)) =
      space previous l := by
  -- the gap is as wide as its text, so it is there again exactly where a space was written
  by_cases h : Spaced previous l
  · have h' : Spaced previous' (placed script l (previous'.stop + (space previous l).length)) := by
      refine ⟨?_, h.before, ?_⟩
      · rw [space, if_pos h]
        exact Nat.lt_succ_self _
      · rw [hprevious]
        exact h.behind
    rw [space, if_pos h', space, if_pos h]
  · -- a gap that was closed has no room left
    have h' : ¬Spaced previous' (placed script l (previous'.stop + (space previous l).length)) := by
      intro h'
      have hgap := h'.gap
      rw [space, if_neg h] at hgap
      exact absurd hgap (Nat.lt_irrefl _)
    rw [space, if_neg h', space, if_neg h]

/-- The gaps of the normal form hold the spaces that its own normal form has there. -/
theorem filledAfter_laidOutAfter {fill : Lexeme → Lexeme → List Char}
    (hfill : fill = space ∨ fill = sourceGap result) (hprevious : previous'.kind = previous.kind)
    (h : result.toList.drop previous'.stop = filledAfter script space previous ls) :
    filledAfter result fill previous' (laidOutAfter script previous previous'.stop ls) =
      filledAfter script space previous ls := by
  induction ls generalizing previous previous' with
  | nil => rfl
  | cons l ls ih =>
    rw [filledAfter, List.append_assoc] at h
    have hgap : fill previous' (placed script l (previous'.stop + (space previous l).length)) =
        space previous l := by
      -- either the gap is decided again, or it is read where it was written
      rcases hfill with rfl | rfl
      · exact space_placed hprevious
      · exact slice_of_drop h
    rw [laidOutAfter, filledAfter, filledAfter, hgap, (sameLexeme_placed (drop_of_drop h)).text]
    exact congrArg _ (ih rfl (drop_of_drop (drop_of_drop h)))

end LaidOut

/-- The normal form as a script of its own. -/
def normalScript (script : Array Char) (ls : List Lexeme) : Array Char :=
  (normalize script ls).toArray

/-- The lexemes of the normal form are those of the source. -/
theorem sameLexeme_laidOut (script : Array Char) (ls : List Lexeme) :
    List.Forall₂ (SameLexeme script (normalScript script ls)) ls (laidOut script ls) := by
  cases ls with
  | nil => exact .nil
  | cons l ls =>
    have h : (normalScript script (l :: ls)).toList.drop 0 =
        slice script l.start l.stop ++ filledAfter script space l ls := by
      rw [List.drop_zero, normalScript, normalize_eq_filled, filled]
    exact .cons (sameLexeme_placed h) (sameLexeme_laidOutAfter (drop_of_drop h))

/-- The lexemes of the normal form stand in order. -/
theorem inOrder_laidOut (script : Array Char) (ls : List Lexeme) : InOrder (laidOut script ls) := by
  cases ls with
  | nil => exact ⟨fun _ h => absurd h List.not_mem_nil, .nil⟩
  | cons l ls => exact inOrder_laidOutAfter (Nat.le_add_right _ _)

/-- What stands between the lexemes of the normal form is what it has there, be it decided again or
read. -/
theorem filled_laidOut (script : Array Char) (ls : List Lexeme) {fill : Lexeme → Lexeme → List Char}
    (hfill : fill = space ∨ fill = sourceGap (normalScript script ls)) :
    filled (normalScript script ls) fill (laidOut script ls) = normalize script ls := by
  cases ls with
  | nil => rfl
  | cons l ls =>
    have h : (normalScript script (l :: ls)).toList.drop 0 =
        slice script l.start l.stop ++ filledAfter script space l ls := by
      rw [List.drop_zero, normalScript, normalize_eq_filled, filled]
    rw [laidOut, filled, (sameLexeme_placed h).text, normalize_eq_filled, filled]
    exact congrArg _ (filledAfter_laidOutAfter hfill rfl (drop_of_drop h))

/-- **The normal form is a fixed point.** -/
theorem normalize_laidOut (script : Array Char) (ls : List Lexeme) :
    normalize (normalScript script ls) (laidOut script ls) = normalize script ls := by
  rw [normalize_eq_filled, filled_laidOut script ls (.inl rfl)]

/-- **A type of a script** and its normal form are the same lexemes with other gaps. -/
theorem normalize_of_ofScript {dialect : Dialect} {script : Array Char} {ls rest : List Lexeme}
    {first : Lexeme} (h : Lexeme.ofScript dialect script = .ok ls)
    (htype : (first :: rest).Sublist ls) :
    slice script first.start (rest.getLastD first).stop =
        filled script (sourceGap script) (first :: rest) ∧
      normalize script (first :: rest) = filled script space (first :: rest) :=
  ⟨slice_eq_filled script (inOrder_of_ofScript h htype), normalize_eq_filled script _⟩

/-! ## The account

The four parts above are put together. Order of the lexemes is needed for the source text alone. -/

/-- What the normal form of lexemes is made of. -/
structure Canonical (script : Array Char) (ls : List Lexeme) : Prop where
  /-- In the source the lexemes stand with something in each gap. -/
  source : ∀ first rest, ls = first :: rest →
    slice script first.start (rest.getLastD first).stop = filled script (sourceGap script) ls
  /-- In the normal form they stand with one space in some gaps and nothing in the others. -/
  spaces : normalize script ls = filled script (fun p l => if Spaced p l then [' '] else []) ls
  /-- What fills a gap does not matter. -/
  layout : ∀ script' ls', SameButLayout script script' ls ls' →
    normalize script' ls' = normalize script ls
  /-- In the normal form the same lexemes stand in order, each copied as it was, -/
  inOrder : InOrder (laidOut script ls)
  lexemes : List.Forall₂ (SameLexeme script (normalScript script ls)) ls (laidOut script ls)
  /-- with nothing else but what stands in their gaps, -/
  text : filled (normalScript script ls) (sourceGap (normalScript script ls)) (laidOut script ls) =
    normalize script ls
  /-- and from there the normal form is the same again. -/
  fixed : normalize (normalScript script ls) (laidOut script ls) = normalize script ls

/-- **The text of a type is canonical.** -/
theorem normalize_canonical (script : Array Char) {ls : List Lexeme} (h : InOrder ls) :
    Canonical script ls where
  source := by
    rintro first rest rfl
    exact slice_eq_filled script h
  spaces := normalize_eq_filled script ls
  layout := fun _ _ hlayout => hlayout.normalize_eq.symm
  inOrder := inOrder_laidOut script ls
  lexemes := sameLexeme_laidOut script ls
  text := filled_laidOut script ls (.inr rfl)
  fixed := normalize_laidOut script ls

/-- A type over two lines, with blanks in one of its members. -/
def spreadType : String := "ENUM ( 'a  b' ,\n 'c' ) UNSIGNED"

def spreadLexemes : List Lexeme :=
  [⟨.word "ENUM", 0, 4, 1⟩, ⟨.punct .openParen, 5, 6, 1⟩, ⟨.literal "a  b" '\'', 7, 13, 1⟩,
    ⟨.punct .comma, 14, 15, 1⟩, ⟨.literal "c" '\'', 17, 20, 2⟩, ⟨.punct .closeParen, 21, 22, 2⟩,
    ⟨.word "UNSIGNED", 23, 31, 2⟩]

theorem normalize_canonical_spread :
    Lexeme.ofScript Dialect.mysql spreadType.toList.toArray = .ok spreadLexemes ∧
      InOrder spreadLexemes ∧
      normalize spreadType.toList.toArray spreadLexemes = "ENUM('a  b', 'c') UNSIGNED".toList ∧
      Canonical spreadType.toList.toArray spreadLexemes := by
  have horder : InOrder spreadLexemes := ⟨by decide, by decide⟩
  exact ⟨by decide +kernel, horder, by decide +kernel, normalize_canonical _ horder⟩

end TableDocs.Sql.TypeText
