import TableDocs.Proofs.Sql.BodyPartition

/-!
# TableDocs — commas in square brackets

A body is cut at the commas outside parentheses, whatever square brackets stand around them. Where
the brackets of both kinds nest, its items are the stretches between the commas outside brackets of
either kind. This module says what the cut makes of them:

* **`Group.Nested`**, **`Group.BracketCut`** — bodies whose brackets nest, and their items. Every
  list has exactly one such cut, and the items of a nested body are nested.
* **`Group.bracketCut_segments`** — the two cuts are the same where no comma is exposed: inside
  square brackets and outside parentheses.
* **`Group.segments_nested`** — the body is always cut into the pieces of its items, and an item is
  torn exactly at its exposed commas. What is torn off is not nested any more.
-/

namespace TableDocs.Sql

namespace Group

/-! ## Brackets that nest

Nesting is a matter of both kinds of brackets at a time, so it is told by an inductive definition.
The two depths are its traces: both are zero outside all brackets, and neither is negative on the
way. -/

/-- The square brackets that `ls` opens less those that it closes. -/
def bracketDepth (ls : List Lexeme) : Int :=
  ls.countP (Lexeme.isPunct .openBracket) - ls.countP (Lexeme.isPunct .closeBracket)

/-- What stands behind `ls` stands outside brackets of both kinds. -/
def Outside (ls : List Lexeme) : Prop :=
  depth ls = 0 ∧ bracketDepth ls = 0

instance (ls : List Lexeme) : Decidable (Outside ls) :=
  inferInstanceAs (Decidable (_ ∧ _))

/-- Two brackets of one kind. -/
def IsPair (opening close : Lexeme) : Prop :=
  (opening.isPunct .openParen = true ∧ close.isPunct .closeParen = true) ∨
    (opening.isPunct .openBracket = true ∧ close.isPunct .closeBracket = true)

/-- The lexeme is no bracket of either kind. -/
def IsFlat (l : Lexeme) : Prop :=
  ∀ p ∈ [Punct.openParen, .closeParen, .openBracket, .closeBracket], l.isPunct p = false

instance (l : Lexeme) : Decidable (IsFlat l) :=
  inferInstanceAs (Decidable (∀ p ∈ _, _))

/-- Round and square brackets nest properly. -/
inductive Nested : List Lexeme → Prop
  | nil : Nested []
  | flat {l : Lexeme} {ls : List Lexeme} (hl : IsFlat l) (hls : Nested ls) : Nested (l :: ls)
  | group {opening close : Lexeme} {inner ls : List Lexeme} (hpair : IsPair opening close)
      (hinner : Nested inner) (hls : Nested ls) : Nested (opening :: (inner ++ close :: ls))

section Depths

@[simp] theorem bracketDepth_nil : bracketDepth [] = 0 := rfl

/-- Depths add up. -/
@[simp] theorem bracketDepth_append (ls ls' : List Lexeme) :
    bracketDepth (ls ++ ls') = bracketDepth ls + bracketDepth ls' := by
  simp only [bracketDepth, List.countP_append]
  omega

/-- The depth of a list lexeme by lexeme. -/
theorem bracketDepth_cons (l : Lexeme) (ls : List Lexeme) :
    bracketDepth (l :: ls) = bracketDepth [l] + bracketDepth ls :=
  bracketDepth_append [l] ls

/-- At the front of a list nothing is open. -/
theorem outside_nil : Outside [] :=
  ⟨rfl, rfl⟩

/-- Behind a list that leaves nothing open the depths count from zero. -/
theorem outside_append {ls ls' : List Lexeme} (h : Outside ls) :
    Outside (ls ++ ls') ↔ Outside ls' := by
  obtain ⟨hdepth, hbracket⟩ := h
  rw [Outside, Outside, depth_append, bracketDepth_append, hdepth, hbracket, Int.zero_add,
    Int.zero_add]

/-- A lexeme that is no bracket leaves nothing open. -/
theorem outside_flat {l : Lexeme} (h : IsFlat l) : Outside [l] := by
  simp only [IsFlat, List.forall_mem_cons] at h
  obtain ⟨ho, hc, hob, hcb, -⟩ := h
  constructor
  · rw [depth_cons, depthStep_of_other ho hc, depth_nil, Int.add_zero]
  · simp [bracketDepth, hob, hcb]

/-- A comma is no bracket. -/
theorem isFlat_of_comma {l : Lexeme} (h : l.isPunct .comma = true) : IsFlat l := by
  intro p hp
  refine Lexeme.isPunct_eq_false_of_ne h ?_
  rintro rfl
  exact absurd hp (by decide)

/-- An opening bracket deepens one of the two depths by one, and the other bracket of the pair takes
that back. -/
theorem IsPair.depths {opening close : Lexeme} (h : IsPair opening close) :
    0 ≤ depth [opening] ∧ 0 ≤ bracketDepth [opening] ∧
      0 < depth [opening] + bracketDepth [opening] ∧
      depth [opening] + depth [close] = 0 ∧ bracketDepth [opening] + bracketDepth [close] = 0 := by
  rcases h with ⟨ho, hc⟩ | ⟨ho, hc⟩ <;>
    simp [depth, depthStep, bracketDepth, Lexeme.isPunct, Lexeme.kind_of_isPunct ho,
      Lexeme.kind_of_isPunct hc]

/-- A pair of brackets closes what it opens. -/
theorem IsPair.outside {opening close : Lexeme} (h : IsPair opening close) {inner : List Lexeme}
    (hinner : Outside inner) : Outside (opening :: (inner ++ [close])) := by
  obtain ⟨-, -, -, hdepth, hbracket⟩ := h.depths
  obtain ⟨hinner, hinner'⟩ := hinner
  constructor
  · rw [depth_cons, depth_append, hinner]
    rw [depth_cons, depth_nil] at hdepth
    omega
  · rw [bracketDepth_cons, bracketDepth_append, hinner']
    omega

end Depths

/-- Behind a list that nests nothing is left open. -/
theorem Nested.outside {ls : List Lexeme} (h : Nested ls) : Outside ls := by
  induction h with
  | nil => exact outside_nil
  | flat hl _ ih => exact (outside_append (outside_flat hl)).mpr ih
  | @group opening close inner ls hpair _ _ ihinner ihls =>
    have happend : opening :: (inner ++ close :: ls) =
        opening :: (inner ++ [close]) ++ ls := by simp
    rw [happend]
    exact (outside_append (hpair.outside ihinner)).mpr ihls

/-- No stretch at the front of a list that nests closes what it did not open. -/
theorem Nested.depths_nonneg {ls : List Lexeme} (h : Nested ls) :
    ∀ front, front <+: ls → 0 ≤ depth front ∧ 0 ≤ bracketDepth front := by
  induction h with
  | nil =>
    intro front hfront
    rw [List.prefix_nil.mp hfront]
    exact ⟨Int.le_refl 0, Int.le_refl 0⟩
  | @flat l ls hl _ ih =>
    intro front hfront
    rcases List.prefix_cons_iff.mp hfront with rfl | ⟨front, rfl, htail⟩
    · exact ⟨Int.le_refl 0, Int.le_refl 0⟩
    · obtain ⟨hdepth, hbracket⟩ := outside_flat hl
      obtain ⟨h, h'⟩ := ih front htail
      rw [depth_cons, depth_nil] at hdepth
      rw [depth_cons, bracketDepth_cons]
      omega
  | @group opening close inner ls hpair hinner _ ihinner ihls =>
    obtain ⟨hopen, hopen', -, hdepth, hbracket⟩ := hpair.depths
    obtain ⟨hinner, hinner'⟩ := hinner.outside
    simp only [depth_cons, depth_nil, Int.add_zero] at hopen hdepth
    intro front hfront
    rcases List.prefix_cons_iff.mp hfront with rfl | ⟨front, rfl, behind, hfront⟩
    · exact ⟨Int.le_refl 0, Int.le_refl 0⟩
    · rw [depth_cons, bracketDepth_cons]
      rcases List.append_eq_append_iff.mp hfront with ⟨c, rfl, -⟩ | ⟨c, rfl, hclose⟩
      · -- inside the brackets
        obtain ⟨h, h'⟩ := ihinner front (List.prefix_append front c)
        omega
      · cases c with
        | nil =>
          rw [List.append_nil, hinner, hinner']
          omega
        | cons x c =>
          -- behind the brackets
          obtain ⟨rfl, rfl⟩ := List.cons_eq_cons.mp hclose
          obtain ⟨h, h'⟩ := ihls c (List.prefix_append c behind)
          rw [depth_append, depth_cons, bracketDepth_append, bracketDepth_cons close c, hinner,
            hinner']
          omega

/-- A list that nests may be divided outside its brackets. -/
theorem Nested.of_append {front behind : List Lexeme} (h : Nested (front ++ behind))
    (hfront : Outside front) : Nested front ∧ Nested behind := by
  generalize hls : front ++ behind = ls at h
  induction h generalizing front with
  | nil =>
    obtain ⟨rfl, rfl⟩ := List.append_eq_nil_iff.mp hls
    exact ⟨.nil, .nil⟩
  | @flat l ls hl hnested ih =>
    cases front with
    | nil =>
      rw [List.nil_append] at hls
      exact ⟨.nil, hls ▸ .flat hl hnested⟩
    | cons x front =>
      obtain ⟨rfl, rfl⟩ := List.cons_eq_cons.mp hls
      obtain ⟨hleft, hright⟩ := ih ((outside_append (outside_flat hl)).mp hfront) rfl
      exact ⟨.flat hl hleft, hright⟩
  | @group opening close inner ls hpair hinner hnested ihinner ihls =>
    cases front with
    | nil =>
      rw [List.nil_append] at hls
      exact ⟨.nil, hls ▸ .group hpair hinner hnested⟩
    | cons x front =>
      obtain ⟨rfl, htail⟩ := List.cons_eq_cons.mp hls
      -- inside the brackets at least one of the depths is not zero
      have inside : ∀ c, inner = front ++ c → False := by
        rintro c rfl
        obtain ⟨-, -, hpos, -⟩ := hpair.depths
        obtain ⟨h, h'⟩ := hinner.depths_nonneg front (List.prefix_append front c)
        obtain ⟨hdepth, hbracket⟩ := hfront
        rw [depth_cons] at hdepth
        rw [bracketDepth_cons] at hbracket
        simp only [depth_cons, depth_nil, Int.add_zero] at hpos
        omega
      rcases List.append_eq_append_iff.mp htail with ⟨c, hc, -⟩ | ⟨c, rfl, hclose⟩
      · exact (inside c hc).elim
      · cases c with
        | nil => exact (inside [] (by simp)).elim
        | cons y c =>
          obtain ⟨rfl, rfl⟩ := List.cons_eq_cons.mp hclose
          have hsplit : x :: (inner ++ close :: c) = x :: (inner ++ [close]) ++ c := by simp
          rw [hsplit, outside_append (hpair.outside hinner.outside)] at hfront
          obtain ⟨hleft, hright⟩ := ihls hfront rfl
          exact ⟨.group hpair hinner hleft, hright⟩

/-! ## Items between commas outside brackets

The cut is defined by where commas stand outside brackets of both kinds. There is one such cut for
every list, since the first of these commas ends the first item. -/

/-- No comma stands outside brackets of both kinds. -/
def Whole (ls : List Lexeme) : Prop :=
  ∀ front comma behind, ls = front ++ comma :: behind → comma.isPunct .comma = true →
    ¬Outside front

/-- The commas of a list by their indices. -/
theorem whole_iff {ls : List Lexeme} :
    Whole ls ↔ ∀ n, ∀ h : n < ls.length, ls[n].isPunct .comma = true → ¬Outside (ls.take n) := by
  constructor
  · intro h n hn hcomma
    exact h (ls.take n) ls[n] (ls.drop (n + 1)) (by simp) hcomma
  · rintro h front comma behind rfl hcomma
    simpa using h front.length (by simp) (by simpa using hcomma)

instance (ls : List Lexeme) : Decidable (Whole ls) :=
  decidable_of_iff' _ whole_iff

/-- The items of a list between its commas outside brackets of both kinds. -/
inductive BracketCut : List Lexeme → List (List Lexeme) → Prop
  | last {item : List Lexeme} (hitem : Whole item) : BracketCut item [item]
  | cons {item rest : List Lexeme} {comma : Lexeme} {items : List (List Lexeme)}
      (hitem : Whole item) (hdepth : Outside item) (hcomma : comma.isPunct .comma = true)
      (hrest : BracketCut rest items) : BracketCut (item ++ comma :: rest) (item :: items)

/-- Every list has such a cut. -/
theorem exists_bracketCut (ls : List Lexeme) : ∃ items, BracketCut ls items := by
  by_cases hwhole : Whole ls
  · exact ⟨[ls], .last hwhole⟩
  · -- cut at the first comma of those outside brackets, and go on behind it
    have hsome : ∃ n front comma behind, front.length = n ∧ ls = front ++ comma :: behind ∧
        comma.isPunct .comma = true ∧ Outside front := by
      simp only [Whole, not_forall, not_not] at hwhole
      obtain ⟨front, comma, behind, hls, hcomma, hout⟩ := hwhole
      exact ⟨_, front, comma, behind, rfl, hls, hcomma, hout⟩
    classical
    obtain ⟨item, comma, rest, hlength, hls, hcomma, hout⟩ := Nat.find_spec hsome
    have hitem : Whole item := by
      rintro front comma' behind rfl hcomma' hout'
      refine Nat.find_min hsome (m := front.length) ?_
        ⟨front, comma', behind ++ comma :: rest, rfl, by rw [hls]; simp, hcomma', hout'⟩
      rw [← hlength, List.length_append, List.length_cons]
      omega
    obtain ⟨items, hrest⟩ := exists_bracketCut rest
    exact ⟨item :: items, hls ▸ .cons hitem hout hcomma hrest⟩
termination_by ls.length
decreasing_by
  rw [hls, List.length_append, List.length_cons]
  omega

/-- What stands in front of the first comma outside brackets is the first item. -/
theorem Whole.append_inj {item item' rest rest' : List Lexeme} {comma comma' : Lexeme}
    (h : Whole item) (h' : Whole item') (hout : Outside item) (hout' : Outside item')
    (hcomma : comma.isPunct .comma = true) (hcomma' : comma'.isPunct .comma = true)
    (he : item ++ comma :: rest = item' ++ comma' :: rest') : item = item' ∧ rest = rest' := by
  rcases List.append_eq_append_iff.mp he with ⟨c, rfl, hc⟩ | ⟨c, rfl, hc⟩
  · cases c with
    | nil => exact ⟨(List.append_nil item).symm, (List.cons_eq_cons.mp hc).2⟩
    | cons x c =>
      obtain ⟨rfl, -⟩ := List.cons_eq_cons.mp hc
      exact absurd hout (h' item comma c rfl hcomma)
  · cases c with
    | nil => exact ⟨List.append_nil item', (List.cons_eq_cons.mp hc).2.symm⟩
    | cons x c =>
      obtain ⟨rfl, -⟩ := List.cons_eq_cons.mp hc
      exact absurd hout' (h item' comma' c rfl hcomma')

/-- A list has one such cut. -/
theorem BracketCut.unique {ls : List Lexeme} {items items' : List (List Lexeme)}
    (h : BracketCut ls items) (h' : BracketCut ls items') : items = items' := by
  induction h generalizing items' with
  | last hitem =>
    cases h' with
    | last => rfl
    | @cons item rest comma _ _ hout hcomma _ =>
      exact absurd hout (hitem item comma rest rfl hcomma)
  | @cons item rest comma items hitem hout hcomma _ ih =>
    generalize hls : item ++ comma :: rest = ls at h'
    cases h' with
    | last hitem' => exact absurd hout (hitem' item comma rest hls.symm hcomma)
    | cons hitem' hout' hcomma' hrest' =>
      obtain ⟨rfl, rfl⟩ := hitem.append_inj hitem' hout hout' hcomma hcomma' hls
      rw [ih hrest']

/-- The items of a list that nests do so too. -/
theorem BracketCut.nested {ls : List Lexeme} {items : List (List Lexeme)} (h : BracketCut ls items)
    (hls : Nested ls) : ∀ item ∈ items, Nested item := by
  induction h with
  | last => simpa using hls
  | cons _ hout hcomma _ ih =>
    obtain ⟨hitem, htail⟩ := hls.of_append hout
    rw [← List.singleton_append] at htail
    obtain ⟨-, hrest⟩ := htail.of_append (outside_flat (isFlat_of_comma hcomma))
    exact List.forall_mem_cons.mpr ⟨hitem, ih hrest⟩

/-- No item can be cut further. -/
theorem BracketCut.whole {ls : List Lexeme} {items : List (List Lexeme)} (h : BracketCut ls items) :
    ∀ item ∈ items, Whole item := by
  induction h with
  | last hitem => simpa using hitem
  | cons hitem _ _ _ ih => exact List.forall_mem_cons.mpr ⟨hitem, ih⟩

/-! ## The two cuts

The reader cuts at more commas than those outside all brackets, never at fewer. So its cut refines
the other one, item by item, and both are equal where no comma makes the difference. -/

/-- A cut goes on behind a comma at depth zero. -/
theorem Cut.append {d : Int} {front rest : List Lexeme} {comma : Lexeme}
    {pieces pieces' : List (List Lexeme)} (h : Cut d front pieces) (hdepth : d + depth front = 0)
    (hcomma : comma.isPunct .comma = true) (hrest : Cut 0 rest pieces') :
    Cut d (front ++ comma :: rest) (pieces ++ pieces') := by
  induction h with
  | last hitem => exact .cons hitem hdepth hcomma hrest
  | @cons d item more comma' pieces hitem hzero hcomma' _ ih =>
    rw [List.append_assoc, List.cons_append]
    refine .cons hitem hzero hcomma' (ih ?_)
    rw [depth_append, depth_cons, depthStep_of_comma hcomma'] at hdepth
    omega

/-- The body is cut into the pieces of its items. -/
theorem BracketCut.segments_eq {ls : List Lexeme} {items : List (List Lexeme)}
    (h : BracketCut ls items) : segments ls = items.flatMap segments := by
  induction h with
  | last => simp
  | @cons item rest comma items _ hout hcomma _ ih =>
    rw [List.flatMap_cons, ← ih]
    exact segments_eq_iff.mpr
      ((segments_eq_iff.mp rfl).append (by rw [hout.1]; rfl) hcomma (segments_eq_iff.mp rfl))

/-- A comma stands inside square brackets and outside parentheses. -/
def Exposes (ls : List Lexeme) : Prop :=
  ∃ front comma behind, ls = front ++ comma :: behind ∧ comma.isPunct .comma = true ∧
    depth front = 0 ∧ bracketDepth front ≠ 0

/-- Where no comma is exposed the commas outside parentheses stand outside all brackets. -/
theorem bracketCut_of_cut {d : Int} {ls : List Lexeme} {pieces : List (List Lexeme)}
    (h : Cut d ls pieces) (hd : d = 0) (hls : ¬Exposes ls) : BracketCut ls pieces := by
  have hwhole : ∀ {item}, Unsplit 0 item → Whole item := by
    intro item hitem front comma behind he hcomma hout
    exact hitem front comma behind he hcomma (by rw [hout.1]; rfl)
  induction h with
  | last hitem => exact .last (hwhole (hd ▸ hitem))
  | @cons d item rest comma pieces hitem hdepth hcomma _ ih =>
    subst hd
    rw [Int.zero_add] at hdepth
    -- a comma at depth zero that is not exposed stands outside square brackets too
    have hout : Outside item := by
      refine ⟨hdepth, ?_⟩
      by_contra hbracket
      exact hls ⟨item, comma, rest, rfl, hcomma, hdepth, hbracket⟩
    refine .cons (hwhole hitem) hout hcomma (ih rfl ?_)
    -- what is exposed behind this comma is exposed in the whole list
    rintro ⟨front, comma', behind, rfl, hcomma', hfront, hbracket⟩
    have hcommaOut := outside_flat (isFlat_of_comma hcomma)
    refine hls ⟨item ++ comma :: front, comma', behind, by simp, hcomma', ?_, ?_⟩
    · rw [depth_append, depth_cons, depthStep_of_comma hcomma]
      omega
    · rw [bracketDepth_append, bracketDepth_cons, hout.2, hcommaOut.2]
      omega

/-- Where no comma is exposed the reader cuts at the right ones. -/
theorem bracketCut_segments {ls : List Lexeme} (h : ¬Exposes ls) : BracketCut ls (segments ls) :=
  bracketCut_of_cut (segments_eq_iff.mp rfl) rfl h

/-- If each piece closes its square brackets, then no comma was exposed. -/
theorem not_exposes_of_cut {d : Int} {ls : List Lexeme} {pieces : List (List Lexeme)}
    (h : Cut d ls pieces) (hd : d = 0) (hpieces : ∀ piece ∈ pieces, bracketDepth piece = 0) :
    ¬Exposes ls := by
  induction h with
  | last hitem =>
    rintro ⟨front, comma, behind, he, hcomma, hdepth, -⟩
    exact hitem front comma behind he hcomma (by rw [hd, hdepth]; rfl)
  | @cons d item rest comma pieces hitem hdepth hcomma _ ih =>
    obtain ⟨hbracket, hpieces⟩ := List.forall_mem_cons.mp hpieces
    subst hd
    rintro ⟨front, comma', behind, he, hcomma', hfront, hexposed⟩
    rcases List.append_eq_append_iff.mp he with ⟨c, rfl, hc⟩ | ⟨c, rfl, hc⟩
    · cases c with
      | nil => exact hexposed (by rw [List.append_nil, hbracket])
      | cons x c =>
        -- the comma stands behind the first one that separates
        obtain ⟨rfl, rfl⟩ := List.cons_eq_cons.mp hc
        have hcommaOut := outside_flat (isFlat_of_comma hcomma)
        refine ih rfl hpieces ⟨c, comma', behind, rfl, hcomma', ?_, ?_⟩
        · rw [depth_append, depth_cons, depthStep_of_comma hcomma] at hfront
          omega
        · rw [bracketDepth_append, bracketDepth_cons, hbracket, hcommaOut.2] at hexposed
          omega
    · cases c with
      | nil => exact hexposed (by rw [List.append_nil] at hbracket; exact hbracket)
      | cons x c =>
        obtain ⟨rfl, -⟩ := List.cons_eq_cons.mp hc
        exact hitem front comma' c rfl hcomma' (by rw [hfront]; rfl)

/-- A nested list is cut right exactly where no comma is exposed, and then each piece is nested. -/
theorem Nested.segments_eq_iff {ls : List Lexeme} {items : List (List Lexeme)} (h : Nested ls)
    (hitems : BracketCut ls items) :
    (segments ls = items ↔ ¬Exposes ls) ∧
      ((∀ piece ∈ segments ls, Nested piece) ↔ ¬Exposes ls) := by
  have hexposes : (∀ piece ∈ segments ls, Nested piece) → ¬Exposes ls := fun hpieces =>
    not_exposes_of_cut (Group.segments_eq_iff.mp rfl) rfl fun piece hpiece =>
      (hpieces piece hpiece).outside.2
  have hsegments : ¬Exposes ls → segments ls = items := fun hls =>
    (bracketCut_segments hls).unique hitems
  refine ⟨⟨?_, hsegments⟩, hexposes, ?_⟩
  · rintro rfl
    exact hexposes (hitems.nested h)
  · intro hls
    rw [hsegments hls]
    exact hitems.nested h

/-- **What square brackets do to a body.** The items of a body whose brackets nest are those between
the commas outside brackets of both kinds, and each of them is nested. The body is cut into the
pieces of its items. It is cut into the items themselves exactly where no comma is exposed, and then
only is each piece nested; each item is torn at its own exposed commas and at no others. Columns and
anomalies are read from the pieces. -/
theorem segments_nested {body : List Lexeme} (h : Nested body) :
    ∃ items, (∀ items', BracketCut body items' ↔ items' = items) ∧
      segments body = items.flatMap segments ∧
      (segments body = items ↔ ¬Exposes body) ∧
      ((∀ piece ∈ segments body, Nested piece) ↔ ¬Exposes body) ∧
      (∀ item ∈ items, Nested item ∧ (segments item = [item] ↔ ¬Exposes item)) ∧
      ∀ script, readBody script body = ((items.flatMap segments).filter definesColumn).map
        (readItem script (PrimaryKey.keyNames body)) := by
  obtain ⟨items, hitems⟩ := exists_bracketCut body
  obtain ⟨hright, hpieces⟩ := h.segments_eq_iff hitems
  refine ⟨items, ?_, hitems.segments_eq, hright, hpieces, ?_, fun script => ?_⟩
  · intro items'
    constructor
    · exact fun h' => h'.unique hitems
    · rintro rfl
      exact hitems
  · intro item hitem
    -- an item is a nested list with a cut of one item
    have hnested := hitems.nested h item hitem
    exact ⟨hnested, (hnested.segments_eq_iff (.last (hitems.whole item hitem))).1⟩
  · rw [← hitems.segments_eq]
    rfl

/-- A column whose default value is an array of two elements. -/
def arrayScript : String :=
  "tags TEXT[] DEFAULT ARRAY['a','b'] NOT NULL"

def arrayBody : List Lexeme :=
  [⟨.word "tags", 0, 4, 1⟩, ⟨.word "TEXT", 5, 9, 1⟩, ⟨.punct .openBracket, 9, 10, 1⟩,
    ⟨.punct .closeBracket, 10, 11, 1⟩, ⟨.word "DEFAULT", 12, 19, 1⟩, ⟨.word "ARRAY", 20, 25, 1⟩,
    ⟨.punct .openBracket, 25, 26, 1⟩, ⟨.literal "a" '\'', 26, 29, 1⟩, ⟨.punct .comma, 29, 30, 1⟩,
    ⟨.literal "b" '\'', 30, 33, 1⟩, ⟨.punct .closeBracket, 33, 34, 1⟩, ⟨.word "NOT", 35, 38, 1⟩,
    ⟨.word "NULL", 39, 43, 1⟩]

/-- The one item of the body is torn at the comma of its default value. Its `NOT NULL` is lost, and
what holds it is reported as no column. -/
theorem segments_nested_array :
    Lexeme.ofScript Dialect.postgres arrayScript.toList.toArray = .ok arrayBody ∧
      Nested arrayBody ∧ BracketCut arrayBody [arrayBody] ∧ ¬segments arrayBody = [arrayBody] ∧
      columnsOf Dialect.postgres arrayScript =
        .ok ([{ name := "tags", type := "TEXT[]", nullable := true, default? := some "ARRAY" }],
          [⟨.noColumnName, 1, "'b'] NOT NULL"⟩]) := by
  have hnested : Nested arrayBody := by
    have helements : Nested ((arrayBody.drop 7).take 3) :=
      .flat (by decide) (.flat (by decide) (.flat (by decide) .nil))
    have hvalue : Nested (arrayBody.drop 6) :=
      .group (.inr ⟨rfl, rfl⟩) helements (.flat (by decide) (.flat (by decide) .nil))
    have hsuffix : Nested (arrayBody.drop 2) :=
      .group (.inr ⟨rfl, rfl⟩) .nil (.flat (by decide) (.flat (by decide) hvalue))
    exact .flat (by decide) (.flat (by decide) hsuffix)
  have hcut : BracketCut arrayBody [arrayBody] := .last (by decide +kernel)
  have hexposes : Exposes arrayBody :=
    ⟨arrayBody.take 8, _, arrayBody.drop 9, rfl, rfl, by decide +kernel, by decide +kernel⟩
  obtain ⟨items, hunique, -, hright, -⟩ := segments_nested hnested
  obtain rfl := (hunique [arrayBody]).mp hcut
  exact ⟨by decide +kernel, hnested, hcut, fun h => hright.mp h hexposes, by decide +kernel⟩

end Group

end TableDocs.Sql
