import TableDocs.Proofs.Sql.DefinitionExtent

/-!
# TableDocs — a body falls into items, and every item is accounted for

A body is cut at its commas of depth zero. `Group.Cut` says what such a cut is without saying how it
is made: no item holds a comma of depth zero, and each separator is one.

* **`Group.segments_eq_iff`** — every list has exactly one cut, and `segments` makes it.
* **`Group.Cut.joined`** — the items and the separators between them give back the list.
* **`body_partitioned`** — each item of a body gives one column, one anomaly about itself or, when
  it is empty or a clause of the table, nothing at all. So no item is lost and none is read twice.
-/

namespace TableDocs.Sql

namespace Group

/-! ## Cuts

A cut is described from the front: the first item, its separator and a cut of the rest. The depth at
the start is a parameter, since the function that cuts carries it along. -/

/-- No comma stands at depth zero when `d` parentheses are open at the start. -/
def Unsplit (d : Int) (ls : List Lexeme) : Prop :=
  ∀ front comma behind, ls = front ++ comma :: behind → comma.isPunct .comma = true →
    d + depth front ≠ 0

/-- The items of a list between its commas of depth zero. The list starts at depth `d`, and behind a
separator the depth is zero again. -/
inductive Cut : Int → List Lexeme → List (List Lexeme) → Prop
  | last {d : Int} {item : List Lexeme} (hitem : Unsplit d item) : Cut d item [item]
  | cons {d : Int} {item rest : List Lexeme} {comma : Lexeme} {items : List (List Lexeme)}
      (hitem : Unsplit d item) (hdepth : d + depth item = 0)
      (hcomma : comma.isPunct .comma = true) (hrest : Cut 0 rest items) :
      Cut d (item ++ comma :: rest) (item :: items)

theorem unsplit_nil (d : Int) : Unsplit d [] := by
  intro front comma behind h
  exact absurd h (by simp)

/-- The property of a list from that of its tail, at the depth behind the first lexeme. -/
theorem unsplit_cons {d : Int} {l : Lexeme} {ls : List Lexeme} :
    Unsplit d (l :: ls) ↔ (l.isPunct .comma = true → d ≠ 0) ∧ Unsplit (d + depthStep l) ls := by
  constructor
  · intro h
    refine ⟨fun hl => by simpa using h [] l ls rfl hl, ?_⟩
    intro front comma behind hls hcomma
    have := h (l :: front) comma behind (by rw [hls, List.cons_append]) hcomma
    rwa [depth_cons, ← Int.add_assoc] at this
  · rintro ⟨hl, h⟩ front comma behind hls hcomma
    rcases List.cons_eq_append_iff.mp hls with ⟨rfl, hbehind⟩ | ⟨front', rfl, rfl⟩
    · cases hbehind
      simpa using hl hcomma
    · rw [depth_cons, ← Int.add_assoc]
      exact h front' comma behind rfl hcomma

theorem depthStep_of_comma {l : Lexeme} (h : l.isPunct .comma = true) : depthStep l = 0 :=
  depthStep_of_other (Lexeme.isPunct_eq_false_of_ne h (by decide))
    (Lexeme.isPunct_eq_false_of_ne h (by decide))

/-- A lexeme that separates nothing goes to the first item. -/
theorem Cut.cons_lexeme {d : Int} {l : Lexeme} {ls first : List Lexeme}
    {others : List (List Lexeme)} (h : Cut (d + depthStep l) ls (first :: others))
    (hl : l.isPunct .comma = true → d ≠ 0) : Cut d (l :: ls) ((l :: first) :: others) := by
  cases h with
  | last hitem => exact .last (unsplit_cons.mpr ⟨hl, hitem⟩)
  | cons hitem hdepth hcomma hrest =>
    rw [← List.cons_append]
    refine .cons (unsplit_cons.mpr ⟨hl, hitem⟩) ?_ hcomma hrest
    rw [depth_cons]
    omega

/-- What is made is a cut. -/
theorem cut_segmentsFrom (d : Int) (ls : List Lexeme) : Cut d ls (segmentsFrom d ls) := by
  induction ls generalizing d with
  | nil => exact .last (unsplit_nil d)
  | cons l ls ih =>
    rw [segmentsFrom.eq_def]
    simp only
    split
    · next hl =>
      obtain ⟨hcomma, hd⟩ := Bool.and_eq_true_iff.mp hl
      have hd : d = 0 := beq_iff_eq.mp hd
      subst hd
      show Cut 0 ([] ++ l :: ls) ([] :: segmentsFrom 0 ls)
      exact .cons (unsplit_nil 0) rfl hcomma (ih 0)
    · next hl =>
      have hstep : l.isPunct .comma = true → d ≠ 0 := by
        intro hcomma hd
        exact hl (by rw [hcomma, hd]; rfl)
      have htail := ih (d + depthStep l)
      split
      · next hnil => rw [hnil] at htail; nomatch htail
      · next first others hcons =>
        -- `l` is no separator, so it belongs to the first item of the tail
        rw [hcons] at htail
        exact htail.cons_lexeme hstep

/-- A list without a separator is one item. -/
theorem segmentsFrom_of_unsplit {d : Int} {item : List Lexeme} (h : Unsplit d item) :
    segmentsFrom d item = [item] := by
  induction item generalizing d with
  | nil => rfl
  | cons l item ih =>
    obtain ⟨hl, hitem⟩ := unsplit_cons.mp h
    have hcond : (l.isPunct .comma && d == 0) = false := by
      cases hcomma : l.isPunct .comma with
      | false => rfl
      | true => simpa using hl hcomma
    rw [segmentsFrom, hcond, if_neg (by decide), ih hitem]

/-- The first item ends at the first separator. -/
theorem segmentsFrom_append {d : Int} {item : List Lexeme} {comma : Lexeme} (h : Unsplit d item)
    (hdepth : d + depth item = 0) (hcomma : comma.isPunct .comma = true) (rest : List Lexeme) :
    segmentsFrom d (item ++ comma :: rest) = item :: segmentsFrom 0 rest := by
  induction item generalizing d with
  | nil =>
    -- the item has ended, so the depth is back at zero and the comma separates
    have hd : d = 0 := by simpa using hdepth
    rw [List.nil_append, segmentsFrom, hd, if_pos (by rw [hcomma]; rfl)]
  | cons l item ih =>
    obtain ⟨hl, hitem⟩ := unsplit_cons.mp h
    have hcond : (l.isPunct .comma && d == 0) = false := by
      cases hcomma : l.isPunct .comma with
      | false => rfl
      | true => simpa using hl hcomma
    rw [depth_cons, ← Int.add_assoc] at hdepth
    rw [List.cons_append, segmentsFrom, hcond, if_neg (by decide), ih hitem hdepth]

/-- So any cut is the one that is made. -/
theorem Cut.segmentsFrom_eq {d : Int} {ls : List Lexeme} {items : List (List Lexeme)}
    (h : Cut d ls items) : segmentsFrom d ls = items := by
  -- by the cut: an item is the last one, or a separator and the other items follow
  induction h with
  | last hitem => exact segmentsFrom_of_unsplit hitem
  | cons hitem hdepth hcomma _ ih => rw [segmentsFrom_append hitem hdepth hcomma, ih]

/-- **Every list has exactly one cut.** -/
theorem segments_eq_iff {ls : List Lexeme} {items : List (List Lexeme)} :
    segments ls = items ↔ Cut 0 ls items := by
  constructor
  · rintro rfl
    exact cut_segmentsFrom 0 ls
  · exact Cut.segmentsFrom_eq

/-! ### Joining the items again -/

/-- A first item, and behind it each separator with its item. -/
def joined (first : List Lexeme) (others : List (Lexeme × List Lexeme)) : List Lexeme :=
  first ++ others.flatMap fun (comma, item) => comma :: item

/-- **Nothing is lost in a cut.** The items and the separators between them give back the list, and
each separator is a comma that stands at depth zero. -/
theorem Cut.joined {d : Int} {ls : List Lexeme} {items : List (List Lexeme)} (h : Cut d ls items) :
    ∃ first others, items = first :: others.map Prod.snd ∧ Group.joined first others = ls ∧
      ∀ before comma item after, others = before ++ (comma, item) :: after →
        comma.isPunct .comma = true ∧ d + depth (Group.joined first before) = 0 := by
  induction h with
  | @last d item hitem =>
    refine ⟨item, [], rfl, List.append_nil item, ?_⟩
    intro before comma item after h
    exact absurd h (by simp)
  | @cons d item rest separator items hitem hdepth hcomma hrest ih =>
    obtain ⟨first, others, rfl, rfl, hothers⟩ := ih
    refine ⟨item, (separator, first) :: others, rfl, rfl, ?_⟩
    intro before comma next after h
    rcases List.cons_eq_append_iff.mp h with ⟨rfl, hbehind⟩ | ⟨before, rfl, rfl⟩
    · -- the first separator stands behind the first item
      cases hbehind
      exact ⟨hcomma, by simpa [Group.joined] using hdepth⟩
    · obtain ⟨hcomma', hzero⟩ := hothers before comma next after rfl
      refine ⟨hcomma', ?_⟩
      have hjoin : Group.joined item ((separator, first) :: before) =
          item ++ separator :: Group.joined first before := rfl
      rw [hjoin, depth_append, depth_cons, depthStep_of_comma hcomma]
      omega

/-- An item is a stretch of the list. -/
theorem Cut.infix_of_mem {d : Int} {ls : List Lexeme} {items : List (List Lexeme)}
    (h : Cut d ls items) : ∀ item ∈ items, item <:+: ls := by
  induction h with
  | last hitem => simp
  | @cons d item rest comma items _ _ _ _ ih =>
    intro x hx
    rcases List.mem_cons.mp hx with rfl | hx
    · exact (List.prefix_append x _).isInfix
    · have hsuffix : rest <:+ item ++ comma :: rest :=
        (List.suffix_cons comma rest).trans (List.suffix_append item _)
      exact (ih x hx).trans hsuffix.isInfix

theorem infix_of_mem_segments {ls item : List Lexeme} (h : item ∈ segments ls) : item <:+: ls :=
  (segments_eq_iff.mp rfl).infix_of_mem item h

/-- In no item a comma is left at depth zero. -/
theorem Cut.unsplit {ls : List Lexeme} {items : List (List Lexeme)} {d : Int} (h : Cut d ls items)
    (hd : d = 0) : ∀ item ∈ items, Unsplit 0 item := by
  induction h with
  | last hitem => simpa [hd] using hitem
  | cons hitem _ _ _ ih =>
    intro item hmem
    rcases List.mem_cons.mp hmem with rfl | hmem
    · exact hd ▸ hitem
    · exact ih rfl item hmem

end Group

/-! ## The account of a body

The items that have to define a column are read one by one, each without the others. What they give
is sorted into columns and anomalies, and neither sorting loses or moves anything. -/

section Results

variable {ε α : Type}

@[simp] theorem successes_nil : successes ([] : List (Except ε α)) = [] := rfl

@[simp] theorem failures_nil : failures ([] : List (Except ε α)) = [] := rfl

@[simp] theorem successes_ok (a : α) (results : List (Except ε α)) :
    successes (.ok a :: results) = a :: successes results := rfl

@[simp] theorem successes_error (e : ε) (results : List (Except ε α)) :
    successes (.error e :: results) = successes results := rfl

@[simp] theorem failures_ok (a : α) (results : List (Except ε α)) :
    failures (.ok a :: results) = failures results := rfl

@[simp] theorem failures_error (e : ε) (results : List (Except ε α)) :
    failures (.error e :: results) = e :: failures results := rfl

/-- Each result is counted once. -/
theorem length_successes_add_failures (results : List (Except ε α)) :
    (successes results).length + (failures results).length = results.length := by
  induction results with
  | nil => rfl
  | cons r results ih =>
    cases r with
    | error e =>
      rw [successes_error, failures_error, List.length_cons, List.length_cons, ← ih]
      omega
    | ok a =>
      rw [successes_ok, failures_ok, List.length_cons, List.length_cons, ← ih]
      omega

end Results

/-- An item that has to define a column: it is neither empty nor a clause of the table. -/
def definesColumn (item : List Lexeme) : Bool :=
  !item.isEmpty && !isStructural item

/-- What an item of a body adds to the columns and to the anomalies. -/
inductive Outcome (script : Array Char) (keys : List String) :
    List Lexeme → List Column → List Anomaly → Prop
  | passed {item : List Lexeme} (hitem : definesColumn item = false) :
      Outcome script keys item [] []
  | column {item : List Lexeme} {column : Column} (hitem : definesColumn item = true)
      (hread : ColumnDef.read script keys item = .ok column) :
      Outcome script keys item [column] []
  /-- The anomaly tells the line of the item's first lexeme and cites the text of the item. -/
  | anomaly {first : Lexeme} {rest : List Lexeme} {cause : Cause}
      (hitem : definesColumn (first :: rest) = true)
      (hread : ColumnDef.read script keys (first :: rest) = .error cause)
      (hsubject : cause.subject = "column") :
      Outcome script keys (first :: rest) []
        [.ofText cause first.line (slice script first.start (rest.getLastD first).stop)]

/-- The account of a body that was cut into items. -/
structure PartitionedBody (script : Array Char) (body : List Lexeme)
    (items : List (List Lexeme)) : Prop where
  /-- The items joined by the separators are the body, and each separator is a comma that stands at
  depth zero. -/
  joined : ∃ first others, items = first :: others.map Prod.snd ∧ Group.joined first others = body ∧
    ∀ before comma item after, others = before ++ (comma, item) :: after →
      comma.isPunct .comma = true ∧ Group.depth (Group.joined first before) = 0
  /-- No other comma stands at depth zero. -/
  unsplit : ∀ item ∈ items, Group.Unsplit 0 item
  /-- Item by item, the columns and the anomalies of the body in source order. -/
  outcomes : ∃ outcomes : List (List Column × List Anomaly),
    List.Forall₂ (fun item o => Outcome script (PrimaryKey.keyNames body) item o.1 o.2) items
        outcomes ∧
      successes (readBody script body) = outcomes.flatMap Prod.fst ∧
      failures (readBody script body) = outcomes.flatMap Prod.snd
  count : (successes (readBody script body)).length + (failures (readBody script body)).length =
    items.countP definesColumn

/-- An item that has to define a column gives one column or one anomaly. -/
theorem outcome_readItem (script : Array Char) (keys : List String) {item : List Lexeme}
    (hitem : definesColumn item = true) :
    Outcome script keys item (successes [readItem script keys item])
      (failures [readItem script keys item]) := by
  cases item with
  | nil => exact absurd hitem (by decide)
  | cons first rest =>
    rw [readItem]
    cases hread : ColumnDef.read script keys (first :: rest) with
    | ok column => exact .column hitem hread
    | error cause => exact .anomaly hitem hread (ColumnDef.subject_of_read_error hread)

/-- The outcomes of all items, in their order, are what the body gives. -/
theorem outcomes_of_items (script : Array Char) (keys : List String) (items : List (List Lexeme)) :
    ∃ outcomes : List (List Column × List Anomaly),
      List.Forall₂ (fun item o => Outcome script keys item o.1 o.2) items outcomes ∧
        successes ((items.filter definesColumn).map (readItem script keys)) =
          outcomes.flatMap Prod.fst ∧
        failures ((items.filter definesColumn).map (readItem script keys)) =
          outcomes.flatMap Prod.snd := by
  induction items with
  | nil => exact ⟨[], .nil, rfl, rfl⟩
  | cons item items ih =>
    obtain ⟨outcomes, hall, hcolumns, hanomalies⟩ := ih
    -- an item that defines no column is dropped before it is read
    cases hitem : definesColumn item with
    | false =>
      refine ⟨([], []) :: outcomes, .cons (.passed hitem) hall, ?_, ?_⟩
      · rw [List.filter_cons_of_neg (by simp [hitem])]
        exact hcolumns
      · rw [List.filter_cons_of_neg (by simp [hitem])]
        exact hanomalies
    | true =>
      refine ⟨(successes [readItem script keys item], failures [readItem script keys item]) ::
        outcomes, .cons (outcome_readItem script keys hitem) hall, ?_, ?_⟩
      · rw [List.filter_cons_of_pos hitem, List.map_cons, List.flatMap_cons, ← hcolumns]
        cases readItem script keys item <;> rfl
      · rw [List.filter_cons_of_pos hitem, List.map_cons, List.flatMap_cons, ← hanomalies]
        cases readItem script keys item <;> rfl

/-- **A body is partitioned.** The items that `segments` makes are the body cut at its commas of
depth zero, and each of them that has to define a column gives exactly one column or one anomaly. -/
theorem body_partitioned (script : Array Char) (body : List Lexeme) :
    PartitionedBody script body (Group.segments body) := by
  have hcut : Group.Cut 0 body (Group.segments body) := Group.segments_eq_iff.mp rfl
  refine
    { joined := by simpa only [Int.zero_add] using hcut.joined
      unsplit := hcut.unsplit rfl
      outcomes := outcomes_of_items script _ (Group.segments body)
      count := ?_ }
  rw [length_successes_add_failures, readBody, List.length_map, List.countP_eq_length_filter]
  rfl

end TableDocs.Sql
