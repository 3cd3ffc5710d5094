import TableDocs.Proofs.Sql.DefinitionExtent

/-!
# TableDocs — every definition is accounted for

The findings of `scan` do not say where they were made. `visits` is the same walk with the indices
of the lexemes at which it stopped, and `Account` is what these indices satisfy:

* a header that is met by the walk gives one table or one anomaly, at the index where it starts;
* a header that is not met lies inside the body of one accepted table;
* nothing is found anywhere else, and the stretches that the findings take up do not overlap.

Two facts about headers carry the proof. They do not overlap
(`Header.Extent.read?_eq_none_of_inside`) and they need an opening parenthesis before the next
semicolon (`Header.read?_eq_none_before_semicolon`), which the options of an accepted table do not
have.
-/

namespace TableDocs.Sql

/-! ## Visits

The walk is repeated with indices instead of lexemes alone. It stops at the same headers, in the
same order, and gives the same findings, so what is proved of the visits is proved of the scan. -/

/-- A header at which the walk stops. Indices count the lexemes of the whole list from zero. -/
inductive Visit
  -- a table: its `CREATE`, the parentheses around its body and its semicolon
  | accepted (start opening closing stop : Nat) (table : Table) (skipped : List Anomaly)
  -- a broken definition: its `CREATE` and its opening parenthesis
  | rejected (start opening : Nat) (anomaly : Anomaly)
  deriving DecidableEq, Repr

namespace Visit

/-- The index of the CREATE that begins the header. -/
def start : Visit → Nat
  | accepted start _ _ _ _ _ => start
  | rejected start _ _ => start

/-- The last index that the walk leaves behind. -/
def last : Visit → Nat
  | accepted _ _ _ stop _ _ => stop
  | rejected _ opening _ => opening

def finding : Visit → Finding
  | accepted _ _ _ _ table skipped => .table table skipped
  | rejected _ _ anomaly => .broken anomaly

def table? : Visit → Option Table
  | accepted _ _ _ _ table _ => some table
  | rejected _ _ _ => none

def broken? : Visit → Option Anomaly
  | accepted _ _ _ _ _ _ => none
  | rejected _ _ anomaly => some anomaly

/-- Is this an accepted table that starts at `p`? -/
def tableAt (p : Nat) : Visit → Bool
  | accepted start _ _ _ _ _ => start == p
  | rejected _ _ _ => false

/-- Is this a broken definition that starts at `p`? -/
def brokenAt (p : Nat) : Visit → Bool
  | accepted _ _ _ _ _ _ => false
  | rejected start _ _ => start == p

/-- Does `p` lie strictly between the parentheses around the body of this table? -/
def bodyHolds (p : Nat) : Visit → Bool
  | accepted _ opening closing _ _ _ => decide (opening < p) && decide (p < closing)
  | rejected _ _ _ => false

end Visit

/-- The index, in a list of `total` lexemes, of the one right before its suffix `behind`. -/
def indexBefore (total : Nat) (behind : List Lexeme) : Nat :=
  total - behind.length - 1

/-- The walk of `scan` through the end `ls` of a list of `total` lexemes, with indices. -/
def visitsFrom (script : Array Char) (total : Nat) (ls : List Lexeme) : List Visit :=
  match ls with
  | [] => []
  | l :: rest =>
    match _hh : Header.read? (l :: rest) with
    | none => visitsFrom script total rest
    | some header =>
      match _hd : readDefinition script l header with
      | .error anomaly =>
        .rejected (indexBefore total rest) (indexBefore total header.rest) anomaly ::
          visitsFrom script total header.rest
      | .ok (table, skipped, after) =>
        let closing := ((Group.close? 0 header.rest).map fun g => indexBefore total g.rest).getD 0
        .accepted (indexBefore total rest) (indexBefore total header.rest) closing
            (indexBefore total after) table skipped ::
          visitsFrom script total after
termination_by ls.length
decreasing_by
  · simp
  · exact Header.length_of_read? _hh
  · exact Nat.lt_trans (length_of_readDefinition _hd) (Header.length_of_read? _hh)

/-- The headers at which the walk through a list of lexemes stops. -/
def visits (script : Array Char) (ls : List Lexeme) : List Visit :=
  visitsFrom script ls.length ls

/-! ## Where a visit stands

A visit carries indices, and an index is worth something only if it points at the right lexeme. So a
visit is tied to the lexemes piece by piece: its header, its body, its semicolon. -/

/-- What the indices of a visit point at: the visit reads the header and the definition that stand
there, and nothing else. -/
inductive Visit.Located (script : Array Char) (ls : List Lexeme) : Visit → Prop
  | accepted {start opening closing stop : Nat} {table : Table} {skipped : List Anomaly}
      {create terminator : Lexeme} {header : Header} {body : Group} {trailer after : List Lexeme}
      (hcreate : ls[start]? = some create)
      (hheader : Header.read? (ls.drop start) = some header)
      (hopening : ls.drop opening = header.opening :: header.rest)
      (hbody : Group.close? 0 header.rest = some body)
      (hclosing : ls.drop closing = body.close :: body.rest)
      (hend : Lexeme.splitAt? .semicolon body.rest = some (trailer, terminator, after))
      (hstop : ls.drop stop = terminator :: after)
      (hread : readDefinition script create header = .ok (table, skipped, after))
      (horder : start < opening ∧ opening < closing ∧ closing < stop) :
      Located script ls (.accepted start opening closing stop table skipped)
  | rejected {start opening : Nat} {anomaly : Anomaly} {create : Lexeme} {header : Header}
      (hcreate : ls[start]? = some create)
      (hheader : Header.read? (ls.drop start) = some header)
      (hopening : ls.drop opening = header.opening :: header.rest)
      (hread : readDefinition script create header = .error anomaly)
      (horder : start < opening) :
      Located script ls (.rejected start opening anomaly)

/-! ### Indices of suffixes -/

section Indices

variable {ls rest : List Lexeme} {l : Lexeme}

theorem indexBefore_add (h : l :: rest <:+ ls) :
    indexBefore ls.length rest + rest.length + 1 = ls.length := by
  have := h.length_le
  rw [List.length_cons] at this
  rw [indexBefore]
  omega

/-- The list from that index on is the lexeme and the suffix behind it. -/
theorem drop_indexBefore (h : l :: rest <:+ ls) :
    ls.drop (indexBefore ls.length rest) = l :: rest := by
  obtain ⟨front, rfl⟩ := h
  have hlen : indexBefore (front ++ l :: rest).length rest = front.length := by
    rw [indexBefore, List.length_append, List.length_cons]
    omega
  rw [hlen, List.drop_left]

theorem getElem?_indexBefore (h : l :: rest <:+ ls) :
    ls[indexBefore ls.length rest]? = some l := by
  rw [← List.head?_drop, drop_indexBefore h]
  rfl

/-- A suffix of a suffix stands further right. -/
theorem indexBefore_lt {rest' : List Lexeme} {l' : Lexeme} (h : l :: rest <:+ ls)
    (h' : l' :: rest' <:+ rest) : indexBefore ls.length rest < indexBefore ls.length rest' := by
  have hlen := h.length_le
  have hlen' := h'.length_le
  rw [List.length_cons] at hlen hlen'
  rw [indexBefore, indexBefore]
  omega

end Indices

/-! ### The visits of the walk

The three steps of the walk are those of the scan. In each of them the indices of the visit come
from suffixes of the list, and a suffix of a suffix stands further right. -/

section Steps

variable {script : Array Char} {all rest : List Lexeme} {l : Lexeme} {header : Header}

/-- A broken definition is where its header says. -/
theorem located_rejected (hls : l :: rest <:+ all) (hh : Header.read? (l :: rest) = some header)
    {a : Anomaly} (hd : readDefinition script l header = .error a) :
    Visit.Located script all
      (.rejected (indexBefore all.length rest) (indexBefore all.length header.rest) a) := by
  have hinner := Header.opening_suffix_of_read? hh
  have hopening := hinner.trans ((List.suffix_cons l rest).trans hls)
  refine .rejected (getElem?_indexBefore hls) ?_ (drop_indexBefore hopening) hd
    (indexBefore_lt hls hinner)
  rw [drop_indexBefore hls, hh]

/-- An accepted table has its parentheses and its semicolon where its parts end. -/
theorem located_accepted (hls : l :: rest <:+ all) (hh : Header.read? (l :: rest) = some header)
    {table : Table} {skipped : List Anomaly} {after : List Lexeme} {body : Group}
    {trailer : List Lexeme} {terminator : Lexeme}
    (hd : readDefinition script l header = .ok (table, skipped, after))
    (hbody : Group.close? 0 header.rest = some body)
    (hend : Lexeme.splitAt? .semicolon body.rest = some (trailer, terminator, after)) :
    Visit.Located script all
      (.accepted (indexBefore all.length rest) (indexBefore all.length header.rest)
        (indexBefore all.length body.rest) (indexBefore all.length after) table skipped) := by
  have hinner := Header.opening_suffix_of_read? hh
  have hclose := Group.close_suffix_of_close? hbody
  have hstop := Lexeme.mark_suffix_of_splitAt? hend
  -- each of these suffixes is one of the whole list too
  have hopening := hinner.trans ((List.suffix_cons l rest).trans hls)
  have hclosing := hclose.trans ((List.suffix_cons _ _).trans hopening)
  have hsemi := hstop.trans ((List.suffix_cons _ _).trans hclosing)
  refine .accepted (getElem?_indexBefore hls) ?_ (drop_indexBefore hopening) hbody
    (drop_indexBefore hclosing) hend (drop_indexBefore hsemi) hd
    ⟨indexBefore_lt hls hinner, indexBefore_lt hopening hclose, indexBefore_lt hclosing hstop⟩
  rw [drop_indexBefore hls, hh]

/-- Where no header starts, nothing is visited. -/
theorem visitsFrom_of_none (total : Nat) (h : Header.read? (l :: rest) = none) :
    visitsFrom script total (l :: rest) = visitsFrom script total rest := by
  rw [visitsFrom]
  split
  · rfl
  · next hh => rw [h] at hh; exact absurd hh (by simp)

/-- A broken definition is one visit, and the walk goes on behind its opening parenthesis. -/
theorem visitsFrom_of_error (total : Nat) (h : Header.read? (l :: rest) = some header) {a : Anomaly}
    (hd : readDefinition script l header = .error a) :
    visitsFrom script total (l :: rest) =
      .rejected (indexBefore total rest) (indexBefore total header.rest) a ::
        visitsFrom script total header.rest := by
  rw [visitsFrom]
  split
  · next hh => rw [h] at hh; exact absurd hh (by simp)
  · next header' hh =>
    rw [h] at hh
    cases hh
    split
    · next hd' => rw [hd] at hd'; cases hd'; rfl
    · next hd' => rw [hd] at hd'; exact absurd hd' (by simp)

/-- A table is one visit, and the walk goes on behind its semicolon. -/
theorem visitsFrom_of_ok (total : Nat) (h : Header.read? (l :: rest) = some header) {table : Table}
    {skipped : List Anomaly} {after : List Lexeme} {body : Group}
    (hd : readDefinition script l header = .ok (table, skipped, after))
    (hbody : Group.close? 0 header.rest = some body) :
    visitsFrom script total (l :: rest) =
      .accepted (indexBefore total rest) (indexBefore total header.rest)
          (indexBefore total body.rest) (indexBefore total after) table skipped ::
        visitsFrom script total after := by
  rw [visitsFrom]
  split
  · next hh => rw [h] at hh; exact absurd hh (by simp)
  · next header' hh =>
    rw [h] at hh
    cases hh
    split
    · next hd' => rw [hd] at hd'; exact absurd hd' (by simp)
    · next hd' => rw [hd] at hd'; cases hd'; simp only [hbody, Option.map_some, Option.getD_some]

end Steps

/-- The visits give the findings of the scan, in order. -/
theorem map_finding_visitsFrom (script : Array Char) (total : Nat) (ls : List Lexeme) :
    (visitsFrom script total ls).map Visit.finding = scan script ls := by
  induction ls using scan_induction script with
  | nil => rw [visitsFrom, scan_nil]; rfl
  | pass l rest hh ih => rw [visitsFrom_of_none total hh, scan_of_none hh, ih]
  | broken l rest header a hh hd ih =>
    rw [visitsFrom_of_error total hh hd, scan_of_error hh hd, List.map_cons, ih]
    rfl
  | table l rest header body trailer terminator after t skipped hh hd hbody hend ih =>
    rw [visitsFrom_of_ok total hh hd hbody, scan_of_ok hh hd, List.map_cons, ih]
    rfl

/-- Every visit stands where it says it does, and not before the lexemes that were left. -/
theorem located_of_mem_visitsFrom {script : Array Char} {all ls : List Lexeme} (hls : ls <:+ all)
    {v : Visit} (hv : v ∈ visitsFrom script all.length ls) :
    v.Located script all ∧ all.length ≤ v.start + ls.length := by
  induction ls using scan_induction script with
  | nil => rw [visitsFrom] at hv; exact absurd hv (by simp)
  | pass l rest hh ih =>
    -- a lexeme is passed, and the visits are those behind it
    rw [visitsFrom_of_none _ hh] at hv
    obtain ⟨hloc, hstart⟩ := ih ((List.suffix_cons l rest).trans hls) hv
    exact ⟨hloc, by rw [List.length_cons]; omega⟩
  | broken l rest header a hh hd ih =>
    rw [visitsFrom_of_error _ hh hd] at hv
    rcases List.mem_cons.mp hv with rfl | hv
    -- the visit starts at this lexeme or it stands further back
    · have hadd := indexBefore_add hls
      exact ⟨located_rejected hls hh hd, by rw [List.length_cons, Visit.start]; omega⟩
    · have hrest := (List.suffix_cons _ _).trans (Header.opening_suffix_of_read? hh)
      obtain ⟨hloc, hstart⟩ := ih (hrest.trans ((List.suffix_cons l rest).trans hls)) hv
      have := hrest.length_le
      exact ⟨hloc, by rw [List.length_cons]; omega⟩
  | table l rest header body trailer terminator after t skipped hh hd hbody hend ih =>
    rw [visitsFrom_of_ok _ hh hd hbody] at hv
    rcases List.mem_cons.mp hv with rfl | hv
    · have hadd := indexBefore_add hls
      exact ⟨located_accepted hls hh hd hbody hend, by rw [List.length_cons, Visit.start]; omega⟩
    -- the scan goes on behind the semicolon, which is behind the header
    · have hrest : after <:+ rest := (List.suffix_cons _ _).trans <|
        (terminator_suffix hbody hend).trans <|
          (List.suffix_cons _ _).trans (Header.opening_suffix_of_read? hh)
      obtain ⟨hloc, hstart⟩ := ih (hrest.trans ((List.suffix_cons l rest).trans hls)) hv
      have := hrest.length_le
      exact ⟨hloc, by rw [List.length_cons]; omega⟩

/-- Visits do not overlap: each one starts behind the last index of those before it. -/
theorem visitsFrom_apart {script : Array Char} {all ls : List Lexeme} (hls : ls <:+ all) :
    (visitsFrom script all.length ls).Pairwise fun v w => v.last < w.start := by
  induction ls using scan_induction script with
  | nil => rw [visitsFrom]; exact .nil
  | pass l rest hh ih =>
    rw [visitsFrom_of_none _ hh]
    exact ih ((List.suffix_cons l rest).trans hls)
  | broken l rest header a hh hd ih =>
    have hopening := (Header.opening_suffix_of_read? hh).trans ((List.suffix_cons l rest).trans hls)
    have hrest := (List.suffix_cons _ _).trans hopening
    have hadd := indexBefore_add hopening
    rw [visitsFrom_of_error _ hh hd]
    refine List.pairwise_cons.mpr ⟨fun w hw => ?_, ih hrest⟩
    -- all further visits start behind the opening parenthesis
    have := (located_of_mem_visitsFrom hrest hw).2
    rw [Visit.last]
    omega
  | table l rest header body trailer terminator after t skipped hh hd hbody hend ih =>
    have hopening := (Header.opening_suffix_of_read? hh).trans ((List.suffix_cons l rest).trans hls)
    have hstop := (terminator_suffix hbody hend).trans ((List.suffix_cons _ _).trans hopening)
    have hafter := (List.suffix_cons _ _).trans hstop
    have hadd := indexBefore_add hstop
    rw [visitsFrom_of_ok _ hh hd hbody]
    refine List.pairwise_cons.mpr ⟨fun w hw => ?_, ih hafter⟩
    -- all further visits start behind the semicolon
    have := (located_of_mem_visitsFrom hafter hw).2
    rw [Visit.last]
    omega

/-! ## No header is passed over

A header that the walk does not stop at can only stand inside the body of an accepted table: the
walk goes on right behind the opening parenthesis of a broken definition, and an accepted one has no
room for a header outside its body. -/

namespace Visit

/-- Does the visit start at `p`, or hold `p` in its body? -/
def concerns (p : Nat) (v : Visit) : Bool :=
  v.tableAt p || v.brokenAt p || v.bodyHolds p

section Located

variable {script : Array Char} {ls : List Lexeme} {p : Nat}

/-- Where a visit starts, a header stands. -/
theorem Located.exists_header {v : Visit} (h : v.Located script ls) :
    ∃ header, Header.read? (ls.drop v.start) = some header := by
  cases h with
  | accepted hcreate hheader => exact ⟨_, hheader⟩
  | rejected hcreate hheader => exact ⟨_, hheader⟩

/-- Nothing starts between the closing parenthesis of an accepted table and its semicolon. -/
theorem Located.read?_eq_none_of_trailer {start opening closing stop : Nat} {table : Table}
    {skipped : List Anomaly}
    (h : Located script ls (.accepted start opening closing stop table skipped))
    (hp : closing ≤ p) (hp' : p ≤ stop) : Header.read? (ls.drop p) = none := by
  cases h with
  | @accepted _ _ _ _ _ _ create terminator header body trailer after hcreate hheader hopening hbody
      hclosing hend hstop hread horder =>
    obtain ⟨hsplit, hsemi, -⟩ := Lexeme.splitAt?_extent hend
    have hclose := (Group.close?_extent hbody).2.close_isPunct
    have hoptions := isPunct_openParen_of_trailer hread hbody hend
    -- the options of a table that was accepted hold no parenthesis
    have hfront : ∀ l ∈ body.close :: trailer, l.isPunct .openParen = false := by
      intro l hl
      rcases List.mem_cons.mp hl with rfl | hl
      · exact Lexeme.isPunct_eq_false_of_ne hclose (by decide)
      · exact hoptions l hl
    have hlen := congrArg List.length hclosing
    have hlen' := congrArg List.length hstop
    rw [hsplit, List.length_drop, List.length_cons, List.length_append, List.length_cons] at hlen
    rw [List.length_drop, List.length_cons] at hlen'
    -- what stands from `p` on is an end of the trailer, then the semicolon
    obtain ⟨k, rfl⟩ : ∃ k, p = closing + k := ⟨p - closing, by omega⟩
    have hk : k ≤ (body.close :: trailer).length := by
      rw [List.length_cons]
      omega
    have hdrop : ls.drop (closing + k) =
        (body.close :: trailer).drop k ++ terminator :: after := by
      rw [← List.drop_drop, hclosing, hsplit, ← List.cons_append,
        List.drop_append_of_le_length hk]
    rw [hdrop]
    exact Header.read?_eq_none_before_semicolon hsemi fun l hl => hfront l (List.mem_of_mem_drop hl)

/-- No header starts inside the header of a visit. -/
theorem read?_eq_none_of_header {start opening : Nat} {header : Header}
    (hheader : Header.read? (ls.drop start) = some header)
    (hopening : ls.drop opening = header.opening :: header.rest) (hp : start < p)
    (hp' : p ≤ opening) : Header.read? (ls.drop p) = none := by
  have hlen := congrArg List.length hopening
  rw [List.length_drop, List.length_cons] at hlen
  exact Header.read?_drop_eq_none_of_inside hheader hp (by omega)

/-- A header between the first and the last index of a visit is its own or stands in its body. -/
theorem Located.concerns_of_header {v : Visit} (h : v.Located script ls) (hstart : v.start ≤ p)
    (hlast : p ≤ v.last) (hheader : (Header.read? (ls.drop p)).isSome = true) :
    v.concerns p = true := by
  have hsome : Header.read? (ls.drop p) ≠ none := Option.isSome_iff_ne_none.mp hheader
  -- the index is the start of the visit or lies behind it
  rcases Nat.eq_or_lt_of_le hstart with rfl | hlt
  · cases v <;> simp [concerns, tableAt, brokenAt, start]
  · have hbehind := h
    cases h with
    | @accepted start opening closing stop _ _ _ _ _ _ _ _ _ hh hopening =>
      have hp : opening < p :=
        Nat.lt_of_not_le fun hle => hsome (read?_eq_none_of_header hh hopening hlt hle)
      have hp' : p < closing :=
        Nat.lt_of_not_le fun hle => hsome (hbehind.read?_eq_none_of_trailer hle hlast)
      simp [concerns, bodyHolds, hp, hp']
    | rejected _ hh hopening => exact absurd (read?_eq_none_of_header hh hopening hlt hlast) hsome

/-- What a visit concerns lies between its first and its last index. -/
theorem Located.bounds_of_concerns {v : Visit} (h : v.Located script ls)
    (hv : v.concerns p = true) : v.start ≤ p ∧ p ≤ v.last := by
  cases h with
  | accepted _ _ _ _ _ _ _ _ horder =>
    simp only [concerns, tableAt, brokenAt, bodyHolds, Bool.or_false, Bool.or_eq_true,
      Bool.and_eq_true, beq_iff_eq, decide_eq_true_eq] at hv
    simp only [start, last]
    omega
  | rejected _ _ _ _ horder =>
    simp only [concerns, tableAt, brokenAt, bodyHolds, Bool.or_false, Bool.false_or,
      beq_iff_eq] at hv
    simp only [start, last]
    omega

end Located

end Visit

/-- **Every header is met or enclosed.** -/
theorem exists_visit_of_header {script : Array Char} {all ls : List Lexeme} (hls : ls <:+ all)
    {p : Nat} (hp : all.length ≤ p + ls.length)
    (hheader : (Header.read? (all.drop p)).isSome = true) :
    ∃ v ∈ visitsFrom script all.length ls, v.concerns p = true := by
  induction ls using scan_induction script with
  | nil =>
    rw [List.drop_of_length_le (by simpa using hp)] at hheader
    exact absurd hheader (by decide)
  | pass l rest hh ih =>
    have hadd := indexBefore_add hls
    have hne : p ≠ indexBefore all.length rest := by
      rintro rfl
      rw [drop_indexBefore hls, hh] at hheader
      exact absurd hheader (by decide)
    rw [List.length_cons] at hp
    rw [visitsFrom_of_none _ hh]
    exact ih ((List.suffix_cons l rest).trans hls) (by omega)
  | broken l rest header a hh hd ih =>
    have hadd := indexBefore_add hls
    have hopening := (Header.opening_suffix_of_read? hh).trans ((List.suffix_cons l rest).trans hls)
    have hadd' := indexBefore_add hopening
    rw [List.length_cons] at hp
    rw [visitsFrom_of_error _ hh hd]
    -- the header is this one, or the walk comes to it behind this one
    by_cases hlast : p ≤ indexBefore all.length header.rest
    · have hstart : indexBefore all.length rest ≤ p := by omega
      exact ⟨_, List.mem_cons_self,
        (located_rejected hls hh hd).concerns_of_header hstart hlast hheader⟩
    · obtain ⟨v, hv, hconcerns⟩ := ih ((List.suffix_cons _ _).trans hopening) (by omega)
      exact ⟨v, List.mem_cons_of_mem _ hv, hconcerns⟩
  | table l rest header body trailer terminator after t skipped hh hd hbody hend ih =>
    have hadd := indexBefore_add hls
    have hopening := (Header.opening_suffix_of_read? hh).trans ((List.suffix_cons l rest).trans hls)
    have hstop := (terminator_suffix hbody hend).trans ((List.suffix_cons _ _).trans hopening)
    have hadd' := indexBefore_add hstop
    rw [List.length_cons] at hp
    rw [visitsFrom_of_ok _ hh hd hbody]
    by_cases hlast : p ≤ indexBefore all.length after
    · have hstart : indexBefore all.length rest ≤ p := by omega
      exact ⟨_, List.mem_cons_self,
        (located_accepted hls hh hd hbody hend).concerns_of_header hstart hlast hheader⟩
    · obtain ⟨v, hv, hconcerns⟩ := ih ((List.suffix_cons _ _).trans hstop) (by omega)
      exact ⟨v, List.mem_cons_of_mem _ hv, hconcerns⟩

/-! ## Counting the visits of a header

An index is concerned by one visit at most, for visits do not overlap, and by one at least. The
three ways in which a visit can concern it exclude each other. -/

/-- One element satisfies a predicate if there is one and no two do. -/
theorem countP_eq_one {α : Type} {P : α → Bool} {as : List α}
    (hpair : as.Pairwise fun a b => P a = true → P b = false) (hex : ∃ a ∈ as, P a = true) :
    as.countP P = 1 := by
  induction as with
  | nil => obtain ⟨a, ha, -⟩ := hex; exact absurd ha (by simp)
  | cons a as ih =>
    obtain ⟨hhead, htail⟩ := List.pairwise_cons.mp hpair
    rw [List.countP_cons]
    -- the one that satisfies `P` is the first one, and then no other does, or it is among the rest
    cases ha : P a with
    | true =>
      have hzero : as.countP P = 0 := by
        rw [List.countP_eq_zero]
        intro b hb
        rw [hhead b hb ha]
        decide
      rw [hzero]
      rfl
    | false =>
      obtain ⟨b, hb, hPb⟩ := hex
      rcases List.mem_cons.mp hb with rfl | hb
      · rw [ha] at hPb
        exact absurd hPb (by decide)
      · rw [ih htail ⟨b, hb, hPb⟩]
        rfl

/-- A visit concerns an index in one way only. -/
theorem countP_concerns {script : Array Char} {ls : List Lexeme} (p : Nat) {vs : List Visit}
    (hloc : ∀ v ∈ vs, v.Located script ls) :
    vs.countP (Visit.tableAt p) + vs.countP (Visit.brokenAt p) + vs.countP (Visit.bodyHolds p) =
      vs.countP (Visit.concerns p) := by
  induction vs with
  | nil => rfl
  | cons v vs ih =>
    have htail := ih fun w hw => hloc w (List.mem_cons_of_mem v hw)
    -- a visit counts for at most one of the three: its body starts behind its header
    have hone : (if v.tableAt p then 1 else 0) + (if v.brokenAt p then 1 else 0) +
        (if v.bodyHolds p then 1 else 0) = if v.concerns p then 1 else 0 := by
      cases hloc v List.mem_cons_self with
      | @accepted start opening closing stop _ _ _ _ _ _ _ _ _ _ _ _ _ _ _ _ horder =>
        simp only [Visit.concerns, Visit.tableAt, Visit.brokenAt, Visit.bodyHolds]
        by_cases hstart : start = p
        · subst hstart
          have : ¬ opening < start := by omega
          simp [this]
        · simp [hstart]
      | rejected => simp [Visit.concerns, Visit.tableAt, Visit.brokenAt, Visit.bodyHolds]
    simp only [List.countP_cons]
    omega

/-! ## Lines

The lines of a table are those of its first and its last lexeme, so they are ordered as the lexemes
are. -/

theorem line_le_of_lt {ls : List Lexeme} (hlines : ls.Pairwise fun l l' => l.line ≤ l'.line)
    {i j : Nat} {l l' : Lexeme} (hij : i < j) (hi : ls[i]? = some l) (hj : ls[j]? = some l') :
    l.line ≤ l'.line := by
  obtain ⟨hilt, rfl⟩ := List.getElem?_eq_some_iff.mp hi
  obtain ⟨hjlt, rfl⟩ := List.getElem?_eq_some_iff.mp hj
  exact List.pairwise_iff_getElem.mp hlines i j hilt hjlt hij

/-- A table tells the lines of its CREATE and of its semicolon. -/
theorem Visit.Located.lines {script : Array Char} {ls : List Lexeme}
    {start opening closing stop : Nat} {table : Table} {skipped : List Anomaly}
    (h : Visit.Located script ls (.accepted start opening closing stop table skipped)) :
    ∃ create terminator, ls[start]? = some create ∧ ls[stop]? = some terminator ∧
      table.startLine = create.line ∧ table.endLine = terminator.line := by
  cases h with
  | @accepted _ _ _ _ _ _ create terminator header body trailer after hcreate hheader hopening hbody
      hclosing hend hstop hread horder =>
    -- what the definition was read from is what the visit was located by
    obtain ⟨body', trailer', terminator', options, hbody', hend', -, htable, -⟩ :=
      readDefinition_ok hread
    rw [hbody] at hbody'
    cases hbody'
    rw [hend] at hend'
    cases hend'
    have hsemi : ls[stop]? = some terminator := by
      rw [← List.head?_drop, hstop]
      rfl
    exact ⟨create, terminator, hcreate, hsemi, by rw [htable], by rw [htable]⟩

/-! ## The parts of an accepted definition

The columns, the anomalies and the comment of a table come from two stretches of lexemes, which the
indices of its visit name. -/

/-- The lexemes strictly between two indices. -/
def between (ls : List Lexeme) (first last : Nat) : List Lexeme :=
  (ls.take last).drop (first + 1)

/-- A stretch between two lexemes, found by the indices of the two. -/
theorem between_eq {ls middle behind : List Lexeme} {first last : Nat} {x y : Lexeme}
    (hfirst : ls.drop first = x :: (middle ++ y :: behind)) (hlast : ls.drop last = y :: behind) :
    between ls first last = middle := by
  have hlen := congrArg List.length hfirst
  have hlen' := congrArg List.length hlast
  simp only [List.length_drop, List.length_cons, List.length_append] at hlen hlen'
  have hcount : last - (first + 1) = middle.length := by omega
  rw [between, List.drop_take, hcount, ← List.drop_drop, hfirst, List.drop_one, List.tail_cons,
    List.take_left]

/-- A table tells what stands between its parentheses and between its body and its semicolon. -/
theorem Visit.Located.parts {script : Array Char} {ls : List Lexeme}
    {start opening closing stop : Nat} {table : Table} {skipped : List Anomaly}
    (h : Visit.Located script ls (.accepted start opening closing stop table skipped)) :
    table.columns = successes (readBody script (between ls opening closing)) ∧
      skipped = failures (readBody script (between ls opening closing)) ∧
      ∃ options, TableOptions.read? (between ls closing stop) = some options ∧
        table.comment = (TableOptions.value? "COMMENT" options).getD "" := by
  cases h with
  | @accepted _ _ _ _ _ _ create terminator header body trailer after hcreate hheader hopening hbody
      hclosing hend hstop hread horder =>
    obtain ⟨body', trailer', terminator', options, hbody', hend', hoptions, htable, hskipped⟩ :=
      readDefinition_ok hread
    rw [hbody] at hbody'
    cases hbody'
    rw [hend] at hend'
    cases hend'
    -- both stretches are determined by what stands behind them
    have hinner : between ls opening closing = body.inner :=
      between_eq (by rw [hopening, (Group.close?_extent hbody).1]) hclosing
    have htrailer : between ls closing stop = trailer :=
      between_eq (by rw [hclosing, (Lexeme.splitAt?_extent hend).1]) hstop
    rw [hinner, htrailer]
    exact ⟨by rw [htable], hskipped, options, hoptions, by rw [htable]⟩

/-! ## The account

Each clause is one of the facts above. They are put together once, for the walk through a whole
list. -/

/-- What `vs`, the visits of the walk through `ls`, say about the headers of `ls`. -/
structure Account (script : Array Char) (ls : List Lexeme) (vs : List Visit) : Prop where
  -- The visits are the findings of the walk, in order.
  findings : vs.map Visit.finding = scan script ls
  -- The tables of the script are the accepted definitions.
  tables : (ScriptReading.ofFindings (scan script ls)).tables = vs.filterMap Visit.table?
  -- The anomalies about tables are those of the rejected definitions.
  anomalies :
    (ScriptReading.ofFindings (scan script ls)).anomalies.filter
        (fun a => a.cause.subject == "table") =
      vs.filterMap Visit.broken?
  -- The indices of a visit are those of the header and the definition that it read.
  located : ∀ v ∈ vs, v.Located script ls
  -- A header gives one table, or one anomaly about a table, or lies inside one body.
  exactly_one : ∀ p, (Header.read? (ls.drop p)).isSome = true →
    vs.countP (Visit.tableAt p) + vs.countP (Visit.brokenAt p) + vs.countP (Visit.bodyHolds p) = 1
  -- No table and no anomaly about a table comes from any other index.
  nowhere_else : ∀ p, Header.read? (ls.drop p) = none →
    vs.countP (Visit.tableAt p) + vs.countP (Visit.brokenAt p) = 0
  -- No header starts inside another one, up to its opening parenthesis.
  headers_apart : ∀ p header, Header.read? (ls.drop p) = some header →
    ∀ q, p < q → q ≤ indexBefore ls.length header.rest → Header.read? (ls.drop q) = none
  -- No header starts in the trailer of an accepted table.
  trailers_free : ∀ start opening closing stop table skipped,
    .accepted start opening closing stop table skipped ∈ vs →
      ∀ q, closing ≤ q → q ≤ stop → Header.read? (ls.drop q) = none
  -- The visits follow each other without overlap.
  apart : vs.Pairwise fun v w => v.last < w.start
  -- Where lines never decrease, tables follow each other by lines.
  lines : (ls.Pairwise fun l l' => l.line ≤ l'.line) →
    (∀ t ∈ vs.filterMap Visit.table?, t.startLine ≤ t.endLine) ∧
      (vs.filterMap Visit.table?).Pairwise fun t t' => t.endLine ≤ t'.startLine

theorem filterMap_table?_finding (vs : List Visit) :
    (vs.map Visit.finding).filterMap Finding.table? = vs.filterMap Visit.table? := by
  rw [List.filterMap_map]
  apply List.filterMap_congr
  intro v _
  cases v <;> rfl

/-- The tables of a reading are those of its accepted visits. -/
theorem tables_ofFindings_scan (script : Array Char) (ls : List Lexeme) :
    (ScriptReading.ofFindings (scan script ls)).tables =
      (visits script ls).filterMap Visit.table? := by
  rw [ScriptReading.ofFindings, ← map_finding_visitsFrom script ls.length ls, ← visits,
    filterMap_table?_finding]

/-- The anomalies of a reading are those of its visits, one visit after the other. -/
theorem anomalies_ofFindings_scan (script : Array Char) (ls : List Lexeme) :
    (ScriptReading.ofFindings (scan script ls)).anomalies =
      (visits script ls).flatMap fun v => v.finding.anomalies := by
  rw [ScriptReading.ofFindings, ← map_finding_visitsFrom script ls.length ls, ← visits,
    List.flatMap_map]

/-- Of the anomalies of an accepted table, none is about a table; the one of a broken definition
is. -/
theorem Visit.Located.filter_anomalies {script : Array Char} {ls : List Lexeme} {v : Visit}
    (h : v.Located script ls) :
    v.finding.anomalies.filter (fun a => a.cause.subject == "table") = v.broken?.toList := by
  cases h with
  | accepted hcreate hheader hopening hbody hclosing hend hstop hread horder =>
    obtain ⟨body, trailer, terminator, options, -, -, -, -, rfl⟩ := readDefinition_ok hread
    apply List.filter_eq_nil_iff.mpr
    intro a ha
    rw [subject_of_mem_failures ha]
    decide
  | rejected hcreate hheader hopening hread horder =>
    have hsubject := subject_of_readDefinition hread
    rw [Visit.finding, Finding.anomalies, List.filter_singleton, hsubject]
    rfl

/-- The anomalies about tables are those of the broken definitions. -/
theorem filter_anomalies_finding {script : Array Char} {ls : List Lexeme} {vs : List Visit}
    (hloc : ∀ v ∈ vs, v.Located script ls) :
    ((vs.map Visit.finding).flatMap Finding.anomalies).filter
        (fun a => a.cause.subject == "table") = vs.filterMap Visit.broken? := by
  induction vs with
  | nil => rfl
  | cons v vs ih =>
    have htail := ih fun w hw => hloc w (List.mem_cons_of_mem v hw)
    rw [List.map_cons, List.flatMap_cons, List.filter_append,
      (hloc v List.mem_cons_self).filter_anomalies, htail]
    cases v <;> rfl

/-- Tables follow each other by lines, as their visits follow each other by indices. -/
theorem tables_ordered {script : Array Char} {ls : List Lexeme} {vs : List Visit}
    (hloc : ∀ v ∈ vs, v.Located script ls) (hapart : vs.Pairwise fun v w => v.last < w.start)
    (hlines : ls.Pairwise fun l l' => l.line ≤ l'.line) :
    (∀ t ∈ vs.filterMap Visit.table?, t.startLine ≤ t.endLine) ∧
      (vs.filterMap Visit.table?).Pairwise fun t t' => t.endLine ≤ t'.startLine := by
  constructor
  · intro t ht
    obtain ⟨v, hv, htable⟩ := List.mem_filterMap.mp ht
    cases v with
    | rejected => exact absurd htable (by simp [Visit.table?])
    | accepted start opening closing stop table skipped =>
      cases htable
      obtain ⟨create, terminator, hcreate, hsemi, hstart, hend⟩ := (hloc _ hv).lines
      have horder : start < stop := by
        cases hloc _ hv with
        | accepted _ _ _ _ _ _ _ _ horder => omega
      rw [hstart, hend]
      exact line_le_of_lt hlines horder hcreate hsemi
  · rw [List.pairwise_filterMap]
    refine hapart.imp_of_mem ?_
    intro v w hv hw hlt t ht t' ht'
    cases v with
    | rejected => exact absurd ht (by simp [Visit.table?])
    | accepted =>
      cases w with
      | rejected => exact absurd ht' (by simp [Visit.table?])
      | accepted =>
        cases ht
        cases ht'
        -- the semicolon of one table stands in front of the `CREATE` of the next
        obtain ⟨-, terminator, -, hsemi, -, hend⟩ := (hloc _ hv).lines
        obtain ⟨create, -, hcreate, -, hstart, -⟩ := (hloc _ hw).lines
        rw [hstart, hend]
        exact line_le_of_lt hlines hlt hsemi hcreate

/-- **Every definition is accounted for.** -/
theorem every_definition_accounted (script : Array Char) (ls : List Lexeme) :
    Account script ls (visits script ls) := by
  have hloc : ∀ v ∈ visits script ls, v.Located script ls := fun v hv =>
    (located_of_mem_visitsFrom (List.suffix_refl ls) hv).1
  have hapart : (visits script ls).Pairwise fun v w => v.last < w.start :=
    visitsFrom_apart (List.suffix_refl ls)
  have hfind : (visits script ls).map Visit.finding = scan script ls :=
    map_finding_visitsFrom script ls.length ls
  refine
    { findings := hfind
      tables := ?_
      anomalies := ?_
      located := hloc
      exactly_one := ?_
      nowhere_else := ?_
      headers_apart := ?_
      trailers_free := ?_
      apart := hapart
      lines := tables_ordered hloc hapart }
  · rw [ScriptReading.ofFindings, ← hfind]
    exact filterMap_table?_finding (visits script ls)
  · rw [ScriptReading.ofFindings, ← hfind]
    exact filter_anomalies_finding hloc
  · intro p hheader
    rw [countP_concerns p hloc]
    refine countP_eq_one ?_ (exists_visit_of_header (List.suffix_refl ls) (by omega) hheader)
    -- two visits of one header would overlap
    refine hapart.imp_of_mem fun hv hw hlt hconcerns => ?_
    have hbounds := (hloc _ hv).bounds_of_concerns hconcerns
    rw [Bool.eq_false_iff]
    intro hconcerns'
    have hbounds' := (hloc _ hw).bounds_of_concerns hconcerns'
    omega
  · intro p hnone
    -- a visit at `p` would have read a header there
    have hstart : ∀ v ∈ visits script ls, v.start ≠ p := by
      rintro v hv rfl
      obtain ⟨header, hheader⟩ := (hloc v hv).exists_header
      rw [hheader] at hnone
      exact absurd hnone (by simp)
    rw [Nat.add_eq_zero_iff, List.countP_eq_zero, List.countP_eq_zero]
    constructor
    · intro v hv
      cases v with
      | accepted => simpa [Visit.tableAt, Visit.start] using hstart _ hv
      | rejected => simp [Visit.tableAt]
    · intro v hv
      cases v with
      | accepted => simp [Visit.brokenAt]
      | rejected => simpa [Visit.brokenAt, Visit.start] using hstart _ hv
  · intro p header hheader q hpq hq
    have hlen := Header.length_of_read? hheader
    rw [List.length_drop] at hlen
    rw [indexBefore] at hq
    exact Header.read?_drop_eq_none_of_inside hheader hpq (by omega)
  · intro start opening closing stop table skipped hv q hq hq'
    exact (hloc _ hv).read?_eq_none_of_trailer hq hq'

end TableDocs.Sql
