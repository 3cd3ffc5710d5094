import TableDocs.Proofs.Sql.DefinitionExtent

/-!
# TableDocs — statements are read in isolation

Reading a table definition looks ahead without bound: for a name, for the parenthesis that closes
the body, for a semicolon. None of these looks past the end of a statement:

* a header holds no semicolon, so `Header.read?_append_statement` finds the same header whatever
  follows the statement in which it starts;
* a body that is open at the end of its statement stays open as long as what follows closes no more
  parentheses than it opens;
* a closed body is followed by the semicolon that ends the statement.

So the walk through `before ++ after` is the walk through `before`, then the walk through `after`
(`scan_append`), however broken the statements of `before` are.
-/

namespace TableDocs.Sql

/-- Is the last lexeme a semicolon? -/
def EndsInSemicolon (ls : List Lexeme) : Prop :=
  ∃ front semicolon, ls = front ++ [semicolon] ∧ semicolon.isPunct .semicolon = true

/-- Whole statements: no lexemes at all, or a semicolon at the end. -/
def Statements (ls : List Lexeme) : Prop :=
  ls = [] ∨ EndsInSemicolon ls

/-- No stretch at the front holds more closing than opening parentheses. -/
def ClosesOnlyItsOwn (ls : List Lexeme) : Prop :=
  ∀ front, front <+: ls →
    front.countP (Lexeme.isPunct .closeParen) ≤ front.countP (Lexeme.isPunct .openParen)

/-- No table definition starts anywhere in the lexemes. -/
def HeaderFree (ls : List Lexeme) : Prop :=
  ∀ behind, behind <:+ ls → Header.read? behind = none

/-- Two readings as one. -/
def ScriptReading.followedBy (first second : ScriptReading) : ScriptReading :=
  ⟨first.tables ++ second.tables, first.anomalies ++ second.anomalies⟩

/-! ## Ends of statements

What is left of a statement is the end of one, as long as no semicolon was taken off. The readers
take words and marks that are none, so this carries them through a whole header. -/

theorem not_endsInSemicolon_nil : ¬ EndsInSemicolon [] := by
  rintro ⟨front, semicolon, h, -⟩
  exact absurd h (by simp)

theorem EndsInSemicolon.exists_mem {ls : List Lexeme} (h : EndsInSemicolon ls) :
    ∃ l ∈ ls, l.isPunct .semicolon = true := by
  obtain ⟨front, semicolon, rfl, hsemi⟩ := h
  exact ⟨semicolon, by simp, hsemi⟩

/-- The last lexeme is the semicolon, however the list is split in front of it. -/
theorem EndsInSemicolon.last (front : List Lexeme) {l : Lexeme}
    (h : EndsInSemicolon (front ++ [l])) : l.isPunct .semicolon = true := by
  obtain ⟨front', semicolon, hls, hsemi⟩ := h
  obtain ⟨-, heq⟩ := List.append_inj' hls rfl
  cases heq
  exact hsemi

/-- Taking lexemes off the front keeps the end, if anything is left. -/
theorem EndsInSemicolon.of_suffix {used rest : List Lexeme} (h : EndsInSemicolon (used ++ rest))
    (hrest : rest ≠ []) : EndsInSemicolon rest := by
  have hlast : rest = rest.dropLast ++ [rest.getLast hrest] :=
    (List.dropLast_append_getLast hrest).symm
  rw [hlast, ← List.append_assoc] at h
  exact ⟨rest.dropLast, rest.getLast hrest, hlast, h.last _⟩

/-- Lexemes that are no semicolons can be taken off the front of a statement. -/
theorem EndsInSemicolon.of_append {used rest : List Lexeme} (h : EndsInSemicolon (used ++ rest))
    (hused : ∀ l ∈ used, l.isPunct .semicolon = false) : EndsInSemicolon rest := by
  apply h.of_suffix
  rintro rfl
  obtain ⟨l, hl, hsemi⟩ := h.exists_mem
  rw [List.append_nil] at hl
  rw [hused l hl] at hsemi
  exact absurd hsemi (by decide)

theorem EndsInSemicolon.tail {l : Lexeme} {ls : List Lexeme} (h : EndsInSemicolon (l :: ls))
    (hl : l.isPunct .semicolon = false) : EndsInSemicolon ls :=
  (show EndsInSemicolon ([l] ++ ls) from h).of_append (by simpa using hl)

/-- What is left of whole statements is the end of a statement or nothing. -/
theorem Statements.of_suffix {used rest : List Lexeme} (h : Statements (used ++ rest)) :
    Statements rest := by
  rcases h with h | h
  · exact .inl (List.append_eq_nil_iff.mp h).2
  · by_cases hrest : rest = []
    · exact .inl hrest
    · exact .inr (h.of_suffix hrest)

/-- The count of the two parentheses as the depth that groups are read by. -/
theorem closesOnlyItsOwn_iff {ls : List Lexeme} :
    ClosesOnlyItsOwn ls ↔ Group.NeverBelow 0 ls := by
  constructor
  · intro h front hfront
    have := h front hfront
    rw [Group.depth_eq_count]
    omega
  · intro h front hfront
    have := h front hfront
    rw [Group.depth_eq_count] at this
    omega

theorem ClosesOnlyItsOwn.append {ls ls' : List Lexeme} (h : ClosesOnlyItsOwn ls)
    (h' : ClosesOnlyItsOwn ls') : ClosesOnlyItsOwn (ls ++ ls') := by
  rw [closesOnlyItsOwn_iff] at h h' ⊢
  refine h.append ?_
  intro front hfront
  have hls := h.depth_nonneg
  have := h' front hfront
  omega

instance : DecidablePred EndsInSemicolon := fun ls =>
  decidable_of_iff (ls.getLast?.any (Lexeme.isPunct .semicolon) = true) <| by
    rcases List.eq_nil_or_concat ls with rfl | ⟨front, l, rfl⟩
    · simp [not_endsInSemicolon_nil]
    · rw [List.concat_eq_append, List.getLast?_concat, Option.any_some]
      exact ⟨fun h => ⟨front, l, rfl, h⟩, fun h => h.last front⟩

instance : DecidablePred Statements := fun ls =>
  inferInstanceAs (Decidable (ls = [] ∨ EndsInSemicolon ls))

instance : DecidablePred ClosesOnlyItsOwn := fun ls =>
  decidable_of_iff (∀ front ∈ ls.inits,
      front.countP (Lexeme.isPunct .closeParen) ≤ front.countP (Lexeme.isPunct .openParen)) <| by
    simp only [List.mem_inits, ClosesOnlyItsOwn]

/-! ## Readers stay inside a statement

Each lemma says of one reader that it gives the same result when more lexemes follow the statement,
except that the lexemes it leaves are followed by them too. -/

/-- Keywords that are looked for are not looked for behind the semicolon. -/
theorem Lexeme.dropWords?_append {ws : List String} (hws : "" ∉ ws) {ls : List Lexeme}
    (hls : EndsInSemicolon ls) (more : List Lexeme) :
    dropWords? ws (ls ++ more) = (dropWords? ws ls).map (· ++ more) := by
  -- Each keyword asks for one more lexeme, and there is one, for the semicolon has not been
  -- reached.
  induction ws generalizing ls with
  | nil => rfl
  | cons w ws ih =>
    cases ls with
    | nil => exact absurd hls not_endsInSemicolon_nil
    | cons l ls =>
      rw [List.cons_append, dropWords?, dropWords?]
      by_cases hl : l.keyword = w
      · -- a keyword is no semicolon, so the statement goes on behind it
        have hne : l.keyword ≠ "" := fun h => hws (by rw [← h, hl]; exact List.mem_cons_self)
        have htail := hls.tail (isPunct_of_keyword_ne hne .semicolon)
        rw [if_pos hl, if_pos hl]
        exact ih (fun h => hws (List.mem_cons_of_mem w h)) htail
      · rw [if_neg hl, if_neg hl]
        rfl

theorem Lexeme.skipWords_append {ws : List String} (hws : "" ∉ ws) {ls : List Lexeme}
    (hls : EndsInSemicolon ls) (more : List Lexeme) :
    skipWords ws (ls ++ more) = skipWords ws ls ++ more := by
  rw [skipWords, skipWords, dropWords?_append hws hls]
  cases dropWords? ws ls <;> rfl

theorem Lexeme.skipOneOf_append (ws : List String) {ls : List Lexeme} (hls : EndsInSemicolon ls)
    (more : List Lexeme) : skipOneOf ws (ls ++ more) = skipOneOf ws ls ++ more := by
  cases ls with
  | nil => exact absurd hls not_endsInSemicolon_nil
  | cons l ls =>
    rw [List.cons_append, skipOneOf, skipOneOf]
    split <;> rfl

theorem EndsInSemicolon.skipWords {ws : List String} (hws : "" ∉ ws) {ls : List Lexeme}
    (hls : EndsInSemicolon ls) : EndsInSemicolon (Lexeme.skipWords ws ls) := by
  obtain ⟨used, h, hused⟩ := Lexeme.skipWords_extent ws ls
  rw [h] at hls
  exact hls.of_append (Header.isPunct_semicolon_of_keywords hws hused)

theorem EndsInSemicolon.dropWords? {ws : List String} (hws : "" ∉ ws) {ls rest : List Lexeme}
    (hls : EndsInSemicolon ls) (h : Lexeme.dropWords? ws ls = some rest) :
    EndsInSemicolon rest := by
  have := hls.skipWords hws
  rwa [Lexeme.skipWords, h] at this

theorem EndsInSemicolon.skipOneOf {ws : List String} (hws : "" ∉ ws) {ls : List Lexeme}
    (hls : EndsInSemicolon ls) : EndsInSemicolon (Lexeme.skipOneOf ws ls) := by
  obtain ⟨used, h, hused⟩ := Lexeme.skipOneOf_extent ws ls
  rw [h] at hls
  exact hls.of_append (Header.isPunct_semicolon_of_keywords hws hused)

/-- A name takes one lexeme or three. The cases are the lengths of the statement up to three, for
the reader looks no further. -/
theorem Name.read?_append_statement {ls : List Lexeme} (hls : EndsInSemicolon ls)
    (more : List Lexeme) :
    Name.read? (ls ++ more) = (Name.read? ls).map fun (name, rest) => (name, rest ++ more) := by
  match ls, hls with
  | [], hls => exact absurd hls not_endsInSemicolon_nil
  | [l], hls =>
    -- the semicolon alone is no name
    have hsemi := EndsInSemicolon.last [] hls
    have hb : l.isPunct .openBracket = false := Lexeme.isPunct_eq_false_of_ne hsemi (by decide)
    simp [Name.read?, hb, Name.ofLexeme?, Lexeme.kind_of_isPunct hsemi]
  | [l, inner], hls =>
    -- the semicolon cannot be what stands in square brackets
    have hsemi := EndsInSemicolon.last [l] hls
    cases hb : l.isPunct .openBracket with
    | true =>
      have hnone : Name.ofBracketed? inner = none := by
        rw [Name.ofBracketed?, Lexeme.kind_of_isPunct hsemi]
      cases more <;> simp [Name.read?, hb, hnone]
    | false => cases hn : Name.ofLexeme? l <;> simp [Name.read?, hb, hn]
  | l :: inner :: close :: rest, _ =>
    cases hb : l.isPunct .openBracket with
    | true =>
      cases hc : close.isPunct .closeBracket with
      | true => cases hn : Name.ofBracketed? inner <;> simp [Name.read?, hb, hc, hn]
      | false => simp [Name.read?, hb, hc]
    | false => cases hn : Name.ofLexeme? l <;> simp [Name.read?, hb, hn]

theorem EndsInSemicolon.read? {ls rest : List Lexeme} {name : String} (hls : EndsInSemicolon ls)
    (h : Name.read? ls = some (name, rest)) : EndsInSemicolon rest := by
  obtain ⟨part, rfl, hpart⟩ := Name.read?_spelling h
  exact hls.of_append hpart.isPunct_semicolon

/-- A qualified name ends in front of the semicolon at the latest. -/
theorem Name.readQualified?_append_statement {ls : List Lexeme} (hls : EndsInSemicolon ls)
    (more : List Lexeme) :
    Name.readQualified? (ls ++ more) =
      (Name.readQualified? ls).map fun (name, rest) => (name, rest ++ more) := by
  fun_induction Name.readQualified? ls with
  | case1 ls hr =>
    have hmore := Name.read?_append_statement hls more
    rw [hr] at hmore
    rw [Name.readQualified?_of_none hmore]
    rfl
  | case2 ls name hr =>
    -- a name that is the whole statement would have the semicolon in it
    exact absurd (hls.read? hr) not_endsInSemicolon_nil
  | case3 ls qualifier dot rest hr hdot ih =>
    have hmore := Name.read?_append_statement hls more
    rw [hr] at hmore
    have hrest := (hls.read? hr).tail (Lexeme.isPunct_eq_false_of_ne hdot (by decide))
    rw [Name.readQualified?_of_dot hmore hdot]
    exact ih hrest
  | case4 ls name l rest hr hdot =>
    have hmore := Name.read?_append_statement hls more
    rw [hr] at hmore
    rw [Name.readQualified?_of_no_dot hmore (by simpa [Lexeme.startsWith] using hdot)]
    rfl

/-- The name and the parenthesis behind it stand in the same statement. -/
theorem Header.readName?_append_statement {ls : List Lexeme} (hls : EndsInSemicolon ls)
    (more : List Lexeme) :
    Header.readName? (ls ++ more) =
      (Header.readName? ls).map fun h => { h with rest := h.rest ++ more } := by
  rw [Header.readName?, Header.readName?, Name.readQualified?_append_statement hls]
  cases hq : Name.readQualified? ls with
  | none => rfl
  | some found =>
    obtain ⟨name, rest⟩ := found
    cases rest with
    | nil =>
      -- the name would reach to the end, and that is a semicolon, which no name has
      obtain ⟨words, h, hwords, -⟩ := Name.readQualified?_spelling hq
      rw [h] at hls
      exact absurd (hls.of_append hwords.isPunct_semicolon) not_endsInSemicolon_nil
    | cons opening rest =>
      simp only [Option.map_some, List.cons_append]
      split <;> rfl

/-- A header is found inside its statement, whatever follows. -/
theorem Header.read?_append_statement {ls : List Lexeme} (hls : EndsInSemicolon ls)
    (more : List Lexeme) :
    Header.read? (ls ++ more) =
      (Header.read? ls).map fun h => { h with rest := h.rest ++ more } := by
  cases ls with
  | nil => exact absurd hls not_endsInSemicolon_nil
  | cons create ls =>
    rw [List.cons_append, Header.read?, Header.read?]
    by_cases hc : create.keyword = "CREATE"
    · have hrest := hls.tail (Lexeme.isPunct_of_keyword_ne (by rw [hc]; decide) .semicolon)
      -- behind each optional group of keywords the statement goes on
      have hreplace : EndsInSemicolon (Lexeme.skipWords ["OR", "REPLACE"] ls) :=
        hrest.skipWords (by decide)
      have hscope : EndsInSemicolon (Lexeme.skipOneOf ["GLOBAL", "LOCAL"] _) :=
        hreplace.skipOneOf (by decide)
      have hlife : EndsInSemicolon (Lexeme.skipOneOf ["TEMP", "TEMPORARY"] _) :=
        hscope.skipOneOf (by decide)
      rw [if_pos hc, if_pos hc, Header.skipQualifiers, Header.skipQualifiers,
        Lexeme.skipWords_append (by decide) hrest, Lexeme.skipOneOf_append _ hreplace,
        Lexeme.skipOneOf_append _ hscope, Lexeme.dropWords?_append (by decide) hlife]
      cases ht : Lexeme.dropWords? ["TABLE"] (Lexeme.skipOneOf ["TEMP", "TEMPORARY"]
          (Lexeme.skipOneOf ["GLOBAL", "LOCAL"] (Lexeme.skipWords ["OR", "REPLACE"] ls))) with
      | none => rfl
      | some afterTable =>
        have hafter := hlife.dropWords? (by decide) ht
        simp only [Option.map_some, Option.bind_some]
        rw [Lexeme.skipWords_append (by decide) hafter,
          Header.readName?_append_statement (hafter.skipWords (by decide))]
    · rw [if_neg hc, if_neg hc]
      rfl

/-- The header that was found is found again, with more lexemes behind it. -/
theorem Header.read?_append_of_some {l : Lexeme} {rest : List Lexeme} {h : Header}
    (hls : EndsInSemicolon (l :: rest)) (e : Header.read? (l :: rest) = some h)
    (more : List Lexeme) :
    Header.read? (l :: (rest ++ more)) = some { h with rest := h.rest ++ more } := by
  rw [← List.cons_append, Header.read?_append_statement hls, e]
  rfl

/-- What follows a header is the rest of its statement. -/
theorem EndsInSemicolon.readHeader? {ls : List Lexeme} {h : Header} (hls : EndsInSemicolon ls)
    (e : Header.read? ls = some h) : EndsInSemicolon h.rest := by
  obtain ⟨create, words, rfl, hext⟩ := Header.read?_extent e
  have hcreate : create.isPunct .semicolon = false :=
    Lexeme.isPunct_of_keyword_ne (by rw [hext.create_keyword]; decide) .semicolon
  have hopening : h.opening.isPunct .semicolon = false :=
    Lexeme.isPunct_eq_false_of_ne hext.opening_isPunct (by decide)
  exact ((hls.tail hcreate).of_append hext.semicolon_free).tail hopening

/-! ## Definitions stay inside a statement

What follows the statement of a header is seen only by a body that is still open there, and it
does not close that body. -/

/-- A definition says the same, and leaves what follows it for the walk. -/
theorem readDefinition_append_statement {script : Array Char} {create : Lexeme} {header : Header}
    (hrest : EndsInSemicolon header.rest) {more : List Lexeme} (hmore : ClosesOnlyItsOwn more) :
    readDefinition script create { header with rest := header.rest ++ more } =
      (readDefinition script create header).map fun (table, skipped, after) =>
        (table, skipped, after ++ more) := by
  rw [readDefinition, readDefinition]
  cases hbody : Group.close? 0 header.rest with
  | none =>
    -- what follows does not close the body either, so the anomaly is the same
    have hopen : Group.close? 0 (header.rest ++ more) = none :=
      Group.close?_append_of_none hbody (closesOnlyItsOwn_iff.mp hmore)
    simp only [hopen]
    rfl
  | some body =>
    have hbody' := Group.close?_append_of_some hbody more
    simp only [hbody']
    -- the semicolon that ends the statement stands behind the closed body
    have hend : EndsInSemicolon body.rest := by
      obtain ⟨hsplit, hclosed⟩ := Group.close?_extent hbody
      rw [hsplit] at hrest
      exact (hrest.of_suffix (by simp)).tail
        (Lexeme.isPunct_eq_false_of_ne hclosed.close_isPunct (by decide))
    cases hterm : Lexeme.splitAt? .semicolon body.rest with
    | none =>
      obtain ⟨l, hl, hsemi⟩ := hend.exists_mem
      rw [Lexeme.isPunct_eq_false_of_splitAt? hterm l hl] at hsemi
      exact absurd hsemi (by decide)
    | some found =>
      obtain ⟨trailer, terminator, after⟩ := found
      have hterm' := Lexeme.splitAt?_append_of_some hterm more
      simp only [hterm']
      cases hoptions : TableOptions.read? trailer <;> rfl

/-! ## The walk

A step of the walk passes a lexeme, reports a definition or takes one with its semicolon. In each
case what is left of the statements is whole again, so the induction goes on. -/

/-- **Statements are read in isolation.** Induction on the walk through `before`: each of its steps
leaves whole statements. -/
theorem scan_append {script : Array Char} {before after : List Lexeme}
    (hbefore : Statements before) (hafter : ClosesOnlyItsOwn after) :
    scan script (before ++ after) = scan script before ++ scan script after := by
  induction before using scan_induction script with
  | nil => rw [scan_nil]; rfl
  | pass l rest hh ih =>
    have hls : EndsInSemicolon (l :: rest) := hbefore.resolve_left (by simp)
    have hh' : Header.read? (l :: (rest ++ after)) = none := by
      rw [← List.cons_append, Header.read?_append_statement hls, hh]
      rfl
    have hrest : Statements rest := by
      rw [← List.singleton_append] at hbefore
      exact hbefore.of_suffix
    rw [List.cons_append, scan_of_none hh', scan_of_none hh]
    exact ih hrest
  | broken l rest header a hh hd ih =>
    have hls : EndsInSemicolon (l :: rest) := hbefore.resolve_left (by simp)
    have hrest := hls.readHeader? hh
    have hh' := Header.read?_append_of_some hls hh after
    have hd' : readDefinition script l { header with rest := header.rest ++ after } = .error a := by
      rw [readDefinition_append_statement hrest hafter, hd]
      rfl
    rw [List.cons_append, scan_of_error hh' hd', scan_of_error hh hd, List.cons_append]
    exact congrArg (.broken a :: ·) (ih (.inr hrest))
  | table l rest header body trailer terminator tail t skipped hh hd hbody hend ih =>
    have hls : EndsInSemicolon (l :: rest) := hbefore.resolve_left (by simp)
    have hrest := hls.readHeader? hh
    have hh' := Header.read?_append_of_some hls hh after
    have hd' : readDefinition script l { header with rest := header.rest ++ after } =
        .ok (t, skipped, tail ++ after) := by
      rw [readDefinition_append_statement hrest hafter, hd]
      rfl
    -- the walk goes on behind the semicolon of the table, at an end of the same statements
    have htail : Statements tail := by
      have hsuffix := (List.suffix_cons _ _).trans (terminator_suffix hbody hend)
      obtain ⟨used, hused⟩ := hsuffix
      rw [← hused] at hrest
      exact Statements.of_suffix (Or.inr hrest)
    rw [List.cons_append, scan_of_ok hh' hd', scan_of_ok hh hd, List.cons_append]
    exact congrArg (.table t skipped :: ·) (ih htail)

/-- Where no definition starts, nothing is found. -/
theorem scan_of_headerFree {script : Array Char} {ls : List Lexeme} (h : HeaderFree ls) :
    scan script ls = [] := by
  induction ls with
  | nil => exact scan_nil
  | cons l ls ih =>
    rw [scan_of_none (h (l :: ls) (List.suffix_refl _))]
    exact ih fun behind hbehind => h behind (hbehind.trans (List.suffix_cons l ls))

/-- The findings are sorted into tables and anomalies one by one. -/
theorem ScriptReading.ofFindings_append (first second : List Finding) :
    ofFindings (first ++ second) = (ofFindings first).followedBy (ofFindings second) := by
  rw [ofFindings, ofFindings, ofFindings, followedBy, List.filterMap_append, List.flatMap_append]

theorem readScript_of_lexemes {tokenizer : Tokenizer} {text : String} {ls : List Lexeme}
    (h : Lexeme.ofScript tokenizer text.toList.toArray = .ok ls) :
    readScript tokenizer text = .ofFindings (scan text.toList.toArray ls) := by
  rw [readScript]
  simp only [h]

/-- **No statement can reach another one.** The tables and the anomalies of `before ++ after` are
those of `before` followed by those of `after`, statements in between in which no definition starts
leave no trace, and the reading of a whole script falls apart in the same way. -/
theorem statements_isolated (script : Array Char) {before after : List Lexeme}
    (hbefore : Statements before) (hafter : ClosesOnlyItsOwn after) :
    scan script (before ++ after) = scan script before ++ scan script after ∧
      ScriptReading.ofFindings (scan script (before ++ after)) =
        (ScriptReading.ofFindings (scan script before)).followedBy
          (ScriptReading.ofFindings (scan script after)) ∧
      (∀ between, Statements between → ClosesOnlyItsOwn between → HeaderFree between →
        scan script (before ++ (between ++ after)) = scan script (before ++ after)) ∧
      ∀ (tokenizer : Tokenizer) (text : String), text.toList.toArray = script →
        Lexeme.ofScript tokenizer script = .ok (before ++ after) →
          readScript tokenizer text =
            (ScriptReading.ofFindings (scan script before)).followedBy
              (ScriptReading.ofFindings (scan script after)) := by
  have hscan : scan script (before ++ after) = scan script before ++ scan script after :=
    scan_append hbefore hafter
  have hreading : ScriptReading.ofFindings (scan script (before ++ after)) =
      (ScriptReading.ofFindings (scan script before)).followedBy
        (ScriptReading.ofFindings (scan script after)) := by
    rw [hscan, ScriptReading.ofFindings_append]
  -- what stands in between is walked through and leaves nothing
  refine ⟨hscan, hreading, ?_, ?_⟩
  · intro between hbetween hown hfree
    have hrest := hown.append hafter
    rw [scan_append hbefore hrest, scan_append hbetween hafter, scan_of_headerFree hfree, hscan]
    rfl
  · rintro tokenizer text rfl hlex
    rw [readScript_of_lexemes hlex, hreading]

/-- A table whose body is never closed, then a sound one. -/
def unclosedThenSound : String :=
  "CREATE TABLE a (x INT; CREATE TABLE b (y INT);"

/-- The lexemes of the first statement. -/
def unclosedStatement : List Lexeme :=
  [⟨.word "CREATE", 0, 6, 1⟩, ⟨.word "TABLE", 7, 12, 1⟩, ⟨.word "a", 13, 14, 1⟩,
    ⟨.punct .openParen, 15, 16, 1⟩, ⟨.word "x", 16, 17, 1⟩, ⟨.word "INT", 18, 21, 1⟩,
    ⟨.punct .semicolon, 21, 22, 1⟩]

/-- The lexemes of the second statement. -/
def soundStatement : List Lexeme :=
  [⟨.word "CREATE", 23, 29, 1⟩, ⟨.word "TABLE", 30, 35, 1⟩, ⟨.word "b", 36, 37, 1⟩,
    ⟨.punct .openParen, 38, 39, 1⟩, ⟨.word "y", 39, 40, 1⟩, ⟨.word "INT", 41, 44, 1⟩,
    ⟨.punct .closeParen, 44, 45, 1⟩, ⟨.punct .semicolon, 45, 46, 1⟩]

/-- The broken statement gives its anomaly, and the sound one its table. -/
theorem statements_isolated_unclosed :
    let script := unclosedThenSound.toList.toArray
    Statements unclosedStatement ∧ ClosesOnlyItsOwn soundStatement ∧
      Lexeme.ofScript Dialect.mysql script = .ok (unclosedStatement ++ soundStatement) ∧
      readScript Dialect.mysql unclosedThenSound =
        (ScriptReading.ofFindings (scan script unclosedStatement)).followedBy
          (ScriptReading.ofFindings (scan script soundStatement)) ∧
      scan script unclosedStatement = [.broken ⟨.unclosedBody, 1, "CREATE TABLE a ("⟩] ∧
      (ScriptReading.ofFindings (scan script soundStatement)).tables =
        [{ name := "b"
           columns := [{ name := "y", type := "INT" }]
           startLine := 1
           endLine := 1 }] := by
  intro script
  have hbefore : Statements unclosedStatement := by decide
  have hafter : ClosesOnlyItsOwn soundStatement := by decide
  have hlex : Lexeme.ofScript Dialect.mysql script = .ok (unclosedStatement ++ soundStatement) := by
    decide +kernel
  have hread := (statements_isolated script hbefore hafter).2.2.2 _ unclosedThenSound rfl hlex
  exact ⟨hbefore, hafter, hlex, hread, by decide +kernel, by decide +kernel⟩

end TableDocs.Sql
