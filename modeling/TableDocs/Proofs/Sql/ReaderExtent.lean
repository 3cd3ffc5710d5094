import Mathlib.Data.List.Chain
import TableDocs.Sql.Header

/-!
# TableDocs — how far the readers of a header reach

Every reader of a header takes a stretch of lexemes off the front and gives what follows it. This
module says what that stretch can be:

* **`dropWords?_eq_some_iff`** — given keywords are taken off exactly where they stand.
* **`Name.Spelling`, `Name.QualifiedSpelling`** — the stretches that spell a name, as grammars of
  their own; `read?_spelling` and `readQualified?_spelling` tie the readers to them.
* **`Header.read?_extent`** — a header is the word `CREATE`, further lexemes and the opening
  parenthesis. No lexeme of it is a semicolon, and the word `CREATE` inside it stands before a mark.

The last fact is what keeps headers apart: `read?_eq_none_of_inside` says that no header starts
strictly inside another one.
-/

namespace TableDocs.Sql

namespace Lexeme

/-! ## Marks are no keywords

A lexeme is a mark or it has a keyword. What is known of a mark therefore rules out every word, and
the other way round. -/

theorem kind_of_isPunct {p : Punct} {l : Lexeme} (h : l.isPunct p = true) : l.kind = .punct p := by
  simpa [isPunct] using h

theorem keyword_of_isPunct {p : Punct} {l : Lexeme} (h : l.isPunct p = true) : l.keyword = "" := by
  rw [keyword, kind_of_isPunct h]

theorem isPunct_eq_false_of_ne {p q : Punct} {l : Lexeme} (h : l.isPunct p = true) (hpq : p ≠ q) :
    l.isPunct q = false := by
  rw [isPunct, kind_of_isPunct h]
  simpa using hpq

theorem isPunct_of_keyword_ne {l : Lexeme} (h : l.keyword ≠ "") (p : Punct) :
    l.isPunct p = false := by
  cases hp : l.isPunct p with
  | false => rfl
  | true => exact absurd (keyword_of_isPunct hp) h

/-! ## Keywords at the front

Optional keywords are read by the same function: the ones that were skipped stand in front, and
nothing else does. -/

/-- Given keywords are taken off exactly where they stand. -/
theorem dropWords?_eq_some_iff {ws : List String} {ls rest : List Lexeme} :
    dropWords? ws ls = some rest ↔ ∃ used, ls = used ++ rest ∧ used.map keyword = ws := by
  induction ws generalizing ls with
  | nil => simp [dropWords?]
  | cons w ws ih =>
    constructor
    · intro h
      cases ls with
      | nil => simp [dropWords?] at h
      | cons l ls =>
        rw [dropWords?] at h
        split at h
        · next hw =>
          obtain ⟨used, rfl, hused⟩ := ih.mp h
          exact ⟨l :: used, rfl, by rw [List.map_cons, hused, hw]⟩
        · exact absurd h (by simp)
    · rintro ⟨used, rfl, hused⟩
      obtain ⟨l, tail, rfl, hl, htail⟩ := List.map_eq_cons_iff.mp hused
      rw [List.cons_append, dropWords?, if_pos hl]
      exact ih.mpr ⟨tail, rfl, htail⟩

/-- What is skipped is made of the given keywords, or is empty. -/
theorem skipWords_extent (ws : List String) (ls : List Lexeme) :
    ∃ used, ls = used ++ skipWords ws ls ∧ ∀ l ∈ used, l.keyword ∈ ws := by
  rw [skipWords]
  cases h : dropWords? ws ls with
  | none => exact ⟨[], rfl, by simp⟩
  | some rest =>
    obtain ⟨used, rfl, hused⟩ := dropWords?_eq_some_iff.mp h
    refine ⟨used, rfl, ?_⟩
    intro l hl
    rw [← hused]
    exact List.mem_map_of_mem hl

/-- At most one keyword is skipped, and it is one of those that may stand there. -/
theorem skipOneOf_extent (ws : List String) (ls : List Lexeme) :
    ∃ used, ls = used ++ skipOneOf ws ls ∧ ∀ l ∈ used, l.keyword ∈ ws := by
  cases ls with
  | nil => exact ⟨[], rfl, by simp⟩
  | cons l ls =>
    rw [skipOneOf]
    split
    · next h => exact ⟨[l], rfl, by simpa using h⟩
    · exact ⟨[], rfl, by simp⟩

/-! ## Splitting at a mark

The split is at the first mark: no lexeme in front of it is one. Both directions are needed, since
the grammar builds what the reader splits. -/

/-- The parts of a split make up the whole, and the mark is the first of its kind. -/
theorem splitAt?_extent {p : Punct} {ls before rest : List Lexeme} {mark : Lexeme}
    (h : splitAt? p ls = some (before, mark, rest)) :
    ls = before ++ mark :: rest ∧ mark.isPunct p = true ∧ ∀ l ∈ before, l.isPunct p = false := by
  induction ls generalizing before with
  | nil => simp [splitAt?] at h
  | cons l ls ih =>
    rw [splitAt?] at h
    split at h
    · next hl =>
      cases h
      exact ⟨rfl, hl, by simp⟩
    · next hl =>
      obtain ⟨⟨b, m, r⟩, hs, he⟩ := Option.map_eq_some_iff.mp h
      cases he
      obtain ⟨rfl, hm, hb⟩ := ih hs
      refine ⟨rfl, hm, ?_⟩
      intro x hx
      -- the lexemes passed on the way are other ones
      rcases List.mem_cons.mp hx with rfl | hx
      · simpa using hl
      · exact hb x hx

theorem mark_suffix_of_splitAt? {p : Punct} {ls before rest : List Lexeme} {mark : Lexeme}
    (h : splitAt? p ls = some (before, mark, rest)) : mark :: rest <:+ ls :=
  ⟨before, (splitAt?_extent h).1.symm⟩

/-- The converse: a stretch without the mark, then the mark. -/
theorem splitAt?_append {p : Punct} {before : List Lexeme} {mark : Lexeme} (rest : List Lexeme)
    (hm : mark.isPunct p = true) (hb : ∀ l ∈ before, l.isPunct p = false) :
    splitAt? p (before ++ mark :: rest) = some (before, mark, rest) := by
  induction before with
  | nil => simp [splitAt?, hm]
  | cons l before ih =>
    have hl : l.isPunct p = false := hb l (by simp)
    have htail := ih fun x hx => hb x (List.mem_cons_of_mem l hx)
    rw [List.cons_append, splitAt?, if_neg (by simp [hl]), htail]
    rfl

/-- The first mark stays the first one, whatever is put behind the list. -/
theorem splitAt?_append_of_some {p : Punct} {ls before rest : List Lexeme} {mark : Lexeme}
    (h : splitAt? p ls = some (before, mark, rest)) (more : List Lexeme) :
    splitAt? p (ls ++ more) = some (before, mark, rest ++ more) := by
  obtain ⟨rfl, hm, hb⟩ := splitAt?_extent h
  rw [List.append_assoc, List.cons_append]
  exact splitAt?_append (rest ++ more) hm hb

/-- Without a split there is no mark. -/
theorem isPunct_eq_false_of_splitAt? {p : Punct} {ls : List Lexeme} (h : splitAt? p ls = none) :
    ∀ l ∈ ls, l.isPunct p = false := by
  induction ls with
  | nil => simp
  | cons l ls ih =>
    rw [splitAt?] at h
    split at h
    · exact absurd h (by simp)
    · next hl =>
      have htail := ih (Option.map_eq_none_iff.mp h)
      intro x hx
      rcases List.mem_cons.mp hx with rfl | hx
      · simpa using hl
      · exact htail x hx

end Lexeme

namespace Name

/-! ## Names

A part of a name is one lexeme, or a lexeme in square brackets; parts are joined by dots. -/

/-- The stretches that spell one part of a name. -/
inductive Spelling : List Lexeme → String → Prop
  | single {l : Lexeme} {name : String} (hname : ofLexeme? l = some name) : Spelling [l] name
  | bracketed {opening inner closing : Lexeme} {name : String}
      (hopening : opening.isPunct .openBracket = true) (hname : ofBracketed? inner = some name)
      (hclosing : closing.isPunct .closeBracket = true) : Spelling [opening, inner, closing] name

/-- The stretches that spell a qualified name. The last part is the name. -/
inductive QualifiedSpelling : List Lexeme → String → Prop
  | last {part : List Lexeme} {name : String} (hpart : Spelling part name) :
      QualifiedSpelling part name
  | qualified {part more : List Lexeme} {dot : Lexeme} {qualifier name : String}
      (hpart : Spelling part qualifier) (hdot : dot.isPunct .dot = true)
      (hmore : QualifiedSpelling more name) : QualifiedSpelling (part ++ dot :: more) name

theorem isPunct_of_ofLexeme? {l : Lexeme} {name : String} (h : ofLexeme? l = some name)
    (p : Punct) : l.isPunct p = false := by
  cases hk : l.kind with
  | punct q => rw [ofLexeme?, hk] at h; exact absurd h (by simp)
  | word text => simp [Lexeme.isPunct, hk]
  | name text => simp [Lexeme.isPunct, hk]
  | literal text quote => simp [Lexeme.isPunct, hk]

theorem isPunct_of_ofBracketed? {l : Lexeme} {name : String} (h : ofBracketed? l = some name)
    (p : Punct) : l.isPunct p = false := by
  cases hk : l.kind with
  | punct q => rw [ofBracketed?, hk] at h; exact absurd h (by simp)
  | word text => simp [Lexeme.isPunct, hk]
  | name text => simp [Lexeme.isPunct, hk]
  | literal text quote => simp [Lexeme.isPunct, hk]

/-- What is read as a name is spelled as one. -/
theorem read?_spelling {ls rest : List Lexeme} {name : String} (h : read? ls = some (name, rest)) :
    ∃ part, ls = part ++ rest ∧ Spelling part name := by
  rw [read?.eq_def] at h
  split at h
  · exact absurd h (by simp)
  · next l tail =>
    split at h
    · next hl =>
      split at h
      · next inner closing after =>
        split at h
        · next hclosing =>
          obtain ⟨n, hn, he⟩ := Option.map_eq_some_iff.mp h
          cases he
          -- a name between brackets takes three lexemes
          exact ⟨[l, inner, closing], rfl, .bracketed hl hn hclosing⟩
        · exact absurd h (by simp)
      · exact absurd h (by simp)
    · obtain ⟨n, hn, he⟩ := Option.map_eq_some_iff.mp h
      cases he
      exact ⟨[l], rfl, .single hn⟩

/-- And what is spelled as a name is read, whatever stands behind it. -/
theorem read?_of_spelling {part : List Lexeme} {name : String} (h : Spelling part name)
    (rest : List Lexeme) : read? (part ++ rest) = some (name, rest) := by
  cases h with
  | @single l _ hname =>
    have hl : l.isPunct .openBracket = false := isPunct_of_ofLexeme? hname _
    simp [read?, hl, hname]
  | bracketed hopening hname hclosing => simp [read?, hopening, hclosing, hname]

/-! ### The steps of reading a qualified name -/

theorem readQualified?_of_none {ls : List Lexeme} (h : read? ls = none) :
    readQualified? ls = none := by
  rw [readQualified?]
  split
  · rfl
  · next hr => rw [h] at hr; exact absurd hr (by simp)
  · next hr => rw [h] at hr; exact absurd hr (by simp)

theorem readQualified?_of_dot {ls more : List Lexeme} {qualifier : String} {dot : Lexeme}
    (h : read? ls = some (qualifier, dot :: more)) (hdot : dot.isPunct .dot = true) :
    readQualified? ls = readQualified? more := by
  rw [readQualified?.eq_1 ls]
  split
  · next hr => rw [h] at hr; exact absurd hr (by simp)
  · next hr => rw [h] at hr; exact absurd hr (by simp)
  · next hr =>
    rw [h] at hr
    cases hr
    rw [if_pos hdot]

theorem readQualified?_of_no_dot {ls rest : List Lexeme} {name : String}
    (h : read? ls = some (name, rest)) (hrest : Lexeme.startsWith .dot rest = false) :
    readQualified? ls = some (name, rest) := by
  rw [readQualified?]
  split
  · next hr => rw [h] at hr; exact absurd hr (by simp)
  · next hr => rw [h] at hr; cases hr; rfl
  · next hr =>
    rw [h] at hr
    cases hr
    rw [Lexeme.startsWith] at hrest
    rw [if_neg (by simp [hrest])]

/-- What is read is the longest qualified name: no dot follows it. -/
theorem readQualified?_spelling {ls rest : List Lexeme} {name : String}
    (h : readQualified? ls = some (name, rest)) :
    ∃ words, ls = words ++ rest ∧ QualifiedSpelling words name ∧
      Lexeme.startsWith .dot rest = false := by
  -- The cases are those of the reader: no part, the end of the lexemes, a dot, or something else.
  fun_induction readQualified? ls with
  | case1 => exact absurd h (by simp)
  | case2 ls part hr =>
    cases h
    obtain ⟨words, rfl, hs⟩ := read?_spelling hr
    exact ⟨words, rfl, .last hs, rfl⟩
  | case3 ls part dot more hr hdot ih =>
    obtain ⟨front, rfl, hs⟩ := read?_spelling hr
    obtain ⟨words, rfl, hq, hrest⟩ := ih h
    exact ⟨front ++ dot :: words, by simp, .qualified hs hdot hq, hrest⟩
  | case4 ls part l more hr hdot =>
    cases h
    obtain ⟨words, rfl, hs⟩ := read?_spelling hr
    exact ⟨words, rfl, .last hs, by simpa [Lexeme.startsWith] using hdot⟩

/-- A qualified name is read as a whole where no dot follows it. -/
theorem readQualified?_of_spelling {words : List Lexeme} {name : String}
    (h : QualifiedSpelling words name) {rest : List Lexeme}
    (hrest : Lexeme.startsWith .dot rest = false) :
    readQualified? (words ++ rest) = some (name, rest) := by
  induction h with
  | last hpart => exact readQualified?_of_no_dot (read?_of_spelling hpart rest) hrest
  | @qualified part more dot _ _ hpart hdot _ ih =>
    rw [List.append_assoc, List.cons_append]
    rw [readQualified?_of_dot (read?_of_spelling hpart _) hdot, ih]

/-! ### What a name cannot hold

A semicolon is in no name. The word `CREATE` can be a name or a part of one, but then a dot, a
closing bracket or whatever mark ends the name stands right behind it. -/

theorem Spelling.isPunct_semicolon {part : List Lexeme} {name : String} (h : Spelling part name) :
    ∀ l ∈ part, l.isPunct .semicolon = false := by
  cases h with
  | single hname => simpa using isPunct_of_ofLexeme? hname .semicolon
  | bracketed hopening hname hclosing =>
    have ho := Lexeme.isPunct_eq_false_of_ne hopening (q := .semicolon) (by decide)
    have hc := Lexeme.isPunct_eq_false_of_ne hclosing (q := .semicolon) (by decide)
    simp [ho, hc, isPunct_of_ofBracketed? hname]

theorem QualifiedSpelling.isPunct_semicolon {words : List Lexeme} {name : String}
    (h : QualifiedSpelling words name) : ∀ l ∈ words, l.isPunct .semicolon = false := by
  induction h with
  | last hpart => exact hpart.isPunct_semicolon
  | qualified hpart hdot hmore ih =>
    have hd := Lexeme.isPunct_eq_false_of_ne hdot (q := .semicolon) (by decide)
    intro l hl
    rcases List.mem_append.mp hl with hl | hl
    · exact hpart.isPunct_semicolon l hl
    · rcases List.mem_cons.mp hl with rfl | hl
      · exact hd
      · exact ih l hl

/-- Of two neighbours, the first is not `CREATE` or the second has no keyword. -/
def CreateBeforeMark (l next : Lexeme) : Prop :=
  l.keyword = "CREATE" → next.keyword = ""

theorem createBeforeMark_of_ne {l : Lexeme} (h : l.keyword ≠ "CREATE") (next : Lexeme) :
    CreateBeforeMark l next :=
  fun hl => absurd hl h

theorem createBeforeMark_of_mark {l : Lexeme} (h : l.keyword = "") (next : Lexeme) :
    CreateBeforeMark l next :=
  createBeforeMark_of_ne (by rw [h]; decide) next

/-- Inside a part of a name the word CREATE is the part, and the next lexeme is the mark that ends
it. -/
theorem Spelling.isChain_append {part : List Lexeme} {name : String} (h : Spelling part name)
    {mark : Lexeme} (hmark : mark.keyword = "") :
    List.IsChain CreateBeforeMark (part ++ [mark]) := by
  cases h with
  | single hname => exact List.isChain_pair.mpr fun _ => hmark
  | bracketed hopening hname hclosing =>
    have ho := Lexeme.keyword_of_isPunct hopening
    have hc := Lexeme.keyword_of_isPunct hclosing
    exact .cons_cons (createBeforeMark_of_mark ho _)
      (.cons_cons (fun _ => hc) (.cons_cons (createBeforeMark_of_mark hc mark) (.singleton mark)))

/-- The same holds for the parts joined by dots, since a dot is a mark too. -/
theorem QualifiedSpelling.isChain_append {words : List Lexeme} {name : String}
    (h : QualifiedSpelling words name) {mark : Lexeme} (hmark : mark.keyword = "") :
    List.IsChain CreateBeforeMark (words ++ [mark]) := by
  induction h with
  | last hpart => exact hpart.isChain_append hmark
  | qualified hpart hdot hmore ih =>
    have hd := Lexeme.keyword_of_isPunct hdot
    rw [List.append_assoc, List.cons_append, List.isChain_split]
    exact ⟨hpart.isChain_append hd, ih.cons fun next _ => createBeforeMark_of_mark hd next⟩

end Name

namespace Header

open Name (CreateBeforeMark createBeforeMark_of_ne)

/-! ## Headers

`Extent create words h` is what the lexemes of a header `h` are like: the word `CREATE`, then
`words`, then the opening parenthesis `h.opening`. -/

/-- The lexemes of a header from its first word to its parenthesis. -/
structure Extent (create : Lexeme) (words : List Lexeme) (h : Header) : Prop where
  create_keyword : create.keyword = "CREATE"
  opening_isPunct : h.opening.isPunct .openParen = true
  semicolon_free : ∀ l ∈ words, l.isPunct .semicolon = false
  create_before_mark : List.IsChain CreateBeforeMark (words ++ [h.opening])

/-- The words between `CREATE` and `TABLE` are none of these two and no mark. -/
theorem skipQualifiers_extent (ls : List Lexeme) :
    ∃ used, ls = used ++ skipQualifiers ls ∧
      ∀ l ∈ used, l.keyword ∈ ["OR", "REPLACE", "GLOBAL", "LOCAL", "TEMP", "TEMPORARY"] := by
  obtain ⟨replace, hr, hreplace⟩ := Lexeme.skipWords_extent ["OR", "REPLACE"] ls
  obtain ⟨scope, hs, hscope⟩ :=
    Lexeme.skipOneOf_extent ["GLOBAL", "LOCAL"] (Lexeme.skipWords ["OR", "REPLACE"] ls)
  obtain ⟨life, hl, hlife⟩ := Lexeme.skipOneOf_extent ["TEMP", "TEMPORARY"]
    (Lexeme.skipOneOf ["GLOBAL", "LOCAL"] (Lexeme.skipWords ["OR", "REPLACE"] ls))
  -- three optional groups stand one behind the other, each of its own keywords
  refine ⟨replace ++ (scope ++ life), ?_, ?_⟩
  · rw [List.append_assoc, List.append_assoc, skipQualifiers, ← hl, ← hs, ← hr]
  · intro l hmem
    rcases List.mem_append.mp hmem with h | h
    · exact List.mem_append_left _ (hreplace l h)
    · rcases List.mem_append.mp h with h | h
      · exact List.mem_append_right ["OR", "REPLACE"] (List.mem_append_left _ (hscope l h))
      · exact List.mem_append_right ["OR", "REPLACE", "GLOBAL", "LOCAL"] (hlife l h)

/-- Keywords other than CREATE in front of a stretch keep the property of neighbours. -/
theorem isChain_append_of_keywords {ws : List String} (hws : "CREATE" ∉ ws) {used : List Lexeme}
    (hused : ∀ l ∈ used, l.keyword ∈ ws) {tail : List Lexeme}
    (htail : List.IsChain CreateBeforeMark tail) :
    List.IsChain CreateBeforeMark (used ++ tail) := by
  induction used with
  | nil => exact htail
  | cons l used ih =>
    have hl : l.keyword ≠ "CREATE" := fun h => hws (h ▸ hused l List.mem_cons_self)
    have hrest := ih fun x hx => hused x (List.mem_cons_of_mem l hx)
    exact hrest.cons fun next _ => createBeforeMark_of_ne hl next

theorem isPunct_semicolon_of_keywords {ws : List String} (hws : "" ∉ ws) {used : List Lexeme}
    (hused : ∀ l ∈ used, l.keyword ∈ ws) : ∀ l ∈ used, l.isPunct .semicolon = false := by
  intro l hl
  exact Lexeme.isPunct_of_keyword_ne (fun h => hws (h ▸ hused l hl)) .semicolon

/-- Behind the keywords of a header stand a qualified name and the opening parenthesis. -/
theorem readName?_extent {ls : List Lexeme} {h : Header} (e : readName? ls = some h) :
    ∃ words, ls = words ++ h.opening :: h.rest ∧ Name.QualifiedSpelling words h.name ∧
      h.opening.isPunct .openParen = true := by
  rw [readName?] at e
  split at e
  · next name opening rest hq =>
    split at e
    · next ho =>
      cases e
      obtain ⟨words, rfl, hw, -⟩ := Name.readQualified?_spelling hq
      exact ⟨words, rfl, hw, ho⟩
    · exact absurd e (by simp)
  · exact absurd e (by simp)

/-- **The extent of a header.** -/
theorem read?_extent {ls : List Lexeme} {h : Header} (e : read? ls = some h) :
    ∃ create words, ls = create :: (words ++ h.opening :: h.rest) ∧ Extent create words h := by
  cases ls with
  | nil => simp [read?] at e
  | cons create ls =>
    rw [read?] at e
    split at e
    · next hc =>
      obtain ⟨afterTable, ht, hn⟩ := Option.bind_eq_some_iff.mp e
      obtain ⟨qualifiers, hls, hq⟩ := skipQualifiers_extent ls
      obtain ⟨table, hskip, htable⟩ := Lexeme.dropWords?_eq_some_iff.mp ht
      obtain ⟨condition, hafter, hcond⟩ :=
        Lexeme.skipWords_extent ["IF", "NOT", "EXISTS"] afterTable
      obtain ⟨parts, hparts, hname, hopening⟩ := readName?_extent hn
      have hmark := Lexeme.keyword_of_isPunct hopening
      have htable' : ∀ l ∈ table, l.keyword ∈ ["TABLE"] := by
        intro l hl
        rw [← htable]
        exact List.mem_map_of_mem hl
      -- the four stretches of words between CREATE and the parenthesis, each with its own reason
      refine ⟨create, qualifiers ++ (table ++ (condition ++ parts)), ?_, hc, hopening, ?_, ?_⟩
      · rw [List.append_assoc, List.append_assoc, List.append_assoc, ← hparts, ← hafter, ← hskip,
          ← hls]
      · intro l hl
        simp only [List.mem_append] at hl
        rcases hl with hl | hl | hl | hl
        · exact isPunct_semicolon_of_keywords (by decide) hq l hl
        · exact isPunct_semicolon_of_keywords (by decide) htable' l hl
        · exact isPunct_semicolon_of_keywords (by decide) hcond l hl
        · exact hname.isPunct_semicolon l hl
      · rw [List.append_assoc, List.append_assoc, List.append_assoc]
        exact isChain_append_of_keywords (by decide) hq
          (isChain_append_of_keywords (by decide) htable'
            (isChain_append_of_keywords (by decide) hcond (hname.isChain_append hmark)))
    · exact absurd e (by simp)

/-- A header ends at its parenthesis, which stands behind its first lexeme. -/
theorem opening_suffix_of_read? {l : Lexeme} {rest : List Lexeme} {h : Header}
    (e : read? (l :: rest) = some h) : h.opening :: h.rest <:+ rest := by
  obtain ⟨create, words, hls, -⟩ := read?_extent e
  exact ⟨words, (List.cons_eq_cons.mp hls).2.symm⟩

/-! ## No header inside a header

A header needs a keyword right behind its `CREATE`. Inside another header `CREATE` can only be part
of the name, and there a mark stands behind it. -/

theorem skipQualifiers_of_mark {l : Lexeme} (h : l.keyword = "") (ls : List Lexeme) :
    skipQualifiers (l :: ls) = l :: ls := by
  simp [skipQualifiers, Lexeme.skipWords, Lexeme.skipOneOf, Lexeme.dropWords?, h]

/-- CREATE with a mark behind it starts no header, for a keyword is missing. -/
theorem read?_eq_none_of_mark_second {create next : Lexeme} (h : next.keyword = "")
    (ls : List Lexeme) : read? (create :: next :: ls) = none := by
  rw [read?, skipQualifiers_of_mark h]
  simp [Lexeme.dropWords?, h]

theorem read?_eq_none_of_keyword {l : Lexeme} (h : l.keyword ≠ "CREATE") (ls : List Lexeme) :
    read? (l :: ls) = none := by
  rw [read?, if_neg h]

/-- **Headers do not overlap.** None starts at a lexeme of another header behind its `CREATE`. -/
theorem Extent.read?_eq_none_of_inside {create : Lexeme} {words : List Lexeme} {h : Header}
    (hext : Extent create words h) {before behind : List Lexeme} {l : Lexeme}
    (hsplit : words ++ [h.opening] = before ++ l :: behind) (rest : List Lexeme) :
    read? (l :: behind ++ rest) = none := by
  cases behind with
  | nil =>
    -- `l` is the opening parenthesis itself
    obtain ⟨-, hl⟩ := List.append_inj' hsplit rfl
    cases hl
    have hmark := Lexeme.keyword_of_isPunct hext.opening_isPunct
    exact read?_eq_none_of_keyword (by rw [hmark]; decide) rest
  | cons next behind =>
    have hchain := hext.create_before_mark
    rw [hsplit, List.isChain_split] at hchain
    have hpair : CreateBeforeMark l next := (List.isChain_cons_cons.mp hchain.2).1
    by_cases hl : l.keyword = "CREATE"
    · exact read?_eq_none_of_mark_second (hpair hl) (behind ++ rest)
    · exact read?_eq_none_of_keyword hl (next :: behind ++ rest)

/-- The same by indices: `p` is behind the `CREATE` of the header at `start` and not behind its
opening parenthesis. -/
theorem read?_drop_eq_none_of_inside {ls : List Lexeme} {start p : Nat} {h : Header}
    (e : read? (ls.drop start) = some h) (hstart : start < p)
    (hopening : p + h.rest.length < ls.length) : read? (ls.drop p) = none := by
  obtain ⟨create, words, hls, hext⟩ := read?_extent e
  have hlen := congrArg List.length hls
  rw [List.length_drop, List.length_cons, List.length_append, List.length_cons] at hlen
  -- `p` is the place `k` of the lexemes behind `create`
  obtain ⟨k, rfl⟩ : ∃ k, p = start + (k + 1) := ⟨p - start - 1, by omega⟩
  have hk : k < (words ++ [h.opening]).length := by
    rw [List.length_append, List.length_singleton]
    omega
  have hdrop : ls.drop (start + (k + 1)) = (words ++ [h.opening]).drop k ++ h.rest := by
    rw [← List.drop_drop, hls, List.drop_succ_cons, ← List.drop_append_of_le_length hk.le,
      List.append_assoc, List.singleton_append]
  obtain ⟨l, behind, hsuffix⟩ := List.exists_cons_of_length_pos
    (by rw [List.length_drop]; omega : 0 < ((words ++ [h.opening]).drop k).length)
  have hsplit : words ++ [h.opening] = (words ++ [h.opening]).take k ++ l :: behind := by
    rw [← hsuffix, List.take_append_drop]
  rw [hdrop, hsuffix]
  exact hext.read?_eq_none_of_inside hsplit h.rest

/-- **A header needs its parenthesis before the next semicolon.** -/
theorem read?_eq_none_before_semicolon {front rest : List Lexeme} {semicolon : Lexeme}
    (hsemi : semicolon.isPunct .semicolon = true)
    (hfront : ∀ l ∈ front, l.isPunct .openParen = false) :
    read? (front ++ semicolon :: rest) = none := by
  cases e : read? (front ++ semicolon :: rest) with
  | none => rfl
  | some h =>
    exfalso
    obtain ⟨create, words, hls, hext⟩ := read?_extent e
    have hcreate : create.isPunct .semicolon = false :=
      Lexeme.isPunct_of_keyword_ne (by rw [hext.create_keyword]; decide) .semicolon
    have hwords : ∀ l ∈ create :: words, l.isPunct .semicolon = false := by
      intro l hl
      rcases List.mem_cons.mp hl with rfl | hl
      · exact hcreate
      · exact hext.semicolon_free l hl
    have hne : semicolon ≠ h.opening := by
      rintro rfl
      have := Lexeme.isPunct_eq_false_of_ne hsemi (q := .openParen) (by decide)
      rw [hext.opening_isPunct] at this
      exact absurd this (by decide)
    rw [← List.cons_append] at hls
    rcases List.append_eq_append_iff.mp hls with ⟨a, hhead, htail⟩ | ⟨a, hhead, htail⟩
    · -- the semicolon stands among the words of the header
      cases a with
      | nil => exact hne (List.cons_eq_cons.mp htail).1
      | cons x a =>
        obtain ⟨rfl, -⟩ := List.cons_eq_cons.mp htail
        have := hwords semicolon (by rw [hhead]; simp)
        rw [hsemi] at this
        exact absurd this (by decide)
    · -- the parenthesis stands before the semicolon
      cases a with
      | nil => exact hne (List.cons_eq_cons.mp htail).1.symm
      | cons x a =>
        obtain ⟨rfl, -⟩ := List.cons_eq_cons.mp htail
        have := hfront h.opening (by rw [hhead]; simp)
        rw [hext.opening_isPunct] at this
        exact absurd this (by decide)

end Header

end TableDocs.Sql
