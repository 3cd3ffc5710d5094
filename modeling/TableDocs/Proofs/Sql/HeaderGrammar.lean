import TableDocs.Proofs.Sql.Grammar
import TableDocs.Proofs.Sql.ScanAccount

/-!
# TableDocs — the grammar of headers

A header is `CREATE [OR REPLACE] [GLOBAL | LOCAL] [TEMP | TEMPORARY] TABLE [IF NOT EXISTS]`, a name
whose parts are joined by dots, and an opening parenthesis. The optional keywords can be names too,
so a reader that takes them wherever they stand might miss a header. It does not:

* **`Name.Part`**, **`Name.Qualified`** — the ways to write a name, told without the reader of
  names.
* **`Header.read?_iff`** — a header is read exactly where the grammar has one. Behind each optional
  part something stands that the part cannot start with; behind `IF NOT EXISTS` it is a name, which
  has a mark among its first two lexemes.
* **`header_grammatical`** — the same by indices, and there is one way at most to read a header at a
  place.
-/

namespace TableDocs.Sql

/-! ## Names

A part of a name is one lexeme or three in square brackets. Which names may stand in the brackets is
left open in the grammar, so that the one of the reader can be told from others. -/

/-- Is the text one character of the first kind and then any number of the second? -/
def Text.IsRun (first further : Char → Bool) (text : String) : Prop :=
  ∃ c cs, text.toList = c :: cs ∧ first c = true ∧ ∀ d ∈ cs, further d = true

/-- A run is tested from its first character on. -/
theorem Text.isRun_iff {first further : Char → Bool} {text : String} :
    (match text.toList with
      | [] => false
      | c :: cs => first c && cs.all further) = true ↔ IsRun first further text := by
  rw [IsRun]
  cases text.toList with
  | nil => simp
  | cons c cs =>
    simp only [Bool.and_eq_true, List.all_eq_true, List.cons.injEq]
    constructor
    · rintro ⟨hfirst, hfurther⟩
      exact ⟨c, cs, ⟨rfl, rfl⟩, hfirst, hfurther⟩
    · rintro ⟨_, _, ⟨rfl, rfl⟩, hfirst, hfurther⟩
      exact ⟨hfirst, hfurther⟩

namespace Name

/-- Is it a name without quotes: a letter of ASCII or underscore, then word characters and
dollars? -/
def IsBareName (name : String) : Prop :=
  Text.IsRun Text.isPlainNameStart (fun c => Text.isWordChar c || c == '$') name

/-- The ways to write one part of a name. `inBrackets` says which names may stand in square
brackets. -/
inductive Part (inBrackets : String → Prop) : List Lexeme → String → Prop
  | quoted {l : Lexeme} {name : String} (hkind : l.kind = .name name) (hname : name ≠ "") :
      Part inBrackets [l] name
  | doubleQuoted {l : Lexeme} {name : String} (hkind : l.kind = .literal name '"')
      (hname : name ≠ "") : Part inBrackets [l] name
  | bare {l : Lexeme} {name : String} (hkind : l.kind = .word name) (hname : IsBareName name) :
      Part inBrackets [l] name
  | bracketed {opening inner closing : Lexeme} {name : String}
      (hopening : opening.isPunct .openBracket = true)
      (hkind : inner.kind = .word name ∨ inner.kind = .name name) (hname : inBrackets name)
      (hclosing : closing.isPunct .closeBracket = true) :
      Part inBrackets [opening, inner, closing] name

/-- No part of a name is empty where brackets hold no empty name. -/
theorem Part.ne_empty {part : List Lexeme} {name : String} (h : Part (· ≠ "") part name) :
    name ≠ "" := by
  cases h with
  | quoted _ hname => exact hname
  | doubleQuoted _ hname => exact hname
  | bare _ hname =>
    rintro rfl
    obtain ⟨c, cs, hnil, -⟩ := hname
    exact absurd hnil (List.cons_ne_nil c cs).symm
  | bracketed _ _ hname _ => exact hname

/-- The ways to write a name with its qualifiers. The last part is the name. -/
inductive Qualified (inBrackets : String → Prop) : List Lexeme → String → Prop
  | last {part : List Lexeme} {name : String} (hpart : Part inBrackets part name) :
      Qualified inBrackets part name
  | qualified {part more : List Lexeme} {dot : Lexeme} {qualifier name : String}
      (hpart : Part inBrackets part qualifier) (hdot : dot.isPunct .dot = true)
      (hmore : Qualified inBrackets more name) : Qualified inBrackets (part ++ dot :: more) name

/-- The test for names without quotes. -/
theorem isBare_iff {name : String} : isBare name = true ↔ IsBareName name :=
  Text.isRun_iff

/-- The lexemes that are a name by themselves. -/
theorem ofLexeme?_eq_some_iff {l : Lexeme} {name : String} :
    ofLexeme? l = some name ↔
      (l.kind = .name name ∧ name ≠ "") ∨ (l.kind = .literal name '"' ∧ name ≠ "") ∨
        (l.kind = .word name ∧ IsBareName name) := by
  rw [ofLexeme?]
  cases l.kind with
  | name text =>
    simp only [LexemeKind.name.injEq, String.isEmpty_iff]
    grind
  | literal text quote => grind [String.isEmpty_iff]
  | word text => grind [isBare_iff]
  | punct p => simp

/-- The lexemes that are a name in square brackets. -/
theorem ofBracketed?_eq_some_iff {l : Lexeme} {name : String} :
    ofBracketed? l = some name ↔ (l.kind = .word name ∨ l.kind = .name name) ∧ name ≠ "" := by
  rw [ofBracketed?]
  cases l.kind with
  | name text => grind [String.isEmpty_iff]
  | word text => grind [String.isEmpty_iff]
  | literal text quote => simp
  | punct p => simp

/-- The parts that the reader of names knows are those of the grammar in which brackets hold no
empty name. -/
theorem spelling_iff_part {ls : List Lexeme} {name : String} :
    Spelling ls name ↔ Part (· ≠ "") ls name := by
  constructor
  · rintro (hname | ⟨hopening, hname, hclosing⟩)
    · rcases ofLexeme?_eq_some_iff.mp hname with ⟨hkind, hne⟩ | ⟨hkind, hne⟩ | ⟨hkind, hbare⟩
      · exact .quoted hkind hne
      · exact .doubleQuoted hkind hne
      · exact .bare hkind hbare
    · obtain ⟨hkind, hne⟩ := ofBracketed?_eq_some_iff.mp hname
      exact .bracketed hopening hkind hne hclosing
  · rintro (⟨hkind, hne⟩ | ⟨hkind, hne⟩ | ⟨hkind, hbare⟩ | ⟨hopening, hkind, hne, hclosing⟩)
    · exact .single (ofLexeme?_eq_some_iff.mpr (.inl ⟨hkind, hne⟩))
    · exact .single (ofLexeme?_eq_some_iff.mpr (.inr (.inl ⟨hkind, hne⟩)))
    · exact .single (ofLexeme?_eq_some_iff.mpr (.inr (.inr ⟨hkind, hbare⟩)))
    · exact .bracketed hopening (ofBracketed?_eq_some_iff.mpr ⟨hkind, hne⟩) hclosing

/-- The names that the reader knows are those of the grammar. -/
theorem qualifiedSpelling_iff_qualified {ls : List Lexeme} {name : String} :
    QualifiedSpelling ls name ↔ Qualified (· ≠ "") ls name := by
  constructor
  · intro h
    induction h with
    | last hpart => exact .last (spelling_iff_part.mp hpart)
    | qualified hpart hdot _ ih => exact .qualified (spelling_iff_part.mp hpart) hdot ih
  · intro h
    induction h with
    | last hpart => exact .last (spelling_iff_part.mpr hpart)
    | qualified hpart hdot _ ih => exact .qualified (spelling_iff_part.mpr hpart) hdot ih

/-- With the mark behind it, a name has a mark among its first two lexemes. -/
theorem Spelling.mark_in_front {part : List Lexeme} {name : String} (h : Spelling part name)
    {mark : Lexeme} (hmark : mark.keyword = "") (rest : List Lexeme) :
    ∃ l next more, part ++ mark :: rest = l :: next :: more ∧
      (l.keyword = "" ∨ next.keyword = "") := by
  cases h with
  | single hname => exact ⟨_, mark, rest, rfl, .inr hmark⟩
  | bracketed hopening hname hclosing =>
    exact ⟨_, _, _, rfl, .inl (Lexeme.keyword_of_isPunct hopening)⟩

/-- So does a name with its qualifiers. -/
theorem QualifiedSpelling.mark_in_front {words : List Lexeme} {name : String}
    (h : QualifiedSpelling words name) {mark : Lexeme} (hmark : mark.keyword = "")
    (rest : List Lexeme) :
    ∃ l next more, words ++ mark :: rest = l :: next :: more ∧
      (l.keyword = "" ∨ next.keyword = "") := by
  cases h with
  | last hpart => exact hpart.mark_in_front hmark rest
  | qualified hpart hdot hmore =>
    rw [List.append_assoc, List.cons_append]
    exact hpart.mark_in_front (Lexeme.keyword_of_isPunct hdot) _

end Name

/-! ## Optional keywords

The reader takes an optional keyword wherever it stands. That is the longest way to go on, and the
only one unless what follows may start with the keyword as well. -/

namespace Grammar

/-- An optional phrase is taken where it stands. -/
theorem greedy_skipWords (ws : List String) (ls : List Lexeme) :
    ∃ p, ls = p ++ Lexeme.skipWords ws ls ∧
      Greedy (phrase ws) (1 + phrase ws) p (Lexeme.skipWords ws ls) := by
  rw [Lexeme.skipWords]
  cases h : Lexeme.dropWords? ws ls with
  | some rest =>
    obtain ⟨used, hls, hused⟩ := Lexeme.dropWords?_eq_some_iff.mp h
    exact ⟨used, hls, greedy_optional_of_mem (prefixFree_phrase ws) hused rest⟩
  | none =>
    refine ⟨[], rfl, greedy_nil ?_⟩
    rintro u hu ⟨rest, hls⟩
    have hls : ls = u ++ rest := hls.symm
    rw [Lexeme.dropWords?_eq_some_iff.mpr ⟨u, hls, hu⟩] at h
    exact absurd h (by simp)

/-- An optional keyword is taken where it stands. -/
theorem greedy_skipOneOf (ws : List String) (ls : List Lexeme) :
    ∃ p, ls = p ++ Lexeme.skipOneOf ws ls ∧
      Greedy (word ws) (1 + word ws) p (Lexeme.skipOneOf ws ls) := by
  cases ls with
  | nil =>
    refine ⟨[], rfl, greedy_nil ?_⟩
    rintro _ ⟨l, rfl, -⟩ hprefix
    exact absurd (List.prefix_nil.mp hprefix) (List.cons_ne_nil l [])
  | cons l ls =>
    rw [Lexeme.skipOneOf]
    split
    · next hl =>
      have hl : [l] ∈ word ws := ⟨l, rfl, by simpa using hl⟩
      exact ⟨[l], rfl, greedy_optional_of_mem (prefixFree_word ws) hl ls⟩
    · next hl =>
      refine ⟨[], rfl, greedy_nil ?_⟩
      rintro _ ⟨l', rfl, hl'⟩ hprefix
      obtain ⟨rfl, -⟩ := List.cons_prefix_cons.mp hprefix
      -- a keyword that could be taken would have been
      exact hl (by simpa using hl')

/-- A list that begins with a phrase begins with its first keyword. -/
theorem keywordAt_of_prefix_phrase {w : String} {ws : List String} {u ls : List Lexeme}
    (hu : u ∈ phrase (w :: ws)) (h : u <+: ls) : Lexeme.keywordAt ls = w := by
  obtain ⟨l, tail, rfl, hl, -⟩ := List.map_eq_cons_iff.mp hu
  obtain ⟨rest, rfl⟩ := h
  exact hl

/-- A list that begins with one of several keywords. -/
theorem keywordAt_of_prefix_word {ws : List String} {u ls : List Lexeme} (hu : u ∈ word ws)
    (h : u <+: ls) : Lexeme.keywordAt ls ∈ ws := by
  obtain ⟨l, rfl, hl⟩ := hu
  obtain ⟨rest, rfl⟩ := h
  exact hl

/-- An optional keyword in front adds to what a list may begin with. -/
theorem keywordAt_optional_append {ws ws' : List String} {p r : List Lexeme}
    (hp : p ∈ 1 + word ws) (hr : Lexeme.keywordAt r ∈ ws') :
    Lexeme.keywordAt (p ++ r) ∈ ws ++ ws' := by
  rcases mem_optional.mp hp with rfl | hp
  · exact List.mem_append_right ws hr
  · exact List.mem_append_left ws' (keywordAt_of_prefix_word hp (List.prefix_append p r))

end Grammar

/-! ## Headers

The parts come in a fixed order and no part starts with a keyword of an earlier one. So skipping
each of them where it stands never takes a lexeme that the next part needs. -/

namespace Header

open Grammar

/-- What stands between `CREATE` and `TABLE`. -/
def qualifiers : Language Lexeme :=
  (1 + phrase ["OR", "REPLACE"]) * (1 + word ["GLOBAL", "LOCAL"]) * (1 + word ["TEMP", "TEMPORARY"])

/-- What stands in front of the name. -/
def introduction : Language Lexeme :=
  phrase ["CREATE"] * qualifiers * phrase ["TABLE"] * (1 + phrase ["IF", "NOT", "EXISTS"])

/-- The lexemes of an introduction, part by part. -/
theorem mem_introduction {front : List Lexeme} :
    front ∈ introduction ↔ ∃ create used table condition,
      front = create :: used ++ table :: condition ∧ create.keyword = "CREATE" ∧
        used ∈ qualifiers ∧ table.keyword = "TABLE" ∧
          condition ∈ 1 + phrase ["IF", "NOT", "EXISTS"] := by
  constructor
  · rintro ⟨_, ⟨_, ⟨creates, hcreates, used, hused, rfl⟩, tables, htables, rfl⟩, condition,
      hcondition, rfl⟩
    obtain ⟨create, rfl, hcreate⟩ := mem_phrase_singleton.mp hcreates
    obtain ⟨table, rfl, htable⟩ := mem_phrase_singleton.mp htables
    exact ⟨create, used, table, condition, by simp, hcreate, hused, htable, hcondition⟩
  · rintro ⟨create, used, table, condition, rfl, hcreate, hused, htable, hcondition⟩
    -- the language puts its parts together from the left
    have hfront : create :: used ++ table :: condition =
        [create] ++ used ++ [table] ++ condition := by simp
    rw [hfront]
    exact Language.append_mem_mul (Language.append_mem_mul (Language.append_mem_mul
      (mem_phrase_singleton.mpr ⟨create, rfl, hcreate⟩) hused)
      (mem_phrase_singleton.mpr ⟨table, rfl, htable⟩)) hcondition

/-- The qualifiers that are skipped are qualifiers. -/
theorem skipQualifiers_mem (ls : List Lexeme) :
    ∃ used ∈ qualifiers, ls = used ++ skipQualifiers ls := by
  obtain ⟨replace, hr, hreplace⟩ := greedy_skipWords ["OR", "REPLACE"] ls
  obtain ⟨scope, hs, hscope⟩ := greedy_skipOneOf ["GLOBAL", "LOCAL"]
    (Lexeme.skipWords ["OR", "REPLACE"] ls)
  obtain ⟨life, hl, hlife⟩ := greedy_skipOneOf ["TEMP", "TEMPORARY"]
    (Lexeme.skipOneOf ["GLOBAL", "LOCAL"] (Lexeme.skipWords ["OR", "REPLACE"] ls))
  refine ⟨replace ++ scope ++ life, ?_, ?_⟩
  · exact Language.append_mem_mul (Language.append_mem_mul hreplace.mem hscope.mem) hlife.mem
  · rw [List.append_assoc, List.append_assoc, skipQualifiers, ← hl, ← hs, ← hr]

/-- In front of `TABLE` all qualifiers are skipped. -/
theorem skipQualifiers_append {used : List Lexeme} (hused : used ∈ qualifiers) {table : Lexeme}
    (htable : table.keyword = "TABLE") (rest : List Lexeme) :
    skipQualifiers (used ++ table :: rest) = table :: rest := by
  obtain ⟨_, ⟨replace, hreplace, scope, hscope, rfl⟩, life, hlife, rfl⟩ := hused
  -- which keywords can stand behind each of the three
  have hrest : Lexeme.keywordAt (table :: rest) ∈ ["TABLE"] := List.mem_singleton.mpr htable
  have hlate := keywordAt_optional_append hlife hrest
  have hearly := keywordAt_optional_append hscope hlate
  have h1 : Lexeme.skipWords ["OR", "REPLACE"] (replace ++ (scope ++ (life ++ table :: rest))) =
      scope ++ (life ++ table :: rest) := by
    obtain ⟨p, hp, hgreedy⟩ := greedy_skipWords ["OR", "REPLACE"]
      (replace ++ (scope ++ (life ++ table :: rest)))
    refine (hgreedy.rest_eq hreplace hp fun u hu hprefix => ?_).symm
    rw [keywordAt_of_prefix_phrase hu hprefix] at hearly
    exact absurd hearly (by decide)
  have h2 : Lexeme.skipOneOf ["GLOBAL", "LOCAL"] (scope ++ (life ++ table :: rest)) =
      life ++ table :: rest := by
    obtain ⟨p, hp, hgreedy⟩ := greedy_skipOneOf ["GLOBAL", "LOCAL"]
      (scope ++ (life ++ table :: rest))
    refine (hgreedy.rest_eq hscope hp fun u hu hprefix => ?_).symm
    have hhead := keywordAt_of_prefix_word hu hprefix
    simp only [List.cons_append, List.nil_append, List.mem_cons, List.not_mem_nil, or_false]
      at hlate hhead
    rcases hhead with h | h <;> rw [h] at hlate <;> exact absurd hlate (by decide)
  have h3 : Lexeme.skipOneOf ["TEMP", "TEMPORARY"] (life ++ table :: rest) = table :: rest := by
    obtain ⟨p, hp, hgreedy⟩ := greedy_skipOneOf ["TEMP", "TEMPORARY"] (life ++ table :: rest)
    refine (hgreedy.rest_eq hlife hp fun u hu hprefix => ?_).symm
    have hhead := keywordAt_of_prefix_word hu hprefix
    rw [List.mem_singleton.mp hrest] at hhead
    exact absurd hhead (by decide)
  rw [skipQualifiers, List.append_assoc, List.append_assoc, h1, h2, h3]

/-- In front of a name the condition is skipped. -/
theorem skipCondition_append {condition words rest : List Lexeme} {name : String}
    (hcondition : condition ∈ 1 + phrase ["IF", "NOT", "EXISTS"])
    (hwords : Name.QualifiedSpelling words name) {opening : Lexeme}
    (hopening : opening.isPunct .openParen = true) :
    Lexeme.skipWords ["IF", "NOT", "EXISTS"] (condition ++ (words ++ opening :: rest)) =
      words ++ opening :: rest := by
  obtain ⟨p, hp, hgreedy⟩ := greedy_skipWords ["IF", "NOT", "EXISTS"]
    (condition ++ (words ++ opening :: rest))
  refine (hgreedy.rest_eq hcondition hp fun u hu hprefix => ?_).symm
  obtain ⟨l, next, more, hfront, hmark⟩ :=
    hwords.mark_in_front (Lexeme.keyword_of_isPunct hopening) rest
  obtain ⟨if_, tail, rfl, hif, htail⟩ := List.map_eq_cons_iff.mp hu
  obtain ⟨not_, tail, rfl, hnot, -⟩ := List.map_eq_cons_iff.mp htail
  rw [hfront, List.cons_prefix_cons, List.cons_prefix_cons] at hprefix
  obtain ⟨rfl, rfl, -⟩ := hprefix
  -- `IF NOT` are two keywords, and one of the first two lexemes of a name is none
  rw [hif, hnot] at hmark
  exact absurd hmark (by decide)

/-- **A header is read exactly where the grammar has one.** -/
theorem read?_iff {ls : List Lexeme} {h : Header} :
    read? ls = some h ↔ ∃ front words, ls = front ++ (words ++ h.opening :: h.rest) ∧
      front ∈ introduction ∧ Name.Qualified (· ≠ "") words h.name ∧
        h.opening.isPunct .openParen = true := by
  constructor
  · intro e
    cases ls with
    | nil => exact absurd e (by simp [read?])
    | cons create ls =>
      rw [read?] at e
      split at e
      · next hcreate =>
        obtain ⟨afterTable, ht, hn⟩ := Option.bind_eq_some_iff.mp e
        -- what the reader skips is what the grammar has there
        obtain ⟨used, hused, hls⟩ := skipQualifiers_mem ls
        obtain ⟨tables, hskip, htables⟩ := Lexeme.dropWords?_eq_some_iff.mp ht
        obtain ⟨table, rfl, htable⟩ := mem_phrase_singleton.mp htables
        obtain ⟨condition, hafter, hcondition⟩ :=
          greedy_skipWords ["IF", "NOT", "EXISTS"] afterTable
        obtain ⟨words, hwords, hname, hopening⟩ := readName?_extent hn
        refine ⟨create :: used ++ table :: condition, words, ?_, ?_,
          Name.qualifiedSpelling_iff_qualified.mp hname, hopening⟩
        · rw [← hwords, List.append_assoc, List.cons_append, List.cons_append, ← hafter]
          rw [hskip, List.singleton_append] at hls
          rw [← hls]
        · exact mem_introduction.mpr
            ⟨create, used, table, condition, rfl, hcreate, hused, htable, hcondition.mem⟩
      · exact absurd e (by simp)
  · rintro ⟨front, words, rfl, hfront, hname, hopening⟩
    have hwords := Name.qualifiedSpelling_iff_qualified.mpr hname
    obtain ⟨create, used, table, condition, rfl, hcreate, hused, htable, hcondition⟩ :=
      mem_introduction.mp hfront
    -- the name ends at the parenthesis, since no dot follows
    have hdot : Lexeme.startsWith .dot (h.opening :: h.rest) = false :=
      Lexeme.isPunct_eq_false_of_ne hopening (by decide)
    have hread : readName? (words ++ h.opening :: h.rest) = some h := by
      rw [readName?, Name.readQualified?_of_spelling hwords hdot]
      simp only [hopening, if_true]
    simp only [List.cons_append, List.append_assoc]
    rw [read?, if_pos hcreate, skipQualifiers_append hused htable]
    rw [Lexeme.dropWords?, if_pos htable, Lexeme.dropWords?, Option.bind_some]
    rw [skipCondition_append hcondition hwords hopening, hread]

end Header

/-! ## Headers by their places

The indices of a header and of its parenthesis are counted from what is left behind them. The
grammar counts from the front, and both come to the same place. -/

/-- The name that the header at a place gives, and the place of its opening parenthesis. -/
def headerAt? (ls : List Lexeme) (pos : Nat) : Option (String × Nat) :=
  (Header.read? (ls.drop pos)).map fun h => (h.name, indexBefore ls.length h.rest)

/-- From one place up to the parenthesis at another stands the header of a table. -/
def HeaderAt (inBrackets : String → Prop) (ls : List Lexeme) (pos : Nat) (name : String)
    (idx : Nat) : Prop :=
  ∃ front words opening behind, ls.drop pos = front ++ (words ++ opening :: behind) ∧
    idx = pos + front.length + words.length ∧ front ∈ Header.introduction ∧
      Name.Qualified inBrackets words name ∧ opening.isPunct .openParen = true

/-- **Headers are those of the grammar.** Where a header is read, the lexemes up to its parenthesis
are one way to write a header of that name, and each way to write one is read. There is one way at
most at each place. -/
theorem header_grammatical (ls : List Lexeme) (pos : Nat) :
    (∀ name idx, headerAt? ls pos = some (name, idx) ↔ HeaderAt (· ≠ "") ls pos name idx) ∧
      {header : String × Nat | HeaderAt (· ≠ "") ls pos header.1 header.2}.Subsingleton := by
  have hexact : ∀ name idx,
      headerAt? ls pos = some (name, idx) ↔ HeaderAt (· ≠ "") ls pos name idx := by
    intro name idx
    rw [headerAt?, Option.map_eq_some_iff]
    -- the lexemes behind the parenthesis tell its place
    have hplace : ∀ {front words behind : List Lexeme} {opening : Lexeme},
        ls.drop pos = front ++ (words ++ opening :: behind) →
          indexBefore ls.length behind = pos + front.length + words.length := by
      intro front words behind opening hls
      have hlength := congrArg List.length hls
      simp only [List.length_drop, List.length_append, List.length_cons] at hlength
      rw [indexBefore]
      omega
    constructor
    · rintro ⟨h, hread, he⟩
      cases he
      obtain ⟨front, words, hls, hfront, hname, hopening⟩ := Header.read?_iff.mp hread
      exact ⟨front, words, h.opening, h.rest, hls, hplace hls, hfront, hname, hopening⟩
    · rintro ⟨front, words, opening, behind, hls, rfl, hfront, hname, hopening⟩
      refine ⟨⟨name, opening, behind⟩, ?_, by rw [hplace hls]⟩
      exact Header.read?_iff.mpr ⟨front, words, hls, hfront, hname, hopening⟩
  refine ⟨hexact, ?_⟩
  rintro ⟨name, idx⟩ h ⟨name', idx'⟩ h'
  exact Option.some.inj (((hexact name idx).mpr h).symm.trans ((hexact name' idx').mpr h'))

/-- A table whose name is empty and stands in square brackets. -/
def namelessScript : List Lexeme :=
  [⟨.word "CREATE", 0, 6, 1⟩, ⟨.word "TABLE", 7, 12, 1⟩, ⟨.punct .openBracket, 13, 14, 1⟩,
    ⟨.name "", 14, 16, 1⟩, ⟨.punct .closeBracket, 16, 17, 1⟩, ⟨.punct .openParen, 18, 19, 1⟩,
    ⟨.word "id", 19, 21, 1⟩, ⟨.word "INT", 22, 25, 1⟩, ⟨.punct .closeParen, 25, 26, 1⟩,
    ⟨.punct .semicolon, 26, 27, 1⟩]

/-- Not even in brackets a name can be empty. -/
theorem header_nameless :
    Lexeme.ofScript Dialect.mysql "CREATE TABLE [``] (id INT);".toList.toArray =
        .ok namelessScript ∧
      ¬(headerAt? namelessScript 0 = some ("", 5) ↔
        HeaderAt (fun _ => True) namelessScript 0 "" 5) := by
  refine ⟨by decide +kernel, fun hiff => ?_⟩
  have hnone : headerAt? namelessScript 0 = none := by decide +kernel
  have hfront : namelessScript.take 2 ∈ Header.introduction :=
    Header.mem_introduction.mpr ⟨_, [], _, [], rfl, by decide +kernel,
      ⟨_, ⟨_, .inl rfl, _, .inl rfl, rfl⟩, _, .inl rfl, rfl⟩, by decide +kernel, .inl rfl⟩
  have hname : Name.Qualified (fun _ => True) ((namelessScript.drop 2).take 3) "" :=
    .last (.bracketed rfl (.inr rfl) trivial rfl)
  have hheader : HeaderAt (fun _ => True) namelessScript 0 "" 5 :=
    ⟨_, _, _, _, rfl, rfl, hfront, hname, rfl⟩
  rw [hiff.mpr hheader] at hnone
  exact absurd hnone (by simp)

end TableDocs.Sql
