import TableDocs.Proofs.Sql.BodyPartition
import TableDocs.Sql.PrimaryKey

/-!
# TableDocs — the clause that names the key columns

The key columns of a body are named by the first place at which a key clause starts. The search for
it runs over all lexemes of the body, at every depth and across items. This module says what it
finds:

* **`openClause?_eq_some_iff`** — a clause starts with the words `PRIMARY KEY`, maybe `USING` and a
  method, and an opening parenthesis. It takes no further lexeme to see that.
* **`keyNames_firstClause`**, **`mem_namesOf_iff`** — when the first clause is closed, its elements
  give the names.
* **`exists_firstClause`** — when parentheses balance, the first clause is closed.
* **`keyNames_append`** — what follows the first clause does not matter.
* **`keyNames_of_cut`** — the search agrees with the items: unless an item ends in the words
  `PRIMARY KEY USING`, the first item that carries a clause decides alone.
-/

namespace TableDocs.Sql

namespace PrimaryKey

/-! ## The start of a clause

A clause is recognised by three lexemes, or by five with a method. The method is passed over without
being looked at, so it may be anything, a comma included. -/

/-- The words of a key clause up to its opening parenthesis. -/
inductive ClauseStart : List Lexeme → Prop
  | plain {primary key opening : Lexeme} (hprimary : primary.keyword = "PRIMARY")
      (hkey : key.keyword = "KEY") (hopening : opening.isPunct .openParen = true) :
      ClauseStart [primary, key, opening]
  | withMethod {primary key using_ method opening : Lexeme}
      (hprimary : primary.keyword = "PRIMARY") (hkey : key.keyword = "KEY")
      (husing : using_.keyword = "USING") (hopening : opening.isPunct .openParen = true) :
      ClauseStart [primary, key, using_, method, opening]

/-- A key clause starts at the front. -/
def Opens (ls : List Lexeme) : Prop :=
  ∃ start list, ls = start ++ list ∧ ClauseStart start

/-- The start of a clause has three lexemes to five. -/
theorem ClauseStart.length {start : List Lexeme} (h : ClauseStart start) :
    3 ≤ start.length ∧ start.length ≤ 5 := by
  cases h <;> simp

/-- The start of a clause is recognised, and its list begins behind it. -/
theorem ClauseStart.openClause? {start : List Lexeme} (h : ClauseStart start) (list : List Lexeme) :
    openClause? (start ++ list) = some list := by
  cases h with
  | @plain primary key opening hprimary hkey hopening =>
    have hnone : opening.keyword ≠ "USING" := by
      rw [Lexeme.keyword_of_isPunct hopening]
      decide
    simp [PrimaryKey.openClause?, Lexeme.dropWords?, hprimary, hkey, Lexeme.keywordAt,
      Lexeme.startsWith, hnone, hopening]
  | withMethod hprimary hkey husing hopening =>
    simp [PrimaryKey.openClause?, Lexeme.dropWords?, hprimary, hkey, Lexeme.keywordAt,
      Lexeme.startsWith, husing, hopening]

/-- **The start of a clause.** -/
theorem openClause?_eq_some_iff {ls list : List Lexeme} :
    openClause? ls = some list ↔ ∃ start, ls = start ++ list ∧ ClauseStart start := by
  constructor
  · intro h
    obtain ⟨rest, hwords, hrest⟩ := Option.bind_eq_some_iff.mp h
    obtain ⟨used, rfl, hused⟩ := Lexeme.dropWords?_eq_some_iff.mp hwords
    obtain ⟨primary, used, rfl, hprimary, hused⟩ := List.map_eq_cons_iff.mp hused
    obtain ⟨key, used, rfl, hkey, hused⟩ := List.map_eq_cons_iff.mp hused
    obtain rfl := List.map_eq_nil_iff.mp hused
    simp only at hrest
    split at hrest
    · next husing =>
      split at hrest
      · next hstarts =>
        -- the method takes one place, whatever stands there
        match rest, husing, hstarts, hrest with
        | using_ :: method :: opening :: list', husing, hopening, hlist =>
          obtain rfl : list' = list := by simpa using hlist
          exact ⟨[primary, key, using_, method, opening], rfl,
            .withMethod hprimary hkey husing hopening⟩
      · exact absurd hrest (by simp)
    · split at hrest
      · next hstarts =>
        match rest, hstarts, hrest with
        | opening :: list', hopening, hlist =>
          obtain rfl : list' = list := by simpa using hlist
          exact ⟨[primary, key, opening], rfl, .plain hprimary hkey hopening⟩
      · exact absurd hrest (by simp)
  · rintro ⟨start, rfl, hstart⟩
    exact hstart.openClause? list

/-- A clause starts where one is recognised. -/
theorem opens_iff {ls : List Lexeme} : Opens ls ↔ ∃ list, openClause? ls = some list := by
  simp only [openClause?_eq_some_iff]
  exact exists_comm

theorem not_opens_iff {ls : List Lexeme} : ¬Opens ls ↔ openClause? ls = none := by
  rw [opens_iff, ← Option.isSome_iff_exists]
  simp

theorem ClauseStart.opens {start : List Lexeme} (h : ClauseStart start) (list : List Lexeme) :
    Opens (start ++ list) :=
  ⟨start, list, rfl, h⟩

theorem not_opens_nil : ¬Opens [] := by
  rw [not_opens_iff]
  rfl

/-- More lexemes behind it do not hide a clause. -/
theorem Opens.append {ls : List Lexeme} (h : Opens ls) (more : List Lexeme) :
    Opens (ls ++ more) := by
  obtain ⟨start, list, rfl, hstart⟩ := h
  exact ⟨start, list ++ more, List.append_assoc .., hstart⟩

/-- Five lexemes are enough to see whether a clause starts. -/
theorem opens_append_iff {ls : List Lexeme} (h : 5 ≤ ls.length) (more : List Lexeme) :
    Opens (ls ++ more) ↔ Opens ls := by
  constructor
  · rintro ⟨start, list, hsplit, hstart⟩
    have hprefix : start <+: ls := by
      have hlength := hstart.length
      exact List.prefix_of_prefix_length_le ⟨list, hsplit.symm⟩ (List.prefix_append ls more)
        (by omega)
    obtain ⟨list', rfl⟩ := hprefix
    exact hstart.opens list'
  · exact fun hopens => hopens.append more

/-! ## The first clause

The search stops at the first place at which a clause starts. What is in front of it is passed
lexeme by lexeme, and what is behind it is not looked at. -/

/-- The body with its first clause: what stands in front of it, its start, and its list up to the
closing parenthesis. -/
structure FirstClause (body front start : List Lexeme) (g : Group) : Prop where
  split : body = front ++ (start ++ (g.inner ++ g.close :: g.rest))
  starts : ClauseStart start
  closed : Group.Closed 0 g
  first : ∀ b, b <:+ front → b ≠ [] → ¬Opens (b ++ (start ++ (g.inner ++ g.close :: g.rest)))

/-- There is a place at which a clause starts. -/
def CarriesClause (ls : List Lexeme) : Prop :=
  ∃ b, b <:+ ls ∧ Opens b

instance : DecidablePred CarriesClause := fun ls =>
  decidable_of_iff (∃ b ∈ ls.tails, (openClause? b).isSome = true) (by
    simp only [CarriesClause, List.mem_tails, Option.isSome_iff_exists, opens_iff])

theorem not_carriesClause_iff {ls : List Lexeme} :
    ¬CarriesClause ls ↔ ∀ b, b <:+ ls → ¬Opens b := by
  simp [CarriesClause]

/-- Places at which no clause starts are passed. -/
theorem keyNames_skip {front rest : List Lexeme}
    (h : ∀ b, b <:+ front → b ≠ [] → ¬Opens (b ++ rest)) :
    keyNames (front ++ rest) = keyNames rest := by
  induction front with
  | nil => rfl
  | cons l front ih =>
    have hl : openClause? (l :: (front ++ rest)) = none :=
      not_opens_iff.mp (h (l :: front) List.suffix_rfl (List.cons_ne_nil l front))
    have hfront : ∀ b, b <:+ front → b ≠ [] → ¬Opens (b ++ rest) :=
      fun b hb => h b (hb.trans (List.suffix_cons l front))
    rw [List.cons_append, keyNames, hl]
    exact ih hfront

/-- Without a clause there are no names. -/
theorem keyNames_of_not_carriesClause {ls : List Lexeme} (h : ¬CarriesClause ls) :
    keyNames ls = [] := by
  rw [not_carriesClause_iff] at h
  have hskip : keyNames (ls ++ []) = keyNames [] :=
    keyNames_skip fun b hb _ => by simpa using h b hb
  simpa [keyNames] using hskip

/-- A clause that is closed gives the names of its list. -/
theorem keyNames_of_openClause? {ls list : List Lexeme} {g : Group}
    (h : openClause? ls = some list) (hclose : Group.close? 0 list = some g) :
    keyNames ls = namesOf g.inner := by
  cases ls with
  | nil => exact absurd h (by simp [openClause?, Lexeme.dropWords?])
  | cons l ls =>
    rw [keyNames, h]
    simp only [hclose]

/-- **The first clause gives the names.** -/
theorem keyNames_firstClause {body front start : List Lexeme} {g : Group}
    (h : FirstClause body front start g) : keyNames body = namesOf g.inner := by
  have hclose : Group.close? 0 (g.inner ++ g.close :: g.rest) = some g :=
    Group.close?_append h.closed g.rest
  rw [h.split, keyNames_skip h.first]
  exact keyNames_of_openClause? (h.starts.openClause? _) hclose

/-- A name leads an element of a key list. -/
def Leads (name : String) (element : List Lexeme) : Prop :=
  ∃ part rest, element = part ++ rest ∧ Name.Spelling part name

/-- The names of a list are those that lead its elements. -/
theorem mem_namesOf_iff {name : String} {list : List Lexeme} :
    name ∈ namesOf list ↔ ∃ element ∈ Group.segments list, Leads name element := by
  simp only [namesOf, List.mem_filterMap, Option.map_eq_some_iff, Prod.exists, exists_and_right,
    exists_eq_right]
  constructor
  · rintro ⟨element, helement, rest, hread⟩
    obtain ⟨part, hsplit, hspelling⟩ := Name.read?_spelling hread
    exact ⟨element, helement, part, rest, hsplit, hspelling⟩
  · rintro ⟨element, helement, part, rest, rfl, hspelling⟩
    exact ⟨part ++ rest, helement, rest, Name.read?_of_spelling hspelling rest⟩

/-- If a clause starts anywhere, there is a first place. -/
theorem exists_first_opens {ls : List Lexeme} (h : CarriesClause ls) :
    ∃ front start list, ls = front ++ (start ++ list) ∧ ClauseStart start ∧
      ∀ b, b <:+ front → b ≠ [] → ¬Opens (b ++ (start ++ list)) := by
  induction ls with
  | nil =>
    obtain ⟨b, hb, hopens⟩ := h
    rw [List.suffix_nil.mp hb] at hopens
    exact absurd hopens not_opens_nil
  | cons l ls ih =>
    -- it starts here, or in what is left
    by_cases hopens : Opens (l :: ls)
    · obtain ⟨start, list, hsplit, hstart⟩ := hopens
      refine ⟨[], start, list, hsplit, hstart, ?_⟩
      intro b hb hne
      exact absurd (List.suffix_nil.mp hb) hne
    · have htail : CarriesClause ls := by
        obtain ⟨b, hb, hb'⟩ := h
        rcases List.suffix_cons_iff.mp hb with rfl | hb
        · exact absurd hb' hopens
        · exact ⟨b, hb, hb'⟩
      obtain ⟨front, start, list, rfl, hstart, hfirst⟩ := ih htail
      refine ⟨l :: front, start, list, rfl, hstart, ?_⟩
      intro b hb hne
      rcases List.suffix_cons_iff.mp hb with rfl | hb
      · exact hopens
      · exact hfirst b hb hne

/-- The start of a clause ends with the parenthesis that opens its list. -/
theorem ClauseStart.eq_append {start : List Lexeme} (h : ClauseStart start) :
    ∃ before opening, start = before ++ [opening] ∧ opening.isPunct .openParen = true := by
  cases h with
  | @plain primary key opening _ _ hopening => exact ⟨[primary, key], opening, rfl, hopening⟩
  | @withMethod primary key using_ method opening _ _ _ hopening =>
    exact ⟨[primary, key, using_, method], opening, rfl, hopening⟩

/-- **When parentheses balance, the first clause is closed.** -/
theorem exists_firstClause {body : List Lexeme} (hbalanced : Group.balanced body = true)
    (h : CarriesClause body) : ∃ front start g, FirstClause body front start g := by
  obtain ⟨front, start, list, hsplit, hstart, hfirst⟩ := exists_first_opens h
  obtain ⟨before, opening, rfl, hopening⟩ := hstart.eq_append
  have hsuffix : opening :: list <:+ body := ⟨front ++ before, by rw [hsplit]; simp⟩
  obtain ⟨g, hclose⟩ := Group.allClose_of_balanced hbalanced opening list hsuffix hopening
  obtain ⟨rfl, hclosed⟩ := Group.close?_extent hclose
  exact ⟨front, _, g, hsplit, hstart, hclosed, hfirst⟩

/-- **What follows the first clause does not matter.** -/
theorem FirstClause.replace_rest {body front start : List Lexeme} {g : Group}
    (h : FirstClause body front start g) (rest : List Lexeme) :
    FirstClause (front ++ (start ++ (g.inner ++ g.close :: rest))) front start { g with rest } where
  split := rfl
  starts := h.starts
  closed := ⟨h.closed.close_isPunct, h.closed.depth_inner, h.closed.neverBelow_inner⟩
  first := by
    intro b hb hne
    have hno : ¬Opens (b ++ (start ++ (g.inner ++ g.close :: g.rest))) := h.first b hb hne
    -- A place in front of the clause has more than four lexemes up to the closing parenthesis.
    have hlength : 5 ≤ (b ++ (start ++ (g.inner ++ [g.close]))).length := by
      have hpositive : 0 < b.length := List.length_pos_of_ne_nil hne
      have hstart := h.starts.length
      simp only [List.length_append, List.length_singleton]
      omega
    have hstretch : ∀ more, b ++ (start ++ (g.inner ++ g.close :: more)) =
        b ++ (start ++ (g.inner ++ [g.close])) ++ more := by
      intro more
      simp
    rw [hstretch, opens_append_iff hlength] at hno
    show ¬Opens (b ++ (start ++ (g.inner ++ g.close :: rest)))
    rwa [hstretch, opens_append_iff hlength]

/-- The names are those of the body, whatever is put behind it. -/
theorem keyNames_append {body front start : List Lexeme} {g : Group}
    (h : FirstClause body front start g) (more : List Lexeme) :
    keyNames (body ++ more) = keyNames body := by
  have hbody : body ++ more = front ++ (start ++ (g.inner ++ g.close :: (g.rest ++ more))) := by
    rw [h.split]
    simp
  rw [hbody, keyNames_firstClause (h.replace_rest (g.rest ++ more)), keyNames_firstClause h]

/-! ## Clauses and items

The search knows nothing of items. It could start a clause in one item and end it in the next, but a
start holds no comma unless the comma is its method. -/

/-- The list ends in the words `PRIMARY KEY USING`. -/
def EndsInUsing (ls : List Lexeme) : Prop :=
  ["PRIMARY", "KEY", "USING"] <:+ ls.map Lexeme.keyword

instance (ls : List Lexeme) : Decidable (EndsInUsing ls) :=
  inferInstanceAs (Decidable (_ <:+ _))

/-- A comma inside the start of a clause can only be the method behind `USING`. -/
theorem ClauseStart.before_comma {b a : List Lexeme} {comma : Lexeme}
    (h : ClauseStart (b ++ comma :: a)) (hcomma : comma.isPunct .comma = true) : EndsInUsing b := by
  have hkeyword : comma.keyword = "" := Lexeme.keyword_of_isPunct hcomma
  have hparen : comma.isPunct .openParen = false :=
    Lexeme.isPunct_eq_false_of_ne hcomma (by decide)
  generalize hstart : b ++ comma :: a = start at h
  cases h with
  | plain hprimary hkey hopening =>
    exfalso
    -- the comma would have to be one of the keywords or the parenthesis
    rcases b with _ | ⟨x, _ | ⟨y, _ | ⟨z, b⟩⟩⟩
    · cases hstart; simp [hkeyword] at hprimary
    · cases hstart; simp [hkeyword] at hkey
    · cases hstart; simp [hparen] at hopening
    · simp at hstart
  | withMethod hprimary hkey husing hopening =>
    -- only the method can be a comma, since nothing is asked of it
    rcases b with _ | ⟨x, _ | ⟨y, _ | ⟨z, _ | ⟨w, b⟩⟩⟩⟩
    · cases hstart; simp [hkeyword] at hprimary
    · cases hstart; simp [hkeyword] at hkey
    · cases hstart; simp [hkeyword] at husing
    · cases hstart; simp [EndsInUsing, hprimary, hkey, husing]
    · exfalso
      rcases b with _ | ⟨v, b⟩
      · cases hstart; simp [hparen] at hopening
      · simp at hstart

/-- A clause that starts in front of a separator starts without it too. -/
theorem Opens.of_append_comma {b rest : List Lexeme} {comma : Lexeme}
    (h : Opens (b ++ comma :: rest)) (hcomma : comma.isPunct .comma = true)
    (hends : ¬EndsInUsing b) : Opens b := by
  obtain ⟨start, list, hsplit, hstart⟩ := h
  rcases List.append_eq_append_iff.mp hsplit with ⟨a, rfl, hlist⟩ | ⟨list', rfl, -⟩
  · cases a with
    | nil => exact ⟨b, [], (List.append_nil b).symm, by simpa using hstart⟩
    | cons l a =>
      -- the start reaches over the comma
      obtain ⟨rfl, -⟩ := List.cons_eq_cons.mp hlist
      exact absurd (hstart.before_comma hcomma) hends
  · exact hstart.opens list'

/-- No clause that starts in an item reaches over the separator behind the item. -/
theorem keyNames_item_append {item rest : List Lexeme} {comma : Lexeme}
    (hcomma : comma.isPunct .comma = true) (hends : ¬EndsInUsing item)
    (hcarries : ¬CarriesClause item) :
    keyNames (item ++ comma :: rest) = keyNames rest := by
  have hskip : ∀ b, b <:+ item ++ [comma] → b ≠ [] → ¬Opens (b ++ rest) := by
    intro b hb hne hopens
    rcases List.suffix_concat_iff.mp hb with rfl | ⟨b', rfl, hb'⟩
    · exact hne rfl
    · rw [List.append_assoc, List.singleton_append] at hopens
      have hends' : ¬EndsInUsing b' := fun h => hends (h.trans (hb'.map Lexeme.keyword))
      have hno := not_carriesClause_iff.mp hcarries b' hb'
      exact hno (hopens.of_append_comma hcomma hends')
  rw [← List.singleton_append, ← List.append_assoc]
  exact keyNames_skip hskip

/-- **The search agrees with the items.** The first item that carries a clause decides. -/
theorem keyNames_of_cut {d : Int} {ls : List Lexeme} {items : List (List Lexeme)}
    (h : Group.Cut d ls items) (hbalanced : ∀ item ∈ items, Group.balanced item = true)
    (hends : ∀ item ∈ items, ¬EndsInUsing item) :
    keyNames ls = ((items.find? fun item => decide (CarriesClause item)).map keyNames).getD [] := by
  induction h with
  | @last d item hitem =>
    by_cases hcarries : CarriesClause item
    · simp [hcarries]
    · simp [hcarries, keyNames_of_not_carriesClause hcarries]
  | @cons d item rest comma items hitem hdepth hcomma hrest ih =>
    by_cases hcarries : CarriesClause item
    · -- parentheses balance in the item, so its clause is closed before the separator
      obtain ⟨front, start, g, hclause⟩ :=
        exists_firstClause (hbalanced item List.mem_cons_self) hcarries
      rw [keyNames_append hclause, List.find?_cons_of_pos (by simpa using hcarries)]
      rfl
    · have htail := ih (fun x hx => hbalanced x (List.mem_cons_of_mem _ hx))
        (fun x hx => hends x (List.mem_cons_of_mem _ hx))
      rw [keyNames_item_append hcomma (hends item List.mem_cons_self) hcarries, htail,
        List.find?_cons_of_neg (by simpa using hcarries)]

end PrimaryKey

/-- The items of a list in which parentheses balance balance themselves. -/
theorem Group.Cut.balanced {d : Int} {ls : List Lexeme} {items : List (List Lexeme)}
    (h : Group.Cut d ls items) (hd : d = 0) (hbalanced : Group.balanced ls = true) :
    ∀ item ∈ items, Group.balanced item = true := by
  induction h with
  | last hitem => simpa using hbalanced
  | @cons d item rest comma items hitem hdepth hcomma hrest ih =>
    subst hd
    obtain ⟨hbelow, hsum⟩ := Group.balanced_iff.mp hbalanced
    -- the cut is made at depth zero, so the item closes what it opens and the rest starts anew
    have hzero : Group.depth item = 0 := by omega
    have hitem : Group.balanced item = true :=
      Group.balanced_iff.mpr ⟨hbelow.of_append_left, hzero⟩
    have hrest : Group.balanced rest = true := by
      have hstep : Group.depthStep comma = 0 := Group.depthStep_of_comma hcomma
      have hafter := hbelow.of_append_right
      rw [hzero, Group.neverBelow_cons, hstep] at hafter
      rw [Group.depth_append, Group.depth_cons, hstep, hzero] at hsum
      exact Group.balanced_iff.mpr ⟨hafter.2, by omega⟩
    intro x hx
    rcases List.mem_cons.mp hx with rfl | hx
    · exact hitem
    · exact ih rfl hrest x hx

end TableDocs.Sql
