import TableDocs.Proofs.Sql.Qualifiers

/-!
# TableDocs — qualifiers are transparent

A qualifier that is put into a script moves all that follows it. Only what is read on one side of it
must stay the same, so the lexemes in front of it and those behind it are compared one by one.
-/

namespace TableDocs.Sql

variable {script script' : Array Char}

/-! ## Stretches that are copied in two pieces -/

section Pieces

variable {ls ls' front behind front' behind' : List Lexeme}

theorem SameWriting.length_eq (h : SameWriting script script' ls ls') : ls.length = ls'.length :=
  h.lexemes.length_eq

/-- The pieces of a copy are copies. -/
theorem SameWriting.exists_append (h : SameWriting script script' (front ++ behind) ls') :
    ∃ front' behind', ls' = front' ++ behind' ∧ SameWriting script script' front front' ∧
      SameWriting script script' behind behind' := by
  have hlength := h.length_eq
  rw [List.length_append] at hlength
  -- the copy is cut where the original is, which the equal lengths allow
  obtain ⟨front', behind', rfl, hfront⟩ :
      ∃ front' behind', ls' = front' ++ behind' ∧ front.length = front'.length :=
    ⟨ls'.take front.length, ls'.drop front.length, (List.take_append_drop _ _).symm, by
      rw [List.length_take]
      omega⟩
  obtain ⟨⟨hlexemes, hgaps⟩, hstretches⟩ := h
  rw [List.zip_append hfront] at hgaps hstretches
  have htake := List.forall₂_take front.length hlexemes
  have hdrop := List.forall₂_drop front.length hlexemes
  rw [List.take_left, hfront, List.take_left] at htake
  rw [List.drop_left, hfront, List.drop_left] at hdrop
  refine ⟨front', behind', rfl, ⟨⟨htake, hgaps.left_of_append⟩, ?_⟩,
    ⟨⟨hdrop, hgaps.right_of_append⟩, ?_⟩⟩
  · exact fun first hfirst last hlast => hstretches first (List.mem_append_left _ hfirst) last
      (List.mem_append_left _ hlast)
  · exact fun first hfirst last hlast => hstretches first (List.mem_append_right _ hfirst) last
      (List.mem_append_right _ hlast)

end Pieces

/-! ## Texts of one piece

Two layouts of the same lexemes are compared: what an attribute is heard to say depends on the kinds
of the lexemes and on the stretches of script that they cite. -/

namespace ColumnDef

section Layouts

variable {p q : Layout} {ls rest : List Lexeme}
  (hkind : ∀ l, (p.place l).kind = (q.place l).kind)
  (hcite : ∀ first ∈ ls, ∀ last ∈ ls, p.cite first last = q.cite first last)
include hkind hcite

/-- One attribute is heard alike in both layouts. -/
theorem heard_lexemes_eq (hrest : rest ⊆ ls) (a : Attributes) (l : Lexeme) :
    heard p.script a (p.place l) (p.lexemes rest) =
      heard q.script a (q.place l) (q.lexemes rest) := by
  have hmarker : ∀ r : Layout,
      isNotNull (r.place l :: r.lexemes rest) = isNotNull (l :: rest) := by
    intro r
    simp [isNotNull, Layout.lexemes]
  -- The marker NOT NULL and the keyword are the same on both sides, which leaves the two attributes
  -- with a value: the comment and the default.
  rw [heard.eq_def, heard.eq_def, hmarker, hmarker, Lexeme.keyword_relabel, Lexeme.keyword_relabel]
  cases rest with
  | nil => rfl
  | cons first more =>
    have hvalue : ∀ r : Layout, valueText r.script (r.place first)
        (splitValue (r.place first) (r.lexemes more)).1 =
          String.ofList (r.cite first ((splitValue first more).1.getLastD first)) := by
      intro r
      rw [Layout.lexemes, splitValue_map]
      exact valueText_lexemes r first _
    have hstretch := hcite first (hrest List.mem_cons_self) _
      (hrest (getLastD_value_mem first more))
    simp only [Layout.lexemes_cons, hvalue, hstretch, hkind]

/-- So are all attributes from one place on. -/
theorem readAttributes_lexemes_eq (hrest : rest ⊆ ls) (a : Attributes) :
    readAttributes p.script a (p.lexemes rest) = readAttributes q.script a (q.lexemes rest) := by
  -- The induction runs along the places at which the reader looks for an attribute.
  fun_induction attributeStarts rest generalizing a with
  | case1 => rw [Layout.lexemes_nil, Layout.lexemes_nil, readAttributes, readAttributes]
  | case2 l rest ih =>
    have htail : rest ⊆ ls := List.Subset.trans (List.subset_cons_self l rest) hrest
    have hafter : afterAttribute l rest ⊆ ls :=
      List.Subset.trans (passed_afterAttribute l rest).suffix.subset htail
    have hstep : ∀ r : Layout, readAttributes r.script a (r.lexemes (l :: rest)) =
        readAttributes r.script (heard r.script a (r.place l) (r.lexemes rest))
          (r.lexemes (afterAttribute l rest)) := by
      intro r
      rw [Layout.lexemes_cons, readAttributes_step]
      exact congrArg _ (afterAttribute_map r.place l rest)
    rw [hstep, hstep, heard_lexemes_eq hkind hcite htail, ih hafter]

end Layouts

/-- The attributes of a copy say what those of the original say. -/
theorem readAttributes_eq_of_sameWriting {ls ls' : List Lexeme}
    (h : SameWriting script script' ls ls') (a : Attributes) :
    readAttributes script a ls = readAttributes script' a ls' := by
  have hkind : ∀ k, (placeIn ls k).kind = (placeIn ls' k).kind := fun k => by
    rw [kind_placeIn, kind_placeIn]
  have hplaces : ∀ k ∈ numbered ls, (placeIn ls k, placeIn ls' k) ∈ ls.zip ls' := by
    intro k hk
    rw [← map_placeIn_zip h.kinds]
    exact List.mem_map_of_mem hk
  have hcite : ∀ first ∈ numbered ls, ∀ last ∈ numbered ls,
      Layout.cite ⟨script, placeIn ls⟩ first last = Layout.cite ⟨script', placeIn ls'⟩ first last :=
    fun first hfirst last hlast => h.stretches _ (hplaces first hfirst) _ (hplaces last hlast)
  have hread := readAttributes_lexemes_eq (p := ⟨script, placeIn ls⟩) (q := ⟨script', placeIn ls'⟩)
    hkind hcite (List.Subset.refl (numbered ls)) a
  rwa [Layout.lexemes, Layout.lexemes, map_placeIn_self, h.map_right] at hread

end ColumnDef

/-! ## Parts of one kind

Where a name, a type and the attributes begin depends on the kinds of the lexemes alone. -/

/-- Lists of lexemes of the same kinds, wherever they stand. -/
def SameKinds (ls ls' : List Lexeme) : Prop :=
  List.Forall₂ (fun l l' => l.kind = l'.kind) ls ls'

/-- The number of lexemes of the type at the front. -/
def typeLength? : List Lexeme → Option Nat
  | [] => none
  | base :: rest => (TypeText.split? base rest).map fun found => found.1.length

/-- How far the type reaches does not change with the positions of the lexemes. -/
theorem typeLength?_map (r : Relabeling) (ls : List Lexeme) :
    typeLength? (ls.map r) = typeLength? ls := by
  cases ls with
  | nil => rfl
  | cons base rest =>
    rw [List.map_cons, typeLength?, typeLength?, TypeText.split?_map, Option.map_map]
    exact congrArg₂ Option.map (funext fun found => List.length_map ..) rfl

namespace SameKinds

variable {ls ls' front front' behind behind' : List Lexeme}

theorem length_eq (h : SameKinds ls ls') : ls.length = ls'.length :=
  List.Forall₂.length_eq h

theorem append (hfront : SameKinds front front') (hbehind : SameKinds behind behind') :
    SameKinds (front ++ behind) (front' ++ behind') :=
  List.rel_append hfront hbehind

/-- A name is spelled by the kinds of its lexemes. -/
theorem spelling {name : String} (h : SameKinds ls ls') (hname : Name.Spelling ls name) :
    Name.Spelling ls' name := by
  have hread := Name.read?_of_spelling hname []
  rw [List.append_nil] at hread
  -- the reader gives the name and how many lexemes are left, and both depend on the kinds alone
  have hsame : (Name.read? ls).map (Prod.map id List.length) =
      (Name.read? ls').map (Prod.map id List.length) :=
    eq_of_sameKinds (f := fun ls => (Name.read? ls).map (Prod.map id List.length)) (fun r ks => by
      rcases hks : Name.read? ks with _ | ⟨name, rest⟩ <;> simp [hks]) h
  rw [hread] at hsame
  obtain ⟨⟨name', rest⟩, hread', he⟩ := Option.map_eq_some_iff.mp hsame.symm
  obtain ⟨rfl, hrest⟩ := Prod.mk.inj he
  obtain rfl : rest = [] := List.eq_nil_of_length_eq_zero hrest
  obtain ⟨part, rfl, hpart⟩ := Name.read?_spelling hread'
  rwa [List.append_nil]

/-- A type ends at the same place in lexemes of the same kinds. -/
theorem split? {base base' : Lexeme} {words words' attributes attributes' : List Lexeme}
    (hbase : base.kind = base'.kind) (hwords : SameKinds words words')
    (hattributes : SameKinds attributes attributes')
    (h : TypeText.split? base (words ++ attributes) = some (base :: words, attributes)) :
    TypeText.split? base' (words' ++ attributes') = some (base' :: words', attributes') := by
  have hsame : typeLength? (base :: (words ++ attributes)) =
      typeLength? (base' :: (words' ++ attributes')) :=
    eq_of_sameKinds typeLength?_map (.cons hbase (hwords.append hattributes))
  rw [typeLength?, h, typeLength?] at hsame
  obtain ⟨⟨type', rest⟩, hsplit, hlength⟩ := Option.map_eq_some_iff.mp hsame.symm
  have hextent : base' :: words' ++ attributes' = type' ++ rest := TypeText.split?_extent hsplit
  have hwhole : (base' :: words').length = type'.length :=
    (SameKinds.length_eq (.cons hbase hwords)).symm.trans hlength.symm
  obtain ⟨rfl, rfl⟩ := List.append_inj hextent hwhole
  exact hsplit

/-- A place at which the reader looks for an attribute stays such a place. -/
theorem mem_attributeStarts (hfront : SameKinds front front') (hbehind : SameKinds behind behind')
    (h : behind ∈ ColumnDef.attributeStarts (front ++ behind)) :
    behind' ∈ ColumnDef.attributeStarts (front' ++ behind') := by
  -- the places are told by the number of lexemes behind them
  have hsame : (ColumnDef.attributeStarts (front ++ behind)).map List.length =
      (ColumnDef.attributeStarts (front' ++ behind')).map List.length :=
    eq_of_sameKinds (f := fun ls => (ColumnDef.attributeStarts ls).map List.length) (fun r ks => by
      simp only [ColumnDef.attributeStarts_map, List.map_map]
      exact congrArg₂ _ (funext fun ls => by simp) rfl) (hfront.append hbehind)
  have hlength := List.mem_map_of_mem (f := List.length) h
  rw [hsame] at hlength
  obtain ⟨start, hstart, he⟩ := List.mem_map.mp hlength
  obtain ⟨passed, happend⟩ := ColumnDef.suffix_of_mem_attributeStarts hstart
  obtain ⟨-, rfl⟩ := List.append_inj' happend (he.trans hbehind.length_eq)
  exact hstart

theorem keyword_getLast? (h : SameKinds ls ls') :
    ls.getLast?.map Lexeme.keyword = ls'.getLast?.map Lexeme.keyword :=
  eq_of_sameKinds (f := fun ls => ls.getLast?.map Lexeme.keyword) (fun r ks => by
    simp only [List.getLast?_map, Option.map_map]
    exact congrArg₂ _ (funext fun l => Lexeme.keyword_relabel r l) rfl) h

end SameKinds

namespace ColumnDef

/-- The parts of a definition are those of its copy. -/
theorem Parts.of_sameKinds {item part part' type type' attributes attributes' : List Lexeme}
    {name : String} (h : Parts item part type attributes name) (hpart : SameKinds part part')
    (htype : SameKinds type type') (hattributes : SameKinds attributes attributes') :
    Parts (part' ++ (type' ++ attributes')) part' type' attributes' name := by
  obtain ⟨hbalanced, rfl, hname, base, words, rfl, hbase, hsplit⟩ := h
  have hsame : SameKinds (part ++ (base :: words ++ attributes))
      (part' ++ (type' ++ attributes')) :=
    hpart.append (htype.append hattributes)
  refine ⟨?_, rfl, hpart.spelling hname, ?_⟩
  · exact (eq_of_sameKinds (fun r ks => Group.balanced_map r ks) hsame).symm.trans hbalanced
  · cases htype with
    | @cons _ base' _ words' hkind hwords =>
      have hkeyword : base'.keyword = base.keyword := by rw [Lexeme.keyword, Lexeme.keyword, hkind]
      exact ⟨base', words', rfl, hkeyword ▸ hbase,
        SameKinds.split? hkind hwords hattributes hsplit⟩

/-! ## Qualifiers put into a definition

Two steps meet here: a qualifier between two places of the same definition adds nothing, and either
side of it reads like the original it was copied from. -/

/-- The attributes with a qualifier between them are those of the original. -/
theorem readAttributes_transparent {qualifier front front' behind behind' : List Lexeme}
    (hqualifier : Qualifier qualifier) (hfront : SameWriting script script' front front')
    (hbehind : SameWriting script script' behind behind')
    (hclose : Group.AllClose (front ++ behind)) (hclose' : Group.AllClose (front' ++ behind'))
    (hstart : behind ∈ attributeStarts (front ++ behind))
    (hlast : behind = [] → ∀ l ∈ front.getLast?, l.keyword ≠ "DEFAULT") (a : Attributes) :
    readAttributes script' a (front' ++ (qualifier ++ behind')) =
      readAttributes script a (front ++ behind) := by
  have hstart' : behind' ∈ attributeStarts (front' ++ behind') :=
    SameKinds.mem_attributeStarts hfront.kinds hbehind.kinds hstart
  have hlast' : behind' = [] → ∀ l ∈ front'.getLast?, l.keyword ≠ "DEFAULT" := by
    rintro rfl l' hl' hdefault
    have hkeyword := SameKinds.keyword_getLast? hfront.kinds
    rw [hl', Option.map_some, hdefault] at hkeyword
    obtain ⟨l, hl, he⟩ := Option.map_eq_some_iff.mp hkeyword
    exact hlast (List.eq_nil_of_length_eq_zero hbehind.length_eq) l hl he
  obtain ⟨_, -, -, hresumes⟩ := exists_resumes hclose hstart hlast script a
  -- first the qualifier is taken out, then both sides are read in the original
  calc readAttributes script' a (front' ++ (qualifier ++ behind'))
      = readAttributes script' (readAttributes script' a front') behind' :=
        readAttributes_insert hqualifier hclose' hstart' hlast' script' a
    _ = readAttributes script (readAttributes script a front) behind := by
        rw [readAttributes_eq_of_sameWriting hfront, readAttributes_eq_of_sameWriting hbehind]
    _ = readAttributes script a (front ++ behind) :=
        hresumes.rest.symm

theorem Parts.allClose {item part type attributes : List Lexeme} {name : String}
    (h : Parts item part type attributes name) : Group.AllClose attributes :=
  (Group.allClose_of_balanced h.balanced).of_suffix ⟨part ++ type, by
    rw [List.append_assoc, h.split]⟩

/-- **Qualifiers are transparent.** A character set or a collation may be put in directly behind the
type, or wherever else the reader looks for an attribute, the end of the definition included. The
column that is read is the same, if what stands on either side is written as before. Only behind the
word `DEFAULT` a qualifier at the end would be its value.

The names of the key columns come from the body of the table and are given to the reader, the same
on both sides. -/
theorem qualifiers_transparent {keys : List String}
    {qualifier front front' behind behind' : List Lexeme} {column : Column}
    (hread : read script keys (front ++ behind) = .ok column)
    (hstart : behind ∈ attributeStarts (attributesOf (front ++ behind)))
    (hlast : behind = [] → ∀ l ∈ front.getLast?, l.keyword ≠ "DEFAULT")
    (hqualifier : Qualifier qualifier) (hfront : SameWriting script script' front front')
    (hbehind : SameWriting script script' behind behind') :
    read script' keys (front' ++ (qualifier ++ behind')) = .ok column := by
  obtain ⟨part, type, attributes, name, hparts⟩ := exists_parts_of_read hread
  have hcolumn : columnOf script keys name type attributes = column := by
    rw [hparts.read_eq] at hread
    exact Except.ok.inj hread
  rw [hparts.attributesOf_eq] at hstart
  -- The boundary cuts the attributes in two.
  obtain ⟨middle, rfl⟩ := suffix_of_mem_attributeStarts hstart
  obtain rfl : front = part ++ (type ++ middle) := by
    have hsplit := hparts.split
    rw [← List.append_assoc, ← List.append_assoc] at hsplit
    rw [← List.append_assoc]
    exact List.append_cancel_right hsplit
  obtain ⟨part', behindName, rfl, hpart, hmore⟩ := hfront.exists_append
  obtain ⟨type', middle', rfl, htype, hmiddle⟩ := hmore.exists_append
  have hparts' : Parts (part' ++ (type' ++ (middle' ++ behind'))) part' type' (middle' ++ behind')
      name :=
    hparts.of_sameKinds hpart.kinds htype.kinds (SameKinds.append hmiddle.kinds hbehind.kinds)
  have hlastMiddle : behind = [] → ∀ l ∈ middle.getLast?, l.keyword ≠ "DEFAULT" := by
    intro hnil l hl
    refine hlast hnil l ?_
    rw [List.getLast?_append, List.getLast?_append, hl]
    rfl
  have hattributes := readAttributes_transparent hqualifier hmiddle hbehind hparts.allClose
    hparts'.allClose hstart hlastMiddle {}
  have hread' := (hparts'.insert hqualifier).read_eq script' keys
  rw [columnOf, hattributes, ← htype.normalize_eq, ← columnOf, hcolumn] at hread'
  simpa only [List.append_assoc] using hread'

def plainColumn : String :=
  "a INT DEFAULT now() NOT NULL COMMENT 'x'"

/-- The same column, with a character set whose name is spelled like a keyword. -/
def qualifiedColumn : String :=
  "a INT DEFAULT now() CHARACTER SET DEFAULT NOT NULL COMMENT 'x'"

def plainFront : List Lexeme :=
  [⟨.word "a", 0, 1, 1⟩, ⟨.word "INT", 2, 5, 1⟩, ⟨.word "DEFAULT", 6, 13, 1⟩,
    ⟨.word "now", 14, 17, 1⟩, ⟨.punct .openParen, 17, 18, 1⟩, ⟨.punct .closeParen, 18, 19, 1⟩]

def plainBehind : List Lexeme :=
  [⟨.word "NOT", 20, 23, 1⟩, ⟨.word "NULL", 24, 28, 1⟩, ⟨.word "COMMENT", 29, 36, 1⟩,
    ⟨.literal "x" '\'', 37, 40, 1⟩]

def characterSet : List Lexeme :=
  [⟨.word "CHARACTER", 20, 29, 1⟩, ⟨.word "SET", 30, 33, 1⟩, ⟨.word "DEFAULT", 34, 41, 1⟩]

def movedBehind : List Lexeme :=
  [⟨.word "NOT", 42, 45, 1⟩, ⟨.word "NULL", 46, 50, 1⟩, ⟨.word "COMMENT", 51, 58, 1⟩,
    ⟨.literal "x" '\'', 59, 62, 1⟩]

/-- The argument `DEFAULT` gives no default, and it does not take the words behind it for one. -/
theorem qualifiers_transparent_characterSet :
    let column : Column := { name := "a", type := "INT", nullable := false, isPrimaryKey := true,
                             comment := "x", default? := some "now()" }
    Lexeme.ofScript Dialect.mysql plainColumn.toList.toArray = .ok (plainFront ++ plainBehind) ∧
      Lexeme.ofScript Dialect.mysql qualifiedColumn.toList.toArray =
        .ok (plainFront ++ (characterSet ++ movedBehind)) ∧
      read plainColumn.toList.toArray ["a"] (plainFront ++ plainBehind) = .ok column ∧
      read qualifiedColumn.toList.toArray ["a"] (plainFront ++ (characterSet ++ movedBehind)) =
        .ok column := by
  intro column
  have hread : read plainColumn.toList.toArray ["a"] (plainFront ++ plainBehind) = .ok column := by
    decide +kernel
  have hstart : plainBehind ∈ attributeStarts (attributesOf (plainFront ++ plainBehind)) := by
    decide +kernel
  have hqualifier : Qualifier characterSet :=
    .characterSet (by decide +kernel) (by decide +kernel) rfl
  have hfront : SameWriting plainColumn.toList.toArray qualifiedColumn.toList.toArray plainFront
      plainFront := ⟨⟨by decide +kernel, by decide +kernel⟩, by decide +kernel⟩
  have hbehind : SameWriting plainColumn.toList.toArray qualifiedColumn.toList.toArray plainBehind
      movedBehind := ⟨⟨by decide +kernel, by decide +kernel⟩, by decide +kernel⟩
  refine ⟨by decide +kernel, by decide +kernel, hread, ?_⟩
  exact qualifiers_transparent hread hstart (fun h => absurd h (by simp [plainBehind])) hqualifier
    hfront hbehind

end ColumnDef

end TableDocs.Sql
