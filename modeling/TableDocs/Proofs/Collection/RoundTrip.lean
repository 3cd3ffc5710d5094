import Mathlib
import TableDocs.Collection.Document
import TableDocs.Collection.Loading
import TableDocs.Proofs.Data.Value
import TableDocs.Proofs.Json.RoundTrip
import TableDocs.Proofs.Validation.Checked

/-!
# TableDocs — loading what was written

The document of a collection is written with the names that its readers know and is read by the same
names; the totals are written and passed over.

* **`Collection.ofValue_toValue`** — checking the value of a collection finds no problem and gives
  the collection.
* **`Collection.ReadsDocuments`** — what is asked of a parser: that it takes documents for what they
  are. The parser of this library does, for no document is nested deeper than seven levels.
* **`Collection.load_toJson`** — so loading undoes writing, at every indentation.
* **`Collection.json_round_trip`** — what that means for the sources that a collection was made of.
-/

namespace TableDocs

open TableDocs.Data
open TableDocs.Validation

/-! ## Values that are printed as themselves

A document holds texts, truth values and totals, and nothing that the printer changes. -/

/-- A column is written as three texts and two truth values. -/
theorem ColumnDoc.faithful_toValue (c : ColumnDoc) : Json.Faithful c.toValue := by
  refine .object ?_
  intro m hm
  simp only [List.mem_cons, List.not_mem_nil, or_false] at hm
  rcases hm with rfl | rfl | rfl | rfl | rfl
  · exact .text c.name
  · exact .text c.type
  · exact .bool c.nullable
  · exact .bool c.isPrimaryKey
  · exact .text c.comment

/-- A list is printed as itself when each of its elements is. -/
theorem faithful_list_map {α : Type} {toValue : α → Value} (h : ∀ a, Json.Faithful (toValue a))
    (as : List α) : Json.Faithful (.list (as.map toValue)) := by
  refine .list ?_
  intro v hv
  obtain ⟨a, -, rfl⟩ := List.mem_map.mp hv
  exact h a

theorem TableDoc.faithful_toValue (t : TableDoc) : Json.Faithful t.toValue := by
  have hcolumns := faithful_list_map ColumnDoc.faithful_toValue t.columns
  refine .object ?_
  intro m hm
  simp only [List.mem_cons, List.not_mem_nil, or_false] at hm
  rcases hm with rfl | rfl | rfl
  · exact .text t.name
  · exact .text t.comment
  · exact hcolumns

theorem DatabaseDoc.faithful_toValue (d : DatabaseDoc) : Json.Faithful d.toValue := by
  have htables := faithful_list_map TableDoc.faithful_toValue d.tables
  refine .object ?_
  intro m hm
  simp only [List.mem_cons, List.not_mem_nil, or_false] at hm
  rcases hm with rfl | rfl
  · exact .text d.name
  · exact htables

/-- A whole document is printed as itself; its totals are integers. -/
theorem Collection.faithful_toValue (c : Collection) : Json.Faithful c.toValue := by
  have hdatabases := faithful_list_map DatabaseDoc.faithful_toValue c.databases
  refine .object ?_
  intro m hm
  simp only [List.mem_cons, List.not_mem_nil, or_false] at hm
  rcases hm with rfl | rfl | rfl
  · exact hdatabases
  · exact .int c.totalDatabases
  · exact .int c.totalTables

/-! ## Values that are nested seven levels at most

There are four levels of objects with three levels of lists between them, so a parser with a limit
on nesting lets every document pass. -/

/-- A list is one level deeper than the deepest of its elements. -/
theorem nesting_list_map_le {α : Type} {toValue : α → Value} {n : Nat}
    (h : ∀ a, (toValue a).nesting ≤ n) (as : List α) :
    (Value.list (as.map toValue)).nesting ≤ n + 1 := by
  refine Value.nesting_list_le fun v hv => ?_
  obtain ⟨a, -, rfl⟩ := List.mem_map.mp hv
  exact h a

theorem ColumnDoc.nesting_toValue_le (c : ColumnDoc) : c.toValue.nesting ≤ 1 := by
  refine Value.nesting_object_le fun m hm => ?_
  simp only [List.mem_cons, List.not_mem_nil, or_false] at hm
  rcases hm with rfl | rfl | rfl | rfl | rfl <;> exact Nat.le_refl 0

theorem TableDoc.nesting_toValue_le (t : TableDoc) : t.toValue.nesting ≤ 3 := by
  have hcolumns := nesting_list_map_le ColumnDoc.nesting_toValue_le t.columns
  refine Value.nesting_object_le fun m hm => ?_
  simp only [List.mem_cons, List.not_mem_nil, or_false] at hm
  rcases hm with rfl | rfl | rfl
  · exact Nat.zero_le _
  · exact Nat.zero_le _
  · exact hcolumns

theorem DatabaseDoc.nesting_toValue_le (d : DatabaseDoc) : d.toValue.nesting ≤ 5 := by
  have htables := nesting_list_map_le TableDoc.nesting_toValue_le d.tables
  refine Value.nesting_object_le fun m hm => ?_
  simp only [List.mem_cons, List.not_mem_nil, or_false] at hm
  rcases hm with rfl | rfl
  · exact Nat.zero_le _
  · exact htables

/-- Databases, tables and columns are three lists and, with the document, four objects. -/
theorem Collection.nesting_toValue_le (c : Collection) : c.toValue.nesting ≤ 7 := by
  have hdatabases := nesting_list_map_le DatabaseDoc.nesting_toValue_le c.databases
  refine Value.nesting_object_le fun m hm => ?_
  simp only [List.mem_cons, List.not_mem_nil, or_false] at hm
  rcases hm with rfl | rfl | rfl
  · exact hdatabases
  · exact Nat.zero_le _
  · exact Nat.zero_le _

/-! ## Values that pass their checks

The check of an object looks each member up by name and puts the problems of all of them together.
On the value of a document every look-up finds its member, so only the lists are left, one for each
level. -/

/-- A column has no list, and its check computes. -/
theorem ColumnDoc.check_toValue (c : ColumnDoc) :
    asObject .document "ColumnDoc" ColumnDoc.ofMembers c.toValue = .valid c := by
  rfl

theorem TableDoc.check_toValue (t : TableDoc) :
    asObject .document "TableDoc" (TableDoc.ofMembers .document) t.toValue = .valid t := by
  have hcolumns := asList_map ColumnDoc.check_toValue .document t.columns
  -- the members are found by name and the texts among them pass, which leaves the list
  show Checked.andThen (.valid (TableDoc.mk t.name t.comment))
    ((asList .document (asObject .document "ColumnDoc" ColumnDoc.ofMembers)
      (.list (t.columns.map ColumnDoc.toValue))).under (.key "columns")) = _
  rw [hcolumns]
  rfl

theorem DatabaseDoc.check_toValue (d : DatabaseDoc) :
    asObject .document "DatabaseDoc" (DatabaseDoc.ofMembers .document) d.toValue = .valid d := by
  have htables := asList_map TableDoc.check_toValue .document d.tables
  show Checked.andThen (.valid (DatabaseDoc.mk d.name))
    ((asList .document (asObject .document "TableDoc" (TableDoc.ofMembers .document))
      (.list (d.tables.map TableDoc.toValue))).under (.key "tables")) = _
  rw [htables]
  rfl

namespace Collection

/-- The value of a collection has no problem, and it is checked into that collection. The totals
stand in it and are passed over. -/
theorem ofValue_toValue (c : Collection) : ofValue c.toValue = .valid c := by
  have hdatabases := asList_map DatabaseDoc.check_toValue .document c.databases
  show (((asList .document (asObject .document "DatabaseDoc" (DatabaseDoc.ofMembers .document))
    (.list (c.databases.map DatabaseDoc.toValue))).under (.key "databases")).map mk) = _
  rw [hdatabases]
  rfl

/-! ## Documents

What was printed is parsed as the value that was printed, and that value passes its check. Only the
parser is asked for anything here, so the law holds of each parser that knows documents. -/

/-- The grammar of JSON, without a limit on nesting, reads every document as its value. -/
theorem read?_toJson (indent : Int) (c : Collection) :
    Json.read? (c.toJson indent).toList = some c.toValue := by
  rw [toJson, String.toList_ofList]
  exact Json.read?_print c.faithful_toValue indent

/-- A parser that takes the documents of collections for what they are. -/
structure ReadsDocuments (parse? : Json.Parser) : Prop where
  parse?_toJson : ∀ indent (c : Collection), parse? (c.toJson indent).toList = some c.toValue

/-- The parser of this library is one. -/
theorem readsDocuments_parse? : ReadsDocuments Json.parse? where
  parse?_toJson := by
    intro indent c
    -- no document comes near the limit of the parser
    have hlimit : c.toValue.nesting ≤ Json.mostNested :=
      Nat.le_trans c.nesting_toValue_le (by decide)
    rw [Json.parse?, read?_toJson, Option.filter_some, if_pos (decide_eq_true hlimit)]

/-- **Loading undoes writing.** -/
theorem ReadsDocuments.load_toJson {parse? : Json.Parser} (h : ReadsDocuments parse?) (indent : Int)
    (c : Collection) : load (c.toJson indent) parse? = .ok c := by
  rw [load, h.parse?_toJson]
  simp only
  rw [ofValue_toValue]

theorem load_toJson (indent : Int) (c : Collection) : load (c.toJson indent) = .ok c :=
  readsDocuments_parse?.load_toJson indent c

end Collection

/-! ## Sources

A collection is made of its sources one by one: no source is lost, none is merged with another, and
nothing of a column is changed. -/

/-- A documented column says what the column of the source says. -/
structure ColumnDoc.Documents (d : ColumnDoc) (c : Sql.Column) : Prop where
  name_eq : d.name = c.name
  type_eq : d.type = c.type
  nullable_eq : d.nullable = c.nullable
  isPrimaryKey_eq : d.isPrimaryKey = c.isPrimaryKey
  comment_eq : d.comment = c.comment

/-- A documented table has the columns of the source's table, in order. -/
structure TableDoc.Documents (d : TableDoc) (t : Sql.Table) : Prop where
  name_eq : d.name = t.name
  comment_eq : d.comment = t.comment
  columns : List.Forall₂ ColumnDoc.Documents d.columns t.columns

/-- A documented database has the tables of the source, in order. -/
structure DatabaseDoc.Documents (d : DatabaseDoc) (source : String × List Sql.Table) : Prop where
  name_eq : d.name = source.1
  tables : List.Forall₂ TableDoc.Documents d.tables source.2

theorem forall₂_map_self {α β : Type} {R : β → α → Prop} {f : α → β} (h : ∀ a, R (f a) a)
    (as : List α) : List.Forall₂ R (as.map f) as :=
  List.forall₂_map_left_iff.mpr (List.forall₂_same.mpr fun a _ => h a)

theorem ColumnDoc.documents_ofColumn (c : Sql.Column) : (ColumnDoc.ofColumn c).Documents c :=
  ⟨rfl, rfl, rfl, rfl, rfl⟩

theorem TableDoc.documents_ofTable (t : Sql.Table) : (TableDoc.ofTable t).Documents t :=
  ⟨rfl, rfl, forall₂_map_self ColumnDoc.documents_ofColumn t.columns⟩

namespace Collection

/-- Each source has its database at the same place in the collection. -/
theorem documents_ofSources (sources : List (String × List Sql.Table)) :
    List.Forall₂ DatabaseDoc.Documents (ofSources sources).databases sources := by
  refine forall₂_map_self ?_ sources
  rintro ⟨name, tables⟩
  exact ⟨rfl, forall₂_map_self TableDoc.documents_ofTable tables⟩

theorem totalDatabases_ofSources (sources : List (String × List Sql.Table)) :
    (ofSources sources).totalDatabases = sources.length :=
  List.length_map _

/-- The total counts the tables of every source, those of equal names included. -/
theorem totalTables_ofSources (sources : List (String × List Sql.Table)) :
    (ofSources sources).totalTables = (sources.map fun source => source.2.length).sum := by
  rw [totalTables, List.length_flatMap, ofSources]
  simp only [List.map_map, Function.comp_def, List.length_map]

/-- **The round trip of a collection.** The document of any sources, written at any indentation,
loads as the collection that was written, which holds the sources one by one in order. It is a JSON
text whose totals are the number of sources and of their tables; and writing a collection that was
loaded, from whatever text, and loading it again changes nothing. -/
theorem json_round_trip (sources : List (String × List Sql.Table)) (indent : Int) :
    load ((ofSources sources).toJson indent) = .ok (ofSources sources) ∧
      List.Forall₂ DatabaseDoc.Documents (ofSources sources).databases sources ∧
      (∃ members, Json.read? ((ofSources sources).toJson indent).toList = some (.object members) ∧
        Value.member? members "totalDatabases" = some (.int sources.length) ∧
        Value.member? members "totalTables" =
          some (.int ((sources.map fun source => source.2.length).sum : Nat))) ∧
      ∀ text c, load text = .ok c → load (c.toJson indent) = .ok c := by
  refine ⟨load_toJson indent _, documents_ofSources sources, ?_, ?_⟩
  · refine ⟨_, read?_toJson indent (ofSources sources), ?_, ?_⟩
    -- the totals are members of the document, computed when it is made
    · rw [← totalDatabases_ofSources]
      rfl
    · rw [← totalTables_ofSources]
      rfl
  · intro text c _
    exact load_toJson indent c

end Collection

end TableDocs
