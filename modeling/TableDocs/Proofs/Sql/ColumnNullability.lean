import TableDocs.Proofs.Sql.ColumnExtent

/-!
# TableDocs — which columns take null values

A column takes no null values when its definition says `NOT NULL` behind its type and outside
parentheses. The reader comes close to that, and this module says how close:

* **`nullable_readAttributes`** — the reader goes by the places at which it looks for an attribute:
  the column takes no null values exactly when `NOT NULL` stands at one of them.
* **`nullable_exact`** — for every definition that can be read, which `NOT NULL` is heard and which
  is not. A definition is misread in two ways only: it says `NOT NULL` inside the parentheses of an
  attribute that the reader does not know, or every `NOT NULL` that it says outside parentheses is
  taken for the argument of a keyword.
-/

namespace TableDocs.Sql.ColumnDef

/-- **Which attributes are heard.** -/
theorem nullable_readAttributes (script : Array Char) (a : Attributes) (ls : List Lexeme) :
    (readAttributes script a ls).nullable = false ↔
      a.nullable = false ∨ ∃ s ∈ attributeStarts ls, isNotNull s = true := by
  fun_induction attributeStarts ls generalizing a with
  | case1 =>
    rw [readAttributes]
    simp [isNotNull]
  | case2 l rest ih =>
    rw [readAttributes_step, ih, nullable_heard, List.exists_mem_cons_iff, Bool.and_eq_false_iff,
      Bool.not_eq_false', or_assoc]

/-! ## Places behind the type -/

/-- The number of lexemes up to the end of the type. -/
def typeEnd (item : List Lexeme) : Nat :=
  item.length - (attributesOf item).length

/-- The words `NOT NULL` stand at an index behind the type. -/
def MarkerAt (item : List Lexeme) (i : Nat) : Prop :=
  typeEnd item ≤ i ∧ isNotNull (item.drop i) = true

instance (item : List Lexeme) (i : Nat) : Decidable (MarkerAt item i) := by
  unfold MarkerAt
  infer_instance

/-- The definition says `NOT NULL` outside parentheses. -/
def HasMarker (item : List Lexeme) : Prop :=
  ∃ i < item.length, MarkerAt item i ∧ Group.depth (item.take i) = 0

/-- It says so in a place that is not the argument of a keyword. -/
def HasFreeMarker (item : List Lexeme) : Prop :=
  ∃ i < item.length, MarkerAt item i ∧ Group.depth (item.take i) = 0 ∧
    ¬ IsArgument (attributesOf item) (item.drop i)

/-- It says `NOT NULL` inside parentheses, at a place where an attribute is looked for. -/
def HasStrayMarker (item : List Lexeme) : Prop :=
  ∃ i < item.length, MarkerAt item i ∧ 0 < Group.depth (item.take i) ∧
    item.drop i ∈ attributeStarts (attributesOf item)

instance (item : List Lexeme) : Decidable (HasMarker item) := by
  unfold HasMarker
  infer_instance

instance (item : List Lexeme) : Decidable (HasFreeMarker item) := by
  unfold HasFreeMarker
  infer_instance

instance (item : List Lexeme) : Decidable (HasStrayMarker item) := by
  unfold HasStrayMarker
  infer_instance

theorem keywordAt_of_isNotNull {ls : List Lexeme} (h : isNotNull ls = true) :
    Lexeme.keywordAt ls = "NOT" := by
  cases ls with
  | nil => exact absurd h (by decide)
  | cons l rest => exact of_decide_eq_true (Bool.and_eq_true_iff.mp h).1

theorem ne_nil_of_isNotNull {ls : List Lexeme} (h : isNotNull ls = true) : ls ≠ [] := by
  rintro rfl
  exact absurd h (by decide)

section Item

variable {item head : List Lexeme}

theorem typeEnd_of_split (h : item = head ++ attributesOf item) : typeEnd item = head.length := by
  have := congrArg List.length h
  rw [List.length_append] at this
  rw [typeEnd]
  omega

theorem attributesOf_split (h : item = head ++ attributesOf item) {i : Nat}
    (hi : typeEnd item ≤ i) :
    ∃ front, item.take i = head ++ front ∧ attributesOf item = front ++ item.drop i := by
  rw [typeEnd_of_split h] at hi
  have htake : item.take i = head ++ (attributesOf item).take (i - head.length) := by
    calc item.take i = (head ++ attributesOf item).take i := by rw [← h]
      _ = head ++ (attributesOf item).take (i - head.length) := by
        rw [List.take_append, List.take_of_length_le hi]
  have hdrop : item.drop i = (attributesOf item).drop (i - head.length) := by
    calc item.drop i = (head ++ attributesOf item).drop i := by rw [← h]
      _ = (attributesOf item).drop (i - head.length) := by
        rw [List.drop_append, List.drop_eq_nil_of_le hi, List.nil_append]
  exact ⟨_, htake, by rw [hdrop, List.take_append_drop]⟩

theorem index_of_attributeStart (h : item = head ++ attributesOf item) {s : List Lexeme}
    (hs : s ∈ attributeStarts (attributesOf item)) (hne : s ≠ []) :
    ∃ i < item.length, typeEnd item ≤ i ∧ item.drop i = s := by
  obtain ⟨front, hfront⟩ := suffix_of_mem_attributeStarts hs
  have hpos : 0 < s.length := List.length_pos_of_ne_nil hne
  have hitem : (head ++ front) ++ s = item := by rw [List.append_assoc, hfront, ← h]
  have hlen : (head ++ front).length + s.length = item.length := by
    rw [← List.length_append, hitem]
  refine ⟨(head ++ front).length, by omega, ?_, ?_⟩
  · rw [typeEnd_of_split h, List.length_append]
    omega
  · show item.drop (head ++ front).length = s
    rw [← hitem]
    exact List.drop_left

/-- Outside parentheses a word `NOT` is heard unless it is an argument. -/
theorem mem_attributeStarts_iff (hbalanced : Group.balanced item = true)
    (h : item = head ++ attributesOf item) {i : Nat} (hi : MarkerAt item i)
    (hdepth : Group.depth (item.take i) = 0) :
    item.drop i ∈ attributeStarts (attributesOf item) ↔
      ¬ IsArgument (attributesOf item) (item.drop i) := by
  obtain ⟨htype, hmarker⟩ := hi
  obtain ⟨front, htake, hattributes⟩ := attributesOf_split h htype
  have hbelow : Group.NeverBelow (0 + Group.depth head) (attributesOf item) :=
    (h ▸ (Group.balanced_iff.mp hbalanced).1).of_append_right
  constructor
  · intro hstart hargument
    exact not_mem_attributeStarts_of_isArgument hargument (ne_nil_of_isNotNull hmarker) hstart
  · intro hfree
    have hnot := keywordAt_of_isNotNull hmarker
    -- a lexeme of the attributes starts one, is the argument of one, or lies inside a group
    rcases start_or_argument_or_inside hattributes hnot hbelow with hstart | hargument | hinside
    · exact hstart
    · exact absurd hargument hfree
    · rw [htake, Group.depth_append] at hdepth
      omega

end Item

/-- **Which columns take null values.** A column takes none exactly when its definition says
`NOT NULL` outside parentheses in a place that is no argument, or inside parentheses in a place
where an attribute is looked for. So its flag disagrees with what the definition says outside
parentheses exactly in the two cases of the second part. -/
theorem nullable_exact {script : Array Char} {keys : List String} {item : List Lexeme}
    {column : Column} (h : read script keys item = .ok column) :
    (column.nullable = false ↔ HasFreeMarker item ∨ HasStrayMarker item) ∧
      (¬ (column.nullable = false ↔ HasMarker item) ↔
        (HasStrayMarker item ∧ ¬ HasMarker item) ∨
          (HasMarker item ∧ ¬ HasFreeMarker item ∧ ¬ HasStrayMarker item)) := by
  obtain ⟨hbalanced, part, type, hitem, -, -, -, hnullable, -⟩ := read_ok h
  have heard : column.nullable = false ↔ HasFreeMarker item ∨ HasStrayMarker item := by
    rw [hnullable, nullable_readAttributes]
    constructor
    · rintro (hdefault | ⟨s, hs, hmarker⟩)
      · exact absurd hdefault (by decide)
      · obtain ⟨i, hi, htype, rfl⟩ := index_of_attributeStart hitem hs (ne_nil_of_isNotNull hmarker)
        have hdepth : 0 ≤ 0 + Group.depth (item.take i) :=
          (Group.balanced_iff.mp hbalanced).1 _ (List.take_prefix i item)
        -- parentheses balance, so the depth is not below zero at any place
        rcases Int.lt_or_eq_of_le hdepth with hinside | houtside
        · exact .inr ⟨i, hi, ⟨htype, hmarker⟩, by omega, hs⟩
        · have houtside : Group.depth (item.take i) = 0 := by omega
          have hfree := (mem_attributeStarts_iff hbalanced hitem ⟨htype, hmarker⟩ houtside).mp hs
          exact .inl ⟨i, hi, ⟨htype, hmarker⟩, houtside, hfree⟩
    · rintro (⟨i, -, hmarker, houtside, hfree⟩ | ⟨i, -, hmarker, -, hs⟩)
      · have hs := (mem_attributeStarts_iff hbalanced hitem hmarker houtside).mpr hfree
        exact .inr ⟨_, hs, hmarker.2⟩
      · exact .inr ⟨_, hs, hmarker.2⟩
  have free_marker : HasFreeMarker item → HasMarker item := by
    rintro ⟨i, hi, hmarker, houtside, -⟩
    exact ⟨i, hi, hmarker, houtside⟩
  -- a free marker is a marker, and the second part is the first one turned around
  refine ⟨heard, ?_⟩
  rw [heard]
  tauto

/-- A column that checks its own value, which may be null. -/
def checkedItem : List Lexeme :=
  [⟨.word "x", 0, 1, 1⟩, ⟨.word "INT", 2, 5, 1⟩, ⟨.word "CHECK", 6, 11, 1⟩,
    ⟨.punct .openParen, 12, 13, 1⟩, ⟨.word "x", 13, 14, 1⟩, ⟨.word "IS", 15, 17, 1⟩,
    ⟨.word "NOT", 18, 21, 1⟩, ⟨.word "NULL", 22, 26, 1⟩, ⟨.punct .closeParen, 26, 27, 1⟩]

/-- A column whose `NOT NULL` stands behind the last word of a foreign key clause. -/
def referringItem : List Lexeme :=
  [⟨.word "x", 0, 1, 1⟩, ⟨.word "INT", 2, 5, 1⟩, ⟨.word "REFERENCES", 6, 16, 1⟩,
    ⟨.word "t", 17, 18, 1⟩, ⟨.punct .openParen, 19, 20, 1⟩, ⟨.word "id", 20, 22, 1⟩,
    ⟨.punct .closeParen, 22, 23, 1⟩, ⟨.word "ON", 24, 26, 1⟩, ⟨.word "DELETE", 27, 33, 1⟩,
    ⟨.word "SET", 34, 37, 1⟩, ⟨.word "DEFAULT", 38, 45, 1⟩, ⟨.word "NOT", 46, 49, 1⟩,
    ⟨.word "NULL", 50, 54, 1⟩]

theorem nullable_misread :
    let checked := "x INT CHECK (x IS NOT NULL)".toList.toArray
    let referring := "x INT REFERENCES t (id) ON DELETE SET DEFAULT NOT NULL".toList.toArray
    Lexeme.ofScript Dialect.mysql checked = .ok checkedItem ∧
      Lexeme.ofScript Dialect.mysql referring = .ok referringItem ∧
      (∃ column, read checked [] checkedItem = .ok column ∧ column.nullable = false ∧
        ¬ HasMarker checkedItem) ∧
      ∃ column, read referring [] referringItem = .ok column ∧ ¬ column.nullable = false ∧
        HasMarker referringItem := by
  intro checked referring
  have hchecked : read checked [] checkedItem =
      .ok { name := "x", type := "INT", nullable := false } := by decide +kernel
  have hreferring : read referring [] referringItem =
      .ok { name := "x", type := "INT", default? := some "NOT" } := by decide +kernel
  refine ⟨by decide +kernel, by decide +kernel, ⟨_, hchecked, ?_, ?_⟩, ⟨_, hreferring, ?_, ?_⟩⟩
  · exact (nullable_exact hchecked).1.mpr (.inr (by decide +kernel))
  · decide +kernel
  · intro hfalse
    have hheard := (nullable_exact hreferring).1.mp hfalse
    exact absurd hheard (by decide +kernel)
  · decide +kernel

end TableDocs.Sql.ColumnDef
