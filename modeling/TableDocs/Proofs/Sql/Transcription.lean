import TableDocs.Proofs.Sql.LayoutIndependence

/-!
# TableDocs — the same text at another place

A stretch of a script can stand elsewhere, in the same script or in another one. Its lexemes then
have other offsets and lines, but what is written between two of them is the same.

* **`SameWriting`** — two stretches that are copies of each other.
* **`eq_of_sameKinds`** — whatever is the same for relabeled lexemes is the same for copies.
* **`SameWriting.read_eq`** — a column definition is read alike wherever it stands, its type and its
  default included.
-/

namespace TableDocs.Sql

/-- Two stretches of lexemes, each in its own script, that are written alike: they differ in layout
only, and between each two lexemes stands the same text. -/
structure SameWriting (script script' : Array Char) (ls ls' : List Lexeme) : Prop
    extends SameButLayout script script' ls ls' where
  stretches : ∀ first ∈ ls.zip ls', ∀ last ∈ ls.zip ls',
    slice script first.1.start last.1.stop = slice script' first.2.start last.2.stop

variable {script script' : Array Char} {ls ls' : List Lexeme}

/-- What does not depend on places is the same for lexemes of the same kinds. -/
theorem eq_of_sameKinds {α : Type} {f : List Lexeme → α}
    (hf : ∀ (r : Relabeling) (ks : List Lexeme), f (ks.map r) = f ks)
    (h : List.Forall₂ (fun l l' => l.kind = l'.kind) ls ls') : f ls = f ls' :=
  -- Both lists are relabelings of the numbered lexemes.
  calc f ls = f ((numbered ls).map (placeIn ls)) := by rw [map_placeIn_self]
    _ = f (numbered ls) := hf _ _
    _ = f ((numbered ls).map (placeIn ls')) := (hf _ _).symm
    _ = f ls' := by rw [map_placeIn_numbered h]

/-- **A definition is read alike wherever it stands.** -/
theorem SameWriting.read_eq (h : SameWriting script script' ls ls') (keys : List String) :
    ColumnDef.read script keys ls = ColumnDef.read script' keys ls' := by
  have hkind : ∀ k, (placeIn ls k).kind = (placeIn ls' k).kind := fun k => by
    rw [kind_placeIn, kind_placeIn]
  have hread := ColumnDef.read_agree keys h.sameText
  rw [Layout.lexemes, Layout.lexemes, map_placeIn_self, h.map_right] at hread
  rcases hread.exists_or_exists with ⟨cause, cause', hleft, hright, rfl⟩ |
    ⟨column, column', hleft, hright, hcolumn⟩
  · rw [hleft, hright]
  · -- Only the comment and the default are not yet known to be the same.
    have hcomment : column.comment = column'.comment := hcolumn.comment.eq hkind
    have hdefault : column.default? = column'.default? := by
      rcases hcolumn.default with ⟨hnone, hnone'⟩ | ⟨first, hfirst, last, hlast, hsome, hsome'⟩
      · rw [hnone, hnone']
      · have hplaces : ∀ k ∈ numbered ls, (placeIn ls k, placeIn ls' k) ∈ ls.zip ls' := by
          intro k hk
          rw [← map_placeIn_zip h.kinds]
          exact List.mem_map_of_mem hk
        have hstretch := h.stretches _ (hplaces first hfirst) _ (hplaces last hlast)
        rw [hsome, hsome']
        exact congrArg (some ∘ String.ofList) hstretch
    rw [hleft, hright]
    obtain ⟨name, type, nullable, isPrimaryKey, comment, default?⟩ := column
    obtain ⟨name', type', nullable', isPrimaryKey', comment', default?'⟩ := column'
    obtain ⟨rfl, rfl, rfl, rfl, -, -⟩ := hcolumn
    obtain rfl : comment = comment' := hcomment
    obtain rfl : default? = default?' := hdefault
    rfl

theorem successes_readItem (script : Array Char) (keys : List String) (item : List Lexeme)
    (results : List (Except Anomaly Column)) :
    successes (readItem script keys item :: results) =
      (ColumnDef.read script keys item).toOption.toList ++ successes results := by
  unfold readItem
  cases ColumnDef.read script keys item with
  | ok column => rfl
  | error cause => cases item <;> rfl

theorem columns_eq_of_sameWriting {items items' : List (List Lexeme)}
    (h : List.Forall₂ (SameWriting script script') items items') (keys : List String) :
    successes ((items.filter definesColumn).map (readItem script keys)) =
      successes ((items'.filter definesColumn).map (readItem script' keys)) := by
  induction h with
  | nil => rfl
  | @cons item item' items items' hitem _ ih =>
    -- whether an item defines a column is told by kinds alone
    have hdefines : definesColumn item = definesColumn item' :=
      eq_of_sameKinds (fun r ks => by simp [definesColumn]) hitem.kinds
    cases hcolumn : definesColumn item' with
    | false =>
      rw [List.filter_cons_of_neg (by simp [hdefines, hcolumn]),
        List.filter_cons_of_neg (by simp [hcolumn]), ih]
    | true =>
      rw [List.filter_cons_of_pos (by rw [hdefines, hcolumn]), List.filter_cons_of_pos hcolumn,
        List.map_cons, List.map_cons, successes_readItem, successes_readItem, hitem.read_eq, ih]

end TableDocs.Sql
