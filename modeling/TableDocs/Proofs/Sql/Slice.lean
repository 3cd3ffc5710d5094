import TableDocs.Sql.Lexeme

/-!
# TableDocs — stretches of a script

A slice of a script is a list of characters. It is told by the characters at its positions, slices
of a slice are slices of the script, and neighbouring slices join.
-/

namespace TableDocs.Sql

/-- A slice as a part of the list of characters, which is how its lemmas are proved. -/
theorem slice_eq_take (script : Array Char) (start stop : Nat) :
    slice script start stop = (script.toList.drop start).take (stop - start) := by
  rw [slice, Array.toList_extract, List.extract_eq_take_drop]

/-- Between two different positions inside the script there is a character. -/
theorem slice_ne_nil {script : Array Char} {start stop : Nat} (hstart : start < stop)
    (hstop : stop ≤ script.size) : slice script start stop ≠ [] := by
  refine List.ne_nil_of_length_pos ?_
  rw [slice, Array.length_toList, Array.size_extract]
  omega

/-- A slice has no more characters than its positions allow. -/
theorem length_slice_le (script : Array Char) {start stop : Nat} (h : start ≤ stop) :
    start + (slice script start stop).length ≤ stop := by
  rw [slice_eq_take]
  have hlength := List.length_take_le (stop - start) (script.toList.drop start)
  omega

/-- The character at a position of a slice. -/
theorem getElem?_slice {script : Array Char} {start stop i : Nat} (hstart : start ≤ i)
    (hstop : i < stop) : (slice script start stop)[i - start]? = script[i]? := by
  have hcount : i - start < stop - start := by omega
  rw [slice_eq_take, List.getElem?_take_of_lt hcount, List.getElem?_drop,
    Nat.add_sub_cancel' hstart, Array.getElem?_toList]

/-- A slice of a slice is the slice at the positions moved along. -/
theorem slice_slice {script : Array Char} {offset limit start stop : Nat}
    (h : stop ≤ (slice script offset limit).length) :
    slice (slice script offset limit).toArray start stop =
      slice script (start + offset) (stop + offset) := by
  rw [slice_eq_take script, List.length_take] at h
  -- the inner slice ends before the outer one does, so the outer end drops out
  have hcount : min (stop - start) (limit - offset - start) = stop + offset - (start + offset) := by
    omega
  rw [slice_eq_take, slice_eq_take script, slice_eq_take script, List.drop_take, List.take_take,
    List.drop_drop, hcount, Nat.add_comm start]

/-- Neighbours join without a seam. -/
theorem slice_append {script : Array Char} {start middle stop : Nat} (h : start ≤ middle)
    (h' : middle ≤ stop) :
    slice script start middle ++ slice script middle stop = slice script start stop := by
  have hlength : stop - start = middle - start + (stop - middle) := by omega
  rw [slice_eq_take, slice_eq_take, slice_eq_take, hlength, List.take_add, List.drop_drop,
    Nat.add_sub_cancel' h]

/-- A text that stands at a position is the slice of its length there. -/
theorem slice_of_drop {script : Array Char} {start : Nat} {text behind : List Char}
    (h : script.toList.drop start = text ++ behind) :
    slice script start (start + text.length) = text := by
  rw [slice_eq_take, h, Nat.add_sub_cancel_left, List.take_left]

/-- What stands behind such a text is what the script has left there. -/
theorem drop_of_drop {script : Array Char} {start : Nat} {text behind : List Char}
    (h : script.toList.drop start = text ++ behind) :
    script.toList.drop (start + text.length) = behind := by
  rw [← List.drop_drop, h, List.drop_left]

end TableDocs.Sql
