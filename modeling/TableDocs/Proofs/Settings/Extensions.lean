import TableDocs.Proofs.Text.LowerCase
import TableDocs.Proofs.Validation.Checked
import TableDocs.Settings.Reading

/-!
# TableDocs — the suffixes of sources

Settings hold suffixes in one form, whatever form they were given in: with a dot in front, in lower
case and without blanks around them. Each text that is not blank is given that form, in order, and a
suffix that has it stays as it is.

* **`suffixFor`**, **`extension?_eq`** — the suffix that a text asks for.
* **`IsExtension`** — the form.
* **`asExtensions_eq_valid_iff`** — what a list of suffixes is read as.
* **`asExtensions_of_forall`** — a list of suffixes in that form is read as it is.
-/

namespace TableDocs.Settings

open TableDocs.Data
open TableDocs.Validation

variable {text e : String} {extensions : List String} {v : Value}

/-! ## One suffix

A text is trimmed, put into lower case and given a dot, in this order. Lower case brings no blank to
either end and is reached in one step, so doing all of it again changes nothing. -/

/-- A text behind a dot, which it may have already. -/
def withDot (suffix : String) : String :=
  if suffix.toList.head? = some '.' then suffix else "." ++ suffix

/-- The suffix that a text asks for. -/
def suffixFor (text : String) : String :=
  withDot (Text.lower (Text.trim text))

/-- The form of suffixes. -/
structure IsExtension (e : String) : Prop where
  dotted : e.toList.head? = some '.'
  lower_eq : Text.lower e = e
  trim_eq : Text.trim e = e

/-- The dot is put in front unless it is there. -/
theorem toList_withDot (suffix : String) :
    (withDot suffix).toList =
      if suffix.toList.head? = some '.' then suffix.toList else '.' :: suffix.toList := by
  rw [withDot]
  split
  · rfl
  · rw [String.toList_append]
    rfl

/-- Lower case makes no text empty. -/
theorem lower_trim_eq_nil_iff :
    (Text.lower (Text.trim text)).toList = [] ↔ Text.trim text = "" := by
  have hlowers := Text.lowersTo_lowerFrom [] (Text.trim text).toList
  rw [Text.lower, String.toList_ofList, hlowers.eq_nil_iff, String.toList_eq_nil_iff]

/-- A text names a suffix if it is not blank. -/
theorem extension?_eq (text : String) :
    extension? text = if Text.trim text = "" then none else some (suffixFor text) := by
  rw [suffixFor, ← String.ofList_toList (s := withDot _), toList_withDot, extension?]
  simp only [← lower_trim_eq_nil_iff]
  generalize (Text.lower (Text.trim text)).toList = lowered
  split
  · rfl
  · rfl
  · next hnil hdot =>
    rw [if_neg hnil, if_neg]
    intro hhead
    obtain ⟨rest, hrest⟩ := List.head?_eq_some_iff.mp hhead
    exact hdot rest hrest

/-- A text in lower case without blanks at its ends is a suffix when it starts with a dot. -/
theorem IsExtension.of_lowered {cs : List Char} (hdot : cs.head? = some '.')
    (hlowered : ∀ c ∈ cs, Text.Lowered c) (htrimmed : Text.Trimmed Text.isBlank cs) :
    IsExtension (String.ofList cs) where
  dotted := by rw [String.toList_ofList, hdot]
  lower_eq := by rw [Text.lower, String.toList_ofList, Text.lowerFrom_of_lowered hlowered]
  trim_eq := by rw [Text.trim, String.toList_ofList, htrimmed.trimWhere_eq]

/-- The suffix that a text asks for has the form. -/
theorem isExtension_suffixFor (h : Text.trim text ≠ "") : IsExtension (suffixFor text) := by
  have hlowers := Text.lowersTo_lowerFrom [] (Text.trim text).toList
  have hlower : (Text.lower (Text.trim text)).toList =
      Text.lowerFrom [] (Text.trim text).toList := by
    rw [Text.lower, String.toList_ofList]
  -- no blank at the ends of the trimmed text, so none at the ends of its lower case
  have htrimmed := hlowers.trimmed <| by
    rw [Text.trim, String.toList_ofList]
    exact Text.trimmed_trimWhere _ _
  rw [← hlower] at hlowers htrimmed
  have hne : (Text.lower (Text.trim text)).toList ≠ [] := by
    rwa [Ne, lower_trim_eq_nil_iff]
  rw [suffixFor, ← String.ofList_toList (s := withDot _), toList_withDot]
  split
  · next hdot => exact .of_lowered hdot (fun _ hc => hlowers.lowered_of_mem hc) htrimmed
  · refine .of_lowered rfl ?_ ⟨?_, ?_⟩
    · have hdot : Text.Lowered '.' := by decide
      exact List.forall_mem_cons.mpr ⟨hdot, fun _ hc => hlowers.lowered_of_mem hc⟩
    · rintro c ⟨⟩
      decide
    · rw [List.getLast?_cons_of_ne_nil hne]
      exact htrimmed.last

/-- A suffix that has the form asks for itself. -/
theorem IsExtension.suffixFor_eq (h : IsExtension e) : suffixFor e = e := by
  rw [suffixFor, h.trim_eq, h.lower_eq, withDot, if_pos h.dotted]

theorem IsExtension.ne_empty (h : IsExtension e) : e ≠ "" := by
  rintro rfl
  exact absurd h.dotted (by simp)

/-! ## Lists of suffixes

Blank texts are passed over, and a list with no other ones is refused, so a list of suffixes is
never empty. -/

/-- A list of texts is read as these texts. -/
theorem asTexts_eq_valid_iff {origin : Origin} {texts : List String} :
    asList origin asText v = .valid texts ↔ v = .list (texts.map .text) := by
  rw [asList_eq_valid_iff]
  simp only [asText_eq_valid_iff, ← List.forall₂_map_right_iff, List.forall₂_eq_eq_eq]
  exact exists_eq_right

/-- **A list of suffixes** names the suffixes of its texts that are not blank, in order. -/
theorem asExtensions_eq_valid_iff : asExtensions v = .valid extensions ↔
    ∃ texts : List String, v = .list (texts.map .text) ∧
      extensions = (texts.filter fun text => Text.trim text ≠ "").map suffixFor ∧
      extensions ≠ [] := by
  -- to drop the blank texts and to give the others their form is the same in either order
  have hsuffixes : ∀ texts : List String, texts.filterMap extension? =
      (texts.filter fun text => Text.trim text ≠ "").map suffixFor := by
    intro texts
    rw [← List.filterMap_eq_map, List.filterMap_filter]
    refine List.filterMap_congr fun text _ => ?_
    rw [extension?_eq]
    by_cases h : Text.trim text = "" <;> simp [h]
  rw [asExtensions, Checked.bind_eq_valid_iff]
  simp only [asTexts_eq_valid_iff, hsuffixes]
  refine exists_congr fun texts => and_congr_right fun _ => ?_
  cases (texts.filter fun text => Text.trim text ≠ "").map suffixFor with
  | nil => simp
  | cons e es =>
    simp only [Checked.valid.injEq]
    constructor
    · rintro rfl
      exact ⟨rfl, List.cons_ne_nil e es⟩
    · rintro ⟨rfl, -⟩
      rfl

/-- Each suffix that was read has the form. -/
theorem isExtension_of_asExtensions (h : asExtensions v = .valid extensions) (he : e ∈ extensions) :
    IsExtension e := by
  obtain ⟨texts, -, rfl, -⟩ := asExtensions_eq_valid_iff.mp h
  obtain ⟨text, htext, rfl⟩ := List.mem_map.mp he
  exact isExtension_suffixFor (of_decide_eq_true (List.mem_filter.mp htext).2)

/-- **Suffixes that have their form are read as they are.** -/
theorem asExtensions_of_forall (hne : extensions ≠ []) (h : ∀ e ∈ extensions, IsExtension e) :
    asExtensions (.list (extensions.map .text)) = .valid extensions := by
  have hkept : extensions.filter (fun e => Text.trim e ≠ "") = extensions := by
    refine List.filter_eq_self.mpr fun e he => decide_eq_true ?_
    rw [(h e he).trim_eq]
    exact (h e he).ne_empty
  refine asExtensions_eq_valid_iff.mpr ⟨extensions, rfl, ?_, hne⟩
  rw [hkept, List.map_congr_left fun e he => (h e he).suffixFor_eq, List.map_id']

end TableDocs.Settings
