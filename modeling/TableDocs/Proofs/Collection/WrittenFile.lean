import TableDocs.Collection.File
import TableDocs.Proofs.Collection.RoundTrip
import TableDocs.Proofs.Files.Utf8

/-!
# TableDocs — collections read back from files

Reading a file may change its line ends, and the only one that it changes is a carriage return. A
document never holds one, because the printer escapes it inside quotes and writes none itself.

* **`Json.carriageReturn_not_mem_print`** — what is printed holds no carriage return.
* **`Collection.ReadsDocuments.ofFile_of_find`** — so a file that holds the document of a collection
  gives that collection.
-/

namespace TableDocs

open TableDocs.Data
open TableDocs.Files

namespace Json

/-- The digits of an escape are letters and figures. -/
theorem hexDigit_ne_carriageReturn {n : Nat} (hn : n < 16) : hexDigit n ≠ '\r' := by
  have hall : ∀ n < 16, hexDigit n ≠ '\r' := by decide
  exact hall n hn

/-- A carriage return is escaped like every control character. -/
theorem carriageReturn_not_mem_escape (c : Char) : '\r' ∉ escape c := by
  rw [escape.eq_def]
  split
  iterate 7 decide
  · next hreturn _ _ _ =>
    split
    · next hcontrol =>
      have hhigh : '\r' ≠ hexDigit (c.toNat / 16) :=
        (hexDigit_ne_carriageReturn (by omega)).symm
      have hlow : '\r' ≠ hexDigit (c.toNat % 16) :=
        (hexDigit_ne_carriageReturn (by omega)).symm
      simp [hhigh, hlow]
    · rw [List.mem_singleton]
      exact fun h => hreturn h.symm

theorem carriageReturn_not_mem_quote (s : String) : '\r' ∉ quote s := by
  have hescaped : '\r' ∉ s.toList.flatMap escape := by
    rw [List.mem_flatMap]
    rintro ⟨c, -, hc⟩
    exact carriageReturn_not_mem_escape c hc
  simp [quote, hescaped]

/-- The printer ends its lines by a line feed alone. -/
theorem carriageReturn_not_mem_lineBreak (width : Int) (depth : Nat) :
    '\r' ∉ lineBreak width depth := by
  simp [lineBreak]

/-- A number is printed by a sign and decimal digits. -/
theorem carriageReturn_not_mem_printInt (n : Int) : '\r' ∉ printInt n := by
  have hdigits : ∀ k : Nat, '\r' ∉ Nat.toDigits 10 k := by
    intro k hk
    exact absurd (Token.isDigit_of_mem_digits hk) (by decide)
  cases n with
  | ofNat k =>
    rw [Int.ofNat_eq_natCast, Token.printInt_natCast]
    exact hdigits k
  | negSucc k =>
    rw [Token.printInt_negSucc, List.mem_cons]
    exact fun h => h.elim (by decide) (hdigits (k + 1))

section Lists

variable {width : Int}

theorem carriageReturn_not_mem_printItems {vs : List Value}
    (hvs : ∀ v ∈ vs, ∀ depth, '\r' ∉ print width depth v) (depth : Nat) :
    '\r' ∉ printItems width depth vs := by
  induction vs with
  | nil => simp [printItems]
  | cons v vs ih =>
    have hv := hvs v List.mem_cons_self depth
    have hrest := ih fun w hw => hvs w (List.mem_cons_of_mem v hw)
    simp [printItems, carriageReturn_not_mem_lineBreak, hv, hrest]

theorem carriageReturn_not_mem_printMembers {ms : List (String × Value)}
    (hms : ∀ m ∈ ms, ∀ depth, '\r' ∉ print width depth m.2) (depth : Nat) :
    '\r' ∉ printMembers width depth ms := by
  induction ms with
  | nil => simp [printMembers]
  | cons m ms ih =>
    have hm := hms m List.mem_cons_self depth
    have hrest := ih fun w hw => hms w (List.mem_cons_of_mem m hw)
    simp [printMembers, carriageReturn_not_mem_lineBreak, carriageReturn_not_mem_quote, hm, hrest]

/-- **No carriage return is printed.** -/
theorem carriageReturn_not_mem_print {v : Value} (hv : Faithful v) (depth : Nat) :
    '\r' ∉ print width depth v := by
  induction hv generalizing depth with
  -- Scalars by what is printed for them, lists and objects by their parts at any depth.
  | null => simp [print]
  | bool b => cases b <;> simp [print]
  | int n =>
    rw [print]
    exact carriageReturn_not_mem_printInt n
  | text s =>
    rw [print]
    exact carriageReturn_not_mem_quote s
  | @list vs hvs ih =>
    cases vs with
    | nil => simp [print]
    | cons v vs =>
      have hv := ih v List.mem_cons_self (depth + 1)
      have hrest := carriageReturn_not_mem_printItems
        (fun w hw => ih w (List.mem_cons_of_mem v hw)) (depth + 1)
      simp [print, carriageReturn_not_mem_lineBreak, hv, hrest]
  | @object ms hms ih =>
    cases ms with
    | nil => simp [print]
    | cons m ms =>
      have hm := ih m List.mem_cons_self (depth + 1)
      have hrest := carriageReturn_not_mem_printMembers
        (fun w hw => ih w (List.mem_cons_of_mem m hw)) (depth + 1)
      simp [print, carriageReturn_not_mem_lineBreak, carriageReturn_not_mem_quote, hm, hrest]

end Lists

end Json

namespace Collection

/-- So a document has no line ends but line feeds, which reading leaves as they are. -/
theorem carriageReturn_not_mem_toJson (indent : Int) (c : Collection) :
    '\r' ∉ (c.toJson indent).toList := by
  rw [toJson, String.toList_ofList, List.mem_append, List.mem_singleton]
  exact fun h => h.elim (Json.carriageReturn_not_mem_print c.faithful_toValue 0) (by decide)

/-- **A file with the document of a collection gives that collection.** -/
theorem ReadsDocuments.ofFile_of_find {parse? : Json.Parser} (hparse : ReadsDocuments parse?)
    {w : Workspace} {path : Path} {place : Place} {indent : Int} {c : Collection}
    (h : w.find path = .ok (place, .file (encodeUtf8 (c.toJson indent)))) :
    ofFile w path parse? = .ok c := by
  have hdecode : Encoding.utf8.decode (encodeUtf8 (c.toJson indent)) = .ok (c.toJson indent) := by
    rw [decode_encodeUtf8, unifyLineEnds_eq_self (carriageReturn_not_mem_toJson indent c),
      String.ofList_toList]
  have htext : w.readText .utf8 path = .ok (c.toJson indent) := by
    simp only [Workspace.readText, Workspace.readBytes, h, hdecode]
  simp only [ofFile, htext, hparse.load_toJson]

end Collection

end TableDocs
