import TableDocs.CommandLine.Command

/-!
# TableDocs — how a command concludes

A command goes from step to step until one fails. Its last steps are to write a document, to log
that and to say so, line by line. What it leaves is settled by then: a line that the console does
not take changes its result, but not the files.

* **`CommandRun.result_andThen`**, **`CommandRun.tree_andThen`** — steps that follow each other.
* **`Concludes`** — a run whose files are those of a write, and whose result is that of the write as
  long as the console takes what it says.
* **`concludes_finish`** — every document that is finished is such a run.
* **`finishExtract_cases`** — an extraction breaks off before it writes anything, or it concludes
  with the document of its report.
-/

namespace TableDocs.CommandLine

open TableDocs.Files

/-- The console takes every line. -/
def Surroundings.Heard (s : Surroundings) : Prop :=
  ∀ line, s.consoleFault line = none

/-- Every text has bytes in UTF-8, as it does when all names of files are texts. -/
def Surroundings.Encodes (s : Surroundings) : Prop :=
  ∀ text, s.encodeFault text = none

/-! ## One step after the other

A command that goes on behind a fault would hide it. So the next step runs only behind one that
succeeded, on the tree that it left. -/

namespace CommandRun

variable {first next : CommandRun}

/-- A fault ends the command. -/
theorem andThen_of_error {fault : Fault} (h : first.result = .error fault) :
    first.andThen next = first := by
  rw [andThen, h]

theorem result_andThen (h : first.result = .ok ()) : (first.andThen next).result = next.result := by
  rw [andThen, h]

theorem tree_andThen (h : first.result = .ok ()) : (first.andThen next).tree = next.tree := by
  rw [andThen, h]

end CommandRun

variable {w : Workspace} {s : Surroundings} {output text : String} {tree : Tree}

/-- Lines change no files. -/
theorem tree_say (lines : List String) : (say s tree lines).tree = tree := by
  induction lines with
  | nil => rfl
  | cons line lines ih =>
    rw [say]
    cases s.consoleFault line with
    | some report => rfl
    | none => exact (CommandRun.tree_andThen rfl).trans ih

/-- A line that is heard has no fault. -/
theorem result_say (hheard : s.Heard) (lines : List String) :
    (say s tree lines).result = .ok () := by
  induction lines with
  | nil => rfl
  | cons line lines ih =>
    rw [say, hheard line]
    exact (CommandRun.result_andThen rfl).trans ih

/-! ## Behind the write

Once there is an attempt to write the document, nothing but the console stands between the result of
the write and that of the command. -/

/-- A run that leaves the files of a write. It succeeds only if the write does, and then does so
unless there is a line that the console does not take. -/
structure Concludes (s : Surroundings) (done : CommandRun) (written : Except Fault Unit × Tree) :
    Prop where
  tree_eq : done.tree = written.2
  written_ok : done.result = .ok () → written.1 = .ok ()
  of_heard : s.Heard → done.result = written.1

theorem Concludes.eq_of_heard {done : CommandRun} {written : Except Fault Unit × Tree}
    (h : Concludes s done written) (hheard : s.Heard) : (done.result, done.tree) = written :=
  Prod.ext (h.of_heard hheard) h.tree_eq

/-- Steps in front of a run that do not fail leave its conclusion as it is. -/
theorem Concludes.behind {first done : CommandRun} {written : Except Fault Unit × Tree}
    (h : Concludes s done written) (hfirst : first.result = .ok ()) :
    Concludes s (first.andThen done) written where
  tree_eq := (CommandRun.tree_andThen hfirst).trans h.tree_eq
  written_ok hok := h.written_ok ((CommandRun.result_andThen hfirst).symm.trans hok)
  of_heard hheard := (CommandRun.result_andThen hfirst).trans (h.of_heard hheard)

/-- **A document that is finished** leaves the files of its write. -/
theorem concludes_finish (w : Workspace) (s : Surroundings) (output text : String)
    (record : Log.Record) (lines : List String) :
    Concludes s (finish w s output text record lines) (writeDocument w s output text) := by
  rw [finish]
  cases hwritten : writeDocument w s output text with
  | mk result tree =>
    simp only
    cases result with
    | error fault => exact ⟨rfl, id, fun _ => rfl⟩
    | ok =>
      have hsaid : Concludes s (say s tree lines) (.ok (), tree) :=
        ⟨tree_say lines, fun _ => rfl, fun hheard => result_say hheard lines⟩
      exact (hsaid.behind rfl).behind rfl

/-- When every text has bytes, a document is written like any other text. -/
theorem writeDocument_of_encodes (hencodes : s.Encodes) :
    writeDocument w s output text = writeOutput w s output text := by
  rw [writeDocument, hencodes text]

/-! ## Extractions

An extraction writes its document and then says what it did. Both parts are told apart here, since
only the first one changes the tree. -/

/-- A run that breaks off before it writes anything. -/
structure BreaksOff (w : Workspace) (done : CommandRun) : Prop where
  fails : ∃ fault, done.result = .error fault
  tree_eq : done.tree = w.tree

/-- **How an extraction goes on** when its directory has been read: without a report it breaks off,
and so it does if already its first line is not taken; else it concludes with the document. -/
theorem finishExtract_cases (w : Workspace) (s : Surroundings) (format : Settings.Output)
    (input output : String)
    (extracted : Log.Logged (Except Extraction.DirectoryFault Extraction.Report)) :
    (BreaksOff w (finishExtract w s format input output extracted) ∧
        (s.Heard → ∃ fault, extracted.value = .error fault)) ∨
      ∃ report, extracted.value = .ok report ∧
        Concludes s (finishExtract w s format input output extracted)
          (writeDocument w s output (report.collection.toJson format.indent)) := by
  rw [finishExtract]
  -- the first line is said, then the extraction has its value, then the document is written
  cases hsaid : (say s w.tree ["Extracting schema sources from: " ++ input]).result with
  | error fault =>
    rw [CommandRun.andThen_of_error hsaid]
    refine .inl ⟨⟨⟨fault, hsaid⟩, tree_say _⟩, fun hheard => ?_⟩
    exact absurd (hsaid.symm.trans (result_say hheard _)) (by simp)
  | ok =>
    cases hvalue : extracted.value with
    | error fault =>
      have hbreaks : BreaksOff w
          ((say s w.tree ["Extracting schema sources from: " ++ input]).andThen
            ⟨.error (.ofDirectory (.ofString input) fault), [], extracted.records, w.tree⟩) :=
        ⟨⟨_, CommandRun.result_andThen hsaid⟩, CommandRun.tree_andThen hsaid⟩
      exact .inl ⟨hbreaks, fun _ => ⟨fault, rfl⟩⟩
    | ok report =>
      exact .inr ⟨report, rfl, ((concludes_finish w s output _ _ _).behind rfl).behind hsaid⟩

/-- When the console takes every line, an extraction with a report is the write of its document. -/
theorem finishExtract_of_heard (hheard : s.Heard) {format : Settings.Output} {input : String}
    {extracted : Log.Logged (Except Extraction.DirectoryFault Extraction.Report)}
    {report : Extraction.Report} (hreport : extracted.value = .ok report) :
    ((finishExtract w s format input output extracted).result,
        (finishExtract w s format input output extracted).tree) =
      writeDocument w s output (report.collection.toJson format.indent) := by
  rcases finishExtract_cases w s format input output extracted with
    ⟨-, hnone⟩ | ⟨report', hreport', hconcludes⟩
  · obtain ⟨fault, herror⟩ := hnone hheard
    exact absurd (hreport.symm.trans herror) (by simp)
  · cases hreport.symm.trans hreport'
    exact hconcludes.eq_of_heard hheard

end TableDocs.CommandLine
