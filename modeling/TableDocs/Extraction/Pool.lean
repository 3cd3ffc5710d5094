/-!
# TableDocs — a pool of workers

Jobs wait in a line, and at most a given number of them are under way at a time. Which job under way
finishes next is for a schedule to say. However the jobs finish, their results are handed over in
the order of the jobs.
-/

namespace TableDocs.Extraction

/-- Says which job finishes next: its position among the jobs under way when so many jobs are left.
Positions count round. -/
structure Schedule where
  pick : (left : Nat) → Nat

namespace Schedule

/-- The job that has been under way for the longest time finishes first. -/
def inOrder : Schedule := ⟨fun _ => 0⟩

end Schedule

namespace Pool

/-- The job under way that finishes next. -/
def position (schedule : Schedule) {α : Type} (active waiting : List α) : Nat :=
  schedule.pick (active.length + waiting.length) % active.length

theorem position_lt (schedule : Schedule) {α : Type} {active : List α} (waiting : List α)
    (h : active ≠ []) : position schedule active waiting < active.length :=
  Nat.mod_lt _ (List.length_pos_iff.2 h)

/-- The order in which jobs finish: some are under way, and the others wait in line. A job that
finishes makes room for the first that waits. -/
def finishing {α : Type} (schedule : Schedule) (active waiting : List α) : List α :=
  if h : active = [] then []
  else
    let next := position schedule active waiting
    active.get ⟨next, position_lt schedule waiting h⟩ ::
      finishing schedule (active.eraseIdx next ++ waiting.take 1) (waiting.drop 1)
termination_by active.length + waiting.length
decreasing_by
  have hlt := position_lt schedule waiting h
  simp only [List.length_append, List.length_eraseIdx, List.length_take, List.length_drop]
  split <;> omega

/-- Numbers jobs and lists the numbers in the order in which a pool of workers finishes them. -/
def finishingNumbers (schedule : Schedule) (workers count : Nat) : List Nat :=
  let numbers := List.range count
  finishing schedule (numbers.take workers) (numbers.drop workers)

/-- Runs jobs in a pool: the results with the numbers of their jobs, as the jobs finish. -/
def run {α β : Type} (schedule : Schedule) (workers : Nat) (job : α → β) (inputs : List α) :
    List (Nat × β) :=
  (finishingNumbers schedule workers inputs.length).filterMap fun n =>
    inputs[n]?.map fun input => (n, job input)

/-- Results in the order of their jobs. -/
def gather {β : Type} (count : Nat) (results : List (Nat × β)) : List β :=
  (List.range count).filterMap fun n => List.lookup n results

end Pool

end TableDocs.Extraction
