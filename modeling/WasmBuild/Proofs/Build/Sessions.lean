import WasmBuild.Build.Session

/-!
# What a task remembers

However a session has gone, the state of its task is told by the latest build, and by nothing that
was asked for besides. Leaving out all that only looks leaves the same builds, the same steps and
the same session.
-/
namespace WasmBuild.Build

namespace TaskState

/-- The state after the result of the latest build, if there was one. -/
def updated (before : TaskState) : Option (Except Failure Outcome) → TaskState
  | none => before
  | some (.ok _) => done
  | some (.error _) => aborted

variable (before : TaskState) {latest : Option (Except Failure Outcome)}

theorem updated_run (run : Run Outcome) : before.updated (some run.result) = run.state := by
  unfold Run.state
  cases run.result <;> rfl

/-- Of two results the later one counts. -/
theorem updated_updated (first second : Option (Except Failure Outcome)) :
    (before.updated first).updated second = before.updated (second.or first) := by
  cases second with
  | none => rfl
  | some result => cases result <;> rfl

theorem updated_eq_notStarted_iff : notStarted.updated latest = notStarted ↔ latest = none := by
  cases latest with
  | none => exact iff_of_true rfl rfl
  | some result => cases result <;> simp [updated]

theorem updated_eq_done_iff :
    notStarted.updated latest = done ↔ ∃ outcome, latest = some (.ok outcome) := by
  cases latest with
  | none => simp [updated]
  | some result => cases result <;> simp [updated]

theorem updated_eq_aborted_iff :
    notStarted.updated latest = aborted ↔ ∃ failure, latest = some (.error failure) := by
  cases latest with
  | none => simp [updated]
  | some result => cases result <;> simp [updated]

end TaskState

namespace Session

variable (compiler : Compiler) (session : Session)

def buildResults (history : List Happening) : List (Except Failure Outcome) :=
  (session.responses compiler history).filterMap (·.answer.result?)

def steps (history : List Happening) : List Step :=
  (session.responses compiler history).flatMap Response.steps

/-- The result of the build that something leads to, if it does. -/
def result? (happening : Happening) : Option (Except Failure Outcome) :=
  (session.response? compiler happening).bind (·.answer.result?)

theorem after_cons (happening : Happening) (rest : List Happening) :
    session.after compiler (happening :: rest) =
      (session.next compiler happening).after compiler rest := rfl

theorem buildResults_cons (happening : Happening) (rest : List Happening) :
    session.buildResults compiler (happening :: rest) =
      (session.result? compiler happening).toList ++
        (session.next compiler happening).buildResults compiler rest := by
  rw [buildResults, responses, List.filterMap_append, result?, buildResults]
  congr 1
  cases session.response? compiler happening with
  | none => rfl
  | some response => cases result : response.answer.result? <;> simp [result]

theorem steps_cons (happening : Happening) (rest : List Happening) :
    session.steps compiler (happening :: rest) =
      (session.response? compiler happening).toList.flatMap Response.steps ++
        (session.next compiler happening).steps compiler rest := by
  rw [steps, responses, List.flatMap_append, steps]

theorem result?_eq_none_iff {happening : Happening} :
    session.result? compiler happening = none ↔
      ∀ project toolchain, happening ≠ .asked (.build project toolchain) := by
  cases happening with
  | changed tree clockMs detailed => simp [result?, response?]
  | asked operation => cases operation <;> simp [result?, response?, perform, Answer.result?]

/-- An operation that looks has no steps and leaves the session as it is. -/
theorem perform_looking {operation : Operation} (looks : operation.looks = true) :
    (session.perform compiler operation).steps = [] ∧
      (session.perform compiler operation).session = session := by
  cases operation with
  | build project toolchain => contradiction
  | needsBuild project | clean project | results project => exact ⟨rfl, rfl⟩

theorem next_looking {happening : Happening} (looks : happening.looks = true) :
    session.next compiler happening = session ∧ session.result? compiler happening = none ∧
      (session.response? compiler happening).toList.flatMap Response.steps = [] := by
  cases happening with
  | changed tree clockMs detailed => contradiction
  | asked operation =>
      obtain ⟨silent, kept⟩ := perform_looking compiler session looks
      refine ⟨kept, ?_, by simpa [response?] using silent⟩
      rw [result?_eq_none_iff]
      rintro project toolchain ⟨⟩
      contradiction

/-- What happens updates the state by the build that it leads to. -/
theorem state_next (happening : Happening) :
    (session.next compiler happening).task.state =
      session.task.state.updated (session.result? compiler happening) := by
  cases happening with
  | changed tree clockMs detailed => rfl
  | asked operation =>
      cases operation with
      | build project toolchain => exact (TaskState.updated_run _ _).symm
      | needsBuild project | clean project | results project => rfl

variable {compiler session}

/-- All that happens updates the state by the latest build. -/
theorem state_after (history : List Happening) :
    (session.after compiler history).task.state =
      session.task.state.updated (session.buildResults compiler history).getLast? := by
  induction history generalizing session with
  | nil => rfl
  | cons happening rest ih =>
      rw [after_cons, ih, state_next, TaskState.updated_updated, buildResults_cons,
        List.getLast?_append]
      congr 2
      cases session.result? compiler happening <;> rfl

theorem buildResults_eq_nil_iff {history : List Happening} :
    session.buildResults compiler history = [] ↔
      ∀ project toolchain, .asked (.build project toolchain) ∉ history := by
  induction history generalizing session with
  | nil => exact iff_of_true rfl fun _ _ => List.not_mem_nil
  | cons happening rest ih =>
      rw [buildResults_cons, List.append_eq_nil_iff, Option.toList_eq_nil_iff, result?_eq_none_iff,
        ih]
      simp only [List.mem_cons, not_or, forall_and, ne_comm, ne_eq]

/-- Leaving out what only looks leaves the same session, the same steps and the same builds. -/
theorem after_filter_looks (history : List Happening) :
    let building := history.filter (!·.looks)
    session.after compiler building = session.after compiler history ∧
      session.steps compiler building = session.steps compiler history ∧
      session.buildResults compiler building = session.buildResults compiler history := by
  induction history generalizing session with
  | nil => exact ⟨rfl, rfl, rfl⟩
  | cons happening rest ih =>
      cases looks : happening.looks with
      | true =>
          obtain ⟨kept, unbuilt, silent⟩ := next_looking compiler session looks
          rw [List.filter_cons_of_neg (by simp [looks]), after_cons, steps_cons, buildResults_cons,
            kept, unbuilt, silent]
          exact ih
      | false =>
          obtain ⟨after, steps, results⟩ := @ih (session.next compiler happening)
          rw [List.filter_cons_of_pos (by simp [looks])]
          simp only [after_cons, steps_cons, buildResults_cons, after, steps, results, and_self]

end Session

/-- However a task was used, its state is that of the latest build: it has not started exactly if no
build was asked for, it is done exactly if the latest build succeeded, and aborted exactly if that
one failed. Asking whether a build is needed, cleaning and listing results report nothing, call
nothing and leave the task and its world as they are, at any time. So it makes no difference to
leave them out of the history. A build is always needed. -/
theorem session_state (compiler : Compiler) (world : World) (detailed : Bool)
    (history : List Happening) :
    let start := Session.start world detailed
    let session := start.after compiler history
    let latest := (start.buildResults compiler history).getLast?
    (session.task.state = .notStarted ↔
      ∀ project toolchain, .asked (.build project toolchain) ∉ history) ∧
    (session.task.state = .done ↔ ∃ outcome, latest = some (.ok outcome)) ∧
    (session.task.state = .aborted ↔ ∃ failure, latest = some (.error failure)) ∧
    (∀ operation : Operation, operation.looks = true →
      (session.perform compiler operation).steps = [] ∧
        (session.perform compiler operation).session = session) ∧
    (∀ project, ∃ check, (session.perform compiler (.needsBuild project)).answer = .checked check ∧
      check.required = true) ∧
    let building := history.filter (!·.looks)
    start.after compiler building = session ∧
      start.steps compiler building = start.steps compiler history ∧
      start.buildResults compiler building = start.buildResults compiler history := by
  intro start session latest
  have state : session.task.state = TaskState.notStarted.updated latest :=
    Session.state_after history
  have unbuilt : latest = none ↔ ∀ project toolchain, .asked (.build project toolchain) ∉ history :=
    List.getLast?_eq_none_iff.trans Session.buildResults_eq_nil_iff
  rw [state]
  exact ⟨TaskState.updated_eq_notStarted_iff.trans unbuilt, TaskState.updated_eq_done_iff,
    TaskState.updated_eq_aborted_iff, fun operation => Session.perform_looking compiler session,
    fun project => ⟨_, rfl, rfl⟩, Session.after_filter_looks history⟩

end WasmBuild.Build
