import WasmBuild.Program.Run
import WasmBuild.Proofs.Report.EventLine

/-!
# What error reports say

A complaint in any contexts is told by what it is without them: the failure behind them all is found
through every one, so code and advice stay the same, and the contexts stand in front of the message.
The message leads to the failure, and an error of the file system is told once more behind the
failure that carries it. The report for people and the report for programs have the same message and
the same advice.
-/
namespace WasmBuild.Report

/-- Contexts in front of a text, the outermost first, each followed by a colon. -/
def leadIn (contexts : List String) : String := String.join (contexts.reverse.map (· ++ ": "))

theorem leadIn_append_singleton (contexts : List String) (context : String) :
    leadIn (contexts ++ [context]) = context ++ ": " ++ leadIn contexts := by
  simp [leadIn]

def adviceLine (help? : Option String) : String :=
  match help? with
  | some help => "  help: " ++ help ++ "\n"
  | none => ""

/-- Only an error of the file system lies beneath its failure. -/
theorem cause?_eq_none_iff (failure : Failure) :
    failure.cause? = none ↔ ∀ error, failure ≠ .io error := by
  cases failure <;> simp [Failure.cause?]

theorem message_io (error : FileError) :
    (Failure.io error).message = "IO error: " ++ error.message := rfl

namespace Complaint

/-- A complaint in some contexts, which are listed from the innermost outwards. -/
def inContexts (complaint : Complaint) (contexts : List String) : Complaint :=
  contexts.foldl within complaint

@[simp] theorem inContexts_nil (complaint : Complaint) : complaint.inContexts [] = complaint := rfl

@[simp] theorem inContexts_concat (complaint : Complaint) (contexts : List String)
    (context : String) :
    complaint.inContexts (contexts ++ [context]) =
      (complaint.inContexts contexts).within context := by
  simp [inContexts]

/-- The failure is found through any contexts. -/
@[simp] theorem failure?_inContexts (complaint : Complaint) (contexts : List String) :
    (complaint.inContexts contexts).failure? = complaint.failure? := by
  induction contexts using List.reverseRecOn with
  | nil => rfl
  | append_singleton contexts context ih => rw [inContexts_concat, failure?, ih]

theorem code_inContexts (complaint : Complaint) (contexts : List String) :
    (complaint.inContexts contexts).code = complaint.code := by
  rw [code, failure?_inContexts, code]

theorem help?_inContexts (complaint : Complaint) (contexts : List String) :
    (complaint.inContexts contexts).help? = complaint.help? := by
  rw [help?, failure?_inContexts, help?]

theorem help?_failure (f : Failure) : (failure f).help? = f.help? := rfl

theorem chain_ne_nil (complaint : Complaint) : complaint.chain ≠ [] := by
  cases complaint <;> exact List.cons_ne_nil _ _

theorem message_within (complaint : Complaint) (context : String) :
    (complaint.within context).message = context ++ ": " ++ complaint.message := by
  rw [message, chain, String.intercalate_cons_of_ne_nil complaint.chain_ne_nil, message]

/-- Contexts stand in front of a message and do not change it. -/
theorem message_inContexts (complaint : Complaint) (contexts : List String) :
    (complaint.inContexts contexts).message = leadIn contexts ++ complaint.message := by
  induction contexts using List.reverseRecOn with
  | nil => simp [leadIn]
  | append_singleton contexts context ih =>
      rw [inContexts_concat, message_within, ih, leadIn_append_singleton]
      simp only [String.append_assoc]

/-- The message of a failure leads over its contexts to the failure and to what lies beneath it. -/
theorem message_failure (f : Failure) (contexts : List String) :
    ((failure f).inContexts contexts).message = leadIn contexts ++ f.message ++
      match f.cause? with
      | some cause => ": " ++ cause
      | none => "" := by
  rw [message_inContexts, message, chain, String.append_assoc]
  cases f.cause? <;> simp [String.append_assoc]

theorem text_eq (complaint : Complaint) : complaint.text =
    "[ERROR] " ++ complaint.message ++ "\n" ++ adviceLine complaint.help? := rfl

end Complaint

/-- The report of a failure in which every text stands once: the contexts from the outermost
inwards, the failure, and its advice. -/
def plainReport (contexts : List String) (failure : Failure) : String :=
  "[ERROR] " ++ leadIn contexts ++ failure.message ++ "\n" ++ adviceLine failure.help?

/-- The report of a failure in any contexts tells every text once, unless the failure is an error of
the file system. This one is told a second time, behind the text that holds it already. -/
theorem text_eq_plainReport_iff (failure : Failure) (contexts : List String) :
    (((Complaint.failure failure).inContexts contexts).text = plainReport contexts failure ↔
      ∀ error, failure ≠ .io error) ∧
    ∀ error, ((Complaint.failure (.io error)).inContexts contexts).text =
      "[ERROR] " ++ leadIn contexts ++ "IO error: " ++ error.message ++ ": " ++ error.message ++
        "\n" := by
  have twice (error : FileError) : ((Complaint.failure (.io error)).inContexts contexts).text =
      "[ERROR] " ++ leadIn contexts ++ "IO error: " ++ error.message ++ ": " ++ error.message ++
        "\n" := by
    rw [Complaint.text_eq, Complaint.message_failure]
    simp only [Failure.cause?, message_io, Complaint.help?_failure, Failure.help?, adviceLine,
      String.append_assoc, String.append_empty, Complaint.help?_inContexts]
  refine ⟨?_, twice⟩
  rw [← cause?_eq_none_iff]
  constructor
  · intro once
    cases failure with
    | io error =>
        -- The second telling makes the report longer.
        rw [twice error] at once
        have lengths := congrArg String.length once
        simp only [plainReport, message_io, Failure.help?, adviceLine, String.append_empty,
          String.length_append] at lengths
        have colon : (": " : String).length = 2 := rfl
        omega
    | unsupportedExtension | missingToolchain | compileFailure | invalidManifest | noProjects
    | unknownProject => rfl
  · intro alone
    rw [Complaint.text_eq, Complaint.message_failure, alone, plainReport]
    simp only [Complaint.help?_inContexts, Complaint.help?_failure, String.append_empty,
      String.append_assoc]

/-- A manifest that is missing is said to be missing twice. -/
theorem missing_manifest_told_twice :
    let failure : Failure := .io .notFound
    let contexts := ["failed to load manifest emproj.toml"]
    ((Complaint.failure failure).inContexts contexts).text ≠ plainReport contexts failure ∧
      plainReport contexts failure = "[ERROR] failed to load manifest emproj.toml: IO error: " ++
        "No such file or directory (os error 2)\n" ∧
      ((Complaint.failure failure).inContexts contexts).text =
        "[ERROR] failed to load manifest emproj.toml: IO error: " ++
          "No such file or directory (os error 2): No such file or directory (os error 2)\n" := by
  decide +kernel

open Program in
/-- A complaint is told in the same words to people and to programs, with the same advice, whatever
contexts it arose in: they stand in front of its message and change nothing else. Its code and
advice are those of the failure behind all contexts, and anything that is no failure has the code
`error` and no advice. To programs the complaint is one event on a line of standard output and
nothing on standard error. -/
theorem reports_agree (innermost : Complaint) (contexts : List String) (env : Environment) :
    let complaint := innermost.inContexts contexts
    let code := match innermost with
      | .failure failure => failure.code
      | .other _ => "error"
      | .within inner _ => inner.code
    let help? := match innermost with
      | .failure failure => failure.help?
      | .other _ => none
      | .within inner _ => inner.help?
    let forPrograms := reportComplaint true env complaint
    let forPeople := reportComplaint false env complaint
    complaint.message = leadIn contexts ++ innermost.message ∧
      (∃ line, complaint.event.line = .ok line ∧
        Event.ofStream? (Utf8.encode line) = some [.error code complaint.message help?] ∧
        String.join (forPrograms.map Action.stdout) = line ∧
        String.join (forPrograms.map Action.stderr) = "") ∧
      complaint.text = "[ERROR] " ++ complaint.message ++ "\n" ++ adviceLine help? ∧
      String.join (forPeople.map Action.stderr) = complaint.text := by
  intro complaint code help? forPrograms forPeople
  have sameCode : complaint.code = code := by
    rw [Complaint.code_inContexts]
    cases innermost <;> rfl
  have advice : complaint.help? = help? := by
    rw [Complaint.help?_inContexts]
    cases innermost <;> rfl
  have event : complaint.event = .error code complaint.message help? := by
    rw [Complaint.event, sameCode, advice]
  obtain ⟨line, written⟩ := complaint.exists_line
  have alone : forPrograms = [.emit complaint.event] := by
    simp only [forPrograms, reportComplaint, if_pos, emitIfWritable, written]
  refine ⟨Complaint.message_inContexts innermost contexts, ⟨line, written, ?_, ?_, ?_⟩, ?_, ?_⟩
  · have read := Event.ofStream?_join (.cons written .nil)
    rwa [String.join_cons, String.join_nil, String.append_empty, event] at read
  · simp [alone, Action.stdout, written, Except.toOption]
  · simp [alone, Action.stderr]
  · rw [Complaint.text_eq, advice]
  · cases marked : complaint.annotation? env <;>
      simp [forPeople, reportComplaint, marked, Action.stderr]

end WasmBuild.Report
