import WasmBuild.Proofs.CommandLine.Sayings
import WasmBuild.Proofs.Text.Utf8

/-!
# Writing a request as a command line

A request can be written with one argument for each thing that it says, in any order that keeps the
project names in theirs, and with the command at either end. Reading the line gives the request
back. As each value stands behind an equals sign in the argument of its option, it does not matter
what it looks like.
-/
namespace WasmBuild.CommandLine

def Saying.arg : Saying → Bytes
  | json => Utf8.encode "--json"
  | verbose => Utf8.encode "-v"
  | value setting bytes => Utf8.encode ("--" ++ setting.longName ++ "=") ++ bytes

/-- The option whose only argument this is. -/
def Saying.option : Saying → WrittenOption
  | json => .json
  | verbose => .letters 0
  | value setting bytes => .attached setting bytes

theorem argsOf_option (sayings : List Saying) :
    argsOf (sayings.map Saying.option) = sayings.map Saying.arg := by
  have one (saying : Saying) : saying.option.args = [saying.arg] := by cases saying <;> rfl
  rw [argsOf, List.flatMap_map, List.map_eq_flatMap]
  simp only [one]

theorem sayingsOf_option (sayings : List Saying) :
    sayingsOf (sayings.map Saying.option) = sayings := by
  have one (saying : Saying) : saying.option.sayings = [saying] := by cases saying <;> rfl
  rw [sayingsOf, List.flatMap_map]
  simp only [one, List.flatMap_singleton']

def namings (names : List String) : List Saying :=
  names.map fun name => .value .project (Utf8.encode name)

def Request.sayings (request : Request) : List Saying :=
  (if request.json then [.json] else []) ++ List.replicate request.verbose .verbose ++
    [.value .manifest request.manifest.bytes] ++ namings request.projects

/-- Sayings are those of a request, with the project names in their order. -/
structure Request.SaidBy (request : Request) (sayings : List Saying) : Prop where
  same : sayings.Perm request.sayings
  inOrder : valuesOf .project sayings = request.projects.map Utf8.encode

namespace Request

variable {request : Request} {sayings : List Saying}

theorem SaidBy.count_json (said : request.SaidBy sayings) :
    sayings.count .json = if request.json then 1 else 0 := by
  have names : (namings request.projects).count .json = 0 := by
    simp [namings, List.count_eq_zero]
  simp only [said.same.count_eq, Request.sayings, List.count_append, names, List.count_replicate]
  cases request.json <;> rfl

theorem SaidBy.count_verbose (said : request.SaidBy sayings) :
    sayings.count .verbose = request.verbose := by
  have names : (namings request.projects).count .verbose = 0 := by
    simp [namings, List.count_eq_zero]
  simp only [said.same.count_eq, Request.sayings, List.count_append, names,
    List.count_replicate_self]
  cases request.json <;> simp

theorem SaidBy.manifest (said : request.SaidBy sayings) :
    valuesOf .manifest sayings = [request.manifest.bytes] := by
  have names : valuesOf .manifest (namings request.projects) = [] := by
    simp [namings, valuesOf, Saying.valueOf?]
  have verboses : valuesOf .manifest (List.replicate request.verbose .verbose) = [] := by
    simp [valuesOf, Saying.valueOf?]
  have flag : valuesOf .manifest (if request.json then [.json] else []) = [] := by
    cases request.json <;> rfl
  have single : (valuesOf .manifest sayings).Perm (valuesOf .manifest request.sayings) :=
    said.same.filterMap _
  simp only [Request.sayings, valuesOf_append, names, verboses, flag, valuesOf_value, if_true,
    List.nil_append, List.append_nil] at single
  exact List.perm_singleton.1 single

theorem SaidBy.sayable (said : request.SaidBy sayings) (named : request.manifest.bytes ≠ []) :
    Sayable sayings where
  single := by rw [said.count_json]; split <;> decide
  one := by rw [said.manifest]; rfl
  named := by simpa [said.manifest] using named.symm
  texts := by simp [said.inOrder, Utf8.decode?_encode]

/-- What the sayings of a request add up to makes the request, in either place. -/
theorem SaidBy.toRequest (said : request.SaidBy sayings)
    (counted : request.verbose ≤ Given.maxVerbose) :
    (Given.ofSayings sayings).toRequest request.command = request := by
  have json : (.json ∈ sayings) = (request.json = true) := by
    rw [← List.count_pos_iff, said.count_json]
    cases request.json <;> simp
  have verbose : (Given.ofSayings sayings).verbose.getD 0 = request.verbose := by
    rw [verbose_ofSayings, said.count_verbose, Nat.min_eq_left counted]
  have projects : (Given.ofSayings sayings).projects = request.projects := by
    have read : Utf8.decode? ∘ Utf8.encode = some := funext Utf8.decode?_encode
    show (valuesOf .project sayings).filterMap Utf8.decode? = request.projects
    rw [said.inOrder, List.filterMap_map, read, List.filterMap_some]
  rw [Given.toRequest, verbose, projects]
  simp [Given.ofSayings, json, said.manifest]

end Request

/-- The sayings of a request, in an order that keeps its project names in theirs, are a command line
that makes this request, with the command at its end or at its start. -/
theorem parse_written {request : Request} {sayings : List Saying} (said : request.SaidBy sayings)
    (counted : request.verbose ≤ 255) (named : request.manifest.bytes ≠ []) :
    parse (sayings.map Saying.arg ++ [request.command.arg]) = .ok request ∧
      parse (request.command.arg :: sayings.map Saying.arg) = .ok request := by
  have given : Given.nothing.sayAll (sayingsOf (sayings.map Saying.option)) =
      .ok (.ofSayings sayings) := by
    rw [sayingsOf_option]
    exact sayAll_nothing_eq_ok_iff.2 ⟨said.sayable named, rfl⟩
  have made : request = (Given.ofSayings sayings).toRequest request.command :=
    (said.toRequest counted).symm
  rw [← argsOf_option]
  exact ⟨parse_before_eq_ok_iff.2 ⟨_, given, made⟩, parse_after_eq_ok_iff.2 ⟨_, given, made⟩⟩

/-- A request whose manifest and project names look like options, settings and commands. -/
theorem parse_written_lookalikes :
    let request : Request :=
      ⟨true, 2, .ofString "--json", ["-p", "build", "--project=a", ""], .clean⟩
    let naming (name : String) : Saying := .value .project (Utf8.encode name)
    let sayings : List Saying := [naming "-p", .verbose, naming "build",
      .value .manifest (Utf8.encode "--json"), naming "--project=a", .json, .verbose, naming ""]
    request.SaidBy sayings ∧ request.verbose ≤ 255 ∧ request.manifest.bytes ≠ [] ∧
      parse (sayings.map Saying.arg ++ [request.command.arg]) = .ok request ∧
      parse (request.command.arg :: sayings.map Saying.arg) = .ok request := by
  intro request naming sayings
  have said : request.SaidBy sayings := ⟨by decide +kernel, by decide +kernel⟩
  exact ⟨said, by decide, by decide, parse_written said (by decide) (by decide)⟩

end WasmBuild.CommandLine
