import WasmBuild.Proofs.CommandLine.Sayings

/-!
# Options on both sides of the command

Options may stand before the command and after it, and each side is read from nothing. Cutting a
list of options at the command leaves the flag for machine-readable output and the manifest as they
are. Project names and flags `v`, however, are not added up: where the options after the command
have some, those before it are dropped.
-/
namespace WasmBuild.CommandLine

section Parts

variable {sayings more : List Saying}

theorem Sayable.parts (sayable : Sayable (sayings ++ more)) : Sayable sayings ∧ Sayable more := by
  obtain ⟨single, one, named, texts⟩ := sayable
  simp only [List.count_append, valuesOf_append, List.length_append, List.mem_append, not_or,
    or_imp, forall_and] at single one named texts
  exact ⟨⟨by omega, by omega, named.1, texts.1⟩, ⟨by omega, by omega, named.2, texts.2⟩⟩

/-- A manifest is named on one side at most, so it does not matter which side is asked first. -/
theorem Sayable.manifest_or (sayable : Sayable (sayings ++ more)) :
    (Given.ofSayings more).manifest.or (Given.ofSayings sayings).manifest =
      (Given.ofSayings (sayings ++ more)).manifest := by
  have one := sayable.one
  rw [valuesOf_append, List.length_append] at one
  simp only [Given.ofSayings, valuesOf_append]
  cases left : valuesOf .manifest sayings with
  | nil => simp
  | cons first rest =>
      rw [left, List.length_cons] at one
      have silent : valuesOf .manifest more = [] := List.length_eq_zero_iff.1 (by omega)
      simp [silent]

theorem json_ofSayings_append : (Given.ofSayings (sayings ++ more)).json =
    ((Given.ofSayings sayings).json || (Given.ofSayings more).json) := by
  simp [Given.ofSayings]

theorem projects_ofSayings_append : (Given.ofSayings (sayings ++ more)).projects =
    (Given.ofSayings sayings).projects ++ (Given.ofSayings more).projects := by
  simp [Given.ofSayings]

/-- The flags `v` of the later part count alone where it has some. -/
theorem verbose_or :
    ((Given.ofSayings more).verbose.or (Given.ofSayings sayings).verbose).getD 0 =
      if (Given.ofSayings more).verbose.getD 0 = 0 then (Given.ofSayings sayings).verbose.getD 0
      else (Given.ofSayings more).verbose.getD 0 := by
  have some (given : Option Nat) (positive : ∀ n, given = some n → n ≠ 0) (other : Option Nat) :
      (given.or other).getD 0 = if given.getD 0 = 0 then other.getD 0 else given.getD 0 := by
    cases given with
    | none => rfl
    | some n => simp [positive n rfl]
  refine some _ (fun n counted => ?_) _
  simp only [Given.ofSayings, Given.maxVerbose] at counted
  split at counted
  · contradiction
  · obtain rfl := Option.some.inj counted
    omega

/-- What the two parts say together, beside what the whole list says. -/
theorem Sayable.toRequest_merge (sayable : Sayable (sayings ++ more)) (command : Command) :
    let front := (Given.ofSayings sayings).toRequest command
    let back := (Given.ofSayings more).toRequest command
    ((Given.ofSayings sayings).merge (.ofSayings more)).toRequest command =
      { (Given.ofSayings (sayings ++ more)).toRequest command with
        verbose := if back.verbose = 0 then front.verbose else back.verbose
        projects := if back.projects = [] then front.projects else back.projects } := by
  intro front back
  simp only [Given.toRequest, Given.merge, verbose_or, sayable.manifest_or,
    json_ofSayings_append, List.isEmpty_iff, front, back]

end Parts

/-- Where the later of two counts and lists wins, it is their sum exactly if there is nothing to
add. -/
theorem later_wins_iff {front back whole : Request}
    (projects : whole.projects = front.projects ++ back.projects)
    (verbose : whole.verbose = min (front.verbose + back.verbose) 255)
    (few : front.verbose ≤ 255 ∧ back.verbose ≤ 255) :
    { whole with
      verbose := if back.verbose = 0 then front.verbose else back.verbose
      projects := if back.projects = [] then front.projects else back.projects } = whole ↔
      (front.projects = [] ∨ back.projects = []) ∧
        (front.verbose = 0 ∨ back.verbose = 0 ∨ back.verbose = 255) := by
  have counts : (if back.verbose = 0 then front.verbose else back.verbose) = whole.verbose ↔
      front.verbose = 0 ∨ back.verbose = 0 ∨ back.verbose = 255 := by
    rw [verbose]
    split <;> omega
  have names : (if back.projects = [] then front.projects else back.projects) = whole.projects ↔
      front.projects = [] ∨ back.projects = [] := by
    rw [projects]
    split
    · next none => simp [none]
    · next some => simp [some]
  rw [← counts, ← names, and_comm]
  obtain ⟨json, verbose, manifest, projects, command⟩ := whole
  simp

/-- A line of options that makes a request in front of the command also makes one when it is cut in
two at the command, and so do either of its parts alone. The request of the line that is cut has the
project names of the part behind the command if there are any, and else those of the part in front;
the same holds of the number of flags `v`; in all else it is the request of the whole line. So it is
the same request exactly if only one part names projects, and only one part has flags `v` or the
part behind has as many as are counted. -/
theorem parse_cut_eq_iff {before after : List WrittenOption} {command : Command}
    {whole : Request} (parsed : parse (argsOf (before ++ after) ++ [command.arg]) = .ok whole) :
    ∃ front back cut, parse (argsOf before ++ [command.arg]) = .ok front ∧
      parse (argsOf after ++ [command.arg]) = .ok back ∧
      parse (argsOf before ++ command.arg :: argsOf after) = .ok cut ∧
      whole.projects = front.projects ++ back.projects ∧
      whole.verbose = min (front.verbose + back.verbose) 255 ∧
      cut = { whole with
        verbose := if back.verbose = 0 then front.verbose else back.verbose
        projects := if back.projects = [] then front.projects else back.projects } ∧
      (cut = whole ↔ (front.projects = [] ∨ back.projects = []) ∧
        (front.verbose = 0 ∨ back.verbose = 0 ∨ back.verbose = 255)) := by
  obtain ⟨given, taken, rfl⟩ := parse_before_eq_ok_iff.1 parsed
  obtain ⟨sayable, rfl⟩ := sayAll_nothing_eq_ok_iff.1 taken
  rw [sayingsOf, List.flatMap_append, ← sayingsOf, ← sayingsOf] at sayable ⊢
  obtain ⟨first, second⟩ := sayable.parts
  have taken (part : List WrittenOption) (parsed : Sayable (sayingsOf part)) :
      Given.nothing.sayAll (sayingsOf part) = .ok (.ofSayings (sayingsOf part)) :=
    sayAll_nothing_eq_ok_iff.2 ⟨parsed, rfl⟩
  refine ⟨_, _, _, parse_before_eq_ok_iff.2 ⟨_, taken before first, rfl⟩,
    parse_before_eq_ok_iff.2 ⟨_, taken after second, rfl⟩,
    (parse_argsOf_eq_ok_iff ..).2 ⟨_, _, taken before first, taken after second, rfl⟩, ?_⟩
  generalize sayingsOf before = sayings at *
  generalize sayingsOf after = more at *
  have projects : (Given.ofSayings (sayings ++ more)).projects =
      (Given.ofSayings sayings).projects ++ (Given.ofSayings more).projects :=
    projects_ofSayings_append
  have counted : (Given.ofSayings (sayings ++ more)).verbose.getD 0 =
      min ((Given.ofSayings sayings).verbose.getD 0 +
        (Given.ofSayings more).verbose.getD 0) 255 := by
    simp only [verbose_ofSayings, List.count_append, Given.maxVerbose]
    omega
  have few (part : List Saying) : (Given.ofSayings part).verbose.getD 0 ≤ 255 := by
    rw [verbose_ofSayings]
    exact Nat.min_le_right _ _
  refine ⟨projects, counted, sayable.toRequest_merge command, ?_⟩
  rw [sayable.toRequest_merge command]
  exact later_wins_iff projects counted ⟨few sayings, few more⟩

/-- The options `-v`, `-p a`, `--json` and `-vp b`, of which the first two stand before the command.
-/
theorem parse_cut_eq_iff_two_projects :
    let before : List WrittenOption :=
      [.letters 0, .lettersSeparate 0 .project (Utf8.encode "a") (by decide)]
    let after : List WrittenOption :=
      [.json, .lettersSeparate 1 .project (Utf8.encode "b") (by decide)]
    let whole : Request := ⟨true, 2, Manifest.defaultPath, ["a", "b"], .build⟩
    parse (argsOf (before ++ after) ++ [Command.build.arg]) = .ok whole ∧
      ∃ front back cut, parse (argsOf before ++ [Command.build.arg]) = .ok front ∧
        parse (argsOf after ++ [Command.build.arg]) = .ok back ∧
        parse (argsOf before ++ Command.build.arg :: argsOf after) = .ok cut ∧
        whole.projects = front.projects ++ back.projects ∧
        whole.verbose = min (front.verbose + back.verbose) 255 ∧
        cut = { whole with
          verbose := if back.verbose = 0 then front.verbose else back.verbose
          projects := if back.projects = [] then front.projects else back.projects } ∧
        (cut = whole ↔ (front.projects = [] ∨ back.projects = []) ∧
          (front.verbose = 0 ∨ back.verbose = 0 ∨ back.verbose = 255)) := by
  intro before after whole
  have parsed : parse (argsOf (before ++ after) ++ [Command.build.arg]) = .ok whole := by rfl
  exact ⟨parsed, parse_cut_eq_iff parsed⟩

/-- Of two projects only the one behind the command is kept, and of two flags `v` only one is
counted. -/
theorem options_before_command_dropped :
    parse (["-p", "a", "-p", "b", "build"].map Utf8.encode) =
        .ok ⟨false, 0, Manifest.defaultPath, ["a", "b"], .build⟩ ∧
      parse (["-p", "a", "build", "-p", "b"].map Utf8.encode) =
        .ok ⟨false, 0, Manifest.defaultPath, ["b"], .build⟩ ∧
      parse (["-v", "-v", "build"].map Utf8.encode) =
        .ok ⟨false, 2, Manifest.defaultPath, [], .build⟩ ∧
      parse (["-v", "build", "-v"].map Utf8.encode) =
        .ok ⟨false, 1, Manifest.defaultPath, [], .build⟩ :=
  ⟨rfl, rfl, rfl, rfl⟩

end WasmBuild.CommandLine
