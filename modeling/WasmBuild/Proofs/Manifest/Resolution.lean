import Mathlib.Data.List.Forall2
import WasmBuild.Manifest.Basic
import WasmBuild.Proofs.Path.Components

/-!
# Choosing the projects of a manifest

Which entries a selection stands for does not depend on where the manifest lies: without a selection
it is all of them in the order of declaration, otherwise for each name, in the order of the names,
the first entry that bears it. Each chosen entry gives one project, and the place of the manifest
enters only the directories of that project. A selection is refused for its first name that no entry
bears, and a manifest without entries for any selection.
-/
namespace WasmBuild

namespace Manifest

def Declares (manifest : Manifest) (name : String) : Prop :=
  ∃ entry ∈ manifest.projects, entry.name = name

theorem declares_iff {manifest : Manifest} {name : String} :
    manifest.Declares name ↔ name ∈ manifest.projects.map ProjectEntry.name := by
  simp [Declares]

/-- Whether an entry is the first that bears a name. -/
def IsFirstOf (manifest : Manifest) (name : String) (entry : ProjectEntry) : Prop :=
  entry.name = name ∧ ∃ before after, manifest.projects = before ++ entry :: after ∧
    ∀ other ∈ before, other.name ≠ name

theorem entryNamed?_eq_some_iff {manifest : Manifest} {name : String} {entry : ProjectEntry} :
    manifest.entryNamed? name = some entry ↔ manifest.IsFirstOf name entry := by
  simp [entryNamed?, IsFirstOf, List.find?_eq_some_iff_append]

theorem entryNamed?_eq_none_iff {manifest : Manifest} {name : String} :
    manifest.entryNamed? name = none ↔ ¬ manifest.Declares name := by
  simp [entryNamed?, Declares]

theorem exists_isFirstOf {manifest : Manifest} {name : String} (declared : manifest.Declares name) :
    ∃ entry, manifest.IsFirstOf name entry := by
  cases found : manifest.entryNamed? name with
  | none => exact absurd declared (entryNamed?_eq_none_iff.1 found)
  | some entry => exact ⟨entry, entryNamed?_eq_some_iff.1 found⟩

variable {manifest : Manifest} (base path : Path) {projects : List Project}

/-- A declared name selects the project of its first entry, ahead of what the other names select. -/
theorem select_cons_of_isFirstOf {name : String} {entry : ProjectEntry}
    (first : manifest.IsFirstOf name entry) (rest : List String) :
    manifest.select base (name :: rest) =
      (manifest.select base rest).map (manifest.toProject base entry :: ·) := by
  rw [select, entryNamed?_eq_some_iff.2 first]
  cases manifest.select base rest <;> rfl

/-- An undeclared name is reported whatever names come after it. -/
theorem select_cons_of_undeclared {name : String} (undeclared : ¬ manifest.Declares name)
    (rest : List String) :
    manifest.select base (name :: rest) = .error (.unknownProject name) := by
  rw [select, entryNamed?_eq_none_iff.2 undeclared]

/-- Names that are all declared select a project each. -/
theorem select_of_declared {names : List String}
    (declared : ∀ name ∈ names, manifest.Declares name) :
    ∃ projects, manifest.select base names = .ok projects ∧
      projects.map Project.name = names := by
  induction names with
  | nil => exact ⟨[], rfl, rfl⟩
  | cons name rest ih =>
      obtain ⟨known, others⟩ := List.forall_mem_cons.1 declared
      obtain ⟨entry, first⟩ := exists_isFirstOf known
      obtain ⟨projects, selected, named⟩ := ih others
      refine ⟨manifest.toProject base entry :: projects, ?_, ?_⟩
      · rw [select_cons_of_isFirstOf base first, selected]
        rfl
      · rw [List.map_cons, named]
        exact congrArg (· :: rest) first.1

/-- The first name that is not declared is the one that is reported. -/
theorem select_of_undeclared {before : List String} {name : String}
    (declared : ∀ n ∈ before, manifest.Declares n) (undeclared : ¬ manifest.Declares name)
    (after : List String) :
    manifest.select base (before ++ name :: after) = .error (.unknownProject name) := by
  induction before with
  | nil => exact select_cons_of_undeclared base undeclared after
  | cons known before ih =>
      obtain ⟨here, others⟩ := List.forall_mem_cons.1 declared
      obtain ⟨entry, first⟩ := exists_isFirstOf here
      rw [List.cons_append, select_cons_of_isFirstOf base first, ih others]
      rfl

/-- Either all of some names are declared, or there is a first one that is not. -/
theorem declared_or_first_undeclared (manifest : Manifest) (names : List String) :
    (∀ name ∈ names, manifest.Declares name) ∨ ∃ before name after,
      names = before ++ name :: after ∧ (∀ n ∈ before, manifest.Declares n) ∧
        ¬ manifest.Declares name := by
  induction names with
  | nil => exact .inl (by simp)
  | cons first rest ih =>
      by_cases known : manifest.Declares first
      · rcases ih with all | ⟨before, name, after, rfl, declared, undeclared⟩
        · exact .inl (List.forall_mem_cons.2 ⟨known, all⟩)
        · exact .inr ⟨first :: before, name, after, rfl, List.forall_mem_cons.2 ⟨known, declared⟩,
            undeclared⟩
      · exact .inr ⟨[], first, rest, rfl, by simp, known⟩

variable {base} in
/-- Selecting succeeds with the projects of the first entries of the names. -/
theorem select_eq_ok_iff {names : List String} :
    manifest.select base names = .ok projects ↔
      ∃ entries, List.Forall₂ manifest.IsFirstOf names entries ∧
        projects = entries.map (manifest.toProject base) := by
  induction names generalizing projects with
  | nil => simp [select, eq_comm]
  | cons name rest ih =>
      constructor
      · intro selected
        by_cases known : manifest.Declares name
        · obtain ⟨entry, first⟩ := exists_isFirstOf known
          rw [select_cons_of_isFirstOf base first] at selected
          cases others : manifest.select base rest with
          | error failure =>
              rw [others] at selected
              cases selected
          | ok more =>
              obtain ⟨entries, firsts, rfl⟩ := ih.1 others
              rw [others] at selected
              exact ⟨entry :: entries, .cons first firsts, (Except.ok.inj selected).symm⟩
        · rw [select_cons_of_undeclared base known] at selected
          cases selected
      · rintro ⟨entries, chosen, rfl⟩
        obtain ⟨entry, more, first, firsts, rfl⟩ := List.forall₂_cons_left_iff.1 chosen
        rw [select_cons_of_isFirstOf base first, ih.2 ⟨more, firsts, rfl⟩]
        rfl

variable {base} in
/-- Selecting fails for the first name that is not declared. -/
theorem select_eq_error_iff {names : List String} {failure : Failure} :
    manifest.select base names = .error failure ↔
      ∃ before name after, names = before ++ name :: after ∧
        (∀ n ∈ before, manifest.Declares n) ∧ ¬ manifest.Declares name ∧
        failure = .unknownProject name := by
  constructor
  · intro refused
    rcases manifest.declared_or_first_undeclared names
      with all | ⟨before, name, after, rfl, declared, undeclared⟩
    · obtain ⟨projects, selected, -⟩ := select_of_declared base all
      cases refused.symm.trans selected
    · have reported := select_of_undeclared base declared undeclared after
      exact ⟨before, name, after, rfl, declared, undeclared,
        Except.error.inj (refused.symm.trans reported)⟩
  · rintro ⟨before, name, after, rfl, declared, undeclared, rfl⟩
    exact select_of_undeclared base declared undeclared after

/-- The entries that a selection stands for. -/
inductive Chooses (manifest : Manifest) : List String → List ProjectEntry → Prop where
  | all {entries : List ProjectEntry} (nonempty : entries ≠ [])
      (declared : manifest.projects = entries) :
      Chooses manifest [] entries
  | named {name : String} {names : List String} {entries : List ProjectEntry}
      (first : List.Forall₂ manifest.IsFirstOf (name :: names) entries) :
      Chooses manifest (name :: names) entries

theorem IsFirstOf.unique {name : String} {entry entry' : ProjectEntry}
    (first : manifest.IsFirstOf name entry) (first' : manifest.IsFirstOf name entry') :
    entry = entry' := by
  have found := entryNamed?_eq_some_iff.2 first
  exact Option.some.inj (found.symm.trans (entryNamed?_eq_some_iff.2 first'))

theorem Chooses.unique {selected : List String} {entries entries' : List ProjectEntry}
    (chosen : manifest.Chooses selected entries) (chosen' : manifest.Chooses selected entries') :
    entries = entries' := by
  cases chosen with
  | all _ declared =>
      cases chosen' with
      | all _ declared' => exact declared.symm.trans declared'
  | named first =>
      cases chosen' with
      | named first' =>
          have unique : Relator.RightUnique manifest.IsFirstOf := fun _ _ _ => IsFirstOf.unique
          exact unique.forall₂ first first'

theorem mem_projects_of_isFirstOf {names : List String} {entries : List ProjectEntry}
    (first : List.Forall₂ manifest.IsFirstOf names entries) :
    ∀ entry ∈ entries, entry ∈ manifest.projects := by
  induction first with
  | nil => simp
  | cons head _ ih =>
      obtain ⟨-, before, after, split, -⟩ := head
      exact List.forall_mem_cons.2 ⟨by simp [split], ih⟩

theorem Chooses.declared {selected : List String} {entries : List ProjectEntry}
    (chosen : manifest.Chooses selected entries) :
    ∀ entry ∈ entries, entry ∈ manifest.projects := by
  cases chosen with
  | all _ declared => exact fun entry member => declared ▸ member
  | named first => exact mem_projects_of_isFirstOf first

theorem resolve_of_bare (bare : manifest.projects = []) (selected : List String) :
    manifest.resolve path selected = .error (.noProjects path) :=
  if_pos (by simpa using bare)

theorem resolve_nil (nonempty : manifest.projects ≠ []) :
    manifest.resolve path [] = .ok (manifest.projects.map (manifest.toProject (baseDir path))) := by
  rw [resolve, if_neg (by simpa using nonempty)]
  rfl

theorem resolve_of_selected {selected : List String} (nonempty : manifest.projects ≠ [])
    (given : selected ≠ []) :
    manifest.resolve path selected = manifest.select (baseDir path) selected := by
  rw [resolve, if_neg (by simpa using nonempty), if_neg (by simpa using given)]

variable {path} in
/-- The projects of a manifest are those of the entries that the selection stands for. -/
theorem resolve_eq_ok_iff {selected : List String} :
    manifest.resolve path selected = .ok projects ↔
      ∃ entries, manifest.Chooses selected entries ∧
        projects = entries.map (manifest.toProject (baseDir path)) := by
  by_cases bare : manifest.projects = []
  · rw [resolve_of_bare path bare]
    constructor
    · intro refused
      cases refused
    · rintro ⟨entries, chosen, -⟩
      cases chosen with
      | all nonempty declared => exact absurd (declared.symm.trans bare) nonempty
      | named first =>
          obtain ⟨entry, more, ⟨-, before, after, declared, -⟩, -⟩ :=
            List.forall₂_cons_left_iff.1 first
          simp [bare] at declared
  · cases selected with
    | nil =>
        rw [resolve_nil path bare]
        constructor
        · intro all
          exact ⟨manifest.projects, .all bare rfl, (Except.ok.inj all).symm⟩
        · rintro ⟨entries, chosen, rfl⟩
          cases chosen with
          | all nonempty declared => rw [declared]
    | cons name names =>
        rw [resolve_of_selected path bare (by simp), select_eq_ok_iff]
        constructor
        · rintro ⟨entries, first, rfl⟩
          exact ⟨entries, .named first, rfl⟩
        · rintro ⟨entries, chosen, rfl⟩
          cases chosen with
          | named first => exact ⟨entries, first, rfl⟩

/-- A manifest with projects resolves, unless a name is selected that it does not declare. -/
theorem resolve_of_declared {names : List String} (nonempty : manifest.projects ≠ [])
    (declared : ∀ name ∈ names, manifest.Declares name) :
    ∃ projects, manifest.resolve path names = .ok projects ∧
      (projects.map Project.name).head? =
        (names ++ manifest.projects.map ProjectEntry.name).head? := by
  cases names with
  | nil =>
      refine ⟨_, resolve_nil path nonempty, ?_⟩
      simp [Function.comp_def, toProject]
  | cons name rest =>
      obtain ⟨projects, selected, named⟩ := select_of_declared (baseDir path) declared
      refine ⟨projects, ?_, by simp [named]⟩
      rw [resolve_of_selected path nonempty (by simp), selected]

end Manifest

/-- Whether a project is what an entry declares in a manifest that lies at a path. -/
structure Project.IsOf (project : Project) (manifest : Manifest) (path : Path)
    (entry : ProjectEntry) : Prop where
  name : project.name = entry.name
  subDir : project.subDir = entry.subDir
  home : entry.dir? = none → project.dir = Manifest.baseDir path
  away : ∀ dir, entry.dir? = some dir → project.dir = (Manifest.baseDir path).join dir
  outputBase : project.outputBase = (Manifest.baseDir path).join manifest.outputBase

namespace Manifest

variable {manifest : Manifest} {path : Path}

theorem isOf_iff {project : Project} {entry : ProjectEntry} :
    project.IsOf manifest path entry ↔ project = manifest.toProject (baseDir path) entry := by
  constructor
  · rintro ⟨name, subDir, home, away, outputBase⟩
    obtain ⟨name', dir', subDir', outputBase'⟩ := project
    cases own : entry.dir? <;> simp_all [toProject]
  · rintro rfl
    refine ⟨rfl, rfl, fun own => ?_, fun dir own => ?_, rfl⟩
    · simp [toProject, own]
    · simp [toProject, own]

/-- Things that are chosen through a middle list, element by element. -/
theorem forall₂_through_map {α β γ : Type} {R : α → β → Prop} {f : β → γ} {as : List α}
    {cs : List γ} :
    (∃ bs, List.Forall₂ R as bs ∧ cs = bs.map f) ↔
      List.Forall₂ (fun a c => ∃ b, R a b ∧ c = f b) as cs := by
  constructor
  · rintro ⟨bs, related, rfl⟩
    rw [List.forall₂_map_right_iff]
    exact related.imp fun a b mapped => ⟨b, mapped, rfl⟩
  · intro related
    induction related with
    | nil => exact ⟨[], .nil, rfl⟩
    | cons head _ ih =>
        obtain ⟨b, mapped, rfl⟩ := head
        obtain ⟨bs, others, rfl⟩ := ih
        exact ⟨b :: bs, .cons mapped others, rfl⟩

/-- What a manifest resolves to. Without entries it is refused. With entries and no selection there
is one project for each entry, in order. A selection is accepted exactly if all its names are
declared, and then gives for each name the project of the first entry that bears it; otherwise it is
refused for its first name that is not declared. Projects start from the directory in which the
manifest lies. -/
theorem resolve_exactly (manifest : Manifest) (path : Path) :
    (manifest.projects = [] →
      ∀ selected, manifest.resolve path selected = .error (.noProjects path)) ∧
    (manifest.projects ≠ [] →
      (∃ projects, manifest.resolve path [] = .ok projects ∧
        List.Forall₂ (fun entry project => project.IsOf manifest path entry)
          manifest.projects projects) ∧
      ∀ selected, selected ≠ [] →
        ((∃ projects, manifest.resolve path selected = .ok projects) ↔
          ∀ name ∈ selected, manifest.Declares name) ∧
        (∀ projects, manifest.resolve path selected = .ok projects ↔
          List.Forall₂ (fun name project => ∃ entry, manifest.IsFirstOf name entry ∧
            project.IsOf manifest path entry) selected projects) ∧
        ∀ failure, manifest.resolve path selected = .error failure ↔
          ∃ before name after, selected = before ++ name :: after ∧
            (∀ n ∈ before, manifest.Declares n) ∧ ¬ manifest.Declares name ∧
            failure = .unknownProject name) ∧
    ∀ file, path.fileName? = some file →
      path.components = (baseDir path).components ++ [.named file] := by
  refine ⟨resolve_of_bare path, fun nonempty => ⟨?_, fun selected given => ?_⟩,
    fun file named => ?_⟩
  · refine ⟨_, resolve_nil path nonempty, ?_⟩
    rw [List.forall₂_map_right_iff, List.forall₂_same]
    exact fun entry _ => isOf_iff.2 rfl
  · rw [resolve_of_selected path nonempty given]
    refine ⟨⟨?_, ?_⟩, fun projects => ?_, fun failure => select_eq_error_iff⟩
    · rintro ⟨projects, accepted⟩
      rcases manifest.declared_or_first_undeclared selected
        with all | ⟨before, name, after, rfl, declared, undeclared⟩
      · exact all
      · cases accepted.symm.trans (select_of_undeclared (baseDir path) declared undeclared after)
    · intro declared
      obtain ⟨projects, accepted, -⟩ := select_of_declared (baseDir path) declared
      exact ⟨projects, accepted⟩
    · simp only [isOf_iff]
      rw [select_eq_ok_iff, forall₂_through_map]
  · obtain ⟨parent, found, split⟩ := Path.parent?_of_fileName? named
    rw [baseDir, found, Option.getD_some, split]

/-- A manifest with two entries of one name. -/
def repeatedName : Manifest where
  outputBase := defaultOutputBase
  verbosity := .normal
  projects := [⟨"fib", ⟨[]⟩, some (.ofString "one")⟩, ⟨"lcm", ⟨[]⟩, none⟩,
    ⟨"fib", .ofString "c", some (.ofString "two")⟩]

theorem resolve_exactly_repeated_name :
    (∃ projects, repeatedName.resolve (.ofString "m/emproj.toml") ["fib", "lcm", "fib"] =
        .ok projects ∧
      projects.map Project.dir = [.ofString "m/one", .ofString "m", .ofString "m/one"]) ∧
    repeatedName.resolve (.ofString "m/emproj.toml") ["lcm", "gcd", "fib", "abs"] =
      .error (.unknownProject "gcd") := by
  obtain ⟨-, full, -⟩ := resolve_exactly repeatedName (.ofString "m/emproj.toml")
  obtain ⟨-, select⟩ := full (by decide)
  obtain ⟨accepted, -, -⟩ := select ["fib", "lcm", "fib"] (by decide)
  obtain ⟨-, -, refused⟩ := select ["lcm", "gcd", "fib", "abs"] (by decide)
  constructor
  · obtain ⟨projects, resolved⟩ := accepted.2 (by simp [declares_iff, repeatedName])
    obtain rfl := Except.ok.inj resolved
    exact ⟨_, resolved, by decide⟩
  · refine (refused _).2 ⟨["lcm"], "gcd", ["fib", "abs"], rfl, ?_, ?_, rfl⟩
    · simp [declares_iff, repeatedName]
    · simp [declares_iff, repeatedName]

end Manifest
end WasmBuild
