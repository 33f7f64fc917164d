import WasmBuild.Proofs.Manifest.UnknownKeys
import WasmBuild.Proofs.Suggestion.Closest

/-!
# The corrections that warnings suggest

A warning suggests a key that is understood somewhere and that lies within two edits of the reported
key. It does not look at the level: a key that is understood on another level than its own is
suggested for itself.
-/
namespace WasmBuild.Manifest

theorem suggestion_warningOf (file : Path) (text : List Char) (unknown : UnknownKey) :
    (warningOf file text unknown).suggestion =
      Suggestion.closest? (warningOf file text unknown).key knownKeys Suggestion.defaultLimit := by
  rw [warningOf]

/-- What a warning suggests is understood on some level, and at most two edits of bytes lead to it
from the reported key. It differs from the reported key exactly if that one is understood on no
level; a key that is understood on another level is reported together with itself as its correction.
-/
theorem suggestion_self_iff {file : Path} {text : String} {loaded : Loaded}
    (loads : ofText file text = .ok loaded) :
    ∀ warning ∈ loaded.warnings,
      (∀ suggested, warning.suggestion = some suggested →
        (∃ level : Level, suggested ∈ level.keys) ∧
        (∃ n ≤ 2, Suggestion.Edits n (Utf8.encode warning.key) (Utf8.encode suggested)) ∧
        (suggested ≠ warning.key ↔ ∀ level : Level, warning.key ∉ level.keys)) ∧
      (warning.suggestion = some warning.key ↔ ∃ level : Level, warning.key ∈ level.keys) := by
  intro warning reported
  obtain ⟨entries, -, warnings⟩ := warnings_of_ofText loads
  rw [warnings] at reported
  obtain ⟨unknown, -, rfl⟩ := List.mem_map.1 reported
  rw [suggestion_warningOf, ← mem_knownKeys_iff]
  generalize (warningOf file text.toList unknown).key = key
  refine ⟨fun suggested found => ?_, fun found => ?_, fun known => ?_⟩
  · obtain ⟨known, near⟩ := Suggestion.mem_of_closest? found
    refine ⟨mem_knownKeys_iff.1 known, ⟨_, near, Suggestion.edits_editDistance _ _⟩, ?_⟩
    rw [← not_exists, ← mem_knownKeys_iff, not_iff_not]
    constructor
    · rintro rfl
      exact known
    · intro itself
      rw [Suggestion.closest?_self itself] at found
      exact (Option.some.inj found).symm
  · exact (Suggestion.mem_of_closest? found).1
  · exact Suggestion.closest?_self known

/-- A manifest with a key of the output table in a project, and with a misspelled key. -/
def misplaced : String := "[[project]]\nname = \"t\"\nverbosity = \"quiet\"\nsubdir = \"c\"\n"

def loadedMisplaced : Loaded where
  manifest := { blank with projects := [⟨"t", ⟨[]⟩, none⟩] }
  warnings := [⟨"verbosity", defaultPath, some 3, some "verbosity"⟩,
    ⟨"subdir", defaultPath, some 4, some "sub_dir"⟩]

theorem ofText_misplaced : ofText defaultPath misplaced = .ok loadedMisplaced := by
  rfl

theorem suggestion_self_iff_subdir :
    ofText defaultPath misplaced = .ok loadedMisplaced ∧
      ∃ n ≤ 2, Suggestion.Edits n (Utf8.encode "subdir") (Utf8.encode "sub_dir") := by
  refine ⟨ofText_misplaced, ?_⟩
  have second := suggestion_self_iff ofText_misplaced _ (.tail _ (.head _))
  exact (second.1 "sub_dir" rfl).2.1

/-- A key that is reported as unknown is suggested as its own correction. -/
theorem misplaced_suggested_for_itself :
    ofText defaultPath misplaced = .ok loadedMisplaced ∧
      ∃ warning ∈ loadedMisplaced.warnings, warning.suggestion = some warning.key :=
  ⟨ofText_misplaced, _, .head _, rfl⟩

end WasmBuild.Manifest
