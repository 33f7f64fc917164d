import WasmBuild.Path
import WasmBuild.Project
import WasmBuild.Proofs.Path.Components

/-!
# The artifacts of a file name

Artifacts are named by adding an ending to the base of a source name. Both lie directly in the
output directory, and where the base is not empty they differ in nothing but their extension. The
one name with an empty base is `.c`: its artifacts are the hidden files `.js` and `.wasm`, whose
names are all stem.
-/
namespace WasmBuild

/-- Stripping undoes appending, and appending undoes stripping. -/
theorem stripSourceSuffix?_eq_some_iff {name base : Bytes} :
    stripSourceSuffix? name = some base ↔ name = base ++ sourceSuffix := by
  simp only [stripSourceSuffix?, List.splitAt_eq]
  constructor
  · intro stripped
    split at stripped
    · next ends =>
        have whole := List.take_append_drop (name.length - sourceSuffix.length) name
        rw [ends, Option.some.inj stripped] at whole
        exact whole.symm
    · cases stripped
  · rintro rfl
    rw [List.length_append, Nat.add_sub_cancel, List.take_left, List.drop_left]
    exact if_pos rfl

/-- What stands before the final `.c` of a name is its base, and only names with that end have
one. -/
theorem baseName_eq_ok_iff {name base : Bytes} :
    baseName name = .ok base ↔ name = base ++ sourceSuffix := by
  rw [← stripSourceSuffix?_eq_some_iff, baseName]
  cases stripSourceSuffix? name <;> simp

/-- A name passes the test of a walk exactly if it can be stripped to a base. -/
theorem isSourceName_iff_baseName {name : Bytes} :
    isSourceName name = true ↔ ∃ base, baseName name = .ok base := by
  simp only [baseName_eq_ok_iff]
  rw [isSourceName, List.isSuffixOf_iff_suffix]
  exact exists_congr fun base => eq_comm

/-- The name of a source means a name: it is neither idle nor a step upwards. -/
theorem ofSegment?_of_isSourceName {name : Bytes} (source : isSourceName name = true) :
    Component.ofSegment? name = some (.named name) := by
  obtain ⟨base, based⟩ := isSourceName_iff_baseName.1 source
  obtain rfl := baseName_eq_ok_iff.1 based
  have last : (base ++ sourceSuffix).getLast? = some 0x63 :=
    List.getLast?_append_of_ne_nil _ (by decide)
  have other {segment : Bytes} (ends : segment.getLast? ≠ some 0x63) :
      base ++ sourceSuffix ≠ segment := fun same => ends (same ▸ last)
  have notEmpty : base ++ sourceSuffix ≠ [] := other (by decide)
  have notDot : base ++ sourceSuffix ≠ dotSegment := other (by decide)
  have notUp : base ++ sourceSuffix ≠ dotDotSegment := other (by decide)
  rw [Component.ofSegment?, if_neg (by simp [isIdleSegment, notDot, notEmpty]), if_neg notUp]

/-- A source name that is a single segment has a base that is one. -/
theorem not_mem_separator_of_baseName {name base : Bytes} (based : baseName name = .ok base)
    (single : separator ∉ name) : separator ∉ base := by
  obtain rfl := baseName_eq_ok_iff.1 based
  exact fun member => single (List.mem_append_left _ member)

namespace Artifacts

/-- The artifacts of a name are its base with either extension. -/
theorem derive_of_baseName (outputDir : Path) {name base : Bytes}
    (based : baseName name = .ok base) :
    derive outputDir name = .ok ⟨outputDir.child (base ++ dot :: Utf8.encode "js"),
      outputDir.child (base ++ dot :: Utf8.encode "wasm")⟩ := by
  have js : Utf8.encode ".js" = dot :: Utf8.encode "js" := by decide
  have wasm : Utf8.encode ".wasm" = dot :: Utf8.encode "wasm" := by decide
  rw [derive, based, ← js, ← wasm]

/-- A base with an extension names something directly in the output directory. -/
theorem components_child_extension (outputDir : Path) {base extension : Bytes}
    (single : separator ∉ base) (alone : separator ∉ extension) (long : 2 ≤ extension.length) :
    (outputDir.child (base ++ dot :: extension)).components =
      outputDir.components ++ [.named (base ++ dot :: extension)] := by
  have different : separator ≠ dot := by decide
  have single' : separator ∉ base ++ dot :: extension := by simp [single, alone, different]
  have long' : 3 ≤ (base ++ dot :: extension).length := by
    rw [List.length_append, List.length_cons]
    omega
  exact Path.components_child outputDir single' (ofSegment?_of_length long')

/-- The components of the artifacts of a name: its base with either extension, in the output
directory. -/
theorem components_of_derive {outputDir : Path} {name : Bytes} {artifacts : Artifacts}
    (single : separator ∉ name) (derived : derive outputDir name = .ok artifacts) :
    ∃ base, baseName name = .ok base ∧
      artifacts.js.components =
        outputDir.components ++ [.named (base ++ dot :: Utf8.encode "js")] ∧
      artifacts.wasm.components =
        outputDir.components ++ [.named (base ++ dot :: Utf8.encode "wasm")] := by
  cases based : baseName name with
  | error failure => simp [derive, based] at derived
  | ok base =>
      have single' := not_mem_separator_of_baseName based single
      obtain rfl := Except.ok.inj ((derive_of_baseName outputDir based).symm.trans derived)
      exact ⟨base, rfl, components_child_extension outputDir single' (by decide) (by decide),
        components_child_extension outputDir single' (by decide) (by decide)⟩

/-- Both artifacts have the output directory for their parent. -/
theorem exists_parent_of_derive {outputDir : Path} {name : Bytes} {artifacts : Artifacts}
    (single : separator ∉ name) (derived : derive outputDir name = .ok artifacts) :
    ∀ path ∈ [artifacts.js, artifacts.wasm],
      ∃ dir, path.parent? = some dir ∧ dir.components = outputDir.components := by
  obtain ⟨base, -, js, wasm⟩ := components_of_derive single derived
  intro path member
  rcases List.mem_pair.1 member with rfl | rfl
  · exact Path.exists_parent_of_components js
  · exact Path.exists_parent_of_components wasm

end Artifacts

namespace Path

variable {p dir : Path} {stem extension : Bytes}

/-- A file whose name divides at a dot has both parts of it. -/
theorem divided_of_components (last : dot ∉ extension) (visible : stem ≠ [])
    (split : p.components = dir.components ++ [.named (stem ++ dot :: extension)]) :
    p.fileStem? = some stem ∧ p.extension? = some extension := by
  have named : p.fileName? = some (stem ++ dot :: extension) := by
    rw [fileName?_eq_some_iff, split, List.getLast?_concat]
  have divided := (divideName_append last).trans (if_neg visible)
  simp [fileStem?, extension?, named, divided]

/-- A file that a single leading dot hides is all stem. -/
theorem hidden_of_components (last : dot ∉ extension)
    (split : p.components = dir.components ++ [.named (dot :: extension)]) :
    p.fileStem? = some (dot :: extension) ∧ p.extension? = none := by
  have named : p.fileName? = some (dot :: extension) := by
    rw [fileName?_eq_some_iff, split, List.getLast?_concat]
  have divided : divideName ([] ++ dot :: extension) = (dot :: extension, none) :=
    divideName_append last
  rw [List.nil_append] at divided
  simp [fileStem?, extension?, named, divided]

end Path

/-- Both artifacts of a name lie in the output directory, and their paths are the same up to what
follows the last dot. Unless the name is `.c`, they have its base for a stem and the extensions `js`
and `wasm`, so the declared result is the target of the compiler with its extension replaced. The
artifacts of `.c` are hidden files, whose names are all stem. -/
theorem wasm_beside_js (outputDir : Path) {name base : Bytes} (single : separator ∉ name)
    (based : baseName name = .ok base) :
    ∃ artifacts, Artifacts.derive outputDir name = .ok artifacts ∧
      (∀ path ∈ [artifacts.js, artifacts.wasm],
        ∃ dir, path.parent? = some dir ∧ dir.components = outputDir.components) ∧
      (∃ front, artifacts.js.bytes = front ++ Utf8.encode "js" ∧
        artifacts.wasm.bytes = front ++ Utf8.encode "wasm") ∧
      (name ≠ Utf8.encode ".c" →
        artifacts.js.fileStem? = some base ∧ artifacts.wasm.fileStem? = some base ∧
        artifacts.js.extension? = some (Utf8.encode "js") ∧
        artifacts.wasm.extension? = some (Utf8.encode "wasm")) ∧
      (name = Utf8.encode ".c" →
        artifacts.js.fileStem? = some (Utf8.encode ".js") ∧
        artifacts.wasm.fileStem? = some (Utf8.encode ".wasm") ∧
        artifacts.js.extension? = none ∧ artifacts.wasm.extension? = none) := by
  have derived := Artifacts.derive_of_baseName outputDir based
  refine ⟨_, derived, Artifacts.exists_parent_of_derive single derived, ?_, ?_, ?_⟩
  · have single' := not_mem_separator_of_baseName based single
    obtain ⟨front, bytes⟩ := outputDir.exists_bytes_child
    have alone {extension : Bytes} (plain : separator ∉ dot :: extension) :
        separator ∉ base ++ dot :: extension := by simpa [single'] using plain
    refine ⟨front ++ base ++ [dot], ?_, ?_⟩
    · rw [bytes _ (alone (by decide))]
      simp
    · rw [bytes _ (alone (by decide))]
      simp
  · intro longer
    obtain ⟨base', based', js, wasm⟩ := Artifacts.components_of_derive single derived
    obtain rfl : base = base' := Except.ok.inj (based.symm.trans based')
    have visible : base ≠ [] := by
      rintro rfl
      exact longer (baseName_eq_ok_iff.1 based)
    obtain ⟨jsStem, jsExtension⟩ := Path.divided_of_components (by decide) visible js
    obtain ⟨wasmStem, wasmExtension⟩ := Path.divided_of_components (by decide) visible wasm
    exact ⟨jsStem, wasmStem, jsExtension, wasmExtension⟩
  · rintro rfl
    obtain ⟨base', based', js, wasm⟩ := Artifacts.components_of_derive single derived
    obtain rfl : [] = base' := by
      have same := baseName_eq_ok_iff.1 based'
      exact (List.self_eq_append_left.1 same).symm
    obtain ⟨jsStem, jsExtension⟩ := Path.hidden_of_components (by decide) js
    obtain ⟨wasmStem, wasmExtension⟩ := Path.hidden_of_components (by decide) wasm
    exact ⟨jsStem, wasmStem, jsExtension, wasmExtension⟩

theorem wasm_beside_js_dotted :
    separator ∉ Utf8.encode ".a.js.c" ∧
      baseName (Utf8.encode ".a.js.c") = .ok (Utf8.encode ".a.js") ∧
      ∃ artifacts, Artifacts.derive (.ofString "out/./") (Utf8.encode ".a.js.c") = .ok artifacts ∧
        artifacts.js = .ofString "out/./.a.js.js" ∧ artifacts.wasm = .ofString "out/./.a.js.wasm" ∧
        artifacts.js.fileStem? = some (Utf8.encode ".a.js") ∧
        artifacts.wasm.fileStem? = some (Utf8.encode ".a.js") ∧
        artifacts.js.extension? = some (Utf8.encode "js") ∧
        artifacts.wasm.extension? = some (Utf8.encode "wasm") := by
  have single : separator ∉ Utf8.encode ".a.js.c" := by decide
  have based : baseName (Utf8.encode ".a.js.c") = .ok (Utf8.encode ".a.js") := by decide
  obtain ⟨artifacts, derived, -, -, apart, -⟩ := wasm_beside_js (.ofString "out/./") single based
  have known : Artifacts.derive (.ofString "out/./") (Utf8.encode ".a.js.c") =
      .ok ⟨.ofString "out/./.a.js.js", .ofString "out/./.a.js.wasm"⟩ := by decide
  obtain rfl := Except.ok.inj (known.symm.trans derived)
  exact ⟨single, based, _, derived, rfl, rfl, apart (by decide)⟩

/-- The artifacts of `.c` have neither a stem in common nor an extension. -/
theorem hidden_artifacts_lack_extension :
    separator ∉ Utf8.encode ".c" ∧ baseName (Utf8.encode ".c") = .ok [] ∧
      ∃ artifacts, Artifacts.derive (.ofString "out") (Utf8.encode ".c") = .ok artifacts ∧
        artifacts.js = .ofString "out/.js" ∧ artifacts.wasm = .ofString "out/.wasm" ∧
        artifacts.js.fileStem? ≠ artifacts.wasm.fileStem? ∧
        artifacts.js.extension? ≠ some (Utf8.encode "js") ∧
        artifacts.wasm.extension? ≠ some (Utf8.encode "wasm") :=
  ⟨by decide, by decide, _, rfl, by decide, by decide, by decide, by decide, by decide⟩

end WasmBuild
