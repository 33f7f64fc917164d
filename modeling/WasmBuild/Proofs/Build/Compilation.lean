import WasmBuild.Build.Session
import WasmBuild.Proofs.Build.Artifacts
import WasmBuild.Proofs.FileTree.Reach

/-!
# Compiling the units of a list

Every source name has a plan, so a list of units is compiled up to the first call that the compiler
refuses. A compiler may look at the number of earlier calls and at the files that they left; the
verdict on a call is therefore taken in the world that the calls before it lead to. Main statement:
compiling units that are accepted, and then others, is compiling the others from the world that the
accepted calls lead to.
-/
namespace WasmBuild.Build

/-- The plan of a unit with a source name: its artifacts bear the name without its last two
bytes. -/
def planOf (outputRoot : Path) (unit : SourceUnit) : UnitPlan :=
  let base := unit.fileName.take (unit.fileName.length - 2)
  ⟨unit, ⟨outputRoot.child (base ++ Utf8.encode ".js"),
    outputRoot.child (base ++ Utf8.encode ".wasm")⟩⟩

theorem derive_planOf (outputRoot : Path) {unit : SourceUnit}
    (source : isSourceName unit.fileName = true) :
    Artifacts.derive outputRoot unit.fileName = .ok (planOf outputRoot unit).artifacts := by
  obtain ⟨base, based⟩ := isSourceName_iff_baseName.1 source
  have stripped : unit.fileName.take (unit.fileName.length - 2) = base := by
    rw [baseName_eq_ok_iff.1 based]
    rw [List.length_append, show sourceSuffix.length = 2 from by decide, Nat.add_sub_cancel,
      List.take_left]
  rw [Artifacts.derive, based, planOf, stripped]

theorem UnitPlan.derive_eq_ok (outputRoot : Path) {unit : SourceUnit}
    (source : isSourceName unit.fileName = true) :
    UnitPlan.derive outputRoot unit = .ok (planOf outputRoot unit) := by
  rw [UnitPlan.derive, derive_planOf outputRoot source]
  rfl

/-- The call that compiles a unit. -/
def callOf (emccDir outputRoot : Path) (unit : SourceUnit) : Invocation where
  program := emccDir.join (.ofString "emcc")
  args := [Utf8.encode "-Os", unit.path.bytes, Utf8.encode "-o",
    (planOf outputRoot unit).artifacts.js.bytes]

/-- The world after a call, whatever the verdict on it. -/
def Compiler.worldAfter (compiler : Compiler) (world : World) (call : Invocation) : World :=
  world.afterCall (compiler.reply world call)

/-- The world after some calls, made one after the other. -/
def Compiler.worldAfterAll (compiler : Compiler) (world : World) (calls : List Invocation) :
    World := calls.foldl compiler.worldAfter world

/-- Whether a compiler accepts every one of some calls, made one after the other. -/
def Compiler.Accepts (compiler : Compiler) (world : World) : List Invocation → Prop
  | [] => True
  | call :: rest => (compiler.reply world call).result = .ok () ∧
      compiler.Accepts (compiler.worldAfter world call) rest

/-- The verdict on a call that is made after others. -/
def Compiler.verdict (compiler : Compiler) (world : World) (earlier : List Invocation)
    (call : Invocation) : Except CompileError Unit :=
  (compiler.reply (compiler.worldAfterAll world earlier) call).result

/-- Either all calls are accepted, or there is a first one that is refused. -/
theorem Compiler.accepts_or_refuses (compiler : Compiler) (world : World)
    (calls : List Invocation) :
    compiler.Accepts world calls ∨ ∃ earlier call later error,
      calls = earlier ++ call :: later ∧ compiler.Accepts world earlier ∧
        compiler.verdict world earlier call = .error error := by
  induction calls generalizing world with
  | nil => exact .inl trivial
  | cons call calls ih =>
      cases verdict : (compiler.reply world call).result with
      | error error => exact .inr ⟨[], call, calls, error, rfl, trivial, verdict⟩
      | ok u =>
          rcases ih (compiler.worldAfter world call)
            with accepted | ⟨earlier, c, later, e, rfl, accepted, refused⟩
          · exact .inl ⟨verdict, accepted⟩
          · exact .inr ⟨call :: earlier, c, later, e, rfl, ⟨verdict, accepted⟩, refused⟩

/-- Either the calls for all units are accepted, or there is a first unit that is refused. -/
theorem Compiler.accepts_or_refuses_unit (compiler : Compiler) (world : World)
    (emccDir outputRoot : Path) (units : List SourceUnit) :
    let call := callOf emccDir outputRoot
    compiler.Accepts world (units.map call) ∨ ∃ done unit later error,
      units = done ++ unit :: later ∧ compiler.Accepts world (done.map call) ∧
        compiler.verdict world (done.map call) (call unit) = .error error := by
  intro call
  rcases compiler.accepts_or_refuses world (units.map call)
    with accepted | ⟨earlier, refused, later, error, calls, accepted, verdict⟩
  · exact .inl accepted
  · obtain ⟨done, rest, split, rfl, others⟩ := List.map_eq_append_iff.mp calls
    obtain ⟨unit, after, rfl, rfl, rfl⟩ := List.map_eq_cons_iff.mp others
    exact .inr ⟨done, unit, after, error, split, accepted, verdict⟩

/-- The two events of every unit that was compiled, numbered from `index`. -/
def pairEvents (emccDir outputRoot : Path) : Nat → List SourceUnit → List Event
  | _, [] => []
  | index, unit :: rest =>
    .unitStarted index unit.path (callOf emccDir outputRoot unit).display ::
      .unitCompiled index unit.path (planOf outputRoot unit).artifacts.wasm ::
        pairEvents emccDir outputRoot (index + 1) rest

/-- An event tells that a unit is started, or that it is compiled. -/
inductive Event.About (emccDir outputRoot : Path) (unit : SourceUnit) : Event → Prop where
  | started (index : Nat) : About emccDir outputRoot unit
      (.unitStarted index unit.path (callOf emccDir outputRoot unit).display)
  | compiled (index : Nat) : About emccDir outputRoot unit
      (.unitCompiled index unit.path (planOf outputRoot unit).artifacts.wasm)

theorem exists_about_of_mem_pairEvents {emccDir outputRoot : Path} {index : Nat}
    {units : List SourceUnit} {event : Event}
    (member : event ∈ pairEvents emccDir outputRoot index units) :
    ∃ unit ∈ units, event.About emccDir outputRoot unit := by
  induction units generalizing index with
  | nil => simp [pairEvents] at member
  | cons unit rest ih =>
      simp only [pairEvents, List.mem_cons] at member
      rcases member with rfl | rfl | member
      · exact ⟨unit, List.mem_cons_self, .started index⟩
      · exact ⟨unit, List.mem_cons_self, .compiled index⟩
      · obtain ⟨other, inside, about⟩ := ih member
        exact ⟨other, List.mem_cons_of_mem _ inside, about⟩

@[simp] theorem Step.event?_event (event : Event) : (Step.event event).event? = some event := rfl

@[simp] theorem Step.event?_call (call : Invocation) (printed : List Printed) :
    (Step.call call printed).event? = none := rfl

@[simp] theorem Step.invocation?_event (event : Event) :
    (Step.event event).invocation? = none := rfl

@[simp] theorem Step.invocation?_call (call : Invocation) (printed : List Printed) :
    (Step.call call printed).invocation? = some call := rfl

variable {compiler : Compiler} {emccDir outputRoot : Path} {unit : SourceUnit} {world : World}
  (detailed : Bool) (index : Nat) (rest : List SourceUnit)

/-- One accepted unit: its two events and its call come first, and the others are compiled from the
world that the call leads to. -/
theorem compileUnits_cons_accepted (source : isSourceName unit.fileName = true)
    (accepted : (compiler.reply world (callOf emccDir outputRoot unit)).result = .ok ()) :
    let run := compileUnits compiler detailed emccDir outputRoot index (unit :: rest) world
    let call := callOf emccDir outputRoot unit
    let next := compileUnits compiler detailed emccDir outputRoot (index + 1) rest
      (compiler.worldAfter world call)
    run.events = (if detailed then [.unitStarted index unit.path call.display,
        .unitCompiled index unit.path (planOf outputRoot unit).artifacts.wasm] else []) ++
      next.events ∧
    run.invocations = call :: next.invocations ∧
    run.result = next.result.map (planOf outputRoot unit :: ·) ∧
    run.world = next.world := by
  have called : Invocation.compile emccDir unit.path (planOf outputRoot unit).artifacts.js =
      callOf emccDir outputRoot unit := rfl
  have moved : world.afterCall (compiler.reply world (callOf emccDir outputRoot unit)) =
      compiler.worldAfter world (callOf emccDir outputRoot unit) := rfl
  simp only [compileUnits, UnitPlan.derive_eq_ok outputRoot source, called, accepted, moved]
  refine ⟨?_, ?_, ?_, trivial⟩
  · cases detailed <;> simp [Run.events, detail, List.filterMap_cons]
  · cases detailed <;> simp [Run.invocations, detail, List.filterMap_cons]
  · split <;> simp_all [Except.map]

/-- A refused unit is the last one that is called for. -/
theorem compileUnits_cons_refused {error : CompileError}
    (source : isSourceName unit.fileName = true)
    (refused : (compiler.reply world (callOf emccDir outputRoot unit)).result = .error error) :
    let run := compileUnits compiler detailed emccDir outputRoot index (unit :: rest) world
    let call := callOf emccDir outputRoot unit
    run.events = (if detailed then [.unitStarted index unit.path call.display] else []) ∧
    run.invocations = [call] ∧
    run.result = .error (.compileFailure unit.path error.message) ∧
    run.world = compiler.worldAfter world call := by
  have called : Invocation.compile emccDir unit.path (planOf outputRoot unit).artifacts.js =
      callOf emccDir outputRoot unit := rfl
  simp only [compileUnits, UnitPlan.derive_eq_ok outputRoot source, called, refused]
  refine ⟨?_, ?_, trivial, rfl⟩
  · cases detailed <;> simp [Run.events, detail, List.filterMap_cons]
  · cases detailed <;> simp [Run.invocations, detail, List.filterMap_cons]

/-- Compiling accepted units and then others is compiling the others from the world that the calls
for the accepted ones lead to. -/
theorem compileUnits_append {done : List SourceUnit}
    (named : ∀ u ∈ done, isSourceName u.fileName = true)
    (accepted : compiler.Accepts world (done.map (callOf emccDir outputRoot))) :
    let run := compileUnits compiler detailed emccDir outputRoot index (done ++ rest) world
    let calls := done.map (callOf emccDir outputRoot)
    let next := compileUnits compiler detailed emccDir outputRoot (index + done.length) rest
      (compiler.worldAfterAll world calls)
    run.events = (if detailed then pairEvents emccDir outputRoot index done else []) ++
      next.events ∧
    run.invocations = calls ++ next.invocations ∧
    run.result = next.result.map (done.map (planOf outputRoot) ++ ·) ∧
    run.world = next.world := by
  induction done generalizing index world with
  | nil =>
      refine ⟨by simp [pairEvents, Compiler.worldAfterAll], rfl, ?_, rfl⟩
      exact (congrFun Except.map_id _).symm
  | cons unit done ih =>
      obtain ⟨first, others⟩ := accepted
      obtain ⟨events, calls, result, left⟩ := compileUnits_cons_accepted detailed index
        (done ++ rest) (named unit List.mem_cons_self) first
      obtain ⟨events', calls', result', left'⟩ := ih (index + 1)
        (fun u member => named u (List.mem_cons_of_mem _ member)) others
      have count : index + 1 + done.length = index + (done.length + 1) := by omega
      simp only [List.cons_append, List.map_cons, List.length_cons, Compiler.worldAfterAll,
        List.foldl_cons] at *
      rw [count] at events' calls' result' left'
      refine ⟨?_, ?_, ?_, left.trans left'⟩
      · rw [events, events']
        cases detailed <;> simp [pairEvents]
      · rw [calls, calls']
      · rw [result, result']
        exact (comp_map _ _ (compileUnits ..).result).symm

/-- What every call keeps of the files, compiling units keeps. -/
theorem compileUnits_keeps {keeps : FileTree → Prop}
    (step : ∀ calls call tree, keeps tree → keeps (compiler calls call tree).tree)
    {units : List SourceUnit} (start : keeps world.tree) :
    keeps (compileUnits compiler detailed emccDir outputRoot index units world).world.tree := by
  induction units generalizing index world with
  | nil => exact start
  | cons unit rest ih =>
      simp only [compileUnits]
      split
      · exact start
      · next plan derived =>
          have after : keeps (world.afterCall (compiler.reply world (.compile emccDir unit.path
              plan.artifacts.js))).tree := step _ _ _ start
          split
          · exact after
          · exact ih (index + 1) after

end WasmBuild.Build
