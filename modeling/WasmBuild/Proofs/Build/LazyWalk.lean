import WasmBuild.Proofs.Build.Rebuild

/-!
# Looking for units as they are due

A build may look for its next unit only when the one before it is compiled. It then sees the files
as the calls so far have left them. Whatever these are, it does what it would do with the list of
the units that it comes upon. Where the calls leave the sources alone, it comes upon those that lay
there before the first call, each once, and if the walk itself stays the same, in the order of the
walk. So such a build agrees with one that takes the whole list before its first call.
-/
namespace WasmBuild.Build

open FileTree

/-- One compilation after another, from the world that the first leaves. A failure ends both. -/
def Run.andThen {α : Type} (first : Run (List α)) (next : World → Run (List α)) : Run (List α) :=
  match first.result with
  | .error _ => first
  | .ok items =>
    let later := next first.world
    ⟨first.steps ++ later.steps, later.result.map (items ++ ·), later.world⟩

/-- The first unit of a walk among the files as they are now that was not met before. -/
def nextUnit? (root : Path) (met : List SourceUnit) (tree : FileTree) : Option SourceUnit :=
  (tree.sources root).find? (· ∉ met)

section

variable (compiler : Compiler) (detailed : Bool) (emccDir outputRoot root : Path)

/-- Compiling units as a walk comes upon them: after some that are met already, in the world that
they have led to. -/
inductive CompilesAlong : List SourceUnit → World → Run (List UnitPlan) → Prop where
  | ended {met : List SourceUnit} {world : World}
      (exhausted : nextUnit? root met world.tree = none) :
      CompilesAlong met world ⟨[], .ok [], world⟩
  | stopped {met : List SourceUnit} {world : World} {unit : SourceUnit} {failure : Failure}
      (found : nextUnit? root met world.tree = some unit)
      (failed : (compileUnits compiler detailed emccDir outputRoot met.length [unit] world).result =
        .error failure) :
      CompilesAlong met world
        (compileUnits compiler detailed emccDir outputRoot met.length [unit] world)
  | went {met : List SourceUnit} {world : World} {unit : SourceUnit} {plans : List UnitPlan}
      {run : Run (List UnitPlan)} (found : nextUnit? root met world.tree = some unit)
      (compiled : (compileUnits compiler detailed emccDir outputRoot met.length [unit]
        world).result = .ok plans)
      (later : CompilesAlong (met ++ [unit])
        (compileUnits compiler detailed emccDir outputRoot met.length [unit] world).world run) :
      CompilesAlong met world
        ((compileUnits compiler detailed emccDir outputRoot met.length [unit] world).andThen
          fun _ => run)

/-- The units that a walk comes upon when each of them is called for before it goes on. -/
inductive ComesUpon : List SourceUnit → World → List SourceUnit → Prop where
  | ended {met : List SourceUnit} {world : World}
      (exhausted : nextUnit? root met world.tree = none) : ComesUpon met world []
  | next {met rest : List SourceUnit} {world : World} {unit : SourceUnit}
      (found : nextUnit? root met world.tree = some unit)
      (later : ComesUpon (met ++ [unit])
        (compiler.worldAfter world (callOf emccDir outputRoot unit)) rest) :
      ComesUpon met world (unit :: rest)

end

variable {compiler : Compiler} {detailed : Bool} {emccDir outputRoot root : Path}
  {met rest sources : List SourceUnit} {unit : SourceUnit} {world : World}

theorem nextUnit?_eq_none_iff {tree : FileTree} :
    nextUnit? root met tree = none ↔ ∀ u ∈ tree.sources root, u ∈ met := by
  simp [nextUnit?]

theorem mem_of_nextUnit? {tree : FileTree} (found : nextUnit? root met tree = some unit) :
    unit ∈ tree.sources root ∧ unit ∉ met :=
  ⟨List.mem_of_find?_eq_some found, by simpa using List.find?_some found⟩

/-- Compiling a list is compiling its first unit and then the others. -/
theorem compileUnits_cons (index : Nat) (unit : SourceUnit) (rest : List SourceUnit)
    (world : World) :
    compileUnits compiler detailed emccDir outputRoot index (unit :: rest) world =
      (compileUnits compiler detailed emccDir outputRoot index [unit] world).andThen
        (compileUnits compiler detailed emccDir outputRoot (index + 1) rest) := by
  simp only [compileUnits]
  cases UnitPlan.derive outputRoot unit with
  | error failure => rfl
  | ok plan =>
      cases verdict : (compiler.reply world (.compile emccDir unit.path plan.artifacts.js)).result
      with
      | error error => simp [Run.andThen, verdict]
      | ok u =>
          simp only [Run.andThen, verdict, List.append_nil]
          cases (compileUnits compiler detailed emccDir outputRoot (index + 1) rest _).result <;>
            rfl

/-- The call for a single unit is made whether or not it is accepted. -/
theorem world_compileUnits_singleton (detailed : Bool) (index : Nat)
    (source : isSourceName unit.fileName = true) :
    (compileUnits compiler detailed emccDir outputRoot index [unit] world).world =
      compiler.worldAfter world (callOf emccDir outputRoot unit) := by
  cases verdict : (compiler.reply world (callOf emccDir outputRoot unit)).result with
  | error error => exact (compileUnits_cons_refused detailed index [] source verdict).2.2.2
  | ok u => exact (compileUnits_cons_accepted detailed index [] source verdict).2.2.2

/-- Whatever the calls do to the files, compiling along a walk is compiling a list of units: those
that the walk has come upon, none of them twice. -/
theorem CompilesAlong.exists_units {run : Run (List UnitPlan)}
    (along : CompilesAlong compiler detailed emccDir outputRoot root met world run)
    (nodup : met.Nodup) :
    ∃ units, run = compileUnits compiler detailed emccDir outputRoot met.length units world ∧
      (met ++ units).Nodup ∧ ∀ u ∈ units, isSourceName u.fileName = true := by
  induction along with
  | ended exhausted => exact ⟨[], rfl, by simpa using nodup, by simp⟩
  | @stopped met world unit failure found failed =>
      obtain ⟨inside, fresh⟩ := mem_of_nextUnit? found
      refine ⟨[unit], rfl, List.nodup_append.2 ⟨nodup, by simp, ?_⟩, ?_⟩
      · rintro u known other member rfl
        rw [List.mem_singleton.1 member] at known
        exact fresh known
      · simpa using isSourceName_of_mem_sources inside
  | @went met world unit plans run found compiled later ih =>
      obtain ⟨inside, fresh⟩ := mem_of_nextUnit? found
      have nodup' : (met ++ [unit]).Nodup := by
        rw [List.nodup_append_comm]
        exact List.nodup_cons.2 ⟨fresh, nodup⟩
      obtain ⟨units, rfl, apart, named⟩ := ih nodup'
      refine ⟨unit :: units, ?_, by simpa using apart, ?_⟩
      · rw [compileUnits_cons met.length unit units]
        simp only [Run.andThen, compiled, List.length_append, List.length_singleton]
      · exact List.forall_mem_cons.2 ⟨isSourceName_of_mem_sources inside, named⟩

/-- Compiling along a walk does what compiling the units does that the walk comes upon, and nothing
else. -/
theorem ComesUpon.compilesAlong_iff {units : List SourceUnit} {run : Run (List UnitPlan)}
    (upon : ComesUpon compiler emccDir outputRoot root met world units) :
    CompilesAlong compiler detailed emccDir outputRoot root met world run ↔
      run = compileUnits compiler detailed emccDir outputRoot met.length units world := by
  induction upon generalizing run with
  | ended exhausted =>
      constructor
      · intro along
        cases along with
        | ended => rfl
        | stopped found | went found => rw [exhausted] at found; cases found
      · rintro rfl
        exact .ended exhausted
  | @next met rest world unit found later ih =>
      have source := isSourceName_of_mem_sources (mem_of_nextUnit? found).1
      rw [← world_compileUnits_singleton detailed met.length source] at ih
      rw [compileUnits_cons met.length unit rest]
      constructor
      · intro along
        cases along with
        | ended exhausted => rw [found] at exhausted; cases exhausted
        | stopped found' failed =>
            obtain rfl := Option.some.inj (found.symm.trans found')
            simp only [Run.andThen, failed]
        | went found' compiled onward =>
            obtain rfl := Option.some.inj (found.symm.trans found')
            rw [ih.1 onward]
            simp only [Run.andThen, compiled, List.length_append, List.length_singleton]
      · rintro rfl
        cases verdict : (compileUnits compiler detailed emccDir outputRoot met.length [unit]
            world).result with
        | error failure =>
            rw [Run.andThen, verdict]
            exact .stopped found verdict
        | ok plans =>
            have onward := CompilesAlong.went found verdict (ih.2 rfl)
            simpa only [Run.andThen, verdict, List.length_append, List.length_singleton]
              using onward

/-- The calls for some units, made in order. -/
def Compiler.worldAfterUnits (compiler : Compiler) (emccDir outputRoot : Path) (world : World)
    (units : List SourceUnit) : World :=
  compiler.worldAfterAll world (units.map (callOf emccDir outputRoot))

/-- A walk that stays the same while its units are called for comes upon them in its order. -/
theorem comesUpon_of_same (nodup : (met ++ rest).Nodup)
    (same : ∀ earlier, earlier <+: rest →
      (compiler.worldAfterUnits emccDir outputRoot world earlier).tree.sources root = met ++ rest) :
    ComesUpon compiler emccDir outputRoot root met world rest := by
  have now : world.tree.sources root = met ++ rest := same [] List.nil_prefix
  induction rest generalizing met world with
  | nil =>
      refine .ended (nextUnit?_eq_none_iff.2 fun u inside => ?_)
      rwa [now, List.append_nil] at inside
  | cons unit rest ih =>
      have fresh : unit ∉ met := fun known =>
        (List.nodup_append.1 nodup).2.2 unit known unit List.mem_cons_self rfl
      have found : nextUnit? root met world.tree = some unit := by
        have old : met.find? (· ∉ met) = none := by simp
        rw [nextUnit?, now, List.find?_append, old, List.find?_cons_of_pos (by simpa using fresh)]
        rfl
      have split : met ++ unit :: rest = met ++ [unit] ++ rest := by simp
      refine .next found (ih (split ▸ nodup) (fun earlier front => ?_) ?_)
      · rw [← split]
        exact same (unit :: earlier) (List.cons_prefix_cons.2 ⟨rfl, front⟩)
      · rw [← split]
        exact same [unit] (List.cons_prefix_cons.2 ⟨rfl, List.nil_prefix⟩)

/-- A walk among files whose sources stay the same while units are called for comes upon each of
them once, in some order. -/
theorem exists_comesUpon (nodup : (met ++ rest).Nodup) (all : (met ++ rest).Perm sources)
    (stable : ∀ units ⊆ sources,
      ((compiler.worldAfterUnits emccDir outputRoot world units).tree.sources root).Perm sources) :
    ∃ units, ComesUpon compiler emccDir outputRoot root met world units ∧ units.Perm rest := by
  have now : (world.tree.sources root).Perm sources := stable [] (List.nil_subset _)
  induction size : rest.length generalizing met rest world with
  | zero =>
      obtain rfl := List.length_eq_zero_iff.1 size
      refine ⟨[], .ended (nextUnit?_eq_none_iff.2 fun u inside => ?_), .nil⟩
      simpa using (now.trans all.symm).subset inside
  | succ size ih =>
      cases found : nextUnit? root met world.tree with
      | none =>
          obtain ⟨unit, others, rfl⟩ := List.exists_cons_of_length_eq_add_one size
          have inside : unit ∈ world.tree.sources root := (all.trans now.symm).subset (by simp)
          exact absurd rfl ((List.nodup_append.1 nodup).2.2 unit
            (nextUnit?_eq_none_iff.1 found unit inside) unit List.mem_cons_self)
      | some unit =>
          obtain ⟨inside, fresh⟩ := mem_of_nextUnit? found
          have among : unit ∈ rest :=
            (List.mem_append.1 ((now.trans all.symm).subset inside)).resolve_left fresh
          have taken : rest.Perm (unit :: rest.erase unit) := List.perm_cons_erase among
          have split : (met ++ rest).Perm (met ++ [unit] ++ rest.erase unit) := by
            simpa using taken.append_left met
          have known : unit ∈ sources := now.subset inside
          obtain ⟨units, upon, others⟩ := ih (split.nodup_iff.1 nodup) (split.symm.trans all)
            (fun units among => stable (unit :: units) (List.cons_subset.2 ⟨known, among⟩))
            (stable [unit] (by simpa using known))
            (by rw [List.length_erase_of_mem among]; omega)
          exact ⟨unit :: units, .next found upon, (others.cons unit).trans taken.symm⟩

variable {config : Config}

/-- A build that looks for each unit as it is due does what a build does that takes the list of its
units before the first call, if the walk stays the same under the calls for its first units. -/
theorem compilesAlong_iff_compileAll (toolchain : config.toolchain.emccDir? = some emccDir)
    (directory : (world.tree.ensureDirectory config.outputRoot).result = .ok ())
    (same : ∀ earlier, earlier <+: foundUnits config world →
      (compiler.worldAfterUnits emccDir config.outputRoot (world.prepared config)
        earlier).tree.sources config.sourceRoot = foundUnits config world)
    (run : Run (List UnitPlan)) :
    CompilesAlong compiler detailed emccDir config.outputRoot config.sourceRoot []
        (world.prepared config) run ↔
      run = compileAll compiler detailed config world := by
  have upon : ComesUpon compiler emccDir config.outputRoot config.sourceRoot []
      (world.prepared config) (foundUnits config world) :=
    comesUpon_of_same (nodup_sources ..) same
  rw [upon.compilesAlong_iff, compileAll_of_ready toolchain directory]
  rfl

/-- With a compiler that writes artifacts only, among files without links, a build that looks for
each unit as it is due has exactly one run. It compiles the units that are found before the first
call, in some order. -/
theorem compilesAlong_of_writesArtifacts (writes : compiler.WritesArtifacts config.outputRoot)
    (free : world.tree.LinkFree) :
    ∃ units, units.Perm (foundUnits config world) ∧ ∀ run,
      CompilesAlong compiler detailed emccDir config.outputRoot config.sourceRoot []
          (world.prepared config) run ↔
        run = compileUnits compiler detailed emccDir config.outputRoot 0 units
          (world.prepared config) := by
  have free' : (world.prepared config).tree.LinkFree := free.ensureDirectory config.outputRoot
  have stable : ∀ units ⊆ foundUnits config world,
      ((compiler.worldAfterUnits emccDir config.outputRoot (world.prepared config)
        units).tree.sources config.sourceRoot).Perm (foundUnits config world) := by
    intro units among
    refine SameSources.sources_perm (sameSources_worldAfterAll writes ?_ ?_ free') free' _
    · exact fun unit member => isSourceName_of_mem_foundUnits (among member)
    · exact fun unit member => not_mem_separator_of_mem_sources (among member)
  have nodup : ([] ++ foundUnits config world).Nodup := nodup_sources ..
  obtain ⟨units, upon, order⟩ := exists_comesUpon nodup (.refl _) stable
  exact ⟨units, order, fun run => upon.compilesAlong_iff⟩

/-- A compiler that leaves another source beside the unit that it is called for: a walk that goes on
after the call comes upon this one too, unlike a build that knows its units beforehand. -/
theorem compilesAlong_meets_new_source :
    let root := Path.ofString "src/p"
    let out := Path.ofString "out"
    let emcc := Path.ofString "/emcc"
    let config : Config := ⟨root, out, ⟨some emcc⟩⟩
    let first : SourceUnit := ⟨root, Utf8.encode "a.c"⟩
    let second : SourceUnit := ⟨root, Utf8.encode "b.c"⟩
    let compiler : Compiler := fun _ _ tree => ⟨.ok (), withFile tree second.path, [], 1⟩
    let world : World := ⟨sourceTree, 0, 0⟩
    (compileAll compiler true config world).invocations = [callOf emcc out first] ∧
      ∃ run, CompilesAlong compiler true emcc out root [] (world.prepared config) run ∧
        run.invocations = [callOf emcc out first, callOf emcc out second] := by
  intro root out emcc config first second compiler world
  have upon : ComesUpon compiler emcc out root [] (world.prepared config) [first, second] :=
    .next (by decide +kernel) (.next (by decide +kernel) (.ended (by decide +kernel)))
  exact ⟨by decide +kernel, _, upon.compilesAlong_iff.2 rfl, by decide +kernel⟩

end WasmBuild.Build
