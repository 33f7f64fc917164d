import Mathlib.Data.List.Flatten
import WasmBuild.Program.Building
import WasmBuild.Proofs.Build.Detail
import WasmBuild.Proofs.Build.Rebuild

/-!
# Progress at the levels

A console of a higher level prints every line of a console of a lower level, unchanged and in the
same order, and possibly more. At the lower levels a build is not asked for the events of its single
units; these would print nothing, so what a build prints is at every level what the whole of its
events prints.
-/
namespace WasmBuild.Report

open Build Program

namespace Console

variable {low high : Verbosity} {icons : Icons} {console : Console}

theorem from?_sublist (rising : low ≤ high) (least : Verbosity) (line : String) :
    ((Console.mk low icons).from? least line).Sublist
      ((Console.mk high icons).from? least line) := by
  unfold from?
  by_cases printed : least ≤ low
  · have printed' : least ≤ high := Nat.le_trans printed rising
    rw [if_pos printed, if_pos printed']
  · rw [if_neg printed]
    exact List.nil_sublist _

/-- The lines that an event prints at a level, it prints at every higher level. -/
theorem lines_sublist (rising : low ≤ high) (event : Build.Event) :
    ((Console.mk low icons).lines event).Sublist ((Console.mk high icons).lines event) := by
  cases event with
  | started project sourceDir outputDir =>
      exact ((from?_sublist rising ..).append (from?_sublist rising ..)).append
        (from?_sublist rising ..)
  | unitStarted | unitCompiled | completed | failed => exact from?_sublist rising ..

/-- A console that does not ask for the events of single units prints nothing for them. -/
theorem lines_of_unwanted {event : Build.Event} (unwanted : console.wantsDetail = false)
    (unit : event.isUnit = true) : console.lines event = [] := by
  have notVerbose : ¬ .verbose ≤ console.verbosity := by simpa [wantsDetail] using unwanted
  have notDebug : ¬ .debug ≤ console.verbosity := fun reached =>
    notVerbose (Nat.le_trans (by decide : (2 : Nat) ≤ 3) reached)
  cases event with
  | unitStarted => exact if_neg notDebug
  | unitCompiled => exact if_neg notVerbose
  | started | completed | failed => cases unit

/-- What a console writes while events are reported to it. -/
def transcript (console : Console) (events : List Build.Event) : String :=
  String.join (events.map console.text)

theorem toList_transcript (events : List Build.Event) :
    (console.transcript events).toList =
      (events.flatMap console.lines).flatMap fun line => line.toList ++ ['\n'] := by
  simp [transcript, text, List.flatMap_assoc, List.flatMap_map]

/-- The lines of the text that is written, with an empty one behind the last newline. A line that is
printed holds more than one of them where a name on it holds newlines. -/
def writtenLines (console : Console) (events : List Build.Event) : List (List Char) :=
  (console.transcript events).toList.splitOn '\n'

theorem writtenLines_eq (events : List Build.Event) :
    console.writtenLines events =
      (events.flatMap console.lines).flatMap (·.toList.splitOn '\n') ++ [[]] := by
  rw [writtenLines, toList_transcript]
  induction events.flatMap console.lines with
  | nil => rfl
  | cons line rest ih =>
      rw [List.flatMap_cons, List.flatMap_cons, List.append_assoc, List.singleton_append,
        List.splitOn_append_cons_self, ih, List.append_assoc]

end Console

/-- Nothing is lost of what is read off some items where those that read as nothing are left out. -/
theorem flatMap_filter_of_silent {α β : Type} {read : α → List β} {kept : α → Bool}
    (silent : ∀ a, kept a = false → read a = []) (items : List α) :
    (items.filter kept).flatMap read = items.flatMap read := by
  induction items with
  | nil => rfl
  | cons a rest ih =>
      cases keeps : kept a with
      | true => rw [List.filter_cons_of_pos keeps, List.flatMap_cons, List.flatMap_cons, ih]
      | false =>
          rw [List.filter_cons_of_neg (by simp [keeps]), ih, List.flatMap_cons, silent a keeps,
            List.nil_append]

variable {compiler : Compiler} {label : String} {config : Config} {world : World}

/-- Whatever is read off the steps of a build is the same whether or not single units are reported,
provided that their events read as nothing where they are not. -/
theorem flatMap_execute {α : Type} {read : Step → List α} {detailed : Bool}
    (silent : detailed = false → ∀ event, event.isUnit = true → read (.event event) = []) :
    (execute compiler detailed label config world).steps.flatMap read =
      (execute compiler true label config world).steps.flatMap read := by
  cases detailed with
  | true => rfl
  | false =>
      have unread : ∀ step : Step, (!step.isDetail) = false → read step = [] := by
        intro step isDetail
        cases step with
        | event event => exact silent rfl event (by simpa using isDetail)
        | call call printed => cases isDetail
      have quiet : LeavesOutDetail (compileAll compiler false config world)
          (compileAll compiler true config world) :=
        compileAll_leavesOutDetail compiler
          (fun calls call tree => (compiler calls call tree).elapsedMs) config world world.clockMs
      have sameTime : durationOf world (compileAll compiler false config world) =
          durationOf world (compileAll compiler true config world) := by
        rw [durationOf, durationOf, (compileAll_sameWork compiler false config world).world]
      rw [← flatMap_filter_of_silent unread (execute compiler true label config world).steps,
        filter_steps_execute, steps_execute, quiet.steps, quiet.result, sameTime]

/-- The same holds of what is read off the events of a build. -/
theorem flatMap_events_execute {α : Type} {read : Build.Event → List α} {detailed : Bool}
    (silent : detailed = false → ∀ event, event.isUnit = true → read event = []) :
    (execute compiler detailed label config world).events.flatMap read =
      (execute compiler true label config world).events.flatMap read := by
  have events (run : Run Outcome) : run.events.flatMap read =
      run.steps.flatMap fun step => step.event?.toList.flatMap read := by
    rw [Run.events, List.filterMap_eq_flatMap_toList, List.flatMap_assoc]
  rw [events, events]
  refine flatMap_execute fun undetailed event unit => ?_
  simp [silent undetailed event unit]

/-- What a build prints on a console is what the whole of its events prints there. -/
theorem lines_execute (console : Console) :
    (execute compiler console.wantsDetail label config world).events.flatMap console.lines =
      (execute compiler true label config world).events.flatMap console.lines :=
  flatMap_events_execute fun unwanted _ unit => Console.lines_of_unwanted unwanted unit

/-- The actions of a build that is shown on a console: what it prints, the compiler calls and what
the compiler prints. -/
theorem actions_execute (console : Console) :
    (execute compiler console.wantsDetail label config world).steps.flatMap
        (stepActions (.console console)) =
      (execute compiler true label config world).steps.flatMap
        (stepActions (.console console)) := by
  refine flatMap_execute fun unwanted event unit => ?_
  simp [stepActions, Reporter.actions, Console.lines_of_unwanted unwanted unit]

/-- An event that a build does not report to a console prints nothing on it. -/
theorem lines_of_withheld {console : Console} {event : Build.Event}
    (full : event ∈ (execute compiler true label config world).events)
    (withheld : event ∉ (execute compiler console.wantsDetail label config world).events) :
    console.lines event = [] := by
  cases wanted : console.wantsDetail with
  | true =>
      rw [wanted] at withheld
      exact absurd full withheld
  | false =>
      refine Console.lines_of_unwanted wanted ?_
      by_contra notUnit
      -- All events that are not about single units are reported either way.
      let others (event : Build.Event) : List Build.Event := if event.isUnit then [] else [event]
      have same : (execute compiler console.wantsDetail label config world).events.flatMap others =
          (execute compiler true label config world).events.flatMap others :=
        flatMap_events_execute fun _ event unit => if_pos unit
      have among : event ∈ (execute compiler true label config world).events.flatMap others :=
        List.mem_flatMap.2 ⟨event, full, by simp [others, notUnit]⟩
      rw [← same] at among
      obtain ⟨other, reported, member⟩ := List.mem_flatMap.1 among
      unfold others at member
      split at member
      · cases member
      · obtain rfl := List.mem_singleton.1 member
        exact withheld reported

/-- A step of a build shows at a higher level what it shows at a lower one. -/
theorem stepActions_sublist {low high : Verbosity} (rising : low ≤ high) (icons : Icons)
    (step : Step) :
    (stepActions (.console ⟨low, icons⟩) step).Sublist
      (stepActions (.console ⟨high, icons⟩) step) := by
  cases step with
  | event event => exact (Console.lines_sublist rising event).map errLine
  | call call printed => exact .refl _

/-- Raising the level of a console only adds lines: those that some events print at a level are
among those that they print at a higher one, unchanged and in order, and so are the lines of the
text that is written. At every level a build writes what the whole of its events would write, to
which nothing is added by the events that it is not asked for. So with its compiler calls and
whatever the compiler prints in between, a build shows at a higher level what it shows at a lower
one. -/
theorem levels_only_add_lines {low high : Verbosity} (rising : low ≤ high) (icons : Icons) :
    let lower : Console := ⟨low, icons⟩
    let higher : Console := ⟨high, icons⟩
    (∀ events : List Build.Event,
      (events.flatMap lower.lines).Sublist (events.flatMap higher.lines) ∧
        (lower.writtenLines events).Sublist (higher.writtenLines events)) ∧
    ∀ (compiler : Compiler) (label : String) (config : Config) (world : World),
      let full := execute compiler true label config world
      let run (console : Console) := execute compiler console.wantsDetail label config world
      let shown (console : Console) := (run console).steps.flatMap (stepActions (.console console))
      (∀ console : Console,
        console.transcript (run console).events = console.transcript full.events ∧
          shown console = full.steps.flatMap (stepActions (.console console)) ∧
          ∀ event ∈ full.events, event ∉ (run console).events → console.text event = "") ∧
      (shown lower).Sublist (shown higher) := by
  intro lower higher
  have lines (events : List Build.Event) :
      (events.flatMap lower.lines).Sublist (events.flatMap higher.lines) :=
    List.Sublist.flatMap_right events fun event _ => Console.lines_sublist rising event
  refine ⟨fun events => ⟨lines events, ?_⟩, fun compiler label config world => ?_⟩
  · rw [Console.writtenLines_eq, Console.writtenLines_eq]
    exact ((lines events).flatMap _).append (.refl _)
  intro full run shown
  refine ⟨fun console => ⟨?_, actions_execute console, fun event among withheld => ?_⟩, ?_⟩
  · rw [← String.toList_inj, Console.toList_transcript, Console.toList_transcript,
      lines_execute console]
  · rw [Console.text, lines_of_withheld among withheld]
    rfl
  · rw [show shown lower = _ from actions_execute lower,
      show shown higher = _ from actions_execute higher]
    exact List.Sublist.flatMap_right _ fun step _ => stepActions_sublist rising icons step

/-- One unit that is compiled with a remark, at the levels `normal` and `debug`: the lines of the
unit come in between, and the two events that print nothing are not reported. -/
theorem levels_only_add_lines_normal_debug :
    let normal : Console := ⟨.normal, .ofUnicode false⟩
    let debug : Console := ⟨.debug, .ofUnicode false⟩
    let compiler : Compiler := fun _ _ files => ⟨.ok (), files, [⟨.err, "remark\n"⟩], 5⟩
    let config : Config := ⟨.ofString "src", .ofString "out", ⟨some (.ofString "/emcc")⟩⟩
    let run (console : Console) :=
      execute compiler console.wantsDetail "p" config ⟨sourceTree, 0, 0⟩
    let shown (console : Console) := (run console).steps.flatMap (stepActions (.console console))
    normal.verbosity ≤ debug.verbosity ∧
      (run normal).events.length = 2 ∧ (run debug).events.length = 4 ∧
      (shown normal).map Action.stderr =
        ["[BUILD] Building p with Emscripten\n", "", "remark\n",
          "[OK] p: compiled 1 file in 5 ms\n"] ∧
      (shown debug).map Action.stderr =
        ["[BUILD] Building p with Emscripten\n", "  Source: src\n", "  Output: out\n",
          "  $ /emcc/emcc -Os src/p/a.c -o out/a.js\n", "", "remark\n",
          "  [OK] src/p/a.c -> out/a.wasm\n", "[OK] p: compiled 1 file in 5 ms\n"] ∧
      normal.transcript (run normal).events = normal.transcript (run debug).events ∧
      (shown normal).Sublist (shown debug) := by
  intro normal debug compiler config run shown
  have rising : normal.verbosity ≤ debug.verbosity := by decide
  obtain ⟨-, builds⟩ := levels_only_add_lines rising (.ofUnicode false)
  obtain ⟨same, added⟩ := builds compiler "p" config ⟨sourceTree, 0, 0⟩
  exact ⟨rising, by decide +kernel, by decide +kernel, by decide +kernel, by decide +kernel,
    (same normal).1, added⟩

end WasmBuild.Report
