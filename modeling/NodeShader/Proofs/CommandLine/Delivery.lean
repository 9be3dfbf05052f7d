import NodeShader.Proofs.CommandLine.Settings
import NodeShader.Proofs.Compile.Completion

/-!
A run of the command line does all that it is asked for or nothing: it makes a program from the files
as they are, and only then does it write. A run that fails prints nothing and leaves every file as it
was.
-/

namespace NodeShader

namespace CommandLine

/-- Settings without those of an output file. -/
def Setting.withoutOut (settings : List Setting) : List Setting :=
  settings.filter fun setting => setting.out?.isNone

theorem Arguments.ofSettings_withoutOut (settings : List Setting) :
    ofSettings (Setting.withoutOut settings) = { ofSettings settings with out := none } := by
  have graphs : (Setting.withoutOut settings).filterMap Setting.graph? =
      settings.filterMap Setting.graph? := by
    induction settings with
    | nil => rfl
    | cons setting settings ih =>
      cases setting with
      | out short path => exact ih
      | graph path => exact congrArg (path :: ·) ih
      | validate | strict => exact ih
  have outs : (Setting.withoutOut settings).filterMap Setting.out? = [] := by
    simp [Setting.withoutOut]
  rw [ofSettings, graphs, outs]
  simp [ofSettings, Setting.withoutOut, Setting.out?]

namespace FileSystem

variable {check : Check} {system : FileSystem} {known : Arguments} {program : String}
  {arguments : List String} {settings : List Setting} {α β : Type}

/-! ### One action after the other -/

theorem run_bind (action : ExceptT Failure (StateM FileSystem) α)
    (next : α → ExceptT Failure (StateM FileSystem) β) (system : FileSystem) :
    (action >>= next).run.run system = match action.run.run system with
      | (.ok value, after) => (next value).run.run after
      | (.error failure, after) => (.error failure, after) := by
  change (ExceptT.bindCont next (action.run.run system).1).run (action.run.run system).2 = _
  rcases action.run.run system with ⟨result, after⟩
  cases result <;> rfl

theorem run_notices (notices : List Notice) :
    (notices.forM fun notice => ExceptT.lift ((host check).notify notice) :
      ExceptT Failure (StateM FileSystem) PUnit).run.run system = (.ok (), system) := by
  induction notices with
  | nil => rfl
  | cons notice notices ih => exact ih

/-! ### Making a program -/

/-- A graph is what the file at a path describes. -/
def Holds (system : FileSystem) (path : String) (graph : Graph) : Prop :=
  ∃ text, system.read path = .ok text ∧ Graph.read? text = some graph

/-- The graph that is given can be loaded and compiles to a program. -/
def Compiles (system : FileSystem) (known : Arguments) (program : String) : Prop :=
  ∃ path graph shader, known.graph = some path ∧ system.Holds path graph ∧
    (graph.compile known.options).result = .ok shader ∧ shader.text = program

/-- A check passes a program, unless none is asked for. -/
def Passes (check : Check) (known : Arguments) (program : String) : Prop :=
  known.validate = true → check program = .ok ()

/-- Loading leaves the files as they are. -/
theorem run_load (check : Check) (system : FileSystem) (path : String) :
    ∃ result, (load (host check) path).run.run system = (result, system) ∧
      ∀ graph, result = .ok graph ↔ system.Holds path graph := by
  have looked : (ExceptT.mk do return (← (host check).read path).mapError (.unreadable path) :
      ExceptT Failure (StateM FileSystem) String).run.run system =
      ((system.read path).mapError (.unreadable path), system) := rfl
  unfold load
  rw [run_bind, looked]
  cases found : system.read path with
  | error reason => exact ⟨.error (.unreadable path reason), rfl, by simp [Holds, found]⟩
  | ok text =>
    dsimp only [Except.mapError]
    cases held : Graph.read? text with
    | none => exact ⟨.error (.invalidGraph path), rfl, by simp [Holds, found, held]⟩
    | some graph => exact ⟨.ok graph, rfl, by simp [Holds, found, held]⟩

/-- The check, if one is asked for, hands on the program that it passes. -/
theorem run_checked (check : Check) (system : FileSystem) (known : Arguments) (path text : String) :
    ∃ result, (do
        if known.validate then
          ExceptT.mk (pure (((host check).check text).mapError (.invalidProgram path)))
        return text : ExceptT Failure (StateM FileSystem) String).run.run system = (result, system) ∧
      ∀ program, result = .ok program ↔ text = program ∧ Passes check known program := by
  cases asked : known.validate with
  | false => exact ⟨.ok text, rfl, by simp [Passes, asked]⟩
  | true =>
    simp only [if_true, host]
    cases checked : check text with
    | error reason =>
      refine ⟨.error (.invalidProgram path reason), rfl, fun program => iff_of_false nofun ?_⟩
      rintro ⟨rfl, passes⟩
      rw [passes asked] at checked
      cases checked
    | ok =>
      refine ⟨.ok text, rfl, fun program => ?_⟩
      constructor
      · rintro ⟨⟩
        exact ⟨rfl, fun _ => checked⟩
      · rintro ⟨rfl, -⟩
        rfl

/-- Making a program leaves the files as they are, and gives the program that the graph compiles to if
the check passes it. -/
theorem run_make (check : Check) (system : FileSystem) (known : Arguments) :
    ∃ result, (make (host check) known).run.run system = (result, system) ∧
      ∀ program, result = .ok program ↔
        system.Compiles known program ∧ Passes check known program := by
  unfold make
  -- One stage after the other: each fails with the files as they are, or hands on what it made.
  cases given : known.graph with
  | none => exact ⟨.error .missingGraph, rfl, by simp [Compiles, given]⟩
  | some path =>
    obtain ⟨loaded, ran, holds⟩ := run_load check system path
    dsimp only
    rw [run_bind, ran]
    cases loaded with
    | error failure => exact ⟨.error failure, rfl, by simp [Compiles, given, ← holds]⟩
    | ok graph =>
      dsimp only
      rw [run_bind, run_notices]
      cases compiled : (graph.compile known.options).result with
      | error error =>
        exact ⟨.error (.uncompilable path error), rfl, by simp [Compiles, given, ← holds, compiled]⟩
      | ok shader =>
        have compiles (program : String) :
            system.Compiles known program ↔ shader.text = program := by
          simp [Compiles, given, ← holds, compiled]
        have made : (ExceptT.mk (pure (.ok shader)) : ExceptT Failure (StateM FileSystem) Shader) =
            pure shader := rfl
        simp only [compiles, Except.mapError]
        rw [made, pure_bind]
        exact run_checked check system known path shader.text

/-! ### Putting it out -/

/-- The file that is to be written, if there is one, can be. -/
def Accepts (system : FileSystem) (known : Arguments) : Prop :=
  ∀ out, known.out = some out → system.writable out = true

theorem run_host_write (check : Check) (system : FileSystem) (out program : String) :
    ((host check).write out program).run system = match system.write out program with
      | .ok after => (.ok (), after)
      | .error reason => (.error reason, system) := by
  change (match system.write out program with
    | .ok after => (do set after; return .ok () : StateM FileSystem (Except FileError Unit))
    | .error reason => return .error reason).run system = _
  cases system.write out program <;> rfl

theorem run_write (check : Check) (system : FileSystem) (out program : String) :
    (ExceptT.mk do return (← (host check).write out program).mapError (.unwritable out) :
      ExceptT Failure (StateM FileSystem) PUnit).run.run system =
    match system.write out program with
      | .ok after => (.ok (), after)
      | .error reason => (.error (.unwritable out reason), system) := by
  change ((((host check).write out program).run system).1.mapError (Failure.unwritable out),
    (((host check).write out program).run system).2) = _
  rw [run_host_write]
  cases system.write out program <;> rfl

theorem write_iff (out program : String) :
    (∃ after, system.write out program = .ok after) ↔ system.writable out = true := by
  unfold write
  split
  · next writable => exact iff_of_true ⟨_, rfl⟩ writable
  · next writable => exact iff_of_false nofun writable

/-- A program is printed, or written to its file and to no other. -/
theorem run_deliver_ok (check : Check) (accepts : system.Accepts known) (program : String) :
    ∃ text after, (deliver (host check) known program).run.run system = (.ok text, after) ∧
      (known.out = none → text = program ∧ after = system) ∧
      ∀ out, known.out = some out →
        ∀ path, after.read path = if path = out then .ok program else system.read path := by
  unfold deliver
  cases named : known.out with
  | none => exact ⟨program, system, rfl, fun _ => ⟨rfl, rfl⟩, nofun⟩
  | some out =>
    obtain ⟨after, wrote⟩ := (write_iff out program).2 (accepts out named)
    have ran := run_write check system out program
    rw [wrote] at ran
    dsimp only
    rw [run_bind, ran]
    refine ⟨_, after, rfl, nofun, ?_⟩
    rintro out' ⟨⟩
    exact read_write wrote

theorem run_deliver_error (check : Check) (refuses : ¬ system.Accepts known) (program : String) :
    ∃ failure, (deliver (host check) known program).run.run system = (.error failure, system) := by
  unfold deliver
  cases named : known.out with
  | none => exact absurd (fun out given => by simp [named] at given) refuses
  | some out =>
    have ran := run_write check system out program
    cases wrote : system.write out program with
    | ok after =>
      refine absurd (fun out' given => ?_) refuses
      cases named.symm.trans given
      exact (write_iff out program).1 ⟨after, wrote⟩
    | error reason =>
      rw [wrote] at ran
      dsimp only
      rw [run_bind, ran]
      exact ⟨_, rfl⟩

/-! ### The whole run -/

/-- All that a run is asked for can be done: the arguments are read, the graph compiles to a program,
the check passes it, and its file can be written. -/
structure Completes (check : Check) (system : FileSystem) (arguments : List String)
    (known : Arguments) (program : String) : Prop where
  read : Arguments.read arguments = .ok known
  compiles : system.Compiles known program
  passes : Passes check known program
  accepts : system.Accepts known

/-- Once the arguments are read, a run makes a program and then puts it out. -/
theorem perform_eq (accepted : Arguments.read arguments = .ok known) :
    perform (host check) arguments = make (host check) known >>= deliver (host check) known := by
  have read : (ExceptT.mk (pure (.ok known)) : ExceptT Failure (StateM FileSystem) Arguments) =
      pure known := rfl
  unfold perform
  rw [accepted, read, pure_bind]

theorem run_completes (completes : Completes check system arguments known program) :
    ∃ text after, system.runWith check arguments = (⟨0, text, ""⟩, after) ∧
      (known.out = none → text = program ∧ after = system) ∧
      ∀ out, known.out = some out →
        ∀ path, after.read path = if path = out then .ok program else system.read path := by
  obtain ⟨made, ran, program_iff⟩ := run_make check system known
  cases (program_iff program).2 ⟨completes.compiles, completes.passes⟩
  obtain ⟨text, after, delivered, facts⟩ := run_deliver_ok check completes.accepts program
  refine ⟨text, after, ?_, facts⟩
  rw [runWith, perform_eq completes.read, run_bind, ran]
  dsimp only
  rw [delivered]
  rfl

theorem run_fails (fails : ¬ ∃ known program, Completes check system arguments known program) :
    ∃ report, system.runWith check arguments = (⟨1, "", report⟩, system) := by
  suffices failed : ∃ failure,
      (perform (host check) arguments).run.run system = (.error failure, system) by
    obtain ⟨failure, ran⟩ := failed
    refine ⟨failure.report, ?_⟩
    rw [runWith, ran]
    rfl
  cases read : Arguments.read arguments with
  | error failure =>
    refine ⟨failure, ?_⟩
    unfold perform
    rw [read, run_bind]
    rfl
  | ok known =>
    obtain ⟨made, ran, program_iff⟩ := run_make check system known
    rw [perform_eq read, run_bind, ran]
    cases made with
    | error failure => exact ⟨failure, rfl⟩
    | ok program =>
      obtain ⟨compiles, passes⟩ := (program_iff program).1 rfl
      by_cases accepts : system.Accepts known
      · exact absurd ⟨known, program, read, compiles, passes, accepts⟩ fails
      · exact run_deliver_error check accepts program

/-- The same without an output file. -/
theorem Completes.withoutOut
    (completes : Completes check system (Setting.spell settings) known program) :
    Completes check system (Setting.spell (Setting.withoutOut settings)) { known with out := none }
      program where
  read := by
    have read := completes.read
    rw [Arguments.read_spell] at read
    cases read
    rw [Arguments.read_spell, Arguments.ofSettings_withoutOut]
  compiles := completes.compiles
  passes := completes.passes
  accepts := nofun

/-- A run succeeds if all that it is asked for can be done. Then it prints the program and leaves the
files as they are, or it changes just the file that it is asked for, to what it prints without being
asked for a file. In any other case it fails, prints nothing and changes no file. -/
theorem run_all_or_nothing (check : Check) (system : FileSystem) (arguments : List String) :
    let ran := system.runWith check arguments
    (ran.1.code = 0 ↔ ∃ known program, Completes check system arguments known program) ∧
    (∀ known program, Completes check system arguments known program →
      (known.out = none → ran.1.stdout = program ∧ ran.2 = system) ∧
      ∀ out, known.out = some out →
        (∀ path, ran.2.read path = if path = out then .ok program else system.read path) ∧
        ∃ settings, arguments = Setting.spell settings ∧
          (system.runWith check (Setting.spell (Setting.withoutOut settings))).1.stdout = program) ∧
    ((¬ ∃ known program, Completes check system arguments known program) →
      ran.1.code = 1 ∧ ran.1.stdout = "" ∧ ran.2 = system) := by
  intro ran
  -- A run either completes or fails, so that its code tells which.
  refine ⟨⟨fun succeeded => ?_, ?_⟩, ?_, ?_⟩
  · by_contra fails
    obtain ⟨report, same⟩ := run_fails fails
    rw [show ran = _ from same] at succeeded
    cases succeeded
  · rintro ⟨known, program, completes⟩
    obtain ⟨text, after, same, -⟩ := run_completes completes
    rw [show ran = _ from same]
  · intro known program completes
    obtain ⟨text, after, same, printed, written⟩ := run_completes completes
    rw [show ran = _ from same]
    refine ⟨printed, fun out named => ⟨written out named, ?_⟩⟩
    obtain ⟨settings, rfl, -⟩ := Arguments.read_eq_ok_iff.1 completes.read
    obtain ⟨text', after', same', printed', -⟩ := run_completes completes.withoutOut
    refine ⟨settings, rfl, ?_⟩
    rw [same']
    exact (printed' rfl).1
  · intro fails
    obtain ⟨report, same⟩ := run_fails fails
    rw [show ran = _ from same]
    exact ⟨rfl, rfl, rfl⟩

def singleText : String := "\x7b\"nodes\": [\x7b\"id\": \"out\", \"type\": \"OutputFinal\"\x7d]\x7d"

/-- A graph of one node in a file, the only one that can be written. -/
def single : FileSystem where
  files := [("g.json", singleText)]
  writable path := path == "g.json"

theorem single_compiles (out : Option String) :
    ∃ program, single.Compiles ⟨some "g.json", out, false, false⟩ program := by
  have made : ((Graph.read? singleText).bind
      fun graph => (graph.compile .lenient).result.toOption).isSome := by
    simp only [Graph.read?, Graph.normalize?_eq, Document.read?,
      @toList_of_ofList singleText _ rfl]
    decide +kernel
  obtain ⟨shader, made⟩ := Option.isSome_iff_exists.1 made
  obtain ⟨graph, held, compiled⟩ := Option.bind_eq_some_iff.1 made
  refine ⟨shader.text, "g.json", graph, shader, rfl, ⟨singleText, rfl, held⟩, ?_, rfl⟩
  cases result : (graph.compile .lenient).result with
  | error error => simp [result, Except.toOption] at compiled
  | ok made => simpa [result, Except.toOption, Arguments.options] using compiled

/-- A program takes the place of the graph that it is made from. -/
theorem graph_overwritten :
    (single.run ["--graph", "g.json", "-o", "g.json"]).1.code = 0 ∧
      (single.run ["--graph", "g.json", "-o", "g.json"]).2.read "g.json" =
        .ok (single.run ["--graph", "g.json"]).1.stdout := by
  obtain ⟨succeeds, ends, -⟩ :=
    run_all_or_nothing (fun _ => .ok ()) single ["--graph", "g.json", "-o", "g.json"]
  obtain ⟨program, compiles⟩ := single_compiles (some "g.json")
  have completes : Completes (fun _ => .ok ()) single ["--graph", "g.json", "-o", "g.json"]
      ⟨some "g.json", some "g.json", false, false⟩ program :=
    ⟨by decide, compiles, fun _ => rfl, by rintro out ⟨⟩; rfl⟩
  obtain ⟨written, settings, spelled, printed⟩ := (ends _ _ completes).2 "g.json" rfl
  have same : [.graph "g.json", .out true "g.json"] = settings := Setting.spell_injective spelled
  subst same
  refine ⟨succeeds.2 ⟨_, _, completes⟩, ?_⟩
  rw [run, run, written, if_pos rfl]
  exact congrArg Except.ok printed.symm

end FileSystem

end CommandLine

end NodeShader
