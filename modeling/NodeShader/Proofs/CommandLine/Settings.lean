import Mathlib.Data.List.Basic
import NodeShader.CommandLine

/-!
The language of the command line: arguments are settings one after the other, each a word with its
value if it takes one, and a value may be any word. Reading accepts just this language.
-/

namespace NodeShader

namespace CommandLine

inductive Setting where
  | graph (path : String)
  | out (short : Bool) (path : String)
  | validate
  | strict
  deriving DecidableEq, Repr

namespace Setting

/-- The arguments that make a setting. -/
def words : Setting → List String
  | .graph path => ["--graph", path]
  | .out false path => ["--out", path]
  | .out true path => ["-o", path]
  | .validate => ["--validate"]
  | .strict => ["--strict"]

def graph? : Setting → Option String
  | .graph path => some path
  | _ => none

def out? : Setting → Option String
  | .out _ path => some path
  | _ => none

/-- The arguments of settings one after the other. -/
def spell (settings : List Setting) : List String := settings.flatMap words

/-- Whether arguments start with those of a setting. -/
def Starts (arguments : List String) : Prop :=
  ∃ (setting : Setting) (rest : List String), arguments = setting.words ++ rest

/-- Why arguments start no setting: a value is missing at their end, or there is no such option. -/
inductive Refuses : List String → Failure → Prop where
  | graph : Refuses ["--graph"] (.missingValue "--graph")
  | out {option : String} (given : option = "--out" ∨ option = "-o") :
      Refuses [option] (.missingValue "--out")
  | unknown {argument : String} (rest : List String)
      (other : argument ∉ ["--graph", "--out", "-o", "--validate", "--strict"]) :
      Refuses (argument :: rest) (.unknownArgument argument)

/-- The setting that arguments start with, and what follows it. -/
def next? : List String → Option (Setting × List String)
  | "--graph" :: path :: rest => some (.graph path, rest)
  | "--out" :: path :: rest => some (.out false path, rest)
  | "-o" :: path :: rest => some (.out true path, rest)
  | "--validate" :: rest => some (.validate, rest)
  | "--strict" :: rest => some (.strict, rest)
  | _ => none

variable {setting setting' : Setting} {settings settings' : List Setting}
  {arguments rest rest' : List String}

theorem next?_words (setting : Setting) (rest : List String) :
    next? (setting.words ++ rest) = some (setting, rest) := by
  cases setting with
  | out short path => cases short <;> rfl
  | graph | validate | strict => rfl

theorem words_ne_nil (setting : Setting) : setting.words ≠ [] := by
  cases setting with
  | out short path => cases short <;> exact List.cons_ne_nil _ _
  | graph | validate | strict => exact List.cons_ne_nil _ _

theorem not_starts_nil : ¬ Starts [] := by
  rintro ⟨setting, rest, same⟩
  exact setting.words_ne_nil (List.append_eq_nil_iff.1 same.symm).1

/-- No setting's arguments start with another's. -/
theorem words_append_inj (same : setting.words ++ rest = setting'.words ++ rest') :
    setting = setting' ∧ rest = rest' := by
  have read := congrArg next? same
  rw [next?_words, next?_words] at read
  cases read
  exact ⟨rfl, rfl⟩

/-- Arguments come to their end, start a setting, or are refused. -/
theorem starts_or_refuses (arguments : List String) :
    arguments = [] ∨ Starts arguments ∨ ∃ failure, Refuses arguments failure := by
  cases arguments with
  | nil => exact .inl rfl
  | cons word rest =>
    by_cases known : word ∈ ["--graph", "--out", "-o", "--validate", "--strict"]
    · simp only [List.mem_cons, List.not_mem_nil, or_false] at known
      rcases known with rfl | rfl | rfl | rfl | rfl
      · cases rest with
        | nil => exact .inr (.inr ⟨_, .graph⟩)
        | cons path rest => exact .inr (.inl ⟨.graph path, rest, rfl⟩)
      · cases rest with
        | nil => exact .inr (.inr ⟨_, .out (.inl rfl)⟩)
        | cons path rest => exact .inr (.inl ⟨.out false path, rest, rfl⟩)
      · cases rest with
        | nil => exact .inr (.inr ⟨_, .out (.inr rfl)⟩)
        | cons path rest => exact .inr (.inl ⟨.out true path, rest, rfl⟩)
      · exact .inr (.inl ⟨.validate, rest, rfl⟩)
      · exact .inr (.inl ⟨.strict, rest, rfl⟩)
    · exact .inr (.inr ⟨_, .unknown rest known⟩)

theorem spell_cons (setting : Setting) (settings : List Setting) (rest : List String) :
    spell (setting :: settings) ++ rest = setting.words ++ (spell settings ++ rest) := by
  rw [spell, List.flatMap_cons, List.append_assoc]
  rfl

theorem starts_spell (setting : Setting) (settings : List Setting) (rest : List String) :
    Starts (spell (setting :: settings) ++ rest) :=
  ⟨setting, _, spell_cons setting settings rest⟩

/-- There is only one way to split settings from the left of arguments as far as they go. -/
theorem spell_append_inj (stops : ¬ Starts rest) (stops' : ¬ Starts rest')
    (same : spell settings ++ rest = spell settings' ++ rest') :
    settings = settings' ∧ rest = rest' := by
  induction settings generalizing settings' with
  | nil =>
    cases settings' with
    | nil => exact ⟨rfl, same⟩
    | cons setting' settings' =>
      have all : rest = spell (setting' :: settings') ++ rest' := same
      exact absurd (all ▸ starts_spell setting' settings' rest') stops
  | cons setting settings ih =>
    cases settings' with
    | nil =>
      have all : rest' = spell (setting :: settings) ++ rest := same.symm
      exact absurd (all ▸ starts_spell setting settings rest) stops'
    | cons setting' settings' =>
      rw [spell_cons, spell_cons] at same
      obtain ⟨rfl, behind⟩ := words_append_inj same
      obtain ⟨rfl, rfl⟩ := ih behind
      exact ⟨rfl, rfl⟩

theorem spell_injective : Function.Injective spell := by
  intro settings settings' same
  exact (spell_append_inj not_starts_nil not_starts_nil (congrArg (· ++ []) same)).1

theorem exists_spell (arguments : List String) :
    ∃ settings rest, arguments = spell settings ++ rest ∧ ¬ Starts rest := by
  by_cases starts : Starts arguments
  · -- A setting takes one argument or two: the recursion is on the length, not on the list.
    obtain ⟨setting, behind, rfl⟩ := starts
    have shorter : behind.length < (setting.words ++ behind).length := by
      have := List.length_pos_iff.2 setting.words_ne_nil
      rw [List.length_append]
      omega
    obtain ⟨settings, rest, rfl, stops⟩ := exists_spell behind
    exact ⟨setting :: settings, rest, (spell_cons setting settings rest).symm, stops⟩
  · exact ⟨[], arguments, rfl, starts⟩
termination_by arguments.length

end Setting

namespace Arguments

open Setting

/-- Arguments after one more setting. -/
def set (known : Arguments) : Setting → Arguments
  | .graph path => { known with graph := some path }
  | .out _ path => { known with out := some path }
  | .validate => { known with validate := true }
  | .strict => { known with strict := true }

/-- What settings say together: the last value of each option, and which flags occur. -/
def ofSettings (settings : List Setting) : Arguments where
  graph := (settings.filterMap graph?).getLast?
  out := (settings.filterMap out?).getLast?
  validate := decide (.validate ∈ settings)
  strict := decide (.strict ∈ settings)

variable {settings settings' : List Setting} {arguments rest : List String} {failure : Failure}
  {known : Arguments}

/-- Reading takes up one setting. -/
theorem readFrom_words (known : Arguments) (setting : Setting) (rest : List String) :
    readFrom known (setting.words ++ rest) = readFrom (known.set setting) rest := by
  cases setting with
  | out short path => cases short <;> rfl
  | graph | validate | strict => rfl

theorem readFrom_refused (refuses : Refuses arguments failure) :
    readFrom known arguments = .error failure := by
  cases refuses with
  | graph => rfl
  | out given => rcases given with rfl | rfl <;> rfl
  | unknown rest other => simp_all [readFrom]

/-- Reading takes up settings one after the other. -/
theorem readFrom_spell (known : Arguments) (settings : List Setting) (rest : List String) :
    readFrom known (spell settings ++ rest) = readFrom (settings.foldl set known) rest := by
  induction settings generalizing known with
  | nil => rfl
  | cons setting settings ih => rw [spell_cons, readFrom_words, ih, List.foldl_cons]

theorem getLast?_cons_or (path : String) (paths : List String) (other : Option String) :
    (path :: paths).getLast?.or other = paths.getLast?.or (some path) := by
  rw [List.getLast?_cons]
  cases paths.getLast? <;> rfl

/-- Later values go before earlier ones, and flags stay. -/
theorem foldl_set (known : Arguments) (settings : List Setting) : settings.foldl set known =
    { graph := (settings.filterMap graph?).getLast?.or known.graph
      out := (settings.filterMap out?).getLast?.or known.out
      validate := decide (.validate ∈ settings) || known.validate
      strict := decide (.strict ∈ settings) || known.strict } := by
  induction settings generalizing known with
  | nil => simp
  | cons setting settings ih =>
    rw [List.foldl_cons, ih]
    cases setting with
    | graph path | out short path =>
      simp only [List.filterMap_cons, graph?, out?, getLast?_cons_or]
      simp [set]
    | validate | strict => simp [set, graph?, out?]

theorem foldl_set_empty (settings : List Setting) :
    settings.foldl set {} = ofSettings settings := by
  simp [foldl_set, ofSettings]

theorem read_spell (settings : List Setting) :
    read (spell settings) = .ok (ofSettings settings) := by
  have run := readFrom_spell {} settings []
  rw [List.append_nil, foldl_set_empty] at run
  exact run

theorem read_refused (settings : List Setting) (refuses : Refuses rest failure) :
    read (spell settings ++ rest) = .error failure := by
  rw [read, readFrom_spell]
  exact readFrom_refused refuses

theorem read_eq_ok_iff :
    read arguments = .ok known ↔ ∃ settings, arguments = spell settings ∧ known = ofSettings settings := by
  constructor
  · intro accepted
    obtain ⟨settings, rest, rfl, stops⟩ := exists_spell arguments
    rcases starts_or_refuses rest with rfl | starts | ⟨failure, refuses⟩
    · rw [List.append_nil, read_spell] at accepted
      cases accepted
      exact ⟨settings, List.append_nil _, rfl⟩
    · exact absurd starts stops
    · rw [read_refused settings refuses] at accepted
      cases accepted
  · rintro ⟨settings, rfl, rfl⟩
    exact read_spell settings

theorem read_eq_error_iff : read arguments = .error failure ↔
    ∃ settings rest, arguments = spell settings ++ rest ∧ ¬ Starts rest ∧ Refuses rest failure := by
  constructor
  · intro rejected
    obtain ⟨settings, rest, rfl, stops⟩ := exists_spell arguments
    rcases starts_or_refuses rest with rfl | starts | ⟨failure', refuses⟩
    · rw [List.append_nil, read_spell] at rejected
      cases rejected
    · exact absurd starts stops
    · rw [read_refused settings refuses] at rejected
      cases rejected
      exact ⟨settings, rest, rfl, stops, refuses⟩
  · rintro ⟨settings, rest, rfl, -, refuses⟩
    exact read_refused settings refuses

theorem ofSettings_perm (perm : settings.Perm settings')
    (graph : (settings.filterMap graph?).getLast? = (settings'.filterMap graph?).getLast?)
    (out : (settings.filterMap out?).getLast? = (settings'.filterMap out?).getLast?) :
    ofSettings settings = ofSettings settings' := by
  simp only [ofSettings, graph, out, perm.mem_iff]

/-- Arguments fall in one way into settings, as far as they go, and a rest that starts none. Without a
rest they are read as the settings say together, which their order does not matter for as long as
each option keeps its last value. A rest is what reading fails for. -/
theorem read_settings (arguments : List String) :
    (∃! split : List Setting × List String,
      arguments = spell split.1 ++ split.2 ∧ ¬ Starts split.2) ∧
    (∀ known, read arguments = .ok known ↔
      ∃ settings, arguments = spell settings ∧ known = ofSettings settings) ∧
    (∀ failure, read arguments = .error failure ↔
      ∃ settings rest, arguments = spell settings ++ rest ∧ ¬ Starts rest ∧ Refuses rest failure) ∧
    (∀ settings settings', arguments = spell settings → settings.Perm settings' →
      (settings.filterMap graph?).getLast? = (settings'.filterMap graph?).getLast? →
      (settings.filterMap out?).getLast? = (settings'.filterMap out?).getLast? →
      read (spell settings') = read arguments) := by
  refine ⟨?_, fun known => read_eq_ok_iff, fun failure => read_eq_error_iff, ?_⟩
  · obtain ⟨settings, rest, split, stops⟩ := exists_spell arguments
    refine ⟨(settings, rest), ⟨split, stops⟩, fun (settings', rest') ⟨split', stops'⟩ => ?_⟩
    obtain ⟨rfl, rfl⟩ := spell_append_inj stops stops' (split.symm.trans split')
    rfl
  · rintro settings settings' rfl perm graph out
    rw [read_spell, read_spell, ofSettings_perm perm graph out]

/-- Values that are spelled like options, and the same settings in another order. -/
theorem disguised_settings :
    read ["--graph", "--out", "-o", "--strict", "--strict"] =
      .ok ⟨some "--out", some "--strict", false, true⟩ ∧
    read ["--strict", "-o", "--strict", "--graph", "--out"] =
      read ["--graph", "--out", "-o", "--strict", "--strict"] := by
  obtain ⟨-, accepted, -, reordered⟩ :=
    read_settings ["--graph", "--out", "-o", "--strict", "--strict"]
  constructor
  · exact (accepted _).2 ⟨[.graph "--out", .out true "--strict", .strict], rfl, by decide⟩
  · exact reordered [.graph "--out", .out true "--strict", .strict]
      [.strict, .out true "--strict", .graph "--out"] rfl (by decide) rfl rfl

-- A value that is missing is told by the long name of its option.
example : read ["--strict", "-o"] = .error (.missingValue "--out") := rfl

end Arguments

end CommandLine

end NodeShader
