import NodeShader.Formula.Basic
import NodeShader.Graph.Order
import NodeShader.Text.Quoted

/-!
What a compilation reports: notices on the way, and a result or the reason why there is none.
-/

namespace NodeShader

inductive Level where
  | debug
  | warning
  deriving DecidableEq, Repr

namespace Level

def name : Level → String
  | .debug => "DEBUG"
  | .warning => "WARN"

end Level

inductive Notice where
  | cycle (cut : Cut)
  | noOutput
  | nothingNeeded (output : String)
  | compiling (needed total : Nat) (output : String) (cuts : Nat) (ids : List String)
  | inactiveOutput (id : String)
  | unknownKind (id kindName : String)
  | badFormula (id : String) (error : FormulaError)
  | renamed (id owner base identifier : String)
  deriving DecidableEq, Repr

namespace Notice

def level : Notice → Level
  | .cycle _ | .unknownKind _ _ | .badFormula _ _ | .renamed _ _ _ _ => .warning
  | .noOutput | .nothingNeeded _ | .compiling _ _ _ _ _ | .inactiveOutput _ => .debug

def message : Notice → String
  | .cycle cut =>
    "cycle: input " ++ toString cut.slot ++ " of node " ++ quoted cut.node ++ " points back at " ++
      quoted cut.target ++ "; treating it as unwired"
  | .noOutput => "no OutputFinal node; emitting fallback program"
  | .nothingNeeded output =>
    "empty closure for " ++ quoted output ++ "; emitting fallback program"
  | .compiling needed total output cuts ids =>
    "compiling " ++ toString needed ++ " of " ++ toString total ++ " nodes for output " ++
      quoted output ++ " (" ++ toString cuts ++ " back edges): " ++ quotedList ids
  | .inactiveOutput id => "skipping inactive output " ++ quoted id
  | .unknownKind id kindName =>
    "node " ++ quoted id ++ " has unknown kind " ++ quoted kindName ++ "; emitting black"
  | .badFormula id error => "Expr node " ++ quoted id ++ ": " ++ error.message ++ "; using 0.0"
  | .renamed id owner base identifier =>
    "node id " ++ quoted id ++ " collides with " ++ quoted owner ++ " as `" ++ base ++
      "`; using `" ++ identifier ++ "`"

end Notice

/-- Why a strict compilation fails. -/
inductive CompileError where
  | sameIdentifier (owner id base : String)
  | badFormula (id source : String) (error : FormulaError)
  deriving DecidableEq, Repr

namespace CompileError

def message : CompileError → String
  | .sameIdentifier owner id base =>
    "node ids " ++ quoted owner ++ " and " ++ quoted id ++ " both map to WGSL identifier `" ++
      base ++ "`"
  | .badFormula id source error =>
    "Expr node " ++ quoted id ++ ": cannot compile " ++ quoted source ++ ": " ++ error.message

end CompileError

structure Outcome (α : Type) where
  notices : List Notice
  result : Except CompileError α

namespace Outcome

variable {α β : Type}

def note (notice : Notice) : Outcome Unit := ⟨[notice], .ok ()⟩

def fail (error : CompileError) : Outcome α := ⟨[], .error error⟩

/-- Goes on with a result; the notices of both parts follow each other. -/
def andThen (first : Outcome α) (next : α → Outcome β) : Outcome β :=
  match first with
  | ⟨notices, .error error⟩ => ⟨notices, .error error⟩
  | ⟨notices, .ok value⟩ =>
    match next value with
    | ⟨others, result⟩ => ⟨notices ++ others, result⟩

instance : Monad Outcome where
  pure value := ⟨[], .ok value⟩
  bind := andThen

theorem andThen_pure (outcome : Outcome α) : outcome.andThen pure = outcome := by
  obtain ⟨notices, result⟩ := outcome
  cases result with
  | ok value => exact congrArg (Outcome.mk · (.ok value)) (List.append_nil notices)
  | error error => rfl

theorem pure_andThen (value : α) (next : α → Outcome β) :
    (pure value : Outcome α).andThen next = next value :=
  rfl

theorem andThen_andThen {γ : Type} (outcome : Outcome α) (next : α → Outcome β)
    (last : β → Outcome γ) :
    (outcome.andThen next).andThen last =
      outcome.andThen fun value => (next value).andThen last := by
  obtain ⟨notices, result⟩ := outcome
  cases result with
  | error error => rfl
  | ok value =>
    simp only [andThen]
    obtain ⟨others, result⟩ := next value
    cases result with
    | error error => rfl
    | ok value => simp only [List.append_assoc]

instance : LawfulMonad Outcome :=
  LawfulMonad.mk' Outcome andThen_pure pure_andThen andThen_andThen

end Outcome

end NodeShader
