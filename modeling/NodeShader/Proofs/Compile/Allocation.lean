import NodeShader.Proofs.Compile.Identifiers

/-!
Requests for identifiers, made one after the other. Whatever was asked before, two ids never share an
identifier, and what a request is answered can be told from the answers before it.
-/

namespace NodeShader

/-- A request for the identifier of an id. -/
structure Request where
  id : String
  strict : Bool
  deriving DecidableEq, Repr

/-- A request with its answer. -/
structure Exchange where
  request : Request
  answer : Outcome String

namespace Identifiers

def answer (identifiers : Identifiers) (request : Request) : Outcome String :=
  (·.1) <$> identifiers.allocate request.id request.strict

/-- The identifiers given out after a request; a request that is rejected changes nothing. -/
def after (identifiers : Identifiers) (request : Request) : Identifiers :=
  match (identifiers.allocate request.id request.strict).result with
  | .ok (_, next) => next
  | .error _ => identifiers

/-- Answers requests one after the other. -/
def serve (identifiers : Identifiers) : List Request → List Exchange
  | [] => []
  | request :: rest =>
    ⟨request, identifiers.answer request⟩ :: serve (identifiers.after request) rest

end Identifiers

namespace Exchange

/-- Whether an id was given an identifier in some exchanges. -/
def Gave (exchanges : List Exchange) (id identifier : String) : Prop :=
  ∃ exchange ∈ exchanges, exchange.request.id = id ∧ exchange.answer.result = .ok identifier

def Known (exchanges : List Exchange) (id : String) : Prop :=
  ∃ identifier, Gave exchanges id identifier

def Owned (exchanges : List Exchange) (identifier : String) : Prop :=
  ∃ id, Gave exchanges id identifier

theorem gave_concat {earlier : List Exchange} {exchange : Exchange} {id identifier : String} :
    Gave (earlier ++ [exchange]) id identifier ↔ Gave earlier id identifier ∨
      exchange.request.id = id ∧ exchange.answer.result = .ok identifier := by
  simp [Gave, or_and_right, exists_or]

/-- How a request is answered after some exchanges: a known id gets its identifier again; a new one
gets the bare identifier, or, if that is owned, the one with the least number that is free, unless
the request is strict and rejected. -/
structure IsAnswered (earlier : List Exchange) (exchange : Exchange) : Prop where
  known : ∀ identifier, Gave earlier exchange.request.id identifier →
    exchange.answer.result = .ok identifier
  bare : ¬ Known earlier exchange.request.id →
    ¬ Owned earlier (Identifiers.base exchange.request.id) →
      exchange.answer.result = .ok (Identifiers.base exchange.request.id)
  numbered : ¬ Known earlier exchange.request.id →
    Owned earlier (Identifiers.base exchange.request.id) →
      ∀ identifier, exchange.answer.result = .ok identifier →
        ∃ number, identifier = Identifiers.numbered (Identifiers.base exchange.request.id) number ∧
          IsLeast {number | 2 ≤ number ∧ ¬ Owned earlier
            (Identifiers.numbered (Identifiers.base exchange.request.id) number)} number
  rejected : (∃ error, exchange.answer.result = .error error) ↔
    exchange.request.strict = true ∧ ¬ Known earlier exchange.request.id ∧
      Owned earlier (Identifiers.base exchange.request.id)
  lenient : exchange.request.strict = false →
    ∃ identifier, exchange.answer.result = .ok identifier

/-- The identifiers given out are those of the exchanges so far. -/
structure Recorded (earlier : List Exchange) (identifiers : Identifiers) : Prop where
  exclusive : identifiers.Exclusive
  given : ∀ id identifier, identifiers.given? id = some identifier ↔ Gave earlier id identifier

namespace Recorded

variable {earlier later : List Exchange} {identifiers : Identifiers} {request : Request}
  {id identifier : String}

theorem known (recorded : Recorded earlier identifiers) :
    Known earlier id ↔ (identifiers.given? id).isSome := by
  simp only [Known, ← recorded.given, Option.isSome_iff_exists]

theorem owned (recorded : Recorded earlier identifiers) :
    Owned earlier identifier ↔ (identifiers.owner? identifier).isSome := by
  simp only [Owned, ← recorded.given, recorded.exclusive _ identifier, Option.isSome_iff_exists]

theorem start : Recorded [] .empty where
  exclusive := Identifiers.exclusive_empty
  given := by simp [Identifiers.empty, Identifiers.given?, Gave]

end Recorded

end Exchange

namespace Identifiers

open Exchange

variable {identifiers next : Identifiers} {request : Request} {earlier later : List Exchange}
  {requests : List Request} {identifier : String} {error : CompileError}

theorem answer_result (identifiers : Identifiers) (request : Request) :
    (identifiers.answer request).result =
      (identifiers.allocate request.id request.strict).result >>= fun given => .ok given.1 := by
  rw [answer, map_eq_pure_bind, Outcome.result_bind]
  rfl

theorem after_of_ok
    (allocated : (identifiers.allocate request.id request.strict).result = .ok (identifier, next)) :
    (identifiers.answer request).result = .ok identifier ∧ identifiers.after request = next := by
  rw [answer_result, after, allocated]
  exact ⟨rfl, rfl⟩

theorem after_of_error
    (rejected : (identifiers.allocate request.id request.strict).result = .error error) :
    (identifiers.answer request).result = .error error ∧
      identifiers.after request = identifiers := by
  rw [answer_result, after, rejected]
  exact ⟨rfl, rfl⟩

theorem after_of_rejected (rejected : (identifiers.answer request).result = .error error) :
    identifiers.after request = identifiers := by
  cases result : (identifiers.allocate request.id request.strict).result with
  | error => exact (after_of_error result).2
  | ok given =>
    rw [(after_of_ok result).1] at rejected
    cases rejected

/-- What is given out after one more request is what was given out before and the answer to it. -/
theorem recorded_answer (recorded : Recorded earlier identifiers) (request : Request) :
    Recorded (earlier ++ [⟨request, identifiers.answer request⟩]) (identifiers.after request) := by
  cases result : (identifiers.allocate request.id request.strict).result with
  | error error =>
    obtain ⟨answered, unchanged⟩ := after_of_error result
    rw [unchanged]
    refine ⟨recorded.exclusive, fun id identifier => ?_⟩
    rw [gave_concat, answered, recorded.given]
    simp
  | ok given =>
    obtain ⟨identifier, next⟩ := given
    obtain ⟨answered, changed⟩ := after_of_ok result
    rw [changed]
    refine ⟨recorded.exclusive.allocate result, fun id name => ?_⟩
    rw [gave_concat, answered, ← recorded.given, Except.ok.injEq]
    -- a new id gets the identifier that it is answered; a known one had it before
    have added (new : identifiers.given? request.id = none) :
        (identifiers.give request.id identifier).given? id = some name ↔
          identifiers.given? id = some name ∨ request.id = id ∧ identifier = name := by
      rw [given?_give]
      split
      · next same => simp [same, new]
      · next other => simp [Ne.symm other]
    obtain ⟨wanted, strict⟩ := request
    have done := identifiers.allocates wanted strict
    rw [result] at done
    cases done with
    | known given =>
      refine ⟨.inl, fun either => ?_⟩
      rcases either with before | ⟨rfl, rfl⟩
      · exact before
      · exact given
    | bare new => exact added new
    | numbered new => exact added new

theorem recorded_serve (recorded : Recorded earlier identifiers) (requests : List Request) :
    Recorded (earlier ++ identifiers.serve requests) (requests.foldl after identifiers) := by
  induction requests generalizing earlier identifiers with
  | nil => simpa [serve] using recorded
  | cons request rest ih => simpa [serve] using ih (recorded_answer recorded request)

theorem map_request_serve (requests : List Request) (identifiers : Identifiers) :
    (identifiers.serve requests).map (·.request) = requests := by
  induction requests generalizing identifiers with
  | nil => rfl
  | cons request rest ih => rw [serve, List.map_cons, ih]

theorem serve_append (requests more : List Request) (identifiers : Identifiers) :
    identifiers.serve (requests ++ more) =
      identifiers.serve requests ++ (requests.foldl after identifiers).serve more := by
  induction requests generalizing identifiers with
  | nil => rfl
  | cons request rest ih => rw [List.cons_append, serve, serve, ih, List.foldl_cons, List.cons_append]

/-- An exchange among others: what was asked before it, and what is asked from then on. -/
theorem serve_split {exchange : Exchange}
    (split : identifiers.serve requests = earlier ++ exchange :: later) :
    ∃ before after', requests = before ++ exchange.request :: after' ∧
      identifiers.serve before = earlier ∧
      exchange.answer = (before.foldl after identifiers).answer exchange.request ∧
      ((before.foldl after identifiers).after exchange.request).serve after' = later := by
  have asked := congrArg (List.map (·.request)) split
  rw [map_request_serve, List.map_append, List.map_cons] at asked
  have parts := split
  rw [asked, serve_append, serve] at parts
  have lengths : (identifiers.serve (earlier.map (·.request))).length = earlier.length := by
    have same := congrArg List.length (map_request_serve (earlier.map (·.request)) identifiers)
    simpa using same
  obtain ⟨front, back⟩ := List.append_inj parts lengths
  obtain ⟨here, rest⟩ := List.cons.inj back
  exact ⟨_, _, asked, front, (congrArg Exchange.answer here).symm, rest⟩

theorem isAnswered_answer (recorded : Recorded earlier identifiers) (request : Request) :
    IsAnswered earlier ⟨request, identifiers.answer request⟩ := by
  obtain ⟨wanted, strict⟩ := request
  have unknown (new : identifiers.given? wanted = none) : ¬ Known earlier wanted := by
    rw [recorded.known, new]
    exact Bool.false_ne_true
  have done := identifiers.allocates wanted strict
  have answered := identifiers.answer_result ⟨wanted, strict⟩
  generalize (identifiers.answer ⟨wanted, strict⟩) = answer at answered ⊢
  generalize (identifiers.allocate wanted strict).result = result at done answered
  cases done with
  | @known _ identifier given =>
    have old : Known earlier wanted := recorded.known.2 (by rw [given]; rfl)
    have same (other : String) (gave : Gave earlier wanted other) : answer.result = .ok other := by
      rw [← recorded.given, given] at gave
      rw [answered, ← Option.some.inj gave]
      rfl
    exact ⟨same, fun new => absurd old new, fun new => absurd old new,
      iff_of_false (not_error_of_ok answered) fun reason => reason.2.1 old, fun _ => ⟨_, answered⟩⟩
  | bare new free =>
    have unowned : ¬ Owned earlier (base wanted) := by
      rw [recorded.owned, free]
      exact Bool.false_ne_true
    exact ⟨fun identifier gave => absurd ⟨identifier, gave⟩ (unknown new), fun _ _ => answered,
      fun _ owned => absurd owned unowned,
      iff_of_false (not_error_of_ok answered) fun reason => unowned reason.2.2,
      fun _ => ⟨_, answered⟩⟩
  | rejected new taken =>
    have owned : Owned earlier (base wanted) := recorded.owned.2 (by rw [taken]; rfl)
    refine ⟨fun identifier gave => absurd ⟨identifier, gave⟩ (unknown new),
      fun _ unowned => absurd owned unowned, fun _ _ identifier given => ?_,
      iff_of_true ⟨_, answered⟩ ⟨rfl, unknown new, owned⟩, nofun⟩
    rw [answered] at given
    cases given
  | @numbered _ new taken number least =>
    have owned : Owned earlier (base wanted) := recorded.owned.2 (by rw [taken]; rfl)
    have free (name : String) : ¬ Owned earlier name ↔ identifiers.owner? name = none := by
      rw [recorded.owned, Option.not_isSome_iff_eq_none]
    refine ⟨fun identifier gave => absurd ⟨identifier, gave⟩ (unknown new),
      fun _ unowned => absurd owned unowned, fun _ _ identifier given => ⟨number, ?_, ?_⟩,
      iff_of_false (not_error_of_ok answered) fun reason => Bool.false_ne_true reason.1,
      fun _ => ⟨_, answered⟩⟩
    · rw [answered] at given
      exact (Except.ok.inj given).symm
    · simpa only [free] using least

/-- Two ids never share an identifier, whatever was requested and whatever was rejected; a rejected
request changes no later answer. -/
theorem serve_exclusive (requests : List Request) :
    (empty.serve requests).map (·.request) = requests ∧
      (∀ earlier exchange later, empty.serve requests = earlier ++ exchange :: later →
        IsAnswered earlier exchange ∧
          ((∃ error, exchange.answer.result = .error error) →
            empty.serve ((earlier ++ later).map (·.request)) = earlier ++ later)) ∧
      ∀ first ∈ empty.serve requests, ∀ second ∈ empty.serve requests, ∀ identifier identifier',
        first.answer.result = .ok identifier → second.answer.result = .ok identifier' →
          (identifier = identifier' ↔ first.request.id = second.request.id) := by
  refine ⟨map_request_serve requests empty, ?_, ?_⟩
  · intro earlier exchange later split
    obtain ⟨before, after', rfl, rfl, answered, rfl⟩ := serve_split split
    obtain ⟨request, answer⟩ := exchange
    dsimp only at answered ⊢
    subst answered
    have recorded := recorded_serve .start before
    refine ⟨isAnswered_answer recorded request, ?_⟩
    rintro ⟨error, rejected⟩
    rw [after_of_rejected rejected, ← serve_append, map_request_serve]
  · intro first member second member' identifier identifier' given given'
    have recorded := recorded_serve .start requests
    have here := (recorded.given _ _).2 ⟨first, member, rfl, given⟩
    have there := (recorded.given _ _).2 ⟨second, member', rfl, given'⟩
    constructor
    · intro same
      rw [recorded.exclusive] at here there
      rw [← same, here] at there
      exact Option.some.inj there
    · intro same
      rw [← same, here] at there
      exact Option.some.inj there

example : ((empty.serve [⟨"a-b", false⟩, ⟨"a.b", true⟩, ⟨"a.b", false⟩, ⟨"a b", false⟩,
    ⟨"a_b_2", false⟩, ⟨"a.b", true⟩]).map fun exchange => exchange.answer.result.toOption) =
      [some "n_a_b", none, some "n_a_b_2", some "n_a_b_3", some "n_a_b_2_2", some "n_a_b_2"] := by
  decide +kernel

end Identifiers

end NodeShader
