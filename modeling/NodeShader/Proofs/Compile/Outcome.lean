import NodeShader.Compile.Outcome

/-!
Results of outcomes, notices aside: a result follows the binds of its outcome.
-/

namespace NodeShader

theorem except_bind_eq_ok {ε α β : Type} {first : Except ε α} {next : α → Except ε β} {result : β} :
    first >>= next = .ok result ↔ ∃ value, first = .ok value ∧ next value = .ok result := by
  cases first with
  | ok value =>
    constructor
    · intro rest
      exact ⟨value, rfl, rest⟩
    · intro given
      rcases given with ⟨_, same, rest⟩
      cases same
      exact rest
  | error error =>
    constructor
    · intro failed
      cases failed
    · intro given
      rcases given with ⟨_, same, -⟩
      cases same

theorem not_error_of_ok {ε α : Type} {outcome : Except ε α} {value : α} (ok : outcome = .ok value) :
    ¬ ∃ error, outcome = .error error := by
  rintro ⟨error, failed⟩
  rw [ok] at failed
  cases failed

/-- Going on with a function of the result adds no failure. -/
theorem except_map_error_iff {ε α β : Type} {first : Except ε α} (f : α → β) :
    (∃ error, first >>= (fun value => .ok (f value)) = .error error) ↔
      ∃ error, first = .error error := by
  cases first with
  | ok value =>
    exact iff_of_false (not_error_of_ok rfl) (not_error_of_ok rfl)
  | error error => exact ⟨fun _ => ⟨error, rfl⟩, fun _ => ⟨error, rfl⟩⟩

/-- A fold that fails does so at an item, after the items before it went through. -/
theorem except_foldlM_error {ε α β : Type} {step : β → α → Except ε β} {items : List α} {start : β}
    {error : ε} (failed : items.foldlM step start = .error error) :
    ∃ before item after partway, items = before ++ item :: after ∧
      before.foldlM step start = .ok partway ∧ step partway item = .error error := by
  induction items generalizing start with
  | nil => cases failed
  | cons item items ih =>
    rw [List.foldlM_cons] at failed
    cases first : step start item with
    | error =>
      rw [first] at failed
      cases failed
      exact ⟨[], item, items, start, rfl, rfl, first⟩
    | ok next =>
      rw [first] at failed
      rcases ih failed with ⟨before, last, after, partway, rfl, ran, stuck⟩
      refine ⟨item :: before, last, after, partway, rfl, ?_, stuck⟩
      rw [List.foldlM_cons, first]
      exact ran

/-- Where a fold goes through, so does each of its steps. -/
theorem except_foldlM_ok {ε α β : Type} {step : β → α → Except ε β} {before after : List α}
    {item : α} {start final : β} (ran : (before ++ item :: after).foldlM step start = .ok final) :
    ∃ partway next, before.foldlM step start = .ok partway ∧ step partway item = .ok next := by
  rw [List.foldlM_append] at ran
  rcases except_bind_eq_ok.1 ran with ⟨partway, first, ran⟩
  rw [List.foldlM_cons] at ran
  rcases except_bind_eq_ok.1 ran with ⟨next, stepped, -⟩
  exact ⟨partway, next, first, stepped⟩

/-- A fold whose steps go through elsewhere as well gives the same there. -/
theorem except_foldlM_mono {ε α β : Type} {step step' : β → α → Except ε β} {items : List α}
    {start final : β}
    (kept : ∀ state item next, step state item = .ok next → step' state item = .ok next)
    (ran : items.foldlM step start = .ok final) : items.foldlM step' start = .ok final := by
  induction items generalizing start with
  | nil => exact ran
  | cons item items ih =>
    rw [List.foldlM_cons] at ran ⊢
    rcases except_bind_eq_ok.1 ran with ⟨next, stepped, ran⟩
    rw [kept start item next stepped]
    exact ih ran

namespace Outcome

variable {α β : Type}

@[simp]
theorem result_pure (value : α) : (pure value : Outcome α).result = .ok value := rfl

@[simp]
theorem result_fail (error : CompileError) : (fail error : Outcome α).result = .error error := rfl

@[simp]
theorem result_note (notice : Notice) : (note notice).result = .ok () := rfl

@[simp]
theorem result_bind (first : Outcome α) (next : α → Outcome β) :
    (first >>= next).result = first.result >>= fun value => (next value).result := by
  rcases first with ⟨notices, result⟩
  cases result <;> rfl

theorem result_foldlM (step : β → α → Outcome β) (items : List α) (start : β) :
    (items.foldlM step start).result =
      items.foldlM (fun state item => (step state item).result) start := by
  induction items generalizing start with
  | nil => rfl
  | cons item items ih =>
    rw [List.foldlM_cons, List.foldlM_cons, result_bind]
    exact congrArg _ (funext ih)

theorem result_forM_note (notice : α → Notice) (items : List α) :
    (items.forM fun item => note (notice item)).result = .ok () := by
  induction items with
  | nil => rfl
  | cons item items ih =>
    change (note (notice item) >>= fun _ => items.forM fun item => note (notice item)).result = _
    rw [result_bind, result_note]
    exact ih

end Outcome

end NodeShader
