import Mathlib.Data.List.Forall2

/-!
# Steps that may fail

What it takes for steps in a row to succeed: every one of them does. Where they fail, one of them
does, with the same failure.
-/

namespace AssemblyAtlas
namespace Success

universe u v w

variable {ε : Type u} {α β : Type v}

/-- Success is no failure. -/
theorem ok_ne_error
    {value : α}
    {failure : ε} :
    (.ok value : Except ε α) ≠ .error failure := by
  intro same
  cases same

/-- Two steps in a row succeed if the first does and the second does with its result. -/
theorem bind_eq_ok_iff
    {step : Except ε α}
    {next : α → Except ε β}
    {result : β} :
    step >>= next = .ok result
      ↔
    ∃ value, step = .ok value ∧ next value = .ok result := by
  cases step with
  | error failure => simp [bind, Except.bind]
  | ok value => simp [bind, Except.bind]

/-- Two steps in a row fail if the first does, or if the second does with its result. -/
theorem bind_eq_error_iff
    {step : Except ε α}
    {next : α → Except ε β}
    {failure : ε} :
    step >>= next = .error failure
      ↔
    step = .error failure ∨ ∃ value, step = .ok value ∧ next value = .error failure := by
  cases step with
  | error other => simp [bind, Except.bind]
  | ok value => simp [bind, Except.bind]

/-- A step for each element succeeds if all of them do; the results correspond. -/
theorem mapM_eq_ok_iff
    {γ : Type w}
    (step : γ → Except ε β)
    (elements : List γ)
    (results : List β) :
    elements.mapM step = .ok results
      ↔
    List.Forall₂ (fun element result => step element = .ok result) elements results := by
  induction elements generalizing results with
  | nil =>
      cases results with
      | nil => simp [pure, Except.pure]
      | cons result others => simp [pure, Except.pure]
  | cons element rest ih =>
      rw [List.mapM_cons, bind_eq_ok_iff]
      constructor
      · rintro ⟨result, first, h⟩
        obtain ⟨others, later, h⟩ := bind_eq_ok_iff.1 h
        obtain rfl : result :: others = results := by simpa [pure, Except.pure] using h
        exact .cons first ((ih others).1 later)
      · intro h
        cases h with
        | cons first later =>
            exact ⟨_, first, bind_eq_ok_iff.2 ⟨_, (ih _).2 later, rfl⟩⟩

/-- Where a step for each element fails, one of them does, with the same failure. -/
theorem exists_of_mapM_eq_error
    {γ : Type w}
    {step : γ → Except ε β}
    {elements : List γ}
    {failure : ε}
    (failed : elements.mapM step = .error failure) :
    ∃ element ∈ elements, step element = .error failure := by
  induction elements with
  | nil => simp [pure, Except.pure] at failed
  | cons element rest ih =>
      rw [List.mapM_cons, bind_eq_error_iff] at failed
      rcases failed with first | ⟨_, -, later⟩
      · exact ⟨element, List.mem_cons_self, first⟩
      · rcases bind_eq_error_iff.1 later with behind | ⟨_, -, done⟩
        · obtain ⟨other, isOther, failed⟩ := ih behind
          exact ⟨other, List.mem_cons_of_mem element isOther, failed⟩
        · exact absurd done ok_ne_error

/-- Each element has a result that corresponds to it. -/
theorem exists_result
    {γ : Type w}
    {relation : γ → β → Prop}
    {elements : List γ}
    {results : List β}
    (each : List.Forall₂ relation elements results)
    {element : γ}
    (member : element ∈ elements) :
    ∃ result ∈ results, relation element result := by
  induction each with
  | nil => simp at member
  | cons first _ ih =>
      rcases List.mem_cons.1 member with rfl | later
      · exact ⟨_, List.mem_cons_self, first⟩
      · obtain ⟨result, isResult, h⟩ := ih later
        exact ⟨result, List.mem_cons_of_mem _ isResult, h⟩

/-- Each result has an element that it corresponds to. -/
theorem exists_element
    {γ : Type w}
    {relation : γ → β → Prop}
    {elements : List γ}
    {results : List β}
    (each : List.Forall₂ relation elements results)
    {result : β}
    (member : result ∈ results) :
    ∃ element ∈ elements, relation element result :=
  exists_result each.flip member

/-- A result that passes a test is there. -/
theorem exists_ok_of_any
    {ε α : Type}
    {result : Except ε α}
    {test : α → Bool}
    (passes : result.toOption.any test = true) :
    ∃ value, result = .ok value ∧ test value = true := by
  cases result with
  | error failure => exact absurd passes Bool.false_ne_true
  | ok value => exact ⟨value, rfl, passes⟩

/-- Whatever the step fails with has a property. -/
def FailsWith {ε α : Type} (property : ε → Prop) (step : Except ε α) : Prop :=
  ∀ failure, step = .error failure → property failure

section Failures

variable {ε α β : Type} {property : ε → Prop}

theorem failsWith_ok (value : α) :
    FailsWith property (.ok value : Except ε α) :=
  fun _ failed => nomatch failed

theorem failsWith_error
    {failure : ε}
    (holds : property failure) :
    FailsWith property (.error failure : Except ε α) := by
  intro other failed
  cases failed
  exact holds

theorem FailsWith.bind
    {step : Except ε α}
    {next : α → Except ε β}
    (first : FailsWith property step)
    (second : ∀ value, FailsWith property (next value)) :
    FailsWith property (step >>= next) := by
  cases step with
  | error failure => exact failsWith_error (first failure rfl)
  | ok value => exact second value

theorem FailsWith.mapM
    {step : β → Except ε α}
    (each : ∀ element, FailsWith property (step element))
    (elements : List β) :
    FailsWith property (elements.mapM step) := by
  induction elements with
  | nil => exact failsWith_ok []
  | cons element rest ih =>
      rw [List.mapM_cons]
      exact (each element).bind fun result => ih.bind fun others => failsWith_ok (result :: others)

end Failures

end Success
end AssemblyAtlas
