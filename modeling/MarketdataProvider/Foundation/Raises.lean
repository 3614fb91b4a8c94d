import MarketdataProvider.Foundation.Outcome

namespace Foundation

variable {Error Value Result State : Type}

/-- A computation that fails with an allowed error, if it fails at all. -/
def Raises (allowed : Error → Prop) (outcome : Except Error Value) : Prop :=
  ∀ error, outcome = .error error → allowed error

namespace Raises

variable {allowed : Error → Prop} {outcome : Except Error Value}

theorem ok (value : Value) : Raises allowed (.ok value : Except Error Value) := by
  intro error failed
  cases failed

theorem error {raised : Error} (known : allowed raised) :
    Raises allowed (.error raised : Except Error Value) := by
  intro error failed
  cases failed
  exact known

/-- A sequence raises what its parts raise. -/
theorem bind {next : Value → Except Error Result} (first : Raises allowed outcome)
    (rest : ∀ value, outcome = .ok value → Raises allowed (next value)) :
    Raises allowed (outcome >>= next) := by
  intro error failed
  cases outcome with
  | error raised =>
      cases failed
      exact first error rfl
  | ok value => exact rest value rfl error failed

theorem mapM {change : Value → Except Error Result} {values : List Value}
    (each : ∀ value ∈ values, Raises allowed (change value)) : Raises allowed (values.mapM change) := by
  induction values with
  | nil => exact ok []
  | cons value values ih =>
      rw [List.mapM_cons]
      obtain ⟨own, others⟩ := List.forall_mem_cons.mp each
      exact own.bind fun _ _ => (ih others).bind fun _ _ => ok _

theorem foldlM {change : State → Value → Except Error State} {values : List Value}
    (each : ∀ state, ∀ value ∈ values, Raises allowed (change state value)) (state : State) :
    Raises allowed (values.foldlM change state) := by
  induction values generalizing state with
  | nil => exact ok state
  | cons value values ih =>
      rw [List.foldlM_cons]
      have own := each state value List.mem_cons_self
      exact own.bind fun next _ => ih (fun other later member =>
        each other later (List.mem_cons_of_mem _ member)) next

end Raises

end Foundation
