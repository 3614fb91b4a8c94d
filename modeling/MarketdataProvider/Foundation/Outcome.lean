import Mathlib.Data.List.Forall2

namespace Foundation

variable {Error Value Result State : Type}

/-- A sequence returns when both of its parts do. -/
@[simp] theorem bind_eq_ok {first : Except Error Value} {rest : Value → Except Error Result}
    {result : Result} :
    (first >>= rest) = .ok result ↔ ∃ value, first = .ok value ∧ rest value = .ok result := by
  cases first with
  | error error => simp [bind, Except.bind]
  | ok value => simp [bind, Except.bind]

@[simp] theorem map_eq_ok {change : Value → Result} {first : Except Error Value} {result : Result} :
    change <$> first = .ok result ↔ ∃ value, first = .ok value ∧ change value = result := by
  cases first with
  | error error => simp [Functor.map, Except.map]
  | ok value => simp [Functor.map, Except.map]

@[simp] theorem pure_eq_ok {value result : Value} :
    (pure value : Except Error Value) = .ok result ↔ value = result := by
  simp [pure, Except.pure]

theorem eq_ok_of_toOption {outcome : Except Error Value} {value : Value}
    (found : outcome.toOption = some value) : outcome = .ok value := by
  cases outcome with
  | error error => cases found
  | ok other => exact congrArg Except.ok (Option.some.inj found)

theorem eq_ok_of_toBool {outcome : Except Error Value} (returned : outcome.toBool = true) :
    ∃ value, outcome = .ok value := by
  cases outcome with
  | error error => cases returned
  | ok value => exact ⟨value, rfl⟩

/-- The result of a run that returned a value with the given image. -/
theorem returned_of_toOption {State Image : Type} {result : Except Error Value × State}
    {image : Value → Image} {found : Image} (seen : result.1.toOption.map image = some found) :
    ∃ value after, result = (.ok value, after) ∧ image value = found := by
  obtain ⟨outcome, after⟩ := result
  obtain ⟨value, returned, same⟩ := Option.map_eq_some_iff.mp seen
  exact ⟨value, after, Prod.ext (eq_ok_of_toOption returned) rfl, same⟩

theorem ok_bind (value : Value) (rest : Value → Except Error Result) :
    ((.ok value : Except Error Value) >>= rest) = rest value := rfl

/-- The results stand in the order of the arguments. -/
theorem mapM_eq_ok {change : Value → Except Error Result} {values : List Value}
    {results : List Result} :
    values.mapM change = .ok results ↔
      List.Forall₂ (fun value result => change value = .ok result) values results := by
  induction values generalizing results with
  | nil =>
      rw [List.mapM_nil, pure_eq_ok, List.forall₂_nil_left_iff, eq_comm]
  | cons value values ih =>
      rw [List.mapM_cons]
      simp only [bind_eq_ok, pure_eq_ok, ih]
      constructor
      · rintro ⟨head, changed, tail, rest, rfl⟩
        exact .cons changed rest
      · intro related
        cases related with
        | cons changed rest => exact ⟨_, changed, _, rest, rfl⟩

theorem mapM_eq_map {change : Value → Except Error Result} {values : List Value} {plain : Value → Result}
    (each : ∀ value ∈ values, change value = .ok (plain value)) :
    values.mapM change = .ok (values.map plain) := by
  rw [mapM_eq_ok, List.forall₂_map_right_iff, List.forall₂_same]
  exact each

/-- A mapping that returns has a result for each value. -/
theorem ok_of_mem_mapM {change : Value → Except Error Result} {values : List Value}
    {results : List Result} (mapped : values.mapM change = .ok results) :
    ∀ value ∈ values, ∃ result, change value = .ok result := by
  rw [mapM_eq_ok] at mapped
  induction mapped with
  | nil => simp
  | cons changed rest ih =>
      rintro value (_ | ⟨_, member⟩)
      · exact ⟨_, changed⟩
      · exact ih value member

/-- Each value of a mapping that returns has its result among the results. -/
theorem mem_of_mapM {change : Value → Except Error Result} {values : List Value}
    {results : List Result} (mapped : values.mapM change = .ok results) {value : Value}
    {result : Result} (member : value ∈ values) (changed : change value = .ok result) :
    result ∈ results := by
  rw [mapM_eq_ok] at mapped
  induction mapped with
  | nil => cases member
  | cons first rest ih =>
      rcases List.mem_cons.mp member with rfl | behind
      · rw [changed, Except.ok.injEq] at first
        rw [first]
        exact List.mem_cons_self
      · exact List.mem_cons_of_mem _ (ih behind)

/-- A mapping returns when it returns for each value. -/
theorem mapM_ok {change : Value → Except Error Result} {values : List Value}
    (each : ∀ value ∈ values, ∃ result, change value = .ok result) :
    ∃ results, values.mapM change = .ok results := by
  induction values with
  | nil => exact ⟨[], rfl⟩
  | cons value values ih =>
      obtain ⟨result, changed⟩ := each value List.mem_cons_self
      obtain ⟨results, rest⟩ := ih fun other member => each other (List.mem_cons_of_mem _ member)
      exact ⟨result :: results, by rw [List.mapM_cons, changed, ok_bind, rest, ok_bind]; rfl⟩

/-- Each result of a mapping comes from a value. -/
theorem of_mem_mapM {change : Value → Except Error Result} {values : List Value}
    {results : List Result} (mapped : values.mapM change = .ok results) :
    ∀ result ∈ results, ∃ value ∈ values, change value = .ok result := by
  rw [mapM_eq_ok] at mapped
  induction mapped with
  | nil => simp
  | cons changed rest ih =>
      rintro result (_ | ⟨_, member⟩)
      · exact ⟨_, List.mem_cons_self, changed⟩
      · obtain ⟨value, inside, made⟩ := ih result member
        exact ⟨value, List.mem_cons_of_mem _ inside, made⟩

/-- A fold over two lists in a row is one fold after the other. -/
theorem foldlM_append_eq_ok {change : State → Value → Except Error State} {state final : State}
    {front back : List Value} :
    (front ++ back).foldlM change state = .ok final ↔
      ∃ middle, front.foldlM change state = .ok middle ∧ back.foldlM change middle = .ok final := by
  rw [List.foldlM_append, bind_eq_ok]

/-- What each step of a fold keeps holds at its end. -/
theorem foldlM_keeps {change : State → Value → Except Error State} {holds : State → Prop}
    {values : List Value} {state final : State}
    (step : ∀ value ∈ values, ∀ before after, holds before → change before value = .ok after → holds after)
    (start : holds state) (folded : values.foldlM change state = .ok final) : holds final := by
  induction values generalizing state with
  | nil =>
      cases folded
      exact start
  | cons value values ih =>
      rw [List.foldlM_cons, bind_eq_ok] at folded
      obtain ⟨middle, changed, rest⟩ := folded
      exact ih (fun other member => step other (List.mem_cons_of_mem _ member))
        (step value List.mem_cons_self state middle start changed) rest

/-- A fold that parses each value first is the fold over the parsed values. -/
theorem foldlM_parse_eq_ok {parse : Value → Except Error Result}
    {change : State → Result → Except Error State} {values : List Value} {state final : State} :
    values.foldlM (fun current value => parse value >>= change current) state = .ok final ↔
      ∃ results, List.Forall₂ (fun value result => parse value = .ok result) values results ∧
        results.foldlM change state = .ok final := by
  induction values generalizing state with
  | nil => simp
  | cons value values ih =>
      simp only [List.foldlM_cons, bind_eq_ok, ih]
      constructor
      · rintro ⟨middle, ⟨result, parsed, changed⟩, results, rest, folded⟩
        refine ⟨result :: results, .cons parsed rest, ?_⟩
        rw [List.foldlM_cons, bind_eq_ok]
        exact ⟨middle, changed, folded⟩
      · rintro ⟨_, related, folded⟩
        cases related with
        | cons parsed rest =>
            rw [List.foldlM_cons, bind_eq_ok] at folded
            obtain ⟨middle, changed, folded⟩ := folded
            exact ⟨middle, ⟨_, parsed, changed⟩, _, rest, folded⟩

/-- A fold that checks each value first succeeds when all the checks do. -/
theorem foldlM_check_eq_ok {check : Value → Except Error Unit}
    {change : State → Value → Except Error State} {values : List Value} {state final : State} :
    values.foldlM (fun current value => check value >>= fun _ => change current value) state =
        .ok final ↔
      (∀ value ∈ values, check value = .ok ()) ∧ values.foldlM change state = .ok final := by
  induction values generalizing state with
  | nil => simp
  | cons value values ih =>
      simp only [List.foldlM_cons, bind_eq_ok, ih, List.forall_mem_cons]
      constructor
      · rintro ⟨middle, ⟨⟨⟩, checked, changed⟩, rest, folded⟩
        exact ⟨⟨checked, rest⟩, middle, changed, folded⟩
      · rintro ⟨⟨checked, rest⟩, middle, changed, folded⟩
        exact ⟨middle, ⟨(), checked, changed⟩, rest, folded⟩

end Foundation
