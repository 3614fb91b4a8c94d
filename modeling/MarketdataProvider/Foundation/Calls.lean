import Mathlib.Logic.Relation

namespace Foundation

/-- A program over a shared object: each call is one atomic step of the object. -/
inductive Calls (Op : Type) (Reply : Op → Type) (Error Value : Type) where
  | done (value : Value)
  | fail (error : Error)
  | call (op : Op) (next : Reply op → Calls Op Reply Error Value)

namespace Calls

variable {Op : Type} {Reply : Op → Type} {Error Value Result State : Type}

protected def bind : Calls Op Reply Error Value → (Value → Calls Op Reply Error Result) →
    Calls Op Reply Error Result
  | done value, rest => rest value
  | fail error, _ => fail error
  | call op next, rest => call op fun reply => (next reply).bind rest

instance : Monad (Calls Op Reply Error) where
  pure := done
  bind := Calls.bind

def ofExcept : Except Error Value → Calls Op Reply Error Value
  | .ok value => done value
  | .error error => fail error

@[simp] theorem pure_eq_done (value : Value) :
    (pure value : Calls Op Reply Error Value) = done value := rfl

@[simp] theorem done_bind (value : Value) (rest : Value → Calls Op Reply Error Result) :
    (done value >>= rest) = rest value := rfl

@[simp] theorem fail_bind (error : Error) (rest : Value → Calls Op Reply Error Result) :
    (fail error >>= rest) = fail error := rfl

@[simp] theorem call_bind (op : Op) (next : Reply op → Calls Op Reply Error Value)
    (rest : Value → Calls Op Reply Error Result) :
    (call op next >>= rest) = call op fun reply => next reply >>= rest := rfl

@[simp] theorem ofExcept_ok (value : Value) :
    (ofExcept (.ok value) : Calls Op Reply Error Value) = done value := rfl

@[simp] theorem ofExcept_error (error : Error) :
    (ofExcept (.error error) : Calls Op Reply Error Value) = fail error := rfl

/-- How the object answers a call, and what the call makes of its state. -/
abbrev Handler (Op : Type) (Reply : Op → Type) (Error State : Type) :=
  (op : Op) → State → Except Error (Reply op) × State

variable (handle : Handler Op Reply Error State)

/-- The run of a program that has the object for itself. -/
def run : Calls Op Reply Error Value → State → Except Error Value × State
  | done value, state => (.ok value, state)
  | fail error, state => (.error error, state)
  | call op next, state =>
      match handle op state with
      | (.ok reply, after) => (next reply).run after
      | (.error error, after) => (.error error, after)

@[simp] theorem run_done (value : Value) (state : State) :
    (done value : Calls Op Reply Error Value).run handle state = (.ok value, state) := rfl

@[simp] theorem run_fail (error : Error) (state : State) :
    (fail error : Calls Op Reply Error Value).run handle state = (.error error, state) := rfl

theorem run_call_ok {op : Op} {next : Reply op → Calls Op Reply Error Value} {state after : State}
    {reply : Reply op} (answered : handle op state = (.ok reply, after)) :
    (call op next).run handle state = (next reply).run handle after := by
  rw [run, answered]

theorem run_call_error {op : Op} {next : Reply op → Calls Op Reply Error Value} {state after : State}
    {error : Error} (raised : handle op state = (.error error, after)) :
    (call op next).run handle state = (.error error, after) := by
  rw [run, raised]

/-- A sequence runs its second part exactly when the first part returns. -/
theorem run_bind (program : Calls Op Reply Error Value) (rest : Value → Calls Op Reply Error Result)
    (state : State) : (program >>= rest).run handle state =
      match program.run handle state with
      | (.ok value, after) => (rest value).run handle after
      | (.error error, after) => (.error error, after) := by
  induction program generalizing state with
  | done value => rfl
  | fail error => rfl
  | call op next ih =>
      rw [call_bind, run, run]
      match handle op state with
      | (.ok reply, after) => exact ih reply after
      | (.error error, after) => rfl

theorem run_bind_ok {program : Calls Op Reply Error Value}
    {rest : Value → Calls Op Reply Error Result} {state after : State} {value : Value}
    (returned : program.run handle state = (.ok value, after)) :
    (program >>= rest).run handle state = (rest value).run handle after := by
  rw [run_bind, returned]

theorem run_bind_error {program : Calls Op Reply Error Value}
    {rest : Value → Calls Op Reply Error Result} {state after : State} {error : Error}
    (raised : program.run handle state = (.error error, after)) :
    (program >>= rest).run handle state = (.error error, after) := by
  rw [run_bind, raised]

/-- A run in which others take steps before and between the calls.
Each call meets the condition on the state in which it is made. -/
inductive Interleaved (meets : Op → State → Prop) (others : State → State → Prop) :
    Calls Op Reply Error Value → State → Except Error Value → State → Prop where
  | done {value : Value} {state : State} : Interleaved meets others (done value) state (.ok value) state
  | fail {error : Error} {state : State} :
      Interleaved meets others (fail error) state (.error error) state
  | call {op : Op} {next : Reply op → Calls Op Reply Error Value} {state after final : State}
      {reply : Reply op} {outcome : Except Error Value} (met : meets op state)
      (answered : handle op state = (.ok reply, after))
      (rest : Interleaved meets others (next reply) after outcome final) :
      Interleaved meets others (call op next) state outcome final
  | raised {op : Op} {next : Reply op → Calls Op Reply Error Value} {state after : State}
      {error : Error} (met : meets op state) (answered : handle op state = (.error error, after)) :
      Interleaved meets others (call op next) state (.error error) after
  | other {program : Calls Op Reply Error Value} {state between final : State}
      {outcome : Except Error Value} (step : others state between)
      (rest : Interleaved meets others program between outcome final) :
      Interleaved meets others program state outcome final

variable {handle}

/-- The result of every interleaved run, and of every one that raises. -/
def Ensures (handle : Handler Op Reply Error State) (meets : Op → State → Prop)
    (others : State → State → Prop) (program : Calls Op Reply Error Value) (state : State)
    (result : Value → State → Prop) (raises : Error → State → Prop) : Prop :=
  ∀ outcome final, Interleaved handle meets others program state outcome final →
    match outcome with
    | .ok value => result value final
    | .error error => raises error final

section Rules

variable {meets : Op → State → Prop} {others : State → State → Prop}
  {result : Value → State → Prop} {raises : Error → State → Prop} {state : State}

/-- A property that the steps of others keep survives until the next call. -/
theorem Ensures.of_stable {pre : State → Prop} {program : Calls Op Reply Error Value}
    (stable : ∀ state between, pre state → others state between → pre between)
    (settled : ∀ value, program = Calls.done value → ∀ state, pre state → result value state)
    (failed : ∀ error, program = Calls.fail error → ∀ state, pre state → raises error state)
    (called : ∀ op next, program = Calls.call op next → ∀ state, pre state → meets op state →
      match handle op state with
      | (.ok reply, after) => Ensures handle meets others (next reply) after result raises
      | (.error error, after) => raises error after)
    (holds : pre state) : Ensures handle meets others program state result raises := by
  intro outcome final ran
  induction ran with
  | done => exact settled _ rfl _ holds
  | fail => exact failed _ rfl _ holds
  | call met answered rest _ =>
      have next := called _ _ rfl _ holds met
      rw [answered] at next
      exact next _ _ rest
  | raised met answered =>
      have next := called _ _ rfl _ holds met
      rwa [answered] at next
  | other step rest ih => exact ih settled failed called (stable _ _ holds step)

theorem Ensures.done {pre : State → Prop} {value : Value}
    (stable : ∀ state between, pre state → others state between → pre between)
    (reached : ∀ state, pre state → result value state) (holds : pre state) :
    Ensures handle meets others (Calls.done value) state result raises :=
  .of_stable stable (fun _ same => by cases same; exact reached) (fun _ same => by cases same)
    (fun _ _ same => by cases same) holds

theorem Ensures.fail {pre : State → Prop} {error : Error}
    (stable : ∀ state between, pre state → others state between → pre between)
    (reached : ∀ state, pre state → raises error state) (holds : pre state) :
    Ensures handle meets others (Calls.fail error) state result raises :=
  .of_stable stable (fun _ same => by cases same) (fun _ same => by cases same; exact reached)
    (fun _ _ same => by cases same) holds

theorem Ensures.call {pre : State → Prop} {op : Op} {next : Reply op → Calls Op Reply Error Value}
    (stable : ∀ state between, pre state → others state between → pre between)
    (called : ∀ state, pre state → meets op state →
      match handle op state with
      | (.ok reply, after) => Ensures handle meets others (next reply) after result raises
      | (.error error, after) => raises error after)
    (holds : pre state) : Ensures handle meets others (Calls.call op next) state result raises :=
  .of_stable stable (fun _ same => by cases same) (fun _ same => by cases same)
    (fun _ _ same => by cases same; exact called) holds

/-- A sequence is its first part, and then its second part from where the first one ended. -/
theorem interleaved_bind {program : Calls Op Reply Error Value}
    {rest : Value → Calls Op Reply Error Result} {final : State} {outcome : Except Error Result}
    (ran : Interleaved handle meets others (program >>= rest) state outcome final) :
    (∃ value middle, Interleaved handle meets others program state (.ok value) middle ∧
      Interleaved handle meets others (rest value) middle outcome final) ∨
    ∃ error, outcome = .error error ∧
      Interleaved handle meets others program state (.error error) final := by
  generalize combined : (program >>= rest) = whole at ran
  induction ran generalizing program with
  | @done value current =>
      cases program with
      | done first =>
          refine .inl ⟨first, current, .done, ?_⟩
          have same : rest first = .done value := combined
          rw [same]
          exact .done
      | fail error => cases combined
      | call op next => cases combined
  | @fail error current =>
      cases program with
      | done first =>
          refine .inl ⟨first, current, .done, ?_⟩
          rw [show rest first = _ from combined]
          exact .fail
      | fail error => cases combined; exact .inr ⟨_, rfl, .fail⟩
      | call op next => cases combined
  | call met answered later ih =>
      cases program with
      | done first =>
          refine .inl ⟨first, _, .done, ?_⟩
          rw [show rest first = _ from combined]
          exact .call met answered later
      | fail error => cases combined
      | call op next =>
          cases combined
          rcases ih rfl with ⟨value, middle, first, second⟩ | ⟨error, same, first⟩
          · exact .inl ⟨value, middle, .call met answered first, second⟩
          · exact .inr ⟨error, same, .call met answered first⟩
  | raised met answered =>
      cases program with
      | done first =>
          refine .inl ⟨first, _, .done, ?_⟩
          rw [show rest first = _ from combined]
          exact .raised met answered
      | fail error => cases combined
      | call op next =>
          cases combined
          exact .inr ⟨_, rfl, .raised met answered⟩
  | other step later ih =>
      rcases ih combined with ⟨value, middle, first, second⟩ | ⟨error, same, first⟩
      · exact .inl ⟨value, middle, .other step first, second⟩
      · exact .inr ⟨error, same, .other step first⟩

theorem Ensures.bind {middle : Value → State → Prop} {last : Result → State → Prop}
    {program : Calls Op Reply Error Value} {rest : Value → Calls Op Reply Error Result}
    (first : Ensures handle meets others program state middle raises)
    (second : ∀ value after, middle value after →
      Ensures handle meets others (rest value) after last raises) :
    Ensures handle meets others (program >>= rest) state last raises := by
  intro outcome final ran
  rcases interleaved_bind ran with ⟨value, between, early, late⟩ | ⟨error, rfl, early⟩
  · exact second value between (first _ _ early) outcome final late
  · exact first _ _ early

end Rules

section Runs

variable {meets : Op → State → Prop} {others : State → State → Prop}

/-- What every step of a run relates, its own ones and those of others, the whole run relates. -/
theorem Interleaved.related {related : State → State → Prop} (refl : ∀ state, related state state)
    (trans : ∀ first second third, related first second → related second third → related first third)
    (own : ∀ op state, meets op state → related state (handle op state).2)
    (other : ∀ state between, others state between → related state between)
    {program : Calls Op Reply Error Value} {state final : State} {outcome : Except Error Value}
    (ran : Interleaved handle meets others program state outcome final) : related state final := by
  induction ran with
  | done => exact refl _
  | fail => exact refl _
  | call met answered _ ih =>
      have step := own _ _ met
      rw [answered] at step
      exact trans _ _ _ step ih
  | raised met answered =>
      have step := own _ _ met
      rwa [answered] at step
  | other step _ ih => exact trans _ _ _ (other _ _ step) ih

theorem Interleaved.mono {wider : Op → State → Prop} {program : Calls Op Reply Error Value}
    {state final : State} {outcome : Except Error Value}
    (implies : ∀ op state, meets op state → wider op state)
    (ran : Interleaved handle meets others program state outcome final) :
    Interleaved handle wider others program state outcome final := by
  induction ran with
  | done => exact .done
  | fail => exact .fail
  | call met answered _ ih => exact .call (implies _ _ met) answered ih
  | raised met answered => exact .raised (implies _ _ met) answered
  | other step _ ih => exact .other step ih

end Runs

section Made

variable {handle : Handler Op Reply Error State} {others : State → State → Prop}

/-- The calls that a run makes, each with the state in which it is made. -/
inductive Makes (handle : Handler Op Reply Error State) (others : State → State → Prop) :
    Calls Op Reply Error Value → State → Op → State → Prop where
  | here {op : Op} {next : Reply op → Calls Op Reply Error Value} {state : State} :
      Makes handle others (call op next) state op state
  | later {op made : Op} {next : Reply op → Calls Op Reply Error Value} {state after place : State}
      {reply : Reply op} (answered : handle op state = (.ok reply, after))
      (rest : Makes handle others (next reply) after made place) :
      Makes handle others (call op next) state made place
  | other {program : Calls Op Reply Error Value} {made : Op} {state between place : State}
      (step : others state between) (rest : Makes handle others program between made place) :
      Makes handle others program state made place

theorem not_makes_done {value : Value} {state place : State} {made : Op} :
    ¬ Makes handle others (done value : Calls Op Reply Error Value) state made place := by
  intro makes
  generalize finished : (done value : Calls Op Reply Error Value) = program at makes
  induction makes with
  | here => cases finished
  | later => cases finished
  | other _ _ ih => exact ih finished

theorem not_makes_fail {error : Error} {state place : State} {made : Op} :
    ¬ Makes handle others (fail error : Calls Op Reply Error Value) state made place := by
  intro makes
  generalize finished : (fail error : Calls Op Reply Error Value) = program at makes
  induction makes with
  | here => cases finished
  | later => cases finished
  | other _ _ ih => exact ih finished

/-- The calls of a sequence are those of its first part, and then those of its second part. -/
theorem makes_bind {program : Calls Op Reply Error Value} {rest : Value → Calls Op Reply Error Result}
    {state place : State} {made : Op} (makes : Makes handle others (program >>= rest) state made place) :
    Makes handle others program state made place ∨
      ∃ value middle, Interleaved handle (fun _ _ => True) others program state (.ok value) middle ∧
        Makes handle others (rest value) middle made place := by
  generalize combined : (program >>= rest) = whole at makes
  induction makes generalizing program with
  | @here op next state =>
      cases program with
      | done value => exact .inr ⟨value, state, .done, by rw [show rest value = _ from combined]; exact .here⟩
      | fail error => cases combined
      | call own following =>
          cases combined
          exact .inl .here
  | @later op made next state after place reply answered later ih =>
      cases program with
      | done value =>
          exact .inr ⟨value, state, .done, by rw [show rest value = _ from combined]; exact .later answered later⟩
      | fail error => cases combined
      | call own following =>
          cases combined
          rcases ih rfl with early | ⟨value, middle, ran, late⟩
          · exact .inl (.later answered early)
          · exact .inr ⟨value, middle, .call trivial answered ran, late⟩
  | other step _ ih =>
      rcases ih combined with early | ⟨value, middle, ran, late⟩
      · exact .inl (.other step early)
      · exact .inr ⟨value, middle, .other step ran, late⟩

/-- A call alone is made where the others have led. -/
theorem makes_call {op made : Op} {state place : State}
    (makes : Makes handle others (call op done : Calls Op Reply Error (Reply op)) state made place) :
    made = op ∧ Relation.ReflTransGen others state place := by
  generalize alone : (call op done : Calls Op Reply Error (Reply op)) = program at makes
  induction makes with
  | here =>
      cases alone
      exact ⟨rfl, .refl⟩
  | later _ rest =>
      cases alone
      exact absurd rest not_makes_done
  | other step _ ih =>
      obtain ⟨same, led⟩ := ih alone
      exact ⟨same, .head step led⟩

/-- A program that makes these calls only. -/
def Only (allowed : Op → Prop) : Calls Op Reply Error Value → Prop
  | done _ => True
  | fail _ => True
  | call op next => allowed op ∧ ∀ reply, (next reply).Only allowed

variable {allowed : Op → Prop}

theorem Only.bind {program : Calls Op Reply Error Value} {rest : Value → Calls Op Reply Error Result}
    (first : program.Only allowed) (second : ∀ value, (rest value).Only allowed) :
    (program >>= rest).Only allowed := by
  induction program with
  | done value => exact second value
  | fail error => exact trivial
  | call op next ih => exact ⟨first.1, fun reply => ih reply (first.2 reply)⟩

theorem Only.ofExcept (outcome : Except Error Value) :
    (ofExcept outcome : Calls Op Reply Error Value).Only allowed := by
  cases outcome with
  | error error => exact trivial
  | ok value => exact trivial

/-- The calls of a run without others, each with the state in which it is made. -/
def trace (handle : Handler Op Reply Error State) : Calls Op Reply Error Value → State → List (Op × State)
  | done _, _ => []
  | fail _, _ => []
  | call op next, state =>
      (op, state) :: match handle op state with
        | (.ok reply, after) => (next reply).trace handle after
        | (.error _, _) => []

theorem makes_of_trace {program : Calls Op Reply Error Value} {state place : State} {made : Op}
    (member : (made, place) ∈ program.trace handle state) : Makes handle others program state made place := by
  induction program generalizing state with
  | done value => cases member
  | fail error => cases member
  | call op next ih =>
      rw [trace, List.mem_cons] at member
      rcases member with first | later
      · cases first
        exact .here
      · cases answered : handle op state with
        | mk outcome after =>
            rw [answered] at later
            cases outcome with
            | ok reply => exact .later answered (ih reply later)
            | error error => cases later

theorem Only.makes {program : Calls Op Reply Error Value} (only : program.Only allowed) {state place : State}
    {made : Op} (makes : Makes handle others program state made place) : allowed made := by
  induction makes with
  | here => exact only.1
  | later _ _ ih => exact ih (only.2 _)
  | other _ _ ih => exact ih only

end Made

end Calls

end Foundation
