import MarketdataProvider.Foundation.Calls
import MarketdataProvider.Foundation.Crash

namespace Foundation

namespace Crash.Prog

variable {State Error Value Result Found Image : Type} {related : State → Image → Prop}
  {before : Image} {state middle : State}

/-- A program makes of the state what an outcome says of its image; a failure leaves the image. -/
def Realises (related : State → Image → Prop) (before : Image)
    (outcome : Except Error (Value × Image)) (program : Prog State Error Value) (state : State) : Prop :=
  match outcome with
  | .ok (value, image) => ∃ after, program.run state = (.ok value, after) ∧ related after image
  | .error error => ∃ after, program.run state = (.error error, after) ∧ related after before

theorem Realises.done {value : Value} {image : Image} (held : related state image) :
    Realises related before (.ok (value, image)) (Prog.done value : Prog State Error Value) state :=
  ⟨state, rfl, held⟩

theorem Realises.fail {error : Error} (held : related state before) :
    Realises related before (.error error) (Prog.fail error : Prog State Error Value) state :=
  ⟨state, rfl, held⟩

theorem Realises.read {outcome : Except Error (Value × Image)} {next : State → Prog State Error Value}
    (rest : Realises related before outcome (next state) state) :
    Realises related before outcome (Prog.read >>= next) state := rest

/-- A program that runs as another one does from another state. -/
theorem Realises.of_run {outcome : Except Error (Value × Image)} {program other : Prog State Error Value}
    (same : program.run state = other.run middle) (rest : Realises related before outcome other middle) :
    Realises related before outcome program state := by
  rcases outcome with error | ⟨value, image⟩
  · obtain ⟨last, raised, held⟩ := rest
    exact ⟨last, same.trans raised, held⟩
  · obtain ⟨last, returned, held⟩ := rest
    exact ⟨last, same.trans returned, held⟩

/-- What comes before the outcome can leave another state of the same image. -/
theorem Realises.after {outcome : Except Error (Value × Image)} {first : Prog State Error Found}
    {found : Found} {next : Found → Prog State Error Value}
    (ran : first.run state = (.ok found, middle))
    (rest : Realises related before outcome (next found) middle) :
    Realises related before outcome (first >>= next) state := by
  rcases outcome with error | ⟨value, image⟩
  · obtain ⟨last, raised, held⟩ := rest
    exact ⟨last, (run_bind_ok ran).trans raised, held⟩
  · obtain ⟨last, returned, held⟩ := rest
    exact ⟨last, (run_bind_ok ran).trans returned, held⟩

theorem Realises.raised {first : Prog State Error Found} {error : Error}
    {next : Found → Prog State Error Value} (ran : first.run state = (.error error, middle))
    (held : related middle before) :
    Realises related before (.error error) (first >>= next) state :=
  ⟨middle, run_bind_error ran, held⟩

/-- A check of both sides. -/
theorem Realises.check {outcome : Found → Except Error (Value × Image)} {check : Except Error Found}
    {next : Found → Prog State Error Value} (held : related state before)
    (rest : ∀ found, check = .ok found → Realises related before (outcome found) (next found) state) :
    Realises related before (check >>= outcome) (Prog.ofExcept check >>= next) state := by
  cases check with
  | error error => exact ⟨state, rfl, held⟩
  | ok found => exact rest found rfl

/-- A program makes the image of an outcome; what it returns is not looked at. -/
def Achieves (related : State → Image → Prop) (before : Image) (outcome : Except Error Image)
    (program : Prog State Error Value) (state : State) : Prop :=
  match outcome with
  | .ok image => ∃ value after, program.run state = (.ok value, after) ∧ related after image
  | .error error => ∃ after, program.run state = (.error error, after) ∧ related after before

theorem Achieves.fail {error : Error} (held : related state before) :
    Achieves related before (.error error) (Prog.fail error : Prog State Error Value) state :=
  ⟨state, rfl, held⟩

theorem Achieves.read {outcome : Except Error Image} {next : State → Prog State Error Value}
    (rest : Achieves related before outcome (next state) state) :
    Achieves related before outcome (Prog.read >>= next) state := rest

/-- What comes before the outcome can leave another state of the same image. -/
theorem Achieves.after {outcome : Except Error Image} {first : Prog State Error Found} {found : Found}
    {next : Found → Prog State Error Value} (ran : first.run state = (.ok found, middle))
    (rest : Achieves related before outcome (next found) middle) :
    Achieves related before outcome (first >>= next) state := by
  cases outcome with
  | error error =>
      obtain ⟨last, raised, held⟩ := rest
      exact ⟨last, (run_bind_ok ran).trans raised, held⟩
  | ok image =>
      obtain ⟨value, last, returned, held⟩ := rest
      exact ⟨value, last, (run_bind_ok ran).trans returned, held⟩

/-- A check of both sides. -/
theorem Achieves.check {outcome : Found → Except Error Image} {check : Except Error Found}
    {next : Found → Prog State Error Value} (held : related state before)
    (rest : ∀ found, check = .ok found → Achieves related before (outcome found) (next found) state) :
    Achieves related before (check >>= outcome) (Prog.ofExcept check >>= next) state := by
  cases check with
  | error error => exact ⟨state, rfl, held⟩
  | ok found => exact rest found rfl

/-- A program that goes on to return a fixed answer. -/
theorem Achieves.realises {outcome : Except Error Image} {program : Prog State Error Value} (answer : Result)
    (achieved : Achieves related before outcome program state) :
    Realises related before ((fun image => (answer, image)) <$> outcome)
      (program >>= fun _ => Prog.done answer) state := by
  cases outcome with
  | error error =>
      obtain ⟨last, raised, held⟩ := achieved
      exact ⟨last, run_bind_error raised, held⟩
  | ok image =>
      obtain ⟨value, last, returned, held⟩ := achieved
      exact ⟨last, run_bind_ok returned, held⟩

/-- A program that goes on to return a fixed answer ends where the first part does. -/
theorem run_of_answer {program : Prog State Error Value} {answer result : Result}
    (ran : (program >>= fun _ => Prog.done answer).run state = (.ok result, middle)) :
    ∃ value, program.run state = (.ok value, middle) := by
  rw [run_bind] at ran
  split at ran
  · rename_i value after first
    obtain ⟨-, rfl⟩ := Prod.mk.inj ran
    exact ⟨value, first⟩
  · cases ran

end Crash.Prog

namespace Calls

variable {Op : Type} {Reply : Op → Type} {Error Value Result Low High : Type}

/-- A program makes good calls only, as long as its answers are good. -/
def Within (good : Op → Prop) (answers : ∀ op, Reply op → Prop) : Calls Op Reply Error Value → Prop
  | done _ => True
  | fail _ => True
  | call op next => good op ∧ ∀ reply, answers op reply → (next reply).Within good answers

variable {good : Op → Prop} {answers : ∀ op, Reply op → Prop}

theorem Within.bind {program : Calls Op Reply Error Value} {rest : Value → Calls Op Reply Error Result}
    (first : program.Within good answers) (second : ∀ value, (rest value).Within good answers) :
    (program >>= rest).Within good answers := by
  induction program with
  | done value => exact second value
  | fail error => exact trivial
  | call op next ih => exact ⟨first.1, fun reply answered => ih reply (first.2 reply answered)⟩

theorem Within.ofExcept (outcome : Except Error Value) :
    (ofExcept outcome : Calls Op Reply Error Value).Within good answers := by
  cases outcome with
  | error error => exact trivial
  | ok value => exact trivial

/-- Two objects answer good calls alike, and after each answer they are related again. -/
def Simulates (related : Low → High → Prop) (good : Op → Prop) (answers : ∀ op, Reply op → Prop)
    (low : Handler Op Reply Error Low) (high : Handler Op Reply Error High) : Prop :=
  ∀ op lower higher, related lower higher → good op →
    (low op lower).1 = (high op higher).1 ∧ ∀ reply, (high op higher).1 = .ok reply →
      answers op reply ∧ related (low op lower).2 (high op higher).2

variable {related : Low → High → Prop} {low : Handler Op Reply Error Low} {high : Handler Op Reply Error High}

/-- A program of good calls ends alike on both objects. -/
theorem Simulates.run (simulates : Simulates related good answers low high)
    {program : Calls Op Reply Error Value} (within : program.Within good answers) {lower : Low} {higher : High}
    (held : related lower higher) :
    (program.run low lower).1 = (program.run high higher).1 ∧
      ∀ value, (program.run high higher).1 = .ok value →
        related (program.run low lower).2 (program.run high higher).2 := by
  induction program generalizing lower higher with
  | done value => exact ⟨rfl, fun _ _ => held⟩
  | fail error => exact ⟨rfl, fun _ returned => nomatch returned⟩
  | call op next ih =>
      obtain ⟨same, kept⟩ := simulates op lower higher held within.1
      cases answered : high op higher with
      | mk outcome after =>
          cases replied : low op lower with
          | mk reply later =>
              rw [answered, replied] at same kept
              obtain rfl : reply = outcome := same
              cases reply with
              | error error =>
                  rw [run_call_error _ replied, run_call_error _ answered]
                  exact ⟨rfl, fun _ returned => nomatch returned⟩
              | ok value =>
                  obtain ⟨good, again⟩ := kept value rfl
                  rw [run_call_ok _ replied, run_call_ok _ answered]
                  exact ih value (within.2 value good) again

end Calls

end Foundation
