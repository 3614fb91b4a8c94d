import MarketdataProvider.Foundation.Crash

namespace Foundation.Crash.Prog

variable {State Rest Error Value Result : Type}

/-- A program on the first part of a state. -/
def beside (Rest : Type) : Prog State Error Value → Prog (State × Rest) Error Value
  | done value => done value
  | fail error => fail error
  | step change next =>
      step (fun pair => (change pair.1, pair.2)) fun pair => (next pair.1).beside Rest

/-- `try: … finally: cleanup` -/
def ensuring : Prog State Error Value → Prog State Error Unit → Prog State Error Value
  | done value, cleanup => cleanup >>= fun _ => done value
  | fail error, cleanup => cleanup >>= fun _ => fail error
  | step change next, cleanup => step change fun state => (next state).ensuring cleanup

/-- The second part of the state stays as it is. -/
@[simp] theorem run_beside (program : Prog State Error Value) (state : State) (rest : Rest) :
    (program.beside Rest).run (state, rest) =
      ((program.run state).1, ((program.run state).2, rest)) := by
  induction program generalizing state with
  | done value => rfl
  | fail error => rfl
  | step change next ih => exact ih (change state) (change state)

/-- The cleanup runs after the program, and the outcome stays that of the program. -/
theorem run_ensuring {cleanup : Prog State Error Unit} {program : Prog State Error Value}
    {state after : State} (cleaned : cleanup.run (program.run state).2 = (.ok (), after)) :
    (program.ensuring cleanup).run state = ((program.run state).1, after) := by
  induction program generalizing state with
  | done value => exact run_bind_ok cleaned
  | fail error => exact run_bind_ok cleaned
  | step change next ih => exact ih (change state) cleaned

end Foundation.Crash.Prog
