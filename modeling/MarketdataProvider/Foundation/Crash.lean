import Mathlib.Logic.Relation

namespace Foundation.Crash

/-- A program makes one atomic change at a time and sees the state after each change. -/
inductive Prog (State Error Value : Type) where
  | done (value : Value)
  | fail (error : Error)
  | step (change : State → State) (next : State → Prog State Error Value)

namespace Prog

variable {State Error Value Result : Type}

protected def bind : Prog State Error Value → (Value → Prog State Error Result) →
    Prog State Error Result
  | done value, rest => rest value
  | fail error, _ => fail error
  | step change next, rest => step change fun state => (next state).bind rest

instance : Monad (Prog State Error) where
  pure := done
  bind := Prog.bind

/-- The read step leaves the state alone; it is still a point between two changes. -/
def read : Prog State Error State := step id done

def modify (change : State → State) : Prog State Error Unit := step change fun _ => done ()

def ofExcept : Except Error Value → Prog State Error Value
  | .ok value => done value
  | .error error => fail error

/-- The run has no crash: it gives the outcome and the last state. -/
def run : Prog State Error Value → State → Except Error Value × State
  | done value, state => (.ok value, state)
  | fail error, state => (.error error, state)
  | step change next, state => (next (change state)).run (change state)

/-- These are the states in which a crash can leave the program, from the first to the last. -/
def visits : Prog State Error Value → State → List State
  | done _, state => [state]
  | fail _, state => [state]
  | step change next, state => state :: (next (change state)).visits (change state)

@[simp] theorem pure_eq_done (value : Value) :
    (pure value : Prog State Error Value) = done value := rfl

@[simp] theorem done_bind (value : Value) (rest : Value → Prog State Error Result) :
    (done value >>= rest) = rest value := rfl

@[simp] theorem fail_bind (error : Error) (rest : Value → Prog State Error Result) :
    (fail error >>= rest) = fail error := rfl

@[simp] theorem step_bind (change : State → State) (next : State → Prog State Error Value)
    (rest : Value → Prog State Error Result) :
    (step change next >>= rest) = step change fun state => next state >>= rest := rfl

@[simp] theorem read_bind (rest : State → Prog State Error Result) :
    (read >>= rest) = step id rest := rfl

@[simp] theorem modify_bind (change : State → State) (rest : Unit → Prog State Error Result) :
    (modify change >>= rest) = step change fun _ => rest () := rfl

@[simp] theorem ofExcept_ok (value : Value) :
    (ofExcept (.ok value) : Prog State Error Value) = done value := rfl

@[simp] theorem ofExcept_error (error : Error) :
    (ofExcept (.error error) : Prog State Error Value) = fail error := rfl

theorem bind_assoc {Last : Type} (program : Prog State Error Value)
    (middle : Value → Prog State Error Result) (rest : Result → Prog State Error Last) :
    (program >>= middle >>= rest) = program >>= fun value => middle value >>= rest := by
  induction program with
  | done value => rfl
  | fail error => rfl
  | step change next ih => exact congrArg (step change) (funext ih)

@[simp] theorem run_done (value : Value) (state : State) :
    (done value : Prog State Error Value).run state = (.ok value, state) := rfl

@[simp] theorem run_fail (error : Error) (state : State) :
    (fail error : Prog State Error Value).run state = (.error error, state) := rfl

@[simp] theorem run_step (change : State → State) (next : State → Prog State Error Value)
    (state : State) : (step change next).run state = (next (change state)).run (change state) := rfl

/-- A sequence runs its second part exactly when the first part returns. -/
theorem run_bind (program : Prog State Error Value) (rest : Value → Prog State Error Result)
    (state : State) : (program >>= rest).run state =
      match program.run state with
      | (.ok value, after) => (rest value).run after
      | (.error error, after) => (.error error, after) := by
  induction program generalizing state with
  | done value => rfl
  | fail error => rfl
  | step change next ih => exact ih (change state) (change state)

theorem run_bind_ok {program : Prog State Error Value} {rest : Value → Prog State Error Result}
    {state after : State} {value : Value} (returned : program.run state = (.ok value, after)) :
    (program >>= rest).run state = (rest value).run after := by
  rw [run_bind, returned]

theorem run_bind_error {program : Prog State Error Value}
    {rest : Value → Prog State Error Result} {state after : State} {error : Error}
    (raised : program.run state = (.error error, after)) :
    (program >>= rest).run state = (.error error, after) := by
  rw [run_bind, raised]

/-- A sequence returns a value when both parts return. -/
theorem run_bind_eq_ok {program : Prog State Error Value} {rest : Value → Prog State Error Result}
    {state : State} {result : Result} :
    ((program >>= rest).run state).1 = .ok result ↔
      ∃ value after, program.run state = (.ok value, after) ∧ ((rest value).run after).1 = .ok result := by
  rw [run_bind]
  constructor
  · intro returned
    split at returned
    · rename_i value after first
      exact ⟨value, after, first, returned⟩
    · cases returned
  · rintro ⟨value, after, first, returned⟩
    rw [first]
    exact returned

theorem run_ofExcept (outcome : Except Error Value) (state : State) :
    (ofExcept outcome).run state = (outcome, state) := by
  cases outcome with
  | ok value => rfl
  | error error => rfl

theorem run_ofExcept_bind_eq_ok {outcome : Except Error Value}
    {rest : Value → Prog State Error Result} {state : State} {result : Result} :
    ((ofExcept outcome >>= rest).run state).1 = .ok result ↔
      ∃ value, outcome = .ok value ∧ ((rest value).run state).1 = .ok result := by
  cases outcome with
  | ok value => simp
  | error error => simp

theorem run_check_bind_eq_ok {outcome : Except Error Unit} {rest : Unit → Prog State Error Result}
    {state : State} {result : Result} :
    ((ofExcept outcome >>= rest).run state).1 = .ok result ↔
      outcome = .ok () ∧ ((rest ()).run state).1 = .ok result := by
  cases outcome with
  | ok value => simp
  | error error => simp

/-- The state before the first change is a crash state. -/
theorem start_mem_visits (program : Prog State Error Value) (state : State) :
    state ∈ program.visits state := by
  cases program <;> simp [visits]

/-- The state after the last change is a crash state. -/
theorem final_mem_visits (program : Prog State Error Value) (state : State) :
    (program.run state).2 ∈ program.visits state := by
  induction program generalizing state with
  | done value => simp [visits]
  | fail error => simp [visits]
  | step change next ih => exact List.mem_cons_of_mem _ (ih (change state) (change state))

/-- A crash of a sequence is a crash of its first part, or of its second part after the first. -/
theorem mem_visits_bind (program : Prog State Error Value)
    (rest : Value → Prog State Error Result) (state crash : State) :
    crash ∈ (program >>= rest).visits state ↔
      crash ∈ program.visits state ∨
        ∃ value after, program.run state = (.ok value, after) ∧ crash ∈ (rest value).visits after := by
  induction program generalizing state with
  | done value =>
      constructor
      · intro member
        exact .inr ⟨value, state, rfl, member⟩
      · rintro (first | ⟨other, after, returned, member⟩)
        · rw [List.mem_singleton.mp first]
          exact start_mem_visits _ _
        · cases returned
          exact member
  | fail error => simp [visits]
  | step change next ih =>
      simp only [step_bind, visits, List.mem_cons, run_step, ih, or_assoc]

theorem visits_bind_left {program : Prog State Error Value}
    {rest : Value → Prog State Error Result} {state crash : State}
    (visited : crash ∈ program.visits state) : crash ∈ (program >>= rest).visits state :=
  (mem_visits_bind program rest state crash).mpr (.inl visited)

theorem visits_bind_right {program : Prog State Error Value}
    {rest : Value → Prog State Error Result} {state after crash : State} {value : Value}
    (returned : program.run state = (.ok value, after)) (visited : crash ∈ (rest value).visits after) :
    crash ∈ (program >>= rest).visits state :=
  (mem_visits_bind program rest state crash).mpr (.inr ⟨value, after, returned, visited⟩)

theorem visits_read_bind {rest : State → Prog State Error Result} {state crash : State}
    (visited : crash ∈ (rest state).visits state) :
    crash ∈ ((read : Prog State Error State) >>= rest).visits state :=
  List.mem_cons_of_mem _ visited

theorem visits_ofExcept_bind {outcome : Except Error Value} {value : Value}
    {rest : Value → Prog State Error Result} {state crash : State} (found : outcome = .ok value)
    (visited : crash ∈ (rest value).visits state) :
    crash ∈ (ofExcept outcome >>= rest).visits state := by
  rw [found]
  exact visited

/-- A guarded program keeps the invariant at every crash point and returns with the result. -/
def Guarded (invariant : State → Prop) (result : Value → State → Prop)
    (program : Prog State Error Value) (state : State) : Prop :=
  (∀ crash ∈ program.visits state, invariant crash) ∧
    ∃ value after, program.run state = (.ok value, after) ∧ result value after

variable {invariant : State → Prop}

theorem Guarded.done {result : Value → State → Prop} {value : Value} {state : State}
    (holds : invariant state) (reached : result value state) :
    Guarded invariant result (Prog.done value : Prog State Error Value) state :=
  ⟨by simpa [visits] using holds, value, state, rfl, reached⟩

theorem Guarded.step {result : Value → State → Prop} {change : State → State}
    {next : State → Prog State Error Value} {state : State} (holds : invariant state)
    (rest : Guarded invariant result (next (change state)) (change state)) :
    Guarded invariant result (Prog.step change next) state := by
  refine ⟨?_, rest.2⟩
  intro crash member
  rcases List.mem_cons.mp member with rfl | later
  · exact holds
  · exact rest.1 crash later

theorem Guarded.bind {middle : Value → State → Prop} {result : Result → State → Prop}
    {program : Prog State Error Value} {rest : Value → Prog State Error Result} {state : State}
    (first : Guarded invariant middle program state)
    (second : ∀ value after, middle value after → Guarded invariant result (rest value) after) :
    Guarded invariant result (program >>= rest) state := by
  obtain ⟨safe, value, after, returned, reached⟩ := first
  obtain ⟨later, output, last, ended, final⟩ := second value after reached
  refine ⟨?_, output, last, (run_bind_ok returned).trans ended, final⟩
  intro crash member
  rcases (mem_visits_bind program rest state crash).mp member with early | ⟨other, mid, same, late⟩
  · exact safe crash early
  · rw [returned] at same
    cases same
    exact later crash late

theorem Guarded.read {result : Value → State → Prop} {next : State → Prog State Error Value}
    {state : State} (holds : invariant state) (rest : Guarded invariant result (next state) state) :
    Guarded invariant result (Prog.read >>= next) state :=
  Guarded.step holds rest

theorem Guarded.modify {result : Value → State → Prop} {change : State → State}
    {next : Unit → Prog State Error Value} {state : State} (holds : invariant state)
    (rest : Guarded invariant result (next ()) (change state)) :
    Guarded invariant result (Prog.modify change >>= next) state :=
  Guarded.step holds rest

theorem Guarded.weaken {result wider : Value → State → Prop} {program : Prog State Error Value}
    {state : State} (guarded : Guarded invariant result program state)
    (implies : ∀ value after, result value after → wider value after) :
    Guarded invariant wider program state := by
  obtain ⟨safe, value, after, returned, reached⟩ := guarded
  exact ⟨safe, value, after, returned, implies value after reached⟩

theorem Guarded.ofExcept {result : Result → State → Prop} {outcome : Except Error Value}
    {next : Value → Prog State Error Result} {state : State} {value : Value}
    (found : outcome = .ok value) (rest : Guarded invariant result (next value) state) :
    Guarded invariant result (Prog.ofExcept outcome >>= next) state := by
  rw [found]
  exact rest

theorem Guarded.widen {wider : State → Prop} {result : Value → State → Prop}
    {program : Prog State Error Value} {state : State}
    (guarded : Guarded invariant result program state) (implies : ∀ state, invariant state → wider state) :
    Guarded wider result program state :=
  ⟨fun crash visited => implies crash (guarded.1 crash visited), guarded.2⟩

/-- The last state is itself a crash point, so that it keeps the invariant. -/
theorem Guarded.keeps {result : Value → State → Prop} {program : Prog State Error Value}
    {state : State} (guarded : Guarded invariant result program state) :
    Guarded invariant (fun value after => invariant after ∧ result value after) program state := by
  obtain ⟨safe, value, after, returned, reached⟩ := guarded
  have last := final_mem_visits program state
  rw [returned] at last
  exact ⟨safe, value, after, returned, safe after last, reached⟩

/-- The invariant holds at every crash point; the result holds if the program returns. -/
def Keeps (invariant : State → Prop) (result : Value → State → Prop)
    (program : Prog State Error Value) (state : State) : Prop :=
  (∀ crash ∈ program.visits state, invariant crash) ∧
    ∀ value after, program.run state = (.ok value, after) → result value after

theorem Guarded.partially {result : Value → State → Prop} {program : Prog State Error Value}
    {state : State} (guarded : Guarded invariant result program state) :
    Keeps invariant result program state := by
  obtain ⟨safe, value, after, returned, reached⟩ := guarded
  refine ⟨safe, fun other last same => ?_⟩
  rw [returned] at same
  cases same
  exact reached

theorem Keeps.done {result : Value → State → Prop} {value : Value} {state : State}
    (holds : invariant state) (reached : result value state) :
    Keeps invariant result (Prog.done value : Prog State Error Value) state :=
  (Guarded.done holds reached).partially

theorem Keeps.fail {result : Value → State → Prop} {error : Error} {state : State}
    (holds : invariant state) : Keeps invariant result (Prog.fail error) state := by
  refine ⟨by simpa [visits] using holds, fun value after returned => ?_⟩
  cases returned

theorem Keeps.step {result : Value → State → Prop} {change : State → State}
    {next : State → Prog State Error Value} {state : State} (holds : invariant state)
    (rest : Keeps invariant result (next (change state)) (change state)) :
    Keeps invariant result (Prog.step change next) state := by
  refine ⟨fun crash member => ?_, rest.2⟩
  rcases List.mem_cons.mp member with rfl | later
  · exact holds
  · exact rest.1 crash later

theorem Keeps.read {result : Value → State → Prop} {next : State → Prog State Error Value}
    {state : State} (holds : invariant state) (rest : Keeps invariant result (next state) state) :
    Keeps invariant result (Prog.read >>= next) state :=
  Keeps.step holds rest

theorem Keeps.modify {result : Value → State → Prop} {change : State → State}
    {next : Unit → Prog State Error Value} {state : State} (holds : invariant state)
    (rest : Keeps invariant result (next ()) (change state)) :
    Keeps invariant result (Prog.modify change >>= next) state :=
  Keeps.step holds rest

theorem Keeps.ofExcept {result : Result → State → Prop} {outcome : Except Error Value}
    {next : Value → Prog State Error Result} {state : State} (holds : invariant state)
    (rest : ∀ value, outcome = .ok value → Keeps invariant result (next value) state) :
    Keeps invariant result (Prog.ofExcept outcome >>= next) state := by
  cases outcome with
  | error error => exact .fail holds
  | ok value => exact rest value rfl

theorem Keeps.bind {middle : Value → State → Prop} {result : Result → State → Prop}
    {program : Prog State Error Value} {rest : Value → Prog State Error Result} {state : State}
    (first : Keeps invariant middle program state)
    (second : ∀ value after, middle value after → Keeps invariant result (rest value) after) :
    Keeps invariant result (program >>= rest) state := by
  refine ⟨fun crash member => ?_, fun value after returned => ?_⟩
  · rcases (mem_visits_bind program rest state crash).mp member with early | ⟨other, mid, same, late⟩
    · exact first.1 crash early
    · exact (second other mid (first.2 other mid same)).1 crash late
  · rw [run_bind] at returned
    split at returned
    · rename_i other mid same
      exact (second other mid (first.2 other mid same)).2 value after returned
    · cases returned

theorem Keeps.weaken {wider : State → Prop} {result final : Value → State → Prop}
    {program : Prog State Error Value} {state : State} (kept : Keeps invariant result program state)
    (invariants : ∀ state, invariant state → wider state)
    (results : ∀ value after, result value after → final value after) :
    Keeps wider final program state :=
  ⟨fun crash visited => invariants crash (kept.1 crash visited),
    fun value after returned => results value after (kept.2 value after returned)⟩

/-- The result can also name the run that it comes from. -/
theorem Keeps.returned {result : Value → State → Prop} {program : Prog State Error Value}
    {state : State} (kept : Keeps invariant result program state) :
    Keeps invariant (fun value after => program.run state = (.ok value, after) ∧ result value after)
      program state :=
  ⟨kept.1, fun value after returned => ⟨returned, kept.2 value after returned⟩⟩

/-- Partial correctness: what holds if the program returns. -/
abbrev Returns (result : Value → State → Prop) (program : Prog State Error Value) (state : State) :
    Prop := Keeps (fun _ => True) result program state

theorem Keeps.any (program : Prog State Error Value) (state : State) :
    Keeps (fun _ => True) (fun _ _ => True) program state :=
  ⟨fun _ _ => trivial, fun _ _ _ => trivial⟩

/-- Recovery can crash at any of its points and start again, any number of times.
Each attempt is one of several recovery programs. -/
def Crashes {Entry : Type} (recover : Entry → Prog State Error Unit) : State → State → Prop :=
  Relation.ReflTransGen fun state crash => ∃ entry, crash ∈ (recover entry).visits state

/-- An invariant that recovery keeps survives every crash of recovery. -/
theorem Crashes.keeps {Entry : Type} {recover : Entry → Prog State Error Unit}
    (kept : ∀ entry state, invariant state → ∀ crash ∈ (recover entry).visits state, invariant crash)
    {state crash : State} (crashes : Crashes recover state crash) (holds : invariant state) :
    invariant crash := by
  induction crashes with
  | refl => exact holds
  | tail _ again ih =>
      obtain ⟨entry, visited⟩ := again
      exact kept entry _ ih _ visited

/-- One completed recovery ends the same way, however many recoveries crashed before it. -/
theorem Crashes.recovered {Entry : Type} {recover : Entry → Prog State Error Unit}
    {final : State → Prop}
    (guarded : ∀ entry state, invariant state →
      Guarded invariant (fun _ after => final after) (recover entry) state)
    {state crash : State} (crashes : Crashes recover state crash) (holds : invariant state)
    (entry : Entry) : ∃ after, (recover entry).run crash = (.ok (), after) ∧ final after := by
  have reached := crashes.keeps (fun other current pending => (guarded other current pending).1) holds
  obtain ⟨-, value, after, returned, last⟩ := guarded entry crash reached
  exact ⟨after, returned, last⟩

/-- However many recoveries crashed, the next one completes and ends well. -/
def Recovers {Entry : Type} (recover : Entry → Prog State Error Unit) (final : State → Prop)
    (state : State) : Prop :=
  ∀ later, Crashes recover state later →
    ∀ entry, ∃ after, (recover entry).run later = (.ok (), after) ∧ final after

theorem Recovers.of_guarded {Entry : Type} {recover : Entry → Prog State Error Unit}
    {final : State → Prop}
    (guarded : ∀ entry state, invariant state →
      Guarded invariant (fun _ after => final after) (recover entry) state)
    {state : State} (holds : invariant state) : Recovers recover final state :=
  fun _ crashes entry => crashes.recovered guarded holds entry

/-- A recovery that leaves the state alone gives what already holds. -/
theorem Recovers.of_stays {Entry : Type} {recover : Entry → Prog State Error Unit}
    {final : State → Prop} {state : State}
    (stays : ∀ entry, Guarded (· = state) (fun _ after => after = state) (recover entry) state)
    (holds : final state) : Recovers recover final state := by
  have guarded : ∀ entry current, current = state →
      Guarded (· = state) (fun _ after => final after) (recover entry) current := by
    rintro entry _ rfl
    exact (stays entry).weaken fun _ _ same => same ▸ holds
  exact of_guarded guarded rfl

theorem Recovers.weaken {Entry : Type} {recover : Entry → Prog State Error Unit}
    {final wider : State → Prop} {state : State} (recovers : Recovers recover final state)
    (implies : ∀ after, final after → wider after) : Recovers recover wider state := by
  intro later crashes entry
  obtain ⟨after, ran, reached⟩ := recovers later crashes entry
  exact ⟨after, ran, implies after reached⟩

theorem Recovers.and {Entry : Type} {recover : Entry → Prog State Error Unit}
    {first second : State → Prop} {state : State} (left : Recovers recover first state)
    (right : Recovers recover second state) :
    Recovers recover (fun after => first after ∧ second after) state := by
  intro later crashes entry
  obtain ⟨after, ran, reached⟩ := left later crashes entry
  obtain ⟨_, again, other⟩ := right later crashes entry
  rw [ran] at again
  cases again
  exact ⟨after, ran, reached, other⟩

/-- Two runs of one program that cannot be told apart by their outcome. -/
def Agrees (related : State → State → Prop) (program : Prog State Error Value) (left right : State) :
    Prop :=
  (program.run left).1 = (program.run right).1 ∧ related (program.run left).2 (program.run right).2

section Agrees

variable {related : State → State → Prop} {left right : State}

theorem Agrees.done {value : Value} (same : related left right) :
    Agrees related (Prog.done value : Prog State Error Value) left right := ⟨rfl, same⟩

theorem Agrees.fail {error : Error} (same : related left right) :
    Agrees related (Prog.fail error : Prog State Error Value) left right := ⟨rfl, same⟩

/-- After a read both runs go on with the same program. -/
theorem Agrees.read {next : State → Prog State Error Value} (same : next right = next left)
    (rest : Agrees related (next left) left right) :
    Agrees related (Prog.read >>= next) left right := by
  have again : (Prog.read >>= next).run right = (next left).run right := by
    rw [← same]
    rfl
  rw [Agrees, again]
  exact rest

theorem Agrees.modify {change : State → State} {next : Unit → Prog State Error Value}
    (rest : Agrees related (next ()) (change left) (change right)) :
    Agrees related (Prog.modify change >>= next) left right := rest

theorem Agrees.ofExcept {outcome : Except Error Value} {next : Value → Prog State Error Result}
    (same : related left right)
    (rest : ∀ value, outcome = .ok value → Agrees related (next value) left right) :
    Agrees related (Prog.ofExcept outcome >>= next) left right := by
  cases outcome with
  | error error => exact .fail same
  | ok value => exact rest value rfl

/-- A value that is there fails in neither run, so that the states need not be related yet. -/
theorem Agrees.ofExcept_ok {outcome : Except Error Value} {next : Value → Prog State Error Result}
    {value : Value} (found : outcome = .ok value)
    (rest : Agrees related (next value) left right) :
    Agrees related (Prog.ofExcept outcome >>= next) left right := by
  rw [found]
  exact rest

/-- Runs from one state agree. -/
theorem Agrees.refl (program : Prog State Error Value) (state : State) :
    Agrees (· = ·) program state state := ⟨rfl, rfl⟩

theorem Agrees.bind {program : Prog State Error Value} {rest : Value → Prog State Error Result}
    (first : Agrees related program left right)
    (second : ∀ value after other, program.run left = (.ok value, after) → related after other →
      Agrees related (rest value) after other) : Agrees related (program >>= rest) left right := by
  obtain ⟨outcome, reached⟩ := first
  rw [Agrees, run_bind, run_bind]
  cases ran : program.run left with
  | mk result after =>
      cases again : program.run right with
      | mk repeated other =>
          rw [ran, again] at outcome reached
          cases outcome
          cases result with
          | error error => exact ⟨rfl, reached⟩
          | ok value => exact second value after other ran reached

/-- Two runs of one program that both return, with one value and in related states. -/
def Together (related : State → State → Prop) (program : Prog State Error Value)
    (left right : State) : Prop :=
  ∃ value after other, program.run left = (.ok value, after) ∧ program.run right = (.ok value, other) ∧
    related after other

theorem Together.done {value : Value} (same : related left right) :
    Together related (Prog.done value : Prog State Error Value) left right :=
  ⟨value, left, right, rfl, rfl, same⟩

theorem Together.read {next : State → Prog State Error Value} (same : next right = next left)
    (rest : Together related (next left) left right) :
    Together related (Prog.read >>= next) left right := by
  obtain ⟨value, after, other, ran, again, reached⟩ := rest
  rw [← same] at again
  exact ⟨value, after, other, ran, again, reached⟩

theorem Together.modify {change : State → State} {next : Unit → Prog State Error Value}
    (rest : Together related (next ()) (change left) (change right)) :
    Together related (Prog.modify change >>= next) left right := rest

/-- Once both runs have returned, the states can be related in another way than before. -/
theorem Together.agrees_bind {middle : State → State → Prop} {program : Prog State Error Value}
    {rest : Value → Prog State Error Result} (first : Together middle program left right)
    (second : ∀ value after other, middle after other → Agrees related (rest value) after other) :
    Agrees related (program >>= rest) left right := by
  obtain ⟨value, after, other, ran, again, reached⟩ := first
  rw [Agrees, run_bind_ok ran, run_bind_ok again]
  exact second value after other reached

end Agrees

end Prog

end Foundation.Crash
