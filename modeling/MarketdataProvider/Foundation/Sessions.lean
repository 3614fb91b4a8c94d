import Mathlib.Logic.Function.Basic
import MarketdataProvider.Foundation.Crash

namespace Foundation.Crash

namespace Prog

variable {State Error Value Result : Type}

/-- A run of a program between whose changes others take steps. -/
inductive Beside (others : State → State → Prop) :
    Prog State Error Value → State → Except Error Value → State → Prop where
  | done {value : Value} {state : State} : Beside others (done value) state (.ok value) state
  | fail {error : Error} {state : State} : Beside others (fail error) state (.error error) state
  | step {change : State → State} {next : State → Prog State Error Value} {state final : State}
      {outcome : Except Error Value} (rest : Beside others (next (change state)) (change state) outcome final) :
      Beside others (step change next) state outcome final
  | other {program : Prog State Error Value} {state between final : State} {outcome : Except Error Value}
      (moved : others state between) (rest : Beside others program between outcome final) :
      Beside others program state outcome final

/-- A program whose changes are calm, beside others whose changes are calm too. -/
def Gentle (calm : State → State → Prop) : Prog State Error Value → State → Prop
  | done _, _ => True
  | fail _, _ => True
  | step change next, state =>
      ∀ met, calm state met → calm met (change met) ∧ (next (change met)).Gentle calm (change met)

variable {calm : State → State → Prop}

theorem Gentle.later (same : Equivalence calm) {program : Prog State Error Value} {state after : State}
    (gentle : program.Gentle calm state) (moved : calm state after) : program.Gentle calm after := by
  cases program with
  | done => exact trivial
  | fail => exact trivial
  | step change next => exact fun met waited => gentle met (same.trans moved waited)

section Answers

variable {program : Prog State Error Value} {state final : State} {outcome : Except Error Value}

/-- Before its next change a program only waits for the others. -/
theorem Beside.step_inv (same : Equivalence calm) {change : State → State}
    {next : State → Prog State Error Value} (ran : Beside calm (Prog.step change next) state outcome final) :
    ∃ later, calm state later ∧ Beside calm (next (change later)) (change later) outcome final := by
  generalize whole : Prog.step change next = program at ran
  induction ran with
  | done => cases whole
  | fail => cases whole
  | step rest _ =>
      cases whole
      exact ⟨_, same.refl _, rest⟩
  | other moved _ ih =>
      obtain ⟨later, waited, rest⟩ := ih whole
      exact ⟨later, same.trans moved waited, rest⟩

theorem Beside.done_inv {value : Value} (ran : Beside calm (Prog.done value) state outcome final) :
    outcome = .ok value := by
  generalize whole : Prog.done value = program at ran
  induction ran with
  | done =>
      cases whole
      rfl
  | fail => cases whole
  | step => cases whole
  | other _ _ ih => exact ih whole

theorem Beside.fail_inv {error : Error} (ran : Beside calm (Prog.fail error) state outcome final) :
    outcome = .error error := by
  generalize whole : Prog.fail error = program at ran
  induction ran with
  | done => cases whole
  | fail =>
      cases whole
      rfl
  | step => cases whole
  | other _ _ ih => exact ih whole

/-- A gentle program that sees nothing of what calm steps change. -/
structure Blind (calm : State → State → Prop) (program : Prog State Error Value) (state : State) :
    Prop where
  gentle : program.Gentle calm state
  answers : ∀ other outcome final, calm state other → Beside calm program state outcome final →
    outcome = (program.run other).1

/-- A gentle program that answers beside calm steps as it does alone, in one of the states it met. -/
structure Settles (calm : State → State → Prop) (program : Prog State Error Value) (state : State) :
    Prop where
  gentle : program.Gentle calm state
  answers : ∀ outcome final, Beside calm program state outcome final →
    ∃ met, calm state met ∧ outcome = (program.run met).1

theorem Blind.done (value : Value) : Blind calm (Prog.done value : Prog State Error Value) state where
  gentle := trivial
  answers _ _ _ _ ran := ran.done_inv

theorem Blind.fail (error : Error) : Blind calm (Prog.fail error : Prog State Error Value) state where
  gentle := trivial
  answers _ _ _ _ ran := ran.fail_inv

theorem Blind.ofExcept {found : Except Error Value} {next : Value → Prog State Error Result}
    (rest : ∀ value, Blind calm (next value) state) : Blind calm (Prog.ofExcept found >>= next) state := by
  cases found with
  | error error => exact .fail error
  | ok value => exact rest value

theorem Blind.read (same : Equivalence calm) {next : State → Prog State Error Value}
    (alike : ∀ met, calm state met → next met = next state)
    (rest : ∀ met, calm state met → Blind calm (next state) met) : Blind calm (Prog.read >>= next) state where
  gentle met waited := by
    refine ⟨same.refl met, ?_⟩
    change (next met).Gentle calm met
    rw [alike met waited]
    exact (rest met waited).gentle
  answers other outcome final near ran := by
    obtain ⟨met, waited, ran⟩ := ran.step_inv same
    change Beside calm (next met) met outcome final at ran
    change outcome = ((next other).run other).1
    rw [alike met waited] at ran
    rw [alike other near]
    exact (rest met waited).answers other outcome final (same.trans (same.symm waited) near) ran

theorem Blind.modify (same : Equivalence calm) {change : State → State}
    {next : Unit → Prog State Error Value} (gentle : ∀ met, calm state met → calm met (change met))
    (rest : ∀ met, calm state met → Blind calm (next ()) met) :
    Blind calm (Prog.modify change >>= next) state where
  gentle met waited := ⟨gentle met waited, (rest _ (same.trans waited (gentle met waited))).gentle⟩
  answers other outcome final near ran := by
    obtain ⟨met, waited, ran⟩ := ran.step_inv same
    have mine := same.trans waited (gentle met waited)
    have theirs := same.trans near (gentle other near)
    exact (rest _ mine).answers _ outcome final (same.trans (same.symm mine) theirs) ran

theorem Blind.settles (same : Equivalence calm) (blind : Blind calm program state) :
    Settles calm program state where
  gentle := blind.gentle
  answers outcome final ran := ⟨state, same.refl state, blind.answers state outcome final (same.refl state) ran⟩

/-- What calm steps can change is looked at once, as the last thing. -/
theorem Settles.look (same : Equivalence calm) {next : State → Prog State Error Value}
    (rest : ∀ met, calm state met → Blind calm (next met) met) : Settles calm (Prog.read >>= next) state where
  gentle met waited := ⟨same.refl met, (rest met waited).gentle⟩
  answers outcome final ran := by
    obtain ⟨met, waited, ran⟩ := ran.step_inv same
    exact ⟨met, waited, (rest met waited).answers met outcome final (same.refl met) ran⟩

theorem Settles.read (same : Equivalence calm) {next : State → Prog State Error Value}
    (alike : ∀ met, calm state met → next met = next state)
    (rest : ∀ met, calm state met → Settles calm (next state) met) :
    Settles calm (Prog.read >>= next) state where
  gentle met waited := by
    refine ⟨same.refl met, ?_⟩
    change (next met).Gentle calm met
    rw [alike met waited]
    exact (rest met waited).gentle
  answers outcome final ran := by
    obtain ⟨met, waited, ran⟩ := ran.step_inv same
    change Beside calm (next met) met outcome final at ran
    rw [alike met waited] at ran
    obtain ⟨there, after, answer⟩ := (rest met waited).answers outcome final ran
    refine ⟨there, same.trans waited after, ?_⟩
    change outcome = ((next there).run there).1
    rw [alike there (same.trans waited after)]
    exact answer

theorem Settles.ofExcept (same : Equivalence calm) {found : Except Error Value}
    {next : Value → Prog State Error Result} (rest : ∀ value, Settles calm (next value) state) :
    Settles calm (Prog.ofExcept found >>= next) state := by
  cases found with
  | error error => exact (Blind.fail error).settles same
  | ok value => exact rest value

theorem Gentle.map {program : Prog State Error Value} {state : State} (gentle : program.Gentle calm state)
    (convert : Value → Result) : (program >>= fun value => Prog.done (convert value)).Gentle calm state := by
  induction program generalizing state with
  | done => exact trivial
  | fail => exact trivial
  | step change next ih =>
      intro met waited
      obtain ⟨moved, rest⟩ := gentle met waited
      exact ⟨moved, ih _ rest⟩

theorem Beside.map_inv {program : Prog State Error Value} {convert : Value → Result} {state final : State}
    {outcome : Except Error Result}
    (ran : Beside calm (program >>= fun value => Prog.done (convert value)) state outcome final) :
    ∃ found, Beside calm program state found final ∧ outcome = found.map convert := by
  generalize whole : (program >>= fun value => Prog.done (convert value)) = converted at ran
  induction ran generalizing program with
  | done =>
      cases program with
      | done value =>
          cases whole
          exact ⟨_, .done, rfl⟩
      | fail => cases whole
      | step => cases whole
  | fail =>
      cases program with
      | done => cases whole
      | fail error =>
          cases whole
          exact ⟨_, .fail, rfl⟩
      | step => cases whole
  | step _ ih =>
      cases program with
      | done => cases whole
      | fail => cases whole
      | step change next =>
          cases whole
          obtain ⟨found, ran, same⟩ := ih rfl
          exact ⟨found, .step ran, same⟩
  | other moved _ ih =>
      obtain ⟨found, ran, same⟩ := ih whole
      exact ⟨found, .other moved ran, same⟩

theorem run_map (program : Prog State Error Value) (convert : Value → Result) (state : State) :
    ((program >>= fun value => Prog.done (convert value)).run state).1 = (program.run state).1.map convert := by
  rw [run_bind]
  split
  · rename_i value after ran
    rw [ran]
    rfl
  · rename_i error after ran
    rw [ran]
    rfl

theorem Settles.map {program : Prog State Error Value} {state : State} (settles : Settles calm program state)
    (convert : Value → Result) : Settles calm (program >>= fun value => Prog.done (convert value)) state where
  gentle := settles.gentle.map convert
  answers outcome final ran := by
    obtain ⟨found, early, rfl⟩ := ran.map_inv
    obtain ⟨met, waited, rfl⟩ := settles.answers found final early
    exact ⟨met, waited, (run_map program convert met).symm⟩

end Answers

end Prog

/-- A lock is held by several parties or by one alone. -/
inductive Access where
  | shared
  | exclusive
  deriving DecidableEq, Repr

/-- The tasks that can be done under one lock, and the program of each. -/
structure Tasks (Task State Error Answer : Type) where
  access : Task → Access
  program : Task → Prog State Error Answer

variable {Party Task State Error Answer Value : Type}

/-- A party holds no lock, or it is in the middle of a task. -/
inductive Activity (Task State Error Answer : Type) where
  | idle
  | working (task : Task) (rest : Prog State Error Answer)

structure Configuration (Party Task State Error Answer : Type) where
  state : State
  activity : Party → Activity Task State Error Answer

/-- What is seen of a task from outside: its outcome, or nothing when its party died. -/
structure Event (Task Error Answer : Type) where
  task : Task
  outcome : Option (Except Error Answer)

namespace Configuration

variable (tasks : Tasks Task State Error Answer)
  (config : Configuration Party Task State Error Answer)

/-- The lock admits a task when it can be shared with all that hold it. -/
def Admits (task : Task) : Prop :=
  ∀ party current rest, config.activity party = .working current rest →
    tasks.access current = .shared ∧ tasks.access task = .shared

variable [DecidableEq Party]

def set (party : Party) (activity : Activity Task State Error Answer) :
    Configuration Party Task State Error Answer :=
  { config with activity := Function.update config.activity party activity }

theorem set_set (party : Party) (first last : Activity Task State Error Answer) (state : State) :
    ({ config.set party first with state := state }).set party last =
      { config with state := state }.set party last := by
  rw [set, set, set, Function.update_idem]

theorem activity_set_self (party : Party) (activity : Activity Task State Error Answer) :
    (config.set party activity).activity party = activity := Function.update_self _ _ _

theorem activity_set_of_ne {party other : Party} (different : other ≠ party)
    (activity : Activity Task State Error Answer) :
    (config.set party activity).activity other = config.activity other :=
  Function.update_of_ne different _ _

variable {config}

/-- Who works after a change is the party that changed, or one that worked before. -/
theorem working_of_set {party other : Party} {activity : Activity Task State Error Answer} {task : Task}
    {rest : Prog State Error Answer} (busy : (config.set party activity).activity other = .working task rest) :
    activity = .working task rest ∨ config.activity other = .working task rest := by
  by_cases same : other = party
  · rw [same, activity_set_self] at busy
    exact .inl busy
  · rw [activity_set_of_ne config same] at busy
    exact .inr busy

/-- One step of one party. A task ends, and a party can die, at the price of the lock. -/
inductive Step : Configuration Party Task State Error Answer → List (Event Task Error Answer) →
    Configuration Party Task State Error Answer → Prop where
  | begins {config : Configuration Party Task State Error Answer} {party : Party} (task : Task)
      (idle : config.activity party = .idle) (admitted : config.Admits tasks task) :
      Step config [] (config.set party (.working task (tasks.program task)))
  | advances {config : Configuration Party Task State Error Answer} {party : Party} {task : Task}
      {change : State → State} {next : State → Prog State Error Answer}
      (working : config.activity party = .working task (.step change next)) :
      Step config [] ({ config with state := change config.state }.set party
        (.working task (next (change config.state))))
  | returns {config : Configuration Party Task State Error Answer} {party : Party} {task : Task}
      {answer : Answer} (working : config.activity party = .working task (.done answer)) :
      Step config [⟨task, some (.ok answer)⟩] (config.set party .idle)
  | raises {config : Configuration Party Task State Error Answer} {party : Party} {task : Task}
      {error : Error} (working : config.activity party = .working task (.fail error)) :
      Step config [⟨task, some (.error error)⟩] (config.set party .idle)
  | dies {config : Configuration Party Task State Error Answer} {party : Party} {task : Task}
      {rest : Prog State Error Answer} (working : config.activity party = .working task rest) :
      Step config [⟨task, none⟩] (config.set party .idle)

/-- Any number of steps of any parties, with what is seen of their tasks. -/
inductive Runs (start : Configuration Party Task State Error Answer) :
    List (Event Task Error Answer) → Configuration Party Task State Error Answer → Prop where
  | start : Runs start [] start
  | step {events seen : List (Event Task Error Answer)}
      {config next : Configuration Party Task State Error Answer} (ran : Runs start events config)
      (step : Step tasks config seen next) : Runs start (events ++ seen) next

end Configuration

/-- A value on which each task acts at once: what it can do, with its outcome or without one. -/
abbrev Effect (Task Error Answer Value : Type) : Type :=
  Task → Value → Option (Except Error Answer) → Value → Prop

/-- The value after a sequence of tasks that act one after the other. -/
inductive Atomic (effect : Effect Task Error Answer Value) (first : Value) :
    List (Event Task Error Answer) → Value → Prop where
  | start : Atomic effect first [] first
  | acts {events : List (Event Task Error Answer)} {event : Event Task Error Answer} {value after : Value}
      (before : Atomic effect first events value) (acted : effect event.task value event.outcome after) :
      Atomic effect first (events ++ [event]) after

/-- A state stands for a value. Wherever an exclusive task stops it leaves a value of its effect, and
shared ones change nothing that matters to the value or to each other. -/
structure StandsFor (tasks : Tasks Task State Error Answer) (effect : Effect Task Error Answer Value)
    (holds : Value → State → Prop) (calm : State → State → Prop) : Prop where
  stopped : ∀ task value state, tasks.access task = .exclusive → holds value state →
    ∀ crash ∈ (tasks.program task).visits state, ∃ after, effect task value none after ∧ holds after crash
  ended : ∀ task value state, tasks.access task = .exclusive → holds value state →
    ∃ after, effect task value (some ((tasks.program task).run state).1) after ∧
      holds after ((tasks.program task).run state).2
  same : Equivalence calm
  kept : ∀ value before after, holds value before → calm before after → holds value after
  gentle : ∀ task value state, tasks.access task = .shared → holds value state →
    (tasks.program task).Gentle calm state
  answered : ∀ task value state outcome final, tasks.access task = .shared → holds value state →
    (tasks.program task).Beside calm state outcome final → effect task value (some outcome) value
  left : ∀ task value, tasks.access task = .shared → effect task value none value

namespace Configuration

variable {tasks : Tasks Task State Error Answer} {effect : Effect Task Error Answer Value}
  {holds : Value → State → Prop} {calm : State → State → Prop} {value : Value}
  {config next : Configuration Party Task State Error Answer}

/-- All that work share the lock: the state stands for the value, and what they will answer is an answer
about this value. -/
structure Shared (tasks : Tasks Task State Error Answer) (effect : Effect Task Error Answer Value)
    (holds : Value → State → Prop) (calm : State → State → Prop) (value : Value)
    (config : Configuration Party Task State Error Answer) : Prop where
  stands : holds value config.state
  access : ∀ party task rest, config.activity party = .working task rest → tasks.access task = .shared
  gentle : ∀ party task rest, config.activity party = .working task rest → rest.Gentle calm config.state
  answers : ∀ party task rest, config.activity party = .working task rest →
    ∀ outcome final, rest.Beside calm config.state outcome final → effect task value (some outcome) value

/-- One party works alone: it is somewhere in its task, which began in a state that stands for the value. -/
def Alone (tasks : Tasks Task State Error Answer) (holds : Value → State → Prop) (value : Value)
    (config : Configuration Party Task State Error Answer) : Prop :=
  ∃ party task rest origin, config.activity party = .working task rest ∧ tasks.access task = .exclusive ∧
    (∀ other, other ≠ party → config.activity other = .idle) ∧ holds value origin ∧
    (∀ crash ∈ rest.visits config.state, crash ∈ (tasks.program task).visits origin) ∧
    rest.run config.state = (tasks.program task).run origin

variable [DecidableEq Party]

omit [DecidableEq Party] in
theorem idle_shared (idle : ∀ party, config.activity party = .idle) (stands : holds value config.state) :
    config.Shared tasks effect holds calm value := by
  have nobody {party : Party} {task : Task} {rest : Prog State Error Answer}
      (working : config.activity party = .working task rest) : False := by
    rw [idle party] at working
    cases working
  exact ⟨stands, fun _ _ _ working => (nobody working).elim, fun _ _ _ working => (nobody working).elim,
    fun _ _ _ working => (nobody working).elim⟩

/-- A party that ends or dies leaves the others as they were. -/
theorem Shared.leave (shared : config.Shared tasks effect holds calm value) (party : Party) :
    (config.set party .idle).Shared tasks effect holds calm value := by
  have working {other : Party} {task : Task} {rest : Prog State Error Answer}
      (busy : (config.set party .idle).activity other = .working task rest) :
      config.activity other = .working task rest :=
    (working_of_set busy).resolve_left nofun
  exact ⟨shared.stands, fun other task rest busy => shared.access other task rest (working busy),
    fun other task rest busy => shared.gentle other task rest (working busy),
    fun other task rest busy => shared.answers other task rest (working busy)⟩

/-- The lone party leaves everybody idle. -/
theorem idle_of_leave {party : Party} (others : ∀ other, other ≠ party → config.activity other = .idle)
    (other : Party) : (config.set party .idle).activity other = .idle := by
  by_cases same : other = party
  · rw [same, activity_set_self]
  · rw [activity_set_of_ne config same]
    exact others other same

theorem Shared.begin (stands : StandsFor tasks effect holds calm)
    (shared : config.Shared tasks effect holds calm value) {party : Party} {task : Task}
    (admitted : config.Admits tasks task) :
    (config.set party (.working task (tasks.program task))).Shared tasks effect holds calm value ∨
      (config.set party (.working task (tasks.program task))).Alone tasks holds value := by
  cases access : tasks.access task with
  | shared =>
      refine .inl ⟨shared.stands, ?_, ?_, ?_⟩
      · intro other current rest busy
        rcases working_of_set busy with same | before
        · cases same
          exact access
        · exact shared.access other current rest before
      · intro other current rest busy
        rcases working_of_set busy with same | before
        · cases same
          exact stands.gentle task value _ access shared.stands
        · exact shared.gentle other current rest before
      · intro other current rest busy outcome final ran
        rcases working_of_set busy with same | before
        · cases same
          exact stands.answered task value _ outcome final access shared.stands ran
        · exact shared.answers other current rest before outcome final ran
  | exclusive =>
      refine .inr ⟨party, task, tasks.program task, config.state, activity_set_self _ _ _, access, ?_,
        shared.stands, fun _ visited => visited, rfl⟩
      intro other different
      rw [activity_set_of_ne config different]
      cases busy : config.activity other with
      | idle => rfl
      | working current rest =>
          have refused := (admitted other current rest busy).2
          rw [access] at refused
          cases refused

/-- A shared task goes on: the others see a calm step. -/
theorem Shared.advance (stands : StandsFor tasks effect holds calm)
    (shared : config.Shared tasks effect holds calm value) {party : Party} {task : Task}
    {change : State → State} {following : State → Prog State Error Answer}
    (working : config.activity party = .working task (.step change following)) :
    ({ config with state := change config.state }.set party
      (.working task (following (change config.state)))).Shared tasks effect holds calm value := by
  have gentle := shared.gentle party task _ working
  obtain ⟨moved, onwards⟩ := gentle config.state (stands.same.refl _)
  refine ⟨stands.kept _ _ _ shared.stands moved, ?_, ?_, ?_⟩
  · intro other current rest busy
    rcases working_of_set busy with same | before
    · cases same
      exact shared.access party task _ working
    · exact shared.access other current rest before
  · intro other current rest busy
    rcases working_of_set busy with same | before
    · cases same
      exact onwards
    · exact (shared.gentle other current rest before).later stands.same moved
  · intro other current rest busy outcome final ran
    rcases working_of_set busy with same | before
    · cases same
      exact shared.answers party task _ working outcome final (.step ran)
    · exact shared.answers other current rest before outcome final (.other moved ran)

/-- A lone task goes on towards the same end. -/
theorem Alone.advance {party : Party} {task : Task} {change : State → State}
    {following : State → Prog State Error Answer} (alone : config.Alone tasks holds value)
    (working : config.activity party = .working task (.step change following)) :
    ({ config with state := change config.state }.set party
      (.working task (following (change config.state)))).Alone tasks holds value := by
  obtain ⟨lone, current, rest, origin, busy, access, others, stood, visits, run⟩ := alone
  have same : party = lone := by
    by_contra different
    rw [others party different] at working
    cases working
  subst same
  rw [busy] at working
  cases working
  refine ⟨party, task, _, origin, activity_set_self _ _ _, access, ?_, stood, ?_, run⟩
  · intro other different
    rw [activity_set_of_ne _ different]
    exact others other different
  · intro crash visited
    exact visits crash (List.mem_cons_of_mem _ visited)

/-- One step is seen as the act of at most one task on the value. -/
theorem Step.acts (stands : StandsFor tasks effect holds calm) {seen : List (Event Task Error Answer)}
    (step : Step tasks config seen next) {first : Value} {events : List (Event Task Error Answer)}
    (before : Atomic effect first events value)
    (explained : config.Shared tasks effect holds calm value ∨ config.Alone tasks holds value) :
    ∃ after, Atomic effect first (events ++ seen) after ∧
      (next.Shared tasks effect holds calm after ∨ next.Alone tasks holds after) := by
  -- The end of a task alone is its last crash point, and after it nobody works.
  have leaves {party : Party} {task : Task} {rest : Prog State Error Answer}
      {outcome : Option (Except Error Answer)} (alone : config.Alone tasks holds value)
      (working : config.activity party = .working task rest)
      (reached : ∀ origin, tasks.access task = .exclusive → holds value origin →
        (∀ crash ∈ rest.visits config.state, crash ∈ (tasks.program task).visits origin) →
        rest.run config.state = (tasks.program task).run origin →
        ∃ after, effect task value outcome after ∧ holds after config.state) :
      ∃ after, Atomic effect first (events ++ [⟨task, outcome⟩]) after ∧
        ((config.set party .idle).Shared tasks effect holds calm after ∨
          (config.set party .idle).Alone tasks holds after) := by
    obtain ⟨lone, current, found, origin, busy, access, others, stood, visits, run⟩ := alone
    have same : party = lone := by
      by_contra different
      rw [others party different] at working
      cases working
    subst same
    rw [busy] at working
    cases working
    obtain ⟨after, acted, stays⟩ := reached origin access stood visits run
    exact ⟨after, .acts before acted, .inl (idle_shared (idle_of_leave others) stays)⟩
  cases step with
  | begins task _ admitted =>
      rw [List.append_nil]
      rcases explained with shared | ⟨lone, current, rest, _, busy, access, _⟩
      · exact ⟨value, before, shared.begin stands admitted⟩
      · have refused := (admitted lone current rest busy).1
        rw [access] at refused
        cases refused
  | advances working =>
      rw [List.append_nil]
      rcases explained with shared | alone
      · exact ⟨value, before, .inl (shared.advance stands working)⟩
      · exact ⟨value, before, .inr (alone.advance working)⟩
  | @returns party task answer working =>
      rcases explained with shared | alone
      · exact ⟨value, .acts before (shared.answers party task _ working _ _ .done), .inl (shared.leave party)⟩
      · apply leaves alone working
        intro origin access stood _ run
        have ended := stands.ended task value origin access stood
        rwa [← run] at ended
  | @raises party task error working =>
      rcases explained with shared | alone
      · exact ⟨value, .acts before (shared.answers party task _ working _ _ .fail), .inl (shared.leave party)⟩
      · apply leaves alone working
        intro origin access stood _ run
        have ended := stands.ended task value origin access stood
        rwa [← run] at ended
  | @dies party task rest working =>
      rcases explained with shared | alone
      · have access := shared.access party task rest working
        exact ⟨value, .acts before (stands.left task value access), .inl (shared.leave party)⟩
      · apply leaves alone working
        intro origin access stood visits _
        exact stands.stopped task value origin access stood _ (visits _ (Prog.start_mem_visits _ _))

/-- A run can go on where another one ended. -/
theorem Runs.trans {start middle last : Configuration Party Task State Error Answer}
    {events later : List (Event Task Error Answer)} (before : Runs tasks start events middle)
    (after : Runs tasks middle later last) : Runs tasks start (events ++ later) last := by
  induction after with
  | start =>
      rw [List.append_nil]
      exact before
  | step _ step ih =>
      rw [← List.append_assoc]
      exact .step ih step

theorem Step.runs {seen : List (Event Task Error Answer)} (step : Step tasks config seen next) :
    Runs tasks config seen next := .step .start step

/-- A task that nobody disturbs is a run to its end. -/
theorem Runs.undisturbed {party : Party} {task : Task} (rest : Prog State Error Answer)
    (working : config.activity party = .working task rest) :
    Runs tasks config [⟨task, some (rest.run config.state).1⟩]
      ({ config with state := (rest.run config.state).2 }.set party .idle) := by
  induction rest generalizing config with
  | done answer => exact (Step.returns working).runs
  | fail error => exact (Step.raises working).runs
  | step change following ih =>
      let moved := { config with state := change config.state }
      have later := ih (change config.state) (activity_set_self moved party _)
      have all := (Step.advances working).runs.trans later
      rw [set_set] at all
      exact all

omit [DecidableEq Party] in
theorem admits_idle (task : Task) (idle : ∀ other, config.activity other = .idle) : config.Admits tasks task := by
  intro other current rest working
  rw [idle other] at working
  cases working

/-- Nobody works, so that one party can do a whole task. -/
theorem Runs.task (party : Party) (task : Task) (idle : ∀ other, config.activity other = .idle) :
    Runs tasks config [⟨task, some ((tasks.program task).run config.state).1⟩]
      { config with state := ((tasks.program task).run config.state).2 } := by
  have begun : Step tasks config [] (config.set party (.working task (tasks.program task))) :=
    .begins task (idle party) (admits_idle task idle)
  have all := begun.runs.trans (Runs.undisturbed (tasks.program task) (activity_set_self config party _))
  rw [set, set, Function.update_idem, ← idle party, Function.update_eq_self] at all
  exact all

/-- A party dies as soon as it has the lock. -/
theorem Runs.abandoned (party : Party) (task : Task) (idle : ∀ other, config.activity other = .idle) :
    Runs tasks config [⟨task, none⟩] config := by
  have begun : Step tasks config [] (config.set party (.working task (tasks.program task))) :=
    .begins task (idle party) (admits_idle task idle)
  have all := begun.runs.trans (Step.dies (activity_set_self config party _)).runs
  rw [set, set, Function.update_idem, ← idle party, Function.update_eq_self] at all
  exact all

/-- Tasks under one lock act at once: every run, in which parties take turns at any point and die at any
point, is a sequence of tasks on the value. -/
theorem Runs.atomic (stands : StandsFor tasks effect holds calm) {start : Configuration Party Task State Error Answer}
    {events : List (Event Task Error Answer)} (ran : Runs tasks start events config)
    (idle : ∀ party, start.activity party = .idle) (first : holds value start.state) :
    ∃ after, Atomic effect value events after ∧
      (config.Shared tasks effect holds calm after ∨ config.Alone tasks holds after) := by
  induction ran with
  | start => exact ⟨value, .start, .inl (idle_shared idle first)⟩
  | step _ step ih =>
      obtain ⟨middle, before, explained⟩ := ih
      exact step.acts stands before explained

end Configuration

end Foundation.Crash
