import MarketdataProvider.Foundation.Outcome
import Mathlib.Data.List.Induction
import Mathlib.Order.MinMax

namespace Foundation.Trail

section Steps

variable {State Step Error : Type} (perform : State → Step → Except Error State)

/-- The steps of a call in turn; one that cannot be formed or that fails ends the call. -/
def performAll (state : State) (steps : List (Except Error Step)) : Except Error State :=
  steps.foldlM (fun state step => step >>= perform state) state

/-- The steps of a call that return, each with the state that it leaves. -/
def trail (state : State) : List (Except Error Step) → List (Step × State)
  | [] => []
  | .error _ :: _ => []
  | .ok step :: rest =>
      match perform state step with
      | .error _ => []
      | .ok next => (step, next) :: trail next rest

def lastState (state : State) (done : List (Step × State)) : State :=
  done.foldl (fun _ entry => entry.2) state

/-- Each call begins where the one before it ended, also where that one failed. -/
def history (state : State) : List (List (Except Error Step)) → List (Step × State)
  | [] => []
  | steps :: rest =>
      trail perform state steps ++ history (lastState state (trail perform state steps)) rest

/-- Every entry is a step from the state before it. -/
def Follows : State → List (Step × State) → Prop
  | _, [] => True
  | state, entry :: rest => perform state entry.1 = .ok entry.2 ∧ Follows entry.2 rest

variable {perform} {state next : State} {done later : List (Step × State)} {step : Step}
  {steps : List (Except Error Step)} {calls more : List (List (Except Error Step))}

theorem performAll_cons : performAll perform state (.ok step :: steps) =
    perform state step >>= fun next => performAll perform next steps := rfl

theorem performAll_single : performAll perform state [.ok step] = perform state step := by
  rw [performAll_cons]
  cases perform state step <;> rfl

theorem performAll_append {front back : List (Except Error Step)} :
    performAll perform state (front ++ back) =
      performAll perform state front >>= fun next => performAll perform next back :=
  List.foldlM_append

@[simp] theorem lastState_append :
    lastState state (done ++ later) = lastState (lastState state done) later :=
  List.foldl_append

@[simp] theorem lastState_concat : lastState state (done ++ [(step, next)]) = next := by
  rw [lastState_append]
  rfl

theorem follows_append :
    Follows perform state (done ++ later) ↔
      Follows perform state done ∧ Follows perform (lastState state done) later := by
  induction done generalizing state with
  | nil => simp [Follows, lastState]
  | cons entry done ih =>
      rw [List.cons_append, Follows, Follows, ih, and_assoc]
      rfl

theorem follows_trail : Follows perform state (trail perform state steps) := by
  induction steps generalizing state with
  | nil => trivial
  | cons step steps ih =>
      cases step with
      | error error => trivial
      | ok step =>
          cases performed : perform state step with
          | error error => simp [trail, performed, Follows]
          | ok next =>
              rw [trail, performed]
              exact ⟨performed, ih⟩

theorem follows_history : Follows perform state (history perform state calls) := by
  induction calls generalizing state with
  | nil => trivial
  | cons steps calls ih => exact follows_append.mpr ⟨follows_trail, ih⟩

theorem history_append : history perform state (calls ++ more) =
    history perform state calls ++
      history perform (lastState state (history perform state calls)) more := by
  induction calls generalizing state with
  | nil => rfl
  | cons steps calls ih =>
      rw [List.cons_append, history, history, ih, lastState_append, List.append_assoc]

theorem mem_trail {entry : Step × State} (member : entry ∈ trail perform state steps) :
    Except.ok entry.1 ∈ steps := by
  induction steps generalizing state with
  | nil => cases member
  | cons step steps ih =>
      cases step with
      | error error => cases member
      | ok step =>
          cases performed : perform state step with
          | error error =>
              rw [trail, performed] at member
              cases member
          | ok next =>
              rw [trail, performed] at member
              cases member with
              | head => exact List.mem_cons_self
              | tail _ inside => exact List.mem_cons_of_mem _ (ih inside)

theorem mem_history {entry : Step × State} (member : entry ∈ history perform state calls) :
    ∃ steps ∈ calls, Except.ok entry.1 ∈ steps := by
  induction calls generalizing state with
  | nil => cases member
  | cons steps calls ih =>
      rw [history, List.mem_append] at member
      cases member with
      | inl own => exact ⟨steps, List.mem_cons_self, mem_trail own⟩
      | inr others =>
          obtain ⟨found, inside, formed⟩ := ih others
          exact ⟨found, List.mem_cons_of_mem _ inside, formed⟩

end Steps

section Registers

variable {State Step Error Value : Type} (perform : State → Step → Except Error State)
  (Holds : State → Prop) (Admits : Step → Prop) (reads : State → Option Value)
  (mark : Step → Option Value)

/-- A register that a step with a mark overwrites and that every other step keeps. -/
structure Register : Prop where
  keeps : ∀ {state step next}, Holds state → Admits step → perform state step = .ok next → Holds next
  writes : ∀ {state step next}, Holds state → Admits step → perform state step = .ok next →
    reads next = (mark step).or (reads state)

def marks (done : List (Step × State)) : List Value := done.filterMap fun entry => mark entry.1

variable [LinearOrder Value]

/-- A register that has a value keeps one, and no lower one. -/
def NotBelow (before after : Option Value) : Prop :=
  ∀ low, before = some low → ∃ high, after = some high ∧ low ≤ high

/-- From any state of a trail to any later one the register does not fall. -/
def NeverFalls (state : State) (done : List (Step × State)) : Prop :=
  ∀ earlier middle later, done = earlier ++ middle ++ later →
    NotBelow (reads (lastState state earlier)) (reads (lastState state (earlier ++ middle)))

/-- No step of a trail has a mark below what the register has before it. -/
def Ahead (state : State) (done : List (Step × State)) : Prop :=
  ∀ earlier step next later, done = earlier ++ (step, next) :: later →
    ∀ high value, reads (lastState state earlier) = some high → mark step = some value → high ≤ value

variable {perform Holds Admits reads mark} {state : State} {done : List (Step × State)}

theorem notBelow_max? {values more : List Value} :
    NotBelow values.max? (values ++ more).max? := by
  intro low highest
  obtain ⟨member, -⟩ := List.max?_eq_some_iff.mp highest
  have nonempty : values ++ more ≠ [] := List.ne_nil_of_mem (List.mem_append_left _ member)
  obtain ⟨high, found⟩ : ∃ high, (values ++ more).max? = some high :=
    Option.ne_none_iff_exists'.mp (mt List.max?_eq_none_iff.mp nonempty)
  exact ⟨high, found, (List.max?_eq_some_iff.mp found).2 low (List.mem_append_left _ member)⟩

/-- A value that is not below the highest one takes its place. -/
theorem max?_concat_of_ahead {values : List Value} {value : Value}
    (ahead : ∀ high, values.max? = some high → high ≤ value) :
    (values ++ [value]).max? = some value := by
  rw [List.max?_eq_some_iff]
  refine ⟨List.mem_append_right _ (List.mem_singleton_self _), fun other member => ?_⟩
  rw [List.mem_append, List.mem_singleton] at member
  cases member with
  | inl earlier =>
      obtain ⟨high, found⟩ : ∃ high, values.max? = some high :=
        Option.ne_none_iff_exists'.mp (mt List.max?_eq_none_iff.mp (List.ne_nil_of_mem earlier))
      exact le_trans ((List.max?_eq_some_iff.mp found).2 other earlier) (ahead high found)
  | inr own => exact le_of_eq own

theorem ahead_front {back : List (Step × State)} (ahead : Ahead reads mark state (done ++ back)) :
    Ahead reads mark state done := fun earlier step next later whole =>
  ahead earlier step next (later ++ back) (by rw [whole, List.append_assoc, List.cons_append])

namespace Register

variable (register : Register perform Holds Admits reads mark)
include register

omit [LinearOrder Value] in
theorem holds_last (holds : Holds state) (follows : Follows perform state done)
    (admits : ∀ entry ∈ done, Admits entry.1) : Holds (lastState state done) := by
  induction done generalizing state with
  | nil => exact holds
  | cons entry done ih =>
      exact ih (register.keeps holds (admits entry List.mem_cons_self) follows.1) follows.2
        fun other member => admits other (List.mem_cons_of_mem _ member)

/-- Without a mark behind the register it has the highest mark of the trail. -/
theorem reads_last (holds : Holds state) (clear : reads state = none)
    (follows : Follows perform state done) (admits : ∀ entry ∈ done, Admits entry.1)
    (ahead : Ahead reads mark state done) :
    reads (lastState state done) = (marks mark done).max? := by
  induction done using List.reverseRecOn with
  | nil => exact clear
  | append_singleton done entry ih =>
      obtain ⟨before, own, -⟩ := follows_append.mp follows
      have inside (other : Step × State) (member : other ∈ done) : Admits other.1 :=
        admits other (List.mem_append_left _ member)
      have last := ih before inside (ahead_front ahead)
      have written := register.writes (register.holds_last holds before inside)
        (admits entry (List.mem_append_right _ (List.mem_singleton_self _))) own
      rw [lastState_concat, written]
      cases marked : mark entry.1 with
      | none => simp [marks, marked, last]
      | some value =>
          have whole : marks mark (done ++ [entry]) = marks mark done ++ [value] := by
            simp [marks, marked]
          rw [whole, Option.some_or, max?_concat_of_ahead fun high found => ?_]
          exact ahead done entry.1 entry.2 [] rfl high value (last.trans found) marked

theorem neverFalls_of_ahead (holds : Holds state) (clear : reads state = none)
    (follows : Follows perform state done) (admits : ∀ entry ∈ done, Admits entry.1)
    (ahead : Ahead reads mark state done) : NeverFalls reads state done := by
  intro earlier middle later whole
  subst whole
  have upTo (front back : List (Step × State)) (split : earlier ++ middle ++ later = front ++ back) :
      reads (lastState state front) = (marks mark front).max? := by
    rw [split] at follows admits ahead
    exact register.reads_last holds clear (follows_append.mp follows).1
      (fun entry member => admits entry (List.mem_append_left _ member)) (ahead_front ahead)
  rw [upTo earlier (middle ++ later) (List.append_assoc _ _ _), upTo (earlier ++ middle) later rfl,
    marks, marks, List.filterMap_append]
  exact notBelow_max?

theorem ahead_of_neverFalls (holds : Holds state) (follows : Follows perform state done)
    (admits : ∀ entry ∈ done, Admits entry.1) (steady : NeverFalls reads state done) :
    Ahead reads mark state done := by
  intro earlier step next later whole high value had marked
  subst whole
  obtain ⟨before, own, -⟩ := follows_append.mp follows
  have written := register.writes
    (register.holds_last holds before fun entry member => admits entry (List.mem_append_left _ member))
    (admits (step, next) (List.mem_append_right _ List.mem_cons_self)) own
  obtain ⟨after, kept, higher⟩ := steady earlier [(step, next)] later (by simp) high had
  rw [lastState_concat, written, marked, Option.some_or] at kept
  rwa [Option.some.inj kept]

end Register

end Registers

end Foundation.Trail
