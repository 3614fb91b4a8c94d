import MarketdataProvider.Foundation.Crash

namespace Foundation.Crash
namespace Prog

variable {State Error Value Result : Type}

/-- Two runs of one program make the same steps, and the states that they pass are related. -/
def Mirrors (related : State → State → Prop) : Prog State Error Value → State → State → Prop
  | done _, left, right => related left right
  | fail _, left, right => related left right
  | step change next, left, right =>
      related left right ∧ next (change right) = next (change left) ∧
        (next (change left)).Mirrors related (change left) (change right)

section Rules

variable {related : State → State → Prop} {left right : State} {program : Prog State Error Value}

theorem Mirrors.agrees (mirrors : program.Mirrors related left right) :
    Agrees related program left right := by
  induction program generalizing left right with
  | done value => exact ⟨rfl, mirrors⟩
  | fail error => exact ⟨rfl, mirrors⟩
  | step change next ih =>
      obtain ⟨-, same, rest⟩ := mirrors
      have agrees := ih (change left) rest
      rw [Agrees, run_step, run_step, same]
      exact agrees

/-- A crash of the one run has a crash of the other one beside it. -/
theorem Mirrors.visits (mirrors : program.Mirrors related left right) {crash : State}
    (visited : crash ∈ program.visits right) : ∃ twin ∈ program.visits left, related twin crash := by
  induction program generalizing left right with
  | done value =>
      obtain rfl := List.mem_singleton.mp visited
      exact ⟨left, List.mem_singleton_self _, mirrors⟩
  | fail error =>
      obtain rfl := List.mem_singleton.mp visited
      exact ⟨left, List.mem_singleton_self _, mirrors⟩
  | step change next ih =>
      obtain ⟨start, same, rest⟩ := mirrors
      rcases List.mem_cons.mp visited with rfl | later
      · exact ⟨left, List.mem_cons_self, start⟩
      · rw [same] at later
        obtain ⟨twin, member, paired⟩ := ih (change left) rest later
        exact ⟨twin, List.mem_cons_of_mem _ member, paired⟩

theorem Mirrors.done {value : Value} (same : related left right) :
    (Prog.done value : Prog State Error Value).Mirrors related left right := same

theorem Mirrors.fail {error : Error} (same : related left right) :
    (Prog.fail error : Prog State Error Value).Mirrors related left right := same

theorem Mirrors.read {next : State → Prog State Error Value} (start : related left right)
    (same : next right = next left) (rest : (next left).Mirrors related left right) :
    (Prog.read >>= next).Mirrors related left right := ⟨start, same, rest⟩

theorem Mirrors.modify {change : State → State} {next : Unit → Prog State Error Value}
    (start : related left right) (rest : (next ()).Mirrors related (change left) (change right)) :
    (Prog.modify change >>= next).Mirrors related left right := ⟨start, rfl, rest⟩

theorem Mirrors.ofExcept {outcome : Except Error Value} {next : Value → Prog State Error Result}
    (start : related left right)
    (rest : ∀ value, outcome = .ok value → (next value).Mirrors related left right) :
    (Prog.ofExcept outcome >>= next).Mirrors related left right := by
  cases outcome with
  | error error => exact .fail start
  | ok value => exact rest value rfl

theorem Mirrors.bind {rest : Value → Prog State Error Result} (first : program.Mirrors related left right)
    (second : ∀ value after other, program.run left = (.ok value, after) → related after other →
      (rest value).Mirrors related after other) : (program >>= rest).Mirrors related left right := by
  induction program generalizing left right with
  | done value => exact second value left right rfl first
  | fail error => exact first
  | step change next ih =>
      obtain ⟨start, same, mirrors⟩ := first
      refine ⟨start, ?_, ih (change left) mirrors second⟩
      change next (change right) >>= rest = next (change left) >>= rest
      rw [same]

end Rules

/-- A recovery that passes related states recovers from every state beside one that it recovers from. -/
theorem Recovers.mirrored {Entry : Type} {recover : Entry → Prog State Error Unit}
    {final invariant : State → Prop} {related : State → State → Prop} {left right : State}
    (mirrors : ∀ entry state twin, invariant state → related state twin →
      (recover entry).Mirrors related state twin)
    (kept : ∀ entry state, invariant state → ∀ crash ∈ (recover entry).visits state, invariant crash)
    (ends : ∀ state twin, final state → related state twin → final twin)
    (recovers : Recovers recover final left) (holds : invariant left) (same : related left right) :
    Recovers recover final right := by
  intro later crashes entry
  obtain ⟨twin, reached, again, paired⟩ :
      ∃ twin, Crashes recover left twin ∧ invariant twin ∧ related twin later := by
    induction crashes with
    | refl => exact ⟨left, .refl, holds, same⟩
    | tail _ crash ih =>
        obtain ⟨twin, reached, again, paired⟩ := ih
        obtain ⟨other, visited⟩ := crash
        obtain ⟨next, member, beside⟩ := (mirrors other _ _ again paired).visits visited
        exact ⟨next, .tail reached ⟨other, member⟩, kept other _ again _ member, beside⟩
  obtain ⟨after, ran, sound⟩ := recovers twin reached entry
  obtain ⟨outcome, beside⟩ := (mirrors entry _ _ again paired).agrees
  cases other : (recover entry).run later with
  | mk result last =>
      rw [ran, other] at outcome beside
      cases outcome
      exact ⟨last, rfl, ends after last sound beside⟩

end Prog
end Foundation.Crash
