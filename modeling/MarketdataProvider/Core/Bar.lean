import MarketdataProvider.Core.Python
import MarketdataProvider.Foundation.Outcome
import Mathlib.Data.List.Sort

namespace MarketdataProvider

def runtimeContractVersion : String := "1.4"

inductive RevisionState where
  | original
  | corrected
  | revoked
  deriving DecidableEq, Repr

def RevisionState.value : RevisionState → String
  | .original => "ORIGINAL"
  | .corrected => "CORRECTED"
  | .revoked => "REVOKED"

/-- `RevisionState(text)`, with `none` for `ValueError` -/
def RevisionState.ofValue (text : String) : Option RevisionState :=
  if text = "ORIGINAL" then some .original
  else if text = "CORRECTED" then some .corrected
  else if text = "REVOKED" then some .revoked
  else none

@[simp] theorem RevisionState.ofValue_value (state : RevisionState) :
    RevisionState.ofValue state.value = some state := by
  cases state <;> rfl

/-- An original bar has revision zero, a corrected or revoked one a positive revision. -/
def RevisionState.Admits (state : RevisionState) (revision : Int) : Prop :=
  if state = .original then revision = 0 else 1 ≤ revision

theorem RevisionState.original_admits : RevisionState.original.Admits 0 := rfl

instance (state : RevisionState) (revision : Int) : Decidable (state.Admits revision) :=
  inferInstanceAs (Decidable (if state = .original then revision = 0 else 1 ≤ revision))

structure Bar (F : Type) where
  time : Int
  openPrice : F
  high : F
  low : F
  close : F
  volume : F
  timeClose : Option Int
  deriving DecidableEq

/-- A bar with its identity and provenance; the revision rule holds by construction. -/
structure MarketBar (F : Type) extends Bar F where
  exchange : String
  market : String
  symbol : String
  timeframe : String
  sourceTransport : String
  sourceKind : String
  source : String
  isClosed : Bool
  provider : String
  providerRevision : Option String
  revisionState : RevisionState
  revision : Int
  openText : Option String
  highText : Option String
  lowText : Option String
  closeText : Option String
  volumeText : Option String
  quoteVolume : Option F
  turnover : Option F
  tradesCount : Option Int
  takerBuyBaseVolume : Option F
  takerBuyQuoteVolume : Option F
  downloadedAt : Option Int
  metadata : List (String × String)
  lineage : revisionState.Admits revision
  deriving DecidableEq

variable {F : Type} [PyFloat F]

/-- The OHLC rule and the close time rule of one bar. -/
structure Bar.WellFormed (bar : Bar F) : Prop where
  high : PyFloat.lt bar.high (PyFloat.max bar.openPrice bar.close) = false
  low : PyFloat.lt (PyFloat.min bar.openPrice bar.close) bar.low = false
  timeClose : ∀ close, bar.timeClose = some close → bar.time ≤ close

def closesBeforeOpen (bar : Bar F) : Bool :=
  match bar.timeClose with
  | none => false
  | some close => close < bar.time

def validateBar (prev : Option Int) (seen : List Int) (bar : Bar F) : Except PyError Unit :=
  if bar.time ∈ seen then .error (.mdValidationError s!"Duplicate bar time: {bar.time}")
  else if prev.any (bar.time ≤ ·) then
    .error (.mdValidationError "Bars must be strictly sorted ASC by time")
  else if PyFloat.lt bar.high (PyFloat.max bar.openPrice bar.close) then
    .error (.mdValidationError s!"OHLC high violation at {bar.time}")
  else if PyFloat.lt (PyFloat.min bar.openPrice bar.close) bar.low then
    .error (.mdValidationError s!"OHLC low violation at {bar.time}")
  else if closesBeforeOpen bar then
    .error (.mdValidationError s!"time_close before time at {bar.time}")
  else .ok ()

def validateBarsFrom (prev : Option Int) (seen : List Int) : List (Bar F) → Except PyError Unit
  | [] => .ok ()
  | bar :: rest =>
      match validateBar prev seen bar with
      | .error error => .error error
      | .ok () => validateBarsFrom (some bar.time) (bar.time :: seen) rest

def validateBars (bars : List (Bar F)) : Except PyError Unit := validateBarsFrom none [] bars

theorem validateBar_ok_iff (prev : Option Int) (seen : List Int) (bar : Bar F)
    (earlier : ∀ time ∈ seen, ∃ last, prev = some last ∧ time ≤ last) :
    validateBar prev seen bar = .ok () ↔
      (∀ last, prev = some last → last < bar.time) ∧ bar.WellFormed := by
  constructor
  · intro accepted
    unfold validateBar at accepted
    split_ifs at accepted with duplicate unsorted high low close
    refine ⟨?_, ⟨by simpa using high, by simpa using low, ?_⟩⟩
    · rintro last rfl
      simpa using unsorted
    · intro closeTime same
      simpa [closesBeforeOpen, same] using close
  · rintro ⟨sorted, formed⟩
    have fresh : bar.time ∉ seen := by
      intro member
      obtain ⟨last, same, before⟩ := earlier bar.time member
      have := sorted last same
      omega
    have ordered : prev.any (bar.time ≤ ·) = false := by
      cases prev with
      | none => rfl
      | some last => simpa using sorted last rfl
    have closes : closesBeforeOpen bar = false := by
      cases same : bar.timeClose with
      | none => simp [closesBeforeOpen, same]
      | some close => simpa [closesBeforeOpen, same] using formed.timeClose close same
    simp [validateBar, fresh, ordered, formed.high, formed.low, closes]

theorem validateBarsFrom_ok_iff (bars : List (Bar F)) (prev : Option Int) (seen : List Int)
    (earlier : ∀ time ∈ seen, ∃ last, prev = some last ∧ time ≤ last) :
    validateBarsFrom prev seen bars = .ok () ↔
      (∀ last, prev = some last → ∀ bar ∈ bars, last < bar.time) ∧
        bars.Pairwise (·.time < ·.time) ∧ ∀ bar ∈ bars, bar.WellFormed := by
  induction bars generalizing prev seen with
  | nil => simp [validateBarsFrom]
  | cons bar rest ih =>
      have extended : ∀ time ∈ bar.time :: seen, validateBar prev seen bar = .ok () →
          ∃ last, some bar.time = some last ∧ time ≤ last := by
        intro time member accepted
        refine ⟨bar.time, rfl, ?_⟩
        rcases List.mem_cons.mp member with rfl | old
        · exact Int.le_refl _
        · obtain ⟨last, same, before⟩ := earlier time old
          have := ((validateBar_ok_iff prev seen bar earlier).mp accepted).1 last same
          omega
      rw [validateBarsFrom]
      cases checked : validateBar prev seen bar with
      | error error =>
          have rejected := (validateBar_ok_iff prev seen bar earlier).not.mp (by simp [checked])
          simp only [reduceCtorEq, false_iff, not_and]
          intro before sorted formed
          exact rejected ⟨fun last same => before last same bar List.mem_cons_self,
            formed bar List.mem_cons_self⟩
      | ok done =>
          have current := (validateBar_ok_iff prev seen bar earlier).mp checked
          rw [ih (some bar.time) (bar.time :: seen) (fun time member => extended time member checked)]
          simp only [Option.some.injEq, forall_eq', List.mem_cons, forall_eq_or_imp,
            List.pairwise_cons]
          constructor
          · rintro ⟨after, sorted, formed⟩
            exact ⟨fun last same => ⟨current.1 last same, fun other member =>
              (current.1 last same).trans (after other member)⟩, ⟨after, sorted⟩, current.2, formed⟩
          · rintro ⟨-, ⟨after, sorted⟩, -, formed⟩
            exact ⟨after, sorted, formed⟩

/-- The validator accepts exactly the strictly ascending lists of well-formed bars. -/
theorem validateBars_ok_iff (bars : List (Bar F)) : validateBars bars = .ok () ↔
    bars.Pairwise (·.time < ·.time) ∧ ∀ bar ∈ bars, bar.WellFormed := by
  rw [validateBars, validateBarsFrom_ok_iff bars none [] (by simp)]
  simp

/-- `sorted(bars, key=lambda bar: bar.time)`: the sort is stable. -/
def sortByTime (bars : List (MarketBar F)) : List (MarketBar F) :=
  bars.insertionSort (·.time ≤ ·.time)

omit [PyFloat F] in
theorem sortByTime_eq_self {bars : List (MarketBar F)} (sorted : bars.Pairwise (·.time < ·.time)) :
    sortByTime bars = bars :=
  List.Pairwise.insertionSort_eq (sorted.imp Int.le_of_lt)

omit [PyFloat F] in
theorem mem_sortByTime {bars : List (MarketBar F)} {bar : MarketBar F} :
    bar ∈ sortByTime bars ↔ bar ∈ bars :=
  List.mem_insertionSort _

end MarketdataProvider
