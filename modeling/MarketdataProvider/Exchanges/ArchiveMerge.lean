import MarketdataProvider.Core.Exact
import MarketdataProvider.Exchanges.BinanceArchive

namespace MarketdataProvider

open Foundation

section Merges

variable {F : Type} [PyFloat F] (D : Type) [PyDecimal D] [DecimalFloat D F]

/-- The five texts of a bar are those of its numbers. -/
structure MarketBar.Texted (bar : MarketBar F) : Prop where
  opening : TextOf bar.openText bar.openPrice
  high : TextOf bar.highText bar.high
  low : TextOf bar.lowText bar.low
  close : TextOf bar.closeText bar.close
  volume : TextOf bar.volumeText bar.volume

/-- `by_time.get(open_time)` and the next bar of this time -/
def mergeInto (current : Option (MarketBar F)) (new : MarketBar F) :
    Except PyError (Option (MarketBar F)) :=
  match current with
  | none => .ok (some new)
  | some current => some <$> mergeSameOpenTime D current new

def mergeBars (bars : List (MarketBar F)) : Except PyError (Option (MarketBar F)) :=
  bars.foldlM (mergeInto D) none

/-- The texts that a merge reads as decimals. -/
structure MarketBar.Decimals (bar : MarketBar F) : Prop where
  volume : ∃ decimal : D, DecimalOf bar.volumeText decimal
  high : ∃ decimal : D, DecimalOf bar.highText decimal
  low : ∃ decimal : D, DecimalOf bar.lowText decimal

variable {D}

/-- What a merge makes of two bars. -/
structure Merges (current new merged : MarketBar F) : Prop where
  time : merged.time = current.time
  opening : merged.openPrice = current.openPrice ∧ merged.openText = current.openText
  closing : merged.close = new.close ∧ merged.closeText = new.closeText
  high : merged.high = PyFloat.max current.high new.high
  highText : ∀ first second : D, DecimalOf current.highText first → DecimalOf new.highText second →
    merged.highText = if PyDecimal.lt first second then new.highText else current.highText
  low : merged.low = PyFloat.min current.low new.low
  lowText : ∀ first second : D, DecimalOf current.lowText first → DecimalOf new.lowText second →
    merged.lowText = if PyDecimal.lt second first then new.lowText else current.lowText
  volume : ∀ first second : D, DecimalOf current.volumeText first → DecimalOf new.volumeText second →
    merged.volumeText = some (PyDecimal.format (PyDecimal.add first second)) ∧
      merged.volume = DecimalFloat.toFloat (PyDecimal.add first second)

omit [DecimalFloat D F] in
/-- A decimal is read from its text, not from the float beside it. -/
theorem DecimalOf.parse (texts : DecimalReading D F) {text : Option String} {decimal : D}
    (written : DecimalOf text decimal) (number : F) :
    parseDecimal D (textOr text number) = .ok decimal := by
  obtain ⟨digits, rfl, read⟩ := written
  have given : digits ≠ "" := by
    rintro rfl
    rw [texts.blank] at read
    cases read
  rw [textOr, if_neg given, parseDecimal, read]

omit [DecimalFloat D F] in
theorem decimalOf_of_parse (texts : DecimalReading D F) {text : Option String} {number value : F}
    (written : TextOf text value) {decimal : D}
    (read : parseDecimal D (textOr text number) = .ok decimal) : DecimalOf text decimal := by
  obtain ⟨digits, rfl, parsed⟩ := written
  have given : digits ≠ "" := by
    rintro rfl
    rw [texts.blankFloat] at parsed
    cases parsed
  rw [textOr, if_neg given, parseDecimal] at read
  split at read
  · rename_i known
    cases read
    exact ⟨digits, rfl, known⟩
  · cases read

/-- Two bars with decimals are merged. -/
theorem mergeSameOpenTime_merges (texts : DecimalReading D F) {current new : MarketBar F}
    (first : current.Decimals D) (second : new.Decimals D) :
    ∃ merged, mergeSameOpenTime D current new = .ok merged ∧ Merges (D := D) current new merged := by
  obtain ⟨volume, volumeText⟩ := first.volume
  obtain ⟨newVolume, newVolumeText⟩ := second.volume
  obtain ⟨high, highText⟩ := first.high
  obtain ⟨newHigh, newHighText⟩ := second.high
  obtain ⟨low, lowText⟩ := first.low
  obtain ⟨newLow, newLowText⟩ := second.low
  refine ⟨_, by
    simp only [mergeSameOpenTime, keyed, volumeText.parse texts, newVolumeText.parse texts,
      highText.parse texts, newHighText.parse texts, lowText.parse texts, newLowText.parse texts, ok_bind]
    rfl, ?_⟩
  exact {
    time := rfl
    opening := ⟨rfl, rfl⟩
    closing := ⟨rfl, rfl⟩
    high := rfl
    highText := by
      intro left right leftText rightText
      obtain rfl := leftText.unique highText
      obtain rfl := rightText.unique newHighText
      simp only [firstGreatest, List.foldl_cons, List.foldl_nil]
      split <;> rfl
    low := rfl
    lowText := by
      intro left right leftText rightText
      obtain rfl := leftText.unique lowText
      obtain rfl := rightText.unique newLowText
      simp only [firstLeast, List.foldl_cons, List.foldl_nil]
      split <;> rfl
    volume := by
      intro left right leftText rightText
      obtain rfl := leftText.unique volumeText
      obtain rfl := rightText.unique newVolumeText
      exact ⟨rfl, rfl⟩ }

/-- The bar that a merge makes can be merged again. -/
theorem Merges.decimals (texts : DecimalReading D F) {current new merged : MarketBar F}
    (merges : Merges (D := D) current new merged) (first : current.Decimals D) (second : new.Decimals D) :
    merged.Decimals D := by
  obtain ⟨volume, volumeText⟩ := first.volume
  obtain ⟨newVolume, newVolumeText⟩ := second.volume
  obtain ⟨high, highText⟩ := first.high
  obtain ⟨newHigh, newHighText⟩ := second.high
  obtain ⟨low, lowText⟩ := first.low
  obtain ⟨newLow, newLowText⟩ := second.low
  refine ⟨⟨_, _, (merges.volume _ _ volumeText newVolumeText).1, texts.format _⟩, ?_, ?_⟩
  · rw [merges.highText _ _ highText newHighText]
    split
    · exact second.high
    · exact first.high
  · rw [merges.lowText _ _ lowText newLowText]
    split
    · exact second.low
    · exact first.low

/-- A merge of two bars reads the decimals of the second one. -/
theorem decimals_of_merged (texts : DecimalReading D F) {current new merged : MarketBar F}
    (texted : new.Texted) (made : mergeSameOpenTime D current new = .ok merged) : new.Decimals D := by
  simp only [mergeSameOpenTime, keyed, bind_eq_ok] at made
  obtain ⟨_, -, _, volume, _, -, _, ⟨_, high, -⟩, _, -, _, ⟨_, low, -⟩, -⟩ := made
  exact ⟨⟨_, decimalOf_of_parse texts texted.volume volume⟩, ⟨_, decimalOf_of_parse texts texted.high high⟩,
    ⟨_, decimalOf_of_parse texts texted.low low⟩⟩

theorem mergeSameOpenTime_time {current new merged : MarketBar F}
    (made : mergeSameOpenTime D current new = .ok merged) : merged.time = current.time := by
  simp only [mergeSameOpenTime, bind_eq_ok, pure_eq_ok] at made
  obtain ⟨_, -, _, -, _, -, _, -, _, -, _, -, rfl⟩ := made
  rfl

theorem mergeBars_eq_none {bars : List (MarketBar F)} : mergeBars D bars = .ok none ↔ bars = [] := by
  induction bars using List.reverseRecOn with
  | nil => exact iff_of_true rfl rfl
  | append_singleton bars new ih =>
      apply iff_of_false
      · intro merged
        obtain ⟨middle, -, last⟩ := foldlM_append_eq_ok.mp merged
        cases middle with
        | none => cases last
        | some current =>
            simp only [List.foldlM_cons, List.foldlM_nil, mergeInto, bind_eq_ok, map_eq_ok] at last
            obtain ⟨result, ⟨merged, -, rfl⟩, same⟩ := last
            cases same
      · simp

theorem decimals_of_merging (texts : DecimalReading D F) {current new merged : MarketBar F}
    (texted : current.Texted) (made : mergeSameOpenTime D current new = .ok merged) :
    current.Decimals D := by
  simp only [mergeSameOpenTime, keyed, bind_eq_ok] at made
  obtain ⟨_, volume, _, -, _, ⟨_, high, -⟩, _, -, _, ⟨_, low, -⟩, -⟩ := made
  exact ⟨⟨_, decimalOf_of_parse texts texted.volume volume⟩, ⟨_, decimalOf_of_parse texts texted.high high⟩,
    ⟨_, decimalOf_of_parse texts texted.low low⟩⟩

/-- Bars of one cell that can be merged: there is at most one, or all have decimals. -/
def Mergeable (D : Type) [PyDecimal D] (bars : List (MarketBar F)) : Prop :=
  bars.length ≤ 1 ∨ ∀ bar ∈ bars, bar.Decimals D

/-- What is known of the merged bar: it is the only one, or all bars and it have decimals. -/
def MergedBar (D : Type) [PyDecimal D] (bars : List (MarketBar F)) : Option (MarketBar F) → Prop
  | none => bars = []
  | some bar => bars ≠ [] ∧ (bars = [bar] ∨ bar.Decimals D ∧ ∀ source ∈ bars, source.Decimals D)

omit [PyFloat F] [DecimalFloat D F] in
theorem Mergeable.front {front back : List (MarketBar F)} (mergeable : Mergeable D (front ++ back)) :
    Mergeable D front := by
  rcases mergeable with few | decimals
  · left
    rw [List.length_append] at few
    omega
  · exact .inr fun bar member => decimals bar (List.mem_append_left _ member)

omit [PyFloat F] [DecimalFloat D F] in
theorem Mergeable.last {bars : List (MarketBar F)} {new : MarketBar F} (some : bars ≠ [])
    (mergeable : Mergeable D (bars ++ [new])) : ∀ bar ∈ bars ++ [new], bar.Decimals D := by
  refine mergeable.resolve_left ?_
  have several := List.length_pos_iff.mpr some
  rw [List.length_append, List.length_singleton]
  omega

/-- Mergeable bars are merged into one, and no bar comes of none. -/
theorem mergeBars_of_mergeable (texts : DecimalReading D F) {bars : List (MarketBar F)}
    (mergeable : Mergeable D bars) : ∃ folded, mergeBars D bars = .ok folded ∧ MergedBar D bars folded := by
  induction bars using List.reverseRecOn with
  | nil => exact ⟨none, rfl, rfl⟩
  | append_singleton bars new ih =>
      obtain ⟨folded, merged, known⟩ := ih mergeable.front
      rw [mergeBars] at merged ⊢
      rw [List.foldlM_append, merged, ok_bind]
      cases folded with
      | none =>
          obtain rfl : bars = [] := known
          exact ⟨some new, rfl, List.cons_ne_nil new [], .inl rfl⟩
      | some current =>
          obtain ⟨some, single⟩ := known
          have decimals := mergeable.last some
          have current_decimals : current.Decimals D := by
            rcases single with rfl | again
            · exact decimals current (by simp)
            · exact again.1
          obtain ⟨result, joined, merges⟩ :=
            mergeSameOpenTime_merges texts current_decimals (decimals new (by simp))
          refine ⟨.some result, ?_, by simp,
            .inr ⟨merges.decimals texts current_decimals (decimals new (by simp)), decimals⟩⟩
          simp only [List.foldlM_cons, List.foldlM_nil, mergeInto, joined]
          rfl

/-- Bars with texts are merged only when they are mergeable. -/
theorem mergeable_of_mergeBars (texts : DecimalReading D F) {bars : List (MarketBar F)}
    (texted : ∀ bar ∈ bars, bar.Texted) {folded : Option (MarketBar F)}
    (merged : mergeBars D bars = .ok folded) : Mergeable D bars := by
  induction bars using List.reverseRecOn generalizing folded with
  | nil => exact .inl (Nat.zero_le 1)
  | append_singleton bars new ih =>
      obtain ⟨middle, front, last⟩ := foldlM_append_eq_ok.mp merged
      have early := ih (fun bar member => texted bar (List.mem_append_left _ member)) front
      obtain ⟨known, same, shape⟩ := mergeBars_of_mergeable texts early
      obtain rfl : known = middle := Except.ok.inj (same.symm.trans front)
      cases known with
      | none =>
          obtain rfl : bars = [] := shape
          exact .inl (le_refl 1)
      | some current =>
          simp only [List.foldlM_cons, List.foldlM_nil, mergeInto, bind_eq_ok] at last
          obtain ⟨result, joined, -⟩ := last
          obtain ⟨merged, made, -⟩ := map_eq_ok.mp joined
          have second := decimals_of_merged texts (texted new (by simp)) made
          right
          intro bar member
          rcases List.mem_append.mp member with old | same
          · rcases shape.2 with single | decimals
            · obtain rfl : bar = current := List.mem_singleton.mp (single ▸ old)
              exact decimals_of_merging texts (texted bar member) made
            · exact decimals.2 bar old
          · rw [List.mem_singleton.mp same]
            exact second

/-- The high and the low are numbers, as in every bar that keeps the rules. -/
def MarketBar.Numbers (bar : MarketBar F) : Prop :=
  PyFloat.eq bar.high bar.high = true ∧ PyFloat.eq bar.low bar.low = true

/-- What the fold makes of the bars of one cell. -/
structure CellBar (D : Type) [PyDecimal D] [DecimalFloat D F] (bars : List (MarketBar F))
    (bar : MarketBar F) : Prop where
  opening : TextOf bar.openText bar.openPrice ∧
    ∃ first, bars.head? = some first ∧ bar.openPrice = first.openPrice ∧ bar.openText = first.openText
  closing : TextOf bar.closeText bar.close ∧
    ∃ last, bars.getLast? = some last ∧ bar.close = last.close ∧ bar.closeText = last.closeText
  high : ∃ source ∈ bars, bar.high = source.high
  highest : ∀ source ∈ bars, PyFloat.lt bar.high source.high = false
  highText : TextEquals bar.highText bar.high ∧ ∃ source ∈ bars, bar.highText = source.highText
  low : ∃ source ∈ bars, bar.low = source.low
  lowest : ∀ source ∈ bars, PyFloat.lt source.low bar.low = false
  lowText : TextEquals bar.lowText bar.low ∧ ∃ source ∈ bars, bar.lowText = source.lowText
  decimals : bars = [bar] ∨ ∀ source ∈ bars, source.Decimals D
  volume : TextOf bar.volumeText bar.volume ∧ ∀ (first : D) (rest : List D),
    List.Forall₂ (fun source decimal => DecimalOf source.volumeText decimal) bars (first :: rest) →
      DecimalOf bar.volumeText (rest.foldl PyDecimal.add first) ∧
        bar.volume = DecimalFloat.toFloat (rest.foldl PyDecimal.add first)

theorem cellBar_single (order : NumberOrder F) (rounding : DecimalRounding D F) {bar : MarketBar F}
    (texted : bar.Texted) (numbers : bar.Numbers) : CellBar D [bar] bar where
  opening := ⟨texted.opening, bar, rfl, rfl, rfl⟩
  closing := ⟨texted.close, bar, rfl, rfl, rfl⟩
  high := ⟨bar, List.mem_singleton_self bar, rfl⟩
  highest source member := by
    rw [List.mem_singleton.mp member]
    exact order.irrefl bar.high
  highText := ⟨⟨bar.high, texted.high, numbers.1⟩, bar, List.mem_singleton_self bar, rfl⟩
  low := ⟨bar, List.mem_singleton_self bar, rfl⟩
  lowest source member := by
    rw [List.mem_singleton.mp member]
    exact order.irrefl bar.low
  lowText := ⟨⟨bar.low, texted.low, numbers.2⟩, bar, List.mem_singleton_self bar, rfl⟩
  decimals := .inl rfl
  volume := by
    refine ⟨texted.volume, ?_⟩
    intro first rest decimals
    obtain ⟨own, none⟩ := List.forall₂_cons.mp decimals
    obtain rfl := List.forall₂_nil_left_iff.mp none
    exact ⟨own, (rounding.toFloat_eq own texted.volume).symm⟩

/-- The volume of the fold and of one more bar is the sum of the decimals of both. -/
theorem CellBar.volume_merge (texts : DecimalReading D F) (rounding : DecimalRounding D F)
    {bars : List (MarketBar F)} {current new merged : MarketBar F} (folded : CellBar D bars current)
    (first : current.Decimals D) (own : new.Decimals D) (merges : Merges (D := D) current new merged) :
    TextOf merged.volumeText merged.volume ∧ ∀ (head : D) (rest : List D),
      List.Forall₂ (fun source decimal => DecimalOf source.volumeText decimal) (bars ++ [new]) (head :: rest) →
        DecimalOf merged.volumeText (rest.foldl PyDecimal.add head) ∧
          merged.volume = DecimalFloat.toFloat (rest.foldl PyDecimal.add head) := by
  obtain ⟨sum, read⟩ := first.volume
  obtain ⟨newSum, newRead⟩ := own.volume
  obtain ⟨text, value⟩ := merges.volume _ _ read newRead
  rw [text, value]
  refine ⟨⟨_, rfl, rounding.format _⟩, ?_⟩
  intro head rest all
  rcases List.eq_nil_or_concat rest with rfl | ⟨before, final, rfl⟩
  · -- the fold has a bar already, so that two bars do not have one volume
    have few := all.length_eq
    obtain ⟨source, member, -⟩ := folded.high
    have several := List.length_pos_of_mem member
    simp only [List.length_append, List.length_cons, List.length_nil] at few
    omega
  · rw [List.concat_eq_append, ← List.cons_append] at all
    have lengths : bars.length = (head :: before).length := by
      have whole := all.length_eq
      simp only [List.length_append, List.length_singleton, add_left_inj] at whole
      exact whole
    have front := List.forall₂_take_append _ _ _ all
    have back := List.forall₂_drop_append _ _ _ all
    rw [← lengths, List.take_left] at front
    rw [← lengths, List.drop_left] at back
    obtain rfl := ((folded.volume.2 head before front).1).unique read
    obtain rfl := ((List.forall₂_cons.mp back).1).unique newRead
    rw [List.concat_eq_append, List.foldl_append]
    exact ⟨⟨_, rfl, texts.format _⟩, rfl⟩

/-- One more bar of the cell joins its fold. -/
theorem CellBar.merge (texts : DecimalReading D F) (order : NumberOrder F) (rounding : DecimalRounding D F)
    {bars : List (MarketBar F)} {current new merged : MarketBar F} (folded : CellBar D bars current)
    (texted : new.Texted) (numbers : ∀ bar ∈ bars ++ [new], bar.Numbers)
    (first : current.Decimals D) (decimals : ∀ bar ∈ bars ++ [new], bar.Decimals D)
    (merges : Merges (D := D) current new merged) : CellBar D (bars ++ [new]) merged := by
  have greatest := order.max_spec current.high new.high
  have least := order.min_spec current.low new.low
  rw [← merges.high] at greatest
  rw [← merges.low] at least
  have last := numbers new (by simp)
  have own := decimals new (by simp)
  exact {
    opening := by
      obtain ⟨written, head, found, price, text⟩ := folded.opening
      rw [merges.opening.1, merges.opening.2]
      exact ⟨written, head, by rw [List.head?_append, found]; rfl, price, text⟩
    closing := by
      rw [merges.closing.1, merges.closing.2]
      exact ⟨texted.close, new, by simp⟩
    high := by
      rcases greatest.1 with price | price
      · obtain ⟨source, member, same⟩ := folded.high
        exact ⟨source, List.mem_append_left _ member, price.trans same⟩
      · exact ⟨new, by simp, price⟩
    highest := by
      intro source member
      rcases List.mem_append.mp member with old | same
      · obtain ⟨highest, inside, value⟩ := folded.high
        have number : PyFloat.eq current.high current.high = true := by
          rw [value]
          exact (numbers highest (List.mem_append_left _ inside)).1
        exact order.negTrans _ _ _ number greatest.2.1 (folded.highest source old)
      · rw [List.mem_singleton.mp same]
        exact greatest.2.2
    highText := by
      obtain ⟨equals, source, member, written⟩ := folded.highText
      obtain ⟨decimal, read⟩ := first.high
      obtain ⟨newDecimal, newRead⟩ := own.high
      rw [merges.highText _ _ read newRead, merges.high]
      refine ⟨rounding.max_text order equals texted.high last.1 read newRead, ?_⟩
      split
      · exact ⟨new, by simp, rfl⟩
      · exact ⟨source, List.mem_append_left _ member, written⟩
    low := by
      rcases least.1 with price | price
      · obtain ⟨source, member, same⟩ := folded.low
        exact ⟨source, List.mem_append_left _ member, price.trans same⟩
      · exact ⟨new, by simp, price⟩
    lowest := by
      intro source member
      rcases List.mem_append.mp member with old | same
      · obtain ⟨lowest, inside, value⟩ := folded.low
        have number : PyFloat.eq current.low current.low = true := by
          rw [value]
          exact (numbers lowest (List.mem_append_left _ inside)).2
        exact order.negTrans _ _ _ number (folded.lowest source old) least.2.1
      · rw [List.mem_singleton.mp same]
        exact least.2.2
    lowText := by
      obtain ⟨equals, source, member, written⟩ := folded.lowText
      obtain ⟨decimal, read⟩ := first.low
      obtain ⟨newDecimal, newRead⟩ := own.low
      rw [merges.lowText _ _ read newRead, merges.low]
      refine ⟨rounding.min_text order equals texted.low last.2 read newRead, ?_⟩
      split
      · exact ⟨new, by simp, rfl⟩
      · exact ⟨source, List.mem_append_left _ member, written⟩
    decimals := .inr decimals
    volume := folded.volume_merge texts rounding first own merges }

/-- The bars of a cell that are numbers are folded into one bar. -/
theorem cellBar_of_merged (texts : DecimalReading D F) (order : NumberOrder F)
    (rounding : DecimalRounding D F) {bars : List (MarketBar F)} (texted : ∀ bar ∈ bars, bar.Texted)
    (numbers : ∀ bar ∈ bars, bar.Numbers) {folded : MarketBar F}
    (merged : mergeBars D bars = .ok (some folded)) : CellBar D bars folded := by
  induction bars using List.reverseRecOn generalizing folded with
  | nil => cases merged
  | append_singleton bars new ih =>
      obtain ⟨middle, front, last⟩ := foldlM_append_eq_ok.mp merged
      have texted_front : ∀ bar ∈ bars, bar.Texted :=
        fun bar member => texted bar (List.mem_append_left _ member)
      have early := mergeable_of_mergeBars texts texted_front front
      obtain ⟨known, same, shape⟩ := mergeBars_of_mergeable texts early
      obtain rfl : known = middle := Except.ok.inj (same.symm.trans front)
      cases known with
      | none =>
          obtain rfl : bars = [] := shape
          cases last
          exact cellBar_single order rounding (texted new (by simp)) (numbers new (by simp))
      | some current =>
          obtain ⟨some, single⟩ := shape
          have decimals := (mergeable_of_mergeBars texts texted merged).last some
          have current_decimals : current.Decimals D := by
            rcases single with rfl | again
            · exact decimals current (by simp)
            · exact again.1
          obtain ⟨result, joined, merges⟩ :=
            mergeSameOpenTime_merges texts current_decimals (decimals new (by simp))
          simp only [List.foldlM_cons, List.foldlM_nil, mergeInto, joined] at last
          cases last
          exact (ih texted_front (fun bar member => numbers bar (List.mem_append_left _ member)) front).merge
            texts order rounding (texted new (by simp)) numbers current_decimals decimals merges

end Merges

end MarketdataProvider
