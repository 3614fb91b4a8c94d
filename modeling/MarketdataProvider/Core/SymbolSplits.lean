import MarketdataProvider.Core.Reference
import MarketdataProvider.Core.Symbols
import MarketdataProvider.Core.Timeframe
import MarketdataProvider.Foundation.Outcome

namespace MarketdataProvider

open Foundation

/-- `str.upper` maps each character on its own, and none of them to nothing. -/
class UpperByCharacter [PyText] : Prop where
  upper_append : ∀ left right : String,
    PyText.upper (left ++ right) = PyText.upper left ++ PyText.upper right
  length_le_upper : ∀ text : String, text.length ≤ (PyText.upper text).length

section Pieces

theorem behindColon_suffix (text : List Char) : behindColon text <:+ text := by
  unfold behindColon
  split_ifs
  · exact (List.drop_suffix _ _).trans (List.dropWhile_suffix _)
  · exact List.suffix_refl _

theorem behindColon_eq_self_iff {text : List Char} : behindColon text = text ↔ ':' ∉ text := by
  constructor
  · intro same colon
    have shorter := congrArg List.length same
    rw [behindColon, if_pos colon, List.length_drop] at shorter
    have bound := (List.dropWhile_suffix (l := text) (· ≠ ':')).length_le
    have filled : 0 < text.length := List.length_pos_of_mem colon
    omega
  · intro bare
    rw [behindColon, if_neg bare]

theorem splitPerpetual_front (text : List Char) : (splitPerpetual text).1 <+: text := by
  unfold splitPerpetual
  split_ifs
  · exact List.take_prefix _ _
  · exact List.prefix_refl _

theorem splitPerpetual_eq_self_iff {text : List Char} :
    (splitPerpetual text).1 = text ↔ ¬ ['.', 'P'] <:+ text := by
  unfold splitPerpetual
  rw [← List.isSuffixOf_iff_suffix]
  split_ifs with suffix
  · have longer := (List.isSuffixOf_iff_suffix.mp suffix).length_le
    rw [List.length_cons, List.length_singleton] at longer
    refine iff_of_false ?_ (not_not_intro suffix)
    intro same
    have shorter := congrArg List.length same
    rw [List.length_take] at shorter
    omega
  · exact iff_of_true rfl suffix

theorem splitPerpetual_perpetual (contract : List Char) :
    splitPerpetual (contract ++ ['.', 'P']) = (contract, true) := by
  unfold splitPerpetual
  rw [if_pos (List.isSuffixOf_iff_suffix.mpr (List.suffix_append _ _))]
  simp

theorem splitPerpetual_plain {text : List Char} (plain : ¬ ['.', 'P'] <:+ text) :
    splitPerpetual text = (text, false) := by
  unfold splitPerpetual
  rw [if_neg (List.isSuffixOf_iff_suffix.not.mpr plain)]

/-- What is not perpetual ends in no ".P". -/
theorem plain_of_splitPerpetual {text : List Char} (plain : (splitPerpetual text).2 = false) :
    ¬ ['.', 'P'] <:+ (splitPerpetual text).1 := by
  unfold splitPerpetual at plain ⊢
  split_ifs at plain ⊢ with suffix
  exact List.isSuffixOf_iff_suffix.not.mp suffix

theorem takeWhile_eq_self_iff {text : List Char} : text.takeWhile (· ≠ '_') = text ↔ '_' ∉ text := by
  rw [List.takeWhile_eq_self_iff]
  constructor
  · intro each found
    exact absurd (each _ found) (by decide)
  · intro absent character found
    exact decide_eq_true fun same => absent (same ▸ found)

theorem quotes_plain : ∀ quote ∈ defaultStableQuoteAssets,
    quote.toList.getLast?.any Char.isAlphanum = true := by decide +kernel

theorem exchanges_plain : ∀ ex ∈ exchanges, ':' ∉ ex.toList ∧
    ex.toList.head?.any Char.isAlphanum = true := by decide +kernel

end Pieces

section Texts

variable [PyText]

/-- The text that both functions read. -/
def upperText (text : List Char) : List Char := (PyText.upper (String.ofList (strip text))).toList

/-- The contract that a symbol names, without the exchange in front of it and the ".P" behind it. -/
def contractText (symbol : String) : List Char × Bool :=
  splitPerpetual (behindColon (upperText symbol.toList))

/-- The part of a contract that `quote_asset` compares with the quotes. -/
def contractRoot (contract : List Char) : List Char :=
  (splitPerpetual (behindColon (upperText contract))).1.takeWhile (· ≠ '_')

/-- A contract of nothing but its root: no delivery date, no second exchange or ".P" and no blanks. -/
structure PlainContract (contract : List Char) : Prop where
  trimmed : strip contract = contract
  bare : ':' ∉ contract
  unsuffixed : ¬ ['.', 'P'] <:+ contract
  undated : '_' ∉ contract

/-- The quote is the longest listed one at the end of the root, and the base is the rest of the root. -/
structure SplitsExactly (normalized : NormalizedSymbol) (quote : String) : Prop where
  parts : normalized.baseSymbol.toList ++ quote.toList = contractRoot normalized.exchangeSymbol.toList
  listed : quote ∈ defaultStableQuoteAssets
  ends : quote.toList <:+ contractRoot normalized.exchangeSymbol.toList
  longest : ∀ other ∈ defaultStableQuoteAssets,
    other.toList <:+ contractRoot normalized.exchangeSymbol.toList → other.length ≤ quote.length

/-- The symbol in its chart form names the same contract again. -/
def NamesAgain (normalized : NormalizedSymbol) (market : Option String) : Prop :=
  ∃ again, normalizeSymbol normalized.tvSymbol none market = .ok again ∧
    again.exchange = normalized.exchange ∧ again.market = normalized.market ∧
    again.baseSymbol = normalized.baseSymbol ∧ again.exchangeSymbol = normalized.exchangeSymbol

theorem strip_within (text : List Char) : strip text <:+: text := by
  have inner : strip text <+: text.dropWhile PyText.isSpace :=
    List.rdropWhile_prefix _ _
  exact inner.isInfix.trans (List.dropWhile_suffix _).isInfix

theorem contractRoot_length_le {contract : List Char} (upper : upperText contract = strip contract) :
    (contractRoot contract).length ≤ contract.length := by
  have stripped := (strip_within contract).length_le
  have behind := (behindColon_suffix (strip contract)).length_le
  have front := (splitPerpetual_front (behindColon (strip contract))).length_le
  have root : ((splitPerpetual (behindColon (strip contract))).1.takeWhile (· ≠ '_')).length ≤
      (splitPerpetual (behindColon (strip contract))).1.length := List.takeWhile_sublist _ |>.length_le
  rw [contractRoot, upper]
  omega

theorem PlainContract.root {contract : List Char} (plain : PlainContract contract)
    (upper : upperText contract = strip contract) : contractRoot contract = contract := by
  rw [contractRoot, upper, plain.trimmed, behindColon_eq_self_iff.mpr plain.bare,
    splitPerpetual_eq_self_iff.mpr plain.unsuffixed, takeWhile_eq_self_iff.mpr plain.undated]

/-- A root of full length is its contract. -/
theorem contractRoot_eq_iff {contract : List Char} (upper : upperText contract = strip contract) :
    (contractRoot contract).length = contract.length ↔ PlainContract contract := by
  have stripped := (strip_within contract).sublist
  have behind := behindColon_suffix (strip contract)
  have front := splitPerpetual_front (behindColon (strip contract))
  have root := List.takeWhile_prefix (l := (splitPerpetual (behindColon (strip contract))).1) (· ≠ '_')
  constructor
  · intro whole
    rw [contractRoot, upper] at whole
    have trimmed : strip contract = contract := stripped.eq_of_length (by
      have := stripped.length_le
      have := behind.length_le
      have := front.length_le
      have := root.length_le
      omega)
    rw [trimmed] at whole behind front root
    have bare : behindColon contract = contract := behind.sublist.eq_of_length (by
      have := behind.length_le
      have := front.length_le
      have := root.length_le
      omega)
    rw [bare] at whole front root
    have unsuffixed : (splitPerpetual contract).1 = contract := front.sublist.eq_of_length (by
      have := front.length_le
      have := root.length_le
      omega)
    rw [unsuffixed] at whole root
    have undated := root.sublist.eq_of_length whole
    exact ⟨trimmed, behindColon_eq_self_iff.mp bare, splitPerpetual_eq_self_iff.mp unsuffixed,
      takeWhile_eq_self_iff.mp undated⟩
  · intro plain
    exact congrArg List.length (plain.root upper)

/-- Both parts of an upper-cased text are upper-cased. -/
theorem upper_of_append [UpperByCharacter] {left right : String}
    (upper : PyText.upper (left ++ right) = left ++ right) :
    PyText.upper left = left ∧ PyText.upper right = right := by
  rw [UpperByCharacter.upper_append] at upper
  have longer := UpperByCharacter.length_le_upper left
  have others := UpperByCharacter.length_le_upper right
  have total := congrArg String.length upper
  rw [String.length_append, String.length_append] at total
  have texts := congrArg String.toList upper
  rw [String.toList_append, String.toList_append] at texts
  obtain ⟨first, second⟩ := List.append_inj texts (by
    rw [String.length_toList, String.length_toList]
    omega)
  exact ⟨String.toList_inj.mp first, String.toList_inj.mp second⟩

theorem upper_of_within [UpperByCharacter] {piece text : List Char} (within : piece <:+: text)
    (upper : PyText.upper (String.ofList text) = String.ofList text) :
    PyText.upper (String.ofList piece) = String.ofList piece := by
  obtain ⟨front, back, rfl⟩ := within
  rw [String.ofList_append, String.ofList_append] at upper
  exact (upper_of_append (upper_of_append upper).1).2

/-- A contract is upper-cased as the symbol is. -/
theorem upper_contractText [UpperByCharacter] (symbol : String) :
    PyText.upper (String.ofList (contractText symbol).1) = String.ofList (contractText symbol).1 := by
  have whole : PyText.upper (String.ofList (upperText symbol.toList)) =
      String.ofList (upperText symbol.toList) := by
    rw [upperText, String.ofList_toList, PyText.upper_upper]
  have contract : (contractText symbol).1 <:+: upperText symbol.toList :=
    (splitPerpetual_front _).isInfix.trans (behindColon_suffix _).isInfix
  exact upper_of_within contract whole

theorem upperText_contractText [UpperByCharacter] (symbol : String) :
    upperText (contractText symbol).1 = strip (contractText symbol).1 := by
  rw [upperText, upper_of_within (strip_within _) (upper_contractText symbol), String.toList_ofList]

theorem quotes_upper : defaultStableQuoteAssets.map PyText.upper = defaultStableQuoteAssets := by
  have ascii : ∀ quote ∈ defaultStableQuoteAssets, quote.toList.all (·.toNat < 128) = true ∧
      String.ofList (quote.toList.map Char.toUpper) = quote := by decide +kernel
  rw [List.map_congr_left (g := id) fun quote listed => ?_, List.map_id]
  obtain ⟨plain, upper⟩ := ascii quote listed
  rw [PyText.upper_ascii quote plain]
  exact upper

theorem quoteAsset_eq (symbol : String) : quoteAsset symbol defaultStableQuoteAssets =
    (defaultStableQuoteAssets.insertionSort fun left right => right.length ≤ left.length).find?
      fun quote => quote.toList.isSuffixOf (contractRoot symbol.toList) := by
  unfold quoteAsset
  rw [quotes_upper]
  rfl

/-- The quotes are tried from the longest on. -/
theorem quoteAsset_spec {symbol quote : String}
    (found : quoteAsset symbol defaultStableQuoteAssets = some quote) :
    quote ∈ defaultStableQuoteAssets ∧ quote.toList <:+ contractRoot symbol.toList ∧
      ∀ other ∈ defaultStableQuoteAssets, other.toList <:+ contractRoot symbol.toList →
        other.length ≤ quote.length := by
  rw [quoteAsset_eq] at found
  obtain ⟨ends, front, back, order, before⟩ := List.find?_eq_some_iff_append.mp found
  have total : Std.Total fun left right : String => right.length ≤ left.length :=
    ⟨fun left right => Nat.le_total _ _⟩
  have transitive : IsTrans String fun left right => right.length ≤ left.length :=
    ⟨fun first second third longer later => Nat.le_trans later longer⟩
  have sorted := List.pairwise_insertionSort (fun left right : String => right.length ≤ left.length)
    defaultStableQuoteAssets
  have same (other : String) : other ∈ front ++ quote :: back ↔ other ∈ defaultStableQuoteAssets := by
    rw [← order]
    exact List.mem_insertionSort _
  rw [order] at sorted
  refine ⟨(same quote).mp (by simp), List.isSuffixOf_iff_suffix.mp ends, ?_⟩
  intro other listed suffix
  rcases List.mem_append.mp ((same other).mpr listed) with earlier | later
  · have refused := before other earlier
    rw [List.isSuffixOf_iff_suffix.mpr suffix] at refused
    exact absurd refused (by decide)
  · rcases List.mem_cons.mp later with rfl | behind
    · exact Nat.le_refl _
    · exact (List.pairwise_cons.mp (List.pairwise_append.mp sorted).2.1).1 other behind

/-- What is left of a contract when its quote is cut off. -/
def contractBase (contract : List Char) : List Char :=
  match quoteAsset (String.ofList contract) defaultStableQuoteAssets with
  | some quote => contract.take (contract.length - quote.length)
  | none => contract

/-- The symbol of a contract and of whether it came with a ".P". -/
def describedSymbol (ex mkt : String) (contract : List Char × Bool) : NormalizedSymbol where
  exchange := PyText.lower ex
  market := mkt
  baseSymbol := String.ofList (contractBase contract.1)
  tvSymbol := ex ++ ":" ++ String.ofList contract.1 ++
    if contract.2 ∨ mkt ∈ derivativeMarkets then ".P" else ""
  exchangeSymbol := String.ofList contract.1
  isPerpetual := mkt ∈ derivativeMarkets

/-- A ".P" changes nothing but the chart form. -/
theorem describedSymbol_suffixed (ex mkt : String) (contract : List Char × Bool) (perpetual : Bool) :
    (describedSymbol ex mkt (contract.1, perpetual)).exchange = (describedSymbol ex mkt contract).exchange ∧
      (describedSymbol ex mkt (contract.1, perpetual)).market = (describedSymbol ex mkt contract).market ∧
      (describedSymbol ex mkt (contract.1, perpetual)).baseSymbol =
        (describedSymbol ex mkt contract).baseSymbol ∧
      (describedSymbol ex mkt (contract.1, perpetual)).exchangeSymbol =
        (describedSymbol ex mkt contract).exchangeSymbol :=
  ⟨rfl, rfl, rfl, rfl⟩

omit [PyText] in
theorem behindColon_of_splitExchange {raw : List Char} {split : Option String × List Char}
    (parsed : splitExchange raw = .ok split) : split.2 = behindColon raw := by
  unfold splitExchange at parsed
  unfold behindColon
  dsimp only at parsed
  split_ifs at parsed ⊢
  · exact (Except.ok.inj parsed) ▸ rfl
  · exact (Except.ok.inj parsed) ▸ rfl

theorem normalizeSymbol_accepted {symbol : String} {exchange market : Option String}
    {normalized : NormalizedSymbol} (accepted : normalizeSymbol symbol exchange market = .ok normalized) :
    ∃ ex mkt, ex ∈ exchanges ∧ PyText.upper ex = ex ∧
      symbolMarket ex market (contractText symbol).2 = .ok mkt ∧
      normalized = describedSymbol ex mkt (contractText symbol) := by
  unfold normalizeSymbol at accepted
  by_cases empty : (PyText.upper (String.ofList (strip symbol.toList))).toList = []
  · rw [if_pos empty] at accepted
    cases accepted
  rw [if_neg empty] at accepted
  obtain ⟨split, parsed, rest⟩ := bind_eq_ok.mp accepted
  dsimp only at rest
  split_ifs at rest with absent unknown
  · obtain ⟨mkt, found, described⟩ := bind_eq_ok.mp rest
    have contract : splitPerpetual split.2 = contractText symbol := by
      rw [behindColon_of_splitExchange parsed]
      rfl
    rw [contract] at found described
    refine ⟨_, mkt, unknown, PyText.upper_upper _, found, ?_⟩
    refine Eq.trans (Except.ok.inj described).symm ?_
    unfold describedSymbol contractBase
    cases quoteAsset (String.ofList (contractText symbol).1) defaultStableQuoteAssets with
    | none => rfl
    | some quote => rfl

/-- A symbol with its exchange in front is read without any other exchange. -/
theorem normalizeSymbol_named {symbol ex : String} {rest : List Char} {market : Option String}
    (listed : ex ∈ exchanges) (upper : PyText.upper ex = ex)
    (text : upperText symbol.toList = ex.toList ++ ':' :: rest) :
    normalizeSymbol symbol none market = (do
      let mkt ← symbolMarket ex market (splitPerpetual rest).2
      .ok (describedSymbol ex mkt (splitPerpetual rest))) := by
  obtain ⟨bare, plain⟩ := exchanges_plain ex listed
  obtain ⟨first, starts, _⟩ := Option.any_eq_true _ _ |>.mp plain
  have front : (ex.toList ++ ':' :: rest).takeWhile (· ≠ ':') = ex.toList := by
    rw [List.takeWhile_append_of_pos]
    · simp
    · intro character found
      exact decide_eq_true fun same => bare (same ▸ found)
  have back : (ex.toList ++ ':' :: rest).dropWhile (· ≠ ':') = ':' :: rest := by
    rw [List.dropWhile_append_of_pos]
    · simp
    · intro character found
      exact decide_eq_true fun same => bare (same ▸ found)
  have split : splitExchange (upperText symbol.toList) = .ok (some ex, rest) := by
    rw [text, splitExchange, if_pos (by simp), front, back, String.ofList_toList, if_pos listed]
    rfl
  have filled : upperText symbol.toList ≠ [] := by
    rw [text]
    simp
  have named : ex ≠ "" := by
    intro empty
    rw [empty] at starts
    cases starts
  unfold normalizeSymbol
  change (if upperText symbol.toList = [] then _ else splitExchange (upperText symbol.toList) >>= _) = _
  rw [if_neg filled, split, ok_bind]
  have firstName : PyText.upper (firstText none (some ex)) = ex := upper
  simp only [firstName, if_neg named, if_neg (not_not_intro listed)]
  unfold describedSymbol contractBase
  cases quoteAsset (String.ofList (splitPerpetual rest).1) defaultStableQuoteAssets with
  | none => rfl
  | some quote => rfl

/-- A contract that was found without its market name is found with it. -/
theorem symbolMarket_again {ex mkt : String} {market : Option String} {perpetual : Bool}
    (found : symbolMarket ex market perpetual = .ok mkt) :
    symbolMarket ex market (perpetual || decide (mkt ∈ derivativeMarkets)) = .ok mkt := by
  unfold symbolMarket at found ⊢
  by_cases requested : replaceChar '-' '_' (replaceChar ' ' '_'
      (PyText.lower (String.ofList (strip (market.getD "").toList)))) = ""
  · rw [if_neg (not_not_intro requested)] at found ⊢
    cases perpetual with
    | true =>
        rw [Bool.true_or]
        exact found
    | false =>
        rw [if_neg Bool.false_ne_true] at found
        obtain rfl := Except.ok.inj found
        rw [Bool.false_or, if_neg (by decide)]
  · rw [if_pos requested] at found ⊢
    exact found

/-- The ".P" that the chart form puts behind a contract is taken off again. -/
theorem splitPerpetual_chart (mkt symbol : String) :
    splitPerpetual ((contractText symbol).1 ++
        if (contractText symbol).2 ∨ mkt ∈ derivativeMarkets then ['.', 'P'] else []) =
      ((contractText symbol).1, (contractText symbol).2 || decide (mkt ∈ derivativeMarkets)) := by
  by_cases perpetual : (contractText symbol).2 = true ∨ mkt ∈ derivativeMarkets
  · rw [if_pos perpetual, splitPerpetual_perpetual]
    simp [perpetual]
  · obtain ⟨spot, plain⟩ := not_or.mp perpetual
    have unsuffixed : ¬ ['.', 'P'] <:+ (contractText symbol).1 :=
      plain_of_splitPerpetual (eq_false_of_ne_true spot)
    rw [if_neg perpetual, List.append_nil, splitPerpetual_plain unsuffixed]
    simp [spot, plain]

theorem tvSymbol_toList (ex mkt : String) (contract : List Char × Bool) :
    (describedSymbol ex mkt contract).tvSymbol.toList = ex.toList ++ ':' :: (contract.1 ++
      if contract.2 ∨ mkt ∈ derivativeMarkets then ['.', 'P'] else []) := by
  unfold describedSymbol
  split_ifs <;> simp

/-- A chart form that ends in a quote is read as it stands. -/
theorem upperText_tvSymbol [UpperByCharacter] {ex mkt symbol quote : String}
    (listed : ex ∈ exchanges) (upper : PyText.upper ex = ex)
    (quoted : quote ∈ defaultStableQuoteAssets) (ends : quote.toList <:+ (contractText symbol).1) :
    upperText (describedSymbol ex mkt (contractText symbol)).tvSymbol.toList =
      (describedSymbol ex mkt (contractText symbol)).tvSymbol.toList := by
  obtain ⟨first, starts, firstPlain⟩ :=
    Option.any_eq_true _ _ |>.mp (exchanges_plain ex listed).2
  obtain ⟨last, finish, lastPlain⟩ := Option.any_eq_true _ _ |>.mp (quotes_plain quote quoted)
  have colon : PyText.upper ":" = ":" := PyText.upper_ascii ":" (by decide)
  have mark : PyText.upper ".P" = ".P" := PyText.upper_ascii ".P" (by decide)
  have none : PyText.upper "" = "" := PyText.upper_ascii "" (by decide)
  have same : PyText.upper (describedSymbol ex mkt (contractText symbol)).tvSymbol =
      (describedSymbol ex mkt (contractText symbol)).tvSymbol := by
    unfold describedSymbol
    dsimp only
    rw [UpperByCharacter.upper_append, UpperByCharacter.upper_append, UpperByCharacter.upper_append,
      upper, colon, upper_contractText]
    split_ifs
    · rw [mark]
    · rw [none]
  have trimmed : strip (describedSymbol ex mkt (contractText symbol)).tvSymbol.toList =
      (describedSymbol ex mkt (contractText symbol)).tvSymbol.toList := by
    obtain ⟨back, named⟩ := List.head?_eq_some_iff.mp starts
    obtain ⟨front, spelled⟩ := List.getLast?_eq_some_iff.mp finish
    obtain ⟨base, whole⟩ := ends
    rw [tvSymbol_toList]
    by_cases perpetual : (contractText symbol).2 = true ∨ mkt ∈ derivativeMarkets
    · have begins : ex.toList ++ ':' :: ((contractText symbol).1 ++ ['.', 'P']) =
          first :: (back ++ ':' :: ((contractText symbol).1 ++ ['.', 'P'])) := by
        rw [named, List.cons_append]
      have closes : ex.toList ++ ':' :: ((contractText symbol).1 ++ ['.', 'P']) =
          ex.toList ++ ':' :: ((contractText symbol).1 ++ ['.']) ++ ['P'] := by simp
      rw [if_pos perpetual]
      exact strip_eq_self begins closes (PyText.isSpace_ascii first firstPlain)
        (PyText.isSpace_ascii 'P' (by decide))
    · have begins : ex.toList ++ ':' :: (contractText symbol).1 =
          first :: (back ++ ':' :: (contractText symbol).1) := by
        rw [named, List.cons_append]
      have closes : ex.toList ++ ':' :: (contractText symbol).1 =
          ex.toList ++ ':' :: (base ++ front) ++ [last] := by
        rw [← whole, spelled]
        simp
      rw [if_neg perpetual, List.append_nil]
      exact strip_eq_self begins closes (PyText.isSpace_ascii first firstPlain)
        (PyText.isSpace_ascii last lastPlain)
  rw [upperText, trimmed, String.ofList_toList, same]

/-- The base of a plain contract is what the quote leaves of it. For a contract with a delivery date,
such as BTCUSD_PERP, the length of the quote is cut off behind the date instead. -/
theorem symbol_decomposition_iff [UpperByCharacter] {symbol quote : String}
    {exchange market : Option String} {normalized : NormalizedSymbol}
    (accepted : normalizeSymbol symbol exchange market = .ok normalized)
    (quoted : quoteAsset normalized.exchangeSymbol defaultStableQuoteAssets = some quote) :
    (SplitsExactly normalized quote ∧ NamesAgain normalized market) ↔
      PlainContract (contractText symbol).1 := by
  obtain ⟨ex, mkt, listed, upper, found, rfl⟩ := normalizeSymbol_accepted accepted
  have upperContract := upperText_contractText symbol
  have base : (describedSymbol ex mkt (contractText symbol)).baseSymbol.toList =
      (contractText symbol).1.take ((contractText symbol).1.length - quote.length) := by
    have found : quoteAsset (String.ofList (contractText symbol).1) defaultStableQuoteAssets = some quote :=
      quoted
    rw [describedSymbol, String.toList_ofList, contractBase, found]
  have spelled : (describedSymbol ex mkt (contractText symbol)).exchangeSymbol.toList =
      (contractText symbol).1 := String.toList_ofList
  obtain ⟨quoteListed, ends, longest⟩ := quoteAsset_spec quoted
  rw [spelled] at ends longest
  constructor
  · intro split
    have total := congrArg List.length split.1.parts
    have bound := contractRoot_length_le upperContract
    rw [base, spelled, List.length_append, List.length_take, String.length_toList] at total
    apply (contractRoot_eq_iff upperContract).mp
    omega
  · intro plain
    have root := plain.root upperContract
    rw [root] at ends longest
    have parts : (contractText symbol).1.take ((contractText symbol).1.length - quote.length) ++
        quote.toList = (contractText symbol).1 := by
      obtain ⟨front, whole⟩ := ends
      rw [← whole, List.length_append, String.length_toList, Nat.add_sub_cancel, List.take_left']
      rfl
    refine ⟨⟨?_, quoteListed, ?_, ?_⟩, describedSymbol ex mkt
      ((contractText symbol).1, (contractText symbol).2 || decide (mkt ∈ derivativeMarkets)), ?_,
      describedSymbol_suffixed ex mkt (contractText symbol)
        ((contractText symbol).2 || decide (mkt ∈ derivativeMarkets))⟩
    · rw [base, spelled, root, parts]
    · rw [spelled, root]
      exact ends
    · rw [spelled, root]
      exact longest
    · have chart : upperText (describedSymbol ex mkt (contractText symbol)).tvSymbol.toList =
          (describedSymbol ex mkt (contractText symbol)).tvSymbol.toList :=
        upperText_tvSymbol listed upper quoteListed ends
      rw [normalizeSymbol_named listed upper (chart.trans (tvSymbol_toList ex mkt _)),
        splitPerpetual_chart, symbolMarket_again found, ok_bind]

end Texts

open Reference
open scoped Reference

instance upperByCharacter : UpperByCharacter where
  upper_append left right := by
    change String.ofList _ = String.ofList _ ++ String.ofList _
    rw [String.toList_append, List.map_append, String.ofList_append]
  length_le_upper text := by
    change text.length ≤ (String.ofList _).length
    rw [String.length_ofList, List.length_map, String.length_toList]

/-- A perpetual contract of Binance, as `normalize_symbol` describes it. -/
def btcusdtPerpetual : NormalizedSymbol where
  exchange := "binance"
  market := "usdm"
  baseSymbol := "BTC"
  tvSymbol := "BINANCE:BTCUSDT.P"
  exchangeSymbol := "BTCUSDT"
  isPerpetual := true

theorem symbol_decomposition_btcusdt :
    SplitsExactly btcusdtPerpetual "USDT" ∧ NamesAgain btcusdtPerpetual none := by
  have accepted : normalizeSymbol "binance:BTCUSDT.P" none none = .ok btcusdtPerpetual :=
    eq_ok_of_toOption (by decide +kernel)
  have plain : PlainContract (contractText "binance:BTCUSDT.P").1 :=
    ⟨by decide +kernel, by decide +kernel, by decide +kernel, by decide +kernel⟩
  have quoted : quoteAsset btcusdtPerpetual.exchangeSymbol defaultStableQuoteAssets = some "USDT" := by
    decide +kernel
  exact (symbol_decomposition_iff accepted quoted).mpr plain

/-- The coin margined perpetual that Binance lists with an underscore. -/
def btcusdDated : NormalizedSymbol where
  exchange := "binance"
  market := "coinm"
  baseSymbol := "BTCUSD_P"
  tvSymbol := "BINANCE:BTCUSD_PERP.P"
  exchangeSymbol := "BTCUSD_PERP"
  isPerpetual := true

/-- The quote of a coin margined perpetual is found in front of the underscore and cut off behind it. -/
theorem dated_base_keeps_quote : ∃ normalized,
    normalizeSymbol "BINANCE:BTCUSD_PERP" none (some "coinm") = .ok normalized ∧
      quoteAsset normalized.exchangeSymbol defaultStableQuoteAssets = some "USD" ∧
      normalized.baseSymbol = "BTCUSD_P" ∧ ¬ SplitsExactly normalized "USD" := by
  have accepted : normalizeSymbol "BINANCE:BTCUSD_PERP" none (some "coinm") = .ok btcusdDated :=
    eq_ok_of_toOption (by decide +kernel)
  have quoted : quoteAsset btcusdDated.exchangeSymbol defaultStableQuoteAssets = some "USD" := by
    decide +kernel
  have differ : btcusdDated.baseSymbol.toList ++ "USD".toList ≠
      contractRoot btcusdDated.exchangeSymbol.toList := by decide +kernel
  exact ⟨btcusdDated, accepted, quoted, rfl, fun split => differ split.parts⟩

end MarketdataProvider
