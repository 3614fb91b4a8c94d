import MarketdataProvider.Foundation.Outcome

namespace Foundation

section PrefixCode

variable {Error Value Other Symbol : Type} {encode : Value → Except Error (List Symbol)}
  {same : Value → Value → Prop}

/-- What an encoder writes can be cut off from the front of a longer text, up to a relation. -/
def PrefixCode (encode : Value → Except Error (List Symbol)) (same : Value → Value → Prop) : Prop :=
  ∀ {left right : Value} {first second after later : List Symbol}, encode left = .ok first →
    encode right = .ok second → first ++ after = second ++ later → same left right ∧ after = later

namespace PrefixCode

/-- Texts of one length are cut by their length. -/
theorem ofLength (width : Nat) (length : ∀ value text, encode value = .ok text → text.length = width)
    (injective : ∀ left right text, encode left = .ok text → encode right = .ok text → same left right) :
    PrefixCode encode same := by
  intro left right first second after later wrote again equal
  have lengths : first.length = second.length :=
    (length left first wrote).trans (length right second again).symm
  obtain ⟨rfl, rest⟩ := List.append_inj equal lengths
  exact ⟨injective left right first wrote again, rest⟩

/-- A list of codes is read code by code, when none of them is empty. -/
theorem flatten (code : PrefixCode encode same)
    (filled : ∀ value text, encode value = .ok text → text ≠ []) {lefts rights : List Value}
    {firsts seconds : List (List Symbol)} (wrote : lefts.mapM encode = .ok firsts)
    (again : rights.mapM encode = .ok seconds) (equal : firsts.flatten = seconds.flatten) :
    List.Forall₂ same lefts rights := by
  rw [mapM_eq_ok] at wrote again
  induction wrote generalizing rights seconds with
  | nil =>
      cases again with
      | nil => exact .nil
      | cons written rest =>
          rw [List.flatten_nil, List.flatten_cons] at equal
          exact absurd (List.append_eq_nil_iff.mp equal.symm).1 (filled _ _ written)
  | cons wroteHead wroteTail ih =>
      cases again with
      | nil =>
          rw [List.flatten_nil, List.flatten_cons] at equal
          exact absurd (List.append_eq_nil_iff.mp equal).1 (filled _ _ wroteHead)
      | cons againHead againTail =>
          rw [List.flatten_cons, List.flatten_cons] at equal
          obtain ⟨related, rest⟩ := code wroteHead againHead equal
          exact .cons related (ih againTail rest)

end PrefixCode

end PrefixCode

section Chain

variable {State Block : Type} {link : State → Block → State → Prop} {start last : State}

/-- A chain of links from the start over the blocks. -/
inductive Chain (link : State → Block → State → Prop) (start : State) : List Block → State → Prop
  | nil : Chain link start [] start
  | snoc {blocks : List Block} {block : Block} {middle last : State}
      (before : Chain link start blocks middle) (linked : link middle block last) :
      Chain link start (blocks ++ [block]) last

/-- A chain can also be built from its front. -/
theorem Chain.cons {block : Block} {middle : State} {blocks : List Block}
    (linked : link start block middle) (after : Chain link middle blocks last) :
    Chain link start (block :: blocks) last := by
  induction after with
  | nil => exact .snoc .nil linked
  | snoc _ again ih => exact .snoc ih again

/-- The end of a chain commits to its blocks: no link ends in the start, and each end of a link tells
the state before it and the block. -/
theorem Chain.committed {same : Block → Block → Prop}
    (injective : ∀ state other block again next, link state block next → link other again next →
      state = other ∧ same block again)
    (fresh : ∀ state block, ¬ link state block start) {lefts rights : List Block}
    (first : Chain link start lefts last) (second : Chain link start rights last) :
    List.Forall₂ same lefts rights := by
  induction first generalizing rights with
  | nil =>
      cases second with
      | nil => exact .nil
      | snoc before linked => exact absurd linked (fresh _ _)
  | snoc before linked ih =>
      cases second with
      | nil => exact absurd linked (fresh _ _)
      | snoc other again =>
          obtain ⟨rfl, related⟩ := injective _ _ _ _ _ linked again
          exact List.rel_append (ih other) (.cons related .nil)

end Chain

end Foundation
