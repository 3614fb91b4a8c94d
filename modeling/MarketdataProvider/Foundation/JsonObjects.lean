import MarketdataProvider.Foundation.Json

namespace Foundation.Json

section Extension

variable {value wider : List Char → Option (Document × List Char)} {fuel more : Nat}

theorem readMembers_eq_some {text rest : List Char} {members : List (List Char × Document)} :
    readMembers value (fuel + 1) text = some (members, rest) ↔
      ∃ body key behindKey start item behind, expect '"' text = some body ∧
        readText body = some (key, behindKey) ∧ expect ':' behindKey = some start ∧
          value (skip start) = some (item, behind) ∧
            ((expect '\x7d' behind = some rest ∧ [(key, item)] = members) ∨
              (expect '\x7d' behind = none ∧ ∃ after others, expect ',' behind = some after ∧
                readMembers value fuel after = some (others, rest) ∧ (key, item) :: others = members)) := by
  rw [readMembers]
  simp only [Option.bind_eq_bind, Option.bind_eq_some_iff, Prod.exists]
  constructor
  · rintro ⟨body, quoted, key, behindKey, named, start, colon, item, behind, read, found⟩
    refine ⟨body, key, behindKey, start, item, behind, quoted, named, colon, read, ?_⟩
    split at found
    · rename_i after closed
      obtain ⟨rfl, rfl⟩ := Prod.mk.inj (Option.some.inj found)
      exact .inl ⟨closed, rfl⟩
    · rename_i opened
      obtain ⟨after, comma, others, last, later, same⟩ := by
        simpa only [Option.bind_eq_some_iff, Prod.exists] using found
      obtain ⟨rfl, rfl⟩ := Prod.mk.inj (Option.some.inj same)
      exact .inr ⟨opened, after, others, comma, later, rfl⟩
  · rintro ⟨body, key, behindKey, start, item, behind, quoted, named, colon, read, found⟩
    refine ⟨body, quoted, key, behindKey, named, start, colon, item, behind, read, ?_⟩
    rcases found with ⟨closed, rfl⟩ | ⟨opened, after, others, comma, later, rfl⟩
    · rw [closed]
    · rw [opened, comma, Option.bind_some, later]
      rfl

theorem readItems_eq_some {text rest : List Char} {items : List Document} :
    readItems value (fuel + 1) text = some (items, rest) ↔
      ∃ item behind, value (skip text) = some (item, behind) ∧
        ((expect ']' behind = some rest ∧ [item] = items) ∨
          (expect ']' behind = none ∧ ∃ after others, expect ',' behind = some after ∧
            readItems value fuel after = some (others, rest) ∧ item :: others = items)) := by
  rw [readItems]
  simp only [Option.bind_eq_bind, Option.bind_eq_some_iff, Prod.exists]
  constructor
  · rintro ⟨item, behind, read, found⟩
    refine ⟨item, behind, read, ?_⟩
    split at found
    · rename_i after closed
      obtain ⟨rfl, rfl⟩ := Prod.mk.inj (Option.some.inj found)
      exact .inl ⟨closed, rfl⟩
    · rename_i opened
      obtain ⟨after, comma, others, last, later, same⟩ := by
        simpa only [Option.bind_eq_some_iff, Prod.exists] using found
      obtain ⟨rfl, rfl⟩ := Prod.mk.inj (Option.some.inj same)
      exact .inr ⟨opened, after, others, comma, later, rfl⟩
  · rintro ⟨item, behind, read, found⟩
    refine ⟨item, behind, read, ?_⟩
    rcases found with ⟨closed, rfl⟩ | ⟨opened, after, others, comma, later, rfl⟩
    · rw [closed]
    · rw [opened, comma, Option.bind_some, later]
      rfl

/-- What the first reader finds is also found by the second one in a longer text. Only the end of the
text may end a number, so that a value at the end counts when it is an object. -/
structure Extends (value wider : List Char → Option (Document × List Char)) : Prop where
  nil : value [] = none
  append : ∀ {text rest document} (tail : List Char), value text = some (document, rest) →
    (rest = [] → ∃ members, document = .object members) →
      wider (text ++ tail) = some (document, rest ++ tail)

theorem Extends.skip {start rest : List Char} {document : Document} (longer : Extends value wider)
    (tail : List Char) (read : value (skip start) = some (document, rest)) (more : rest ≠ []) :
    wider (Json.skip (start ++ tail)) = some (document, rest ++ tail) := by
  have appended := longer.append tail read fun none => absurd none more
  cases found : Json.skip start with
  | nil =>
      rw [found, longer.nil] at read
      cases read
  | cons first others =>
      rw [found] at appended
      rw [skip_append found]
      exact appended

theorem ne_nil_of_expect {mark : Char} {text rest : List Char} (found : expect mark text = some rest) :
    text ≠ [] := by
  rintro rfl
  cases found

theorem readMembers_append (longer : Extends value wider) {text rest : List Char}
    {members : List (List Char × Document)} (enough : fuel ≤ more) (tail : List Char)
    (read : readMembers value fuel text = some (members, rest)) :
    readMembers wider more (text ++ tail) = some (members, rest ++ tail) := by
  induction fuel generalizing more text members with
  | zero => cases read
  | succ fuel ih =>
      obtain ⟨more, rfl⟩ := Nat.exists_eq_succ_of_ne_zero (show more ≠ 0 by omega)
      obtain ⟨body, key, behindKey, start, item, behind, quoted, named, colon, found, ends⟩ :=
        readMembers_eq_some.mp read
      have filled : behind ≠ [] := by
        rcases ends with ⟨closed, -⟩ | ⟨-, after, others, comma, -⟩
        · exact ne_nil_of_expect closed
        · exact ne_nil_of_expect comma
      refine readMembers_eq_some.mpr ⟨body ++ tail, key, behindKey ++ tail, start ++ tail, item,
        behind ++ tail, expect_append quoted, readText_append tail named, expect_append colon,
        longer.skip tail found filled, ?_⟩
      rcases ends with ⟨closed, same⟩ | ⟨opened, after, others, comma, later, same⟩
      · exact .inl ⟨expect_append closed, same⟩
      · exact .inr ⟨expect_none (skip_ne_nil comma) opened, after ++ tail, others, expect_append comma,
          ih (by omega) later, same⟩

theorem readItems_append (longer : Extends value wider) {text rest : List Char}
    {items : List Document} (enough : fuel ≤ more) (tail : List Char)
    (read : readItems value fuel text = some (items, rest)) :
    readItems wider more (text ++ tail) = some (items, rest ++ tail) := by
  induction fuel generalizing more text items with
  | zero => cases read
  | succ fuel ih =>
      obtain ⟨more, rfl⟩ := Nat.exists_eq_succ_of_ne_zero (show more ≠ 0 by omega)
      obtain ⟨item, behind, found, ends⟩ := readItems_eq_some.mp read
      have filled : behind ≠ [] := by
        rcases ends with ⟨closed, -⟩ | ⟨-, after, others, comma, -⟩
        · exact ne_nil_of_expect closed
        · exact ne_nil_of_expect comma
      refine readItems_eq_some.mpr ⟨item, behind ++ tail, longer.skip tail found filled, ?_⟩
      rcases ends with ⟨closed, same⟩ | ⟨opened, after, others, comma, later, same⟩
      · exact .inl ⟨expect_append closed, same⟩
      · exact .inr ⟨expect_none (skip_ne_nil comma) opened, after ++ tail, others, expect_append comma,
          ih (by omega) later, same⟩

theorem takeWhile_append {text : List Char} (tail : List Char) (more : text.dropWhile tokenCharacter ≠ []) :
    (text ++ tail).takeWhile tokenCharacter = text.takeWhile tokenCharacter ∧
      (text ++ tail).dropWhile tokenCharacter = text.dropWhile tokenCharacter ++ tail := by
  constructor
  · rw [List.takeWhile_append, if_neg]
    intro whole
    exact more (List.dropWhile_eq_nil_iff.mpr (List.takeWhile_eq_self_iff.mp
      (List.IsPrefix.eq_of_length (List.takeWhile_prefix _) whole)))
  · rw [List.dropWhile_append, if_neg]
    simpa using more

theorem readValue_extends (enough : fuel ≤ more) : Extends (readValue fuel) (readValue more) := by
  induction fuel generalizing more with
  | zero => exact ⟨rfl, fun _ read => by cases read⟩
  | succ fuel ih =>
      obtain ⟨more, rfl⟩ := Nat.exists_eq_succ_of_ne_zero (show more ≠ 0 by omega)
      have longer := ih (show fuel ≤ more by omega)
      refine ⟨rfl, ?_⟩
      intro text rest document tail read ends
      cases text with
      | nil => cases read
      | cons first others =>
          rw [readValue] at read
          rw [List.cons_append, readValue]
          split_ifs at read ⊢ with quote brace bracket
          · obtain ⟨found, named, same⟩ := Option.map_eq_some_iff.mp read
            obtain ⟨rfl, rfl⟩ := Prod.mk.inj same
            rw [readText_append tail named]
            rfl
          · split at read
            · rename_i after closed
              obtain ⟨rfl, rfl⟩ := Prod.mk.inj (Option.some.inj read)
              rw [expect_append closed]
            · rename_i opened
              obtain ⟨found, members, same⟩ := Option.map_eq_some_iff.mp read
              obtain ⟨rfl, rfl⟩ := Prod.mk.inj same
              have filled : skip others ≠ [] := by
                cases fuel with
                | zero => cases members
                | succ fuel =>
                    obtain ⟨body, -, -, -, -, -, quoted, -⟩ := readMembers_eq_some.mp members
                    exact skip_ne_nil quoted
              rw [expect_none filled opened, readMembers_append longer (by omega) tail members]
              rfl
          · split at read
            · rename_i after closed
              obtain ⟨rfl, rfl⟩ := Prod.mk.inj (Option.some.inj read)
              rw [expect_append closed]
            · rename_i opened
              obtain ⟨found, items, same⟩ := Option.map_eq_some_iff.mp read
              obtain ⟨rfl, rfl⟩ := Prod.mk.inj same
              have filled : skip others ≠ [] := by
                intro none
                cases fuel with
                | zero => cases items
                | succ fuel =>
                    obtain ⟨item, behind, begun, -⟩ := readItems_eq_some.mp items
                    rw [none, longer.nil] at begun
                    cases begun
              rw [expect_none filled opened, readItems_append longer (by omega) tail items]
              rfl
          · obtain ⟨found, token, same⟩ := Option.map_eq_some_iff.mp read
            obtain ⟨rfl, rfl⟩ := Prod.mk.inj same
            have open_ : (first :: others).dropWhile tokenCharacter ≠ [] := by
              intro none
              obtain ⟨members, object⟩ := ends none
              cases object
            obtain ⟨taken, dropped⟩ := takeWhile_append tail open_
            rw [← List.cons_append, taken, dropped, token]
            rfl

end Extension

section RoundTrip

variable {layout : Layout}

theorem exponent_tokens {text : List Char} (found : exponent text = true) :
    ∀ character ∈ text, tokenCharacter character = true := by
  have digits {rest : List Char} (all : rest.all Char.isDigit = true) :
      ∀ character ∈ rest, tokenCharacter character = true := by
    intro character member
    simp [tokenCharacter, Char.isAlphanum, List.all_eq_true.mp all character member]
  cases text with
  | nil => simp
  | cons mark rest =>
      simp only [exponent, Bool.and_eq_true] at found
      have marked : tokenCharacter mark = true := by
        rcases Bool.or_eq_true_iff.mp found.1.1 with lower | upper
        · rw [of_decide_eq_true lower]
          rfl
        · rw [of_decide_eq_true upper]
          rfl
      refine List.forall_mem_cons.mpr ⟨marked, ?_⟩
      split at found
      · exact List.forall_mem_cons.mpr ⟨rfl, digits found.2⟩
      · exact List.forall_mem_cons.mpr ⟨rfl, digits found.2⟩
      · exact digits found.2

theorem takeWhile_tokens {text : List Char}
    (behind : ∀ character ∈ text.dropWhile Char.isDigit, tokenCharacter character = true) :
    ∀ character ∈ text, tokenCharacter character = true := by
  intro character member
  rw [← List.takeWhile_append_dropWhile (p := Char.isDigit) (l := text), List.mem_append] at member
  rcases member with digit | later
  · simp [tokenCharacter, Char.isAlphanum, List.mem_takeWhile_imp digit]
  · exact behind character later

theorem fraction_tokens {text : List Char} (found : fraction text = true) :
    ∀ character ∈ text, tokenCharacter character = true := by
  unfold fraction at found
  split at found
  · rw [Bool.and_eq_true] at found
    exact List.forall_mem_cons.mpr ⟨rfl, takeWhile_tokens (exponent_tokens found.2)⟩
  · exact exponent_tokens found

theorem isNumeral_tokens {token : List Char} (found : isNumeral token = true) :
    ∀ character ∈ token, tokenCharacter character = true := by
  simp only [isNumeral, Bool.or_eq_true, decide_eq_true_eq] at found
  rcases found with ((rfl | rfl) | rfl) | number
  · exact List.all_eq_true.mp (by decide)
  · exact List.all_eq_true.mp (by decide)
  · exact List.all_eq_true.mp (by decide)
  · simp only [isNumber, Bool.and_eq_true] at number
    have body := takeWhile_tokens (fraction_tokens number.1.2)
    unfold unsigned at body
    split at body
    · exact List.forall_mem_cons.mpr ⟨rfl, body⟩
    · exact body

/-- The numbers among the scalars have the text of a number. -/
def Scalar.Valid : Scalar → Prop
  | .number token => isNumeral token = true
  | _ => True

theorem ofToken_number {token : List Char} (valid : isNumeral token = true) :
    ofToken token = some (.number token) := by
  have others : isNumeral "null".toList = false ∧ isNumeral "true".toList = false ∧
      isNumeral "false".toList = false := by decide
  unfold ofToken
  split_ifs with null yes no
  · rw [null, others.1] at valid
    cases valid
  · rw [yes, others.2.1] at valid
    cases valid
  · rw [no, others.2.2] at valid
    cases valid
  · rfl

/-- No token goes on with the text. -/
def Apart (rest : List Char) : Prop := rest.head?.all (fun first => !tokenCharacter first) = true

theorem apart_cons {first : Char} {rest : List Char} (plain : tokenCharacter first = false) :
    Apart (first :: rest) := by
  simp [Apart, plain]

theorem takeWhile_token {token rest : List Char}
    (plain : ∀ character ∈ token, tokenCharacter character = true) (apart : Apart rest) :
    (token ++ rest).takeWhile tokenCharacter = token ∧
      (token ++ rest).dropWhile tokenCharacter = rest := by
  rw [List.takeWhile_append_of_pos plain, List.dropWhile_append_of_pos plain]
  cases rest with
  | nil => simp
  | cons first others =>
      have stops : tokenCharacter first = false := by simpa [Apart] using apart
      simp [stops]

theorem readValue_token {fuel : Nat} {first : Char} {token rest : List Char} {found : Scalar}
    (plain : ∀ character ∈ first :: token, tokenCharacter character = true)
    (known : ofToken (first :: token) = some found) (apart : Apart rest) :
    readValue (fuel + 1) (first :: token ++ rest) = some (.scalar found, rest) := by
  have head := plain first List.mem_cons_self
  have differs {mark : Char} (other : tokenCharacter mark = false) : first ≠ mark := by
    rintro rfl
    rw [head] at other
    cases other
  obtain ⟨taken, dropped⟩ := takeWhile_token plain apart
  rw [List.cons_append] at taken dropped ⊢
  rw [readValue, if_neg (differs rfl), if_neg (differs rfl), if_neg (differs rfl), taken, dropped, known]
  rfl

/-- A written scalar is read as it was, when no token goes on with the text behind it. -/
theorem readValue_dump {fuel : Nat} {value : Scalar} {rest : List Char} (valid : value.Valid)
    (apart : Apart rest) : readValue (fuel + 1) (value.dump ++ rest) = some (.scalar value, rest) := by
  cases value with
  | null => exact readValue_token (List.all_eq_true.mp (by decide)) rfl apart
  | bool value =>
      cases value with
      | false => exact readValue_token (List.all_eq_true.mp (by decide)) rfl apart
      | true => exact readValue_token (List.all_eq_true.mp (by decide)) rfl apart
  | number token =>
      have known := ofToken_number valid
      cases token with
      | nil => cases known
      | cons first others => exact readValue_token (isNumeral_tokens valid) known apart
  | text value =>
      have shape : Scalar.dump (.text value) ++ rest = '"' :: (value.flatMap escape ++ '"' :: rest) := by
        simp [Scalar.dump, dumpText]
      rw [shape, readValue, if_pos rfl, readText_dump]
      rfl

theorem dump_head {value : Scalar} (valid : value.Valid) :
    ∃ first rest, value.dump = first :: rest ∧ blank first = false := by
  cases value with
  | null => exact ⟨_, _, rfl, rfl⟩
  | bool value =>
      cases value with
      | false => exact ⟨_, _, rfl, rfl⟩
      | true => exact ⟨_, _, rfl, rfl⟩
  | number token =>
      cases token with
      | nil => cases valid
      | cons first others =>
          refine ⟨first, others, rfl, ?_⟩
          have plain := isNumeral_tokens valid first List.mem_cons_self
          by_contra blanks
          rw [Bool.not_eq_false] at blanks
          simp only [blank, Bool.or_eq_true, decide_eq_true_eq] at blanks
          rcases blanks with ((rfl | rfl) | rfl) | rfl <;> cases plain
  | text value => exact ⟨_, _, rfl, rfl⟩

theorem apart_dumpMembers (layout : Layout) (members : List (List Char × Scalar)) (rest : List Char) :
    Apart (dumpMembers layout members ++ rest) := by
  unfold dumpMembers
  cases members with
  | cons member members => exact apart_cons rfl
  | nil =>
      cases found : layout.last with
      | nil => exact apart_cons rfl
      | cons first others =>
          have blanks := List.all_eq_true.mp layout.last_blank first (by rw [found]; exact List.mem_cons_self)
          simp only [blank, Bool.or_eq_true, decide_eq_true_eq] at blanks
          rcases blanks with ((rfl | rfl) | rfl) | rfl <;> exact apart_cons rfl

/-- The members as they are read. -/
def documents (members : List (List Char × Scalar)) : List (List Char × Document) :=
  members.map fun member => (member.1, .scalar member.2)

theorem readMembers_member {inner fuel : Nat} {member : List Char × Scalar}
    {tail rest : List Char} {members : List (List Char × Document)} (valid : member.2.Valid)
    (apart : Apart tail)
    (ends : (expect '\x7d' tail = some rest ∧ [(member.1, .scalar member.2)] = members) ∨
      (expect '\x7d' tail = none ∧ ∃ after others, expect ',' tail = some after ∧
        readMembers (readValue (inner + 1)) fuel after = some (others, rest) ∧
          (member.1, .scalar member.2) :: others = members)) :
    readMembers (readValue (inner + 1)) (fuel + 1) (dumpMember layout member ++ tail) =
      some (members, rest) := by
  obtain ⟨first, others, begun, plain⟩ := dump_head valid
  have shape : dumpMember layout member ++ tail = layout.front ++ '"' :: (member.1.flatMap escape ++
      '"' :: (':' :: (layout.colon ++ (member.2.dump ++ tail)))) := by
    simp [dumpMember, dumpText]
  have start : skip (layout.colon ++ (member.2.dump ++ tail)) = member.2.dump ++ tail := by
    rw [skip_blank layout.colon_blank, begun, List.cons_append]
    exact skip_cons plain
  have value : readValue (inner + 1) (skip (layout.colon ++ (member.2.dump ++ tail))) =
      some (.scalar member.2, tail) := by
    rw [start]
    exact readValue_dump valid apart
  rw [shape]
  exact readMembers_eq_some.mpr ⟨_, member.1, _, _, .scalar member.2, tail,
    expect_blank layout.front_blank rfl, readText_dump _ _, expect_cons rfl, value, ends⟩

theorem readMembers_dump {inner fuel : Nat} {member : List Char × Scalar}
    {members : List (List Char × Scalar)} (valid : ∀ found ∈ member :: members, found.2.Valid)
    (enough : members.length < fuel) (rest : List Char) :
    readMembers (readValue (inner + 1)) fuel
        (dumpMember layout member ++ (dumpMembers layout members ++ rest)) =
      some (documents (member :: members), rest) := by
  have apart := apart_dumpMembers layout members rest
  have own := valid member List.mem_cons_self
  obtain ⟨fuel, rfl⟩ := Nat.exists_eq_succ_of_ne_zero (show fuel ≠ 0 by omega)
  induction members generalizing member fuel with
  | nil =>
      have closed : expect '\x7d' (dumpMembers layout [] ++ rest) = some rest := by
        have shape : dumpMembers layout [] ++ rest = layout.last ++ '\x7d' :: rest := by
          simp [dumpMembers]
        rw [shape]
        exact expect_blank layout.last_blank rfl
      exact readMembers_member own apart (.inl ⟨closed, rfl⟩)
  | cons next members ih =>
      have shape : dumpMembers layout (next :: members) ++ rest =
          ',' :: (dumpMember layout next ++ (dumpMembers layout members ++ rest)) := by
        simp [dumpMembers]
      have opened : expect '\x7d' (dumpMembers layout (next :: members) ++ rest) = none := by
        rw [shape]
        rfl
      have comma : expect ',' (dumpMembers layout (next :: members) ++ rest) =
          some (dumpMember layout next ++ (dumpMembers layout members ++ rest)) := by
        rw [shape]
        exact expect_cons rfl
      rw [List.length_cons] at enough
      obtain ⟨less, rfl⟩ := Nat.exists_eq_succ_of_ne_zero (show fuel ≠ 0 by omega)
      have later := ih (List.forall_mem_cons.mp valid).2 (apart_dumpMembers layout members rest)
        (valid next (by simp)) less (by omega)
      exact readMembers_member own apart (.inr ⟨opened, _, _, comma, later, rfl⟩)

theorem length_dumpMembers (layout : Layout) (members : List (List Char × Scalar)) :
    members.length < (dumpMembers layout members).length := by
  induction members with
  | nil => simp [dumpMembers]
  | cons member members ih =>
      have shape : dumpMembers layout (member :: members) =
          ',' :: dumpMember layout member ++ dumpMembers layout members := by simp [dumpMembers]
      rw [shape, List.length_append, List.length_cons, List.length_cons]
      omega

/-- A written object is read as it was, whatever stands behind it. -/
theorem readValue_dumps {fuel : Nat} {members : List (List Char × Scalar)}
    (valid : ∀ member ∈ members, member.2.Valid) {rest : List Char}
    (enough : (dumps layout members ++ rest).length < fuel) :
    readValue fuel (dumps layout members ++ rest) = some (.object (documents members), rest) := by
  obtain ⟨fuel, rfl⟩ := Nat.exists_eq_succ_of_ne_zero (show fuel ≠ 0 by omega)
  cases members with
  | nil => rfl
  | cons member members =>
      have size := length_dumpMembers layout members
      have shape : dumps layout (member :: members) ++ rest =
          '\x7b' :: (dumpMember layout member ++ (dumpMembers layout members ++ rest)) := by
        simp [dumps]
      rw [shape, List.length_cons, List.length_append, List.length_append] at enough
      obtain ⟨inner, rfl⟩ := Nat.exists_eq_succ_of_ne_zero (show fuel ≠ 0 by omega)
      have opened : expect '\x7d' (dumpMember layout member ++ (dumpMembers layout members ++ rest)) =
          none := by
        have start : skip (dumpMember layout member ++ (dumpMembers layout members ++ rest)) =
            '"' :: (member.1.flatMap escape ++ '"' :: (':' :: (layout.colon ++ (member.2.dump ++
              (dumpMembers layout members ++ rest))))) := by
          simp only [dumpMember, dumpText, List.append_assoc, List.cons_append, List.nil_append]
          rw [skip_blank layout.front_blank]
          exact skip_cons rfl
        unfold expect
        rw [start]
        rfl
      rw [shape, readValue, if_neg (by decide), if_pos rfl, opened,
        readMembers_dump valid (by omega) rest]
      rfl

theorem loads_dumps {members : List (List Char × Scalar)}
    (valid : ∀ member ∈ members, member.2.Valid) {rest : List Char} (blanks : rest.all blank = true) :
    loads (dumps layout members ++ rest) = some (.object (documents members)) := by
  have start : skip (dumps layout members ++ rest) = dumps layout members ++ rest := by
    cases members with
    | nil => exact skip_cons rfl
    | cons member members => exact skip_cons rfl
  have ends : skip rest = [] := by
    have only : skip (rest ++ []) = skip [] := skip_blank blanks
    rwa [List.append_nil] at only
  unfold loads
  rw [start, readValue_dumps valid (by omega)]
  exact if_pos ends

/-- A text that was cut off anywhere is refused, unless only blanks behind the object are missing. -/
theorem loads_front {members : List (List Char × Scalar)} {front missing rest : List Char}
    {document : Document} (valid : ∀ member ∈ members, member.2.Valid)
    (cut : front ++ missing = dumps layout members ++ rest) (read : loads front = some document) :
    document = .object (documents members) := by
  cases front with
  | nil => cases read
  | cons first others =>
      have brace : first = '\x7b' := by
        cases members with
        | nil => exact (List.cons.inj cut).1
        | cons member members => exact (List.cons.inj cut).1
      subst brace
      simp only [loads, Option.bind_eq_bind, Option.bind_eq_some_iff, Prod.exists] at read
      obtain ⟨value, behind, found, ends⟩ := read
      split_ifs at ends with done
      obtain rfl := Option.some.inj ends
      rw [skip_cons rfl] at found
      have object : ∃ members, value = .object members := by
        rw [readValue, if_neg (by decide), if_pos rfl] at found
        split at found
        · exact ⟨_, (Prod.mk.inj (Option.some.inj found)).1.symm⟩
        · obtain ⟨inside, -, same⟩ := Option.map_eq_some_iff.mp found
          exact ⟨_, (Prod.mk.inj same).1.symm⟩
      have enough : ('\x7b' :: others).length + 1 ≤ ('\x7b' :: others ++ missing).length + 1 := by
        rw [List.length_append]
        omega
      have whole := (readValue_extends enough).append missing found fun _ => object
      rw [cut, readValue_dumps valid (by omega)] at whole
      exact (Prod.mk.inj (Option.some.inj whole)).1.symm

end RoundTrip

end Foundation.Json
