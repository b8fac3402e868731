import Downhill.Json.Reader
import Downhill.Json.Writer

namespace Downhill.Json

section Strings

variable {rest chars tail : List Char}

/-- A character behind a backslash, other than the letter of a unit. -/
theorem quoted_letter {letter c : Char} (other : letter ≠ 'u') (named : unescape letter = some c)
    (read : quoted rest = some (chars, tail)) : quoted ('\\' :: letter :: rest) = some (c :: chars, tail) := by
  rw [quoted.eq_4 letter rest fun _ _ _ _ _ unit _ => other unit, named, read]
  rfl

theorem quoted_plain {c : Char} (quote : c ≠ '"') (backslash : c ≠ '\\') (visible : ¬c.toNat < 32)
    (read : quoted rest = some (chars, tail)) : quoted (c :: rest) = some (c :: chars, tail) := by
  rw [quoted.eq_5 c rest quote (fun _ _ _ _ _ escaped _ => backslash escaped) fun _ _ escaped _ =>
    backslash escaped, if_neg visible, read]
  rfl

/-- The digits of a control character name it. -/
theorem unit_control : ∀ n : Fin 32, unit '0' '0' (hexDigit (n.val / 16)) (hexDigit (n.val % 16)) = some n.val := by
  decide

theorem quoted_control {c : Char} (control : c.toNat < 32) (read : quoted rest = some (chars, tail)) :
    quoted ('\\' :: 'u' :: '0' :: '0' :: hexDigit (c.toNat / 16) :: hexDigit (c.toNat % 16) :: rest) =
      some (c :: chars, tail) := by
  have low : ¬(0xD800 ≤ c.toNat ∧ c.toNat < 0xDC00) := by omega
  have high : ¬(0xDC00 ≤ c.toNat ∧ c.toNat < 0xE000) := by omega
  rw [quoted.eq_3, unit_control ⟨c.toNat, control⟩]
  simp only [Option.bind_eq_bind, Option.bind_some, if_neg low, if_neg high, read, Char.ofNat_toNat]
  rfl

/-- An escaped character is read as the character. -/
theorem quoted_escape (c : Char) (read : quoted rest = some (chars, tail)) :
    quoted (escape c ++ rest) = some (c :: chars, tail) := by
  unfold escape
  -- Seven characters have a letter of their own.
  iterate 7
    split
    · next same =>
      subst same
      exact quoted_letter (by decide) rfl read
  split
  · next control => exact quoted_control control read
  · next quote backslash _ _ _ _ _ visible => exact quoted_plain quote backslash visible read

theorem quoted_flatMap_escape (s : List Char) (rest : List Char) :
    quoted (s.flatMap escape ++ '"' :: rest) = some (s, rest) := by
  induction s with
  | nil => exact quoted.eq_2 rest
  | cons c s ih =>
    rw [List.flatMap_cons, List.append_assoc]
    exact quoted_escape c ih

end Strings

/-- At least one digit, and nothing else. -/
def AreDigits (ds : List Char) : Prop :=
  ds ≠ [] ∧ ∀ c ∈ ds, c.isDigit = true

theorem areDigits_of_all {ds : List Char} (nonempty : ds ≠ []) (all : ds.all Char.isDigit = true) : AreDigits ds :=
  ⟨nonempty, List.all_eq_true.mp all⟩

/-- The values of digits. -/
def digitValues (ds : List Char) : List Nat :=
  ds.map fun d => d.toNat - '0'.toNat

/-- Digits in front of a point: a zero stands alone. -/
def AreWhole (ds : List Char) : Prop :=
  AreDigits ds ∧ (ds = ['0'] ∨ ds.head? ≠ some '0')

/-- What is written behind a point, with the point, if anything is. -/
inductive Fraction : List Char → List Nat → Prop
  | none : Fraction [] []
  | point {ds : List Char} (digits : AreDigits ds) : Fraction ('.' :: ds) (digitValues ds)

/-- An exponent with its sign, if there is one. -/
inductive Exponent : List Char → Option Int → Prop
  | none : Exponent [] none
  | plus {ds : List Char} (digits : AreDigits ds) :
    Exponent ('e' :: '+' :: ds) (some (digitsValue (digitValues ds)))
  | minus {ds : List Char} (digits : AreDigits ds) :
    Exponent ('e' :: '-' :: ds) (some (-digitsValue (digitValues ds)))

/-- The minus of a negative number. -/
def minus (negative : Bool) : List Char :=
  if negative then ['-'] else []

/-- A number behind its sign: the digits in front of its point and behind it, and its exponent. -/
inductive Unsigned : List Char → List Nat → List Nat → Option Int → Prop
  | mk {ds fs es : List Char} {back : List Nat} {power : Option Int} (whole : AreWhole ds)
      (fraction : Fraction fs back) (exponent : Exponent es power) :
      Unsigned (ds ++ (fs ++ es)) (digitValues ds) back power

/-- A written number. -/
inductive Literal : List Char → Numeral → Prop
  | mk (negative : Bool) {cs : List Char} {front back : List Nat} {power : Option Int}
      (unsigned : Unsigned cs front back power) : Literal (minus negative ++ cs) ⟨negative, front, back, power⟩

/-- Nothing here goes on with a number in front of it. -/
def Closed (rest : List Char) : Prop :=
  ∀ c ∈ rest.head?, c.isDigit = false ∧ c ≠ '.' ∧ c ≠ 'e' ∧ c ≠ 'E'

section Numbers

variable {ds fs es rest : List Char} {back : List Nat} {power : Option Int}

theorem digitRun_append (digits : AreDigits ds) (stops : ∀ c ∈ rest.head?, c.isDigit = false) :
    digitRun (ds ++ rest) = some (digitValues ds, rest) := by
  have taken : (ds ++ rest).takeWhile Char.isDigit = ds := by
    rw [List.takeWhile_append_of_pos digits.2]
    cases rest with
    | nil => exact List.append_nil ds
    | cons c rest => rw [List.takeWhile_cons_of_neg (by simpa using stops c rfl), List.append_nil]
  have left : (ds ++ rest).dropWhile Char.isDigit = rest := by
    rw [List.dropWhile_append_of_pos digits.2]
    cases rest with
    | nil => rfl
    | cons c rest => exact List.dropWhile_cons_of_neg (by simpa using stops c rfl)
  obtain ⟨d, ds, rfl⟩ := List.exists_cons_of_ne_nil digits.1
  simp only [digitRun, taken, left, digitValues]

theorem digit_eq_zero {c : Char} (digit : c.isDigit = true) (zero : c.toNat - '0'.toNat = 0) : c = '0' := by
  have least : '0'.toNat ≤ c.toNat := by
    simp only [Char.isDigit, Bool.and_eq_true, decide_eq_true_eq] at digit
    exact digit.1
  exact Char.toNat_inj.mp (Nat.le_antisymm (Nat.sub_eq_zero_iff_le.mp zero) least)

theorem wholeDigits_append (whole : AreWhole ds) (stops : ∀ c ∈ rest.head?, c.isDigit = false) :
    wholeDigits (ds ++ rest) = some (digitValues ds, rest) := by
  obtain ⟨digits, alone⟩ := whole
  unfold wholeDigits
  rw [digitRun_append digits stops]
  split
  · next more _ shape =>
    -- A zero in front of other digits.
    exfalso
    obtain ⟨values, -⟩ := Prod.ext_iff.mp (Option.some.inj shape)
    obtain ⟨c, ds, rfl⟩ := List.exists_cons_of_ne_nil digits.1
    have zero : c = '0' := digit_eq_zero (digits.2 c List.mem_cons_self) (List.cons.inj values).1
    rcases alone with single | other
    · obtain ⟨_, rfl⟩ := List.cons.inj single
      cases (List.cons.inj values).2
    · exact other (congrArg some zero)
  · rfl

theorem fractionDigits_append (fraction : Fraction fs back)
    (stops : ∀ c ∈ rest.head?, c.isDigit = false ∧ c ≠ '.') : fractionDigits (fs ++ rest) = some (back, rest) := by
  cases fraction with
  | none =>
    refine fractionDigits.eq_2 rest fun cs point => ?_
    exact (stops '.' (by rw [point]; rfl)).2 rfl
  | point digits => exact digitRun_append digits fun c first => (stops c first).1

theorem exponentPart_append (exponent : Exponent es power) (closed : Closed rest) :
    exponentPart (es ++ rest) = some (power, rest) := by
  have stops : ∀ c ∈ rest.head?, c.isDigit = false := fun c first => (closed c first).1
  cases exponent with
  | none =>
    refine exponentPart.eq_3 rest (fun cs lower => ?_) fun cs upper => ?_
    · exact (closed 'e' (by rw [lower]; rfl)).2.2.1 rfl
    · exact (closed 'E' (by rw [upper]; rfl)).2.2.2 rfl
  | plus digits =>
    change (signedDigits ('+' :: (_ ++ rest))).map _ = _
    simp only [signedDigits, digitRun_append digits stops, Option.map_some]
  | minus digits =>
    change (signedDigits ('-' :: (_ ++ rest))).map _ = _
    simp only [signedDigits, digitRun_append digits stops, Option.map_some]

theorem Exponent.stops (exponent : Exponent es power) (closed : Closed rest) :
    ∀ c ∈ (es ++ rest).head?, c.isDigit = false ∧ c ≠ '.' := by
  cases exponent with
  | none => exact fun c first => ⟨(closed c first).1, (closed c first).2.1⟩
  | plus => rintro c ⟨⟩; decide
  | minus => rintro c ⟨⟩; decide

theorem Fraction.stops (fraction : Fraction fs back) (stops : ∀ c ∈ rest.head?, c.isDigit = false ∧ c ≠ '.') :
    ∀ c ∈ (fs ++ rest).head?, c.isDigit = false := by
  cases fraction with
  | none => exact fun c first => (stops c first).1
  | point => rintro c ⟨⟩; decide

theorem Unsigned.starts {cs : List Char} {front : List Nat} (unsigned : Unsigned cs front back power) :
    ∃ d tail, cs = d :: tail ∧ d.isDigit = true := by
  obtain ⟨whole, _, _⟩ := unsigned
  obtain ⟨d, ds, rfl⟩ := List.exists_cons_of_ne_nil whole.1.1
  exact ⟨d, _, rfl, whole.1.2 d List.mem_cons_self⟩

theorem Unsigned.unsignedNumeral_append {cs : List Char} {front : List Nat}
    (unsigned : Unsigned cs front back power) (negative : Bool) (closed : Closed rest) :
    unsignedNumeral negative (cs ++ rest) = some (⟨negative, front, back, power⟩, rest) := by
  obtain ⟨whole, fraction, exponent⟩ := unsigned
  have behind := exponent.stops closed
  simp only [List.append_assoc, unsignedNumeral, wholeDigits_append whole (fraction.stops behind),
    fractionDigits_append fraction behind, exponentPart_append exponent closed, Option.bind_eq_bind,
    Option.bind_some]
  rfl

/-- A number is read as it is written, whatever does not go on with it. -/
theorem Literal.numeral_append {cs : List Char} {n : Numeral} (literal : Literal cs n) (closed : Closed rest) :
    numeral (cs ++ rest) = some (n, rest) := by
  obtain ⟨negative, unsigned⟩ := literal
  have read := unsigned.unsignedNumeral_append negative closed
  cases negative with
  | true => exact read
  | false =>
    obtain ⟨d, tail, rfl, digit⟩ := unsigned.starts
    refine (numeral.eq_2 _ fun cs same => ?_).trans read
    obtain rfl : d = '-' := (List.cons.inj same).1
    cases digit

end Numbers

section Documents

variable {cs rest : List Char}

theorem skipBlanks_of_visible {c : Char} (visible : isBlank c = false) : skipBlanks (c :: cs) = c :: cs :=
  List.dropWhile_cons_of_neg (Bool.eq_false_iff.mp visible)

theorem skipBlanks_of_blank {c : Char} (blank : isBlank c = true) : skipBlanks (c :: cs) = skipBlanks cs :=
  List.dropWhile_cons_of_pos blank

theorem value_of_blank {c : Char} (blank : isBlank c = true) (fuel : Nat) :
    value (fuel + 1) (c :: cs) = value (fuel + 1) cs := by
  rw [value.eq_2, value.eq_2, skipBlanks_of_blank blank]

/-- The text is read as the document, whatever does not go on with it. -/
def Item (cs : List Char) (document : Json) : Prop :=
  ∀ fuel rest, Closed rest → value (fuel + 1) (cs ++ rest) = some (document, rest)

theorem item_null : Item ['n', 'u', 'l', 'l'] .null := by
  intro fuel rest _
  rw [value.eq_2]
  rfl

theorem item_bool (on : Bool) : Item (if on then "true" else "false").toList (.bool on) := by
  intro fuel rest _
  rw [value.eq_2]
  cases on <;> rfl

theorem toList_quote (s : String) : (quote s).toList = '"' :: (s.toList.flatMap escape ++ ['"']) := by
  simp only [quote, String.toList_ofList, List.cons_append]

theorem item_quote (s : String) : Item (quote s).toList (.text s) := by
  intro fuel rest _
  have inside : quoted (s.toList.flatMap escape ++ ['"'] ++ rest) = some (s.toList, rest) := by
    rw [List.append_assoc]
    exact quoted_flatMap_escape s.toList rest
  rw [value.eq_2, toList_quote, List.cons_append, skipBlanks_of_visible (by decide)]
  simp only [inside, Option.map_some, String.ofList_toList]

/-- Where a sign or a digit stands, a number is read. -/
theorem value_of_numeral {c : Char} (starts : c = '-' ∨ c.isDigit = true) (fuel : Nat) :
    value (fuel + 1) (c :: cs) = (numeral (c :: cs)).map fun found => (.number found.1, found.2) := by
  have other (d : Char) (sign : d ≠ '-') (digit : d.isDigit = false) : c ≠ d := by
    rintro rfl
    rcases starts with same | same
    · exact sign same
    · exact Bool.false_ne_true (digit.symm.trans same)
  have visible : isBlank c = false := by
    simp only [isBlank, Bool.or_eq_false_iff, decide_eq_false_iff_not]
    exact ⟨⟨⟨other _ (by decide) (by decide), other _ (by decide) (by decide)⟩, other _ (by decide) (by decide)⟩,
      other _ (by decide) (by decide)⟩
  rw [value.eq_2, skipBlanks_of_visible visible]
  split
  all_goals first
    | next same => exact absurd (List.cons.inj same).1 (other _ (by decide) (by decide))
    | rfl

theorem Literal.starts {n : Numeral} (literal : Literal cs n) :
    ∃ c tail, cs = c :: tail ∧ (c = '-' ∨ c.isDigit = true) := by
  obtain ⟨negative, unsigned⟩ := literal
  cases negative with
  | true => exact ⟨'-', _, rfl, Or.inl rfl⟩
  | false =>
    obtain ⟨d, tail, rfl, digit⟩ := unsigned.starts
    exact ⟨d, tail, rfl, Or.inr digit⟩

theorem Literal.item {n : Numeral} (literal : Literal cs n) : Item cs (.number n) := by
  intro fuel rest closed
  obtain ⟨c, tail, rfl, starts⟩ := literal.starts
  rw [List.cons_append, value_of_numeral starts, ← List.cons_append, literal.numeral_append closed]
  rfl

/-- A text that is an item is read as the document that it is. -/
theorem Item.read {text : String} {document : Json} (item : Item text.toList document) :
    read text = some document := by
  have found := item (2 * text.toList.length + 1) [] nofun
  rw [List.append_nil] at found
  simp only [Json.read, found, Option.bind_eq_bind, Option.bind_some]
  rfl

/-- A written member of an object, with its blanks. -/
def member (name : String) (item : List Char) : List Char :=
  ' ' :: ' ' :: '"' :: (name.toList.flatMap escape ++ '"' :: ':' :: ' ' :: item)

theorem member_append (name : String) (item rest : List Char) :
    member name item ++ rest =
      ' ' :: ' ' :: '"' :: (name.toList.flatMap escape ++ '"' :: ':' :: ' ' :: (item ++ rest)) := by
  simp only [member, List.cons_append, List.append_assoc]

theorem members_of_blank {c : Char} (blank : isBlank c = true) (fuel : Nat) :
    members (fuel + 1) (c :: cs) = members (fuel + 1) cs := by
  rw [members.eq_2, members.eq_2, skipBlanks_of_blank blank]

theorem value_of_brace (fuel : Nat) (behind : List Char) :
    value (fuel + 1) ('\x7b' :: '\n' :: ' ' :: ' ' :: '"' :: behind) =
      (members fuel ('"' :: behind)).map fun found => (.object found.1, found.2) := by
  rw [value.eq_2]
  rfl

section Members

variable {item : List Char} {document : Json} (reads : Item item document) (name : String) (fuel : Nat)
include reads

/-- A member in front of others. -/
theorem members_cons {others : List (String × Json)} {tail : List Char}
    (followed : members (fuel + 1) rest = some (others, tail)) :
    members (fuel + 2) (member name item ++ ',' :: rest) = some ((name, document) :: others, tail) := by
  have closed : Closed (',' :: rest) := by
    rintro c ⟨⟩
    decide
  have opening (cs : List Char) : skipBlanks (' ' :: ' ' :: '"' :: cs) = '"' :: cs := rfl
  have colon (cs : List Char) : skipBlanks (':' :: cs) = ':' :: cs := rfl
  have comma : skipBlanks (',' :: rest) = ',' :: rest := rfl
  rw [members.eq_2, member_append, opening]
  simp only [quoted_flatMap_escape, colon, value_of_blank (c := ' ') rfl, reads fuel _ closed, comma, followed,
    Option.bind_eq_bind, Option.bind_some, String.ofList_toList]
  rfl

/-- The last member. -/
theorem members_singleton :
    members (fuel + 2) (member name item ++ '\n' :: '\x7d' :: rest) = some ([(name, document)], rest) := by
  have closed : Closed ('\n' :: '\x7d' :: rest) := by
    rintro c ⟨⟩
    decide
  have opening (cs : List Char) : skipBlanks (' ' :: ' ' :: '"' :: cs) = '"' :: cs := rfl
  have colon (cs : List Char) : skipBlanks (':' :: cs) = ':' :: cs := rfl
  have brace : skipBlanks ('\n' :: '\x7d' :: rest) = '\x7d' :: rest := rfl
  rw [members.eq_2, member_append, opening]
  simp only [quoted_flatMap_escape, colon, value_of_blank (c := ' ') rfl, reads fuel _ closed, brace,
    Option.bind_eq_bind, Option.bind_some, String.ofList_toList]
  rfl

end Members

section Lines

variable {β : Type} {text : β → String} {document : β → Json}

/-- The written members of an object. -/
def lines (text : β → String) (es : List (String × β)) : List (List Char) :=
  es.map fun e => member e.1 (text e.2).toList

theorem members_lines {es : List (String × β)} (reads : ∀ e ∈ es, Item (text e.2).toList (document e.2))
    (filled : es ≠ []) {fuel : Nat} (enough : es.length < fuel) :
    members fuel ([',', '\n'].intercalate (lines text es) ++ '\n' :: '\x7d' :: rest) =
      some (es.map fun e => (e.1, document e.2), rest) := by
  induction es generalizing fuel with
  | nil => exact absurd rfl filled
  | cons first others ih =>
    obtain ⟨here, behind⟩ := List.forall_mem_cons.mp reads
    obtain ⟨fuel, rfl⟩ : ∃ left, fuel = left + 2 := ⟨fuel - 2, by simp only [List.length_cons] at enough; omega⟩
    cases others with
    | nil =>
      simp only [lines, List.map_cons, List.map_nil, List.intercalate_singleton]
      exact members_singleton here first.1 fuel
    | cons second more =>
      have followed := @ih behind (List.cons_ne_nil _ _) (fuel + 1) (by simp only [List.length_cons] at *; omega)
      have joined : [',', '\n'].intercalate (lines text (first :: second :: more)) ++ '\n' :: '\x7d' :: rest =
          member first.1 (text first.2).toList ++
            ',' :: '\n' :: ([',', '\n'].intercalate (lines text (second :: more)) ++ '\n' :: '\x7d' :: rest) := by
        simp only [lines, List.map_cons, List.intercalate_cons_cons, List.append_assoc, List.cons_append,
          List.nil_append]
      rw [joined]
      exact members_cons here first.1 fuel ((members_of_blank rfl fuel).trans followed)

theorem length_le_intercalate {sep : List Char} {ls : List (List Char)} (filled : ∀ l ∈ ls, l ≠ []) :
    ls.length ≤ (sep.intercalate ls).length := by
  induction ls with
  | nil => exact Nat.zero_le _
  | cons l rest ih =>
    obtain ⟨here, behind⟩ := List.forall_mem_cons.mp filled
    have positive : 1 ≤ l.length := List.length_pos_iff.mpr here
    cases rest with
    | nil => simpa only [List.intercalate_singleton, List.length_singleton] using positive
    | cons m rest =>
      have later := ih behind
      simp only [List.intercalate_cons_cons, List.length_append, List.length_cons] at *
      omega

theorem toList_prettyObject {es : List (String × β)} (filled : es ≠ []) :
    (prettyObject (es.map fun e => (e.1, text e.2))).toList =
      '\x7b' :: '\n' :: ([',', '\n'].intercalate (lines text es) ++ ['\n', '\x7d']) := by
  have several : ¬(es.map fun e => (e.1, text e.2)).isEmpty := by simpa using filled
  have written (e : String × β) :
      ("  " ++ quote e.1 ++ ": " ++ text e.2).toList = member e.1 (text e.2).toList := by
    simp only [String.toList_append, toList_quote, member, List.append_assoc]
    change ' ' :: ' ' :: '"' :: (e.1.toList.flatMap escape ++ ['"'] ++ (':' :: ' ' :: (text e.2).toList)) = _
    simp only [List.append_assoc, List.cons_append, List.nil_append]
  unfold prettyObject
  rw [if_neg several]
  have joined :
      (",\n".intercalate ((es.map fun e => (e.1, text e.2)).map fun m => "  " ++ quote m.1 ++ ": " ++ m.2)).toList =
        [',', '\n'].intercalate (lines text es) := by
    simp only [String.toList_intercalate, List.map_map, lines, Function.comp_def, written]
    rfl
  rw [String.toList_append, String.toList_append, joined]
  rfl

/-- The first line opens with the quote of a name. -/
theorem exists_opening (text : β → String) {es : List (String × β)} (filled : es ≠ []) :
    ∃ behind, [',', '\n'].intercalate (lines text es) ++ ['\n', '\x7d'] = ' ' :: ' ' :: '"' :: behind := by
  obtain ⟨first, others, rfl⟩ := List.exists_cons_of_ne_nil filled
  cases others with
  | nil => exact ⟨_, by simp only [lines, List.map_cons, List.map_nil, List.intercalate_singleton, member]; rfl⟩
  | cons second more => exact ⟨_, by simp only [lines, List.map_cons, List.intercalate_cons_cons, member]; rfl⟩

/-- An object with a member a line is read as the object of its members. -/
theorem read_prettyObject {es : List (String × β)} (reads : ∀ e ∈ es, Item (text e.2).toList (document e.2)) :
    read (prettyObject (es.map fun e => (e.1, text e.2))) =
    some (.object (es.map fun e => (e.1, document e.2))) := by
  by_cases filled : es = []
  · subst filled
    have braces : (prettyObject []).toList = ['\x7b', '\x7d'] := rfl
    simp only [List.map_nil, read, braces]
    rfl
  have long : es.length ≤ ([',', '\n'].intercalate (lines text es)).length := by
    have nonempty : ∀ l ∈ lines text es, l ≠ [] := by
      simp only [lines, List.mem_map]
      rintro _ ⟨e, _, rfl⟩
      exact List.cons_ne_nil _ _
    simpa only [lines, List.length_map] using @length_le_intercalate [',', '\n'] (lines text es) nonempty
  obtain ⟨behind, opened⟩ := exists_opening text filled
  have shape : (prettyObject (es.map fun e => (e.1, text e.2))).toList =
      '\x7b' :: '\n' :: ' ' :: ' ' :: '"' :: behind := (toList_prettyObject filled).trans (by rw [opened])
  have enough : es.length < 2 * ('\x7b' :: '\n' :: ' ' :: ' ' :: '"' :: behind).length + 1 := by
    rw [← opened]
    simp only [List.length_cons, List.length_append]
    omega
  have found (fuel : Nat) (enough : es.length < fuel + 1) :
      members (fuel + 1) ('"' :: behind) = some (es.map fun e => (e.1, document e.2), []) := by
    have space (cs : List Char) : members (fuel + 1) (' ' :: cs) = members (fuel + 1) cs :=
      members_of_blank (by decide) fuel
    rw [← space, ← space, ← opened]
    exact members_lines reads filled enough
  simp only [read, shape]
  rw [value_of_brace, found _ enough]
  rfl

end Lines

end Documents

end Downhill.Json
