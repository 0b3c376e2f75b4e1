import Liveset.Json.Printer
import Liveset.Json.Token

/-!
# Scanning what was written

The written form of a value scans to the tokens of the value: in any layout whose gaps are blanks,
the scanner takes the characters of `v` and has then found exactly `tokens v` more (`Plain.spells`).
A number or a word ends only with the character after it, so the statement is about what comes out
of the whole text, with any text behind the value that such a character could start.

Not every value can be read back from its text: an unreadable one is written as `null`. The values
that can, `Plain` ones, are those without unreadable parts in which every number is an integer.
-/

set_option autoImplicit false

namespace Liveset.Json

/-- A value in which every number is an integer and nothing is unreadable. -/
inductive Plain : Json → Prop
  | null : Plain .null
  | bool (b : Bool) : Plain (.bool b)
  | integer (z : Int) : Plain (.ofInt z)
  | string (s : String) : Plain (.string s)
  | array {items : List Json} (plain : ∀ item ∈ items, Plain item) : Plain (.array items)
  | object {fields : List (String × Json)} (plain : ∀ field ∈ fields, Plain field.2) :
    Plain (.object fields)

mutual

/-- The tokens of a value. -/
def tokens : Json → List Token
  | .null => [.null]
  | .bool b => [.bool b]
  | .number n => [.number n]
  | .string s => [.string s]
  | .unreadable => [.null]
  | .array [] => [.openArray, .closeArray]
  | .array (item :: rest) => .openArray :: (tokens item ++ itemTokens rest ++ [.closeArray])
  | .object [] => [.openObject, .closeObject]
  | .object ((name, value) :: rest) =>
    .openObject :: .string name :: .colon :: (tokens value ++ fieldTokens rest ++ [.closeObject])

/-- The tokens of the items after the first. -/
def itemTokens : List Json → List Token
  | [] => []
  | item :: rest => .comma :: (tokens item ++ itemTokens rest)

/-- The tokens of the fields after the first. -/
def fieldTokens : List (String × Json) → List Token
  | [] => []
  | (name, value) :: rest =>
    .comma :: .string name :: .colon :: (tokens value ++ fieldTokens rest)

end

/-! ## Numbers -/

namespace Number

/-- Only zero is written with a zero in front. -/
theorem head?_toDigits_ne (n : Nat) (positive : 0 < n) : (Nat.toDigits 10 n).head? ≠ some '0' := by
  induction n using Nat.strongRecOn with
  | ind n ih =>
    by_cases small : n < 10
    · rw [Nat.toDigits_of_lt_base small]
      have : n = 1 ∨ n = 2 ∨ n = 3 ∨ n = 4 ∨ n = 5 ∨ n = 6 ∨ n = 7 ∨ n = 8 ∨ n = 9 := by omega
      rcases this with rfl | rfl | rfl | rfl | rfl | rfl | rfl | rfl | rfl <;> decide
    · rw [Nat.toDigits_of_base_le (by omega) (by omega), List.head?_append]
      intro zero
      rcases Option.or_eq_some_iff.1 zero with front | ⟨empty, -⟩
      · exact ih (n / 10) (by omega) (by omega) front
      · exact Nat.toDigits_ne_nil (List.head?_eq_none_iff.1 empty)

theorem isDigit_of_mem_toDigits {n : Nat} {c : Char} (member : c ∈ Nat.toDigits 10 n) : c.isDigit :=
  Nat.isDigit_of_mem_toDigits (by omega) (by omega) member

theorem spanDigits_of_digits {cs : List Char} (digits : ∀ c ∈ cs, c.isDigit) :
    spanDigits cs = (cs, []) := by
  have taken : (cs ++ []).takeWhile Char.isDigit = cs ++ [] := List.takeWhile_append_of_pos digits
  have dropped : (cs ++ []).dropWhile Char.isDigit = [] := List.dropWhile_append_of_pos digits
  rw [List.append_nil] at taken dropped
  rw [spanDigits, taken, dropped]

theorem wholePart?_toDigits (n : Nat) :
    wholePart? (Nat.toDigits 10 n) = some (Nat.toDigits 10 n, []) := by
  rw [wholePart?, spanDigits_of_digits fun _ => isDigit_of_mem_toDigits]
  rcases Nat.eq_zero_or_pos n with rfl | positive
  · rfl
  · have head := head?_toDigits_ne n positive
    split
    case h_1 empty => exact absurd (Prod.mk.inj empty).1 Nat.toDigits_ne_nil
    case h_2 zero => simp [(Prod.mk.inj zero).1] at head
    case h_3 zero => simp [(Prod.mk.inj zero).1] at head
    case h_4 written => rw [(Prod.mk.inj written).1, (Prod.mk.inj written).2]

theorem ofUnsigned?_toDigits (negative : Bool) (n : Nat) :
    ofUnsigned? negative (Nat.toDigits 10 n) = some { negative, whole := Nat.toDigits 10 n } := by
  rw [ofUnsigned?, wholePart?_toDigits]
  rfl

theorem chars_ofInt (z : Int) :
    (ofInt z).chars = (if z < 0 then ['-'] else []) ++ Nat.toDigits 10 z.natAbs := by
  simp [chars, ofInt]

/-- An integer reads back. -/
theorem ofChars?_chars (z : Int) : ofChars? (ofInt z).chars = some (ofInt z) := by
  rw [chars_ofInt]
  by_cases negative : z < 0
  · rw [if_pos negative]
    exact (ofUnsigned?_toDigits true _).trans (by simp [ofInt, negative])
  · rw [if_neg negative, List.nil_append, ofChars?]
    · exact (ofUnsigned?_toDigits false _).trans (by simp [ofInt, negative])
    · intro cs sign
      have digit : '-'.isDigit := isDigit_of_mem_toDigits (by rw [sign]; exact List.mem_cons_self)
      exact absurd digit (by decide)

end Number

/-! ## Running on to the end -/

namespace Scanner

/-- The tokens that come of the rest of a text. -/
def complete (scanner : Scanner) (rest : List Char) : Option (List Token) :=
  (scanner.run rest).bind finish

theorem complete_cons (scanner : Scanner) (c : Char) (rest : List Char) :
    scanner.complete (c :: rest) = (scanner.step c).bind fun next => next.complete rest := by
  rw [complete, run]
  cases scanner.step c <;> rfl

theorem complete_of_step {scanner next : Scanner} {c : Char} (step : scanner.step c = some next)
    (rest : List Char) : scanner.complete (c :: rest) = next.complete rest := by
  rw [complete_cons, step]
  rfl

/-- A text behind which a word or a number is at its end. -/
def Closes (rest : List Char) : Prop :=
  ∀ c ∈ rest.head?, c.isAlpha = false ∧ continuesNumber c = false

theorem closes_nil : Closes [] := fun _ none => nomatch none

theorem closes_cons {c : Char} {rest : List Char}
    (ends : c.isAlpha = false ∧ continuesNumber c = false) : Closes (c :: rest) := by
  rintro _ ⟨⟩
  exact ends

/-- Blanks between tokens are passed over. -/
theorem complete_blanks {blanks : List Char} (blank : ∀ c ∈ blanks, isBlank c) (found : List Token)
    (rest : List Char) :
    complete ⟨.between, found⟩ (blanks ++ rest) = complete ⟨.between, found⟩ rest := by
  induction blanks with
  | nil => rfl
  | cons c blanks ih =>
    rw [List.forall_mem_cons] at blank
    have step : step ⟨.between, found⟩ c = some ⟨.between, found⟩ := if_pos blank.1
    rw [List.cons_append, complete_of_step step, ih blank.2]

theorem ends_of_isBlank {c : Char} (blank : isBlank c) :
    c.isAlpha = false ∧ continuesNumber c = false := by
  simp only [isBlank, Bool.or_eq_true, decide_eq_true_eq] at blank
  rcases blank with ((rfl | rfl) | rfl) | rfl <;> decide

theorem closes_blanks {blanks rest : List Char} (blank : ∀ c ∈ blanks, isBlank c)
    (closes : Closes rest) : Closes (blanks ++ rest) := by
  cases blanks with
  | nil => exact closes
  | cons c blanks => exact closes_cons (ends_of_isBlank (blank c List.mem_cons_self))

/-! ## Words and numbers -/

/-- A word is found once a character behind it, or the end of the text, shows that it is over. -/
theorem complete_word (letters : List Char) {token : Token}
    (known : wordToken? letters.reverse = some token) (found : List Token) {rest : List Char}
    (closes : Closes rest) :
    complete ⟨.word letters, found⟩ rest = complete ⟨.between, token :: found⟩ rest := by
  cases rest with
  | nil => simp [complete, run, finish, known]
  | cons c rest =>
    rw [complete_cons, complete_cons]
    simp [step, (closes c rfl).1, known]

/-- So is a number. -/
theorem complete_number {digits : List Char} {n : Number}
    (known : Number.ofChars? digits.reverse = some n) (found : List Token) {rest : List Char}
    (closes : Closes rest) :
    complete ⟨.number digits, found⟩ rest = complete ⟨.between, .number n :: found⟩ rest := by
  cases rest with
  | nil => simp [complete, run, finish, known]
  | cons c rest =>
    rw [complete_cons, complete_cons]
    simp [step, (closes c rfl).2, known]

theorem complete_digits {cs : List Char} (continues : ∀ c ∈ cs, continuesNumber c)
    (digits : List Char) (found : List Token) (rest : List Char) :
    complete ⟨.number digits, found⟩ (cs ++ rest) =
      complete ⟨.number (cs.reverse ++ digits), found⟩ rest := by
  induction cs generalizing digits with
  | nil => rfl
  | cons c cs ih =>
    rw [List.forall_mem_cons] at continues
    have step : step ⟨.number digits, found⟩ c = some ⟨.number (c :: digits), found⟩ :=
      if_pos continues.1
    rw [List.cons_append, complete_of_step step, ih continues.2, List.reverse_cons,
      List.append_assoc]
    rfl

theorem step_of_digit {c : Char} (digit : c.isDigit) (found : List Token) :
    step ⟨.between, found⟩ c = some ⟨.number [c], found⟩ := by
  have ne : ∀ other : Char, other.isDigit = false → c ≠ other := by
    rintro other notDigit rfl
    simp [notDigit] at digit
  simp [step, start, isBlank, digit, ne ' ' (by decide), ne '\n' (by decide), ne '\t' (by decide),
    ne '\r' (by decide), ne '[' (by decide), ne ']' (by decide), ne '{' (by decide),
    ne '}' (by decide), ne ',' (by decide), ne ':' (by decide), ne '"' (by decide)]

theorem complete_unsigned (n : Nat) (found : List Token) (rest : List Char) :
    complete ⟨.between, found⟩ (Nat.toDigits 10 n ++ rest) =
      complete ⟨.number (Nat.toDigits 10 n).reverse, found⟩ rest := by
  have digits : ∀ c ∈ Nat.toDigits 10 n, c.isDigit := fun _ => Number.isDigit_of_mem_toDigits
  cases written : Nat.toDigits 10 n with
  | nil => exact absurd written Nat.toDigits_ne_nil
  | cons c cs =>
    rw [written, List.forall_mem_cons] at digits
    have continues : ∀ d ∈ cs, continuesNumber d := fun d member => by
      simp [continuesNumber, digits.2 d member]
    rw [List.cons_append, complete_of_step (step_of_digit digits.1 found),
      complete_digits continues, List.reverse_cons]

/-- An integer is scanned as it was written. -/
theorem complete_integer (z : Int) (found : List Token) {rest : List Char} (closes : Closes rest) :
    complete ⟨.between, found⟩ ((Number.ofInt z).chars ++ rest) =
      complete ⟨.between, .number (.ofInt z) :: found⟩ rest := by
  have known : Number.ofChars? (Number.ofInt z).chars.reverse.reverse = some (.ofInt z) := by
    rw [List.reverse_reverse, Number.ofChars?_chars]
  rw [← complete_number known found closes, Number.chars_ofInt]
  by_cases negative : z < 0
  · have continues : ∀ c ∈ Nat.toDigits 10 z.natAbs, continuesNumber c := fun c member => by
      simp [continuesNumber, Number.isDigit_of_mem_toDigits member]
    rw [if_pos negative, List.append_assoc]
    exact (complete_digits continues ['-'] found rest).trans (by rw [List.reverse_append]; rfl)
  · rw [if_neg negative, List.nil_append]
    exact complete_unsigned _ found rest

/-! ## Strings -/

theorem hexDigit?_hexChar : ∀ n < 16, hexDigit? (hexChar n) = some n := by decide

/-- The four digits of a control character spell its number. -/
theorem complete_unit {c : Char} (control : c.toNat < 0x20) (older : List Char) (found : List Token)
    (rest : List Char) :
    complete ⟨.text (some older), found⟩
        ('\\' :: 'u' :: '0' :: '0' :: hexChar (c.toNat / 16) :: hexChar (c.toNat % 16) :: rest) =
      complete ⟨.text (some (c :: older)), found⟩ rest := by
  have high := hexDigit?_hexChar (c.toNat / 16) (by omega)
  have low := hexDigit?_hexChar (c.toNat % 16) (by omega)
  have value : 16 * (c.toNat / 16) + c.toNat % 16 = c.toNat := Nat.div_add_mod c.toNat 16
  have unit : endUnit (some older) none c.toNat = .text (some (c :: older)) := by
    have basic : isLead c.toNat = false ∧ isTrail c.toNat = false := by
      simp only [isLead, isTrail, Bool.and_eq_false_iff, decide_eq_false_iff_not]
      omega
    simp [endUnit, basic, push, Char.ofNat_toNat]
  calc complete ⟨.text (some older), found⟩
        ('\\' :: 'u' :: '0' :: '0' :: hexChar (c.toNat / 16) :: hexChar (c.toNat % 16) :: rest)
      = complete ⟨.unit (some older) none 1 0, found⟩
        (hexChar (c.toNat / 16) :: hexChar (c.toNat % 16) :: rest) := rfl
    _ = complete ⟨.unit (some older) none 0 (c.toNat / 16), found⟩
        (hexChar (c.toNat % 16) :: rest) := complete_of_step (by simp [step, high]) _
    _ = complete ⟨endUnit (some older) none c.toNat, found⟩ rest :=
        complete_of_step (by simp [step, low, value]) _
    _ = complete ⟨.text (some (c :: older)), found⟩ rest := by rw [unit]

/-- The written form of a character inside a string stands for that character. -/
theorem complete_escapeChar (c : Char) (older : List Char) (found : List Token) (rest : List Char) :
    complete ⟨.text (some older), found⟩ (escapeChar c ++ rest) =
      complete ⟨.text (some (c :: older)), found⟩ rest := by
  unfold escapeChar
  --  Seven characters have an escape of their own. Other control characters are written by number,
  -- and everything else stands for itself.
  split
  · subst c; rfl
  split
  · subst c; rfl
  split
  · subst c; rfl
  split
  · subst c; rfl
  split
  · subst c; rfl
  split
  · subst c; rfl
  split
  · subst c; rfl
  split
  case isTrue control =>
    exact complete_unit control older found rest
  case isFalse quote backslash _ _ _ _ _ control =>
    refine complete_of_step ?_ rest
    simp [step, inText, quote, backslash, control, push]

theorem complete_text (cs older : List Char) (found : List Token) (rest : List Char) :
    complete ⟨.text (some older), found⟩ (cs.flatMap escapeChar ++ rest) =
      complete ⟨.text (some (cs.reverse ++ older)), found⟩ rest := by
  induction cs generalizing older with
  | nil => rfl
  | cons c cs ih =>
    rw [List.flatMap_cons, List.append_assoc, complete_escapeChar, ih, List.reverse_cons,
      List.append_assoc]
    rfl

theorem complete_quote (s : String) (found : List Token) (rest : List Char) :
    complete ⟨.between, found⟩ (quote s ++ rest) =
      complete ⟨.between, .string s :: found⟩ rest := by
  calc complete ⟨.between, found⟩ (quote s ++ rest)
      = complete ⟨.text (some []), found⟩ (s.toList.flatMap escapeChar ++ '"' :: rest) := by
        rw [quote, List.cons_append, List.append_assoc]
        rfl
    _ = complete ⟨.text (some (s.toList.reverse ++ [])), found⟩ ('"' :: rest) :=
        complete_text s.toList [] found _
    _ = complete ⟨.between, stringToken (some (s.toList.reverse ++ [])) :: found⟩ rest := rfl
    _ = complete ⟨.between, .string s :: found⟩ rest := by simp [stringToken]

end Scanner

/-! ## Values -/

/-- A layout whose gaps are blanks, a colon apart. -/
structure Layout.Airy (layout : Layout) : Prop where
  newline : ∀ level, ∀ c ∈ layout.newline level, Scanner.isBlank c
  colon : ∃ blanks, layout.colon = ':' :: blanks ∧ ∀ c ∈ blanks, Scanner.isBlank c

theorem Layout.airy_pretty : Layout.pretty.Airy where
  newline level c member := by
    rcases List.mem_cons.1 member with rfl | member
    · rfl
    · rw [(List.mem_replicate.1 member).2]
      rfl
  colon := ⟨[' '], rfl, List.forall_mem_singleton.2 rfl⟩

/-- The scanner finds the tokens in the characters, whatever stands behind them. -/
def Spells (cs : List Char) (found : List Token) : Prop :=
  ∀ older rest, Scanner.Closes rest →
    Scanner.complete ⟨.between, older⟩ (cs ++ rest) =
      Scanner.complete ⟨.between, found.reverse ++ older⟩ rest

open Scanner

theorem closes_itemChars (layout : Layout) (level : Nat) (items : List Json) {rest : List Char}
    (closes : Closes rest) : Closes (itemChars layout level items ++ rest) := by
  cases items with
  | nil => exact closes
  | cons item items => exact closes_cons (by decide)

theorem closes_fieldChars (layout : Layout) (level : Nat) (fields : List (String × Json))
    {rest : List Char} (closes : Closes rest) :
    Closes (fieldChars layout level fields ++ rest) := by
  cases fields with
  | nil => exact closes
  | cons field fields => exact closes_cons (by decide)

section

variable {layout : Layout} (airy : layout.Airy)

include airy

theorem complete_newline (level : Nat) (found : List Token) (rest : List Char) :
    complete ⟨.between, found⟩ (layout.newline level ++ rest) = complete ⟨.between, found⟩ rest :=
  complete_blanks (airy.newline level) found rest

theorem complete_colon (found : List Token) (rest : List Char) :
    complete ⟨.between, found⟩ (layout.colon ++ rest) =
      complete ⟨.between, .colon :: found⟩ rest := by
  obtain ⟨blanks, colon, blank⟩ := airy.colon
  rw [colon]
  exact complete_blanks blank (.colon :: found) rest

theorem spells_itemChars {level : Nat} {items : List Json}
    (spells : ∀ item ∈ items, Spells (chars layout level item) (tokens item)) :
    Spells (itemChars layout level items) (itemTokens items) := by
  intro found rest closes
  induction items generalizing found with
  | nil => rfl
  | cons item items ih =>
    rw [List.forall_mem_cons] at spells
    calc complete ⟨.between, found⟩ (itemChars layout level (item :: items) ++ rest)
        = complete ⟨.between, .comma :: found⟩ (layout.newline level ++
            (chars layout level item ++ (itemChars layout level items ++ rest))) := by
          rw [itemChars, List.cons_append, List.append_assoc, List.append_assoc]
          rfl
      _ = complete ⟨.between, (tokens item).reverse ++ .comma :: found⟩
            (itemChars layout level items ++ rest) := by
          rw [complete_newline airy, spells.1 _ _ (closes_itemChars layout level items closes)]
      _ = complete ⟨.between, (itemTokens (item :: items)).reverse ++ found⟩ rest := by
          rw [ih spells.2]
          simp [itemTokens]

theorem spells_fieldChars {level : Nat} {fields : List (String × Json)}
    (spells : ∀ field ∈ fields, Spells (chars layout level field.2) (tokens field.2)) :
    Spells (fieldChars layout level fields) (fieldTokens fields) := by
  intro found rest closes
  induction fields generalizing found with
  | nil => rfl
  | cons field fields ih =>
    obtain ⟨name, value⟩ := field
    rw [List.forall_mem_cons] at spells
    calc complete ⟨.between, found⟩ (fieldChars layout level ((name, value) :: fields) ++ rest)
        = complete ⟨.between, .comma :: found⟩
          (layout.newline level ++ (quote name ++ (layout.colon ++
            (chars layout level value ++ (fieldChars layout level fields ++ rest))))) := by
          simp only [fieldChars, List.cons_append, List.append_assoc]
          rfl
      _ = complete ⟨.between, (tokens value).reverse ++ .colon :: .string name :: .comma :: found⟩
            (fieldChars layout level fields ++ rest) := by
          rw [complete_newline airy, complete_quote, complete_colon airy,
            spells.1 _ _ (closes_fieldChars layout level fields closes)]
      _ = complete ⟨.between, (fieldTokens ((name, value) :: fields)).reverse ++ found⟩ rest := by
          rw [ih spells.2]
          simp [fieldTokens]

theorem spells_array {items : List Json} {level : Nat}
    (spells : ∀ item ∈ items, Spells (chars layout (level + 1) item) (tokens item)) :
    Spells (chars layout level (.array items)) (tokens (.array items)) := by
  intro found rest closes
  cases items with
  | nil => rw [chars]; rfl
  | cons item items =>
    rw [List.forall_mem_cons] at spells
    have closing : Closes (layout.newline level ++ ']' :: rest) :=
      closes_blanks (airy.newline level) (closes_cons (by decide))
    calc complete ⟨.between, found⟩ (chars layout level (.array (item :: items)) ++ rest)
        = complete ⟨.between, .openArray :: found⟩ (layout.newline (level + 1) ++
            (chars layout (level + 1) item ++ (itemChars layout (level + 1) items ++
              (layout.newline level ++ ']' :: rest)))) := by
          simp only [chars, List.cons_append, List.append_assoc, List.nil_append]
          rfl
      _ = complete ⟨.between, (itemTokens items).reverse ++
            ((tokens item).reverse ++ .openArray :: found)⟩
                (layout.newline level ++ ']' :: rest) := by
          rw [complete_newline airy, spells.1 _ _ (closes_itemChars layout _ items closing),
            spells_itemChars airy spells.2 _ _ closing]
      _ = complete ⟨.between, .closeArray :: ((itemTokens items).reverse ++
            ((tokens item).reverse ++ .openArray :: found))⟩ rest := by
          rw [complete_newline airy]
          rfl
      _ = complete ⟨.between, (tokens (.array (item :: items))).reverse ++ found⟩ rest := by
          simp [tokens]

theorem spells_object {fields : List (String × Json)} {level : Nat}
    (spells : ∀ field ∈ fields, Spells (chars layout (level + 1) field.2) (tokens field.2)) :
    Spells (chars layout level (.object fields)) (tokens (.object fields)) := by
  intro found rest closes
  cases fields with
  | nil => rw [chars]; rfl
  | cons field fields =>
    obtain ⟨name, value⟩ := field
    rw [List.forall_mem_cons] at spells
    have closing : Closes (layout.newline level ++ '}' :: rest) :=
      closes_blanks (airy.newline level) (closes_cons (by decide))
    calc complete ⟨.between, found⟩ (chars layout level (.object ((name, value) :: fields)) ++ rest)
        = complete ⟨.between, .openObject :: found⟩ (layout.newline (level + 1) ++ (quote name ++
            (layout.colon ++ (chars layout (level + 1) value ++
              (fieldChars layout (level + 1) fields ++
                  (layout.newline level ++ '}' :: rest)))))) := by
          simp only [chars, List.cons_append, List.append_assoc, List.nil_append]
          rfl
      _ = complete ⟨.between, (fieldTokens fields).reverse ++
            ((tokens value).reverse ++ .colon :: .string name :: .openObject :: found)⟩
            (layout.newline level ++ '}' :: rest) := by
          rw [complete_newline airy, complete_quote, complete_colon airy,
            spells.1 _ _ (closes_fieldChars layout _ fields closing),
            spells_fieldChars airy spells.2 _ _ closing]
      _ = complete ⟨.between, .closeObject :: ((fieldTokens fields).reverse ++
            ((tokens value).reverse ++ .colon :: .string name :: .openObject :: found))⟩ rest := by
          rw [complete_newline airy]
          rfl
      _ = complete ⟨.between,
          (tokens (.object ((name, value) :: fields))).reverse ++ found⟩ rest := by
          simp [tokens]

/-- What is written of a plain value spells the tokens of the value. -/
theorem Plain.spells {v : Json} (plain : v.Plain) (level : Nat) :
    Spells (chars layout level v) (tokens v) := by
  induction plain generalizing level with
  | null =>
    intro found rest closes
    rw [chars]
    exact complete_word ['l', 'l', 'u', 'n'] rfl found closes
  | bool b =>
    intro found rest closes
    cases b with
    | false =>
      rw [chars]
      exact complete_word ['e', 's', 'l', 'a', 'f'] rfl found closes
    | true =>
      rw [chars]
      exact complete_word ['e', 'u', 'r', 't'] rfl found closes
  | integer z =>
    intro found rest closes
    exact complete_integer z found closes
  | string s =>
    intro found rest closes
    exact complete_quote s found rest
  | array _ ih => exact spells_array airy fun item member => ih item member (level + 1)
  | object _ ih => exact spells_object airy fun field member => ih field member (level + 1)

/-- The text of a plain value has the tokens of the value. -/
theorem Plain.scan?_chars {v : Json} (plain : v.Plain) :
    Token.scan? (chars layout 0 v) = some (tokens v) := by
  have spells := plain.spells airy 0 [] [] closes_nil
  rw [List.append_nil, List.append_nil] at spells
  refine spells.trans ?_
  simp [complete, run, finish]

end

end Liveset.Json
