import Chip8.Json.Value
import Chip8.Text.Line
/-!
# Chip8.Json.Reader

Reading JSON text, with the place and the reason of the first mistake.

The reader goes through the text once, from left to right, and stops at the first character that
cannot be right. A `Cursor` is what is left of the text together with how much has been read, so
every reason comes with a position. Each step of the reader hands on a strictly shorter rest,
which is why the reader ends.

Besides what the standard grammar allows, the words `NaN`, `Infinity` and `-Infinity` are numbers. A
key that occurs again replaces the value of the first occurrence. A code point written as two
surrogate escapes is one character; a surrogate that stands alone is no character and is read as
U+FFFD.
-/

namespace Chip8.Json

/-- What is wrong at a position. -/
inductive Problem
  | expectingValue
  /-- The text goes on behind the value. -/
  | extraData
  | expectingComma
  | expectingColon
  | expectingKey
  /-- A text that starts here does not end. -/
  | unterminatedString
  | controlCharacter
  /-- A backslash before a character that has no escape. -/
  | badEscape
  /-- An escape by code point that does not have four digits and something behind them. -/
  | badCodeEscape
  | byteOrderMark
  deriving Repr, DecidableEq

def Problem.text : Problem → String
  | expectingValue => "Expecting value"
  | extraData => "Extra data"
  | expectingComma => "Expecting ',' delimiter"
  | expectingColon => "Expecting ':' delimiter"
  | expectingKey => "Expecting property name enclosed in double quotes"
  | unterminatedString => "Unterminated string starting at"
  | controlCharacter => "Invalid control character at"
  | badEscape => "Invalid \\escape"
  | badCodeEscape => "Invalid \\uXXXX escape"
  | byteOrderMark => "Unexpected UTF-8 BOM (decode using utf-8-sig)"

/-- A mistake in a text. -/
structure Malformed where
  problem : Problem
  /-- The number of characters before the place. -/
  pos : Nat
  /-- The line of the place, counted from one. -/
  line : Nat
  /-- The column of the place, counted from one. -/
  column : Nat
  deriving Repr, DecidableEq

def Malformed.message (m : Malformed) : String :=
  m.problem.text ++ ": line " ++ toString m.line ++ " column " ++ toString m.column ++
    " (char " ++ toString m.pos ++ ")"

/-- A place in the text. -/
structure Cursor where
  /-- What has not been read yet. -/
  rest : List Char
  /-- How much has been read. -/
  pos : Nat

/-- The characters that may stand between tokens. -/
def isBlank (c : Char) : Bool := c = ' ' || c = '\t' || c = '\n' || c = '\r'

namespace Cursor

/-- Passes over `n` characters. -/
def skip (c : Cursor) (n : Nat) : Cursor := ⟨c.rest.drop n, c.pos + n⟩

def skipBlanks (c : Cursor) : Cursor := go c.rest c.pos
where
  /-- The position moves with the text. -/
  go : List Char → Nat → Cursor
    | x :: rest, pos => if isBlank x then go rest (pos + 1) else ⟨x :: rest, pos⟩
    | [], pos => ⟨[], pos⟩

theorem length_skipBlanks_go (text : List Char) (pos : Nat) :
    (skipBlanks.go text pos).rest.length ≤ text.length := by
  induction text generalizing pos with
  | nil => exact Nat.le_refl _
  | cons x rest ih =>
    unfold skipBlanks.go
    split
    · exact Nat.le_trans (ih (pos + 1)) (Nat.le_succ _)
    · exact Nat.le_refl _

theorem length_skipBlanks (c : Cursor) : c.skipBlanks.rest.length ≤ c.rest.length :=
  length_skipBlanks_go c.rest c.pos

theorem length_skip (c : Cursor) (n : Nat) : (c.skip n).rest.length ≤ c.rest.length := by
  simp [skip]

theorem length_skip_lt {c : Cursor} {x : Char} {rest : List Char} (h : c.rest = x :: rest)
    {n : Nat} (hn : 0 < n) : (c.skip n).rest.length < c.rest.length := by
  simp only [skip, h, List.length_drop, List.length_cons]
  omega

end Cursor

/-- Reading an `α`: a problem with its position, or the result and a place with less than `bound`
characters to go. The bound is fixed while a loop runs, so the loop can hand its result on as it
is. -/
abbrev Reading (α : Type) (bound : Nat) : Type :=
  Except (Problem × Nat) (α × { later : Cursor // later.rest.length < bound })

/-! ### Numbers -/

/-- The digits at the start of a text, and what follows them. -/
def spanDigits (text : List Char) : List Char × List Char := text.span Char.isDigit

/-- The whole number that digits write. -/
def digitsValue (digits : List Char) : Nat :=
  digits.foldl (fun n d => 10 * n + (d.toNat - '0'.toNat)) 0

/-- The fraction of a number: the digits behind a point that has at least one behind it. -/
def spanFraction : List Char → List Char × List Char
  | '.' :: rest =>
    match spanDigits rest with
    | ([], _) => ([], '.' :: rest)
    | found => found
  | text => ([], text)

/-- The sign and the digits of an exponent, if there is one with at least one digit. -/
def spanExponent? : List Char → Option (Bool × List Char × List Char)
  | 'e' :: rest | 'E' :: rest =>
    let (negative, tail) : Bool × List Char := match rest with
      | '-' :: tail => (true, tail)
      | '+' :: tail => (false, tail)
      | tail => (false, tail)
    match spanDigits tail with
    | ([], _) => none
    | (digits, tail) => some (negative, digits, tail)
  | _ => none

/-- The value of a number, from its sign and the digits of its parts. -/
def numberValue (negative : Bool) (whole fraction : List Char)
    (exponent? : Option (Bool × List Char)) : Value :=
  match fraction, exponent? with
  | [], none =>
    let n : Int := digitsValue whole
    .int (if negative then -n else n)
  | _, _ =>
    let power : Int := match exponent? with
      | some (true, digits) => -digitsValue digits
      | some (false, digits) => digitsValue digits
      | none => 0
    .float (Binary64.ofDecimal negative (digitsValue (whole ++ fraction)) (power - fraction.length))

/-- Reads a number: no leading zeros, and a digit on both sides of a point. The result is the value
and the number of characters it takes. -/
def spanNumber? (text : List Char) : Option (Value × Nat) :=
  let (negative, body) : Bool × List Char := match text with
    | '-' :: body => (true, body)
    | body => (false, body)
  let whole := match body with
    | '0' :: _ => ['0']
    | body => (spanDigits body).1
  if whole.isEmpty then none
  else
    let (fraction, tail) := spanFraction (body.drop whole.length)
    match spanExponent? tail with
    | some (down, digits, tail) =>
      some (numberValue negative whole fraction (some (down, digits)), text.length - tail.length)
    | none => some (numberValue negative whole fraction none, text.length - tail.length)

/-! ### Texts -/

def hexValue? (c : Char) : Option Nat :=
  if '0' ≤ c ∧ c ≤ '9' then some (c.toNat - '0'.toNat)
  else if 'a' ≤ c ∧ c ≤ 'f' then some (c.toNat - 'a'.toNat + 10)
  else if 'A' ≤ c ∧ c ≤ 'F' then some (c.toNat - 'A'.toNat + 10)
  else none

/-- The code unit that four hexadecimal digits write. -/
def codeUnit? : List Char → Option Nat
  | [a, b, c, d] => do
    let a ← hexValue? a
    let b ← hexValue? b
    let c ← hexValue? c
    let d ← hexValue? d
    return ((a * 16 + b) * 16 + c) * 16 + d
  | _ => none

/-- The character of a code unit; a surrogate alone is none. -/
def charOfUnit (unit : Nat) : Char :=
  if 0xD800 ≤ unit ∧ unit ≤ 0xDFFF then '\ufffd' else Char.ofNat unit

/-- The escapes of a single letter. -/
def letterEscape? : Char → Option Char
  | '"' => some '"'
  | '\\' => some '\\'
  | '/' => some '/'
  | 'b' => some '\x08'
  | 'f' => some '\x0c'
  | 'n' => some '\n'
  | 'r' => some '\r'
  | 't' => some '\t'
  | _ => none

/-- Reads the code units of an escape whose `\u` has just been passed; `pos` is the position of
that `u`. Four digits must be there with something behind them, or the text could not end. A high
surrogate takes a low surrogate that follows it at once. The result is the character and the
number of characters read. -/
def codeEscape (text : List Char) (pos : Nat) : Except (Problem × Nat) (Char × Nat) :=
  match text.drop 4, codeUnit? (text.take 4) with
  | [], _ | _, none => .error (.badCodeEscape, pos)
  | '\\' :: 'u' :: more, some unit =>
    if 0xD800 ≤ unit ∧ unit ≤ 0xDBFF ∧ 4 < more.length then
      match codeUnit? (more.take 4) with
      | none => .error (.badCodeEscape, pos + 6)
      | some low =>
        if 0xDC00 ≤ low ∧ low ≤ 0xDFFF then
          .ok (Char.ofNat (0x10000 + (unit - 0xD800) * 0x400 + (low - 0xDC00)), 10)
        else .ok (charOfUnit unit, 4)
    else .ok (charOfUnit unit, 4)
  | _, some unit => .ok (charOfUnit unit, 4)

/-- Reads a text whose opening quote, at `start`, has been passed, up to and with its closing quote.
What has been read of it is in `done`, latest first. -/
def readChars (start : Nat) {bound : Nat} (done : List Char) (text : List Char) (pos : Nat)
    (h : text.length ≤ bound) : Reading String bound :=
  match text with
  | [] => .error (.unterminatedString, start)
  | c :: rest =>
    if c = '"' then .ok (String.ofList done.reverse, ⟨⟨rest, pos + 1⟩, h⟩)
    else if c = '\\' then
      match rest with
      | [] => .error (.unterminatedString, start)
      | e :: rest =>
        if e = 'u' then
          match codeEscape rest (pos + 1) with
          | .error e => .error e
          | .ok (c, taken) =>
            readChars start (c :: done) (rest.drop taken) (pos + 2 + taken) (by
              simp only [List.length_cons, List.length_drop] at h ⊢
              omega)
        else
          match letterEscape? e with
          | none => .error (.badEscape, pos)
          | some c =>
            readChars start (c :: done) rest (pos + 2) (by simp only [List.length_cons] at h; omega)
    else if c.toNat < 0x20 then .error (.controlCharacter, pos)
    else readChars start (c :: done) rest (pos + 1) (by simp only [List.length_cons] at h; omega)
termination_by text.length
decreasing_by all_goals simp only [List.length_cons, List.length_drop]; omega

/-- Reads a text, if one starts here. -/
def readText? (c : Cursor) : Option (Reading String c.rest.length) :=
  match h : c.rest with
  | '"' :: rest => some (readChars c.pos [] rest (c.pos + 1) (by simp))
  | _ => none

/-! ### Values -/

/-- The words that are values. -/
def words : List (List Char × Value) := [
  ("null".toList, .null),
  ("true".toList, .bool true),
  ("false".toList, .bool false),
  ("NaN".toList,
    .float (Binary64.ofParts false (Binary64.infinityBits + Binary64.exponentUnit / 2))),
  ("Infinity".toList, .float (Binary64.ofParts false Binary64.infinityBits)),
  ("-Infinity".toList, .float (Binary64.ofParts true Binary64.infinityBits))]

def readScalar (c : Cursor) : Reading Value c.rest.length :=
  let found := match words.find? fun (word, _) => word.isPrefixOf c.rest with
    | some (word, value) => some (value, word.length)
    | none => spanNumber? c.rest
  match found with
  | none => .error (.expectingValue, c.pos)
  | some (value, size) =>
    if h : (c.skip size).rest.length < c.rest.length then .ok (value, ⟨c.skip size, h⟩)
    else .error (.expectingValue, c.pos)

/-- The place behind a bracket or a comma and the blanks after it has less to go. -/
theorem Cursor.length_skipBlanks_skip_lt {c : Cursor} {x : Char} (h : c.rest.head? = some x) :
    (c.skip 1).skipBlanks.rest.length < c.rest.length := by
  obtain ⟨rest, h⟩ := List.head?_eq_some_iff.mp h
  exact Nat.lt_of_le_of_lt (length_skipBlanks _) (length_skip_lt h (by decide))

mutual

def readValue (c : Cursor) : Reading Value c.rest.length :=
  match readText? c with
  | some (.error e) => .error e
  | some (.ok (s, later)) => .ok (.string s, later)
  | none =>
    match h : c.rest.head? with
    | some '[' =>
      let inner := (c.skip 1).skipBlanks
      have hi : inner.rest.length < c.rest.length := Cursor.length_skipBlanks_skip_lt h
      match inner.rest.head? with
      | some ']' =>
        .ok (.array [], ⟨inner.skip 1, Nat.lt_of_le_of_lt (Cursor.length_skip _ _) hi⟩)
      | _ =>
        match readItems [] inner (Nat.le_of_lt hi) with
        | .error e => .error e
        | .ok (items, later) => .ok (.array items, later)
    | some '{' =>
      let inner := (c.skip 1).skipBlanks
      have hi : inner.rest.length < c.rest.length := Cursor.length_skipBlanks_skip_lt h
      match inner.rest.head? with
      | some '}' =>
        .ok (.object [], ⟨inner.skip 1, Nat.lt_of_le_of_lt (Cursor.length_skip _ _) hi⟩)
      | _ =>
        match readMembers [] inner (Nat.le_of_lt hi) with
        | .error e => .error e
        | .ok (members, later) => .ok (.object members, later)
    | _ => readScalar c
termination_by (c.rest.length, 1)

/-- Reads the items of an array up to its bracket. The items read so far are in `done`, latest
first. -/
def readItems {bound : Nat} (done : List Value) (c : Cursor) (hb : c.rest.length ≤ bound) :
    Reading (List Value) bound :=
  match readValue c with
  | .error e => .error e
  | .ok (value, ⟨after, ha⟩) =>
    let next := after.skipBlanks
    have hn : next.rest.length < c.rest.length :=
      Nat.lt_of_le_of_lt (Cursor.length_skipBlanks _) ha
    match h : next.rest.head? with
    | some ']' =>
      .ok ((value :: done).reverse, ⟨next.skip 1,
        Nat.lt_of_le_of_lt (Cursor.length_skip _ _) (Nat.lt_of_lt_of_le hn hb)⟩)
    | some ',' =>
      have hf : (next.skip 1).skipBlanks.rest.length < c.rest.length :=
        Nat.lt_trans (Cursor.length_skipBlanks_skip_lt h) hn
      readItems (value :: done) (next.skip 1).skipBlanks (Nat.le_trans (Nat.le_of_lt hf) hb)
    | _ => .error (.expectingComma, next.pos)
termination_by (c.rest.length, 2)

/-- Reads the members of an object up to its brace. The members read so far are in `done`. -/
def readMembers {bound : Nat} (done : Members) (c : Cursor) (hb : c.rest.length ≤ bound) :
    Reading Members bound :=
  match readText? c with
  | none => .error (.expectingKey, c.pos)
  | some (.error e) => .error e
  | some (.ok (key, ⟨behindKey, hk⟩)) =>
    let colon := behindKey.skipBlanks
    have hc : colon.rest.length < c.rest.length :=
      Nat.lt_of_le_of_lt (Cursor.length_skipBlanks _) hk
    match h : colon.rest.head? with
    | some ':' =>
      have hp : (colon.skip 1).skipBlanks.rest.length < c.rest.length :=
        Nat.lt_trans (Cursor.length_skipBlanks_skip_lt h) hc
      match readValue (colon.skip 1).skipBlanks with
      | .error e => .error e
      | .ok (value, ⟨after, ha⟩) =>
        let done := Members.insert key value done
        let next := after.skipBlanks
        have hn : next.rest.length < c.rest.length :=
          Nat.lt_of_le_of_lt (Cursor.length_skipBlanks _) (Nat.lt_trans ha hp)
        match h : next.rest.head? with
        | some '}' =>
          .ok (done, ⟨next.skip 1,
            Nat.lt_of_le_of_lt (Cursor.length_skip _ _) (Nat.lt_of_lt_of_le hn hb)⟩)
        | some ',' =>
          have hf : (next.skip 1).skipBlanks.rest.length < c.rest.length :=
            Nat.lt_trans (Cursor.length_skipBlanks_skip_lt h) hn
          readMembers done (next.skip 1).skipBlanks (Nat.le_trans (Nat.le_of_lt hf) hb)
        | _ => .error (.expectingComma, next.pos)
    | _ => .error (.expectingColon, colon.pos)
termination_by (c.rest.length, 2)

end

/-- Reads a whole text as one value, with nothing but blanks around it. -/
def read (text : List Char) : Except Malformed Value :=
  let place (e : Problem × Nat) : Malformed :=
    ⟨e.1, e.2, Line.lineAt text e.2, Line.columnAt text e.2⟩
  match text with
  | '\ufeff' :: _ => .error (place (.byteOrderMark, 0))
  | _ =>
    match readValue (Cursor.skipBlanks ⟨text, 0⟩) with
    | .error e => .error (place e)
    | .ok (value, later) =>
      let tail := later.1.skipBlanks
      if tail.rest.isEmpty then .ok value else .error (place (.extraData, tail.pos))

end Chip8.Json
