import PortfolioShell.Decimal.Reading
import PortfolioShell.Json.Value
import PortfolioShell.Text.Bytes
import PortfolioShell.Text.Hex

/-! # Scanning JSON

The pieces of a JSON text: blanks, words, strings and numbers. A scanner takes the text that is left and
gives what it read with the text after it, or the fault that it met first. Strings and numbers are scanned
in two ways: strictly, for a value that is kept, and loosely, for one that is passed over. -/

namespace PortfolioShell.Json

inductive Fault where
  | malformed
  | truncated
  | unfit
  deriving DecidableEq, Repr

def Fault.description : Fault → String
  | .malformed => "malformed text"
  | .truncated => "unexpected end of text"
  | .unfit => "unexpected value"

abbrev Reader (α : Type) := List Char → Except Fault (α × List Char)

def isJsonBlank (c : Char) : Bool := c = ' ' || c = '\n' || c = '\t' || c = '\r'

def skipBlanks (s : List Char) : List Char := s.dropWhile isJsonBlank

def readWord : List Char → Reader Unit
  | [], s => .ok ((), s)
  | _ :: _, [] => .error .truncated
  | w :: word, c :: s => if c = w then readWord word s else .error .malformed

/-! ### Strings -/

def plainEscape? : Char → Option Char
  | '"' => some '"'
  | '\\' => some '\\'
  | '/' => some '/'
  | 'b' => some '\x08'
  | 'f' => some '\x0c'
  | 'n' => some '\n'
  | 'r' => some '\r'
  | 't' => some '\t'
  | _ => none

/-- The number that the next four hexadecimal digits write. With fewer than four bytes left the text
ends too early, whatever they are. -/
def hexNumber (s : List Char) : Except Fault Nat :=
  match s with
  | a :: b :: c :: d :: _ =>
    match Text.hexValue? a, Text.hexValue? b, Text.hexValue? c, Text.hexValue? d with
    | some a, some b, some c, some d => .ok (((a * 16 + b) * 16 + c) * 16 + d)
    | _, _, _, _ => .error .malformed
  | few => if Text.byteCount few < 4 then .error .truncated else .error .malformed

def isHighSurrogate (n : Nat) : Bool := 0xD800 ≤ n && n ≤ 0xDBFF

def isLowSurrogate (n : Nat) : Bool := 0xDC00 ≤ n && n ≤ 0xDFFF

def joinSurrogates (high low : Nat) : Char :=
  Char.ofNat ((high - 0xD800) * 1024 + (low - 0xDC00) + 0x10000)

/-- What follows `\u`: the character, and how many characters of the text write it. A high surrogate
must be followed by the escape of a low one. -/
def unicodeEscape (s : List Char) : Except Fault (Char × Nat) := do
  let n ← hexNumber s
  if isLowSurrogate n then .error .malformed
  else if isHighSurrogate n then
    match s.drop 4 with
    | '\\' :: 'u' :: more => do
      let low ← hexNumber more
      if isLowSurrogate low then .ok (joinSurrogates n low, 10) else .error .malformed
    | [] | ['\\'] => .error .truncated
    | _ => .error .malformed
  else .ok (Char.ofNat n, 4)

def strictEscape : List Char → Except Fault (Char × Nat)
  | [] => .error .truncated
  | 'u' :: rest => (unicodeEscape rest).map fun (c, n) => (c, n + 1)
  | c :: _ => match plainEscape? c with
    | some d => .ok (d, 1)
    | none => .error .malformed

def looseEscape : List Char → Except Fault (Char × Nat)
  | [] => .error .truncated
  | 'u' :: rest => (hexNumber rest).map fun n => (Char.ofNat n, 5)
  | c :: _ => match plainEscape? c with
    | some d => .ok (d, 1)
    | none => .error .malformed

/-- Reads a string up to the quote that closes it; `pending` characters belong to an escape that has been
read, and `done` holds what has been read so far, the last character first. -/
def readChars (escape : List Char → Except Fault (Char × Nat)) :
    (pending : Nat) → (done : List Char) → Reader String
  | _, _, [] => .error .truncated
  | pending + 1, done, _ :: rest => readChars escape pending done rest
  | 0, done, c :: rest =>
    if c = '"' then .ok (String.ofList done.reverse, rest)
    else if c = '\\' then
      match escape rest with
      | .ok (d, width) => readChars escape width (d :: done) rest
      | .error fault => .error fault
    else if c.toNat < 32 then .error .malformed
    else readChars escape 0 (c :: done) rest

def readString : Reader String := readChars strictEscape 0 []

def skipString : Reader String := readChars looseEscape 0 []

/-! ### Numbers -/

def isDigit (c : Char) : Bool := c.isDigit

def isExponentMark (c : Char) : Bool := c = 'e' || c = 'E'

def exponentSign : List Char → Bool × List Char
  | '-' :: rest => (true, rest)
  | '+' :: rest => (false, rest)
  | s => (false, s)

def signed (negative : Bool) (x : Float) : Float := if negative then -x else x

def finishNumber (negative : Bool) (significand : Nat) (power : Int) : Reader Number := fun s =>
  match Decimal.scaled significand power with
  | some x => .ok (.real (signed negative x), s)
  | none => .error .malformed

/-- Reads an exponent whose mark has been read. Exponents from `2 ^ 31` on make any number but zero too
large, or nothing. -/
def readExponent (negative : Bool) (significand : Nat) (power : Int) : Reader Number := fun s =>
  let (down, rest) := exponentSign s
  let digits := rest.takeWhile isDigit
  let after := rest.dropWhile isDigit
  if digits = [] then (if rest = [] then .error .truncated else .error .malformed)
  else
    let size := Decimal.digitsValue digits
    if Nat.pow 2 31 ≤ size then
      if significand ≠ 0 && !down then .error .malformed
      else .ok (.real (signed negative 0.0), after)
    else finishNumber negative significand (if down then power - size else power + size) after

def readAfterDigits (negative : Bool) (significand : Nat) (power : Int) : Reader Number := fun s =>
  match s with
  | c :: rest =>
    if isExponentMark c then readExponent negative significand power rest
    else finishNumber negative significand power s
  | [] => finishNumber negative significand power s

def readFraction (negative : Bool) (significand : Nat) (power : Int) : Reader Number := fun s =>
  let digits := s.takeWhile isDigit
  let after := s.dropWhile isDigit
  if digits = [] then (if after = [] then .error .truncated else .error .malformed)
  else
    let (full, left) := Decimal.takeDigits significand digits
    readAfterDigits negative full (power - (digits.length - left.length : Nat)) after

/-- A number without point and exponent, whose digits all fit: whole if 64 bits hold it. There is no
whole `-0`. -/
def wholeNumber (negative : Bool) (n : Nat) : Number :=
  if negative && n = 0 then .real (-0.0)
  else match Whole.ofInt? (if negative then -n else n) with
    | some w => .whole w
    | none => .real (signed negative (UInt64.ofNat n).toFloat)

def readAfterWhole (negative : Bool) (digits : List Char) : Reader Number := fun s =>
  let (significand, left) := Decimal.takeDigits 0 digits
  match s with
  | '.' :: rest => readFraction negative significand left.length rest
  | _ =>
    if (s.head?.map isExponentMark).getD false || left ≠ [] then
      readAfterDigits negative significand left.length s
    else .ok (wholeNumber negative significand, s)

/-- Reads a number whose sign has been read. No digit may follow a leading zero. -/
def readNumber (negative : Bool) : Reader Number := fun s =>
  let digits := s.takeWhile isDigit
  let after := s.dropWhile isDigit
  match digits with
  | [] => if s = [] then .error .truncated else .error .malformed
  | '0' :: _ :: _ => .error .malformed
  | _ => readAfterWhole negative digits after

def skipDigits : Reader Unit := fun s =>
  if s.takeWhile isDigit = [] then .error .malformed else .ok ((), s.dropWhile isDigit)

def skipExponent : Reader Unit := fun s =>
  match s with
  | c :: rest => if isExponentMark c then skipDigits (exponentSign rest).2 else .ok ((), s)
  | [] => .ok ((), s)

/-- Passes over a number whose sign has been read. Its size does not matter, and where its digits are
missing at the end of the text it is malformed. -/
def skipNumber : Reader Unit := fun s =>
  match s.takeWhile isDigit with
  | '0' :: _ :: _ => .error .malformed
  | _ => do
    let (_, after) ← skipDigits s
    match after with
    | '.' :: rest => do
      let (_, more) ← skipDigits rest
      skipExponent more
    | _ => skipExponent after

end PortfolioShell.Json
