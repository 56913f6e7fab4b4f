import PortfolioShell.Decimal.Layout
import PortfolioShell.Json.Value

/-! # Printing JSON

Two forms of a value: compact, without blanks, and indented, with a line for each item and each member. In
strings only quotes, backslashes and controls are escaped. -/

namespace PortfolioShell.Json

/-! ### Strings and numbers -/

def hexDigit (n : Nat) : Char := (Nat.digitChar n)

def printChar (c : Char) : List Char :=
  if c = '"' then ['\\', '"']
  else if c = '\\' then ['\\', '\\']
  else if c = '\x08' then ['\\', 'b']
  else if c = '\x0c' then ['\\', 'f']
  else if c = '\n' then ['\\', 'n']
  else if c = '\r' then ['\\', 'r']
  else if c = '\t' then ['\\', 't']
  else if c.toNat < 32 then ['\\', 'u', '0', '0', hexDigit (c.toNat / 16), hexDigit (c.toNat % 16)]
  else [c]

def printString (s : String) : List Char := '"' :: s.toList.flatMap printChar ++ ['"']

def floatLayout : Decimal.Layout := ⟨-5, 16⟩

def printNumber : Number → List Char
  | .whole n => (if n.val < 0 then ['-'] else []) ++ Nat.toDigits 10 n.val.natAbs
  | .real x => floatLayout.writeFloat x

/-! ### Compact form -/

mutual

def printCompact : Value → List Char
  | .null => "null".toList
  | .bool true => "true".toList
  | .bool false => "false".toList
  | .number n => printNumber n
  | .string s => printString s
  | .array items => '[' :: printItems items
  | .object members => '\x7b' :: printMembers members

def printItems : List Value → List Char
  | [] => [']']
  | [v] => printCompact v ++ [']']
  | v :: rest => printCompact v ++ ',' :: printItems rest

def printMembers : List (String × Value) → List Char
  | [] => ['\x7d']
  | [(k, v)] => printString k ++ ':' :: printCompact v ++ ['\x7d']
  | (k, v) :: rest => printString k ++ ':' :: printCompact v ++ ',' :: printMembers rest

end

def Value.compact (v : Value) : String := String.ofList (printCompact v)

/-! ### Indented form -/

def newLine (depth : Nat) : List Char := '\n' :: List.replicate (2 * depth) ' '

mutual

def printIndented (depth : Nat) : Value → List Char
  | .array [] => ['[', ']']
  | .array items => '[' :: indentedItems (depth + 1) items
  | .object [] => ['\x7b', '\x7d']
  | .object members => '\x7b' :: indentedMembers (depth + 1) members
  | v => printCompact v

def indentedItems (depth : Nat) : List Value → List Char
  | [] => newLine (depth - 1) ++ [']']
  | [v] => newLine depth ++ printIndented depth v ++ newLine (depth - 1) ++ [']']
  | v :: rest => newLine depth ++ printIndented depth v ++ ',' :: indentedItems depth rest

def indentedMembers (depth : Nat) : List (String × Value) → List Char
  | [] => newLine (depth - 1) ++ ['\x7d']
  | [(k, v)] =>
    newLine depth ++ printString k ++ ':' :: ' ' :: printIndented depth v ++ newLine (depth - 1) ++ ['\x7d']
  | (k, v) :: rest =>
    newLine depth ++ printString k ++ ':' :: ' ' :: printIndented depth v ++ ',' :: indentedMembers depth rest

end

def Value.pretty (v : Value) : String := String.ofList (printIndented 0 v)

end PortfolioShell.Json
