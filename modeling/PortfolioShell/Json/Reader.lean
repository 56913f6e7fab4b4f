import PortfolioShell.Json.Scanner

/-! # Reading JSON

Readers for whole values. The first fault in the text is the one that is reported. A value that is kept may
nest at most 127 arrays and objects; one that is passed over may nest as deep as it likes. The loops over
items and members take the reader of what stands in them, so that a document of a fixed form is read by
the same loops. -/

namespace PortfolioShell.Json

def depthLimit : Nat := 127

/-! ### Loops -/

/-- Reads items up to the bracket that closes the array; `fuel` bounds their number. -/
def readItems {α : Type} (item : Reader α) : (fuel : Nat) → Reader (List α)
  | 0, _ => .error .truncated
  | fuel + 1, s => do
    let (x, after) ← item s
    match skipBlanks after with
    | [] => .error .truncated
    | ']' :: rest => .ok ([x], rest)
    | ',' :: rest => do
      let (xs, rest) ← readItems item fuel rest
      .ok (x :: xs, rest)
    | _ => .error .malformed

def readArray {α : Type} (item : Reader α) : Reader (List α) := fun s =>
  match skipBlanks s with
  | [] => .error .truncated
  | ']' :: rest => .ok ([], rest)
  | _ => readItems item s.length s

/-- Reads members up to the brace that closes the object. The quote that opens the next key has been read;
`member` reads all that follows a key and adds it to what has been read before. -/
def readMembers {σ : Type} (key : Reader String) (member : σ → String → Reader σ) :
    (fuel : Nat) → σ → Reader σ
  | 0, _, _ => .error .truncated
  | fuel + 1, state, s => do
    let (k, after) ← key s
    let (state, after) ← member state k after
    match skipBlanks after with
    | [] => .error .truncated
    | '\x7d' :: rest => .ok (state, rest)
    | ',' :: rest =>
      match skipBlanks rest with
      | [] => .error .truncated
      | '"' :: rest => readMembers key member fuel state rest
      | _ => .error .malformed
    | _ => .error .malformed

def readObject {σ : Type} (key : Reader String) (member : σ → String → Reader σ) (state : σ) : Reader σ :=
  fun s =>
    match skipBlanks s with
    | [] => .error .truncated
    | '\x7d' :: rest => .ok (state, rest)
    | '"' :: rest => readMembers key member s.length state rest
    | _ => .error .malformed

def afterColon {α : Type} (value : Reader α) : Reader α := fun s =>
  match skipBlanks s with
  | [] => .error .truncated
  | ':' :: rest => value rest
  | _ => .error .malformed

/-! ### Values -/

def readValueWith (array object : Reader Value) : Reader Value := fun s =>
  match skipBlanks s with
  | [] => .error .truncated
  | c :: rest =>
    if c = 'n' then (readWord ['u', 'l', 'l'] rest).map fun (_, s) => (.null, s)
    else if c = 't' then (readWord ['r', 'u', 'e'] rest).map fun (_, s) => (.bool true, s)
    else if c = 'f' then (readWord ['a', 'l', 's', 'e'] rest).map fun (_, s) => (.bool false, s)
    else if c = '"' then (readString rest).map fun (text, s) => (.string text, s)
    else if c = '-' then (readNumber true rest).map fun (n, s) => (.number n, s)
    else if isDigit c then (readNumber false (c :: rest)).map fun (n, s) => (.number n, s)
    else if c = '[' then array rest
    else if c = '\x7b' then object rest
    else .error .malformed

def readValue : (depth : Nat) → Reader Value
  | 0 => readValueWith (fun _ => .error .malformed) (fun _ => .error .malformed)
  | depth + 1 =>
    readValueWith
      (fun s => (readArray (readValue depth) s).map fun (items, s) => (.array items, s))
      (fun s =>
        (readObject readString
          (fun members k => afterColon fun s =>
            (readValue depth s).map fun (v, s) => (members ++ [(k, v)], s)) [] s).map
          fun (members, s) => (.object members, s))

def skipValue : (fuel : Nat) → Reader Unit
  | 0, _ => .error .truncated
  | fuel + 1, s =>
    match skipBlanks s with
    | [] => .error .truncated
    | c :: rest =>
      if c = 'n' then readWord ['u', 'l', 'l'] rest
      else if c = 't' then readWord ['r', 'u', 'e'] rest
      else if c = 'f' then readWord ['a', 'l', 's', 'e'] rest
      else if c = '"' then (skipString rest).map fun (_, s) => ((), s)
      else if c = '-' then skipNumber rest
      else if isDigit c then skipNumber (c :: rest)
      else if c = '[' then (readArray (skipValue fuel) rest).map fun (_, s) => ((), s)
      else if c = '\x7b' then
        readObject skipString (fun _ _ => afterColon (skipValue fuel)) () rest
      else .error .malformed

def ignoreValue : Reader Unit := fun s => skipValue (s.length + 1) s

/-! ### Values of a fixed form -/

/-- Refuses the value that comes next. A fault in it that shows before its form does is reported; an array
or object is refused at its bracket. -/
def refuse {α : Type} : Reader α := fun s =>
  match readValueWith (fun _ => .error .unfit) (fun _ => .error .unfit) s with
  | .ok _ => .error .unfit
  | .error fault => .error fault

def readText : Reader String := fun s =>
  match skipBlanks s with
  | '"' :: rest => readString rest
  | _ => refuse s

def readOptional {α : Type} (value : Reader α) : Reader (Option α) := fun s =>
  match skipBlanks s with
  | 'n' :: rest => (readWord ['u', 'l', 'l'] rest).map fun (_, s) => (none, s)
  | _ => (value s).map fun (x, s) => (some x, s)

def readBool : Reader Bool := fun s =>
  match skipBlanks s with
  | 't' :: rest => (readWord ['r', 'u', 'e'] rest).map fun (_, s) => (true, s)
  | 'f' :: rest => (readWord ['a', 'l', 's', 'e'] rest).map fun (_, s) => (false, s)
  | _ => refuse s

def readUInt64 : Reader UInt64 := fun s => do
  let (v, after) ← readValueWith (fun _ => .error .unfit) (fun _ => .error .unfit) s
  match v with
  | .number (.whole n) => if 0 ≤ n.val then .ok (UInt64.ofNat n.val.toNat, after) else .error .unfit
  | _ => .error .unfit

def readArrayOf {α : Type} (item : Reader α) : Reader (List α) := fun s =>
  match skipBlanks s with
  | '[' :: rest => readArray item rest
  | _ => refuse s

def readObjectOf {σ : Type} (member : σ → String → Reader σ) (state : σ) : Reader σ := fun s =>
  match skipBlanks s with
  | '\x7b' :: rest => readObject readString member state rest
  | _ => refuse s

/-! ### Documents -/

def readDocument {α : Type} (reader : Reader α) (text : String) : Except Fault α := do
  let (x, rest) ← reader text.toList
  if skipBlanks rest = [] then .ok x else .error .malformed

def Value.read (text : String) : Except Fault Value := readDocument (readValue depthLimit) text

end PortfolioShell.Json
