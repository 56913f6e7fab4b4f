import PortfolioShell.Json.Reader

/-! # Reading records

A record with named fields is written as an object, or as an array of its fields in order. In an object the
fields may come in any order, each at most once, and unknown members are passed over; in an array the last
fields may be missing. Fields that are missing keep the value they had before. -/

namespace PortfolioShell.Json

structure Field (σ : Type) where
  key : String
  read : σ → Reader σ

def Field.of {σ α : Type} (key : String) (value : Reader α) (put : σ → α → σ) : Field σ where
  key := key
  read record := fun s => (value s).map fun (x, s) => (put record x, s)

/-- Reads a member of an object; the names of the fields that have been read are in `seen`. -/
def readField {σ : Type} (fields : List (Field σ)) (state : List String × σ) (key : String) :
    Reader (List String × σ) := fun s =>
  match fields.find? (·.key = key) with
  | none => (afterColon ignoreValue s).map fun (_, s) => (state, s)
  | some field =>
    if state.1.contains key then .error .unfit
    else (afterColon (field.read state.2) s).map fun (record, s) => ((key :: state.1, record), s)

def readFieldsInOrder {σ : Type} : List (Field σ) → (first : Bool) → σ → Reader σ
  | [], _, record, s =>
    match skipBlanks s with
    | [] => .error .truncated
    | ']' :: rest => .ok (record, rest)
    | _ => .error .malformed
  | field :: fields, first, record, s =>
    match skipBlanks s with
    | [] => .error .truncated
    | ']' :: rest => .ok (record, rest)
    | c :: rest =>
      if first then do
        let (record, after) ← field.read record (c :: rest)
        readFieldsInOrder fields false record after
      else if c = ',' then do
        let (record, after) ← field.read record rest
        readFieldsInOrder fields false record after
      else .error .malformed

def readRecord {σ : Type} (fields : List (Field σ)) (record : σ) : Reader σ := fun s =>
  match skipBlanks s with
  | '[' :: rest => readFieldsInOrder fields true record rest
  | '\x7b' :: rest =>
    (readObject readString (readField fields) ([], record) rest).map fun (state, s) => (state.2, s)
  | _ => refuse s

end PortfolioShell.Json
