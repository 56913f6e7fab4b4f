import PortfolioShell.Shell.Error
import PortfolioShell.Tree.Browse
import PortfolioShell.Tree.Codec

/-! # Output log

What the shell has put out, as numbered records. Numbers are never used again, also when the log has been
cleared, so a number marks a moment in the session. -/

namespace PortfolioShell

inductive Payload where
  | echo (prompt input : String)
  | text (text : String)
  | lines (lines : List String)
  | listing (path : String) (entries : List Entry) (enriched : Bool)
  | content (name : String) (content : Content)
  | diagnostic (kind : DiagnosticKind) (message : String)

namespace Payload

def isDiagnostic : Payload → Bool
  | diagnostic .. => true
  | _ => false

def isEcho : Payload → Bool
  | echo .. => true
  | _ => false

def typeAndData : Payload → String × Json.Value
  | echo prompt input => ("echo", .object [("prompt", .string prompt), ("input", .string input)])
  | text s => ("text", .string s)
  | lines ls => ("lines", .strings ls)
  | listing path entries enriched =>
    ("listing", .object [("path", .string path), ("entries", .array (entries.map Entry.toJson)),
      ("enriched", .bool enriched)])
  | content name c => ("content", .object [("name", .string name), ("content", c.toJson)])
  | diagnostic kind message =>
    ("diagnostic", .object [("kind", .string kind.name), ("message", .string message)])

def toJson (p : Payload) : Json.Value :=
  .object [("type", .string p.typeAndData.1), ("data", p.typeAndData.2)]

end Payload

structure Record where
  id : Nat
  payload : Payload

def Record.toJson (r : Record) : Json.Value := .object [("id", .nat r.id), ("payload", r.payload.toJson)]

structure OutputLog where
  records : List Record
  lastId : Nat

namespace OutputLog

def empty : OutputLog := ⟨[], 0⟩

def push (log : OutputLog) (p : Payload) : OutputLog :=
  ⟨log.records ++ [⟨log.lastId + 1, p⟩], log.lastId + 1⟩

def pushAll (log : OutputLog) (payloads : List Payload) : OutputLog := payloads.foldl push log

def clear (log : OutputLog) : OutputLog := { log with records := [] }

theorem records_push (log : OutputLog) (p : Payload) :
    (log.push p).records = log.records ++ [⟨log.lastId + 1, p⟩] := rfl

theorem lastId_push (log : OutputLog) (p : Payload) : (log.push p).lastId = log.lastId + 1 := rfl

theorem lastId_pushAll (log : OutputLog) (payloads : List Payload) :
    (log.pushAll payloads).lastId = log.lastId + payloads.length := by
  induction payloads generalizing log with
  | nil => rfl
  | cons p rest ih =>
    rw [pushAll, List.foldl_cons, ← pushAll, ih, lastId_push, List.length_cons]
    omega

theorem lastId_clear (log : OutputLog) : log.clear.lastId = log.lastId := rfl

/-- Where the records end that pass a test, looked for by halving between two positions. The answer means
something only if the records that pass the test come first. -/
def partitionPoint (test : Record → Bool) (records : List Record) (low high : Nat) : Nat :=
  if low < high then
    let middle := (low + high) / 2
    if records[middle]?.any test then partitionPoint test records (middle + 1) high
    else partitionPoint test records low middle
  else low
termination_by high - low

def since (log : OutputLog) (id : Nat) : List Record :=
  log.records.drop (partitionPoint (·.id ≤ id) log.records 0 log.records.length)

theorem since_clear (log : OutputLog) (id : Nat) : log.clear.since id = [] := List.drop_nil

end OutputLog

end PortfolioShell
