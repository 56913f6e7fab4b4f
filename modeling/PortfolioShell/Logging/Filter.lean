import PortfolioShell.Decimal.Numeral
import PortfolioShell.Logging.Event
import PortfolioShell.Pattern.Support
import PortfolioShell.Text.Bytes
import PortfolioShell.Text.Letter
import PortfolioShell.Text.Lines
import PortfolioShell.Text.Lowercase

/-! # Log filters

Which events a log keeps. A filter is a list of directives between commas. A directive is a threshold, a
target, or both as `target=threshold`; a target may be followed by a span and a field in brackets, as in
`target[span{field=value}]=threshold`, where the value is a number or a pattern that can be matched. Of the
directives that concern an event the most specific one decides. -/

namespace PortfolioShell.Logging

inductive FilterError where
  | invalidDirective
  | invalidField (fault : Pattern.Fault)
  | invalidLevel
  deriving DecidableEq, Repr

def FilterError.message : FilterError → String
  | invalidDirective => "invalid filter directive"
  | invalidField fault => "invalid field filter: " ++ fault.message
  | invalidLevel =>
    "error parsing level filter: expected one of \"off\", \"error\", \"warn\", \"info\", " ++
      "\"debug\", \"trace\", or a number 0-5"

structure Directive where
  target : Option String
  span : Option String
  field : Option String
  threshold : Threshold
  deriving DecidableEq, Repr

/-! ### Reading -/

def thresholdOfNumber? (s : List Char) : Option Threshold :=
  let digits := if s.head? = some '+' then s.drop 1 else s
  if digits ≠ [] && digits.all Char.isDigit then
    (thresholds.map (·.2))[Nat.ofDigitChars 10 digits 0]?
  else none

def thresholdOf? (s : String) : Option Threshold :=
  (thresholdOfNumber? s.toList).or
    ((thresholds.find? fun (name, _) => Text.equalIgnoringAsciiCase name s).map (·.2))

def slice (first last : Nat) (s : List Char) : String := String.ofList (Text.bytesBetween first last s)

def startsDirective (c : Char) : Bool := ['[', '-', ':', '_'].contains c || Text.isAlphanumeric c

def readThreshold (s : String) : Except FilterError Threshold :=
  if s = "" then .ok (some .trace)
  else match thresholdOf? s with
    | some t => .ok t
    | none => .error .invalidLevel

def fieldValue? (field : String) : Option String := (Text.split '=' field)[1]?

def readField (text : String) : Except FilterError String :=
  if text = "" then .error .invalidDirective
  else match (fieldValue? text).bind fun v => if Decimal.isNumeral v then none else Pattern.fault? v with
    | some fault => .error (.invalidField fault)
    | none => .ok text

namespace Directive

def everything : Directive := ⟨none, none, none, some .trace⟩

/- A directive is cut at the marks of its text without the blanks around it, but its parts are taken from
the whole text by the same offsets. In the readers `whole` is that text and `offset` the number of bytes
that have been read. -/

def readAfterSpan (whole : List Char) (offset : Nat) (d : Directive) : List Char → Except FilterError Directive
  | [] => .ok d
  | '=' :: _ => do
    let threshold ← readThreshold (slice (offset + 1) (Text.byteCount whole) whole)
    .ok { d with threshold }
  | _ => .error .invalidDirective

def readSpan (whole : List Char) (offset : Nat) (d : Directive) (s : List Char) :
    Except FilterError Directive :=
  let name := s.takeWhile fun c => c ≠ ']' && c ≠ '\x7b'
  let afterName := offset + Text.byteCount name
  let span := slice offset afterName whole
  match s.drop name.length with
  | ']' :: rest => readAfterSpan whole (afterName + 1) { d with span := some span } rest
  | '\x7b' :: rest =>
    let field := rest.takeWhile (· ≠ '\x7d')
    let afterField := afterName + 1 + Text.byteCount field
    match rest.drop field.length with
    | '\x7d' :: rest => do
      let field ← readField (slice (afterName + 1) afterField whole)
      match rest with
      | ']' :: rest =>
        readAfterSpan whole (afterField + 2)
          { d with span := if span = "" then none else some span, field := some field } rest
      | _ => .error .invalidDirective
    | _ => .error .invalidDirective
  | _ => .error .invalidDirective

/-- The directive that a text writes. A lone word is a threshold if it names one, and else a target. -/
def read (text : String) : Except FilterError Directive :=
  let whole := text.toList
  let s := Text.dropEnds whole
  match s with
  | [] => .error .invalidDirective
  | c :: rest =>
    if !startsDirective c then .error .invalidDirective
    else if c = '[' then readSpan whole 1 everything rest
    else
      let head := s.takeWhile fun c => c ≠ '=' && c ≠ '['
      let offset := Text.byteCount head
      let targeted := { everything with target := some (slice 0 offset whole) }
      match s.drop head.length with
      | '[' :: rest => readSpan whole (offset + 1) targeted rest
      | [] =>
        match thresholdOf? text with
        | some threshold => .ok { everything with threshold }
        | none => .ok { everything with target := some text }
      | rest => readAfterSpan whole offset targeted rest

/-! ### Which events a directive concerns -/

def isPlain (d : Directive) : Bool := d.span.isNone && d.field.all (!·.toList.contains '=')

def hasField (e : Event) (field : String) : Bool :=
  field = "message" || (e.fields.map (·.1)).contains field

def concerns (d : Directive) (e : Event) : Bool :=
  d.target.all (fun t => t.toList.isPrefixOf e.source.name.toList) && d.field.all (hasField e)

def targetRank (d : Directive) : Nat := (d.target.map (·.utf8ByteSize + 1)).getD 0

/-- Is `d` at least as specific as `other`? A longer target is more specific than a shorter one, then a
directive with a field than one without, and of two fields the one that comes later in order. -/
def isAsSpecific (d other : Directive) : Bool :=
  other.targetRank < d.targetRank ||
    other.targetRank = d.targetRank &&
      match other.field, d.field with
      | none, _ => true
      | some _, none => false
      | some otherField, some field => !(field < otherField : Bool)

end Directive

/-! ### Filters -/

structure Filter where
  directives : List Directive
  deriving DecidableEq, Repr

namespace Filter

def read (text : String) : Except FilterError Filter := do
  let directives ← ((Text.split ',' text).filter (· ≠ "")).mapM Directive.read
  .ok ⟨if directives = [] then [{ Directive.everything with threshold := some .error }] else directives⟩

/-- Of the directives that concern an event the most specific one, of equal ones the last. -/
def deciding? (f : Filter) (e : Event) : Option Directive :=
  (f.directives.filter fun d => d.isPlain && d.concerns e).foldl
    (fun best d => if best.all d.isAsSpecific then some d else best) none

def allows (f : Filter) (e : Event) : Bool := (f.deciding? e).any (·.threshold.allows e.level)

end Filter

end PortfolioShell.Logging
