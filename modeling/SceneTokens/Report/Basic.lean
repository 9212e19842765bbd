import SceneTokens.Fault
import SceneTokens.Report.Template

/-!
# Reports

A report is a failure with a registered code, ready to be shown.  Its message ends
with the place of the failure when there is one; `Report.bareMessage` takes a place
at the end of the message off again.

Reports are of three kinds.  A lexer report takes a lexer code and always has a span
and a location, a contract report takes a contract code and has no span, and a
general report takes any code.  Building a report from an identifier fails when the
identifier is not registered or not of the right category, and building one from a template
also when a value of its context has no text.
-/

namespace SceneTokens

open CodeUnit

/-- The kinds of report. -/
inductive ReportKind
  | general
  | lexer
  | contract
  deriving DecidableEq, Repr

/-- The name of a kind of report. -/
def ReportKind.name : ReportKind → Text
  | .general => "SceneError"
  | .lexer => "LexerError"
  | .contract => "ContractError"

/-- A failure to show. -/
structure Report where
  kind : ReportKind
  code : ErrorCode
  message : Text
  location : Option Location
  span : Option Span
  context : Option Context

/-- Why a report cannot be built. -/
inductive ReportError
  | missingId
  | unknownId (id : Text)
  | wrongCategory (expected : Category) (id : Text)
  | withoutText
  deriving DecidableEq, Repr

/-- The wording of a failure to build a report. -/
def ReportError.message : ReportError → Text
  | .missingId => "errorId is required"
  | .unknownId id => "Unknown error ID: " ++ id
  | .wrongCategory expected id =>
    "Expected " ++ expected.name ++ " error ID, got: " ++ id
  | .withoutText => Value.noTextMessage

/-- The code of an identifier. -/
def ErrorCode.find (id : Text) : Except ReportError ErrorCode :=
  match ErrorCode.ofId? id with
  | some code => .ok code
  | none => .error (.unknownId id)

/-- The code of an identifier, which has to be of a category. -/
def ErrorCode.findIn (category : Category) (id : Text) : Except ReportError ErrorCode := do
  let code ← ErrorCode.find id
  if code.category = category then pure code else throw (.wrongCategory category id)

/-! ## The place at the end of a message -/

/-- The end of a message that names a place. -/
def Location.suffix (l : Location) : Text := " at " ++ l.text

/-- A message with the place of the failure, if there is one. -/
def Text.withPlace (message : Text) (location : Option Location) : Text :=
  match location with
  | some l => message ++ l.suffix
  | none => message

/-- A message without the place at its end: ` at `, digits, a colon and digits. -/
def Text.withoutPlace (message : Text) : Text :=
  let reversed := message.reverse
  let column := reversed.takeWhile isDigit
  match reversed.drop column.length with
  | [] => message
  | mark :: afterMark =>
    let line := afterMark.takeWhile isDigit
    if column.isEmpty || mark != colon || line.isEmpty then message
    else
      match Text.dropLeading? (Text.ofString " at ").reverse (afterMark.drop line.length) with
      | some kept => kept.reverse
      | none => message

namespace Report

/-- The message without the place at its end. -/
def bareMessage (r : Report) : Text := Text.withoutPlace r.message

/-! ## Building reports -/

/-- A report of any code. -/
def general (code : ErrorCode) (message : Text) (location : Option Location)
    (span : Option Span) (context : Option Context) : Report :=
  ⟨.general, code, message.withPlace location, location, span, context⟩

/-- A report of malformed source. -/
def lexer (code : ErrorCode) (message : Text) (span : Span) (location : Location)
    (context : Option Context) : Report :=
  ⟨.lexer, code, message.withPlace (some location), some location, some span, context⟩

/-- A report of a broken contract. -/
def contract (code : ErrorCode) (message : Text) (location : Option Location)
    (context : Option Context) : Report :=
  ⟨.contract, code, message.withPlace location, location, none, context⟩

/-- The report of a fault. -/
def ofFault (f : Fault) : Report :=
  match f.span with
  | some span => lexer f.code f.message span f.location f.context
  | none => contract f.code f.message (some f.location) f.context

/-- A report of any registered identifier. -/
def general? (id message : Text) (location : Option Location) (span : Option Span)
    (context : Option Context) : Except ReportError Report :=
  if id.isEmpty then throw .missingId
  else return general (← ErrorCode.find id) message location span context

/-- A report of a lexer identifier, located at the start of its span unless another
location is given. -/
def lexer? (id message : Text) (span : Span) (location : Option Location)
    (context : Option Context) : Except ReportError Report := do
  return lexer (← ErrorCode.findIn .lexer id) message span (location.getD span.start) context

/-- A report of a contract identifier. -/
def contract? (id message : Text) (location : Option Location) (context : Option Context) :
    Except ReportError Report := do
  return contract (← ErrorCode.findIn .contract id) message location context

/-- A report with the message of its code.  Without a span a lexer code gives a general
report. -/
def ofTemplate (code : ErrorCode) (context : Context) (span : Option Span) :
    Except ReportError Report :=
  match Template.render code.definition.template context with
  | none => .error .withoutText
  | some message =>
    match code.category, span with
    | .contract, _ => .ok (contract code message (span.map (·.start)) (some context))
    | .lexer, some s => .ok (lexer code message s s.start (some context))
    | .lexer, none => .ok (general code message none none (some context))

/-- A report of a registered identifier with the message of its code. -/
def ofTemplate? (id : Text) (context : Context) (span : Option Span) :
    Except ReportError Report := do
  ofTemplate (← ErrorCode.find id) context span

end Report

end SceneTokens
