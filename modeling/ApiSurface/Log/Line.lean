import ApiSurface.Json.Writer
import ApiSurface.Settings
import ApiSurface.Text.Lines

/-!
The lines that are written for an event. A line of JSON holds all data of the event; a line for
people names time, level, event and logger first, and the other fields by their names in order.
-/

namespace ApiSurface

structure LogRecord where
  severity : Severity
  event : Value
  logger : Value := .null
  fields : Entries := []

namespace LogRecord

/-- Names that only serve the way of an event to its lines. -/
def passingNames : List Text := ["_record", "_from_structlog"]

/-- All data of an event. Level, time and run id replace fields of these names; the name of the
logger does not. -/
def entries (record : LogRecord) (time : Text) (runId : Option Text) : Entries :=
  let named : Entries := if record.logger.isBlank then [] else [("logger", record.logger)]
  let given := record.fields.foldl (fun entries field => entries.put field.1 field.2) named
  let told : Entries := match record.event with
    | .null => given
    | event => given.put "event" event
  let data := (told.put "level" record.severity.word).put "timestamp" time
  match runId with
  | none => data
  | some id => data.put "run_id" id

def written (entries : Entries) : Entries :=
  entries.filter fun entry => !passingNames.any fun name => entry.1.sameKey name

end LogRecord

namespace Console

/-- Texts that could be taken for more than one word are quoted, like texts inside collections. -/
def isAmbiguous (text : Text) : Bool :=
  text.any fun point =>
    [' ', '\t', '=', '\r', '\n', '"', '\''].any fun char => CodePoint.ofChar char == point

def fieldText : Value → Text
  | .text content => if isAmbiguous content then content.quoted else content
  | value => value.written

def bracketed (value : Value) : Text := "[" ++ value.shown ++ "]"

def columns : List (Text × (Value → Text)) :=
  [("timestamp", Value.shown), ("level", bracketed), ("event", Value.shown), ("logger", bracketed),
    ("logger_name", bracketed)]

def appendixNames : List Text := ["stack", "exception", "exc_info"]

def namedFields (entries : Entries) : List (Text × Value) :=
  entries.filterMap fun entry =>
    match entry.1 with
    | .text name => some (name, entry.2)
    | _ => none

def otherFields (entries : Entries) : List (Text × Value) :=
  ((namedFields entries).filter fun field =>
    !(columns.map (·.1)).contains field.1 && !appendixNames.contains field.1).mergeSort
      fun left right => (compare left.1 right.1).isLE

def withoutEnd (text : Text) : Text :=
  (text.reverse.dropWhile (· == CodePoint.ofChar ' ')).reverse

def mainLine (entries : Entries) : Text :=
  let first := columns.filterMap fun column => (entries.get? column.1).map column.2
  let others := (otherFields entries).map fun field => field.1 ++ "=" ++ fieldText field.2
  withoutEnd (Text.join " " ((first ++ others).filter (!·.isEmpty)))

def rule : Text := List.replicate 79 (CodePoint.ofChar '=')

def givenText? (entries : Entries) (name : Text) : Option Text :=
  match entries.get? name with
  | some (.text content) => some content
  | _ => none

/-- Traces of an event follow its line; a rule stands between a stack and an error. -/
def appendix (entries : Entries) : Text :=
  let stack := givenText? entries "stack"
  let trace := givenText? entries "exception"
  let isTraced := trace.isSome || !((entries.get? "exc_info").getD .null).isBlank
  let divider : Text := if stack.isSome && isTraced then "\n\n" ++ rule ++ "\n" else []
  (stack.map (Text.lineFeed :: ·)).getD [] ++ divider ++ (trace.map (Text.lineFeed :: ·)).getD []

def text (entries : Entries) : Text := mainLine entries ++ appendix entries

end Console

namespace LineForm

def lines (form : LineForm) (entries : Entries) : List Text :=
  match form with
  | .json => [Text.ofChars (Json.written (.map entries))]
  | .console => (Console.text entries).closedLines

end LineForm

end ApiSurface
