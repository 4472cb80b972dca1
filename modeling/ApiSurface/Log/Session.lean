import ApiSurface.Log.Outputs
import ApiSurface.RunId

/-!
A session of logging: configurations, events and run ids one after the other. Events carry the run
id that is bound when they are logged.
-/

namespace ApiSurface

structure Session where
  logging : Logging := {}
  ids : RunIds := {}

structure Call where
  verb : Verb
  event : Value
  logger : Value := .null
  fields : Entries := []

namespace Call

def hasField (call : Call) (name : Text) : Bool := (call.fields.get? name).isSome

/-- Whether a field has a name that is taken; one name is free below the common level. -/
def isMisnamed (call : Call) (level : Severity) : Bool :=
  call.hasField "event" || call.hasField "self"
    || (call.hasField "method_name" && call.verb.severity.passes level)

/-- An event about an error notes that unless its fields do. -/
def record (call : Call) : LogRecord where
  severity := call.verb.severity
  event := call.event
  logger := call.logger
  fields :=
    if call.verb.isTraced && !call.hasField "exc_info" then call.fields.put "exc_info" (.bool true)
    else call.fields

end Call

inductive Request
  | configure (settings : LogSettings)
  | log (call : Call)
  | foreign (verb : Verb) (event : Value)
  | setId (id : Option Text)
  | clearId
  | compare (id : Option Text) (old new : Traced Snapshot)

abbrev Reply := Except Failure (Option Text)

namespace Session

def writeNotices (session : Session) (time : Text) (notices : List Notice) : Session :=
  { session with logging := notices.foldl (fun logging notice =>
      let event := notice.event
      logging.write time session.ids.current
        { severity := event.severity, event := .text event.name, fields := event.fields }) session.logging }

def compare (session : Session) (time : Text) (id : Option Text) (old new : Snapshot) :
    Session × Reply :=
  match Comparison.checkedHierarchy new none with
  | .error fault => (session, .error (.fault fault))
  | .ok hierarchy =>
    let outcome := Comparison.run old new hierarchy .standard
    let during := { session with ids := (session.ids.enter id).2 }.writeNotices time outcome.notices
    let after := { during with ids := session.ids.restore during.ids }
    (after, outcome.result.map fun comparison => some comparison.summary)

def withSnapshot (session : Session) (time : Text) (snapshot : Traced Snapshot)
    (next : Session → Snapshot → Session × Reply) : Session × Reply :=
  let session := session.writeNotices time snapshot.notices
  match snapshot.result with
  | .error failure => (session, .error failure)
  | .ok snapshot => next session snapshot

def answer (session : Session) (time : Text) : Request → Session × Reply
  | .configure settings =>
    let configured := session.logging.configure settings
    ({ session with logging := configured.1 }, match configured.2 with
      | some failure => .error failure
      | none => .ok none)
  | .log call =>
    if call.isMisnamed session.logging.level then (session, .error .name)
    else
      let logging := session.logging.write time session.ids.current call.record
      ({ session with logging }, .ok none)
  | .foreign verb event =>
    let logging := session.logging.writeForeign time session.ids.current verb event
    ({ session with logging }, .ok none)
  | .setId id => ({ session with ids := (session.ids.set id).2 }, .ok (some (session.ids.set id).1))
  | .clearId => ({ session with ids := session.ids.clear }, .ok none)
  | .compare id old new =>
    session.withSnapshot time old fun session old =>
      session.withSnapshot time new fun session new => session.compare time id old new

end Session

end ApiSurface
