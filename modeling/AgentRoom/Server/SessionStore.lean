import AgentRoom.Lib.Connection
import AgentRoom.Server.Sessions
import Mathlib.Data.Rat.Lemmas

set_option autoImplicit false

/-! # The session store

`SessionStore` keeps two tables on one connection that all requests share. A method is a coroutine:
between two of its statements those of other requests run, and a statement sees whatever any of
them has written. The tables have a primary key each, and a foreign key with a cascade. The sessions
are sorted when they are listed, so that they are read in one step; the tasks of a session come from
an index, row by row. A connection that is not initialised is left out.
-/

namespace AgentRoom

open Connection (Coroutine)

/-- A row of `agent_room_sessions`. -/
structure SessionRow extends SessionRecord where
  createdAt : ℚ
  deriving DecidableEq

/-- A row of `agent_room_session_tasks`. -/
structure SessionTaskLink where
  sessionId : String
  taskId : String
  attachedAt : ℚ
  deriving DecidableEq

structure SessionDb where
  sessions : List SessionRow := []
  links : List SessionTaskLink := []

namespace SessionDb

variable (db : SessionDb)

def session? (id : String) : Option SessionRow := db.sessions.find? (·.id = id)

def link? (sessionId taskId : String) : Option SessionTaskLink :=
  db.links.find? fun l => l.sessionId = sessionId ∧ l.taskId = taskId

/-- `INSERT INTO agent_room_sessions`. A row whose id is taken is refused. -/
def insertSession (row : SessionRow) : SessionDb :=
  if (db.session? row.id).isSome then db else { db with sessions := db.sessions ++ [row] }

/-- `DELETE FROM agent_room_sessions WHERE id = ?`, with `ON DELETE CASCADE`. -/
def deleteSession (id : String) : SessionDb where
  sessions := db.sessions.filter (·.id ≠ id)
  links := db.links.filter (·.sessionId ≠ id)

/-- `INSERT OR IGNORE INTO agent_room_session_tasks`. A link that is there is ignored, and one to
a session that is not is refused. -/
def insertLink (link : SessionTaskLink) : SessionDb :=
  if (db.session? link.sessionId).isSome ∧ db.link? link.sessionId link.taskId = none then
    { db with links := db.links ++ [link] }
  else db

end SessionDb

/-- `ORDER BY ... DESC`. Which of two rows with the same time comes first is up to the database. -/
def newestFirst {β : Type*} (time : β → ℚ) (rows : List β) : List β :=
  rows.mergeSort fun a b => decide (time b ≤ time a)

/-- The links of a session in the order of their index. -/
def SessionDb.linksOf (db : SessionDb) (sessionId : String) : List SessionTaskLink :=
  newestFirst SessionTaskLink.attachedAt (db.links.filter (·.sessionId = sessionId))

/-- A row that a cursor on `link` comes to. -/
def SessionTaskLink.Before (link other : SessionTaskLink) : Prop :=
  other ≠ link ∧ other.attachedAt ≤ link.attachedAt

instance (link other : SessionTaskLink) : Decidable (link.Before other) :=
  inferInstanceAs (Decidable (_ ∧ _))

/-- A call of a method with the id and the time it draws. -/
inductive SessionCall
  | create (name : String) (sessionId : Option String) (tenantId newId : String) (now : ℚ)
  | get (sessionId : String)
  | listAll (tenantId : Option String)
  | delete (sessionId : String)
  | attachTask (sessionId taskId : String) (now : ℚ)
  | listTasks (sessionId : String)

/-- `sqlite3.OperationalError` is raised while another connection holds the file. -/
inductive SessionError
  | valueError
  | integrityError
  | operationalError
  deriving DecidableEq

inductive SessionReply
  | created (record : SessionRow)
  | found (record : Option SessionRow)
  | sessions (records : List SessionRow)
  | removed (removed : Bool)
  | attached (attached : Bool)
  | tasks (links : List SessionTaskLink)
  | raised (e : SessionError)

namespace SessionStore

/-- `session_id or new_session_id()`. -/
def sessionIdOr (sessionId : Option String) (newId : String) : String :=
  match sessionId with
  | some id => if id = "" then newId else id
  | none => newId

def create (name : String) (sessionId : Option String) (tenantId newId : String) (now : ℚ) :
    Coroutine SessionDb SessionReply :=
  let clean := Py.strip name
  if clean = "" then .done (.raised .valueError)
  else
    let row : SessionRow :=
      { id := sessionIdOr sessionId newId, name := clean, tenantId, createdAt := now }
    .exec (·.insertSession row) fun db =>
      if (db.session? row.id).isSome then .done (.raised .integrityError)
      else .commit (.done (.created row))

def get (sessionId : String) : Coroutine SessionDb SessionReply :=
  .exec id fun db => .done (.found (db.session? sessionId))

def listAll (tenantId : Option String) : Coroutine SessionDb SessionReply :=
  .exec id fun db =>
    let rows := match tenantId with
      | none => db.sessions
      | some tenant => db.sessions.filter (·.tenantId = tenant)
    .done (.sessions (newestFirst SessionRow.createdAt rows))

def delete (sessionId : String) : Coroutine SessionDb SessionReply :=
  .exec (·.deleteSession sessionId) fun db =>
    .commit (.done (.removed (db.session? sessionId).isSome))

/-- The session is looked up and the link inserted in two statements. -/
def attachTask (sessionId taskId : String) (now : ℚ) : Coroutine SessionDb SessionReply :=
  .exec id fun db =>
    if (db.session? sessionId).isNone then .done (.attached false)
    else
      .exec (·.insertLink { sessionId, taskId, attachedAt := now }) fun db =>
        if (db.session? sessionId).isNone then .done (.raised .integrityError)
        else .commit (.done (.attached true))

/-- `execute` finds the first row, and `fetchall` reads the others as the table is by then. -/
def listTasks (sessionId : String) : Coroutine SessionDb SessionReply :=
  .exec id fun db =>
    match db.linksOf sessionId with
    | [] => .done (.tasks [])
    | first :: _ =>
        .exec id fun db =>
          .done (.tasks (first :: (db.linksOf sessionId).filter (first.Before ·)))

end SessionStore

/-- The coroutine of a call. -/
def SessionCall.start : SessionCall → Coroutine SessionDb SessionReply
  | create name sessionId tenantId newId now =>
      SessionStore.create name sessionId tenantId newId now
  | get sessionId => SessionStore.get sessionId
  | listAll tenantId => SessionStore.listAll tenantId
  | delete sessionId => SessionStore.delete sessionId
  | attachTask sessionId taskId now => SessionStore.attachTask sessionId taskId now
  | listTasks sessionId => SessionStore.listTasks sessionId

end AgentRoom
