import AgentRoom.Server.SessionStore
import Mathlib.Data.List.Nodup

set_option autoImplicit false

/-! # The session store is atomic

What the session store is for: sessions by their id, each with the tasks attached to it
(`Sessions`). Its methods run several statements between those of others, look a session up
before they link a task to it, and commit what others have written. Still each of them but the
listing of a session's tasks, which is read while others write, is one operation on the sessions at
one moment, and what was replied to is kept over a crash (`session_store_atomic`).
-/

namespace AgentRoom

open Connection
open Transition (Run)

/-! ## Sessions -/

/-- A session, and when its tasks were attached. -/
structure Session where
  name : String
  tenantId : String
  createdAt : ℚ
  tasks : String → Option ℚ := fun _ => none

abbrev Sessions := String → Option Session

def Session.row (id : String) (s : Session) : SessionRow :=
  { id, name := s.name, tenantId := s.tenantId, createdAt := s.createdAt }

/-- A task that is attached already keeps its time. -/
def Session.attach (s : Session) (taskId : String) (now : ℚ) : Session :=
  { s with tasks := Function.update s.tasks taskId (some ((s.tasks taskId).getD now)) }

/-- The list has what `P` says, each once and the newest first. -/
structure Lists {β : Type*} (time : β → ℚ) (P : β → Prop) (l : List β) : Prop where
  nodup : l.Nodup
  mem_iff : ∀ b, b ∈ l ↔ P b
  newest_first : l.Pairwise fun b b' => time b' ≤ time b

/-- **What a call does**: its reply, and the sessions after it. Of the tasks of a session, only that
they are its own and the newest come first. -/
inductive SessionCall.Does : SessionCall → Sessions → SessionReply → Sessions → Prop
  | unnamed {m : Sessions} {name tenantId newId : String} {sessionId : Option String} {now : ℚ}
      (h : Py.strip name = "") :
      Does (.create name sessionId tenantId newId now) m (.raised .valueError) m
  | taken {m : Sessions} {name tenantId newId : String} {sessionId : Option String} {now : ℚ}
      (h : Py.strip name ≠ "") (hid : m (SessionStore.sessionIdOr sessionId newId) ≠ none) :
      Does (.create name sessionId tenantId newId now) m (.raised .integrityError) m
  | created {m : Sessions} {name tenantId newId id : String} {sessionId : Option String} {now : ℚ}
      {s : Session} (h : Py.strip name ≠ "") (hid : SessionStore.sessionIdOr sessionId newId = id)
      (hnew : m id = none) (hs : s = { name := Py.strip name, tenantId, createdAt := now }) :
      Does (.create name sessionId tenantId newId now) m (.created (s.row id))
        (Function.update m id (some s))
  | found {m : Sessions} {id : String} :
      Does (.get id) m (.found ((m id).map (Session.row id))) m
  | listed {m : Sessions} {tenantId : Option String} {rows : List SessionRow}
      (h : Lists SessionRow.createdAt (fun row => (∃ s, m row.id = some s ∧ row = s.row row.id) ∧
        ∀ tenant, tenantId = some tenant → row.tenantId = tenant) rows) :
      Does (.listAll tenantId) m (.sessions rows) m
  | deleted {m : Sessions} {id : String} :
      Does (.delete id) m (.removed (m id).isSome) (Function.update m id none)
  | missing {m : Sessions} {id taskId : String} {now : ℚ} (h : m id = none) :
      Does (.attachTask id taskId now) m (.attached false) m
  /-- The session has been deleted since `attach_task` looked it up. -/
  | lost {m : Sessions} {id taskId : String} {now : ℚ} (h : m id = none) :
      Does (.attachTask id taskId now) m (.raised .integrityError) m
  | attached {m : Sessions} {id taskId : String} {now : ℚ} {s : Session} (h : m id = some s) :
      Does (.attachTask id taskId now) m (.attached true)
        (Function.update m id (some (s.attach taskId now)))
  | tasks {m : Sessions} {id : String} {links : List SessionTaskLink}
      (h : Lists SessionTaskLink.attachedAt (· ∈ links) links)
      (hid : ∀ link ∈ links, link.sessionId = id) : Does (.listTasks id) m (.tasks links) m

/-! ## The tables as sessions -/

/-- Where a key tells the rows apart, a row is found under its key. -/
theorem find?_key_of_mem {β κ : Type*} [DecidableEq κ] {key : β → κ} {rows : List β}
    (hkeys : (rows.map key).Nodup) {row : β} (h : row ∈ rows) :
    rows.find? (fun r => key r = key row) = some row := by
  induction rows with
  | nil => cases h
  | cons r rest ih =>
      obtain ⟨hr, hrest⟩ := List.nodup_cons.mp hkeys
      rcases List.mem_cons.mp h with rfl | hmem
      · rw [List.find?_cons_of_pos (by simp)]
      · have hne : key r ≠ key row := fun heq => hr (heq ▸ List.mem_map_of_mem hmem)
        rw [List.find?_cons_of_neg (by simpa using hne), ih hrest hmem]

namespace SessionDb

/-- The keys tell the rows apart, and every link is one to a session. -/
structure Intact (db : SessionDb) : Prop where
  ids : (db.sessions.map fun row => row.id).Nodup
  keys : (db.links.map fun link => (link.sessionId, link.taskId)).Nodup
  referenced : ∀ link ∈ db.links, db.session? link.sessionId ≠ none

/-- The sessions that the tables stand for. -/
def view (db : SessionDb) : Sessions := fun id =>
  (db.session? id).map fun row =>
    { name := row.name
      tenantId := row.tenantId
      createdAt := row.createdAt
      tasks := fun taskId => (db.link? id taskId).map SessionTaskLink.attachedAt }

/-- The rows as they stand in the requests about sessions. -/
def table (db : SessionDb) : SessionTable := db.sessions.map SessionRow.toSessionRecord

variable {db : SessionDb} {id : String}

theorem session?_eq_none : db.session? id = none ↔ ∀ row ∈ db.sessions, row.id ≠ id := by
  simp [session?, List.find?_eq_none]

theorem id_of_session? {row : SessionRow} (h : db.session? id = some row) : row.id = id := by
  simpa using List.find?_some h

theorem view_eq_none : db.view id = none ↔ db.session? id = none := Option.map_eq_none_iff

theorem view_isSome : (db.view id).isSome = (db.session? id).isSome := Option.isSome_map ..

/-- A row says what its session is. -/
theorem session?_eq : db.session? id = (db.view id).map (Session.row id) := by
  rw [view, Option.map_map]
  cases h : db.session? id with
  | none => rfl
  | some row =>
      obtain rfl := id_of_session? h
      rfl

/-! ## Statement by statement -/

theorem insertSession_of_new {row : SessionRow} (hnew : db.session? row.id = none) :
    db.insertSession row = { db with sessions := db.sessions ++ [row] } := by
  simp [insertSession, hnew]

theorem insertSession_of_taken {row : SessionRow} (h : db.session? row.id ≠ none) :
    db.insertSession row = db :=
  if_pos (Option.isSome_iff_ne_none.mpr h)

theorem session?_insertSession {row : SessionRow} (hnew : db.session? row.id = none)
    (other : String) : (db.insertSession row).session? other =
      if other = row.id then some row else db.session? other := by
  rw [insertSession_of_new hnew]
  by_cases hother : other = row.id
  · rw [if_pos hother, hother, session?, List.find?_append, ← session?, hnew]
    simp
  · rw [if_neg hother, session?, List.find?_append, ← session?]
    simp [Ne.symm hother]

theorem Intact.insertSession (h : db.Intact) (row : SessionRow) :
    (db.insertSession row).Intact := by
  by_cases hnew : db.session? row.id = none
  · have hsession := session?_insertSession hnew
    rw [insertSession_of_new hnew] at hsession ⊢
    refine ⟨?_, h.keys, fun link hlink => ?_⟩
    · have hids : row.id ∉ db.sessions.map fun row => row.id := by
        rintro hmem
        obtain ⟨other, hother, hid⟩ := List.mem_map.mp hmem
        exact session?_eq_none.mp hnew other hother hid
      rw [List.map_append, List.map_singleton, ← List.concat_eq_append]
      exact h.ids.concat hids
    · rw [hsession]
      split_ifs
      · simp
      · exact h.referenced link hlink
  · rw [insertSession_of_taken hnew]
    exact h

theorem link?_of_missing (h : db.Intact) (hid : db.session? id = none) (taskId : String) :
    db.link? id taskId = none := by
  rw [link?, List.find?_eq_none]
  intro link hlink
  have hne : link.sessionId ≠ id := by
    rintro rfl
    exact h.referenced link hlink hid
  simp [hne]

/-- A session that is created has no tasks, also under an id that was used before. -/
theorem view_insertSession (h : db.Intact) {row : SessionRow} (hnew : db.session? row.id = none) :
    (db.insertSession row).view = Function.update db.view row.id
      (some { name := row.name, tenantId := row.tenantId, createdAt := row.createdAt }) := by
  funext other
  have hlink : ∀ taskId, (db.insertSession row).link? other taskId = db.link? other taskId := by
    intro taskId
    rw [insertSession_of_new hnew]
    rfl
  by_cases hother : other = row.id
  · rw [hother] at hlink ⊢
    simp only [view, session?_insertSession hnew, if_true, Option.map_some, hlink,
      link?_of_missing h hnew, Option.map_none, Function.update_self]
  · simp only [view, session?_insertSession hnew, if_neg hother, hlink,
      Function.update_of_ne hother]

theorem session?_deleteSession (db : SessionDb) (id other : String) :
    (db.deleteSession id).session? other = if other = id then none else db.session? other := by
  rw [session?, deleteSession, List.find?_filter]
  by_cases hother : other = id
  · rw [if_pos hother, List.find?_eq_none]
    rintro row -
    simp [hother]
  · rw [if_neg hother, session?]
    congr 1
    funext row
    by_cases hrow : row.id = other <;> simp [hrow, hother]

theorem link?_deleteSession {other : String} (db : SessionDb) (hother : other ≠ id)
    (taskId : String) : (db.deleteSession id).link? other taskId = db.link? other taskId := by
  rw [link?, deleteSession, List.find?_filter, link?]
  congr 1
  funext link
  by_cases hlink : link.sessionId = other <;> simp [hlink, hother]

theorem Intact.deleteSession (h : db.Intact) (id : String) : (db.deleteSession id).Intact where
  ids := h.ids.sublist (List.filter_sublist.map _)
  keys := h.keys.sublist (List.filter_sublist.map _)
  referenced link hlink := by
    obtain ⟨hmem, hne⟩ := List.mem_filter.mp hlink
    rw [session?_deleteSession, if_neg (of_decide_eq_true hne)]
    exact h.referenced link hmem

theorem view_deleteSession (db : SessionDb) (id : String) :
    (db.deleteSession id).view = Function.update db.view id none := by
  funext other
  by_cases hother : other = id
  · rw [hother, Function.update_self, view_eq_none, session?_deleteSession, if_pos rfl]
  · simp only [view, session?_deleteSession, if_neg hother, link?_deleteSession db hother,
      Function.update_of_ne hother]

theorem insertLink_of_missing {link : SessionTaskLink} (h : db.session? link.sessionId = none) :
    db.insertLink link = db := by
  simp [insertLink, h]

theorem link?_eq_none {taskId : String} : db.link? id taskId = none ↔
    (id, taskId) ∉ db.links.map fun link => (link.sessionId, link.taskId) := by
  simp [link?, List.find?_eq_none]

theorem Intact.insertLink (h : db.Intact) (link : SessionTaskLink) :
    (db.insertLink link).Intact := by
  unfold SessionDb.insertLink
  split_ifs with hnew
  · obtain ⟨hsession, hlink⟩ := hnew
    refine ⟨h.ids, ?_, fun other hother => ?_⟩
    · rw [List.map_append, List.map_singleton, ← List.concat_eq_append]
      exact h.keys.concat (link?_eq_none.mp hlink)
    · rcases List.mem_append.mp hother with hold | hnew
      · exact h.referenced other hold
      · rw [List.mem_singleton.mp hnew]
        exact Option.isSome_iff_ne_none.mp hsession
  · exact h

theorem session?_insertLink (db : SessionDb) (link : SessionTaskLink) (id : String) :
    (db.insertLink link).session? id = db.session? id := by
  unfold insertLink
  split_ifs <;> rfl

/-- A link is added once, and stays as it was then. -/
theorem link?_insertLink {link : SessionTaskLink} (h : db.session? link.sessionId ≠ none)
    (id taskId : String) : (db.insertLink link).link? id taskId =
      if id = link.sessionId ∧ taskId = link.taskId then some ((db.link? id taskId).getD link)
      else db.link? id taskId := by
  have hsome : (db.session? link.sessionId).isSome = true := Option.isSome_iff_ne_none.mpr h
  by_cases hold : db.link? link.sessionId link.taskId = none
  · rw [SessionDb.insertLink, if_pos ⟨hsome, hold⟩, link?, List.find?_append, ← link?]
    by_cases hkey : id = link.sessionId ∧ taskId = link.taskId
    · obtain ⟨rfl, rfl⟩ := hkey
      simp [hold]
    · have hne : ¬ (link.sessionId = id ∧ link.taskId = taskId) :=
        fun h => hkey ⟨h.1.symm, h.2.symm⟩
      simp [hkey, hne]
  · rw [SessionDb.insertLink, if_neg fun hnew => hold hnew.2]
    split_ifs with hkey
    · obtain ⟨rfl, rfl⟩ := hkey
      obtain ⟨there, hthere⟩ := Option.ne_none_iff_exists'.mp hold
      rw [hthere, Option.getD_some]
    · rfl

theorem view_insertLink (db : SessionDb) {link : SessionTaskLink} {s : Session}
    (hs : db.view link.sessionId = some s) :
    (db.insertLink link).view =
      Function.update db.view link.sessionId (some (s.attach link.taskId link.attachedAt)) := by
  obtain ⟨row, hrow, hsession⟩ := Option.map_eq_some_iff.mp hs
  have hthere : db.session? link.sessionId ≠ none := by simp [hrow]
  have htasks : (fun taskId => (if taskId = link.taskId then
        some ((db.link? link.sessionId taskId).getD link) else db.link? link.sessionId taskId).map
          SessionTaskLink.attachedAt) =
      (s.attach link.taskId link.attachedAt).tasks := by
    funext taskId
    rw [← hsession]
    by_cases htask : taskId = link.taskId
    · rw [htask]
      cases hold : db.link? link.sessionId link.taskId <;> simp [Session.attach, hold]
    · simp [Session.attach, htask]
  funext other
  by_cases hother : other = link.sessionId
  · rw [hother, Function.update_self]
    simp only [view, session?_insertLink, hrow, Option.map_some, link?_insertLink hthere, true_and]
    rw [htasks, ← hsession]
    rfl
  · simp only [view, session?_insertLink, link?_insertLink hthere, hother, false_and, if_false,
      Function.update_of_ne hother]

/-! ## Listings -/

theorem Intact.mem_sessions (h : db.Intact) {row : SessionRow} :
    row ∈ db.sessions ↔ ∃ s, db.view row.id = some s ∧ row = s.row row.id := by
  constructor
  · intro hmem
    have hrow : db.session? row.id = some row := find?_key_of_mem h.ids hmem
    exact ⟨_, by rw [view, hrow]; rfl, rfl⟩
  · rintro ⟨s, hs, hrow⟩
    obtain ⟨there, hthere, rfl⟩ := Option.map_eq_some_iff.mp hs
    have hsame : row = there := by
      rw [hrow, ← id_of_session? hthere]
      rfl
    exact hsame ▸ List.mem_of_find?_eq_some hthere

end SessionDb

theorem Lists.of_iff {β : Type*} {time : β → ℚ} {P Q : β → Prop} {l : List β}
    (h : Lists time P l) (hiff : ∀ b, P b ↔ Q b) : Lists time Q l :=
  ⟨h.nodup, fun b => (h.mem_iff b).trans (hiff b), h.newest_first⟩

theorem lists_newestFirst {β : Type*} (time : β → ℚ) {rows : List β} (hrows : rows.Nodup) :
    Lists time (· ∈ rows) (newestFirst time rows) where
  nodup := (List.mergeSort_perm rows _).nodup_iff.mpr hrows
  mem_iff _ := List.mem_mergeSort
  newest_first := by
    have hsorted : (newestFirst time rows).Pairwise fun a b => decide (time b ≤ time a) :=
      List.pairwise_mergeSort
        (fun a b c hab hbc => decide_eq_true
          ((of_decide_eq_true hbc).trans (of_decide_eq_true hab)))
        (fun a b => by simpa using le_total (time b) (time a)) rows
    exact hsorted.imp of_decide_eq_true

/-! ## Method by method -/

section Methods

variable {op : SessionCall}

/-- A call is tracked by the sessions. -/
abbrev Tracked (op : SessionCall) : Prop :=
  Connection.Tracks SessionDb.view SessionDb.Intact SessionCall.Does op.start (.pending op)

/-- A call that only reads. -/
theorem tracks_select {reply : SessionDb → SessionReply}
    (h : ∀ db : SessionDb, db.Intact → op.Does db.view (reply db) db.view) :
    Connection.Tracks SessionDb.view SessionDb.Intact SessionCall.Does
      (.exec id fun db => .done (reply db)) (.pending op) :=
  .exec (fun db => .applied (reply db) true) (fun _ hdb => hdb)
    (fun db hdb => .unchanged (h db hdb)) fun _ _ => .done

theorem tracked_get (sessionId : String) : Tracked (.get sessionId) := by
  refine tracks_select fun db _ => ?_
  rw [SessionDb.session?_eq]
  exact .found

theorem tracked_listAll (tenantId : Option String) : Tracked (.listAll tenantId) := by
  refine tracks_select fun db hdb => .listed ?_
  have hrows : db.sessions.Nodup := hdb.ids.of_map _
  cases tenantId with
  | none =>
      refine (lists_newestFirst _ hrows).of_iff fun row => ?_
      simp [hdb.mem_sessions]
  | some tenant =>
      refine (lists_newestFirst _ (hrows.filter _)).of_iff fun row => ?_
      simp [hdb.mem_sessions]

/-- The links of a session, as the index has them. -/
theorem SessionDb.Intact.lists_linksOf {db : SessionDb} (hdb : db.Intact) (sessionId : String) :
    Lists SessionTaskLink.attachedAt (· ∈ db.linksOf sessionId) (db.linksOf sessionId) ∧
      ∀ link ∈ db.linksOf sessionId, link.sessionId = sessionId := by
  have hrows : db.links.Nodup := hdb.keys.of_map _
  refine ⟨(lists_newestFirst _ (hrows.filter _)).of_iff fun link => List.mem_mergeSort.symm, ?_⟩
  intro link hlink
  exact of_decide_eq_true (List.mem_filter.mp (List.mem_mergeSort.mp hlink)).2

/-- Other calls may write between the two statements of a listing, so its links are those of no one
moment. -/
theorem tracked_listTasks (sessionId : String) : Tracked (.listTasks sessionId) := by
  refine .exec (fun db =>
      if db.linksOf sessionId = [] then .applied (.tasks []) true
      else .pending (.listTasks sessionId))
    (fun _ hdb => hdb) (fun db _ => ?_) fun db hdb => ?_
  · split_ifs
    · exact .unchanged (.tasks ⟨List.nodup_nil, fun _ => Iff.rfl, .nil⟩ (by simp))
    · exact .not_yet
  -- The first row is held by the statement; the rest is read when the cursor goes on.
  · cases hlinks : db.linksOf sessionId with
    | nil => exact .done
    | cons first rest =>
        have hfirst : first.sessionId = sessionId :=
          (hdb.lists_linksOf sessionId).2 first (by rw [hlinks]; exact List.mem_cons_self)
        refine tracks_select fun db hdb => ?_
        obtain ⟨hlists, hid⟩ := hdb.lists_linksOf sessionId
        refine .tasks ⟨?_, fun _ => Iff.rfl, ?_⟩ ?_
        · refine List.nodup_cons.mpr ⟨fun hmem => ?_, hlists.nodup.filter _⟩
          exact (of_decide_eq_true (List.mem_filter.mp hmem).2).1 rfl
        · refine List.pairwise_cons.mpr ⟨fun link hmem => ?_, hlists.newest_first.filter _⟩
          exact (of_decide_eq_true (List.mem_filter.mp hmem).2).2
        · intro link hmem
          rcases List.mem_cons.mp hmem with rfl | hmem
          · exact hfirst
          · exact hid link (List.mem_filter.mp hmem).1

theorem tracked_delete (sessionId : String) : Tracked (.delete sessionId) := by
  refine .exec (fun db => .applied (.removed (db.session? sessionId).isSome) false)
    (fun db hdb => hdb.deleteSession sessionId) (fun db _ => ?_) fun _ _ => .commit .done
  rw [SessionDb.view_deleteSession, ← SessionDb.view_isSome]
  exact .now .deleted

/-- The `INSERT` is where a session is created, or refused. -/
theorem tracked_create (name : String) (sessionId : Option String) (tenantId newId : String)
    (now : ℚ) : Tracked (.create name sessionId tenantId newId now) := by
  by_cases hname : Py.strip name = ""
  · rw [Tracked, SessionCall.start, SessionStore.create]
    simp only [hname, if_true]
    exact .answer fun db _ => .unnamed hname
  · rw [Tracked, SessionCall.start, SessionStore.create]
    simp only [hname, if_false]
    generalize hid : SessionStore.sessionIdOr sessionId newId = id
    refine .exec (fun db =>
        if (db.session? id).isSome then .applied (.raised .integrityError) true
        else .applied (.created { id, name := Py.strip name, tenantId, createdAt := now }) false)
      (fun db hdb => hdb.insertSession _) (fun db hdb => ?_) fun db _ => ?_
    -- The primary key decides, at the moment the statement is executed.
    · split_ifs with htaken
      · have hthere : db.session? id ≠ none := Option.isSome_iff_ne_none.mp htaken
        rw [SessionDb.insertSession_of_taken hthere]
        refine .unchanged (.taken hname ?_)
        rw [hid]
        exact SessionDb.view_eq_none.not.mpr hthere
      · have hnew : db.session? id = none := Option.not_isSome_iff_eq_none.mp htaken
        rw [SessionDb.view_insertSession hdb hnew]
        exact .now (.created hname hid (SessionDb.view_eq_none.mpr hnew) rfl)
    · split_ifs
      · exact .done
      · exact .commit .done

/-- The session is looked up in one statement, and the link is what the other does, if the
session is still there. -/
theorem tracked_attachTask (sessionId taskId : String) (now : ℚ) :
    Tracked (.attachTask sessionId taskId now) := by
  refine .exec (fun db =>
      if (db.session? sessionId).isNone then .applied (.attached false) true
      else .pending (.attachTask sessionId taskId now))
    (fun _ hdb => hdb) (fun db _ => ?_) fun db _ => ?_
  · split_ifs with hmissing
    · exact .unchanged (.missing (SessionDb.view_eq_none.mpr (Option.isNone_iff_eq_none.mp hmissing)))
    · exact .not_yet
  · split_ifs
    · exact .done
    · -- other calls have run since
      refine .exec (fun db =>
          if (db.session? sessionId).isNone then .applied (.raised .integrityError) true
          else .applied (.attached true) false)
        (fun db hdb => hdb.insertLink _) (fun db _ => ?_) fun db _ => ?_
      · split_ifs with hmissing
        · have hnone : db.session? sessionId = none := Option.isNone_iff_eq_none.mp hmissing
          rw [SessionDb.insertLink_of_missing hnone]
          exact .unchanged (.lost (SessionDb.view_eq_none.mpr hnone))
        · have hthere : db.view sessionId ≠ none :=
            SessionDb.view_eq_none.not.mpr fun hnone => hmissing (Option.isNone_iff_eq_none.mpr hnone)
          obtain ⟨s, hs⟩ := Option.ne_none_iff_exists'.mp hthere
          rw [SessionDb.view_insertLink db hs]
          exact .now (.attached hs)
      · split_ifs
        · exact .done
        · exact .commit .done

end Methods

theorem tracked (op : SessionCall) : Tracked op := by
  cases op with
  | create name sessionId tenantId newId now =>
      exact tracked_create name sessionId tenantId newId now
  | get sessionId => exact tracked_get sessionId
  | listAll tenantId => exact tracked_listAll tenantId
  | delete sessionId => exact tracked_delete sessionId
  | attachTask sessionId taskId now => exact tracked_attachTask sessionId taskId now
  | listTasks sessionId => exact tracked_listTasks sessionId

/-! ## Whole runs -/

/-- The row of a session, as the requests see it. -/
theorem SessionDb.table_get? (db : SessionDb) (id : String) :
    db.table.get? id = (db.view id).map fun s => (s.row id).toSessionRecord := by
  have hrow : db.table.get? id = (db.session? id).map SessionRow.toSessionRecord := List.find?_map ..
  rw [hrow, session?_eq, Option.map_map]
  rfl

/-- **The session store is atomic and durable.** Whatever calls run on its connection, and however
their statements, commits, refusals and crashes interleave, what the callers see is what they
would see of a map of sessions on which each call happens at one moment, and is kept before it is
replied to; a listing of tasks, of which little is promised, changes nothing. The tables stay
intact, and stand for the sessions of the map. -/
theorem session_store_atomic {κ : Type*} [DecidableEq κ] {db : SessionDb} (hdb : db.Intact)
    {l : List (Label κ SessionCall SessionReply)} {s : Conn κ SessionDb SessionReply}
    (hrun : Run (Conn.Step SessionCall.start (.raised .operationalError)) (Conn.opened db) l s) :
    ∃ a : Atomic κ Sessions SessionCall SessionReply,
      Run (Atomic.Step SessionCall.Does (.raised .operationalError)) (Atomic.opened db.view) l a ∧
        s.content.view = a.value ∧ s.durable.view = a.durable ∧
        s.content.Intact ∧ s.durable.Intact ∧
        ∀ id, s.content.table.get? id = (a.value id).map fun s => (s.row id).toSessionRecord := by
  obtain ⟨a, hatomic, h⟩ := Conn.refines tracked (Refines.opened hdb) hrun
  refine ⟨a, hatomic, h.value.symm, h.durable.symm, h.inv, h.inv_durable, fun id => ?_⟩
  rw [h.value, SessionDb.table_get?]

/-- A session is created, and deleted between the two statements of a call that attaches a task to
it. That call raises. The deletion is not committed before the crash, so the session is there
again afterwards. -/
theorem session_store_atomic_deleted :
    ∃ a : Atomic ℕ Sessions SessionCall SessionReply,
      Run (Atomic.Step SessionCall.Does (.raised .operationalError)) (Atomic.opened fun _ => none)
        [.invoke 0 (.create "s" (some "x") defaultTenantId "" 0), .internal, .internal,
          .reply 0 (.created { id := "x", name := "s", createdAt := 0 }),
          .invoke 1 (.attachTask "x" "t" 1), .internal, .invoke 2 (.delete "x"), .internal,
          .internal, .reply 1 (.raised .integrityError), .crash] a ∧
        (a.value "x").isSome = true := by
  have hempty : SessionDb.Intact {} :=
    ⟨List.nodup_nil, List.nodup_nil, fun _ hlink => absurd hlink List.not_mem_nil⟩
  have hview : SessionDb.view {} = fun _ => none := rfl
  obtain ⟨s, hrun, hthere⟩ : ∃ s : Conn ℕ SessionDb SessionReply,
      Run (Conn.Step SessionCall.start (.raised .operationalError)) (Conn.opened {})
        [.invoke 0 (.create "s" (some "x") defaultTenantId "" 0), .internal, .internal,
          .reply 0 (.created { id := "x", name := "s", createdAt := 0 }),
          .invoke 1 (.attachTask "x" "t" 1), .internal, .invoke 2 (.delete "x"), .internal,
          .internal, .reply 1 (.raised .integrityError), .crash] s ∧
        (s.content.view "x").isSome = true := by
    refine ⟨_, .cons (.invoke rfl) <| .cons (.exec (c := 0) rfl) <| .cons (.commit (c := 0) rfl) <|
      .cons (.reply rfl) <| .cons (.invoke rfl) <| .cons (.exec (c := 1) rfl) <|
      .cons (.invoke rfl) <| .cons (.exec (c := 2) rfl) <| .cons (.exec (c := 1) rfl) <|
      .cons (.reply rfl) <| .single .crash, rfl⟩
  obtain ⟨a, hatomic, hvalue, -⟩ := session_store_atomic hempty hrun
  rw [hview] at hatomic
  exact ⟨a, hatomic, hvalue ▸ hthere⟩

end AgentRoom
