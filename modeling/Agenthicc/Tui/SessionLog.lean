/-
Agenthicc.Tui.SessionLog — the session index and the metadata files beside it.

Every call changes the index in one critical section; `register_session` and
the updates then write a copy of the entry to the session's own file, after
the lock is released. Resume reads the file. `Inv` says that the file agrees
with the entry unless the last call that set mode or agent is yet to write.

Files hold the dicts that were dumped to them. Left out: transcripts, and the
errors of `mkdir` and `replace`.
-/
import Agenthicc.Python.JsonLines
import Agenthicc.Python.Dict
import Agenthicc.Library.Runs
import Mathlib.Logic.Function.Basic

namespace Agenthicc.Tui

open Python

/-! ## 1. Index and metadata -/

abbrev Metadata := List (String × Json)

abbrev Index := List (String × Metadata)

/-- The string of a key. -/
def strField (key : String) (metadata : Metadata) : Option String :=
  match assocGet key metadata with
  | some (.str s) => some s
  | _ => none

inductive SessionCall where
  | registerSession (session_id cwd model : String)
  | updateSessionMode (session_id mode : String)
  | updateSessionAgent (session_id agent : String)
  | touchSession (session_id : String)

def SessionCall.session : SessionCall → String
  | .registerSession session_id _ _ => session_id
  | .updateSessionMode session_id _ => session_id
  | .updateSessionAgent session_id _ => session_id
  | .touchSession session_id => session_id

/-- The mutator of a call, at a reading of the clock: the index it leaves, and
the metadata to write. -/
def SessionCall.mutate (resolve : String → String) (now : PyFloat) (index : Index) :
    SessionCall → Index × Option Metadata
  | .registerSession session_id cwd model =>
      let metadata := [("cwd", .str (resolve cwd)), ("model", .str model), ("mode", .str "Safe"),
        ("created_at", .float now), ("last_active", .float now)]
      (assocSet session_id metadata index, some metadata)
  | .updateSessionMode session_id mode =>
      match assocGet session_id index with
      | none => (index, none)
      | some metadata =>
          let metadata := assocSet "last_active" (.float now) (assocSet "mode" (.str mode) metadata)
          (assocSet session_id metadata index, some metadata)
  | .updateSessionAgent session_id agent =>
      match assocGet session_id index with
      | none => (index, none)
      | some metadata =>
          let metadata := assocSet "agent" (.str agent) metadata
          (assocSet session_id metadata index, some metadata)
  | .touchSession session_id =>
      match assocGet session_id index with
      | none => (index, none)
      | some metadata =>
          (assocSet session_id (assocSet "last_active" (.float now) metadata) index, none)

/-- A call between its critical section and its write: the mutations of the
index are numbered. -/
structure Pending where
  session_id : String
  copy : Metadata
  number : Nat

/-- `Path(cwd).expanduser().resolve()`, and the directory that a session id
names under `_SESSIONS_DIR`. -/
structure Site where
  resolve : String → String
  place : String → String

/-- The directory of the sessions. The last four fields are ghosts: how often
the index was changed, the last change of a session that had metadata to
write, the newest change that was written for it, and who was registered. -/
structure World where
  index : Index := []
  files : String → Option Metadata := fun _ => none
  pending : Nat → Option Pending := fun _ => none
  changes : Nat := 0
  latest : String → Nat := fun _ => 0
  written : String → Nat := fun _ => 0
  registered : List String := []

/-- A step of the call with a number. -/
inductive Step where
  | change (caller : Nat) (call : SessionCall) (now : PyFloat)
  | write (caller : Nat)

variable (site : Site) (w : World)

/-- An index that was changed, with metadata to write. -/
def World.updated (caller : Nat) (index : Index) (session_id : String) (metadata : Metadata) : World :=
  { w with
    index := index
    pending := Function.update w.pending caller (some ⟨session_id, metadata, w.changes + 1⟩)
    changes := w.changes + 1
    latest := Function.update w.latest session_id (w.changes + 1)
    registered := session_id :: w.registered }

/-- `_mutate_index`. -/
def World.change (caller : Nat) (call : SessionCall) (now : PyFloat) : World :=
  match call.mutate site.resolve now w.index with
  | (index, none) => { w with index := index }
  | (index, some metadata) => w.updated caller index call.session metadata

/-- `_write_metadata`. -/
def World.write (caller : Nat) (p : Pending) : World :=
  { w with
    files := Function.update w.files (site.place p.session_id) (some p.copy)
    pending := Function.update w.pending caller none
    written := Function.update w.written p.session_id (max (w.written p.session_id) p.number) }

def World.step : Step → World
  | .change caller call now => if (w.pending caller).isSome then w else w.change site caller call now
  | .write caller =>
      match w.pending caller with
      | none => w
      | some p => w.write site caller p

/-- A string that is not blank, else `None`. -/
def notBlank : Option String → Option String
  | some s => if strip s.toList = [] then none else some s
  | none => none

/-- `load_session_mode`. -/
def World.loadSessionMode (session_id : String) : Option String :=
  notBlank ((w.files (site.place session_id)).bind (strField "mode"))

/-- `load_session_agent`. -/
def World.loadSessionAgent (session_id : String) : Option String :=
  notBlank ((w.files (site.place session_id)).bind (strField "agent"))

end Agenthicc.Tui
