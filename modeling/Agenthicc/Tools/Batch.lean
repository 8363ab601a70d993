/-
Agenthicc.Tools.Batch — the batch file tools.

`requests_for_tool` flattens the entries of a batch into one list of paths,
`_authorize_tool` answers it with one list of canonical paths, and each tool
pairs that list with the entries again, by position. The entries are JSON
values of any shape. The workspace policy is a parameter: what it says to the
list as a whole, and to each path in turn. So is the file system: what the
backend answers to a call after the calls before it. The choice of a backend
and its root check are left out.
-/
import Agenthicc.Python.Json
import Mathlib.Data.List.Infix

namespace Agenthicc.Tools

open Python

/-! ## 1. What a batch asks for -/

inductive BatchTool where
  | batch_read | batch_write | batch_delete | batch_move | batch_copy
  deriving DecidableEq

inductive PathOperation where
  | read | write | delete
  deriving DecidableEq

/-- A declared path, and what is to be done with it. -/
structure PathRequest where
  requested : String
  operation : PathOperation
  deriving DecidableEq

/-- A field that holds a string. -/
def fieldRequest (item : Json) (field : String) (operation : PathOperation) : List PathRequest :=
  match item.get? field with
  | some (.str path) => [⟨path, operation⟩]
  | _ => []

/-- An entry that is a string. -/
def itemRequest (item : Json) (operation : PathOperation) : List PathRequest :=
  match item with
  | .str path => [⟨path, operation⟩]
  | _ => []

/-- What one entry adds to the list. -/
def entryRequests (tool : BatchTool) (item : Json) : List PathRequest :=
  match tool with
  | .batch_read => itemRequest item .read
  | .batch_delete => itemRequest item .delete
  | .batch_write => fieldRequest item "path" .write
  | .batch_move => fieldRequest item "source" .write ++ fieldRequest item "destination" .write
  | .batch_copy => fieldRequest item "source" .read ++ fieldRequest item "destination" .write

/-- `requests_for_tool` on a batch. -/
def requests_for_tool (tool : BatchTool) (entries : List Json) : List PathRequest :=
  entries.flatMap (entryRequests tool)

/-- The workspace policy: why it refuses a list of paths, if it does, and what
it says to the `n`-th path when it is authorized. -/
structure AccessPolicy where
  preflight : List PathRequest → Option String
  authorize : Nat → PathRequest → Except String String

/-- Each path in turn; the first refusal ends it. -/
def authorizeFrom (policy : AccessPolicy) : Nat → List PathRequest → Except String (List String)
  | _, [] => .ok []
  | n, request :: requests =>
      match policy.authorize n request with
      | .error error => .error error
      | .ok path => (authorizeFrom policy (n + 1) requests).map (path :: ·)

/-- `_authorize_tool`. -/
def authorizeTool (policy : Option AccessPolicy) (tool : BatchTool) (entries : List Json) :
    Except String (List String) :=
  match policy with
  | none => .ok []
  | some policy =>
      let requests := requests_for_tool tool entries
      match if requests.isEmpty then none else policy.preflight requests with
      | some error => .error error
      | none => authorizeFrom policy 0 requests

/-! ## 2. Calls of the backend -/

/-- A call of the backend. -/
inductive FileOp where
  | read (path encoding : String)
  | write (path content encoding : String) (create_parents : Bool)
  | delete (path : String)
  | move (src dst : String)
  | copy (src dst : String)
  deriving DecidableEq

/-- What the backend answers to a call after other calls. -/
abbrev Backend := List FileOp → FileOp → Except String Json

/-- What ends a tool from within. -/
inductive Raised where
  | attributeError | typeError | valueError | indexError
  deriving DecidableEq

/-- What an entry comes to. -/
inductive EntryCall where
  | op (op : FileOp)
  | failed (error : String)
  | raised (exc : Raised)
  deriving DecidableEq

/-- The calls that were made, each with its position, and their results. -/
structure Performed where
  trace : List (Nat × FileOp) := []
  results : List (Except String Json) := []
  raised : Option Raised := none

/-- The calls for a list of entries, one after the other. -/
def perform (backend : Backend) : Nat → List FileOp → List EntryCall → Performed
  | _, _, [] => {}
  | n, before, .op op :: calls =>
      let rest := perform backend (n + 1) (before ++ [op]) calls
      { rest with trace := (n, op) :: rest.trace, results := backend before op :: rest.results }
  | n, before, .failed error :: calls =>
      let rest := perform backend (n + 1) before calls
      { rest with results := .error error :: rest.results }
  | _, _, .raised exc :: _ => { raised := some exc }

/-- A result as it is reported, under the entry at its position. -/
structure EntryResult where
  shown : List (String × Json)
  ok : Bool
  error : String := ""
  payload : Json := .null

structure BatchResponse where
  ok : Bool
  error : String := ""
  results : List EntryResult := []
  total : Option Nat := none
  succeeded : Option Nat := none
  failed : Option Nat := none

structure Batch where
  trace : List (Nat × FileOp) := []
  outcome : Except Raised BatchResponse

def entryResult (shown : List (String × Json)) : Except String Json → EntryResult
  | .ok payload => { shown := shown, ok := true, payload := payload }
  | .error error => { shown := shown, ok := false, error := error }

/-- The response over the results, paired with the entries by position. -/
def respond (total : Option Nat) (entries : List Json) (shown : Json → List (String × Json)) (done : Performed) : Batch :=
  let results := List.zipWith (fun item result => entryResult (shown item) result) entries done.results
  let total_ok := (results.filter (·.ok)).length
  { trace := done.trace
    outcome :=
      match done.raised with
      | some exc => .error exc
      | none => .ok {
          ok := total_ok = entries.length
          results := results
          total := total
          succeeded := some total_ok
          failed := some (entries.length - total_ok) } }

/-- The response to a `PermissionError`. -/
def refused (error : String) (entries : List Json) : Batch :=
  { outcome := .ok { ok := false, error := error, total := some entries.length } }

/-! ## 3. The tools -/

/-- `backend.batch_read` and `backend.batch_delete`, on one of their paths. A
path that is no string does not resolve. -/
def pathCall (op : String → FileOp) : Json → EntryCall
  | .str path => .op (op path)
  | _ => .failed "expected str, bytes or os.PathLike object"

/-- `backend_paths`: the authorized paths, if there are any. -/
def backendPaths (paths : List Json) (authorized : List String) : List Json :=
  if authorized.isEmpty then paths else authorized.map Json.str

/-- `batch_read` and `batch_delete` behind the authorization. -/
def batchPaths (op : String → FileOp) (backend : Backend) (paths : List Json) (authorized : List String) :
    Batch :=
  respond (some paths.length) paths (fun original => [("path", original)])
    (perform backend 0 [] ((backendPaths paths authorized).map (pathCall op)))

/-- `batch_read`. -/
def batch_read (policy : Option AccessPolicy) (backend : Backend) (paths : List Json) (encoding : String) :
    Batch :=
  match authorizeTool policy .batch_read paths with
  | .error error => refused error paths
  | .ok authorized => batchPaths (fun path => .read path encoding) backend paths authorized

/-- `batch_delete`. -/
def batch_delete (policy : Option AccessPolicy) (backend : Backend) (paths : List Json) : Batch :=
  match authorizeTool policy .batch_delete paths with
  | .error error => refused error paths
  | .ok authorized => batchPaths .delete backend paths authorized

/-- `key in item`, on any JSON value; numbers and constants have no members. -/
def contains (key : String) : Json → Except Raised Bool
  | .obj kvs => .ok (kvs.any fun kv => kv.1 = key)
  | .arr items => .ok (items.any (· = .str key))
  | .str text => .ok (key.toList <:+: text.toList)
  | _ => .error .typeError

/-- The check of the entries in front of `batch_write`: whether it lets them
pass. -/
def keysPresent : List Json → Except Raised Bool
  | [] => .ok true
  | item :: files =>
      match contains "path" item with
      | .error exc => .error exc
      | .ok false => .ok false
      | .ok true =>
          match contains "content" item with
          | .error exc => .error exc
          | .ok false => .ok false
          | .ok true => keysPresent files

/-- `backend.batch_write`, on one of its entries: its path after the pairing,
and the fields it reads from the entry. -/
def writeCall (create_parents : Bool) (path item : Json) : EntryCall :=
  match path with
  | .str path =>
      match item.getD "content" (.str ""), item.getD "encoding" (.str "utf-8") with
      | .str content, .str encoding => .op (.write path content encoding create_parents)
      | _, _ => .failed "path, content, and encoding must be strings"
  | _ => .failed "path must be a string"

/-- The entries with the authorized paths put in, by position. -/
def backendFiles : List Json → List String → List (Json × Json)
  | [], _ => []
  | item :: files, [] => (item.getD "path" (.str ""), item) :: backendFiles files []
  | item :: files, path :: authorized => (.str path, item) :: backendFiles files authorized

/-- `batch_write`. A string or a list that passes the check of the keys is no
`dict(item)`. -/
def batch_write (policy : Option AccessPolicy) (backend : Backend) (files : List Json) (create_parents : Bool) :
    Batch :=
  match keysPresent files with
  | .error exc => { outcome := .error exc }
  | .ok false => { outcome := .ok {
      ok := false
      error := "each entry must have \"path\" and \"content\" keys"
      total := some files.length
      succeeded := some 0
      failed := some files.length } }
  | .ok true =>
      match authorizeTool policy .batch_write files with
      | .error error => refused error files
      | .ok authorized =>
          if files.all Json.isObj then
            respond (some files.length) files (fun original => [("path", original.get "path")])
              (perform backend 0 [] ((backendFiles files authorized).map fun (path, item) =>
                writeCall create_parents path item))
          else { outcome := .error .valueError }

/-- `arg_str`. -/
def arg_str (args : Json) (key default : String) : Except Raised String :=
  if args.isObj then
    match args.getD key (.str default) with
    | .str value => .ok value
    | _ => .error .valueError
  else .error .attributeError

/-- One round of `batch_move` and `batch_copy`. -/
def pairCall (op : String → String → FileOp) (authorized : List String) (item : Json) (index : Nat) :
    EntryCall :=
  match arg_str item "source" "" with
  | .error exc => .raised exc
  | .ok display_src =>
      match arg_str item "destination" "" with
      | .error exc => .raised exc
      | .ok display_dst =>
          if authorized.isEmpty then .op (op display_src display_dst)
          else
            match authorized[index * 2]?, authorized[index * 2 + 1]? with
            | some src, some dst => .op (op src dst)
            | _, _ => .raised .indexError

/-- `batch_move` and `batch_copy` behind the authorization. -/
def batchPairs (op : String → String → FileOp) (backend : Backend) (entries : List Json)
    (authorized : List String) : Batch :=
  respond none entries (fun item => [("source", item.getD "source" (.str "")),
      ("destination", item.getD "destination" (.str ""))])
    (perform backend 0 [] (entries.zipIdx.map fun (item, index) => pairCall op authorized item index))

/-- `batch_move`. -/
def batch_move (policy : Option AccessPolicy) (backend : Backend) (moves : List Json) : Batch :=
  match authorizeTool policy .batch_move moves with
  | .error error => refused error moves
  | .ok authorized => batchPairs .move backend moves authorized

/-- `batch_copy`. -/
def batch_copy (policy : Option AccessPolicy) (backend : Backend) (copies : List Json) : Batch :=
  match authorizeTool policy .batch_copy copies with
  | .error error => refused error copies
  | .ok authorized => batchPairs .copy backend copies authorized

/-- A batch tool on its entries. -/
def runBatch (tool : BatchTool) (policy : Option AccessPolicy) (backend : Backend) (entries : List Json)
    (encoding : String) (create_parents : Bool) : Batch :=
  match tool with
  | .batch_read => batch_read policy backend entries encoding
  | .batch_write => batch_write policy backend entries create_parents
  | .batch_delete => batch_delete policy backend entries
  | .batch_move => batch_move policy backend entries
  | .batch_copy => batch_copy policy backend entries

end Agenthicc.Tools
