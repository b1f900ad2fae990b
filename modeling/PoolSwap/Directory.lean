import PoolSwap.Config
import PoolSwap.Payload.Reader
import PoolSwap.Pool.Keys

/-! The pool directory, a web service that lists pools page by page and publishes their keys. Its
answers are a queue, one for each request; the directory logs the requests and keeps the log when a
request fails. -/
namespace PoolSwap

/-- How a session reads the texts of answers. -/
structure TextReader where
  /-- Whether it drops blanks around a text, and answers an empty one with null. -/
  dropsBlanks : Bool
  /-- How deep the value of a text may be nested. -/
  levels : Nat

def TextReader.read (reader : TextReader) (s : String) : Except Breach Payload :=
  if reader.dropsBlanks then
    let cs := Blank.strip Blank.isAsciiBlank s.toList
    if cs.isEmpty then .ok .null else Payload.ofText reader.levels (String.ofList cs)
  else Payload.ofText reader.levels s

/-- The body of an answer: a value, a text that should hold one, or bytes that are no text. -/
inductive ResponseBody where
  | value (p : Payload)
  | text (s : String) (reader : TextReader)
  | undecodable

def ResponseBody.read : ResponseBody → Except Breach Payload
  | .value p => .ok p
  | .text s reader => reader.read s
  | .undecodable => .error .notText

inductive Response where
  | answer (status : Int) (body : ResponseBody)
  | connectionFailed (reason : String)
  | timedOut

structure Session where
  closed : Bool
  pending : List Response

structure Request where
  url : String
  params : List (String × Payload)

/-- A directory works on the session it was given, or on sessions it opens and closes itself. -/
structure Directory where
  baseUrl : String
  /-- How deep a value may be nested that a message shows. -/
  levels : Nat
  fresh : List Response
  sessions : List Session
  current : Option Nat
  ownsSession : Bool
  /-- The requests made so far, the latest first. -/
  requests : List Request

namespace Directory

abbrev Query := ExceptT Fault (StateM Directory)

/-- The base address without slashes at its end. -/
def trimUrl (url : String) : String :=
  String.ofList (url.toList.reverse.dropWhile (· = '/')).reverse

def onSession (baseUrl : String) (responses : List Response)
    (levels : Nat := Payload.usualLevels) : Directory :=
  ⟨trimUrl baseUrl, levels, responses, [⟨false, responses⟩], some 0, false, []⟩

def unopened (baseUrl : String) (responses : List Response)
    (levels : Nat := Payload.usualLevels) : Directory :=
  ⟨trimUrl baseUrl, levels, responses, [], none, true, []⟩

def enter (d : Directory) : Directory :=
  match d.current with
  | some _ => d
  | none => { d with
      sessions := d.sessions ++ [⟨false, d.fresh⟩]
      current := some d.sessions.length }

/-- Closes the session in use if the directory opened it. -/
def close (d : Directory) : Directory :=
  match d.current with
  | some i =>
    if d.ownsSession then
      { d with
        sessions := d.sessions.modify i fun s => { s with closed := true }
        current := none }
    else d
  | none => d

def expect (d : Directory) (responses : List Response) : Directory :=
  match d.current with
  | some i => { d with
      sessions := d.sessions.modify i fun s => { s with pending := s.pending ++ responses } }
  | none => d

def pendingCount (d : Directory) : Nat :=
  match d.current with
  | some i => ((d.sessions[i]?).map (·.pending.length)).getD 0
  | none => 0

/-- Takes the next answer; after the last one connections fail. -/
def nextResponse (i : Nat) : Query Response := do
  let d ← get
  match (d.sessions[i]?).map (·.pending) with
  | some (r :: rest) =>
    set { d with sessions := d.sessions.modify i fun s => { s with pending := rest } }
    pure r
  | _ => pure (.connectionFailed "no response queued")

def shownLimit : Nat := 200

/-- The value of a successful answer, which must report success itself. -/
def readResponse (levels : Nat) (path : String) : Response → Checked Payload
  | .connectionFailed reason => .error (.discovery (.requestFailed path reason))
  | .timedOut => .error (.discovery (.timedOut path))
  | .answer status body =>
    if status ≠ 200 then .error (.discovery (.status status path))
    else do
      let p ← Checked.ofRule body.read
      if (p.field? "success").any Payload.isGiven then pure p
      else
        let text ← Checked.ofRule (p.shown levels)
        let shown := String.ofList (text.toList.take shownLimit)
        .error (.discovery (.reportedFailure path shown))

def fetch (path : String) (params : List (String × Payload)) : Query Payload := do
  let d ← get
  match d.current with
  | none => throw .noSession
  | some i =>
    modify fun d => { d with requests := ⟨d.baseUrl ++ path, params⟩ :: d.requests }
    match readResponse d.levels path (← nextResponse i) with
    | .ok p => pure p
    | .error f => throw f

structure Listing where
  mintA : String
  mintB : String
  kind : Option PoolKind
  limit : Option Int
  page : Int := 1
  sortField : String := "default"
  sortOrder : String := "desc"
  pageSize : Int := 100
  requireMatch : Bool := false

def maxPageSize : Int := 1000

namespace Listing

def check (q : Listing) : Checked Unit :=
  if q.page < 1 then .error (.argument (.page q.page))
  else if q.pageSize < 1 ∨ maxPageSize < q.pageSize then
    .error (.argument (.pageSize q.pageSize maxPageSize))
  else if q.sortOrder ≠ "desc" ∧ q.sortOrder ≠ "asc" then
    .error (.argument (.sortOrder q.sortOrder))
  else .ok ()

def params (q : Listing) (page : Int) : List (String × Payload) :=
  [("mint1", .text q.mintA), ("mint2", .text q.mintB),
    ("poolType", .text ((q.kind.map (·.name)).getD "all")),
    ("poolSortField", .text q.sortField), ("sortType", .text q.sortOrder),
    ("pageSize", .int q.pageSize), ("page", .int page)]

def isFilled (q : Listing) (count : Nat) : Bool := q.limit.any fun n => n ≤ (count : Int)

end Listing

structure Page where
  items : List Payload
  hasNext : Bool

def Page.ofPayload (p : Payload) : Checked Page :=
  let body := (p.field? "data").getD .null
  match body.field? "data" with
  | some (.list items) => .ok ⟨items, (body.field? "hasNextPage").any Payload.isGiven⟩
  | _ => .error (.discovery .malformedPage)

/-- Pools listed so far, the latest first, and why the listing broke off, if it did. -/
structure Listed where
  pools : List PoolEntry
  fault : Option Fault

def takeItems (levels : Nat) (q : Listing) : List PoolEntry → List Payload → Listed
  | seen, [] => ⟨seen, none⟩
  | seen, item :: rest =>
    match PoolEntry.ofEntry levels item with
    | .error f => ⟨seen, some f⟩
    | .ok pool =>
      if q.isFilled (seen.length + 1) then ⟨pool :: seen, none⟩
      else takeItems levels q (pool :: seen) rest

def fetchPage (q : Listing) (page : Int) : Query Page := do
  match Page.ofPayload (← fetch "/pools/info/mint" (q.params page)) with
  | .ok page => pure page
  | .error f => throw f

/-- Lists pages from one on. Every page takes an answer from the queue, so the queue bounds their
number. -/
def listPages (q : Listing) : Nat → Int → List PoolEntry → StateM Directory Listed
  | 0, _, seen => pure ⟨seen, none⟩
  | fuel + 1, page, seen => do
    if q.isFilled seen.length then return ⟨seen, none⟩
    let levels := (← get).levels
    match ← (fetchPage q page).run with
    | .error f => return ⟨seen, some f⟩
    | .ok p =>
      if p.items.isEmpty && seen.isEmpty && q.requireMatch then
        let kind := (q.kind.map (·.name)).getD "any"
        return ⟨seen, some (.discovery (.noPools kind q.mintA q.mintB))⟩
      let listed := takeItems levels q seen p.items
      if listed.fault.isSome || q.isFilled listed.pools.length then return listed
      if p.hasNext && !p.items.isEmpty then listPages q fuel (page + 1) listed.pools
      else return listed

def listPools (q : Listing) : StateM Directory (List PoolEntry × Option Fault) := do
  match q.check with
  | .error f => return ([], some f)
  | .ok () =>
    let listed ← listPages q ((← get).pendingCount + 2) q.page []
    return (listed.pools.reverse, listed.fault)

def pools (q : Listing) : Query (List PoolEntry) := do
  match ← (listPools q : StateM Directory _) with
  | (pools, none) => pure pools
  | (_, some f) => throw f

/-- The entries for some identifiers. Unknown ones have empty entries, which are left out. -/
def fetchEntries (path : String) (ids : List String) : Query (List Payload) := do
  if ids.isEmpty then return []
  let p ← fetch path [("ids", .text (",".intercalate ids))]
  match p.field? "data" with
  | some (.list items) => pure (items.filter Payload.isGiven)
  | _ => throw (.discovery (.malformedList path))

def poolsById (ids : List String) : Query (List PoolEntry) := do
  let levels := (← get).levels
  match (← fetchEntries "/pools/info/ids" ids).mapM (PoolEntry.ofEntry levels) with
  | .ok pools => pure pools
  | .error f => throw f

def keysById (ids : List String) : Query (List PoolKeys) := do
  let levels := (← get).levels
  match (← fetchEntries "/pools/key/ids" ids).mapM (PoolKeys.ofEntry levels) with
  | .ok keys => pure keys
  | .error f => throw f

end Directory
end PoolSwap
