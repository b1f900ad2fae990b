import PoolSwap.Directory
import PoolSwap.Proofs.Checked
import Mathlib.Data.List.Basic

/-! What a directory answers. Every request takes the next answer from the queue of the session in
use and is logged, and what comes of it depends on that answer alone. -/
namespace PoolSwap.Directory

def ask (d : Directory) (q : Query α) : Checked α × Directory := q.run.run d

/-- The answers that are left in the session in use. -/
def pending (d : Directory) : List Response :=
  match d.current with
  | some i => ((d.sessions[i]?).map (·.pending)).getD []
  | none => []

/-- The answer to the next request. -/
def next (d : Directory) : Response := d.pending.head?.getD (.connectionFailed "no response queued")

/-- The directory after a request. -/
def answered (d : Directory) (path : String) (params : List (String × Payload)) : Directory :=
  { d with
    sessions := match d.current with
      | some i => d.sessions.modify i fun s => { s with pending := s.pending.tail }
      | none => d.sessions
    requests := ⟨d.baseUrl ++ path, params⟩ :: d.requests }

variable {d : Directory} {path : String} {params : List (String × Payload)} {ids : List String}

@[simp] theorem current_answered : (d.answered path params).current = d.current := rfl

@[simp] theorem requests_answered :
    (d.answered path params).requests = ⟨d.baseUrl ++ path, params⟩ :: d.requests := rfl

@[simp] theorem baseUrl_answered : (d.answered path params).baseUrl = d.baseUrl := rfl

@[simp] theorem levels_answered : (d.answered path params).levels = d.levels := rfl

@[simp] theorem pending_answered : (d.answered path params).pending = d.pending.tail := by
  unfold pending answered
  cases d.current with
  | none => rfl
  | some i =>
    dsimp only
    rw [List.getElem?_modify_eq]
    cases d.sessions[i]? <;> rfl

theorem pendingCount_eq (d : Directory) : d.pendingCount = d.pending.length := by
  unfold pendingCount pending
  cases d.current with
  | none => rfl
  | some i =>
    dsimp only
    cases d.sessions[i]? <;> rfl

/-- The next answer is one of those left, or the connection fails. -/
theorem next_mem_or (d : Directory) :
    d.next ∈ d.pending ∨ d.next = .connectionFailed "no response queued" := by
  unfold next
  cases d.pending with
  | nil => exact .inr rfl
  | cons r rest => exact .inl List.mem_cons_self

theorem ask_bind (d : Directory) (q : Query α) (f : α → Query β) : d.ask (q >>= f) =
    match d.ask q with
    | (.ok a, d') => d'.ask (f a)
    | (.error e, d') => (.error e, d') := by
  unfold ask
  rw [ExceptT.run_bind, StateT.run_bind]
  rcases q.run.run d with ⟨_ | a, d'⟩ <;> rfl

/-- A query that goes on from what never fails. -/
theorem ask_lift_bind (d : Directory) (x : StateM Directory α) (f : α → Query β) :
    d.ask (liftM x >>= f) = (x.run d).2.ask (f (x.run d).1) := rfl

theorem ask_get_bind (d : Directory) (f : Directory → Query β) :
    d.ask (get >>= f) = d.ask (f d) := rfl

theorem ask_modify_bind (d : Directory) (g : Directory → Directory) (f : PUnit → Query β) :
    d.ask (modify g >>= f) = (g d).ask (f ⟨⟩) := rfl

/-- A query that goes on with what another one answered alone. -/
theorem ask_bind_checked {q : Query α} {f : α → Query β} {g : α → Checked β}
    (hf : ∀ a (d : Directory), d.ask (f a) = (g a, d)) :
    d.ask (q >>= f) = ((d.ask q).1 >>= g, (d.ask q).2) := by
  rw [ask_bind]
  rcases d.ask q with ⟨_ | a, d'⟩
  · rfl
  · exact hf a d'

theorem ask_nextResponse {i : Nat} (hopen : d.current = some i) : d.ask (nextResponse i) =
    (.ok d.next, { d with
      sessions := d.sessions.modify i fun s => { s with pending := s.pending.tail } }) := by
  obtain ⟨baseUrl, levels, fresh, sessions, current, ownsSession, requests⟩ := d
  obtain rfl : current = some i := hopen
  unfold nextResponse next pending
  rw [ask_get_bind]
  simp only [List.modify_eq_set_getElem?]
  cases hs : sessions[i]? with
  | none => rfl
  | some s =>
    obtain ⟨closed, waiting⟩ := s
    cases waiting with
    | nil =>
      obtain ⟨hi, hs⟩ := List.getElem?_eq_some_iff.1 hs
      have hset : sessions.set i ⟨closed, []⟩ = sessions := hs ▸ List.set_getElem_self hi
      exact congrArg (fun l => (Except.ok (Response.connectionFailed "no response queued"),
        Directory.mk baseUrl levels fresh l (some i) ownsSession requests)) hset.symm
    | cons r rest => rfl

/-- A request on an open session is answered by the next answer. -/
theorem ask_fetch (hopen : d.current.isSome) :
    d.ask (fetch path params) = (readResponse d.levels path d.next, d.answered path params) := by
  obtain ⟨i, hi⟩ := Option.isSome_iff_exists.1 hopen
  have hafter : d.answered path params = { d with
      sessions := d.sessions.modify i fun s => { s with pending := s.pending.tail }
      requests := ⟨d.baseUrl ++ path, params⟩ :: d.requests } := by
    unfold answered
    rw [hi]
  -- The request is logged first, on a directory with the same answers left.
  have hnext : ask { d with requests := ⟨d.baseUrl ++ path, params⟩ :: d.requests }
      (nextResponse i) = (.ok d.next, d.answered path params) := by
    rw [hafter]
    exact ask_nextResponse (d := { d with requests := _ }) hi
  unfold fetch
  rw [ask_get_bind, hi]
  dsimp only
  rw [ask_modify_bind, ask_bind, hnext]
  dsimp only
  cases readResponse d.levels path d.next <;> rfl

theorem ask_fetchPage (hopen : d.current.isSome) (q : Listing) (page : Int) :
    d.ask (fetchPage q page) = (readResponse d.levels "/pools/info/mint" d.next >>= Page.ofPayload,
      d.answered "/pools/info/mint" (q.params page)) := by
  unfold fetchPage
  rw [ask_bind_checked (g := Page.ofPayload) fun p d => by cases Page.ofPayload p <;> rfl,
    ask_fetch hopen]

/-- The entries in the value of an answer. -/
def entriesOf (path : String) (p : Payload) : Checked (List Payload) :=
  match p.field? "data" with
  | some (.list items) => .ok (items.filter Payload.isGiven)
  | _ => .error (.discovery (.malformedList path))

/-- Without identifiers there is no request. -/
theorem ask_fetchEntries_nil : d.ask (fetchEntries path []) = (.ok [], d) := rfl

/-- Entries are read from the next answer. -/
theorem ask_fetchEntries (hopen : d.current.isSome) (hids : ids ≠ []) :
    d.ask (fetchEntries path ids) = (readResponse d.levels path d.next >>= entriesOf path,
      d.answered path [("ids", .text (",".intercalate ids))]) := by
  unfold fetchEntries
  rw [if_neg (by simpa using hids), ask_bind_checked (g := entriesOf path), ask_fetch hopen]
  intro p d
  unfold entriesOf
  cases p.field? "data" with
  | none => rfl
  | some v => cases v <;> rfl

theorem ask_fetchEntries_unopened (hclosed : d.current = none) (hids : ids ≠ []) :
    d.ask (fetchEntries path ids) = (.error .noSession, d) := by
  have hfetch : ∀ params, d.ask (fetch path params) = (.error .noSession, d) := fun params => by
    unfold fetch
    rw [ask_get_bind, hclosed]
    rfl
  unfold fetchEntries
  rw [if_neg (by simpa using hids), ask_bind, hfetch]

theorem ask_keysById : d.ask (keysById ids) =
    ((d.ask (fetchEntries "/pools/key/ids" ids)).1 >>= (·.mapM (PoolKeys.ofEntry d.levels)),
      (d.ask (fetchEntries "/pools/key/ids" ids)).2) := by
  unfold keysById
  rw [ask_get_bind]
  exact ask_bind_checked fun entries d' => by cases entries.mapM (PoolKeys.ofEntry d.levels) <;> rfl

theorem ask_poolsById : d.ask (poolsById ids) =
    ((d.ask (fetchEntries "/pools/info/ids" ids)).1 >>= (·.mapM (PoolEntry.ofEntry d.levels)),
      (d.ask (fetchEntries "/pools/info/ids" ids)).2) := by
  unfold poolsById
  rw [ask_get_bind]
  exact ask_bind_checked fun entries d' => by cases entries.mapM (PoolEntry.ofEntry d.levels) <;> rfl

end PoolSwap.Directory
