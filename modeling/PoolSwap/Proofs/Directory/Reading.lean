import PoolSwap.Proofs.Directory.Answers
import PoolSwap.Proofs.Number.Decimal
import PoolSwap.Proofs.Payload.Reader
import PoolSwap.Proofs.Pool.Entry
import Mathlib.Data.List.TakeWhile

/-! Values read from the answers of a directory, whatever these are. Every pool and every set of keys
is read from an item that an answer carries. What cannot be read is refused, but not always for a
reason of discovery: a successful answer may be no JSON, integers may be too long, values may be
nested too deep, and a number in a listed pool may be too large. -/
namespace PoolSwap

open Checked Fault

theorem Blank.strip_isInfix (blank : Char → Bool) (cs : List Char) : strip blank cs <:+: cs := by
  have hprefix : strip blank cs <+: cs.dropWhile blank :=
    List.reverse_suffix.1 (by rw [strip, List.reverse_reverse]; exact List.dropWhile_suffix blank)
  exact hprefix.isInfix.trans (List.dropWhile_suffix blank).isInfix

theorem TextReader.unreadable_of_read {reader : TextReader} {s : String} {rule : Breach}
    (h : reader.read s = .error rule) : Payload.Unreadable reader.levels s.toList rule := by
  unfold read at h
  dsimp only at h
  split at h
  · split at h
    · cases h
    · have hstripped := Payload.unreadable_of_ofText h
      rw [String.toList_ofList] at hstripped
      exact hstripped.of_isInfix (Blank.strip_isInfix Blank.isAsciiBlank s.toList)
  · exact Payload.unreadable_of_ofText h

namespace Response

/-- The value of an answer that came through. -/
def value? : Response → Option Payload
  | .answer status body => if status = 200 then body.read.toOption else none
  | _ => none

/-- The items of the list that an answer holds at a path, none if there is no list. -/
def items (path : List String) (r : Response) : List Payload :=
  match r.value?.bind (·.at? path) with
  | some (.list items) => items
  | _ => []

/-- Why an answer is refused: for a reason of discovery, for a text that cannot be read, or as the
report of a failure that cannot be shown. -/
inductive Refusal (levels : Nat) : Response → Fault → Prop
  | discovery {r : Response} (cause : DiscoveryCause) : Refusal levels r (.discovery cause)
  | undecodable : Refusal levels (.answer 200 .undecodable) (.breach .notText)
  | unreadable {s : String} {reader : TextReader} {rule : Breach}
      (unread : reader.read s = .error rule) (h : Payload.Unreadable reader.levels s.toList rule) :
      Refusal levels (.answer 200 (.text s reader)) (.breach rule)
  | unshowable {body : ResponseBody} {p : Payload} {rule : Breach} (read : body.read = .ok p)
      (failed : ¬(p.field? "success").any Payload.isGiven) (h : p.Unshowable levels rule) :
      Refusal levels (.answer 200 body) (.breach rule)

end Response

namespace Directory

variable {levels : Nat} {path : String} {r : Response} {p : Payload} {q : Listing} {rule : Breach}

theorem readResponse_eq_ok : readResponse levels path r = .ok p ↔
    r.value? = some p ∧ (p.field? "success").any Payload.isGiven := by
  unfold readResponse Response.value?
  split
  · exact ⟨nofun, nofun⟩
  · exact ⟨nofun, nofun⟩
  case h_3 status body =>
    dsimp only
    by_cases hstatus : status = 200
    · rw [if_neg (not_not.2 hstatus), if_pos hstatus]
      cases body.read with
      | error rule => exact ⟨nofun, nofun⟩
      | ok p' =>
        change (if (p'.field? "success").any Payload.isGiven then pure p' else _) = _ ↔
          some p' = some p ∧ _
        split
        case isTrue hsuccess =>
          rw [pure_eq_ok, Option.some.injEq, and_iff_left_of_imp]
          rintro rfl
          exact hsuccess
        case isFalse hfailure =>
          constructor
          · intro h
            obtain ⟨_, -, h⟩ := bind_eq_ok.1 h
            cases h
          · rintro ⟨⟨⟩, hsuccess⟩
            exact absurd hsuccess hfailure
    · rw [if_pos hstatus, if_neg hstatus]
      exact ⟨nofun, nofun⟩

theorem body_refusal {body : ResponseBody} (h : body.read = .error rule) :
    (Response.answer 200 body).Refusal levels (.breach rule) := by
  cases body with
  | value p => cases h
  | text s reader => exact .unreadable h (reader.unreadable_of_read h)
  | undecodable =>
    cases h
    exact .undecodable

theorem readResponse_refusal (levels : Nat) (path : String) (r : Response) :
    FailsWith (r.Refusal levels) (readResponse levels path r) := by
  unfold readResponse
  split
  · exact failsWith_error (.discovery _)
  · exact failsWith_error (.discovery _)
  case h_3 status body =>
    split
    case isTrue => exact failsWith_error (.discovery _)
    case isFalse hstatus =>
      obtain rfl := not_not.1 hstatus
      refine .bind_of_ok (failsWith_ofRule fun rule h => body_refusal h) fun p hp => ?_
      split
      · exact failsWith_ok p
      case isFalse hfailed =>
        refine .bind (failsWith_ofRule fun rule h => ?_) fun _ => failsWith_error (.discovery _)
        exact .unshowable (ofRule_eq_ok.1 hp) hfailed (Payload.unshowable_of_shown h)

/-- The answers that are refused for another reason than one of discovery. -/
theorem exists_readResponse_breach :
    (∃ rule, readResponse levels path r = .error (.breach rule)) ↔
      ∃ rule, r.Refusal levels (.breach rule) := by
  constructor
  · rintro ⟨rule, h⟩
    exact ⟨rule, readResponse_refusal levels path r _ h⟩
  · rintro ⟨rule, h⟩
    cases h with
    | undecodable => exact ⟨.notText, rfl⟩
    | @unreadable s reader rule unread =>
      refine ⟨rule, ?_⟩
      change ofRule (reader.read s) >>= _ = _
      rw [unread]
      rfl
    | @unshowable body p rule read failed h =>
      obtain ⟨rule, hshown⟩ := Payload.exists_shown_eq_error.2 ⟨rule, h⟩
      refine ⟨rule, ?_⟩
      change ofRule body.read >>= _ = _
      rw [read]
      change (if (p.field? "success").any Payload.isGiven then pure p else _) = _
      rw [if_neg failed, hshown]
      rfl

/-- A blank answer of a session that drops blanks is the report of a failure. -/
theorem readResponse_blank {s : String} (h : ∀ c ∈ s.toList, Blank.isAsciiBlank c) (depth : Nat) :
    readResponse (levels + 1) path (.answer 200 (.text s ⟨true, depth⟩)) =
      .error (.discovery (.reportedFailure path valueWords.absent)) := by
  have hstrip : Blank.strip Blank.isAsciiBlank s.toList = [] := by
    rw [Blank.strip, List.dropWhile_eq_nil_iff.2 h]
    rfl
  have hread : TextReader.read ⟨true, depth⟩ s = .ok .null := by
    rw [TextReader.read, hstrip]
    rfl
  change ofRule (TextReader.read ⟨true, depth⟩ s) >>= _ = _
  rw [hread]
  rfl

theorem next_mem_of_value? {d : Directory} (hvalue : d.next.value? = some p) :
    d.next ∈ d.pending := by
  rcases d.next_mem_or with hmem | hfailed
  · exact hmem
  · rw [hfailed] at hvalue
    cases hvalue

/-- Why values cannot be read from some answers: one of them is refused, or an item that one of them
carries is. -/
inductive Refused (levels : Nat) (refuses : Payload → Fault → Prop) (path : List String)
    (answers : List Response) : Fault → Prop
  | discovery (cause : DiscoveryCause) : Refused levels refuses path answers (.discovery cause)
  | answer {r : Response} {fault : Fault} (mem : r ∈ answers) (h : r.Refusal levels fault) :
      Refused levels refuses path answers fault
  | item {r : Response} {item : Payload} {fault : Fault} (mem : r ∈ answers)
      (carried : item ∈ r.items path) (refused : refuses item fault) :
      Refused levels refuses path answers fault

section Refused

variable {refuses : Payload → Fault → Prop} {fields : List String} {answers : List Response}
  {d : Directory}

theorem readResponse_refused (levels : Nat) (path : String) (hpending : d.pending ⊆ answers) :
    FailsWith (Refused levels refuses fields answers) (readResponse levels path d.next) := by
  refine (readResponse_refusal levels path d.next).mono fun fault h => ?_
  rcases d.next_mem_or with hmem | hfailed
  · exact .answer (hpending hmem) h
  · rw [hfailed] at h
    cases h
    exact .discovery _

end Refused

/-! The walk over the pages of a listing. -/
section Walk

/-- Where the answers of a listing carry pools. -/
def pageItems : List String := ["data", "data"]

variable {answers : List Response} {items : List Payload} {seen : List PoolEntry} {d : Directory}
  {page : Page} {n : Int}

/-- What was listed from some answers, and why the listing broke off. -/
structure ListedFrom (levels : Nat) (answers : List Response) (l : Listed) : Prop where
  pools : ∀ e ∈ l.pools, ∃ r ∈ answers, ∃ item ∈ r.items pageItems, e.Summarizes levels item
  fault : ∀ f ∈ l.fault, Refused levels (PoolEntry.Refusal levels) pageItems answers f

theorem takeItems_listedFrom {r : Response} (hr : r ∈ answers)
    (hitems : ∀ item ∈ items, item ∈ r.items pageItems)
    (hseen : ListedFrom levels answers ⟨seen, none⟩) :
    ListedFrom levels answers (takeItems levels q seen items) := by
  induction items generalizing seen with
  | nil => exact hseen
  | cons item rest ih =>
    have hmem : item ∈ r.items pageItems := hitems item List.mem_cons_self
    rw [takeItems]
    cases hitem : PoolEntry.ofEntry levels item with
    | error f =>
      refine ⟨hseen.pools, ?_⟩
      rintro _ ⟨⟩
      exact .item hr hmem (PoolEntry.ofEntry_refusal levels item f hitem)
    | ok e =>
      have hseen' : ListedFrom levels answers ⟨e :: seen, none⟩ :=
        ⟨List.forall_mem_cons.2 ⟨⟨r, hr, item, hmem, PoolEntry.ofEntry_eq_ok.1 hitem⟩, hseen.pools⟩,
          nofun⟩
      dsimp only
      split
      · exact hseen'
      · exact ih (fun i hi => hitems i (List.mem_cons_of_mem _ hi)) hseen'

/-- One round of the walk. -/
theorem listPages_succ (d : Directory) (fuel : Nat) :
    (listPages q (fuel + 1) n seen).run d =
      if q.isFilled seen.length then (⟨seen, none⟩, d)
      else match d.ask (fetchPage q n) with
        | (.error f, d') => (⟨seen, some f⟩, d')
        | (.ok page, d') =>
          let listed := takeItems d.levels q seen page.items
          if page.items.isEmpty && seen.isEmpty && q.requireMatch then
            (⟨seen, some (.discovery
              (.noPools ((q.kind.map (·.name)).getD "any") q.mintA q.mintB))⟩, d')
          else if listed.fault.isSome || q.isFilled listed.pools.length then (listed, d')
          else if page.hasNext && !page.items.isEmpty then
            (listPages q fuel (n + 1) listed.pools).run d'
          else (listed, d') := by
  rw [listPages]
  split
  · rfl
  · unfold ask
    rw [StateT.run_bind, StateT.run_get, pure_bind, StateT.run_bind]
    rcases (fetchPage q n).run.run d with ⟨f | page, d'⟩
    · rfl
    · change StateT.run (ite _ _ _) d' = _
      dsimp only
      split
      · rfl
      · split
        · rfl
        · split <;> rfl

theorem page_isDiscovery (p : Payload) : FailsWith IsDiscovery (Page.ofPayload p) := by
  unfold Page.ofPayload
  dsimp only
  split
  · exact failsWith_ok _
  · exact failsWith_error (.discovery _)

theorem items_of_page {r : Response} (hvalue : r.value? = some p)
    (hpage : Page.ofPayload p = .ok page) : page.items = r.items pageItems := by
  unfold Page.ofPayload at hpage
  cases hdata : p.field? "data" with
  | none =>
    rw [hdata] at hpage
    cases hpage
  | some body =>
    rw [hdata] at hpage
    dsimp only [Option.getD_some] at hpage
    split at hpage
    case h_1 items hitems =>
      cases hpage
      unfold Response.items pageItems
      rw [hvalue, Option.bind_some, Payload.at?_of_field? hdata, Payload.at?_singleton, hitems]
    case h_2 => cases hpage

/-- Whatever the answers are, pools are listed from the items they carry. -/
theorem listPages_listedFrom (hopen : d.current.isSome) (hpending : d.pending ⊆ answers)
    (hseen : ListedFrom d.levels answers ⟨seen, none⟩) (fuel : Nat) :
    ListedFrom d.levels answers ((listPages q fuel n seen).run d).1 := by
  induction fuel generalizing n seen d with
  | zero => exact hseen
  | succ fuel ih =>
    -- A round takes one answer, so those left for the next round are still among the answers.
    rw [listPages_succ, ask_fetchPage hopen]
    split
    · exact hseen
    have hrefused : FailsWith (Refused d.levels (PoolEntry.Refusal d.levels) pageItems answers)
        (readResponse d.levels "/pools/info/mint" d.next >>= Page.ofPayload) :=
      (readResponse_refused d.levels _ hpending).bind fun p =>
        (page_isDiscovery p).mono fun _ ⟨cause⟩ => .discovery cause
    cases hpage : readResponse d.levels "/pools/info/mint" d.next >>= Page.ofPayload with
    | error f =>
      refine ⟨hseen.pools, ?_⟩
      rintro _ ⟨⟩
      exact hrefused f hpage
    | ok page =>
      obtain ⟨p, hp, hpage⟩ := bind_eq_ok.1 hpage
      obtain ⟨hvalue, -⟩ := readResponse_eq_ok.1 hp
      have hlisted : ListedFrom d.levels answers (takeItems d.levels q seen page.items) :=
        takeItems_listedFrom (hpending (next_mem_of_value? hvalue))
          (fun item hitem => items_of_page hvalue hpage ▸ hitem) hseen
      dsimp only
      split
      · refine ⟨hseen.pools, ?_⟩
        rintro _ ⟨⟩
        exact .discovery _
      · split
        · exact hlisted
        · split
          · refine ih (d := d.answered "/pools/info/mint" (q.params n)) hopen ?_
              ⟨hlisted.pools, nofun⟩
            rw [pending_answered]
            exact fun r hr => hpending (List.mem_of_mem_tail hr)
          · exact hlisted

/-- What a listing returns, unless it broke off. -/
def Listed.answer (l : Listed) : Checked (List PoolEntry) :=
  match l.fault with
  | none => .ok l.pools.reverse
  | some f => .error f

/-- The answers that are left bound the rounds of a listing. -/
theorem ask_pools (hcheck : q.check = .ok ()) : d.ask (pools q) =
    (Listed.answer ((listPages q (d.pending.length + 2) q.page []).run d).1,
      ((listPages q (d.pending.length + 2) q.page []).run d).2) := by
  have hlist : (listPools q).run d =
      ((((listPages q (d.pendingCount + 2) q.page []).run d).1.pools.reverse,
        ((listPages q (d.pendingCount + 2) q.page []).run d).1.fault),
        ((listPages q (d.pendingCount + 2) q.page []).run d).2) := by
    unfold listPools
    rw [hcheck]
    rfl
  unfold pools
  rw [ask_lift_bind, hlist, pendingCount_eq]
  unfold Listed.answer
  cases ((listPages q (d.pending.length + 2) q.page []).run d).1.fault <;> rfl

end Walk

/-- A query of values that are all read from the items that some answers carry. Without them there is
a reason in the answers. -/
structure Reads (levels : Nat) (publishes : Payload → β → Prop) (refuses : Payload → Fault → Prop)
    (path : List String) (answers : List Response) (values : Checked (List β)) : Prop where
  read : ∀ vs, values = .ok vs → ∀ v ∈ vs, ∃ r ∈ answers, ∃ item ∈ r.items path, publishes item v
  refused : FailsWith (Refused levels refuses path answers) values

theorem pools_reads {d : Directory} (hopen : d.current.isSome) (hcheck : q.check = .ok ()) :
    Reads d.levels (PoolEntry.Summarizes d.levels) (PoolEntry.Refusal d.levels) pageItems d.pending
      (d.ask (pools q)).1 := by
  have hlisted : ListedFrom d.levels d.pending
      ((listPages q (d.pending.length + 2) q.page []).run d).1 :=
    listPages_listedFrom hopen (List.Subset.refl _) ⟨List.forall_mem_nil _, nofun⟩ _
  rw [ask_pools hcheck]
  unfold Listed.answer
  cases hfault : ((listPages q (d.pending.length + 2) q.page []).run d).1.fault with
  | none =>
    refine ⟨?_, failsWith_ok _⟩
    rintro _ ⟨⟩ e he
    exact hlisted.pools e (List.mem_reverse.1 he)
  | some f => exact ⟨nofun, failsWith_error (hlisted.fault f hfault)⟩

section ById

variable {ids : List String} {read : Payload → Checked β} {publishes : Payload → β → Prop}
  {refuses : Payload → Fault → Prop} {d : Directory}

/-- Where the answers to a request by identifiers carry entries. -/
def listItems : List String := ["data"]

theorem entries_eq {r : Response} {entries : List Payload} (hvalue : r.value? = some p)
    (hentries : entriesOf path p = .ok entries) :
    entries = (r.items listItems).filter Payload.isGiven := by
  unfold entriesOf at hentries
  split at hentries
  case h_1 items hitems =>
    cases hentries
    unfold Response.items listItems
    rw [hvalue, Option.bind_some, Payload.at?_singleton, hitems]
  case h_2 => cases hentries

theorem entriesOf_isDiscovery (path : String) (p : Payload) :
    FailsWith IsDiscovery (entriesOf path p) := by
  unfold entriesOf
  split
  · exact failsWith_ok _
  · exact failsWith_error (.discovery _)

theorem fetchEntries_reads (hopen : d.current.isSome)
    (hread : ∀ item v, read item = .ok v → publishes item v)
    (hrefuses : ∀ item, FailsWith (refuses item) (read item)) :
    Reads d.levels publishes refuses listItems d.pending
      ((d.ask (fetchEntries path ids)).1 >>= (·.mapM read)) := by
  by_cases hids : ids = []
  · rw [hids, ask_fetchEntries_nil]
    refine ⟨?_, failsWith_ok _⟩
    rintro _ ⟨⟩ _ ⟨⟩
  rw [ask_fetchEntries hopen hids]
  constructor
  · intro vs h v hv
    obtain ⟨entries, hentries, h⟩ := bind_eq_ok.1 h
    obtain ⟨p, hp, hentries⟩ := bind_eq_ok.1 hentries
    obtain ⟨item, hitem, hv⟩ := exists_of_mem_mapM h hv
    have hvalue := (readResponse_eq_ok.1 hp).1
    rw [entries_eq hvalue hentries] at hitem
    exact ⟨d.next, next_mem_of_value? hvalue, item, (List.mem_filter.1 hitem).1, hread item v hv⟩
  · refine .bind_of_ok (.bind (readResponse_refused d.levels path (List.Subset.refl _)) fun p => ?_)
      fun entries hentries => ?_
    · exact (entriesOf_isDiscovery path p).mono fun _ ⟨cause⟩ => .discovery cause
    · intro fault h
      obtain ⟨item, hitem, h⟩ := exists_of_mapM_eq_error h
      obtain ⟨p, hp, hentries⟩ := bind_eq_ok.1 hentries
      have hvalue := (readResponse_eq_ok.1 hp).1
      rw [entries_eq hvalue hentries] at hitem
      exact .item (next_mem_of_value? hvalue) (List.mem_filter.1 hitem).1 (hrefuses item fault h)

theorem poolsById_reads (hopen : d.current.isSome) (ids : List String) :
    Reads d.levels (PoolEntry.Summarizes d.levels) (PoolEntry.Refusal d.levels) listItems d.pending
      (d.ask (poolsById ids)).1 := by
  rw [ask_poolsById]
  exact fetchEntries_reads hopen (fun _ _ => PoolEntry.ofEntry_eq_ok.1)
    (PoolEntry.ofEntry_refusal d.levels)

theorem keysById_reads (hopen : d.current.isSome) (ids : List String) :
    Reads d.levels PoolKeys.PublishedBy (PoolKeys.Refusal d.levels) listItems d.pending
      (d.ask (keysById ids)).1 := by
  rw [ask_keysById]
  exact fetchEntries_reads hopen (fun _ _ => PoolKeys.ofEntry_eq_ok.1)
    (PoolKeys.ofEntry_refusal d.levels)

end ById

/-- Whatever a directory on an open session is answered, what it returns is read from the items of
the answers, and the rest is refused. It is refused for a reason of discovery, but for these: an
answer whose text cannot be read, a failure or an item that has to be shown and cannot be, and a
listed pool with a number that is too large. -/
theorem answers_read_or_refused {d : Directory} (hopen : d.current.isSome) :
    (∀ q : Listing, q.check = .ok () →
      Reads d.levels (PoolEntry.Summarizes d.levels) (PoolEntry.Refusal d.levels) pageItems d.pending
        (d.ask (pools q)).1) ∧
    (∀ ids, Reads d.levels (PoolEntry.Summarizes d.levels) (PoolEntry.Refusal d.levels) listItems
      d.pending (d.ask (poolsById ids)).1) ∧
    (∀ ids, Reads d.levels PoolKeys.PublishedBy (PoolKeys.Refusal d.levels) listItems d.pending
      (d.ask (keysById ids)).1) ∧
    (∀ path r, (∃ rule, readResponse d.levels path r = .error (.breach rule)) ↔
      ∃ rule, r.Refusal d.levels (.breach rule)) ∧
    (∀ entry e, PoolEntry.ofEntry d.levels entry = .ok e ↔ e.Summarizes d.levels entry) ∧
    (∀ entry, FailsWith (PoolEntry.Refusal d.levels entry) (PoolEntry.ofEntry d.levels entry)) ∧
    (∀ entry keys, PoolKeys.ofEntry d.levels entry = .ok keys ↔ keys.PublishedBy entry) ∧
    ∀ entry, FailsWith (PoolKeys.Refusal d.levels entry) (PoolKeys.ofEntry d.levels entry) :=
  ⟨fun _ => pools_reads hopen, poolsById_reads hopen, keysById_reads hopen,
    fun _ _ => exists_readResponse_breach, fun _ _ => PoolEntry.ofEntry_eq_ok,
    PoolEntry.ofEntry_refusal d.levels, fun _ _ => PoolKeys.ofEntry_eq_ok,
    PoolKeys.ofEntry_refusal d.levels⟩

/-- All pools of a pair. -/
def everyPool : Listing where
  mintA := ""
  mintB := ""
  kind := none
  limit := none

/-- A directory that is about to be answered with a text that is no JSON. -/
def garbled : Directory := onSession "" [.answer 200 (.text "not json" ⟨true, Payload.usualLevels⟩)]

/-- An entry of a pool with a price. -/
def priced (price : Payload) : Payload :=
  let mint : Payload := .record [("address", .text ""), ("decimals", .int 6)]
  .record [("id", .text ""), ("programId", .text ""), ("mintA", mint), ("mintB", mint),
    ("price", price)]

/-- A directory that is about to be answered with the last page of a listing. -/
def lastPage (items : List Payload) : Directory := onSession ""
  [.answer 200 (.value (.record [("success", .bool true), ("data", .record [("data", .list items)])]))]

theorem answers_read_or_refused_pages :
    garbled.current.isSome ∧ (lastPage [priced .null]).current.isSome ∧
    everyPool.check = .ok () ∧
    Refused garbled.levels (PoolEntry.Refusal garbled.levels) pageItems garbled.pending
      (.breach .malformedJson) ∧
    ∃ e, ((lastPage [priced .null]).ask (pools everyPool)).1 = .ok [e] ∧
      ∃ r ∈ (lastPage [priced .null]).pending, ∃ item ∈ r.items pageItems,
        e.Summarizes (lastPage [priced .null]).levels item :=
  ⟨rfl, rfl, rfl, ((answers_read_or_refused (d := garbled) rfl).1 everyPool rfl).refused _ rfl,
    _, rfl, ((answers_read_or_refused (d := lastPage [priced .null]) rfl).1 everyPool rfl).read _ rfl
      _ List.mem_cons_self⟩

theorem ofEntry_priced (levels : Nat) {n : Int} (beyond : Binary64.ofInt? n = none) :
    PoolEntry.ofEntry levels (priced (.int n)) = .error (.breach .tooLarge) := by
  change ((ofOption .tooLarge (Binary64.ofInt? n)).map some >>= _) = _
  rw [beyond]
  rfl

/-- An entry of keys that gives a value in place of its program. -/
def ownedBy (program : Payload) : Payload := .record [("programId", program)]

theorem ofEntry_ownedBy_int (levels : Nat) {n : Int}
    (long : Numeral.maxIntegerDigits < digitCount n.natAbs) :
    PoolKeys.ofEntry (levels + 1) (ownedBy (.int n)) = .error (.breach .tooManyDigits) := by
  change ofRule (Payload.shownInteger n) >>= _ >>= _ = _
  rw [Payload.shownInteger_eq_error.2 ⟨long, rfl⟩]
  rfl

/-- An empty list in so many lists. -/
def nested : Nat → Payload
  | 0 => .list []
  | depth + 1 => .list [nested depth]

theorem shown_nested (levels : Nat) : (nested levels).shown levels = .error .tooDeep := by
  induction levels with
  | zero => rfl
  | succ levels ih =>
    rw [nested, Payload.shown, Payload.shownItems, ih]
    rfl

theorem ofEntry_ownedBy_nested (levels : Nat) :
    PoolKeys.ofEntry levels (ownedBy (nested levels)) = .error (.breach .tooDeep) := by
  have haddress : PoolKeys.address levels "programId" (nested levels) =
      PoolKeys.refuseAddress levels "programId" (nested levels) := by
    cases levels <;> rfl
  change PoolKeys.address levels "programId" (nested levels) >>= _ = _
  rw [haddress, PoolKeys.refuseAddress, shown_nested]
  rfl

/-- None of these is refused for a reason of discovery: an answer that is no JSON, a price beyond all
doubles, and in place of an address an integer that is too long or lists nested too deep. -/
theorem answers_refused_otherwise :
    (garbled.ask (pools everyPool)).1 = .error (.breach .malformedJson) ∧
    (∀ levels, PoolEntry.ofEntry levels (priced (.int (1 <<< 1024))) = .error (.breach .tooLarge)) ∧
    (∀ levels, PoolKeys.ofEntry (levels + 1) (ownedBy (.int (Nat.pow 10 Numeral.maxIntegerDigits))) =
      .error (.breach .tooManyDigits)) ∧
    (∀ levels, PoolKeys.ofEntry levels (ownedBy (nested levels)) = .error (.breach .tooDeep)) ∧
    ∀ rule, ¬IsDiscovery (.breach rule) := by
  refine ⟨rfl, fun levels => ?_, fun levels => ?_, ofEntry_ownedBy_nested, fun rule => nofun⟩
  · exact ofEntry_priced levels (Option.isNone_iff_eq_none.1 (by decide +kernel))
  · exact ofEntry_ownedBy_int levels (Int.natAbs_natCast _ ▸ lt_digitCount_pow (by decide))

end Directory
end PoolSwap
