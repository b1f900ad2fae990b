import PoolSwap.Proofs.Directory.Reading
import Mathlib.Data.List.Forall2
import Mathlib.Data.List.Induction

/-! Listings over the pages that a service has of them. A listing returns the pools of the pages up
to the last one, or the first of these if it is limited, and it asks for a page only where the pages
before it neither are the last ones nor hold all the pools it is to return. -/
namespace PoolSwap.Directory

open Checked

/-- A page of a listing, and whether the service has another one after it. -/
structure PoolPage where
  pools : List PoolEntry
  hasNext : Bool

namespace PoolPage

def isLast (page : PoolPage) : Bool := page.pools.isEmpty || !page.hasNext

/-- The pages up to the first one that is last, which is among them. -/
def upToLast : List PoolPage → List PoolPage
  | [] => []
  | page :: rest => if page.isLast then [page] else page :: upToLast rest

theorem upToLast_append {pages : List PoolPage} (h : ∀ page ∈ pages, page.isLast = false)
    (rest : List PoolPage) :
    upToLast (pages ++ rest) = pages ++ upToLast rest := by
  induction pages with
  | nil => rfl
  | cons page pages ih =>
    obtain ⟨hpage, hpages⟩ := List.forall_mem_cons.1 h
    rw [List.cons_append, upToLast, hpage, if_neg Bool.false_ne_true, ih hpages, List.cons_append]

end PoolPage

/-- Whether an answer serves a page: it reports success and lists an item for each pool. -/
inductive Serves (levels : Nat) (r : Response) (page : PoolPage) : Prop
  | list {p : Payload} {items : List Payload} (value : r.value? = some p)
      (success : (p.field? "success").any Payload.isGiven)
      (listed : p.at? pageItems = some (.list items))
      (pools : items.Forall₂ (PoolEntry.Summarizes levels) page.pools)
      (hasNext : page.hasNext = (p.at? ["data", "hasNextPage"]).any Payload.isGiven) :
      Serves levels r page

theorem Serves.read {levels : Nat} {r : Response} {page : PoolPage} (h : Serves levels r page)
    (path : String) : ∃ read : Page, readResponse levels path r >>= Page.ofPayload = .ok read ∧
      read.hasNext = page.hasNext ∧
      read.items.Forall₂ (PoolEntry.Summarizes levels) page.pools := by
  obtain @⟨p, items, hvalue, hsuccess, hlisted, hpools, hnext⟩ := h
  obtain ⟨body, hbody, hlisted⟩ := Payload.at?_cons_eq_some.1 hlisted
  rw [Payload.at?_singleton] at hlisted
  refine ⟨⟨items, (body.field? "hasNextPage").any Payload.isGiven⟩, ?_, ?_, hpools⟩
  · refine bind_eq_ok.2 ⟨p, readResponse_eq_ok.2 ⟨hvalue, hsuccess⟩, ?_⟩
    unfold Page.ofPayload
    rw [hbody, Option.getD_some]
    dsimp only
    rw [hlisted]
  · rw [hnext, Payload.at?_of_field? hbody, Payload.at?_singleton]

namespace Listing

/-- What a request for a page of a listing asks the service for. -/
def pageParams (q : Listing) (page : Int) : List (String × Payload) :=
  let kind := match q.kind with
    | none => "all"
    | some .standard => "standard"
    | some .concentrated => "concentrated"
  [("mint1", .text q.mintA), ("mint2", .text q.mintB), ("poolType", .text kind),
    ("poolSortField", .text q.sortField), ("sortType", .text q.sortOrder),
    ("pageSize", .int q.pageSize), ("page", .int page)]

theorem params_eq (q : Listing) (page : Int) : q.params page = q.pageParams page := by
  unfold params pageParams
  cases q.kind with
  | none => rfl
  | some kind => cases kind <;> rfl

/-- The first of a list, as many as a listing returns. -/
def first (q : Listing) (l : List α) : List α :=
  match q.limit with
  | some n => l.take n.toNat
  | none => l

def requiring (q : Listing) : Listing := { q with requireMatch := true }

/-- Whether a listing goes on after some pages: none of them is last, and they hold too few pools. -/
structure GoesOn (q : Listing) (pages : List PoolPage) : Prop where
  more : ∀ page ∈ pages, page.isLast = false
  room : ∀ n ∈ q.limit, ((pages.flatMap PoolPage.pools).length : Int) < n

variable {q : Listing} {pages before after : List PoolPage} {page : PoolPage} {count : Nat}
  {l : List α}

theorem check_eq_ok (hpage : 1 ≤ q.page) (hsize : 1 ≤ q.pageSize ∧ q.pageSize ≤ maxPageSize)
    (horder : q.sortOrder = "desc" ∨ q.sortOrder = "asc") : q.check = .ok () := by
  unfold check
  rw [if_neg (Int.not_lt.2 hpage), if_neg (by omega), if_neg (by tauto)]

theorem isFilled_eq_false : q.isFilled count = false ↔ ∀ n ∈ q.limit, (count : Int) < n := by
  unfold isFilled
  cases q.limit with
  | none => simp
  | some n => simp

theorem isFilled_zero : q.isFilled 0 ↔ ∃ n ∈ q.limit, n ≤ 0 := by
  unfold isFilled
  cases q.limit with
  | none => simp
  | some n => simp

theorem first_eq_self (h : ∀ n ∈ q.limit, (l.length : Int) ≤ n) : q.first l = l := by
  unfold first
  cases hlimit : q.limit with
  | none => rfl
  | some n =>
    have := h n hlimit
    exact List.take_of_length_le (by omega)

theorem first_of_room (h : q.isFilled l.length = false) : q.first l = l :=
  first_eq_self fun n hn => Int.le_of_lt (isFilled_eq_false.1 h n hn)

theorem first_append (h : q.isFilled l.length) (l' : List α) : q.first (l ++ l') = q.first l := by
  unfold isFilled at h
  unfold first
  cases hlimit : q.limit with
  | none =>
    rw [hlimit] at h
    cases h
  | some n =>
    rw [hlimit, Option.any_some, decide_eq_true_iff] at h
    exact List.take_append_of_le_length (by omega)

theorem first_nil : q.first ([] : List α) = [] := by
  unfold first
  cases q.limit with
  | none => rfl
  | some n => exact List.take_nil

theorem isFilled_first : q.isFilled (q.first l).length = q.isFilled l.length := by
  unfold isFilled first
  cases q.limit with
  | none => rfl
  | some n =>
    simp only [Option.any_some, List.length_take, decide_eq_decide]
    omega

theorem GoesOn.isFilled (h : q.GoesOn pages) :
    q.isFilled (pages.flatMap PoolPage.pools).length = false := isFilled_eq_false.2 h.room

theorem isFilled_zero_of_not_goesOn (h : ¬q.GoesOn []) : q.isFilled 0 := by
  by_contra hroom
  exact h ⟨List.forall_mem_nil _, isFilled_eq_false.1 (Bool.eq_false_iff.2 hroom)⟩

theorem GoesOn.of_append (h : q.GoesOn (pages ++ after)) : q.GoesOn pages := by
  refine ⟨fun page hpage => h.more page (List.mem_append_left _ hpage), fun n hn => ?_⟩
  have := h.room n hn
  rw [List.flatMap_append, List.length_append] at this
  omega

theorem GoesOn.of_prefix (h : q.GoesOn pages) (hbefore : before <+: pages) : q.GoesOn before := by
  obtain ⟨after, rfl⟩ := hbefore
  exact h.of_append

/-- A listing that ends ends after one of the pages. -/
theorem exists_end (hstart : q.GoesOn []) (hends : ¬q.GoesOn pages) :
    ∃ before page after, pages = before ++ page :: after ∧ q.GoesOn before ∧
      ¬q.GoesOn (before ++ [page]) := by
  induction pages using List.reverseRecOn with
  | nil => exact absurd hstart hends
  | append_singleton pages page ih =>
    by_cases hpages : q.GoesOn pages
    · exact ⟨pages, page, [], rfl, hpages, hends⟩
    · obtain ⟨before, last, after, rfl, hbefore, hlast⟩ := ih hpages
      exact ⟨before, last, after ++ [page], by simp, hbefore, hlast⟩

theorem isLast_or_isFilled (hbefore : q.GoesOn before) (hends : ¬q.GoesOn (before ++ [page])) :
    page.isLast || q.isFilled ((before ++ [page]).flatMap PoolPage.pools).length := by
  by_contra hcontinues
  rw [Bool.or_eq_true, not_or] at hcontinues
  obtain ⟨hlast, hroom⟩ := hcontinues
  refine hends ⟨List.forall_mem_append.2 ⟨hbefore.more, ?_⟩,
    isFilled_eq_false.1 (Bool.eq_false_iff.2 hroom)⟩
  exact List.forall_mem_singleton.2 (Bool.eq_false_iff.2 hlast)

/-- The pages after the one that a listing ends with add nothing to it. -/
theorem first_upToLast (hbefore : q.GoesOn before) (hends : ¬q.GoesOn (before ++ [page])) :
    q.first ((PoolPage.upToLast (before ++ page :: after)).flatMap PoolPage.pools) =
      q.first ((before ++ [page]).flatMap PoolPage.pools) := by
  rw [PoolPage.upToLast_append hbefore.more, PoolPage.upToLast]
  split
  · rfl
  case isFalse hlast =>
    -- The page is not the last one, so the pools up to it are enough.
    have hfilled := (Bool.or_eq_true_iff.1 (isLast_or_isFilled hbefore hends)).resolve_left hlast
    rw [List.append_cons, List.flatMap_append, first_append hfilled]

end Listing

/-- The directory after requests for some pages, from one on. -/
def askedPages (d : Directory) (q : Listing) (page : Int) : Nat → Directory
  | 0 => d
  | count + 1 => (d.answered "/pools/info/mint" (q.params page)).askedPages q (page + 1) count

section Asked

variable {d : Directory} {q : Listing} {n : Int} {count more : Nat}

@[simp] theorem levels_askedPages : (d.askedPages q n count).levels = d.levels := by
  induction count generalizing d n with
  | zero => rfl
  | succ count ih => exact ih

@[simp] theorem current_askedPages : (d.askedPages q n count).current = d.current := by
  induction count generalizing d n with
  | zero => rfl
  | succ count ih => exact ih

theorem pending_askedPages : (d.askedPages q n count).pending = d.pending.drop count := by
  induction count generalizing d n with
  | zero => rfl
  | succ count ih => rw [askedPages, ih, pending_answered, List.drop_tail]

/-- The pages are requested in their order, each once. -/
theorem requests_askedPages : (d.askedPages q n count).requests =
    ((List.range count).map fun i : Nat =>
      Request.mk (d.baseUrl ++ "/pools/info/mint") (q.params (n + i))).reverse ++ d.requests := by
  induction count generalizing d n with
  | zero => rfl
  | succ count ih =>
    rw [askedPages, ih, List.range_succ_eq_map]
    simp [Function.comp_def, Int.add_assoc, Int.add_comm 1]

theorem askedPages_add : d.askedPages q n (count + more) =
    (d.askedPages q n count).askedPages q (n + count) more := by
  induction count generalizing d n with
  | zero => simp [askedPages]
  | succ count ih =>
    rw [Nat.add_right_comm, askedPages, ih, askedPages]
    push_cast
    rw [Int.add_assoc, Int.add_comm 1]

end Asked

section Served

variable {levels : Nat} {d : Directory} {q : Listing} {answers later : List Response}
  {before pages : List PoolPage} {page : PoolPage} {items : List Payload}
  {entries seen : List PoolEntry} {n : Int}

/-- Pools are taken from a page until the listing has enough of them. -/
theorem takeItems_eq (h : items.Forall₂ (PoolEntry.Summarizes levels) entries)
    (hroom : q.isFilled seen.length = false) :
    takeItems levels q seen items = ⟨(q.first (seen.reverse ++ entries)).reverse, none⟩ := by
  induction h generalizing seen with
  | nil =>
    rw [takeItems, List.append_nil, Listing.first_of_room, List.reverse_reverse]
    rwa [List.length_reverse]
  | @cons item e _ _ hitem _ ih =>
    rw [takeItems, PoolEntry.ofEntry_eq_ok.2 hitem]
    dsimp only
    split
    case isTrue hfilled =>
      have htaken : q.first (seen.reverse ++ [e]) = seen.reverse ++ [e] := by
        refine Listing.first_eq_self fun limit hlimit => ?_
        have := Listing.isFilled_eq_false.1 hroom limit hlimit
        simp
        omega
      rw [List.append_cons, Listing.first_append (by simpa using hfilled), htaken]
      simp
    case isFalse hmore =>
      have hmore : q.isFilled (e :: seen).length = false := Bool.eq_false_iff.2 hmore
      rw [ih hmore, List.reverse_cons, List.append_assoc, List.singleton_append]

/-- A round that is answered with a page. -/
theorem listPages_of_served (hopen : d.current.isSome) (hserved : Serves d.levels d.next page)
    (hmatch : q.requireMatch = false) (hroom : q.isFilled seen.length = false) (fuel : Nat) :
    (listPages q (fuel + 1) n seen).run d =
      if page.isLast || q.isFilled (seen.reverse ++ page.pools).length then
        (⟨(q.first (seen.reverse ++ page.pools)).reverse, none⟩, d.askedPages q n 1)
      else (listPages q fuel (n + 1) (seen.reverse ++ page.pools).reverse).run
        (d.askedPages q n 1) := by
  obtain ⟨read, hread, hnext, hitems⟩ := hserved.read "/pools/info/mint"
  have hgoes : (read.hasNext && !read.items.isEmpty) = !page.isLast := by
    have hempty : read.items.isEmpty = page.pools.isEmpty := by
      rw [Bool.eq_iff_iff, List.isEmpty_iff_length_eq_zero, List.isEmpty_iff_length_eq_zero,
        hitems.length_eq]
    rw [hnext, hempty, PoolPage.isLast, Bool.not_or, Bool.not_not, Bool.and_comm]
  rw [listPages_succ, hroom, if_neg Bool.false_ne_true, ask_fetchPage hopen, hread]
  dsimp only
  rw [hmatch, Bool.and_false, if_neg Bool.false_ne_true, takeItems_eq hitems hroom, hgoes,
    List.length_reverse, Listing.isFilled_first]
  generalize seen.reverse ++ page.pools = listed
  cases hfilled : q.isFilled listed.length with
  | true => rw [Bool.or_true, Bool.or_true, if_pos rfl, if_pos rfl, askedPages, askedPages]
  | false =>
    rw [Listing.first_of_room hfilled, askedPages, askedPages]
    cases page.isLast <;> rfl

/-- The pools of some pages, in the order in which a listing holds them. -/
def held (pages : List PoolPage) : List PoolEntry := (pages.flatMap PoolPage.pools).reverse

theorem reverse_held_append (before : List PoolPage) (page : PoolPage) :
    (held before).reverse ++ page.pools = (before ++ [page]).flatMap PoolPage.pools := by
  simp [held]

theorem isFilled_held (h : q.GoesOn pages) : q.isFilled (held pages).length = false := by
  rw [held, List.length_reverse]
  exact h.isFilled

/-- Pages that a listing goes on after are all requested, and their pools are listed. -/
theorem listPages_goesOn (before : List PoolPage) (hopen : d.current.isSome)
    (hlevels : d.levels = levels) (hpending : d.pending = answers ++ later)
    (hserved : answers.Forall₂ (Serves levels) pages)
    (hmatch : q.requireMatch = false) (h : q.GoesOn (before ++ pages)) (fuel : Nat) :
    (listPages q (fuel + pages.length) n (held before)).run d =
      (listPages q fuel (n + pages.length) (held (before ++ pages))).run
        (d.askedPages q n pages.length) := by
  -- Each round moves a page to those before, whose pools are all listed.
  induction hserved generalizing before d n with
  | nil => simp [askedPages]
  | @cons r page answers pages hr _ ih =>
    have h : q.GoesOn ((before ++ [page]) ++ pages) := List.append_cons .. ▸ h
    have hlast : page.isLast = false := h.more page (by simp)
    have hnext : d.next = r := by rw [next, hpending]; rfl
    rw [List.length_cons, ← Nat.add_assoc,
      listPages_of_served hopen (hlevels ▸ hnext ▸ hr) hmatch (isFilled_held h.of_append.of_append),
      reverse_held_append, hlast, h.of_append.isFilled, Bool.or_false, if_neg Bool.false_ne_true,
      ← held, ih _ (by simpa using hopen) (by simpa using hlevels)
        (by simp [pending_askedPages, hpending]) h,
      ← List.append_cons, Nat.add_comm pages.length, askedPages_add]
    push_cast
    rw [Int.add_assoc]

/-- A page that a listing ends with is the last one requested. -/
theorem listPages_ends {r : Response} (hopen : d.current.isSome)
    (hpending : d.pending = answers ++ r :: later)
    (hserved : answers.Forall₂ (Serves d.levels) before) (hpage : Serves d.levels r page)
    (hmatch : q.requireMatch = false) (hbefore : q.GoesOn before)
    (hends : ¬q.GoesOn (before ++ [page])) (fuel : Nat) :
    (listPages q (fuel + 1 + before.length) n []).run d =
      (⟨(q.first ((before ++ [page]).flatMap PoolPage.pools)).reverse, none⟩,
        d.askedPages q n (before.length + 1)) := by
  have hnext : (d.askedPages q n before.length).next = r := by
    rw [next, pending_askedPages, hpending, List.drop_left' hserved.length_eq]
    rfl
  have hgoesOn := listPages_goesOn (n := n) [] hopen rfl hpending hserved hmatch hbefore (fuel + 1)
  rw [List.nil_append] at hgoesOn
  refine hgoesOn.trans ?_
  rw [listPages_of_served (by simpa using hopen) (by rwa [levels_askedPages, hnext]) hmatch
    (isFilled_held hbefore), reverse_held_append, if_pos (Listing.isLast_or_isFilled hbefore hends), askedPages_add]

/-- A listing that ends on the pages returns their pools up to the last one, after a request for
each page up to the one it ends with. -/
theorem listPages_served (hopen : d.current.isSome) (hpending : d.pending = answers ++ later)
    (hserved : answers.Forall₂ (Serves d.levels) pages) (hmatch : q.requireMatch = false)
    (hstart : q.GoesOn []) (hends : ¬q.GoesOn pages) (fuel : Nat) :
    ∃ count, (∀ k, k < count ↔ q.GoesOn (pages.take k)) ∧
      (listPages q (fuel + pages.length) n []).run d =
        (⟨(q.first ((PoolPage.upToLast pages).flatMap PoolPage.pools)).reverse, none⟩,
          d.askedPages q n count) := by
  obtain ⟨before, page, after, rfl, hbefore, hpage⟩ := Listing.exists_end hstart hends
  refine ⟨before.length + 1, fun k => ⟨fun h => ?_, fun h => ?_⟩, ?_⟩
  · rw [List.take_append_of_le_length (Nat.le_of_lt_succ h)]
    exact hbefore.of_prefix (List.take_prefix k before)
  · by_contra hlt
    refine hpage (h.of_prefix (List.prefix_take_iff.2 ⟨⟨after, by simp⟩, ?_⟩))
    rwa [List.length_append, List.length_singleton, ← Nat.not_lt]
  · obtain ⟨r, rest, hr, -, hrest⟩ :=
      List.forall₂_cons_right_iff.1 (List.forall₂_drop_append answers before _ hserved)
    have hpending : d.pending = answers.take before.length ++ r :: (rest ++ later) := by
      rw [← List.cons_append, ← hrest, ← List.append_assoc, List.take_append_drop, hpending]
    have hfuel : fuel + (before ++ page :: after).length =
        fuel + after.length + 1 + before.length := by
      simp
      omega
    rw [hfuel, Listing.first_upToLast hbefore hpage]
    exact listPages_ends hopen hpending (List.forall₂_take_append answers before _ hserved) hr
      hmatch hbefore hpage _

/-- Whatever the answers are, a listing requests pages one by one, and the first one if it is to
return any pools. -/
theorem exists_listPages_asked (hopen : d.current.isSome) (fuel : Nat) (n : Int)
    (seen : List PoolEntry) :
    ∃ count, ((listPages q fuel n seen).run d).2 = d.askedPages q n count ∧
      (0 < fuel → q.isFilled seen.length = false → 0 < count) := by
  induction fuel generalizing n seen d with
  | zero => exact ⟨0, rfl, fun h => absurd h (Nat.lt_irrefl 0)⟩
  | succ fuel ih =>
    rw [listPages_succ, ask_fetchPage hopen]
    split
    case isTrue hfilled => exact ⟨0, rfl, fun _ hroom => absurd hfilled (hroom ▸ nofun)⟩
    case isFalse =>
      cases readResponse d.levels "/pools/info/mint" d.next >>= Page.ofPayload with
      | error fault => exact ⟨1, rfl, fun _ _ => Nat.one_pos⟩
      | ok read =>
        -- A missing match, a fault or enough pools, and the last page each end the listing.
        dsimp only
        split
        · exact ⟨1, rfl, fun _ _ => Nat.one_pos⟩
        split
        · exact ⟨1, rfl, fun _ _ => Nat.one_pos⟩
        split
        · obtain ⟨count, hasked, -⟩ := ih (d := d.answered "/pools/info/mint" (q.params n)) hopen
            (n + 1) (takeItems d.levels q seen read.items).pools
          exact ⟨count + 1, hasked, fun _ _ => Nat.succ_pos count⟩
        · exact ⟨1, rfl, fun _ _ => Nat.one_pos⟩

theorem takeItems_requiring : takeItems levels q.requiring seen items =
    takeItems levels q seen items := by
  induction items generalizing seen with
  | nil => rfl
  | cons item items ih =>
    rw [takeItems, takeItems]
    cases PoolEntry.ofEntry levels item with
    | error fault => rfl
    | ok e =>
      dsimp only
      rw [ih]
      rfl

theorem takeItems_ne_nil (h : seen ≠ [] ∨ items ≠ [])
    (hfault : (takeItems levels q seen items).fault = none) :
    (takeItems levels q seen items).pools ≠ [] := by
  induction items generalizing seen with
  | nil => exact h.resolve_right (not_not.2 rfl)
  | cons item items ih =>
    rw [takeItems] at hfault ⊢
    cases hitem : PoolEntry.ofEntry levels item with
    | error fault =>
      rw [hitem] at hfault
      cases hfault
    | ok e =>
      rw [hitem] at hfault
      dsimp only at hfault ⊢
      split at hfault
      case isTrue hfilled =>
        rw [if_pos hfilled]
        exact List.cons_ne_nil e seen
      case isFalse hroom =>
        rw [if_neg hroom]
        exact ih (.inl (List.cons_ne_nil e seen)) hfault

/-- Requiring a match makes no difference once there are pools, or if the next page has items. -/
theorem listPages_requiring (fuel : Nat)
    (h : ∀ read d', d.ask (fetchPage q n) = (.ok read, d') → seen ≠ [] ∨ read.items ≠ []) :
    (listPages q.requiring fuel n seen).run d = (listPages q fuel n seen).run d := by
  induction fuel generalizing n seen d with
  | zero => rfl
  | succ fuel ih =>
    have hfilled : ∀ count, q.requiring.isFilled count = q.isFilled count := fun _ => rfl
    have hfetch : fetchPage q.requiring n = fetchPage q n := rfl
    rw [listPages_succ, listPages_succ, hfilled, hfetch]
    split
    · rfl
    rcases hread : d.ask (fetchPage q n) with ⟨_ | read, d'⟩
    · rfl
    have hmatch : (read.items.isEmpty && seen.isEmpty) = false := by
      simpa [Classical.or_iff_not_imp_left] using (h read d' hread).symm
    dsimp only
    rw [hmatch, Bool.false_and, if_neg Bool.false_ne_true, Bool.false_and, if_neg Bool.false_ne_true,
      takeItems_requiring, hfilled]
    split
    · rfl
    case isFalse hmore =>
      split
      · refine ih fun _ _ _ => .inl (takeItems_ne_nil (h read d' hread) ?_)
        by_contra hfault
        exact hmore (by rw [Option.isSome_iff_ne_none.2 hfault, Bool.true_or])
      · rfl

theorem ask_pools_of_isFilled (hcheck : q.check = .ok ()) (hfilled : q.isFilled 0) :
    d.ask (pools q) = (.ok [], d) := by
  have hnone : (listPages q (d.pending.length + 2) q.page []).run d = (⟨[], none⟩, d) := by
    rw [listPages_succ, List.length_nil, if_pos hfilled]
  rw [ask_pools hcheck, hnone]
  rfl

/-- A first page without items is refused where a match is required. -/
theorem ask_pools_requiring_of_empty (hcheck : q.check = .ok ()) (hopen : d.current.isSome)
    (hserved : Serves d.levels d.next page) (hempty : page.pools = [])
    (hroom : q.isFilled 0 = false) :
    d.ask (pools q.requiring) =
      (.error (.discovery (.noPools ((q.kind.map (·.name)).getD "any") q.mintA q.mintB)),
        d.askedPages q q.page 1) := by
  obtain ⟨read, hread, -, hitems⟩ := hserved.read "/pools/info/mint"
  rw [hempty, List.forall₂_nil_right_iff] at hitems
  have hnone : (listPages q.requiring (d.pending.length + 2) q.page []).run d =
      (⟨[], some (.discovery (.noPools ((q.kind.map (·.name)).getD "any") q.mintA q.mintB))⟩,
        d.askedPages q q.page 1) := by
    have hroom : q.requiring.isFilled 0 = false := hroom
    rw [listPages_succ, List.length_nil, hroom, if_neg Bool.false_ne_true, ask_fetchPage hopen,
      hread]
    dsimp only
    rw [hitems]
    rfl
  rw [ask_pools (q := q.requiring) hcheck]
  exact hnone ▸ rfl

/-- The pages that are served, and a round more, are bounded by the answers that are left. -/
theorem ask_pools_served (hcheck : q.check = .ok ()) (hpending : d.pending = answers ++ later)
    (hserved : answers.Forall₂ (Serves d.levels) pages) : d.ask (pools q) =
      (Listed.answer ((listPages q (later.length + 2 + pages.length) q.page []).run d).1,
        ((listPages q (later.length + 2 + pages.length) q.page []).run d).2) := by
  rw [ask_pools hcheck, hpending, List.length_append, hserved.length_eq, Nat.add_assoc,
    Nat.add_comm pages.length]

theorem ask_pools_of_ends (hcheck : q.check = .ok ()) (hopen : d.current.isSome)
    (hpending : d.pending = answers ++ later) (hserved : answers.Forall₂ (Serves d.levels) pages)
    (hmatch : q.requireMatch = false) (hends : ¬q.GoesOn pages) :
    ∃ count, (∀ k, k < count ↔ q.GoesOn (pages.take k)) ∧ d.ask (pools q) =
      (.ok (q.first ((PoolPage.upToLast pages).flatMap PoolPage.pools)),
        d.askedPages q q.page count) := by
  by_cases hstart : q.GoesOn []
  · obtain ⟨count, hcount, hrun⟩ := listPages_served (n := q.page) hopen hpending hserved hmatch
      hstart hends (later.length + 2)
    refine ⟨count, hcount, ?_⟩
    rw [ask_pools_served hcheck hpending hserved, hrun, Listed.answer, List.reverse_reverse]
  · have hfilled := Listing.isFilled_zero_of_not_goesOn hstart
    refine ⟨0, fun k => ⟨nofun, fun h => absurd (h.of_prefix List.nil_prefix) hstart⟩, ?_⟩
    rw [ask_pools_of_isFilled hcheck hfilled, ← List.nil_append (List.flatMap _ _),
      Listing.first_append hfilled, Listing.first_nil, askedPages]

/-- A listing that goes on after all pages served requests them, and another one. -/
theorem ask_pools_of_goesOn (hcheck : q.check = .ok ()) (hopen : d.current.isSome)
    (hpending : d.pending = answers ++ later) (hserved : answers.Forall₂ (Serves d.levels) pages)
    (hmatch : q.requireMatch = false) (h : q.GoesOn pages) :
    ∃ count, pages.length < count ∧ (d.ask (pools q)).2 = d.askedPages q q.page count := by
  have hopen' : (d.askedPages q q.page pages.length).current.isSome := by simpa using hopen
  obtain ⟨more, hasked, hmore⟩ := exists_listPages_asked (q := q) hopen' (later.length + 2)
    (q.page + pages.length) (held pages)
  have hrun := listPages_goesOn (n := q.page) [] hopen rfl hpending hserved hmatch h
    (later.length + 2)
  refine ⟨pages.length + more, Nat.lt_add_of_pos_right
    (hmore (Nat.succ_pos _) (isFilled_held h)), ?_⟩
  rw [ask_pools_served hcheck hpending hserved, askedPages_add, ← hasked]
  exact congrArg Prod.snd hrun

/-- Requiring a match makes no difference where the first page served is not empty. -/
theorem ask_pools_requiring (hcheck : q.check = .ok ()) (hopen : d.current.isSome)
    (hserved : Serves d.levels d.next page) (hpools : page.pools ≠ []) :
    d.ask (pools q.requiring) = d.ask (pools q) := by
  have hlisted : (listPages q.requiring (d.pending.length + 2) q.page []).run d =
      (listPages q (d.pending.length + 2) q.page []).run d := by
    refine listPages_requiring _ fun read d' hread => .inr fun hitems => ?_
    obtain ⟨read', hread', -, hpage⟩ := hserved.read "/pools/info/mint"
    rw [ask_fetchPage hopen, hread', Prod.mk.injEq, Except.ok.injEq] at hread
    rw [hread.1, hitems, List.forall₂_nil_left_iff] at hpage
    exact hpools hpage
  rw [ask_pools (q := q.requiring) hcheck, ask_pools hcheck]
  exact hlisted ▸ rfl

/-- Listing the pages that answers serve, from the first page of a listing on, neither loses nor
repeats nor over-fetches. The pages are requested by their numbers, in their order and each once, and
one is requested only if the listing goes on after those before it. A listing that ends on the pages
returns their pools up to the last page, or the first of these if it is limited. Requiring a match
makes a difference only where a listing that is to return pools finds the first page empty. -/
theorem pools_paginated (hpage : 1 ≤ q.page) (hsize : 1 ≤ q.pageSize ∧ q.pageSize ≤ maxPageSize)
    (horder : q.sortOrder = "desc" ∨ q.sortOrder = "asc") (hmatch : q.requireMatch = false)
    (hopen : d.current.isSome) (hpending : d.pending = answers ++ later)
    (hserved : answers.Forall₂ (Serves d.levels) pages) :
    (∃ count, (∀ k ≤ pages.length, k < count ↔ q.GoesOn (pages.take k)) ∧
      (d.ask (pools q)).2.requests = ((List.range count).map fun k : Nat =>
        Request.mk (d.baseUrl ++ "/pools/info/mint") (q.pageParams (q.page + k))).reverse ++
          d.requests ∧
      (d.ask (pools q)).2.pending = d.pending.drop count) ∧
    (¬q.GoesOn pages → (d.ask (pools q)).1 =
      .ok (q.first ((PoolPage.upToLast pages).flatMap PoolPage.pools))) ∧
    (∀ n ∈ q.limit, n ≤ 0 → d.ask (pools q) = (.ok [], d)) ∧
    ∀ page ∈ pages.head?,
      ((∀ n ∈ q.limit, 0 < n) → page.pools = [] → d.ask (pools q.requiring) =
        (.error (.discovery (.noPools ((q.kind.map (·.name)).getD "any") q.mintA q.mintB)),
          d.answered "/pools/info/mint" (q.pageParams q.page))) ∧
      (((∀ n ∈ q.limit, 0 < n) → page.pools ≠ []) →
        d.ask (pools q.requiring) = d.ask (pools q)) := by
  have hcheck : q.check = .ok () := Listing.check_eq_ok hpage hsize horder
  have hasked : ∃ count, (∀ k ≤ pages.length, k < count ↔ q.GoesOn (pages.take k)) ∧
      (d.ask (pools q)).2 = d.askedPages q q.page count := by
    by_cases h : q.GoesOn pages
    · obtain ⟨count, hcount, hasked⟩ := ask_pools_of_goesOn hcheck hopen hpending hserved hmatch h
      exact ⟨count, fun k hk => ⟨fun _ => h.of_prefix (List.take_prefix k pages),
        fun _ => Nat.lt_of_le_of_lt hk hcount⟩, hasked⟩
    · obtain ⟨count, hcount, hasked⟩ := ask_pools_of_ends hcheck hopen hpending hserved hmatch h
      exact ⟨count, fun k _ => hcount k, congrArg Prod.snd hasked⟩
  refine ⟨?_, fun hends => ?_, fun n hn hlimit => ?_, fun page hfirst => ?_⟩
  · obtain ⟨count, hcount, hasked⟩ := hasked
    rw [hasked]
    refine ⟨count, hcount, ?_, pending_askedPages⟩
    simp only [← Listing.params_eq]
    exact requests_askedPages
  · obtain ⟨count, -, hanswer⟩ := ask_pools_of_ends hcheck hopen hpending hserved hmatch hends
    exact congrArg Prod.fst hanswer
  · exact ask_pools_of_isFilled hcheck (Listing.isFilled_zero.2 ⟨n, hn, hlimit⟩)
  have hfirst : Serves d.levels d.next page := by
    obtain ⟨rest, rfl⟩ := List.head?_eq_some_iff.1 hfirst
    obtain ⟨r, answers, hr, -, rfl⟩ := List.forall₂_cons_right_iff.1 hserved
    rwa [next, hpending]
  refine ⟨fun hlimit hempty => ?_, fun hpools => ?_⟩
  · rw [← Listing.params_eq]
    exact ask_pools_requiring_of_empty hcheck hopen hfirst hempty
      (Listing.isFilled_eq_false.2 hlimit)
  · cases hroom : q.isFilled 0 with
    | true =>
      rw [ask_pools_of_isFilled hcheck hroom]
      exact ask_pools_of_isFilled (q := q.requiring) hcheck hroom
    | false =>
      exact ask_pools_requiring hcheck hopen hfirst (hpools (Listing.isFilled_eq_false.1 hroom))

end Served

/-- An entry of a pool without amounts, and its summary. -/
def named (id : String) : Payload :=
  let mint : Payload := .record [("address", .text ""), ("decimals", .int 6)]
  .record [("id", .text id), ("programId", .text ""), ("mintA", mint), ("mintB", mint)]

def summary (id : String) : PoolEntry :=
  ⟨.text id, "", .text "", .text "", .text "", 6, 6, none, none, none⟩

/-- An answer with a page of such entries. -/
def answerWith (ids : List String) (hasNext : Bool) : Response :=
  .answer 200 (.value (.record [("success", .bool true), ("data", .record
    [("data", .list (ids.map named)), ("hasNextPage", .bool hasNext)])]))

theorem serves_answerWith (levels : Nat) (ids : List String) (hasNext : Bool) :
    Serves levels (answerWith ids hasNext) ⟨ids.map summary, hasNext⟩ := by
  refine .list rfl rfl rfl ?_ rfl
  induction ids with
  | nil => exact .nil
  | cons id ids ih => exact .cons (PoolEntry.ofEntry_eq_ok.1 rfl) ih

/-- A directory about to be answered with two full pages, and with a timeout after them. -/
def twoPages : Directory :=
  onSession "" [answerWith ["a", "b"] true, answerWith ["c", "d"] true, .timedOut]

/-- The first three pools of a pair. -/
def threePools : Listing := { everyPool with limit := some 3 }

/-- A limit within the second page: the first two pages are requested, and no third one. -/
theorem pools_paginated_limited :
    (twoPages.ask (pools threePools)).1 = .ok [summary "a", summary "b", summary "c"] ∧
    (twoPages.ask (pools threePools)).2.requests = [2, 1].map (fun page =>
      ⟨"/pools/info/mint", [("mint1", .text ""), ("mint2", .text ""), ("poolType", .text "all"),
        ("poolSortField", .text "default"), ("sortType", .text "desc"), ("pageSize", .int 100),
        ("page", .int page)]⟩) ∧
    (twoPages.ask (pools threePools)).2.pending = [.timedOut] ∧
    twoPages.ask (pools threePools.requiring) = twoPages.ask (pools threePools) := by
  have hpending : twoPages.pending =
      [answerWith ["a", "b"] true, answerWith ["c", "d"] true] ++ [.timedOut] := rfl
  obtain ⟨⟨count, hcount, hrequests, hleft⟩, hpools, -, hrequiring⟩ :=
    pools_paginated (q := threePools) (by decide) (by decide) (.inl rfl) rfl rfl hpending
      (.cons (serves_answerWith _ ["a", "b"] true) (.cons (serves_answerWith _ ["c", "d"] true) .nil))
  have hends : ¬threePools.GoesOn
      [⟨["a", "b"].map summary, true⟩, ⟨["c", "d"].map summary, true⟩] :=
    fun h => absurd (h.room 3 rfl) (by decide)
  have hgoesOn : threePools.GoesOn [⟨["a", "b"].map summary, true⟩] := by
    refine ⟨List.forall_mem_singleton.2 rfl, ?_⟩
    rintro _ ⟨⟩
    decide
  have htwo : count = 2 :=
    Nat.le_antisymm (Nat.not_lt.1 fun h => hends ((hcount 2 (Nat.le_refl 2)).1 h))
      ((hcount 1 (by decide)).2 hgoesOn)
  refine ⟨hpools hends, ?_, ?_, (hrequiring _ rfl).2 fun _ => List.cons_ne_nil _ _⟩
  · rw [hrequests, htwo]
    rfl
  · rw [hleft, htwo]
    rfl

end PoolSwap.Directory
