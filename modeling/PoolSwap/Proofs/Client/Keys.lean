import PoolSwap.Proofs.Client.Calls
import PoolSwap.Proofs.Codec.Base58
import PoolSwap.Proofs.Directory.Reading
import PoolSwap.Proofs.KeyCache.Entries

/-! The keys that a client looks up. They are those that the directory published first in an answer
to a request for the pool, now or when they came into the cache. Nothing compares them with the pool
asked for, so they are its keys as far as the directory answers with them. -/
namespace PoolSwap

open Checked

/-- The first entry of an answer by identifiers that is not left out. -/
def Response.firstEntry? (r : Response) : Option Payload :=
  ((r.items Directory.listItems).filter Payload.isGiven).head?

namespace Directory

variable {d : Directory} {ids : List String} {keys : PoolKeys} {rest : List PoolKeys}

/-- The first keys that a request is answered with are those of the first entry. -/
theorem published_of_keysById (hids : ids ≠ [])
    (h : (d.ask (keysById ids)).1 = .ok (keys :: rest)) :
    ∃ entry ∈ d.next.firstEntry?, keys.PublishedBy entry := by
  rw [ask_keysById] at h
  obtain ⟨entries, hentries, h⟩ := bind_eq_ok.1 h
  cases hcurrent : d.current with
  | none =>
    rw [ask_fetchEntries_unopened hcurrent hids] at hentries
    cases hentries
  | some i =>
    rw [ask_fetchEntries (hcurrent ▸ rfl) hids] at hentries
    obtain ⟨p, hp, hentries⟩ := bind_eq_ok.1 hentries
    have hgiven := entries_eq (readResponse_eq_ok.1 hp).1 hentries
    cases entries with
    | nil => cases h
    | cons entry entries =>
      obtain ⟨_, _, hkeys, -, hcons⟩ := mapM_cons_eq_ok.1 h
      cases hcons
      refine ⟨entry, ?_, PoolKeys.ofEntry_eq_ok.1 hkeys⟩
      unfold Response.firstEntry?
      rw [← hgiven]
      rfl

end Directory

/-- Keys name the pool whose identifier their entry has. -/
theorem PoolKeys.PublishedBy.id_eq {keys : PoolKeys} {entry : Payload}
    (h : keys.PublishedBy entry) : entry.addressAt? ["id"] = some keys.id := by
  cases h with
  | @standard k _ haccounts => exact haccounts (["id"], k.id) (by simp [StandardKeys.accounts])
  | @concentrated k _ haccounts =>
    exact haccounts (["id"], k.id) (by simp [ConcentratedKeys.accounts])

theorem PoolKeys.PublishedBy.text_id {keys : PoolKeys} {entry : Payload} {poolId : String}
    (h : keys.PublishedBy entry) (hid : entry.at? ["id"] = some (.text poolId)) :
    keys.id.text = poolId := by
  have haddress := h.id_eq
  unfold Payload.addressAt? at haddress
  rw [hid] at haddress
  exact Address.text_of_ofText? haddress

namespace Client

variable {c : Client} {poolId : String} {keys : PoolKeys} {hit : Bool}

/-- A request for the keys of a pool fails, or answers with those of the first entry. It changes the
directory alone. -/
theorem publishedKeys_cases (c : Client) (poolId : String) : ∃ directory,
    (∃ fault, c.act (publishedKeys poolId) = (.error fault, { c with directory })) ∨
    ∃ keys, c.act (publishedKeys poolId) = (.ok keys, { c with directory }) ∧
      ∃ entry ∈ c.directory.next.firstEntry?, keys.PublishedBy entry := by
  unfold publishedKeys
  rw [act_bind, act_askDirectory]
  cases hask : (Directory.keysById [poolId]).run.run c.directory with
  | mk answer directory =>
    refine ⟨directory, ?_⟩
    cases answer with
    | error fault => exact .inl ⟨fault, rfl⟩
    | ok found =>
      cases found with
      | nil => exact .inl ⟨_, rfl⟩
      | cons keys rest =>
        exact .inr ⟨keys, rfl, Directory.published_of_keysById (List.cons_ne_nil _ _)
          (congrArg Prod.fst hask)⟩

/-- Whether every value in the cache of a client may stand for its key. -/
def CacheHolds (c : Client) (may : String → PoolKeys → Prop) : Prop :=
  ∀ cache ∈ c.cache, cache.Holds may

theorem CacheHolds.of_some {may : String → PoolKeys → Prop} {cache : KeyCache PoolKeys}
    (hcache : c.cache = some cache) (h : cache.Holds may) : c.CacheHolds may := by
  intro cache' hcache'
  obtain rfl := Option.some.inj (hcache.symm.trans hcache')
  exact h

/-- Whether the keys of a pool are asked of the directory, as the cache does not have them. -/
def MissesCache (c : Client) (poolId : String) : Prop :=
  ∀ cache ∈ c.cache, (cache.get? c.now poolId).1 = none

/-- A lookup returns keys that may stand for the pool, and keeps no others for it. It changes only
the directory and the cache. -/
structure Finds (c : Client) (poolId : String) (may : String → PoolKeys → Prop)
    (result : Checked (PoolKeys × Bool) × Client) : Prop where
  found : ∀ keys hit, result.1 = .ok (keys, hit) → may poolId keys
  fresh : c.MissesCache poolId → ∀ keys hit, result.1 = .ok (keys, hit) → hit = false
  cached : result.2.CacheHolds may
  leaves : ∃ directory cache, result.2 = { c with directory, cache }

section Finds

variable {may : String → PoolKeys → Prop} {directory : Directory}
  {cache : Option (KeyCache PoolKeys)}

theorem Finds.failed {fault : Fault} (h : CacheHolds { c with directory, cache } may) :
    c.Finds poolId may (.error fault, { c with directory, cache }) :=
  ⟨nofun, fun _ => nofun, h, directory, cache, rfl⟩

theorem Finds.missed (hkeys : may poolId keys) (h : CacheHolds { c with directory, cache } may) :
    c.Finds poolId may (.ok (keys, false), { c with directory, cache }) := by
  refine ⟨?_, fun _ => ?_, h, directory, cache, rfl⟩
  · rintro _ _ ⟨⟩
    exact hkeys
  · rintro _ _ ⟨⟩
    rfl

theorem keysFor_finds (hcache : c.CacheHolds may)
    (hmay : c.MissesCache poolId → ∀ keys entry, entry ∈ c.directory.next.firstEntry? →
      keys.PublishedBy entry → may poolId keys) :
    c.Finds poolId may (c.act (keysFor poolId)) := by
  unfold keysFor
  rw [act_bind, act_get]
  dsimp only
  split
  case h_1 hnone =>
    have hmiss : c.MissesCache poolId := by
      intro cache hcache
      cases hnone.symm.trans hcache
    rw [act_bind]
    obtain ⟨directory, ⟨fault, hact⟩ | ⟨keys, hact, entry, hentry, hkeys⟩⟩ :=
      publishedKeys_cases c poolId
    · rw [hact]
      exact .failed hcache
    · rw [hact]
      exact .missed (hmay hmiss keys entry hentry hkeys) hcache
  case h_2 cache hsome =>
    -- Looking a key up may drop its entry, so the cache it leaves is one of its own.
    have hheld : cache.Holds may := hcache cache hsome
    have hleft : (cache.get? c.now poolId).2.Holds may := hheld.get? c.now poolId
    rw [act_bind, act_set]
    dsimp only
    split
    case h_1 keys hget =>
      refine ⟨?_, fun hmiss => ?_, .of_some rfl hleft, c.directory, _, rfl⟩
      · rintro _ _ ⟨⟩
        exact hheld.of_get? hget
      · cases (hmiss cache hsome).symm.trans hget
    case h_2 hget =>
      have hmiss : c.MissesCache poolId := by
        intro cache' hcache'
        obtain rfl := Option.some.inj (hsome.symm.trans hcache')
        exact hget
      rw [act_bind]
      obtain ⟨directory, ⟨fault, hact⟩ | ⟨keys, hact, entry, hentry, hkeys⟩⟩ :=
        publishedKeys_cases { c with cache := some (cache.get? c.now poolId).2 } poolId
      · rw [hact]
        exact .failed (.of_some rfl hleft)
      · have hpublished : may poolId keys := hmay hmiss keys entry hentry hkeys
        rw [hact]
        dsimp only
        rw [act_bind, act_checked]
        cases hset : (cache.get? c.now poolId).2.set c.now poolId (some keys) with
        | error fault => exact .failed (.of_some rfl hleft)
        | ok set =>
          have hstored : ∀ keys' ∈ some keys, may poolId keys' := by
            rintro _ ⟨⟩
            exact hpublished
          exact .missed hpublished (.of_some rfl (hleft.set hstored hset))

end Finds

/-- One lookup of the keys of a pool, and the client before it. -/
structure Lookup where
  poolId : String
  client : Client

namespace Lookup

/-- Whether keys are those of the first entry that some lookup of a pool is answered with. -/
def Published (lookups : List Lookup) (poolId : String) (keys : PoolKeys) : Prop :=
  ∃ l ∈ lookups, l.poolId = poolId ∧ l.client.MissesCache poolId ∧
    ∃ entry ∈ l.client.directory.next.firstEntry?, keys.PublishedBy entry

/-- Whether the first entry that a lookup is answered with is that of the pool asked for. What the
directory would answer to a lookup that the cache answers does not matter. -/
def Faithful (l : Lookup) : Prop :=
  l.client.MissesCache l.poolId → ∀ entry ∈ l.client.directory.next.firstEntry?,
    entry.at? ["id"] = some (.text l.poolId)

variable {lookups : List Lookup}

theorem Published.text_id (h : Published lookups poolId keys)
    (hfaithful : ∀ l ∈ lookups, l.Faithful) : keys.id.text = poolId := by
  obtain ⟨l, hl, rfl, hmiss, entry, hentry, hkeys⟩ := h
  exact hkeys.text_id (hfaithful l hl hmiss entry hentry)

/-- A lookup that the cache answers is faithful, whatever the directory would answer. -/
theorem faithful_of_hit (h : (c.act (keysFor poolId)).1 = .ok (keys, true)) :
    Faithful ⟨poolId, c⟩ := by
  have hfinds : c.Finds poolId (fun _ _ => True) (c.act (keysFor poolId)) :=
    keysFor_finds (fun _ _ _ _ _ _ => trivial) fun _ _ _ _ _ => trivial
  intro hmiss
  cases hfinds.fresh hmiss keys true h

theorem Published.mono {more : List Lookup} (h : Published lookups poolId keys)
    (hmore : lookups ⊆ more) : Published more poolId keys := by
  obtain ⟨l, hl, hfound⟩ := h
  exact ⟨l, hmore hl, hfound⟩

end Lookup

/-- Clients that come about by lookups of keys, from one whose cache is empty or that has none.
Between two lookups anything but the cache may change: the clock, the directory, the node and the
wallet. -/
inductive After : List Lookup → Client → Prop
  | start {c : Client} (h : ∀ cache ∈ c.cache, cache.entries = []) : After [] c
  | lookup {lookups : List Lookup} {c : Client} (h : After lookups c) (poolId : String) :
      After (lookups ++ [⟨poolId, c⟩]) (c.act (keysFor poolId)).2
  | change {lookups : List Lookup} {c c' : Client} (h : After lookups c)
      (hcache : c'.cache = c.cache) : After lookups c'

/-- One more lookup finds keys that it or one before it was answered with. -/
theorem finds_of_cacheHolds {lookups : List Lookup} (h : c.CacheHolds (Lookup.Published lookups))
    (poolId : String) :
    c.Finds poolId (Lookup.Published (lookups ++ [⟨poolId, c⟩])) (c.act (keysFor poolId)) := by
  refine keysFor_finds (fun cache hcache => (h cache hcache).mono fun _ _ hpublished =>
    hpublished.mono (List.subset_append_left _ _)) fun hmiss keys entry hentry hkeys => ?_
  exact ⟨_, List.mem_append_right _ (List.mem_singleton_self _), rfl, hmiss, entry, hentry, hkeys⟩

/-- The cache holds nothing but what lookups of its keys were answered with. -/
theorem After.cacheHolds {lookups : List Lookup} (h : After lookups c) :
    c.CacheHolds (Lookup.Published lookups) := by
  induction h with
  | start hempty =>
    intro cache hcache e he
    rw [hempty cache hcache] at he
    cases he
  | lookup _ poolId ih => exact (finds_of_cacheHolds ih poolId).cached
  | change _ hcache ih =>
    unfold CacheHolds
    rw [hcache]
    exact ih

end Client
end PoolSwap
