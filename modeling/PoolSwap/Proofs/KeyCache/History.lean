import Mathlib.Algebra.Order.Ring.Int
import Mathlib.Data.List.Induction
import PoolSwap.Proofs.KeyCache.Entries

/-! A cache over any history of its uses. It never holds more than its size, and a key reads as what
it was last set to until that expires, unless it was invalidated, cleared or evicted since. A set
evicts one entry at most, one that expires no later than any other. -/
namespace PoolSwap.KeyCache

variable {α τ : Type} {c c' c₀ : KeyCache α τ} {key : String}

/-- One use of a cache. -/
inductive Use (α : Type) where
  | set (key : String) (value : Option α)
  | get (key : String)
  | contains (key : String)
  | invalidate (key : String)
  | clear

/-- The key that a use names; clearing names none. -/
def Use.key? : Use α → Option String
  | set key _ => some key
  | get key => some key
  | contains key => some key
  | invalidate key => some key
  | clear => none

/-- Uses with the readings of the clock at them, the earliest first. -/
abbrev History (α τ : Type) := List (τ × Use α)

variable [LinearOrder τ] [Add τ] {now time : τ} {use : Use α} {value : Option α}
  {h : History α τ}

def after (c : KeyCache α τ) (now : τ) : Use α → Checked (KeyCache α τ)
  | .set key value => c.set now key value
  | .get key => .ok (c.get? now key).2
  | .contains key => .ok (c.contains now key).2
  | .invalidate key => .ok (c.erase key)
  | .clear => .ok c.clear

def replay (c : KeyCache α τ) (h : History α τ) : Checked (KeyCache α τ) :=
  h.foldlM (fun c use => c.after use.1 use.2) c

/-- Whether setting a key drops the entry of another one. -/
def Evicts (c : KeyCache α τ) (now : τ) (key : String) (value : Option α) (victim : String) : Prop :=
  victim ≠ key ∧ (c.find? victim).isSome ∧
    ∃ c', c.set now key value = .ok c' ∧ c'.find? victim = none

/-- Whether a use ends what a key was set to. Expiry is no use. -/
def Ends (c : KeyCache α τ) (now : τ) (key : String) : Use α → Prop
  | .set other value => other = key ∨ c.Evicts now other value key
  | .invalidate other => other = key
  | .clear => True
  | .get _ | .contains _ => False

/-- A key was set to a value at some time of a history, and no later use of it ended that. -/
inductive Lasts (c₀ : KeyCache α τ) (key : String) (time : τ) (value : Option α) :
    History α τ → Prop
  | set (h : History α τ) : Lasts c₀ key time value (h ++ [(time, .set key value)])
  | keep {h : History α τ} {c : KeyCache α τ} {now : τ} {use : Use α}
      (lasts : Lasts c₀ key time value h) (replayed : c₀.replay h = .ok c)
      (kept : ¬c.Ends now key use) : Lasts c₀ key time value (h ++ [(now, use)])

theorem replay_concat : c₀.replay (h ++ [(now, use)]) = c₀.replay h >>= fun c => c.after now use := by
  simp [replay]

theorem lasts_concat (hreplay : c₀.replay h = .ok c) :
    c₀.Lasts key time value (h ++ [(now, use)]) ↔
      now = time ∧ use = .set key value ∨ c₀.Lasts key time value h ∧ ¬c.Ends now key use := by
  constructor
  · intro hlasts
    generalize hwhole : h ++ [(now, use)] = whole at hlasts
    cases hlasts with
    | set h' =>
      obtain ⟨-, hlast⟩ := List.append_inj' hwhole rfl
      cases hlast
      exact .inl ⟨rfl, rfl⟩
    | keep hlasts hreplay' hkept =>
      obtain ⟨rfl, hlast⟩ := List.append_inj' hwhole rfl
      cases hlast
      cases hreplay.symm.trans hreplay'
      exact .inr ⟨hlasts, hkept⟩
  · rintro (⟨rfl, rfl⟩ | ⟨hlasts, hkept⟩)
    · exact .set h
    · exact .keep hlasts hreplay hkept

/-- What a use makes of a cache, told by the entries that keys find. -/
structure Becomes (c : KeyCache α τ) (now : τ) (use : Use α) (c' : KeyCache α τ) : Prop where
  keyed : c.Keyed → c'.Keyed
  timeToLive_eq : c'.timeToLive = c.timeToLive
  maxSize_eq : c'.maxSize = c.maxSize
  size_le : c.size ≤ c.maxSize → c'.size ≤ c'.maxSize
  old_or_set : ∀ key e, c'.find? key = some e → c.find? key = some e ∨
    use = .set key e.value ∧ e = ⟨key, now + c.timeToLive, e.value⟩
  set : ∀ key value, use = .set key value →
    c'.find? key = some ⟨key, now + c.timeToLive, value⟩
  kept_or_expired : ∀ key e, c.find? key = some e → ¬c.Ends now key use →
    c'.find? key = some e ∨ c'.find? key = none ∧ e.expiresAt < now
  ended : ∀ key, c.Ends now key use → c'.find? key = none ∨ ∃ value, use = .set key value

theorem becomes_self (hends : ∀ key, ¬c.Ends now key use) (hset : ∀ key value, use ≠ .set key value) :
    c.Becomes now use c where
  keyed := id
  timeToLive_eq := rfl
  maxSize_eq := rfl
  size_le := id
  old_or_set := fun _ _ hfound => .inl hfound
  set := fun key value heq => absurd heq (hset key value)
  kept_or_expired := fun _ _ hfound _ => .inl hfound
  ended := fun key hended => absurd hended (hends key)

/-- Dropping a key, by a use that ends it or because it has expired. -/
theorem becomes_erase (hends : ∀ other, c.Ends now other use → other = key)
    (hkey : c.Ends now key use ∨ ∃ e, c.find? key = some e ∧ e.expiresAt < now)
    (hset : ∀ key value, use ≠ .set key value) : c.Becomes now use (c.erase key) where
  keyed := fun hkeyed => hkeyed.erase key
  timeToLive_eq := rfl
  maxSize_eq := rfl
  size_le := fun hsize => Int.le_trans (Int.ofNat_le.2 (size_erase_le c key)) hsize
  old_or_set := fun other e hfound => by
    rw [find?_erase] at hfound
    split at hfound
    case isTrue => cases hfound
    case isFalse => exact .inl hfound
  set := fun other value heq => absurd heq (hset other value)
  kept_or_expired := fun other e hfound hkept => by
    rw [find?_erase]
    split
    case isTrue heq =>
      subst heq
      rcases hkey with hended | ⟨e', hfound', hexpired⟩
      · exact absurd hended hkept
      · cases hfound.symm.trans hfound'
        exact .inr ⟨rfl, hexpired⟩
    case isFalse => exact .inl hfound
  ended := fun other hended => by
    rw [hends other hended, find?_erase, if_pos rfl]
    exact .inl rfl

theorem becomes_clear : c.Becomes now .clear c.clear where
  keyed := fun _ => List.nodup_nil
  timeToLive_eq := rfl
  maxSize_eq := rfl
  size_le := fun hsize => Int.le_trans (Int.natCast_nonneg c.size) hsize
  old_or_set := nofun
  set := nofun
  kept_or_expired := fun _ _ _ hkept => absurd trivial hkept
  ended := fun _ _ => .inl rfl

/-- Reading a key drops it once it has expired. -/
theorem becomes_get (hends : ∀ other, ¬c.Ends now other use)
    (hset : ∀ key value, use ≠ .set key value) :
    c.Becomes now use (c.get? now key).2 := by
  unfold get?
  split
  case h_1 => exact becomes_self hends hset
  case h_2 e hfound =>
    split
    case isTrue hexpired =>
      exact becomes_erase (fun other hended => absurd hended (hends other))
        (.inr ⟨e, hfound, hexpired⟩) hset
    case isFalse => exact becomes_self hends hset

theorem becomes_setIn {room : KeyCache α τ} (hroom : c.MakesRoom key room)
    (hset : c.set now key value = .ok (room.setIn now key value)) :
    c.Becomes now (.set key value) (room.setIn now key value) where
  keyed := fun hkeyed => (hroom.keyed hkeyed).setIn
  timeToLive_eq := hroom.timeToLive_eq
  maxSize_eq := hroom.maxSize_eq
  size_le := fun hsize => hroom.maxSize_eq ▸ hroom.size_setIn_le hsize
  old_or_set := fun other e hfound => by
    rw [find?_setIn] at hfound
    split at hfound
    case isTrue heq =>
      subst heq
      cases hfound
      exact .inr ⟨rfl, hroom.timeToLive_eq ▸ rfl⟩
    case isFalse => exact .inl (hroom.find?_eq_some hfound)
  set := fun other value' heq => by
    cases heq
    rw [find?_setIn, if_pos rfl, hroom.timeToLive_eq]
  kept_or_expired := fun other e hfound hkept => by
    -- An entry that is gone after the set was evicted by it.
    have hne : other ≠ key := fun heq => hkept (.inl heq.symm)
    left
    cases hafter : (room.setIn now key value).find? other with
    | none => exact absurd (.inr ⟨hne, hfound ▸ rfl, _, hset, hafter⟩) hkept
    | some f =>
      rw [find?_setIn, if_neg hne.symm] at hafter
      exact (hroom.find?_eq_some hafter).symm.trans hfound
  ended := fun other hended => by
    rcases hended with rfl | ⟨-, -, c', hset', hnone⟩
    · exact .inr ⟨value, rfl⟩
    · cases hset.symm.trans hset'
      exact .inl hnone

/-- Every use of a cache with room for an entry succeeds. -/
theorem exists_after (hkeyed : c.Keyed) (hmax : 1 ≤ c.maxSize) (now : τ) (use : Use α) :
    ∃ c', c.after now use = .ok c' ∧ c.Becomes now use c' := by
  cases use with
  | set key value =>
    obtain ⟨room, hroom, hset⟩ := exists_set hkeyed hmax now key value
    exact ⟨_, hset, becomes_setIn hroom hset⟩
  | get key => exact ⟨_, rfl, becomes_get (fun _ => id) nofun⟩
  | contains key => exact ⟨_, rfl, becomes_get (fun _ => id) nofun⟩
  | invalidate key => exact ⟨_, rfl, becomes_erase (fun _ heq => heq.symm) (.inl rfl) nofun⟩
  | clear => exact ⟨_, rfl, becomes_clear⟩

/-- What a cache holds after a history, told by the sets that last. -/
structure Tracks (c₀ : KeyCache α τ) (h : History α τ) (c : KeyCache α τ) : Prop where
  replay_eq : c₀.replay h = .ok c
  keyed : c.Keyed
  timeToLive_eq : c.timeToLive = c₀.timeToLive
  maxSize_eq : c.maxSize = c₀.maxSize
  size_le : c.size ≤ c.maxSize
  lasts_of_find? : ∀ key e, c.find? key = some e → ∃ time,
    c₀.Lasts key time e.value h ∧ e = ⟨key, time + c₀.timeToLive, e.value⟩
  find?_of_lasts : ∀ key time value, c₀.Lasts key time value h →
    c.find? key = some ⟨key, time + c₀.timeToLive, value⟩ ∨
      c.find? key = none ∧ ∃ use ∈ h, time + c₀.timeToLive < use.1

theorem tracks_empty (timeToLive : τ) {maxSize : Int} (hmax : 0 ≤ maxSize) :
    Tracks (empty timeToLive maxSize : KeyCache α τ) [] (empty timeToLive maxSize) where
  replay_eq := rfl
  keyed := List.nodup_nil
  timeToLive_eq := rfl
  maxSize_eq := rfl
  size_le := hmax
  lasts_of_find? := nofun
  find?_of_lasts := fun key time value hlasts => by
    generalize hwhole : ([] : History α τ) = whole at hlasts
    cases hlasts <;> exact absurd hwhole.symm (List.append_ne_nil_of_right_ne_nil _ nofun)

theorem Tracks.step (ht : Tracks c₀ h c) (hafter : c.after now use = .ok c')
    (hb : c.Becomes now use c') : Tracks c₀ (h ++ [(now, use)]) c' where
  replay_eq := replay_concat.trans (Checked.bind_eq_ok.2 ⟨c, ht.replay_eq, hafter⟩)
  keyed := hb.keyed ht.keyed
  timeToLive_eq := hb.timeToLive_eq.trans ht.timeToLive_eq
  maxSize_eq := hb.maxSize_eq.trans ht.maxSize_eq
  size_le := hb.size_le ht.size_le
  lasts_of_find? := fun key e hfound => by
    rcases hb.old_or_set key e hfound with hold | ⟨rfl, he⟩
    · by_cases hended : c.Ends now key use
      · -- The key found is then the one just set.
        rcases hb.ended key hended with hnone | ⟨value, rfl⟩
        · cases hnone.symm.trans hfound
        · cases (hb.set key value rfl).symm.trans hfound
          exact ⟨now, .set h, ht.timeToLive_eq ▸ rfl⟩
      · obtain ⟨time, hlasts, he⟩ := ht.lasts_of_find? key e hold
        exact ⟨time, .keep hlasts ht.replay_eq hended, he⟩
    · exact ⟨now, .set h, ht.timeToLive_eq ▸ he⟩
  find?_of_lasts := fun key time value hlasts => by
    rcases (lasts_concat ht.replay_eq).1 hlasts with ⟨rfl, rfl⟩ | ⟨hlasts, hkept⟩
    · exact .inl (ht.timeToLive_eq ▸ hb.set key value rfl)
    · rcases ht.find?_of_lasts key time value hlasts with hfound | ⟨hnone, past, hpast, hexpired⟩
      · rcases hb.kept_or_expired key _ hfound hkept with hfound' | ⟨hnone, hexpired⟩
        · exact .inl hfound'
        · exact .inr ⟨hnone, _, List.mem_append_right h (List.mem_singleton_self _), hexpired⟩
      · refine .inr ⟨?_, past, List.mem_append_left _ hpast, hexpired⟩
        cases hfound : c'.find? key with
        | none => rfl
        | some e =>
          rcases hb.old_or_set key e hfound with hold | ⟨rfl, -⟩
          · cases hnone.symm.trans hold
          · exact absurd (.inl rfl) hkept

/-- A cache with room for an entry keeps track of every history. -/
theorem exists_tracks (timeToLive : τ) {maxSize : Int} (hmax : 1 ≤ maxSize) (h : History α τ) :
    ∃ c, Tracks (empty timeToLive maxSize) h c := by
  induction h using List.reverseRecOn with
  | nil => exact ⟨_, tracks_empty timeToLive (Int.le_trans (by decide) hmax)⟩
  | append_singleton h use ih =>
    obtain ⟨c, ht⟩ := ih
    obtain ⟨c', hafter, hb⟩ := exists_after ht.keyed (ht.maxSize_eq ▸ hmax) use.1 use.2
    exact ⟨c', ht.step hafter hb⟩

/-- At a moment no earlier than its history, a key reads as what it was last set to. -/
theorem Tracks.get?_eq_some {v : α} (ht : Tracks c₀ h c) (hnow : ∀ use ∈ h, use.1 ≤ now) :
    (c.get? now key).1 = some v ↔
      ∃ time, c₀.Lasts key time (some v) h ∧ now ≤ time + c₀.timeToLive := by
  constructor
  · intro hget
    unfold get? at hget
    split at hget
    case h_1 => cases hget
    case h_2 e hfound =>
      split at hget
      case isTrue => cases hget
      case isFalse hfresh =>
        obtain ⟨time, hlasts, he⟩ := ht.lasts_of_find? key e hfound
        rw [he] at hfresh
        exact ⟨time, hget ▸ hlasts, not_lt.1 hfresh⟩
  · rintro ⟨time, hlasts, hfresh⟩
    rcases ht.find?_of_lasts key time _ hlasts with hfound | ⟨-, past, hpast, hexpired⟩
    · unfold get?
      rw [hfound]
      dsimp only
      rw [if_neg (not_lt.2 hfresh)]
    · exact absurd (hfresh.trans_lt hexpired) (not_lt.2 (hnow past hpast))

/-- A set evicts nothing, or the one entry that makes room for it. -/
theorem evicts_cases (hkeyed : c.Keyed) (hmax : 1 ≤ c.maxSize) (now : τ) (key : String)
    (value : Option α) : (∀ victim, ¬c.Evicts now key value victim) ∨
      ∃ e, c.DropsFor key e ∧ ∀ victim, c.Evicts now key value victim ↔ victim = e.key := by
  obtain ⟨room, hroom, hset⟩ := exists_set hkeyed hmax now key value
  have hgone : ∀ victim, c.Evicts now key value victim ↔
      victim ≠ key ∧ (c.find? victim).isSome ∧ room.find? victim = none := by
    intro victim
    constructor
    · rintro ⟨hne, hfound, c', hset', hnone⟩
      cases hset.symm.trans hset'
      rw [find?_setIn, if_neg hne.symm] at hnone
      exact ⟨hne, hfound, hnone⟩
    · rintro ⟨hne, hfound, hnone⟩
      exact ⟨hne, hfound, _, hset, by rw [find?_setIn, if_neg hne.symm, hnone]⟩
  cases hroom with
  | kept =>
    refine .inl fun victim hevicts => ?_
    obtain ⟨-, hfound, hnone⟩ := (hgone victim).1 hevicts
    rw [hnone] at hfound
    cases hfound
  | dropped e hdrops =>
    refine .inr ⟨e, hdrops, fun victim => (hgone victim).trans ?_⟩
    rw [find?_erase]
    constructor
    · rintro ⟨-, hfound, hnone⟩
      split at hnone
      case isTrue heq => exact heq.symm
      case isFalse =>
        rw [hnone] at hfound
        cases hfound
    · rintro rfl
      refine ⟨fun heq => ?_, hdrops.found ▸ rfl, if_pos rfl⟩
      cases (heq ▸ hdrops.found).symm.trans hdrops.absent

/-- A cache with room for an entry answers for every history of its uses, also while the history
goes on. It is never over its size. A key reads as what it was last set to, up to the end of the time
to live, if nothing has ended that since. A set evicts one entry at most, for a new key in a full
cache and one of those that expire first, so never a fresh one before an expired one. No use touches
an entry of another key that stays. -/
theorem replay_refines (timeToLive : τ) {maxSize : Int} (hmax : 1 ≤ maxSize) (h : History α τ) :
    let start : KeyCache α τ := empty timeToLive maxSize
    ∃ c, start.replay h = .ok c ∧ c.size ≤ maxSize ∧
    (∀ now, (∀ use ∈ h, use.1 ≤ now) → ∀ key v, (c.get? now key).1 = some v ↔
      ∃ time, start.Lasts key time (some v) h ∧ now ≤ time + timeToLive) ∧
    (∀ now key value, (∀ victim, ¬c.Evicts now key value victim) ∨
      ∃ e, c.DropsFor key e ∧ ∀ victim, c.Evicts now key value victim ↔ victim = e.key) ∧
    (∀ now key value victim e other f, c.Evicts now key value victim → c.find? victim = some e →
      c.find? other = some f → f.expiresAt < now → e.expiresAt < now) ∧
    ∀ now use, ∃ c', c.after now use = .ok c' ∧ ∀ other f, use.key? ≠ some other →
      c'.find? other = some f → c.find? other = some f := by
  intro start
  obtain ⟨c, ht⟩ := exists_tracks timeToLive hmax h
  have hroom : 1 ≤ c.maxSize := ht.maxSize_eq ▸ hmax
  have hevicts := fun now key value => evicts_cases ht.keyed hroom now key value
  have hsize : c.size ≤ maxSize := ht.size_le.trans_eq ht.maxSize_eq
  refine ⟨c, ht.replay_eq, hsize, fun now hnow key v => ht.get?_eq_some hnow,
    hevicts, ?_, ?_⟩
  · intro now key value victim e other f hevict hfound hother hexpired
    rcases hevicts now key value with hnone | ⟨first, hdrops, hvictim⟩
    · exact absurd hevict (hnone victim)
    · obtain rfl := (hvictim victim).1 hevict
      cases hdrops.found.symm.trans hfound
      exact (hdrops.first other f hother).trans_lt hexpired
  · intro now use
    obtain ⟨c', hafter, hb⟩ := exists_after ht.keyed hroom now use
    refine ⟨c', hafter, fun other f hother hfound => ?_⟩
    rcases hb.old_or_set other f hfound with hold | ⟨rfl, -⟩
    · exact hold
    · exact absurd rfl hother

/-- Three keys in a cache of two places: the first one is evicted before it expires. -/
def crowded : History String Int :=
  [(0, .set "pool a" (some "a")), (5, .set "pool b" (some "b")), (7, .set "pool c" (some "c"))]

theorem replay_refines_crowded : let start : KeyCache String Int := empty 30 2
    (1 : Int) ≤ 2 ∧ (∀ use ∈ crowded, use.1 ≤ 20) ∧
    (∃ time, start.Lasts "pool b" time (some "b") crowded ∧ 20 ≤ time + 30) ∧
    ¬∃ time, start.Lasts "pool a" time (some "a") crowded ∧ 20 ≤ time + 30 := by
  intro start
  obtain ⟨c, hreplay, -, hreads, -⟩ := replay_refines (30 : Int) (by decide : (1 : Int) ≤ 2) crowded
  have hnow : ∀ use ∈ crowded, use.1 ≤ 20 := by simp [crowded]
  cases hreplay
  exact ⟨by decide, hnow, (hreads 20 hnow _ _).1 rfl, fun hlasts =>
    nomatch (hreads 20 hnow _ _).2 hlasts⟩

end PoolSwap.KeyCache
