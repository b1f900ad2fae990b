import Mathlib.Order.Lattice
import PoolSwap.KeyCache
import PoolSwap.Proofs.Checked

/-! The entries of a cache through the keys that find them. Setting a key makes room first: it drops
an entry only for a new key in a full cache, and then one that expires no later than any other. -/
namespace PoolSwap.KeyCache

variable {α τ : Type} {c : KeyCache α τ} {key other : String} {e f : CacheEntry α τ}

/-- Keys tell the entries of a cache apart. -/
def Keyed (c : KeyCache α τ) : Prop := (c.entries.map (·.key)).Nodup

theorem key_of_find? (h : c.find? key = some e) : e.key = key := by
  simpa using List.find?_some h

theorem mem_of_find? (h : c.find? key = some e) : e ∈ c.entries := List.mem_of_find?_eq_some h

theorem Keyed.find?_of_mem (hkeyed : c.Keyed) (h : e ∈ c.entries) : c.find? e.key = some e := by
  unfold Keyed at hkeyed
  unfold find?
  generalize c.entries = entries at hkeyed h
  induction entries with
  | nil => cases h
  | cons head rest ih =>
    obtain ⟨hhead, hrest⟩ := List.nodup_cons.1 hkeyed
    rcases List.mem_cons.1 h with rfl | h
    · simp
    · have hne : head.key ≠ e.key := fun heq => hhead (List.mem_map.2 ⟨e, h, heq.symm⟩)
      simp [hne, ih hrest h]

@[simp] theorem find?_empty (timeToLive : τ) (maxSize : Int) :
    (empty timeToLive maxSize : KeyCache α τ).find? key = none := rfl

@[simp] theorem find?_clear : c.clear.find? key = none := rfl

@[simp] theorem find?_erase :
    (c.erase other).find? key = if other = key then none else c.find? key := by
  unfold find? erase
  rw [List.find?_filter]
  split
  case isTrue heq =>
    refine List.find?_eq_none.2 fun e _ => ?_
    simp [heq]
  case isFalse hne =>
    congr 1
    funext e
    by_cases hkey : e.key = key
    · simp [hkey, Ne.symm hne]
    · simp [hkey]

theorem Keyed.erase (hkeyed : c.Keyed) (key : String) : (c.erase key).Keyed :=
  (List.filter_sublist.map _).nodup hkeyed

theorem size_erase_le (c : KeyCache α τ) (key : String) : (c.erase key).size ≤ c.size :=
  List.length_filter_le _ _

/-- Dropping an entry that a cache has leaves a place. -/
theorem size_erase_lt (h : c.find? key = some e) : (c.erase key).size < c.size :=
  List.length_filter_lt_length_iff_exists.2 ⟨e, mem_of_find? h, by simp [key_of_find? h]⟩

section Put

variable {entries : List (CacheEntry α τ)}

theorem mem_of_mem_put (h : f ∈ put e entries) : f = e ∨ f ∈ entries := by
  induction entries with
  | nil => exact .inl (List.mem_singleton.1 h)
  | cons head rest ih =>
    unfold put at h
    split at h
    case isTrue =>
      rcases List.mem_cons.1 h with rfl | h
      · exact .inl rfl
      · exact .inr (List.mem_cons_of_mem _ h)
    case isFalse =>
      rcases List.mem_cons.1 h with rfl | h
      · exact .inr List.mem_cons_self
      · exact (ih h).imp_right (List.mem_cons_of_mem _)

theorem mem_keys_put : other ∈ (put e entries).map (·.key) ↔
    other = e.key ∨ other ∈ entries.map (·.key) := by
  induction entries with
  | nil => simp [put]
  | cons head rest ih =>
    unfold put
    split
    case isTrue heq => simp [heq]
    case isFalse => rw [List.map_cons, List.mem_cons, ih, List.map_cons, List.mem_cons, or_left_comm]

theorem nodup_keys_put (h : (entries.map (·.key)).Nodup) :
    ((put e entries).map (·.key)).Nodup := by
  induction entries with
  | nil => exact List.pairwise_singleton _ _
  | cons head rest ih =>
    rw [List.map_cons, List.nodup_cons] at h
    obtain ⟨hhead, hrest⟩ := h
    unfold put
    split
    case isTrue heq =>
      rw [List.map_cons, List.nodup_cons]
      exact ⟨heq ▸ hhead, hrest⟩
    case isFalse hne =>
      refine List.nodup_cons.2 ⟨fun hmem => ?_, ih hrest⟩
      exact (mem_keys_put.1 hmem).elim hne hhead

theorem length_put_of_isSome (h : (entries.find? (·.key = e.key)).isSome) :
    (put e entries).length = entries.length := by
  induction entries with
  | nil => cases h
  | cons head rest ih =>
    unfold put
    split
    case isTrue => rfl
    case isFalse hne =>
      rw [List.find?_cons_of_neg (by simpa using hne)] at h
      rw [List.length_cons, ih h, List.length_cons]

theorem length_put_le : (put e entries).length ≤ entries.length + 1 := by
  induction entries with
  | nil => exact Nat.le_refl 1
  | cons head rest ih =>
    unfold put
    split
    case isTrue => exact Nat.le_succ _
    case isFalse => exact Nat.succ_le_succ ih

end Put

section SetIn

variable [Add τ] {now : τ} {value : Option α} {room : KeyCache α τ}

/-- The cache with a key set, once there is room for it. -/
def setIn (room : KeyCache α τ) (now : τ) (key : String) (value : Option α) : KeyCache α τ :=
  { room with entries := put ⟨key, now + room.timeToLive, value⟩ room.entries }

@[simp] theorem find?_setIn : (room.setIn now key value).find? other =
    if key = other then some ⟨key, now + room.timeToLive, value⟩ else room.find? other :=
  find?_put _ _ _

theorem Keyed.setIn (hkeyed : room.Keyed) : (room.setIn now key value).Keyed :=
  nodup_keys_put hkeyed

end SetIn

/-- Whether every value in a cache may stand for its key. -/
def Holds (c : KeyCache α τ) (may : String → α → Prop) : Prop :=
  ∀ e ∈ c.entries, ∀ a, e.value = some a → may e.key a

section Holds

variable {may : String → α → Prop} {now : τ} {value : Option α}

theorem Holds.mono {may' : String → α → Prop} (h : c.Holds may)
    (hmay : ∀ key a, may key a → may' key a) : c.Holds may' :=
  fun e he a ha => hmay e.key a (h e he a ha)

theorem Holds.erase (h : c.Holds may) (key : String) : (c.erase key).Holds may :=
  fun e he => h e (List.mem_filter.1 he).1

theorem Holds.setIn [Add τ] (h : c.Holds may) (hvalue : ∀ a, value = some a → may key a) :
    (c.setIn now key value).Holds may := by
  intro e he a ha
  rcases mem_of_mem_put he with rfl | he
  · exact hvalue a ha
  · exact h e he a ha

variable [LT τ] [DecidableLT τ]

theorem Holds.get? (h : c.Holds may) (now : τ) (key : String) : (c.get? now key).2.Holds may := by
  unfold KeyCache.get?
  split
  · exact h
  · split
    · exact h.erase key
    · exact h

/-- What a key reads as is the value of its entry. -/
theorem Holds.of_get? {a : α} (h : c.Holds may) (hget : (c.get? now key).1 = some a) :
    may key a := by
  unfold KeyCache.get? at hget
  split at hget
  case h_1 => cases hget
  case h_2 e hfound =>
    split at hget
    case isTrue => cases hget
    case isFalse => exact key_of_find? hfound ▸ h e (mem_of_find? hfound) a hget

theorem Holds.set [Add τ] {c' : KeyCache α τ} (h : c.Holds may)
    (hvalue : ∀ a, value = some a → may key a) (hset : c.set now key value = .ok c') :
    c'.Holds may := by
  unfold KeyCache.set at hset
  dsimp only at hset
  split at hset
  case isTrue =>
    split at hset
    case h_1 e _ =>
      cases hset
      exact (h.erase e.key).setIn hvalue
    case h_2 => cases hset
  case isFalse =>
    cases hset
    exact h.setIn hvalue

end Holds

section Clock

variable [LinearOrder τ]

theorem firstToExpire_eq_none {entries : List (CacheEntry α τ)} :
    firstToExpire entries = none ↔ entries = [] := by
  cases entries with
  | nil => exact ⟨fun _ => rfl, fun _ => rfl⟩
  | cons head rest =>
    unfold firstToExpire
    cases firstToExpire rest <;> exact ⟨nofun, nofun⟩

/-- The first to expire is one of the entries, and none expires before it. -/
theorem firstToExpire_spec {entries : List (CacheEntry α τ)} (h : firstToExpire entries = some e) :
    e ∈ entries ∧ ∀ f ∈ entries, e.expiresAt ≤ f.expiresAt := by
  induction entries generalizing e with
  | nil => cases h
  | cons head rest ih =>
    unfold firstToExpire at h
    cases hfirst : firstToExpire rest with
    | none =>
      rw [hfirst] at h
      cases h
      rw [firstToExpire_eq_none.1 hfirst]
      exact ⟨List.mem_singleton_self _, fun f hf => by rw [List.mem_singleton.1 hf]⟩
    | some first =>
      rw [hfirst] at h
      obtain ⟨hmem, hleast⟩ := ih hfirst
      obtain rfl := Option.some.inj h
      split
      case isTrue hlt =>
        exact ⟨List.mem_cons_of_mem _ hmem, List.forall_mem_cons.2 ⟨hlt.le, hleast⟩⟩
      case isFalse hle =>
        refine ⟨List.mem_cons_self, List.forall_mem_cons.2 ⟨le_rfl, fun f hf => ?_⟩⟩
        exact (not_lt.1 hle).trans (hleast f hf)

/-- Whether a cache drops an entry to make room for a key. -/
structure DropsFor (c : KeyCache α τ) (key : String) (e : CacheEntry α τ) : Prop where
  absent : c.find? key = none
  full : c.maxSize ≤ c.size
  found : c.find? e.key = some e
  first : ∀ other f, c.find? other = some f → e.expiresAt ≤ f.expiresAt

/-- How a cache makes room for a key. -/
inductive MakesRoom (c : KeyCache α τ) (key : String) : KeyCache α τ → Prop
  | kept (h : (c.find? key).isSome ∨ c.size < c.maxSize) : MakesRoom c key c
  | dropped (e : CacheEntry α τ) (h : c.DropsFor key e) : MakesRoom c key (c.erase e.key)

variable {room : KeyCache α τ}

theorem MakesRoom.maxSize_eq (h : c.MakesRoom key room) : room.maxSize = c.maxSize := by
  cases h <;> rfl

theorem MakesRoom.timeToLive_eq (h : c.MakesRoom key room) : room.timeToLive = c.timeToLive := by
  cases h <;> rfl

theorem MakesRoom.keyed (h : c.MakesRoom key room) (hkeyed : c.Keyed) : room.Keyed := by
  cases h with
  | kept => exact hkeyed
  | dropped e => exact hkeyed.erase e.key

/-- An entry that is there once room was made was there before. -/
theorem MakesRoom.find?_eq_some (h : c.MakesRoom key room) (hfound : room.find? other = some f) :
    c.find? other = some f := by
  cases h with
  | kept => exact hfound
  | dropped e =>
    rw [find?_erase] at hfound
    split at hfound
    case isTrue => cases hfound
    case isFalse => exact hfound

variable [Add τ] {now : τ} {value : Option α}

/-- A cache with any room at all can set every key. -/
theorem exists_set (hkeyed : c.Keyed) (hmax : 1 ≤ c.maxSize) (now : τ) (key : String)
    (value : Option α) :
    ∃ room, c.MakesRoom key room ∧ c.set now key value = .ok (room.setIn now key value) := by
  unfold set
  split
  case isFalse hroomy =>
    refine ⟨c, .kept ?_, rfl⟩
    rw [not_and_or, Option.isNone_iff_eq_none, ← ne_eq, Option.ne_none_iff_isSome,
      Int.not_le] at hroomy
    exact hroomy
  case isTrue hfull =>
    obtain ⟨habsent, hfull⟩ := hfull
    cases hfirst : firstToExpire c.entries with
    | none =>
      have hsize : c.size = 0 := by rw [size, firstToExpire_eq_none.1 hfirst, List.length_nil]
      omega
    | some e =>
      obtain ⟨hmem, hleast⟩ := firstToExpire_spec hfirst
      exact ⟨c.erase e.key, .dropped e ⟨Option.isNone_iff_eq_none.1 habsent, hfull,
        hkeyed.find?_of_mem hmem, fun _ f hf => hleast f (mem_of_find? hf)⟩, rfl⟩

/-- Setting a key keeps a cache within its size. -/
theorem MakesRoom.size_setIn_le (h : c.MakesRoom key room) (hsize : c.size ≤ c.maxSize) :
    (room.setIn now key value).size ≤ c.maxSize := by
  have hput : (room.setIn now key value).size ≤ room.size + 1 := length_put_le
  cases h with
  | kept hroomy =>
    rcases hroomy with hfound | hroom
    · have hkept : (c.setIn now key value).size = c.size := length_put_of_isSome hfound
      omega
    · omega
  | dropped e hdrops =>
    have hlt := size_erase_lt hdrops.found
    omega

end Clock

end PoolSwap.KeyCache
