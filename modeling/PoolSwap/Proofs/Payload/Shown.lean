import PoolSwap.Proofs.Checked

/-! Which values have a text. A value is shown within some levels exactly if no part of it lies below
all of them and no integer in it has too many digits. -/
namespace PoolSwap.Payload

open Checked

/-- The values directly in a value. -/
def parts : Payload → List Payload
  | list items => items
  | record fields => fields.map Prod.snd
  | _ => []

/-- Whether a value is in another one, so many levels below it. -/
inductive Within (p : Payload) : Nat → Payload → Prop
  | self : Within p 0 p
  | part {depth : Nat} {q whole : Payload} (mem : q ∈ whole.parts) (within : Within p depth q) :
      Within p (depth + 1) whole

/-- Why a value cannot be shown within some levels. -/
inductive Unshowable (levels : Nat) (p : Payload) : Breach → Prop
  | tooDeep {q : Payload} (within : q.Within levels p) : Unshowable levels p .tooDeep
  | tooManyDigits {depth : Nat} {n : Int} (within : (int n).Within depth p)
      (long : Numeral.maxIntegerDigits < digitCount n.natAbs) : Unshowable levels p .tooManyDigits

variable {levels : Nat} {p q : Payload} {rule : Breach} {text : String}

theorem Unshowable.of_part (hq : q ∈ p.parts) (h : q.Unshowable levels rule) :
    p.Unshowable (levels + 1) rule := by
  cases h with
  | tooDeep within => exact .tooDeep (.part hq within)
  | tooManyDigits within long => exact .tooManyDigits (.part hq within) long

theorem shownItems_eq_mapM (levels : Nat) (items : List Payload) :
    shownItems levels items = items.mapM (shown levels) := by
  induction items with
  | nil => rfl
  | cons p rest ih =>
    rw [shownItems, List.mapM_cons, ih]
    rfl

theorem shownFields_eq_mapM (levels : Nat) (fields : List (String × Payload)) :
    shownFields levels fields = fields.mapM fun field =>
      (field.2.shown levels).map (Quoted.encode field.1 ++ ": " ++ ·) := by
  induction fields with
  | nil => rfl
  | cons field rest ih =>
    rw [shownFields, List.mapM_cons, ih]
    cases field.2.shown levels <;> rfl

theorem shownInteger_eq_error {n : Int} : shownInteger n = .error rule ↔
    Numeral.maxIntegerDigits < digitCount n.natAbs ∧ rule = .tooManyDigits := by
  unfold shownInteger
  split
  case isTrue hshort => exact ⟨nofun, fun h => absurd h.1 (Nat.not_lt.2 hshort)⟩
  case isFalse hlong =>
    rw [Except.error.injEq, and_iff_right (Nat.lt_of_not_le hlong), eq_comm]

/-- With a level for the value itself, it fails to be shown as one of its parts does, or as an
integer that it is. -/
theorem shown_succ_eq_error (h : p.shown (levels + 1) = .error rule) :
    (∃ q ∈ p.parts, q.shown levels = .error rule) ∨
      ∃ n, p = int n ∧ shownInteger n = .error rule := by
  cases p with
  | int n => exact .inr ⟨n, rfl, h⟩
  | list items =>
    rw [shown, bind_eq_error, shownItems_eq_mapM] at h
    rcases h with h | ⟨_, _, ⟨⟩⟩
    exact .inl (exists_of_mapM_eq_error h)
  | record fields =>
    rw [shown, bind_eq_error, shownFields_eq_mapM] at h
    rcases h with h | ⟨_, _, ⟨⟩⟩
    obtain ⟨field, hfield, h⟩ := exists_of_mapM_eq_error h
    exact .inl ⟨field.2, List.mem_map_of_mem hfield, map_eq_error.1 h⟩
  | _ => cases h

theorem exists_shown_of_part (h : p.shown (levels + 1) = .ok text) (hq : q ∈ p.parts) :
    ∃ text, q.shown levels = .ok text := by
  cases p with
  | list items =>
    rw [shown, bind_eq_ok, shownItems_eq_mapM] at h
    obtain ⟨texts, h, -⟩ := h
    obtain ⟨text, -, h⟩ := exists_of_mapM_eq_ok h hq
    exact ⟨text, h⟩
  | record fields =>
    rw [shown, bind_eq_ok, shownFields_eq_mapM] at h
    obtain ⟨texts, h, -⟩ := h
    obtain ⟨field, hfield, rfl⟩ := List.mem_map.1 hq
    obtain ⟨_, -, h⟩ := exists_of_mapM_eq_ok h hfield
    obtain ⟨text, h, -⟩ := map_eq_ok.1 h
    exact ⟨text, h⟩
  | _ => cases hq

/-- A value that is not shown is nested too deep or holds an integer that is too long. -/
theorem unshowable_of_shown (h : p.shown levels = .error rule) : p.Unshowable levels rule := by
  induction levels generalizing p with
  | zero =>
    rw [shown] at h
    cases h
    exact .tooDeep .self
  | succ levels ih =>
    rcases shown_succ_eq_error h with ⟨q, hq, h⟩ | ⟨n, rfl, h⟩
    · exact (ih h).of_part hq
    · obtain ⟨hlong, rfl⟩ := shownInteger_eq_error.1 h
      exact .tooManyDigits .self hlong

/-- No value that is nested too deep or holds an integer that is too long is shown. -/
theorem not_unshowable_of_shown (h : p.shown levels = .ok text) : ¬p.Unshowable levels rule := by
  induction levels generalizing p text with
  | zero =>
    rw [shown] at h
    cases h
  | succ levels ih =>
    intro hrule
    cases hrule with
    | tooDeep within =>
      cases within with
      | part hq within =>
        obtain ⟨text, h⟩ := exists_shown_of_part h hq
        exact ih h (.tooDeep within)
    | tooManyDigits within long =>
      cases within with
      | self =>
        rw [shown, shownInteger, if_neg (Nat.not_le.2 long)] at h
        cases h
      | part hq within =>
        obtain ⟨text, h⟩ := exists_shown_of_part h hq
        exact ih h (.tooManyDigits within long)

/-- The rules that keep a value from being shown are the only ones. -/
theorem exists_shown_eq_error :
    (∃ rule, p.shown levels = .error rule) ↔ ∃ rule, p.Unshowable levels rule := by
  constructor
  · rintro ⟨rule, h⟩
    exact ⟨rule, unshowable_of_shown h⟩
  · rintro ⟨rule, hrule⟩
    cases h : p.shown levels with
    | error rule => exact ⟨rule, rfl⟩
    | ok text => exact absurd hrule (not_unshowable_of_shown h)

theorem unshowable_of_plainText (h : p.plainText levels = .error rule) :
    p.Unshowable levels rule := by
  cases p with
  | text s => cases h
  | _ => exact unshowable_of_shown h

end PoolSwap.Payload
