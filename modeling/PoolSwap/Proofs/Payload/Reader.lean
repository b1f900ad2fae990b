import PoolSwap.Payload.Reader
import PoolSwap.Proofs.Checked

/-! Why a text is not read. Beside texts that are no JSON, only those with a run of too many digits,
and those that open more lists and records than there are levels, are refused. -/
namespace PoolSwap.Payload

open Checked

/-- Whether a character opens a list or a record. -/
def opens (c : Char) : Bool := c = '[' || c = '\x7b'

/-- Why no value is read from some characters within some levels. -/
inductive Unreadable (levels : Nat) (cs : List Char) : Breach → Prop
  | malformed : Unreadable levels cs .malformedJson
  | tooManyDigits {run : List Char} (within : run <:+: cs) (digits : ∀ c ∈ run, c.isDigit)
      (long : Numeral.maxIntegerDigits < run.length) : Unreadable levels cs .tooManyDigits
  | tooDeep (opened : levels < cs.countP opens) : Unreadable levels cs .tooDeep

variable {levels fuel : Nat} {cs cs' rest ds seen : List Char} {rule : Breach} {c : Char}

theorem Unreadable.of_isInfix (hcs : cs' <:+: cs) (h : Unreadable levels cs' rule) :
    Unreadable levels cs rule := by
  cases h with
  | malformed => exact .malformed
  | tooManyDigits within digits long => exact .tooManyDigits (within.trans hcs) digits long
  | tooDeep opened => exact .tooDeep (Nat.lt_of_lt_of_le opened hcs.sublist.countP_le)

/-- A bracket takes a level from what follows it. -/
theorem Unreadable.of_opens (hc : opens c) (h : Unreadable levels cs rule) :
    Unreadable (levels + 1) (c :: cs) rule := by
  cases h with
  | malformed => exact .malformed
  | tooManyDigits within digits long =>
    exact .tooManyDigits (within.trans (List.suffix_cons c cs).isInfix) digits long
  | tooDeep opened =>
    refine .tooDeep ?_
    rw [List.countP_cons_of_pos hc]
    exact Nat.succ_lt_succ opened

namespace Reader

/-- What a reader of some characters may do: it takes some from the front, or fails for a reason that
is in them. -/
structure Reads (levels : Nat) (cs : List Char) (x : Except Breach (α × List Char)) : Prop where
  rest : ∀ a rest, x = .ok (a, rest) → rest <:+ cs
  rule : ∀ rule, x = .error rule → Unreadable levels cs rule

section Reads

variable {x : Except Breach (α × List Char)} {f : α × List Char → Except Breach (β × List Char)}

theorem Reads.ok {a : α} (h : rest <:+ cs) : Reads levels cs (.ok (a, rest)) := by
  refine ⟨?_, nofun⟩
  rintro _ _ ⟨⟩
  exact h

theorem Reads.error (h : Unreadable levels cs rule) :
    Reads levels cs (.error rule : Except Breach (α × List Char)) := by
  refine ⟨nofun, ?_⟩
  rintro _ ⟨⟩
  exact h

theorem Reads.malformed :
    Reads levels cs (.error .malformedJson : Except Breach (α × List Char)) :=
  .error .malformed

theorem Reads.of_suffix (hcs : cs' <:+ cs) (h : Reads levels cs' x) : Reads levels cs x :=
  ⟨fun a rest hx => (h.rest a rest hx).trans hcs,
    fun rule hx => (h.rule rule hx).of_isInfix hcs.isInfix⟩

theorem Reads.of_opens (hc : opens c) (h : Reads levels cs x) : Reads (levels + 1) (c :: cs) x :=
  ⟨fun a rest hx => (h.rest a rest hx).trans (List.suffix_cons c cs),
    fun rule hx => (h.rule rule hx).of_opens hc⟩

theorem Reads.bind (hx : Reads levels cs x)
    (hf : ∀ a rest, x = .ok (a, rest) → Reads levels rest (f (a, rest))) :
    Reads levels cs (x >>= f) := by
  cases x with
  | error rule => exact .error (hx.rule rule rfl)
  | ok p => exact (hf p.1 p.2 rfl).of_suffix (hx.rest p.1 p.2 rfl)

theorem Reads.ofOption {o : Option (α × List Char)} (h : ∀ a rest, o = some (a, rest) → rest <:+ cs) :
    Reads levels cs (Reader.ofOption o) := by
  cases o with
  | none => exact .malformed
  | some p => exact .ok (h p.1 p.2 rfl)

end Reads

theorem skipSpace_suffix (cs : List Char) : skipSpace cs <:+ cs := List.dropWhile_suffix _

/-- What is read after the space at the front. -/
theorem Reads.of_skipSpace {x : Except Breach (α × List Char)} (h : Reads levels (skipSpace cs) x) :
    Reads levels cs x :=
  h.of_suffix (skipSpace_suffix cs)

/-! Texts and numbers. -/

theorem unit?_suffix {n : Nat} (h : unit? cs = some (n, rest)) : rest <:+ cs := by
  unfold unit? at h
  split at h
  case h_1 a b c d rest' =>
    obtain ⟨_, -, h⟩ := Option.bind_eq_some_iff.1 h
    cases h
    exact ⟨[a, b, c, d], rfl⟩
  case h_2 => cases h

theorem escapedUnit?_suffix {n : Nat} (h : escapedUnit? cs = some (n, rest)) : rest <:+ cs := by
  unfold escapedUnit? at h
  split at h
  · exact (unit?_suffix h).trans ⟨['\\', 'u'], rfl⟩
  · cases h

theorem unicodeEscape?_suffix (h : unicodeEscape? cs = some (c, rest)) : rest <:+ cs := by
  obtain ⟨⟨high, after⟩, hunit, h⟩ := Option.bind_eq_some_iff.1 h
  refine List.IsSuffix.trans ?_ (unit?_suffix hunit)
  dsimp only at h
  split at h
  · cases hlow : escapedUnit? after with
    | none =>
      rw [hlow] at h
      cases h
      exact List.suffix_rfl
    | some low =>
      rw [hlow] at h
      dsimp only at h
      split at h
      · obtain ⟨-, rfl⟩ := Prod.mk.inj (Option.some.inj h)
        exact escapedUnit?_suffix hlow
      · cases h
        exact List.suffix_rfl
  · split at h <;> cases h <;> exact List.suffix_rfl

theorem chars?_suffix {s : List Char} (h : chars? fuel seen cs = some (s, rest)) : rest <:+ cs := by
  induction fuel generalizing seen cs with
  | zero => cases h
  | succ fuel ih =>
    unfold chars? at h
    split at h
    · cases h
    · cases h
      exact List.suffix_cons _ _
    · obtain ⟨⟨c, after⟩, hescape, h⟩ := Option.bind_eq_some_iff.1 h
      exact ((ih h).trans (unicodeEscape?_suffix hescape)).trans ⟨['\\', 'u'], rfl⟩
    · obtain ⟨c, -, h⟩ := Option.bind_eq_some_iff.1 h
      exact (ih h).trans ⟨['\\', _], rfl⟩
    · split at h
      · cases h
      · exact (ih h).trans (List.suffix_cons _ _)

theorem whole?_eq_some (h : whole? cs = some (ds, rest)) :
    cs = ds ++ rest ∧ ∀ c ∈ ds, c.isDigit := by
  unfold whole? at h
  split at h
  · cases h
    exact ⟨rfl, List.forall_mem_singleton.2 rfl⟩
  · dsimp only at h
    split at h
    · cases h
    · cases h
      exact ⟨List.takeWhile_append_dropWhile.symm, List.all_eq_true.1 List.all_takeWhile⟩

theorem fraction_suffix (cs : List Char) : (fraction cs).2 <:+ cs := by
  unfold fraction
  split
  · dsimp only
    split
    · exact List.suffix_rfl
    · exact (List.dropWhile_suffix _).trans (List.suffix_cons _ _)
  · exact List.suffix_rfl

theorem exponentSign_suffix (cs : List Char) : (exponentSign cs).2 <:+ cs := by
  unfold exponentSign
  split
  · exact List.suffix_cons _ _
  · exact List.suffix_cons _ _
  · exact List.suffix_rfl

theorem exponent_suffix (cs : List Char) : (exponent cs).2 <:+ cs := by
  unfold exponent
  split
  case h_1 mark rest =>
    split
    · dsimp only
      split
      · exact List.suffix_rfl
      · exact ((List.dropWhile_suffix _).trans (exponentSign_suffix rest)).trans
          (List.suffix_cons mark rest)
    · exact List.suffix_rfl
  case h_2 => exact List.suffix_rfl

theorem unreadable_of_ofParts {negative : Bool} {frac expo : List Char}
    (h : ofParts negative ds frac expo = .error rule) (hds : ds <:+: cs)
    (hdigits : ∀ c ∈ ds, c.isDigit) : Unreadable levels cs rule := by
  unfold ofParts at h
  split at h
  · split at h
    · cases h
    case isFalse hlong =>
      cases h
      exact .tooManyDigits hds hdigits (Nat.lt_of_not_le hlong)
  · cases hnumber : Numeral.unsigned? (ds ++ frac ++ expo) with
    | none =>
      rw [hnumber] at h
      cases h
      exact .malformed
    | some w =>
      rw [hnumber] at h
      cases h

theorem number_reads (levels : Nat) (negative : Bool) (cs : List Char) :
    Reads levels cs (number negative cs) := by
  unfold number
  cases hwhole : whole? cs with
  | none => exact .malformed
  | some p =>
    obtain ⟨ds, rest⟩ := p
    obtain ⟨rfl, hdigits⟩ := whole?_eq_some hwhole
    change Reads levels (ds ++ rest)
      (ofParts negative ds (fraction rest).1 (exponent (fraction rest).2).1 >>= fun p =>
        .ok (p, (exponent (fraction rest).2).2))
    cases hparts : ofParts negative ds (fraction rest).1 (exponent (fraction rest).2).1 with
    | error rule =>
      exact .error (unreadable_of_ofParts hparts (List.prefix_append ds rest).isInfix hdigits)
    | ok p =>
      exact .ok (((exponent_suffix _).trans (fraction_suffix rest)).trans (List.suffix_append ds rest))

theorem word_reads (levels : Nat) (w : String) (p : Payload) (cs : List Char) :
    Reads levels cs (word w p cs) := by
  unfold word
  split
  · exact .ok (List.drop_suffix _ cs)
  · exact .malformed

theorem scalar_reads (levels : Nat) (cs : List Char) : Reads levels cs (scalar cs) := by
  unfold scalar
  split
  case h_6 => exact (word_reads levels _ _ _).of_suffix (List.suffix_cons _ _)
  case h_7 => exact (number_reads levels true _).of_suffix (List.suffix_cons _ _)
  case h_8 => exact number_reads levels false _
  all_goals exact word_reads levels _ _ _

/-! The readers of values, items and fields call each other, always with less fuel. -/
section Values

theorem value_succ_reads
    (hitems : ∀ levels cs, Reads levels cs (items levels fuel [] cs))
    (hfields : ∀ levels cs, Reads levels cs (fields levels fuel [] cs)) :
    Reads levels cs (value levels (fuel + 1) cs) := by
  unfold value
  split
  case h_1 rest =>
    refine (Reads.bind (.ofOption fun _ _ h => chars?_suffix h) fun s after _ => ?_).of_suffix
      (List.suffix_cons _ rest)
    exact .ok List.suffix_rfl
  case h_2 rest =>
    cases levels with
    | zero => exact .error (.tooDeep (by simp [opens]))
    | succ levels =>
      refine (Reads.of_skipSpace ?_).of_opens rfl
      generalize skipSpace rest = after
      dsimp only
      split
      · exact .ok (List.suffix_cons _ _)
      · exact hitems levels _
  case h_3 rest =>
    cases levels with
    | zero => exact .error (.tooDeep (by simp [opens]))
    | succ levels =>
      refine (Reads.of_skipSpace ?_).of_opens rfl
      generalize skipSpace rest = after
      dsimp only
      split
      · exact .ok (List.suffix_cons _ _)
      · exact hfields levels _
  case h_4 => exact scalar_reads levels cs

theorem items_succ_reads {seen : List Payload}
    (hvalue : ∀ cs, Reads levels cs (value levels fuel cs))
    (hitems : ∀ seen cs, Reads levels cs (items levels fuel seen cs)) :
    Reads levels cs (items levels (fuel + 1) seen cs) := by
  unfold items
  refine .of_skipSpace (.bind (hvalue _) fun p rest _ => .of_skipSpace ?_)
  dsimp only
  generalize skipSpace rest = after
  split
  · exact (hitems _ _).of_suffix (List.suffix_cons _ _)
  · exact .ok (List.suffix_cons _ _)
  · exact .malformed

theorem fields_succ_reads {seen : List (String × Payload)}
    (hvalue : ∀ cs, Reads levels cs (value levels fuel cs))
    (hfields : ∀ seen cs, Reads levels cs (fields levels fuel seen cs)) :
    Reads levels cs (fields levels (fuel + 1) seen cs) := by
  unfold fields
  refine .of_skipSpace ?_
  generalize skipSpace cs = front
  split
  case h_2 => exact .malformed
  case h_1 rest =>
    refine .of_suffix (List.suffix_cons _ rest) (.bind (.ofOption fun _ _ h => chars?_suffix h)
      fun name rest _ => .of_skipSpace ?_)
    dsimp only
    generalize skipSpace rest = after
    split
    case h_2 => exact .malformed
    case h_1 rest =>
      refine .of_suffix (List.suffix_cons _ rest) (.of_skipSpace (.bind (hvalue _)
        fun p rest _ => .of_skipSpace ?_))
      dsimp only
      generalize skipSpace rest = after
      split
      · exact (hfields _ _).of_suffix (List.suffix_cons _ _)
      · exact .ok (List.suffix_cons _ _)
      · exact .malformed

theorem values_read (fuel : Nat) : (∀ levels cs, Reads levels cs (value levels fuel cs)) ∧
    (∀ levels seen cs, Reads levels cs (items levels fuel seen cs)) ∧
    ∀ levels seen cs, Reads levels cs (fields levels fuel seen cs) := by
  induction fuel with
  | zero => exact ⟨fun _ _ => .malformed, fun _ _ _ => .malformed, fun _ _ _ => .malformed⟩
  | succ fuel ih =>
    obtain ⟨hvalue, hitems, hfields⟩ := ih
    exact ⟨fun _ _ => value_succ_reads (hitems · []) (hfields · []),
      fun _ _ _ => items_succ_reads (hvalue _) (hitems _),
      fun _ _ _ => fields_succ_reads (hvalue _) (hfields _)⟩

end Values

end Reader

/-- A text that is no more than malformed has a run of too many digits or opens too many lists and
records. -/
theorem unreadable_of_ofText {s : String} (h : ofText levels s = .error rule) :
    Unreadable levels s.toList rule := by
  have hread := ((Reader.values_read (s.toList.length + 1)).1 levels _).of_suffix
    (Reader.skipSpace_suffix s.toList)
  rcases bind_eq_error.1 h with h | ⟨⟨p, rest⟩, -, h⟩
  · exact hread.rule rule h
  · dsimp only at h
    split at h
    · cases h
    · cases h
      exact .malformed

example : (ofText 2 "[[true], -10]" >>= shown 3) = .ok "[[True], -10]" := by cbv

example : (ofText 1 "[[true], -10]" >>= shown 3) = .error .tooDeep := by cbv

end PoolSwap.Payload
