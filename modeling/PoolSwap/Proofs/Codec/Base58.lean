import Mathlib.Data.Nat.Digits.Lemmas
import PoolSwap.Address

/-! Base 58 text is canonical: a text that decodes is the text of the bytes it decodes to. So two
texts of one address are the same text. -/
namespace PoolSwap

theorem radixDigits_eq_digits {base : Nat} (hbase : 1 < base) (n : Nat) :
    radixDigits base n = Nat.digits base n := by
  fun_induction radixDigits base n with
  | case1 n h =>
    obtain rfl : n = 0 := h.resolve_right (by omega)
    rw [Nat.digits_zero]
  | case2 n h ih => rw [Nat.digits_def' hbase (by omega), ih]

/-- The number of some digits, the most significant first. -/
theorem foldl_eq_ofDigits (base : Nat) (ds : List Nat) :
    ds.foldl (fun n d => base * n + d) 0 = Nat.ofDigits base ds.reverse := by
  rw [Nat.ofDigits_eq_foldr, List.foldr_reverse]
  exact congrFun (congrFun (congrArg List.foldl (funext₂ fun n d => Nat.add_comm _ _)) 0) ds

/-- Digits are their leading zeros and the digits of their number. -/
theorem replicate_append_digits {base : Nat} (hbase : 1 < base) {ds : List Nat}
    (hds : ∀ d ∈ ds, d < base) :
    List.replicate (ds.takeWhile (· = 0)).length 0 ++
      (Nat.digits base (ds.foldl (fun n d => base * n + d) 0)).reverse = ds := by
  induction ds with
  | nil => simp
  | cons d ds ih =>
    by_cases hd : d = 0
    · subst hd
      simpa [List.replicate_succ] using ih fun d hd => hds d (List.mem_cons_of_mem _ hd)
    · rw [foldl_eq_ofDigits, Nat.digits_ofDigits base hbase]
      · simp [hd]
      · exact fun d hd => hds d (List.mem_reverse.1 hd)
      · simpa using hd

namespace Base58

theorem ofBigEndian_replicate_append (zeros : Nat) (bs : Bytes) :
    ofBigEndian (List.replicate zeros 0 ++ bs) = ofBigEndian bs := by
  unfold ofBigEndian
  induction zeros with
  | zero => rfl
  | succ zeros ih => simpa [List.replicate_succ] using ih

theorem map_toBigEndian (n : Nat) :
    (toBigEndian n).map UInt8.toNat = (Nat.digits 256 n).reverse := by
  unfold toBigEndian
  rw [radixDigits_eq_digits (by decide), List.map_reverse, List.map_map]
  refine congrArg List.reverse ((List.map_congr_left fun d hd => ?_).trans (List.map_id _))
  exact UInt8.toNat_ofNat_of_lt (Nat.digits_lt_base (by decide) hd)

theorem ofBigEndian_toBigEndian (n : Nat) : ofBigEndian (toBigEndian n) = n := by
  have hmap : ofBigEndian (toBigEndian n) =
      ((toBigEndian n).map UInt8.toNat).foldl (fun n d => 256 * n + d) 0 :=
    List.foldl_map.symm
  rw [hmap, map_toBigEndian, foldl_eq_ofDigits, List.reverse_reverse, Nat.ofDigits_digits]

/-- No number is written with a leading zero byte. -/
theorem takeWhile_toBigEndian (n : Nat) : (toBigEndian n).takeWhile (· = 0) = [] := by
  have hmap := map_toBigEndian n
  cases hbytes : toBigEndian n with
  | nil => rfl
  | cons b bs =>
    rw [hbytes] at hmap
    have hdigits : Nat.digits 256 n = (bs.map UInt8.toNat).reverse ++ [b.toNat] := by
      rw [← List.reverse_reverse (Nat.digits 256 n), ← hmap, List.map_cons, List.reverse_cons]
    have hn : n ≠ 0 := by
      rintro rfl
      simp at hdigits
    have hlast := Nat.getLast_digit_ne_zero 256 hn
    simp only [hdigits, List.getLast_append_singleton] at hlast
    refine List.takeWhile_cons_of_neg ?_
    rw [decide_eq_true_iff]
    rintro rfl
    exact hlast rfl

theorem digitValue?_eq_some {c : Char} {v : Nat} (h : digitValue? c = some v) :
    v < 58 ∧ digits.getD v '1' = c := by
  unfold digitValue? at h
  rw [Array.idxOf?_eq_map_finIdxOf?_val, Option.map_eq_some_iff] at h
  obtain ⟨i, hi, rfl⟩ := h
  refine ⟨i.isLt, ?_⟩
  rw [Array.getD_eq_getD_getElem?, Array.getElem?_eq_getElem i.isLt]
  exact (Array.finIdxOf?_eq_some_iff.1 hi).1

theorem map_of_mapM {cs : List Char} {vs : List Nat} (h : cs.mapM digitValue? = some vs) :
    (∀ v ∈ vs, v < 58) ∧ vs.map (fun v => digits.getD v '1') = cs := by
  induction cs generalizing vs with
  | nil =>
    cases h
    exact ⟨nofun, rfl⟩
  | cons c cs ih =>
    rw [List.mapM_cons] at h
    obtain ⟨v, hv, h⟩ := Option.bind_eq_some_iff.1 h
    obtain ⟨rest, hrest, h⟩ := Option.bind_eq_some_iff.1 h
    cases h
    obtain ⟨hlt, hc⟩ := digitValue?_eq_some hv
    obtain ⟨hall, hcs⟩ := ih hrest
    exact ⟨List.forall_mem_cons.2 ⟨hlt, hall⟩, by rw [List.map_cons, hc, hcs]⟩

theorem encode_of_decode? {s : String} {bs : Bytes} (h : decode? s = some bs) : encode bs = s := by
  obtain ⟨vs, hvs, h⟩ := Option.bind_eq_some_iff.1 h
  obtain ⟨hlt, hmap⟩ := map_of_mapM hvs
  dsimp only at h
  generalize hzeros : (vs.takeWhile (· = 0)).length = zeros at h
  cases h
  -- Leading ones are leading zero bytes, and the other digits are those of the number.
  unfold encode
  rw [ofBigEndian_replicate_append, ofBigEndian_toBigEndian, radixDigits_eq_digits (by decide),
    List.takeWhile_append_of_pos (by simp), takeWhile_toBigEndian, List.append_nil,
    List.length_replicate, ← List.map_reverse]
  have hones : List.replicate zeros '1' =
      (List.replicate zeros 0).map fun v => digits.getD v '1' := by
    rw [List.map_replicate]
    rfl
  dsimp only
  rw [hones, ← List.map_append, ← hzeros, replicate_append_digits (by decide) hlt, hmap,
    String.ofList_toList]

end Base58

theorem Address.text_of_ofText? {s : String} {a : Address} (h : ofText? s = some a) : a.text = s := by
  unfold ofText? at h
  split at h
  case isTrue => cases h
  case isFalse =>
    obtain ⟨bs, hbs, h⟩ := Option.bind_eq_some_iff.1 h
    unfold ofBytes? at h
    split at h
    case isTrue =>
      cases h
      exact Base58.encode_of_decode? hbs
    case isFalse => cases h

end PoolSwap
