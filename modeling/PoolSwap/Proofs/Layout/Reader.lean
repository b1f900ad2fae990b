import PoolSwap.Layout.StandardPool

/-! What a reader of fields has read. A field of some bytes holds a number that fits in them. -/
namespace PoolSwap

namespace FieldReader

variable {field : FieldReader α} {s rest : Bytes} {a : α}

theorem run_bind_eq_some {next : α → FieldReader β} {b : β} :
    (field >>= next).run s = some (b, rest) ↔
      ∃ a mid, field.run s = some (a, mid) ∧ (next a).run mid = some (b, rest) := by
  rw [StateT.run_bind]
  exact Option.bind_eq_some_iff.trans ⟨fun ⟨⟨a, mid⟩, h⟩ => ⟨a, mid, h⟩,
    fun ⟨a, mid, h⟩ => ⟨(a, mid), h⟩⟩

theorem front?_eq_some : field.front? s = some a ↔ ∃ rest, field.run s = some (a, rest) := by
  unfold front?
  simp

theorem bytes_eq_some {n : Nat} {head : Bytes} (h : (bytes n).run s = some (head, rest)) :
    head.length = n := by
  change (if (s.take n).length = n then some (s.take n, s.drop n) else none) = _ at h
  split at h
  case isTrue hlength =>
    cases h
    exact hlength
  case isFalse => cases h

theorem unsigned_lt {width n : Nat} (h : (unsigned width).run s = some (n, rest)) :
    n < LittleEndian.capacity width := by
  unfold unsigned at h
  rw [StateT.run_map] at h
  obtain ⟨⟨head, _⟩, hbytes, heq⟩ := Option.map_eq_some_iff.1 h
  cases heq
  have hlength := bytes_eq_some hbytes
  have := LittleEndian.decode_lt head
  rwa [hlength] at this

end FieldReader

theorem Layout.read_eq_ok {layout : FieldReader α} {raw : Bytes} {what : String}
    {address : Option String} {a : α} (h : read layout raw what address = .ok a) :
    ∃ rest, layout.run raw = some (a, rest) := by
  unfold read at h
  split at h
  case h_1 a' hfront =>
    cases h
    exact FieldReader.front?_eq_some.1 hfront
  case h_2 => cases h

/-- The amount of a token account fits in 64 bits. -/
theorem TokenAccount.decodeAmount_lt {raw : Bytes} {address : Option String} {amount : Nat}
    (h : decodeAmount raw address = .ok amount) : amount < LittleEndian.capacity 8 := by
  unfold decodeAmount at h
  split at h
  case isTrue => cases h
  case isFalse =>
    obtain ⟨rest, hrun⟩ := Layout.read_eq_ok h
    obtain ⟨_, _, -, hrun⟩ := FieldReader.run_bind_eq_some.1 hrun
    obtain ⟨n, _, hamount, hrun⟩ := FieldReader.run_bind_eq_some.1 hrun
    obtain ⟨_, _, -, hrun⟩ := FieldReader.run_bind_eq_some.1 hrun
    cases hrun
    exact FieldReader.unsigned_lt hamount

end PoolSwap
