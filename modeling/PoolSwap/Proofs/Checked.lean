import Mathlib.Data.List.Forall2
import PoolSwap.Fault

/-! Operations that may fail, taken apart. -/
namespace PoolSwap.Checked

theorem floorDiv_eq {b : Int} (hb : b ≠ 0) (a : Int) :
    floorDiv a b = .ok (PoolSwap.floorDiv a b) := by
  simp only [floorDiv, divisor, if_neg hb]
  rfl

theorem ceilDiv_eq {b : Int} (hb : b ≠ 0) (a : Int) :
    ceilDiv a b = .ok (PoolSwap.ceilDiv a b) := by
  simp only [ceilDiv, divisor, if_neg hb]
  rfl

/-- A sequence succeeds exactly if both of its parts do. -/
theorem bind_eq_ok {x : Except ε α} {f : α → Except ε β} {b : β} :
    x >>= f = .ok b ↔ ∃ a, x = .ok a ∧ f a = .ok b := by
  cases x with
  | error fault => simp [bind, Except.bind]
  | ok a => simp [bind, Except.bind]

/-- A sequence fails exactly if one of its parts does. -/
theorem bind_eq_error {x : Except ε α} {f : α → Except ε β} {e : ε} :
    x >>= f = .error e ↔ x = .error e ∨ ∃ a, x = .ok a ∧ f a = .error e := by
  cases x with
  | error fault => simp [bind, Except.bind]
  | ok a => simp [bind, Except.bind]

theorem map_eq_ok {x : Except ε α} {f : α → β} {b : β} :
    Except.map f x = .ok b ↔ ∃ a, x = .ok a ∧ f a = b := by
  cases x with
  | error fault => simp [Except.map]
  | ok a => simp [Except.map]

theorem map_eq_error {x : Except ε α} {f : α → β} {e : ε} :
    Except.map f x = .error e ↔ x = .error e := by
  cases x with
  | error fault => simp [Except.map]
  | ok a => simp [Except.map]

theorem pure_eq_ok {a b : α} : (pure a : Except ε α) = .ok b ↔ a = b :=
  Except.ok.injEq a b ▸ Iff.rfl

/-- A sequence on a state succeeds exactly if both of its parts do, the second from the state that
the first one leaves. -/
theorem run_bind_eq_ok {x : ExceptT Fault (StateM σ) α} {f : α → ExceptT Fault (StateM σ) β} {s : σ}
    {b : β} : ((x >>= f).run.run s).1 = .ok b ↔
      ∃ a, (x.run.run s).1 = .ok a ∧ ((f a).run.run (x.run.run s).2).1 = .ok b := by
  rw [ExceptT.run_bind, StateT.run_bind]
  rcases x.run.run s with ⟨_ | a, s'⟩
  · exact ⟨nofun, nofun⟩
  · exact ⟨fun h => ⟨a, rfl, h⟩, fun ⟨_, rfl, h⟩ => h⟩

/-- A sequence on a state fails exactly if one of its parts does, the second from the state that the
first one leaves. -/
theorem run_bind_eq_error {x : ExceptT Fault (StateM σ) α} {f : α → ExceptT Fault (StateM σ) β}
    {s : σ} {e : Fault} : ((x >>= f).run.run s).1 = .error e ↔ (x.run.run s).1 = .error e ∨
      ∃ a, (x.run.run s).1 = .ok a ∧ ((f a).run.run (x.run.run s).2).1 = .error e := by
  rw [ExceptT.run_bind, StateT.run_bind]
  rcases x.run.run s with ⟨fault | a, s'⟩
  · constructor
    · rintro ⟨⟩
      exact .inl rfl
    · rintro (⟨⟨⟩⟩ | ⟨_, ⟨⟩, _⟩)
      rfl
  · constructor
    · exact fun h => .inr ⟨a, rfl, h⟩
    · rintro (⟨⟨⟩⟩ | ⟨_, ⟨⟩, h⟩)
      exact h

theorem ofRule_eq_ok {x : Except Breach α} {a : α} : ofRule x = .ok a ↔ x = .ok a := by
  cases x with
  | error rule => simp [ofRule]
  | ok b => simp [ofRule]

theorem ofRule_eq_error {x : Except Breach α} {e : Fault} :
    ofRule x = .error e ↔ ∃ rule, x = .error rule ∧ e = .breach rule := by
  cases x with
  | error rule => simp [ofRule, eq_comm]
  | ok b => simp [ofRule]

theorem mapM_cons_eq_ok {f : α → Except ε β} {a : α} {as : List α} {bs : List β} :
    (a :: as).mapM f = .ok bs ↔ ∃ b rest, f a = .ok b ∧ as.mapM f = .ok rest ∧ b :: rest = bs := by
  rw [List.mapM_cons]
  simp only [bind_eq_ok, pure_eq_ok, exists_and_left]

theorem forall₂_of_mapM {f : α → Except ε β} {as : List α} {bs : List β} (h : as.mapM f = .ok bs) :
    List.Forall₂ (fun a b => f a = .ok b) as bs := by
  induction as generalizing bs with
  | nil =>
    cases h
    exact .nil
  | cons a as ih =>
    obtain ⟨b, rest, hb, hrest, rfl⟩ := mapM_cons_eq_ok.1 h
    exact .cons hb (ih hrest)

/-- Operations on the items of a list succeed if each of them does. -/
theorem exists_mapM_eq_ok {f : α → Except ε β} {as : List α} (h : ∀ a ∈ as, ∃ b, f a = .ok b) :
    ∃ bs, as.mapM f = .ok bs := by
  induction as with
  | nil => exact ⟨[], rfl⟩
  | cons a as ih =>
    obtain ⟨b, hb⟩ := h a List.mem_cons_self
    obtain ⟨bs, hbs⟩ := ih fun a' ha' => h a' (List.mem_cons_of_mem _ ha')
    exact ⟨b :: bs, mapM_cons_eq_ok.2 ⟨b, bs, hb, hbs, rfl⟩⟩

/-- Every result of operations on the items of a list is that of one of them. -/
theorem exists_of_mem_mapM {f : α → Except ε β} {as : List α} {bs : List β} {b : β}
    (h : as.mapM f = .ok bs) (hb : b ∈ bs) : ∃ a ∈ as, f a = .ok b := by
  induction as generalizing bs with
  | nil =>
    cases h
    cases hb
  | cons a as ih =>
    obtain ⟨b', rest, hb', hrest, rfl⟩ := mapM_cons_eq_ok.1 h
    rcases List.mem_cons.1 hb with rfl | hb
    · exact ⟨a, List.mem_cons_self, hb'⟩
    · obtain ⟨a', ha', h⟩ := ih hrest hb
      exact ⟨a', List.mem_cons_of_mem _ ha', h⟩

theorem exists_of_mapM_eq_ok {f : α → Except ε β} {as : List α} {bs : List β} {a : α}
    (h : as.mapM f = .ok bs) (ha : a ∈ as) : ∃ b ∈ bs, f a = .ok b := by
  induction as generalizing bs with
  | nil => cases ha
  | cons a' as ih =>
    obtain ⟨b, rest, hb, hrest, rfl⟩ := mapM_cons_eq_ok.1 h
    rcases List.mem_cons.1 ha with rfl | ha
    · exact ⟨b, List.mem_cons_self, hb⟩
    · obtain ⟨b', hb', h⟩ := ih hrest ha
      exact ⟨b', List.mem_cons_of_mem _ hb', h⟩

/-- Operations on the items of a list fail as one of them does. -/
theorem exists_of_mapM_eq_error {f : α → Except ε β} {as : List α} {e : ε}
    (h : as.mapM f = .error e) : ∃ a ∈ as, f a = .error e := by
  induction as with
  | nil => cases h
  | cons a as ih =>
    rw [List.mapM_cons] at h
    rcases bind_eq_error.1 h with h | ⟨b, -, h⟩
    · exact ⟨a, List.mem_cons_self, h⟩
    · rcases bind_eq_error.1 h with h | ⟨bs, -, h⟩
      · obtain ⟨a', ha', h⟩ := ih h
        exact ⟨a', List.mem_cons_of_mem _ ha', h⟩
      · cases h

/-- An operation that fails only with faults of some kind. -/
def FailsWith (kind : Fault → Prop) (x : Checked α) : Prop := ∀ fault, x = .error fault → kind fault

section FailsWith

variable {kind kind' : Fault → Prop} {x : Checked α} {f : α → Checked β}

theorem failsWith_ok (a : α) : FailsWith kind (.ok a) := nofun

theorem failsWith_error {fault : Fault} (h : kind fault) :
    FailsWith kind (.error fault : Checked α) := by
  rintro _ ⟨⟩
  exact h

theorem failsWith_ofRule {x : Except Breach α} (h : ∀ rule, x = .error rule → kind (.breach rule)) :
    FailsWith kind (ofRule x) := by
  intro fault hx
  obtain ⟨rule, hrule, rfl⟩ := ofRule_eq_error.1 hx
  exact h rule hrule

theorem FailsWith.mono (hx : FailsWith kind x) (h : ∀ fault, kind fault → kind' fault) :
    FailsWith kind' x :=
  fun fault hfault => h fault (hx fault hfault)

/-- The second part of a sequence counts only where the first part ends well. -/
theorem FailsWith.bind_of_ok (hx : FailsWith kind x) (hf : ∀ a, x = .ok a → FailsWith kind (f a)) :
    FailsWith kind (x >>= f) := by
  intro fault h
  rcases bind_eq_error.1 h with h | ⟨a, ha, h⟩
  · exact hx fault h
  · exact hf a ha fault h

theorem FailsWith.bind (hx : FailsWith kind x) (hf : ∀ a, FailsWith kind (f a)) :
    FailsWith kind (x >>= f) :=
  hx.bind_of_ok fun a _ => hf a

theorem FailsWith.map (hx : FailsWith kind x) (g : α → β) : FailsWith kind (x.map g) := by
  cases x with
  | error fault => exact failsWith_error (hx fault rfl)
  | ok a => exact failsWith_ok (g a)

/-- On a state, the second part of a sequence counts only from where the first part ends well. -/
theorem failsWith_run_bind {q : ExceptT Fault (StateM σ) α} {g : α → ExceptT Fault (StateM σ) β}
    {s : σ} (hq : FailsWith kind (q.run.run s).1)
    (hg : ∀ a, (q.run.run s).1 = .ok a → FailsWith kind ((g a).run.run (q.run.run s).2).1) :
    FailsWith kind ((q >>= g).run.run s).1 := by
  intro fault h
  rcases run_bind_eq_error.1 h with h | ⟨a, ha, h⟩
  · exact hq fault h
  · exact hg a ha fault h

end FailsWith

end PoolSwap.Checked
