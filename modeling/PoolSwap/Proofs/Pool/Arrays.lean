import Mathlib.Data.List.Sort
import PoolSwap.Node.PoolReader
import PoolSwap.Proofs.Distinct
import PoolSwap.Proofs.Pool.Window
import PoolSwap.Proofs.SwapStep.Exact

/-! The tick arrays that a trade names. They are the existing ones from that of the current tick on,
in the order in which the trade comes to them. -/
namespace PoolSwap

theorem map_some_filterMap (f : α → Option β) (as : List α) :
    (as.filterMap f).map some = (as.filter fun a => (f a).isSome).map f := by
  induction as with
  | nil => rfl
  | cons a as ih => cases h : f a <;> simp [h, ih]

namespace ConcentratedPool

variable {s : ConcentratedPool} {d : Direction} {a b : TickArray} {t u : Tick}
  {arrays listed : List TickArray} {ticks : List Tick} {tick tick' : Int}

/-- Whether an array holds the current tick, or starts beyond it in the direction of a trade. -/
def Onward (s : ConcentratedPool) (d : Direction) (a : TickArray) : Prop :=
  s.covers a s.tickCurrent = true ∨ d.Before s.tickCurrent a.start

/-- A list of the existing arrays of a pool from that of the current tick on, each once and in the
order in which a trade comes to them. -/
structure Lists (s : ConcentratedPool) (d : Direction) (listed : List TickArray) : Prop where
  mem_iff : ∀ a, a ∈ listed ↔ a ∈ s.arrays ∧ a.address.isSome = true ∧ s.Onward d a
  ordered : listed.Pairwise fun a b => d.Before a.start b.start

def inOrder (s : ConcentratedPool) : Direction → List TickArray
  | .zeroForOne => s.arrays.reverse
  | .oneForZero => s.arrays

theorem inOrder_pairwise (s : ConcentratedPool) (d : Direction) :
    (s.inOrder d).Pairwise fun a b => d.Before a.start b.start := by
  have hascending := List.pairwise_map.1 s.starts_ascending
  cases d
  · exact List.pairwise_reverse.2 hascending
  · exact hascending

theorem mem_inOrder : a ∈ s.inOrder d ↔ a ∈ s.arrays := by
  cases d
  · exact List.mem_reverse
  · exact Iff.rfl

theorem onward_iff : s.Onward d a ↔ match d with
    | .zeroForOne => a.start ≤ s.tickCurrent
    | .oneForZero => s.tickCurrent < a.start + s.span := by
  have hspan := s.span_pos
  unfold Onward
  rw [covers_iff]
  cases d <;> simp only [Direction.Before] <;> omega

/-- An aligned array is onward exactly if it starts no earlier than the span of the current tick. -/
theorem onward_iff_leads (ha : s.span ∣ a.start) :
    s.Onward d a ↔ d.Leads (Tick.arrayStart s.tickCurrent s.tickSpacing) a.start := by
  obtain ⟨hfirst, hlow, hhigh⟩ := s.arrayStart_around s.tickCurrent
  rw [onward_iff]
  cases d <;> simp only [Direction.Leads]
  · refine ⟨fun h => ?_, fun h => h.trans hlow⟩
    by_contra hbehind
    have := add_span_le hfirst ha (not_le.1 hbehind)
    omega
  · refine ⟨fun h => ?_, fun h => by omega⟩
    by_contra hbehind
    have := add_span_le ha hfirst (not_le.1 hbehind)
    omega

theorem covers_start (s : ConcentratedPool) (a : TickArray) : s.covers a a.start = true :=
  covers_iff.2 ⟨le_rfl, lt_add_of_pos_right _ s.span_pos⟩

/-- The whole spans below a tick never end after those below a later one. -/
theorem arrayStart_leads (s : ConcentratedPool) (h : d.Leads tick tick') :
    d.Leads (Tick.arrayStart tick s.tickSpacing) (Tick.arrayStart tick' s.tickSpacing) := by
  obtain ⟨hfirst, hlow, hhigh⟩ := s.arrayStart_around tick
  obtain ⟨hfirst', hlow', hhigh'⟩ := s.arrayStart_around tick'
  cases d <;> simp only [Direction.Leads] at *
  · by_contra hbehind
    have := add_span_le hfirst hfirst' (not_le.1 hbehind)
    omega
  · by_contra hbehind
    have := add_span_le hfirst' hfirst (not_le.1 hbehind)
    omega

/-- An aligned array covers a tick exactly if it starts where the whole spans below the tick end. -/
theorem covers_iff_arrayStart (ha : s.span ∣ a.start) :
    s.covers a tick = true ↔ Tick.arrayStart tick s.tickSpacing = a.start := by
  obtain ⟨hfirst, hlow, hhigh⟩ := s.arrayStart_around tick
  rw [covers_iff]
  constructor
  · rintro ⟨hlow', hhigh'⟩
    rcases lt_trichotomy (Tick.arrayStart tick s.tickSpacing) a.start with hlt | heq | hlt
    · have := add_span_le hfirst ha hlt
      omega
    · exact heq
    · have := add_span_le ha hfirst hlt
      omega
  · intro heq
    omega

/-- Arrays among those of a list, in the order of a trade, stand there in that order. -/
theorem Lists.sublist (h : s.Lists d listed)
    (hordered : arrays.Pairwise fun a b => d.Before a.start b.start) (hsubset : arrays ⊆ listed) :
    arrays.Sublist listed := by
  have hantisymm : Std.Antisymm fun a b : TickArray => d.Before a.start b.start :=
    ⟨fun _ _ hab hba => absurd hba.leads (Direction.before_iff.1 hab)⟩
  have hnodup : arrays.Nodup := hordered.imp fun hab heq => hab.ne (congrArg (·.start) heq)
  exact List.sublist_of_subperm_of_pairwise (hnodup.subperm hsubset) hordered h.ordered

section Aligned

variable (haligned : ∀ a ∈ s.arrays, s.span ∣ a.start)
include haligned

/-- The array of a tick never comes after that of a later one. -/
theorem leads_start (ha : a ∈ s.arrays) (hb : b ∈ s.arrays) (hat : s.covers a tick = true)
    (hbu : s.covers b tick' = true) (h : d.Leads tick tick') : d.Leads a.start b.start := by
  rw [← (covers_iff_arrayStart (haligned a ha)).1 hat, ← (covers_iff_arrayStart (haligned b hb)).1 hbu]
  exact s.arrayStart_leads h

/-- No onward array comes before the one of the current tick. -/
theorem Onward.leads (h : s.Onward d b) (ha : a ∈ s.arrays) (hb : b ∈ s.arrays)
    (hcovers : s.covers a s.tickCurrent = true) : d.Leads a.start b.start := by
  rcases h with h | h
  · exact leads_start haligned ha hb hcovers h (d.leads_refl _)
  · exact leads_start haligned ha hb hcovers (s.covers_start b) h.leads

theorem Lists.head?_eq_some (h : s.Lists d listed) (ha : a ∈ listed)
    (hcovers : s.covers a s.tickCurrent = true) : listed.head? = some a := by
  cases listed with
  | nil => cases ha
  | cons b rest =>
    rcases List.mem_cons.1 ha with rfl | hrest
    · rfl
    · obtain ⟨hb, -, honward⟩ := (h.mem_iff b).1 List.mem_cons_self
      have hafter := (List.pairwise_cons.1 h.ordered).1 a hrest
      have hleads := honward.leads haligned ((h.mem_iff a).1 ha).1 hb hcovers
      exact absurd hleads (Direction.before_iff.1 hafter)

/-- The addresses a trade names are those of such a list. -/
theorem exists_lists (d : Direction) : ∃ listed, s.Lists d listed ∧
    (s.arrayAddresses d none).map some = listed.map (·.address) := by
  let onward := (s.inOrder d).filter fun a =>
    d.Leads (Tick.arrayStart s.tickCurrent s.tickSpacing) a.start
  have hordered := ((s.inOrder_pairwise d).filter fun a =>
    d.Leads (Tick.arrayStart s.tickCurrent s.tickSpacing) a.start).filter (·.address.isSome)
  refine ⟨onward.filter (·.address.isSome), ⟨fun a => ?_, hordered⟩, ?_⟩
  · simp only [onward, List.mem_filter, mem_inOrder, decide_eq_true_eq, and_assoc]
    refine and_congr_right fun ha => ?_
    rw [onward_iff_leads (haligned a ha), and_comm]
  · have haddresses : s.arrayAddresses d none = onward.filterMap (·.address) := by
      cases d <;> rfl
    rw [haddresses, map_some_filterMap]

end Aligned

/-- The array that holds a tick. -/
def holding? (s : ConcentratedPool) (t : Tick) : Option TickArray :=
  s.arrays.find? fun a => t ∈ a.ticks

/-- The arrays that hold some ticks, each once, in the order in which the ticks come to them. -/
def arraysHolding (s : ConcentratedPool) (ticks : List Tick) : List TickArray :=
  (ticks.filterMap s.holding?).eraseDups

section Inside

variable (haligned : ∀ a ∈ s.arrays, s.span ∣ a.start)
  (hinside : ∀ a ∈ s.arrays, ∀ t ∈ a.ticks, a.start ≤ t.index ∧ t.index < a.stop s.tickSpacing)
include haligned hinside

theorem holding?_eq_some : s.holding? t = some a ↔ a ∈ s.arrays ∧ t ∈ a.ticks := by
  have hunique : ∀ {b}, s.holding? t = some b → b ∈ s.arrays ∧ t ∈ b.ticks := fun h =>
    ⟨List.mem_of_find?_eq_some h, by simpa using List.find?_some h⟩
  refine ⟨hunique, fun ⟨ha, ht⟩ => ?_⟩
  cases hb : s.holding? t with
  | none =>
    have hnot := List.find?_eq_none.1 hb a ha
    simp [ht] at hnot
  | some b =>
    obtain ⟨hb, htb⟩ := hunique hb
    rw [eq_of_covers haligned hb ha (covers_iff.2 (hinside b hb t htb))
      (covers_iff.2 (hinside a ha t ht))]

theorem mem_arraysHolding :
    a ∈ s.arraysHolding ticks ↔ a ∈ s.arrays ∧ ∃ t ∈ ticks, t ∈ a.ticks := by
  unfold arraysHolding
  simp only [List.mem_eraseDups, List.mem_filterMap, holding?_eq_some haligned hinside]
  constructor
  · rintro ⟨t, ht, ha, hta⟩
    exact ⟨ha, t, ht, hta⟩
  · rintro ⟨ha, t, ht, hta⟩
    exact ⟨t, ht, ha, hta⟩

/-- Ticks in the order of a trade lie in arrays in that order. -/
theorem arraysHolding_pairwise (h : ticks.Pairwise fun t u => d.Leads t.index u.index) :
    (s.arraysHolding ticks).Pairwise fun a b => d.Before a.start b.start := by
  have hleads : (ticks.filterMap s.holding?).Pairwise fun a b =>
      a ∈ s.arrays ∧ b ∈ s.arrays ∧ d.Leads a.start b.start := by
    rw [List.pairwise_filterMap]
    refine h.imp fun {t u} htu a hta b hub => ?_
    obtain ⟨ha, hta⟩ := (holding?_eq_some haligned hinside).1 hta
    obtain ⟨hb, hub⟩ := (holding?_eq_some haligned hinside).1 hub
    exact ⟨ha, hb, leads_start haligned ha hb (covers_iff.2 (hinside a ha t hta))
      (covers_iff.2 (hinside b hb u hub)) htu⟩
  have hnodup : (s.arraysHolding ticks).Pairwise (· ≠ ·) := nodup_eraseDups _
  refine (hleads.sublist (eraseDups_sublist _)).imp₂ ?_ hnodup
  rintro a b ⟨ha, hb, hab⟩ hne
  refine Direction.before_iff.2 fun hba => hne ?_
  exact List.inj_on_of_nodup_map s.nodup_starts ha hb (hab.antisymm hba)

end Inside

end ConcentratedPool
end PoolSwap
