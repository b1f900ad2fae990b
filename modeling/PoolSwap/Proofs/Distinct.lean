/-! Lists without their repetitions, which keep the first of equal elements. -/
namespace PoolSwap

theorem eraseDups_sublist [BEq α] [LawfulBEq α] (as : List α) : as.eraseDups.Sublist as := by
  match as with
  | [] => exact .slnil
  | a :: as =>
    rw [List.eraseDups_cons]
    exact .cons_cons a ((eraseDups_sublist _).trans List.filter_sublist)
termination_by as.length
decreasing_by exact Nat.lt_succ_of_le (List.length_filter_le _ _)

theorem nodup_eraseDups [BEq α] [LawfulBEq α] (as : List α) : as.eraseDups.Nodup := by
  match as with
  | [] => exact .nil
  | a :: as =>
    rw [List.eraseDups_cons]
    exact List.nodup_cons.2 ⟨by simp [List.mem_eraseDups], nodup_eraseDups _⟩
termination_by as.length
decreasing_by exact Nat.lt_succ_of_le (List.length_filter_le _ _)

end PoolSwap
