import PoolSwap.Node
import PoolSwap.Proofs.Checked

/-! What queries answer. A query looks at the accounts of a node and at the methods that cannot be
reached, and leaves both as they are. -/
namespace PoolSwap.Node

def ask (n : Node) (q : Query α) : Checked α × Node := q.run.run n

def logged (n : Node) (call : Call) : Node := { n with calls := call :: n.calls }

/-- Whether a method can be reached, or why not. -/
def reach (n : Node) (method : Method) : Checked Unit :=
  match n.failures.find? (·.1 = method) with
  | some (_, reason) => .error (.connection reason)
  | none => .ok ()

variable {n : Node} {q : Query α} {f : α → Query β}

theorem ask_bind (n : Node) (q : Query α) (f : α → Query β) : n.ask (q >>= f) =
    match n.ask q with
    | (.ok a, n') => n'.ask (f a)
    | (.error e, n') => (.error e, n') := by
  unfold ask
  rw [ExceptT.run_bind, StateT.run_bind]
  rcases q.run.run n with ⟨_ | a, n'⟩ <;> rfl

theorem ask_record (n : Node) (call : Call) :
    n.ask (record call) = (n.reach call.method, n.logged call) := by
  change (n.logged call).ask (match n.failures.find? (·.1 = call.method) with
    | some (_, reason) => throw (Fault.connection reason)
    | none => pure ()) = _
  unfold reach
  split <;> rfl

/-- A read is logged, and answered by the node if its method can be reached. -/
theorem ask_read (n : Node) (call : Call) (answer : Node → α) :
    n.ask (do record call; return answer (← get)) =
      ((n.reach call.method).map fun _ => answer (n.logged call), n.logged call) := by
  rw [ask_bind, ask_record]
  cases n.reach call.method <;> rfl

theorem ask_accountInfo (n : Node) (a : Address) : n.ask (accountInfo a) =
    ((n.reach .accountInfo).map fun _ => n.accounts a, n.logged (.accountInfo a)) :=
  n.ask_read (.accountInfo a) (·.accounts a)

theorem ask_multipleAccounts (n : Node) (as : List Address) : n.ask (multipleAccounts as) =
    ((n.reach .multipleAccounts).map fun _ => as.map n.accounts,
      n.logged (.multipleAccounts as)) :=
  n.ask_read (.multipleAccounts as) fun n => as.map n.accounts

theorem ask_currentEpoch (n : Node) : n.ask currentEpoch =
    ((n.reach .epochInfo).map fun _ => n.epoch, n.logged .epochInfo) :=
  n.ask_read .epochInfo (·.epoch)

theorem ask_latestBlockhash (n : Node) : n.ask latestBlockhash =
    ((n.reach .latestBlockhash).map fun _ => n.blockhash, n.logged .latestBlockhash) :=
  n.ask_read .latestBlockhash (·.blockhash)

theorem ask_get (n : Node) : n.ask get = (.ok n, n) := rfl

/-- A transaction that is sent is logged, whatever becomes of it. -/
theorem ask_send (n : Node) (bytes : Bytes) (skipPreflight : Bool) :
    (n.ask (send bytes skipPreflight)).2 = n.logged (.sendTransaction bytes skipPreflight) := by
  unfold send
  rw [ask_bind, ask_record]
  cases n.reach (Call.sendTransaction bytes skipPreflight).method with
  | error fault => rfl
  | ok _ =>
    dsimp only
    rw [ask_bind, ask_get]
    dsimp only
    split <;> rfl

section Reached

theorem ask_bind_of_ok {a : α} {n' : Node} (h : n.ask q = (.ok a, n')) :
    n.ask (q >>= f) = n'.ask (f a) := by
  rw [ask_bind, h]

theorem ask_accountInfo_of_reach (h : n.reach .accountInfo = .ok ()) (a : Address) :
    n.ask (accountInfo a) = (.ok (n.accounts a), n.logged (.accountInfo a)) := by
  rw [ask_accountInfo, h]
  rfl

theorem ask_multipleAccounts_of_reach (h : n.reach .multipleAccounts = .ok ())
    (as : List Address) :
    n.ask (multipleAccounts as) = (.ok (as.map n.accounts), n.logged (.multipleAccounts as)) := by
  rw [ask_multipleAccounts, h]
  rfl

theorem ask_currentEpoch_of_reach (h : n.reach .epochInfo = .ok ()) :
    n.ask currentEpoch = (.ok n.epoch, n.logged .epochInfo) := by
  rw [ask_currentEpoch, h]
  rfl

end Reached

section Answered

variable {b : β}

theorem ask_bind_eq_ok : (n.ask (q >>= f)).1 = .ok b ↔
    ∃ a, (n.ask q).1 = .ok a ∧ ((n.ask q).2.ask (f a)).1 = .ok b :=
  Checked.run_bind_eq_ok

theorem accountInfo_bind_eq_ok {a : Address} {f : Option Account → Query β} :
    (n.ask (accountInfo a >>= f)).1 = .ok b ↔ n.reach .accountInfo = .ok () ∧
      ((n.logged (.accountInfo a)).ask (f (n.accounts a))).1 = .ok b := by
  rw [ask_bind_eq_ok, ask_accountInfo]
  cases n.reach .accountInfo <;> simp [Except.map]

theorem multipleAccounts_bind_eq_ok {as : List Address} {f : List (Option Account) → Query β} :
    (n.ask (multipleAccounts as >>= f)).1 = .ok b ↔ n.reach .multipleAccounts = .ok () ∧
      ((n.logged (.multipleAccounts as)).ask (f (as.map n.accounts))).1 = .ok b := by
  rw [ask_bind_eq_ok, ask_multipleAccounts]
  cases n.reach .multipleAccounts <;> simp [Except.map]

/-- The existing ones of some accounts are those that the node holds. -/
theorem existing_of_answers (n : Node) (as : List Address) :
    ((as.zip (as.map n.accounts)).filter (·.2.isSome)).map Prod.fst =
      as.filter fun a => (n.accounts a).isSome := by
  induction as with
  | nil => rfl
  | cons a as ih => cases h : n.accounts a <;> simp [h, ih]

theorem existingAccounts_bind_eq_ok {as : List Address} {f : List Address → Query β}
    (h : as ≠ []) : (n.ask (existingAccounts as >>= f)).1 = .ok b ↔
      n.reach .multipleAccounts = .ok () ∧ ((n.logged (.multipleAccounts as.eraseDups)).ask
        (f (as.eraseDups.filter fun a => (n.accounts a).isSome))).1 = .ok b := by
  have hdistinct : as.eraseDups.isEmpty = false := by
    obtain ⟨a, as, rfl⟩ := List.exists_cons_of_ne_nil h
    rw [List.eraseDups_cons]
    rfl
  unfold existingAccounts
  simp only [hdistinct, Bool.false_eq_true, if_false]
  rw [bind_assoc, multipleAccounts_bind_eq_ok, ← existing_of_answers]
  rfl

end Answered

section Failed

open Checked (FailsWith)

variable {kind : Fault → Prop}

/-- A later query counts only on the node that the first one leaves, and only if that was
answered. -/
theorem failsWith_ask_bind (hq : FailsWith kind (n.ask q).1)
    (hf : ∀ a, (n.ask q).1 = .ok a → FailsWith kind ((n.ask q).2.ask (f a)).1) :
    FailsWith kind (n.ask (q >>= f)).1 :=
  Checked.failsWith_run_bind hq hf

end Failed

end PoolSwap.Node
