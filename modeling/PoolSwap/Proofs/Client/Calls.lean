import PoolSwap.Proofs.Client.Pool

/-! The calls of queries and of actions. All that a client does before it sends or simulates is to
look things up, and that leaves its keypair and its configuration as they are. -/
namespace PoolSwap

namespace Node

/-- Methods that only look something up. -/
def lookups : List Method := [.accountInfo, .multipleAccounts, .epochInfo, .latestBlockhash]

/-- Those of them that ask for no single account. -/
def batched : List Method := [.multipleAccounts, .epochInfo, .latestBlockhash]

/-- Whether a log grows by calls of some kind alone. -/
def Logs (p : Call → Prop) (before after : List Call) : Prop :=
  ∃ calls, after = calls ++ before ∧ ∀ call ∈ calls, p call

/-- Whether a log grows by calls of some methods alone. -/
def Grows (ms : List Method) : List Call → List Call → Prop := Logs fun call => call.method ∈ ms

section Logs

variable {p p' : Call → Prop} {ms : List Method} {before log after : List Call}

theorem Logs.refl (p : Call → Prop) (log : List Call) : Logs p log log := ⟨[], rfl, nofun⟩

theorem Logs.trans (h : Logs p before log) (h' : Logs p log after) : Logs p before after := by
  obtain ⟨calls, rfl, hcalls⟩ := h
  obtain ⟨later, rfl, hlater⟩ := h'
  refine ⟨later ++ calls, (List.append_assoc _ _ _).symm, fun call hcall => ?_⟩
  rcases List.mem_append.1 hcall with hcall | hcall
  · exact hlater call hcall
  · exact hcalls call hcall

theorem Logs.mono (h : Logs p before after) (hp : ∀ call, p call → p' call) :
    Logs p' before after := by
  obtain ⟨calls, rfl, hcalls⟩ := h
  exact ⟨calls, rfl, fun call hcall => hp call (hcalls call hcall)⟩

theorem Logs.all {calls : List Call} (h : Logs p before after) (hafter : after = calls ++ before) :
    ∀ call ∈ calls, p call := by
  obtain ⟨calls', rfl, hcalls⟩ := h
  rwa [List.append_cancel_right hafter] at hcalls

theorem Grows.refl (ms : List Method) (log : List Call) : Grows ms log log := Logs.refl _ log

theorem Grows.trans (h : Grows ms before log) (h' : Grows ms log after) : Grows ms before after :=
  Logs.trans h h'

end Logs

/-- What calls of some kind alone leave of a node: all but its log. -/
structure Leaves (p : Call → Prop) (n n' : Node) : Prop where
  logs : Logs p n.calls n'.calls
  same : { n' with calls := n.calls } = n

section Leaves

variable {p p' : Call → Prop} {n n' n'' : Node}

theorem Leaves.refl (p : Call → Prop) (n : Node) : Leaves p n n := ⟨.refl p n.calls, rfl⟩

theorem Leaves.trans (h : Leaves p n n') (h' : Leaves p n' n'') : Leaves p n n'' where
  logs := h.logs.trans h'.logs
  same := (congrArg (fun m : Node => { m with calls := n.calls }) h'.same).trans h.same

theorem leaves_logged {call : Call} (h : p call) : Leaves p n (n.logged call) :=
  ⟨⟨[call], rfl, fun _ hcall => List.mem_singleton.1 hcall ▸ h⟩, rfl⟩

end Leaves

/-- A query that makes calls of some kind alone. -/
def Makes (p : Call → Prop) (q : Query α) : Prop := ∀ n : Node, Leaves p n (n.ask q).2

/-- A query that makes calls of some methods alone. -/
def CallsOnly (ms : List Method) : Query α → Prop := Makes fun call => call.method ∈ ms

section Makes

variable {p p' : Call → Prop} {q : Query α} {f : α → Query β}

theorem Makes.mono (h : Makes p q) (hp : ∀ call, p call → p' call) : Makes p' q :=
  fun n => ⟨(h n).logs.mono hp, (h n).same⟩

theorem makes_pure (a : α) : Makes p (pure a) := .refl p

theorem makes_throw (fault : Fault) : Makes p (throw fault : Query α) := .refl p

theorem makes_throw_bind (fault : Fault) : Makes p (throw fault >>= f) := .refl p

theorem makes_liftChecked (x : Checked α) : Makes p (liftChecked x) := by
  intro n
  rw [ask_liftChecked]
  exact .refl p n

theorem Makes.bind (hq : Makes p q) (hf : ∀ a, Makes p (f a)) : Makes p (q >>= f) := by
  intro n
  have hfirst := hq n
  rw [ask_bind]
  revert hfirst
  rcases n.ask q with ⟨_ | a, n'⟩
  · exact id
  · exact fun hfirst => hfirst.trans (hf a n')

theorem makes_ite_bind {c : Prop} [Decidable c] {q' : Query α} (hq : Makes p q)
    (hq' : Makes p q') (hf : ∀ a, Makes p (f a)) :
    Makes p (if c then q >>= f else q' >>= f) := by
  split
  · exact hq.bind hf
  · exact hq'.bind hf

theorem makes_record {call : Call} (h : p call) : Makes p (record call) := by
  intro n
  rw [ask_record]
  exact leaves_logged h

theorem makes_read {call : Call} {answer : Node → α} (h : p call) :
    Makes p (do record call; return answer (← get)) :=
  (makes_record h).bind fun _ n => .refl p n

theorem makes_send {bytes : Bytes} {skipPreflight : Bool}
    (h : p (.sendTransaction bytes skipPreflight)) : Makes p (send bytes skipPreflight) := by
  intro n
  rw [ask_send]
  exact leaves_logged h

end Makes

theorem multipleAccounts_batched (as : List Address) : CallsOnly batched (multipleAccounts as) :=
  makes_read (show .multipleAccounts ∈ batched by decide)

theorem currentEpoch_batched : CallsOnly batched currentEpoch :=
  makes_read (show .epochInfo ∈ batched by decide)

theorem latestBlockhash_batched : CallsOnly batched latestBlockhash :=
  makes_read (show .latestBlockhash ∈ batched by decide)

theorem existingAccounts_batched (as : List Address) :
    CallsOnly batched (existingAccounts as) := by
  unfold existingAccounts
  dsimp only
  split
  · exact makes_pure _
  · exact (multipleAccounts_batched _).bind fun _ => makes_pure _

theorem assemble_batched (keys : Option (Supplied PoolKeys)) (q : SwapRequest) :
    CallsOnly batched (assemble keys q) := by
  cases keys with
  | none => exact makes_throw _
  | some k =>
    refine (makes_liftChecked _).bind fun accounts => ?_
    exact (existingAccounts_batched _).bind fun _ => makes_liftChecked _

/-- A lookup that asks for no single account but one. -/
def LooksAt (address : Address) (call : Call) : Prop :=
  call.method ∈ batched ∨ call = .accountInfo address

section LooksAt

variable {address : Address} {call : Call} {q : Query α}

theorem LooksAt.lookup (h : LooksAt address call) : call.method ∈ lookups := by
  rcases h with hbatched | rfl
  · exact List.mem_cons_of_mem _ hbatched
  · exact List.mem_cons_self

theorem Makes.lookups (h : Makes (LooksAt address) q) : CallsOnly lookups q :=
  h.mono fun _ => LooksAt.lookup

theorem CallsOnly.looksAt (h : CallsOnly batched q) : Makes (LooksAt address) q :=
  h.mono fun _ => .inl

end LooksAt

theorem dataOf_looksAt (what : String) (address program : Address) :
    Makes (LooksAt address) (dataOf what address program) := by
  have hread : Makes (LooksAt address) (accountInfo address) := makes_read (.inr rfl)
  refine hread.bind fun account => ?_
  cases account with
  | none => exact makes_throw _
  | some account => exact (makes_liftChecked _).bind fun _ => makes_pure _

theorem readStandardPool_looksAt (poolId program : Address) :
    Makes (LooksAt poolId) (readStandardPool poolId program) := by
  refine (dataOf_looksAt _ _ _).bind fun raw => (makes_liftChecked _).bind fun pool => ?_
  refine (multipleAccounts_batched _).looksAt.bind fun vaults => ?_
  refine (makes_liftChecked _).bind fun base => (makes_liftChecked _).bind fun quote => ?_
  split
  · exact makes_pure _
  · exact makes_throw _

theorem readConcentratedPool_looksAt (poolId : Address) (d : Direction) (window : Int)
    (program : Address) :
    Makes (LooksAt poolId) (readConcentratedPool poolId d window program) := by
  unfold readConcentratedPool
  split
  case isTrue => exact makes_throw_bind _
  refine (dataOf_looksAt _ _ _).bind fun raw => (makes_liftChecked _).bind fun pool => ?_
  split
  case isTrue => exact makes_throw_bind _
  refine (makes_liftChecked _).bind fun addresses => ?_
  refine (multipleAccounts_batched _).looksAt.bind fun accounts => ?_
  refine (makes_liftChecked _).bind fun feeRate => ?_
  refine (makes_liftChecked _).bind fun fees0 => (makes_liftChecked _).bind fun fees1 => ?_
  refine makes_ite_bind currentEpoch_batched.looksAt (makes_pure _) fun epoch => ?_
  refine (makes_liftChecked _).bind fun arrays => (makes_liftChecked _).bind fun price => ?_
  split
  · exact makes_pure _
  · exact makes_throw _

end Node

open Node (Grows CallsOnly batched lookups)

namespace Client

/-- A client whose node stays as it is between queries. -/
def IsStill (c : Client) : Prop := c.drift = id

/-- What an action that calls some methods alone leaves of a client. -/
structure Keeps (ms : List Method) (c c' : Client) : Prop where
  keypair_eq : c'.keypair = c.keypair
  config_eq : c'.config = c.config
  drift_eq : c'.drift = c.drift
  grows : Grows ms c.node.calls c'.node.calls
  still : c.IsStill → { c'.node with calls := c.node.calls } = c.node

theorem Keeps.refl (ms : List Method) (c : Client) : Keeps ms c c :=
  ⟨rfl, rfl, rfl, .refl ms _, fun _ => rfl⟩

theorem Keeps.trans {ms : List Method} {c c' c'' : Client} (h : Keeps ms c c')
    (h' : Keeps ms c' c'') : Keeps ms c c'' where
  keypair_eq := h'.keypair_eq.trans h.keypair_eq
  config_eq := h'.config_eq.trans h.config_eq
  drift_eq := h'.drift_eq.trans h.drift_eq
  grows := h.grows.trans h'.grows
  still hstill := by
    have hsame := h'.still (h.drift_eq.trans hstill)
    exact (congrArg (fun n : Node => { n with calls := c.node.calls }) hsame).trans (h.still hstill)

/-- A node that stays still is found as it was, but for its log. -/
theorem Keeps.present_eq {ms : List Method} {c c' : Client} (h : Keeps ms c c')
    (hstill : c.IsStill) : c'.present = { c.node with calls := c'.node.calls } := by
  have hdrift : c'.drift = id := h.drift_eq.trans hstill
  unfold present
  rw [hdrift, ← h.still hstill]
  rfl

variable {c : Client} {x : Action α} {f : α → Action β}

theorem act_bind (c : Client) (x : Action α) (f : α → Action β) : c.act (x >>= f) =
    match c.act x with
    | (.ok a, c') => c'.act (f a)
    | (.error e, c') => (.error e, c') := by
  unfold act
  rw [ExceptT.run_bind, StateT.run_bind]
  rcases x.run.run c with ⟨_ | a, c'⟩ <;> rfl

theorem act_get (c : Client) : c.act get = (.ok c, c) := rfl

theorem act_set (c c' : Client) : c.act (set c') = (.ok ⟨⟩, c') := rfl

theorem act_modify (c : Client) (g : Client → Client) : c.act (modify g) = (.ok ⟨⟩, g c) := rfl

theorem act_checked (c : Client) (a : Checked α) : c.act (checked a) = (a, c) := by
  cases a <;> rfl

theorem act_askDirectory (c : Client) (q : Directory.Query α) : c.act (askDirectory q) =
    ((q.run.run c.directory).1, { c with directory := (q.run.run c.directory).2 }) := by
  change act _ (checked (q.run.run c.directory).1) = _
  cases (q.run.run c.directory).1 <;> rfl

/-- An action that makes calls of some methods alone, on any client. -/
def Retains (ms : List Method) (x : Action α) : Prop := ∀ c : Client, Keeps ms c (c.act x).2

/-- An action that only looks things up, on any client. -/
def LooksUp : Action α → Prop := Retains lookups

theorem LooksUp.keeps {c' : Client} {answer : Checked α} (hx : LooksUp x)
    (h : c.act x = (answer, c')) : Keeps lookups c c' := by
  have hkeeps := hx c
  rwa [h] at hkeeps

section Retains

variable {ms : List Method}

theorem Retains.looksUp (h : Retains ms x) (hms : ms ⊆ lookups) : LooksUp x :=
  fun c => { h c with grows := (h c).grows.mono fun _ => @hms _ }

theorem retains_pure (a : α) : Retains ms (pure a) := Keeps.refl ms

theorem retains_checked (a : Checked α) : Retains ms (checked a) := by
  cases a <;> exact Keeps.refl ms

theorem Retains.bind (hx : Retains ms x) (hf : ∀ a, Retains ms (f a)) : Retains ms (x >>= f) := by
  intro c
  have hfirst := hx c
  rw [act_bind]
  revert hfirst
  rcases c.act x with ⟨_ | a, c'⟩
  · exact id
  · exact fun hfirst => hfirst.trans (hf a c')

theorem retains_askNode {q : Node.Query α} (h : CallsOnly ms q) : Retains ms (askNode q) := by
  intro c
  rw [act_askNode]
  refine ⟨rfl, rfl, rfl, (h c.present).logs, fun hstill => (h c.present).same.trans ?_⟩
  unfold present
  rw [hstill]
  rfl

theorem retains_askDirectory (q : Directory.Query α) : Retains ms (askDirectory q) := by
  intro c
  rw [act_askDirectory]
  exact ⟨rfl, rfl, rfl, .refl _ _, fun _ => rfl⟩

/-- A change of the cache alone. -/
theorem keeps_cache (c : Client) (cache : Option (KeyCache PoolKeys)) :
    Keeps ms c { c with cache } := ⟨rfl, rfl, rfl, .refl _ _, fun _ => rfl⟩

theorem publishedKeys_retains (poolId : String) : Retains ms (publishedKeys poolId) := by
  refine (retains_askDirectory _).bind fun found => ?_
  cases found with
  | nil => exact Keeps.refl ms
  | cons keys _ => exact retains_pure keys

/-- Keys are looked up without the node. -/
theorem keysFor_retains (poolId : String) : Retains ms (keysFor poolId) := by
  intro c
  unfold keysFor
  rw [act_bind, act_get]
  dsimp only
  split
  case h_1 => exact (publishedKeys_retains poolId).bind (fun keys => retains_pure _) c
  case h_2 cache _ =>
    rw [act_bind, act_set]
    dsimp only
    refine (keeps_cache c (some (cache.get? c.now poolId).2)).trans ?_
    split
    case h_1 => exact retains_pure _ _
    case h_2 =>
      refine (publishedKeys_retains poolId).bind (fun keys => ?_) _
      refine (retains_checked _).bind fun cache c' => ?_
      rw [act_bind, act_modify]
      exact keeps_cache c' (some cache)

theorem loadedKeypair_retains : Retains ms loadedKeypair := by
  intro c
  unfold loadedKeypair
  rw [act_bind, act_get]
  dsimp only
  split <;> exact .refl _ _

theorem owner_retains : Retains ms owner :=
  loadedKeypair_retains.bind fun k => retains_pure k.address

end Retains

theorem planSwap_retains (keys : Option (Supplied PoolKeys)) (q : Quote)
    (state : Option PoolSnapshot) : Retains batched (planSwap keys q state) := by
  unfold planSwap
  refine owner_retains.bind fun owner c => ?_
  rw [act_bind, act_get]
  exact retains_askNode (Node.assemble_batched _ _) c

theorem sign_retains (plan : SwapPlan) : Retains batched (sign plan) := by
  unfold sign
  refine loadedKeypair_retains.bind fun k => ?_
  exact (retains_askNode Node.latestBlockhash_batched).bind fun _ => retains_checked _

theorem planSwap_looksUp (keys : Option (Supplied PoolKeys)) (q : Quote)
    (state : Option PoolSnapshot) : LooksUp (planSwap keys q state) :=
  (planSwap_retains keys q state).looksUp (List.subset_cons_self _ _)

theorem sign_looksUp (plan : SwapPlan) : LooksUp (sign plan) :=
  (sign_retains plan).looksUp (List.subset_cons_self _ _)

theorem readPool_looksUp (poolId : String) (mintIn : Option Address) :
    LooksUp (readPool poolId mintIn) := by
  refine (keysFor_retains poolId).bind fun ⟨keys, hit⟩ => ?_
  cases keys with
  | standard k =>
    exact (retains_askNode (Node.readStandardPool_looksAt _ _).lookups).bind fun state =>
      retains_pure _
  | concentrated k =>
    intro c
    exact (retains_askNode (Node.readConcentratedPool_looksAt _ _ _ _).lookups).bind
      (fun state => retains_pure _) c

end Client

end PoolSwap
