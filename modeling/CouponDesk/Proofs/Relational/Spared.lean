import CouponDesk.Proofs.Relational.Checks
import CouponDesk.Relational.Faults
import Mathlib.Order.Defs.Unbundled

/-!
# What a claim leaves alone

A claim inserts no coupon and takes nothing back, however many attempts it makes, whichever of its
statements fail and wherever its attempts are cut off.  That is a fact about its statements, one by
one; any computation made of statements keeps what each of them keeps.
-/

set_option autoImplicit false

namespace CouponDesk.Relational

/-! ## Computations made of statements -/

/-- A computation that leads from every state to a related one. -/
def Respects {σ α : Type} (related : σ → σ → Prop) (x : StateM σ α) : Prop := ∀ s, related s (x s).2

section Respects

variable {σ α β : Type} {related : σ → σ → Prop} [IsPreorder σ related]

theorem respects_pure (value : α) : Respects related (pure value : StateM σ α) :=
  fun s => refl_of related s

theorem Respects.bind {first : StateM σ α} {next : α → StateM σ β}
    (respects : Respects related first) (further : ∀ value, Respects related (next value)) :
    Respects related (first >>= next) :=
  fun s => trans_of related (respects s) (further _ _)

theorem respects_program {kind : Statement → Prop} {send : (q : Statement) → StateM σ q.Reply}
    (each : ∀ q, kind q → Respects related (send q)) (p : Program α) (only : p.Only kind) :
    Respects related (p.run send) := by
  induction p with
  | done value => exact respects_pure value
  | ask q resume ih => exact (each q only.1).bind fun reply => ih reply (only.2 reply)

theorem respects_stages {perform : (r : Request) → StateM σ r.Reply}
    (each : ∀ r, Respects related (perform r)) (user coupon : String) (stage : Stage) :
    Respects related (stage.run perform user coupon) := by
  cases turned : stage.turn user coupon with
  | answer result =>
      cases stage <;> simp only [Stage.turn, reduceCtorEq] at turned
      rw [Stage.run_settled]
      exact respects_pure _
  | ask request resume =>
      rw [Stage.run_of_ask _ _ _ stage request resume turned]
      refine (each request).bind fun reply => ?_
      have lower := Stage.rank_resume_lt turned reply
      exact respects_stages each user coupon (resume reply)
termination_by stage.rank

theorem respects_attempt {send : (q : Statement) → StateM σ q.Reply}
    (each : ∀ q : Statement, q.AddsNoCoupon → Respects related (send q)) (now : Int)
    (user coupon : String) :
    Respects related (attempt (Records.perform .sqlite send now) user coupon) := by
  refine respects_stages (fun r => ?_) user coupon .opening
  rw [← Records.run_perform]
  exact respects_program each _ (Records.only_perform .sqlite now r)

theorem respects_repeats {once : StateM σ (Except Error Claim)} (each : Respects related once)
    (limit attempt : Nat) :
    Respects related (Retry.runFrom (fun _ => pure ()) once limit attempt) := by
  rw [Retry.runFrom_eq]
  refine each.bind fun result => ?_
  split
  · rename_i again
    have lower := Retry.lt_of_pause?_eq_some again
    exact (respects_pure ()).bind fun _ => respects_repeats each limit (attempt + 1)
  · exact respects_pure result
termination_by limit - attempt

end Respects

/-! ## Tables and pools without new coupons -/

/-- A later state of tables between which no coupon was inserted. -/
structure Tables.Stays (t t' : Tables) : Prop where
  grows : t.Grows t'
  unknown : ∀ name, t.coupon? name = none → t'.coupon? name = none

theorem Tables.Change.unknown {t t' : Tables} {q : Statement} (change : t.Change q t')
    (spares : q.AddsNoCoupon) (name : String) (unknown : t.coupon? name = none) :
    t'.coupon? name = none := by
  cases change with
  | kept => exact unknown
  | coupon row now _ inserts added =>
      rcases inserts with rfl | rfl
      · cases spares
      · cases spares
  | unit other takes =>
      rw [coupon?_takeUnit, unknown]
      rfl
  | claim user coupon now row _ added =>
      obtain ⟨-, -, -, rfl⟩ := addClaim_ok user coupon now row t' added
      exact unknown
  | defined object =>
      unfold define
      split <;> exact unknown

namespace Pool

/-- A later state of a pool between which no coupon was inserted, neither into the committed tables
nor into those of a transaction. -/
structure Spares (p p' : Pool) : Prop where
  grows : p.Rooted → p'.Rooted ∧ p.committed.Grows p'.committed
  unknown : ∀ name, p.All (·.coupon? name = none) → p'.All (·.coupon? name = none)

instance : IsPreorder Pool Spares where
  refl p := ⟨fun rooted => ⟨rooted, .refl _⟩, fun _ unknown => unknown⟩
  trans _ _ _ first second := by
    refine ⟨fun rooted => ?_, fun name unknown => second.unknown name (first.unknown name unknown)⟩
    obtain ⟨between, grows⟩ := first.grows rooted
    obtain ⟨last, further⟩ := second.grows between
    exact ⟨last, grows.trans further⟩

theorem spares_dropTxn (p : Pool) (c : Nat) : p.Spares (p.dropTxn c) :=
  ⟨fun rooted => ⟨rooted.dropTxn c, .refl _⟩, fun _ unknown => unknown.dropTxn c⟩

theorem spares_send (p : Pool) (who : Option Nat) (q : Statement) (spares : q.AddsNoCoupon) :
    p.Spares (p.send who q).2 := by
  refine ⟨fun rooted => rooted.send who q, fun name unknown => ?_⟩
  exact (p.send_sent who q).all unknown fun t absent => (t.exec_change q).unknown spares name absent

section Respects

variable {related : Pool → Pool → Prop} [IsPreorder Pool related]

theorem respects_claimOnce
    (each : ∀ who q, Statement.AddsNoCoupon q → Respects related (send who q)) (now : Int)
    (user coupon : String) (deadline : Duration) :
    Respects related (claimOnce now user coupon deadline) := by
  intro p
  unfold claimOnce
  have led := respects_attempt (each (some p.freshTxn)) now user coupon p
  split_ifs
  all_goals first | exact refl_of related p | exact led

theorem respects_claim
    (each : ∀ who q, Statement.AddsNoCoupon q → Respects related (send who q)) (now : Int)
    (user coupon : String) (deadline : Duration) (maxAttempts : Nat) :
    Respects related (claim now user coupon deadline maxAttempts) :=
  respects_repeats (respects_claimOnce each now user coupon deadline) _ _

end Respects

/-- Where nobody has written yet, the committed tables stay. -/
theorem Spares.stays {p p' : Pool} (spares : p.Spares p') (free : p.writer = none) :
    p.committed.Stays p'.committed where
  grows := (spares.grows (rooted_of_unwritten free)).2
  unknown := by
    intro name absent
    refine (spares.unknown name ⟨absent, ?_⟩).committed
    intro c w written
    rw [free] at written
    cases written

end Pool

/-! ## Pools with faults -/

theorem Program.only_cut {α : Type} {kind : Statement → Prop} (n : Nat) (p : Program α)
    (only : p.Only kind) : (p.cut n).Only kind := by
  induction p generalizing n with
  | done value => cases n <;> trivial
  | ask q resume ih =>
      cases n with
      | zero => trivial
      | succ n => exact ⟨only.1, fun reply => ih reply n (only.2 reply)⟩

namespace FaultyPool

/-- A later state of a pool with faults between which no coupon was inserted. -/
def Spares (s s' : FaultyPool) : Prop := s.pool.Spares s'.pool

instance : IsPreorder FaultyPool Spares where
  refl s := refl_of Pool.Spares s.pool
  trans _ _ _ first second := trans_of Pool.Spares first second

theorem spares_afterFault (p : Pool) (who : Option Nat) (q : Statement) :
    p.Spares (afterFault p who q) := by
  unfold afterFault
  split
  · exact p.spares_dropTxn _
  · exact p.spares_dropTxn _
  · exact refl_of Pool.Spares p

theorem spares_send (s : FaultyPool) (who : Option Nat) (q : Statement) (spares : q.AddsNoCoupon) :
    s.Spares (s.send who q).2 := by
  unfold Spares FaultyPool.send
  split
  · exact spares_afterFault s.pool who q
  · exact s.pool.spares_send who q spares

theorem respects_claimOnce (now : Int) (user coupon : String) (deadline : Duration) :
    Respects Spares (claimOnce now user coupon deadline) := by
  intro s
  have each : ∀ q : Statement, q.AddsNoCoupon → Respects Spares (send (some s.pool.freshTxn) q) :=
    fun q spares s' => s'.spares_send _ q spares
  unfold claimOnce
  split
  · rename_i n rest _
    have only := only_run _ _ (Records.only_perform .sqlite now) user coupon .opening
    have led := respects_program each _ (Program.only_cut n _ only) { s with cuts := rest }
    dsimp only [attempt]
    split
    · rename_i result after ran
      rw [ran] at led
      exact led
    · rename_i after ran
      rw [ran] at led
      exact trans_of Pool.Spares led (after.pool.spares_dropTxn _)
  · exact respects_attempt each now user coupon { s with cuts := s.cuts.tail }

theorem respects_claim (now : Int) (user coupon : String) (deadline : Duration)
    (maxAttempts : Nat) : Respects Spares (claim now user coupon deadline maxAttempts) :=
  respects_repeats (respects_claimOnce now user coupon deadline) _ _

end FaultyPool

end CouponDesk.Relational
