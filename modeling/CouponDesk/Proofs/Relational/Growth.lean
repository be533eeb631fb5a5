import CouponDesk.Proofs.Relational.Pools
import CouponDesk.Relational.Clients

/-!
# What is recorded stays, in tables too

No statement takes a coupon or a claim back or changes a total, whatever its sender intends by it.
So neither do transactions, which work on tables that go on from the committed ones, nor any use
of a pool.
-/

set_option autoImplicit false

namespace CouponDesk.Relational

/-- A later state of tables, seen from an earlier one. -/
structure Tables.Grows (t t' : Tables) : Prop where
  rows : ∀ name row, t.coupon? name = some row →
    ∃ row', t'.coupon? name = some row' ∧ row'.total = row.total ∧ row'.remaining ≤ row.remaining
  claims : t.claims <+: t'.claims

namespace Tables

variable {t t' t'' : Tables}

namespace Grows

theorem refl (t : Tables) : t.Grows t where
  rows := fun _ row found => ⟨row, found, rfl, Int.le_refl _⟩
  claims := List.prefix_rfl

theorem trans (first : t.Grows t') (second : t'.Grows t'') : t.Grows t'' where
  rows := by
    intro name row found
    obtain ⟨between, known, total, fewer⟩ := first.rows name row found
    obtain ⟨last, reached, lastTotal, evenFewer⟩ := second.rows name between known
    exact ⟨last, reached, lastTotal.trans total, Int.le_trans evenFewer fewer⟩
  claims := first.claims.trans second.claims

end Grows

theorem coupon?_append (t : Tables) (row : Coupon) (name : String) :
    coupon? { t with coupons := t.coupons ++ [row] } name =
      (t.coupon? name).or (if row.name = name then some row else none) := by
  simp only [coupon?, List.find?_append]
  congr 1
  by_cases named : row.name = name <;> simp [named]

theorem grows_append (t : Tables) (row : Coupon) :
    t.Grows { t with coupons := t.coupons ++ [row] } where
  rows := by
    intro name old found
    refine ⟨old, ?_, rfl, Int.le_refl _⟩
    rw [coupon?_append, found, Option.some_or]
  claims := List.prefix_rfl

theorem grows_takeUnit (t : Tables) (name : String) : t.Grows (t.takeUnit name).2 where
  rows := by
    intro other row found
    rw [coupon?_takeUnit, found]
    refine ⟨_, rfl, ?_, ?_⟩
    · dsimp only
      split <;> rfl
    · dsimp only
      split
      · dsimp only
        omega
      · exact Int.le_refl _
  claims := List.prefix_rfl

theorem grows_define (t : Tables) (object : SchemaObject) : t.Grows (t.define object) := by
  unfold define
  split
  · exact .refl t
  · exact ⟨(Grows.refl t).rows, List.prefix_rfl⟩

inductive Change (t : Tables) (q : Statement) : Tables → Prop
  | kept : Change t q t
  | coupon (row : Coupon) (now : Int) (after : Tables)
      (inserts : q = .addCoupon row now ∨ q = .addCouponReturning row now)
      (added : t.addCoupon row = .ok after) : Change t q after
  | unit (name : String) (takes : q = .takeUnit name) : Change t q (t.takeUnit name).2
  | claim (user coupon : String) (now : Int) (row : ClaimRow) (after : Tables)
      (added : t.addClaim user coupon now = .ok (row, after)) : Change t q after
  | defined (object : SchemaObject) : Change t q (t.define object)

theorem exec_change (t : Tables) (q : Statement) : t.Change q (t.exec q).2 := by
  cases q with
  | takeUnit name => exact .unit name rfl
  | addCoupon row now =>
      simp only [exec]
      split
      · exact .coupon row now _ (Or.inl rfl) ‹_›
      · exact .kept
  | addCouponReturning row now =>
      simp only [exec]
      split
      · exact .coupon row now _ (Or.inr rfl) ‹_›
      · exact .kept
  | addClaim user coupon now =>
      simp only [exec]
      split
      · exact .claim user coupon now _ _ ‹_›
      · exact .kept
  | addClaimReturning user coupon now =>
      simp only [exec]
      split
      · exact .claim user coupon now _ _ ‹_›
      · exact .kept
  | define object => exact .defined object
  | _ => exact .kept

theorem Change.grows {q : Statement} (change : t.Change q t') : t.Grows t' := by
  cases change with
  | kept => exact .refl t
  | coupon row now _ inserts added =>
      obtain ⟨-, -, -, -, rfl⟩ := addCoupon_ok row t' added
      exact t.grows_append row
  | unit name takes => exact t.grows_takeUnit name
  | claim user coupon now row _ added =>
      obtain ⟨-, -, -, rfl⟩ := addClaim_ok user coupon now row t' added
      exact ⟨(Grows.refl t).rows, List.prefix_append _ _⟩
  | defined object => exact t.grows_define object

theorem grows_exec (t : Tables) (q : Statement) : t.Grows (t.exec q).2 := (t.exec_change q).grows

end Tables

/-! ## Pools -/

namespace Pool

def carryOut (carry : Tables → (q : Statement) → q.Reply × Tables) (p : Pool)
    (who : Option Nat) (q : Statement) : q.Reply × Pool :=
  match p.obstacle? who q with
  | some f => (.error f, p)
  | none =>
      let (reply, tables) := carry (p.seen who) q
      (reply, if (p.seen who).writes q then p.put who tables else p)

def sendBy (carry : Tables → (q : Statement) → q.Reply × Tables) : Reception := fun who q p =>
  match who, q with
  | some t, .begin => p.openTxn t
  | some t, .commit => (.ok (), p.commitTxn t)
  | some t, .rollback => (.ok (), p.dropTxn t)
  | who, q => p.carryOut carry who q

theorem sendBy_exec : sendBy Tables.exec = send := by
  funext who q p
  cases who <;> cases q <;> rfl

inductive Sent (carry : Tables → (q : Statement) → q.Reply × Tables) (p : Pool)
    (who : Option Nat) (q : Statement) : Pool → Prop
  | kept (p' : Pool) (committed : p'.committed = p.committed) (writer : p'.writer = p.writer)
      (readOnly : p'.readOnly = p.readOnly) : Sent carry p who q p'
  | dropped (c : Nat) : Sent carry p who q (p.dropTxn c)
  | commits (c : Nat) : Sent carry p who q (p.commitTxn c)
  | wrote (writable : p.readOnly = false) (unlocked : p.lockedOut who = false) :
      Sent carry p who q (p.put who (carry (p.seen who) q).2)

variable {p p' : Pool} {who : Option Nat} {q : Statement}
  {carry : Tables → (q : Statement) → q.Reply × Tables}

theorem sent_openTxn (p : Pool) (c : Nat) : Sent carry p who q (p.openTxn c).2 := by
  unfold openTxn
  split
  · exact .kept p rfl rfl rfl
  · exact .kept _ rfl rfl rfl

theorem unhindered_of_write (free : p.obstacle? who q = none)
    (writes : (p.seen who).writes q = true) : p.readOnly = false ∧ p.lockedOut who = false := by
  have reached : (if p.readOnly then some refused
      else if p.lockedOut who then some locked else none) = none := by
    unfold obstacle? at free
    split at free
    · cases free
    · rwa [if_pos writes] at free
  split_ifs at reached with readOnly lockedOut
  exact ⟨by simpa using readOnly, by simpa using lockedOut⟩

theorem sendBy_sent (carry : Tables → (q : Statement) → q.Reply × Tables) (p : Pool)
    (who : Option Nat) (q : Statement) : Sent carry p who q (sendBy carry who q p).2 := by
  have plain : Sent carry p who q (p.carryOut carry who q).2 := by
    unfold carryOut
    cases free : p.obstacle? who q with
    | some f => exact .kept p rfl rfl rfl
    | none =>
        dsimp only
        split
        · rename_i writes
          obtain ⟨writable, unlocked⟩ := unhindered_of_write free writes
          exact .wrote writable unlocked
        · exact .kept p rfl rfl rfl
  cases who with
  | none => exact plain
  | some c =>
      cases q with
      | begin => exact p.sent_openTxn c
      | commit => exact .commits c
      | rollback => exact .dropped c
      | _ => exact plain

theorem send_sent (p : Pool) (who : Option Nat) (q : Statement) :
    Sent Tables.exec p who q (p.send who q).2 := by
  rw [← sendBy_exec]
  exact sendBy_sent Tables.exec p who q

/-- Two ways of carrying a statement out that agree on the tables in question are received alike. -/
theorem sendBy_congr {carry' : Tables → (q : Statement) → q.Reply × Tables}
    (same : carry (p.seen who) q = carry' (p.seen who) q) :
    sendBy carry who q p = sendBy carry' who q p := by
  have plain : p.carryOut carry who q = p.carryOut carry' who q := by
    unfold carryOut
    rw [same]
  cases who with
  | none => exact plain
  | some c => cases q <;> first | rfl | exact plain

/-- The tables of every transaction that has written go on from the committed ones. -/
def Rooted (p : Pool) : Prop :=
  ∀ c w, p.writer = some (c, w) → p.committed.Grows w

theorem rooted_of_unwritten (free : p.writer = none) : p.Rooted := by
  intro c w written
  rw [free] at written
  cases written

theorem Rooted.seen (rooted : p.Rooted) (who : Option Nat) : p.committed.Grows (p.seen who) := by
  unfold Pool.seen
  split
  · rename_i c w written
    split
    · exact rooted c w written
    · exact .refl _
  · exact .refl _

theorem writer_dropTxn (p : Pool) (c d : Nat) (w : Tables)
    (written : (p.dropTxn c).writer = some (d, w)) : p.writer = some (d, w) ∧ d ≠ c := by
  obtain ⟨same, apart⟩ := Option.filter_eq_some_iff.mp written
  exact ⟨same, by simpa using apart⟩

theorem Rooted.dropTxn (rooted : p.Rooted) (c : Nat) : (p.dropTxn c).Rooted :=
  fun d w written => rooted d w (p.writer_dropTxn c d w written).1

theorem Rooted.commitTxn (rooted : p.Rooted) (c : Nat) : (p.commitTxn c).Rooted := by
  intro d w written
  obtain ⟨same, apart⟩ := p.writer_dropTxn c d w written
  have outside : p.seen (some c) = p.committed := by
    simp [Pool.seen, same, Ne.symm apart]
  change (p.seen (some c)).Grows w
  rw [outside]
  exact rooted d w same

/-- Receiving a statement keeps what is committed, if carrying it out keeps what it is carried out
on. -/
theorem Sent.grows (sent : Sent carry p who q p') (rooted : p.Rooted)
    (grows : ∀ t : Tables, t.Grows (carry t q).2) : p'.Rooted ∧ p.committed.Grows p'.committed := by
  cases sent with
  | kept _ committed writer _ =>
      unfold Rooted
      rw [committed, writer]
      exact ⟨rooted, .refl _⟩
  | dropped c => exact ⟨rooted.dropTxn c, .refl _⟩
  | commits c => exact ⟨rooted.commitTxn c, rooted.seen (some c)⟩
  | wrote _ unlocked =>
      have onward := (rooted.seen who).trans (grows (p.seen who))
      cases who with
      | some c =>
          refine ⟨?_, .refl _⟩
          intro d w written
          cases written
          exact onward
      | none =>
          rw [seen_none] at onward
          refine ⟨rooted_of_unwritten ?_, by simpa [put] using onward⟩
          -- A write outside any transaction is carried out only while nobody has the write lock.
          cases written : p.writer with
          | none => exact written
          | some entry => simp [lockedOut, written] at unlocked

theorem Rooted.send (rooted : p.Rooted) (who : Option Nat) (q : Statement) :
    (p.send who q).2.Rooted ∧ p.committed.Grows (p.send who q).2.committed :=
  (p.send_sent who q).grows rooted fun t => t.grows_exec q

/-! ## Facts about all tables of a pool -/

variable {good : Tables → Prop}

structure All (good : Tables → Prop) (p : Pool) : Prop where
  committed : good p.committed
  written : ∀ c w, p.writer = some (c, w) → good w

theorem All.seen (all : p.All good) (who : Option Nat) : good (p.seen who) := by
  unfold Pool.seen
  split
  · rename_i c w written
    split
    · exact all.written c w written
    · exact all.committed
  · exact all.committed

theorem All.dropTxn (all : p.All good) (c : Nat) : (p.dropTxn c).All good :=
  ⟨all.committed, fun d w written => all.written d w (p.writer_dropTxn c d w written).1⟩

theorem Sent.all (sent : Sent carry p who q p') (all : p.All good)
    (kept : ∀ t, good t → good (carry t q).2) : p'.All good := by
  cases sent with
  | kept _ committed writer _ => exact ⟨by rw [committed]; exact all.committed, by
      rw [writer]; exact all.written⟩
  | dropped c => exact all.dropTxn c
  | commits c => exact ⟨all.seen (some c), (all.dropTxn c).written⟩
  | wrote _ unlocked =>
      have after := kept _ (all.seen who)
      cases who with
      | some c =>
          refine ⟨all.committed, ?_⟩
          intro d w written
          cases written
          exact after
      | none => exact ⟨after, all.written⟩

end Pool

end CouponDesk.Relational
