import CouponDesk.Proofs.Memory.Projection

/-!
# Stores that show the same of a coupon

Two stores side by side: one serves attempts on many coupons, the other only those on one of them.
Of that coupon they show the same, and what an attempt on it does in one store it does in the other;
attempts on other coupons change nothing there.
-/

set_option autoImplicit false

namespace CouponDesk.Memory

/-! ## Requests without waiting and failing -/

namespace Store

/-- The store and the stage after a request of an attempt that need not wait, where no commit is
set to fail. -/
def reply (s : Store) (t : TxnId) (user coupon : String) : Stage → Store × Stage
  | .opening => (s.begin t, .locking)
  | .locking =>
      match s.coupon? coupon with
      | none => (s, .undoing (.couponNotFound coupon))
      | some row =>
          (s.join t coupon,
            if (s.join t coupon).holds t coupon then Stage.checkStock coupon row else .locking)
  | .inserting =>
      if s.keys.any (· = (user, coupon)) then (s, .undoing (.alreadyClaimed user coupon))
      else (s.draw t user coupon, .taking ⟨s.lastId + 1, user, coupon⟩)
  | .taking claim => (s.take t coupon, .committing claim)
  | .committing claim =>
      if s.keys.any (· = (user, coupon)) then
        (s.close t, .settled (.error (.alreadyClaimed user coupon)))
      else ((s.close t).apply { taken := [coupon], staged := [claim] }, .settled (.ok claim))
  | .undoing e => (s.close t, .settled (.error e))
  | .settled result => (s, .settled result)

theorem ask_eq_reply {s : Store} {t : TxnId} {user coupon : String} (sound : s.Sound)
    (due : s.failing = 0) (stage : Stage) (supports : s.Supports t user coupon stage)
    (free : s.waits t coupon = false) :
    s.ask t user coupon stage = some (s.reply t user coupon stage) := by
  obtain ⟨⟨store, next⟩, asked⟩ := Option.isSome_iff_exists.mp (ask_isSome stage free)
  rw [asked, Option.some.injEq]
  cases ask_move sound stage supports store next asked with
  | opens => rfl
  | missing missing => simp [reply, missing]
  | queues row found taken => simp [reply, found, taken]
  | soldOut row found empty holds => simp [reply, found, holds, Stage.checkStock, empty]
  | secures row found stock holds =>
      have some_ : ¬ row.remaining ≤ 0 := by omega
      simp [reply, found, holds, Stage.checkStock, some_]
  | repeated claimed => simp [reply, claimed]
  | draws unclaimed => simp [reply, unclaimed]
  | takes claim => rfl
  | loses claim injected => omega
  | clashes claim due claimed => simp [reply, claimed]
  | commits claim due unclaimed =>
      obtain ⟨-, writes, -⟩ := supports
      simp [reply, unclaimed, writes]
  | undoes e => rfl

/-! ## Two stores that show the same of a coupon -/

/-- The second store shows of a coupon what the first one does; its calls have other numbers, and
its line has tickets for this coupon only. -/
structure Beside (number : Nat → Nat) (name : String) (s s' : Store) : Prop where
  row : s'.coupon? name = s.coupon? name
  claims : (s'.claimsOn name).map Claim.anonymous = (s.claimsOn name).map Claim.anonymous
  line : s'.line = (s.line.filter (·.coupon = name)).map (·.renumber number)
  due : s.failing = 0
  due' : s'.failing = 0

/-- No other transaction that stands in the line for a coupon gets the same name by the new
numbers. -/
def Apart (s : Store) (number : Nat → Nat) (name : String) (t : TxnId) : Prop :=
  ∀ u, ⟨name, u⟩ ∈ s.line → u.renumber number = t.renumber number → u = t

namespace Beside

variable {number : Nat → Nat} {name : String} {s s' : Store} {t : TxnId}

theorem users (beside : s.Beside number name s') :
    (s'.claimsOn name).map (·.user) = (s.claimsOn name).map (·.user) := by
  have same := congrArg (List.map (·.user)) beside.claims
  rw [List.map_map, List.map_map] at same
  exact same

theorem keys (beside : s.Beside number name s') (sound : s.Sound) (sound' : s'.Sound)
    (user : String) : s'.keys.any (· = (user, name)) = s.keys.any (· = (user, name)) := by
  have members : (user, name) ∈ s'.keys ↔ (user, name) ∈ s.keys := by
    rw [sound.mem_keys, sound'.mem_keys, beside.users]
  rw [Bool.eq_iff_iff]
  simpa using members

theorem mem_line (beside : s.Beside number name s') (apart : s.Apart number name t) :
    ⟨name, t.renumber number⟩ ∈ s'.line ↔ ⟨name, t⟩ ∈ s.line := by
  rw [beside.line, List.mem_map]
  constructor
  · rintro ⟨⟨given, u⟩, member, same⟩
    obtain ⟨rfl, renamed⟩ : given = name ∧ u.renumber number = t.renumber number :=
      Ticket.mk.inj same
    obtain ⟨member, -⟩ := List.mem_filter.mp member
    rw [← apart u member renamed]
    exact member
  · intro member
    exact ⟨⟨name, t⟩, List.mem_filter.mpr ⟨member, by simp⟩, rfl⟩

theorem holder? (beside : s.Beside number name s') :
    s'.holder? name = (s.holder? name).map (·.renumber number) := by
  have found : s'.line.find? (·.coupon = name) =
      (s.line.find? (·.coupon = name)).map (·.renumber number) := by
    rw [beside.line, List.find?_map, List.find?_filter]
    congr 2
    funext ticket
    simp [Ticket.renumber]
  unfold Store.holder?
  rw [found, Option.map_map, Option.map_map]
  rfl

theorem holds (beside : s.Beside number name s') (apart : s.Apart number name t) :
    s'.holds (t.renumber number) name = s.holds t name := by
  rw [Bool.eq_iff_iff]
  constructor
  · intro held
    have holder := of_decide_eq_true held
    rw [beside.holder?, Option.map_eq_some_iff] at holder
    obtain ⟨u, first, renamed⟩ := holder
    have holds : s.holds u name = true := decide_eq_true first
    rw [← apart u (ticket_of_holds s u name holds) renamed]
    exact holds
  · intro held
    refine decide_eq_true ?_
    rw [beside.holder?, of_decide_eq_true held]
    rfl

theorem waits (beside : s.Beside number name s') (apart : s.Apart number name t) :
    s'.waits (t.renumber number) name = s.waits t name := by
  unfold Store.waits
  rw [beside.holds apart]
  exact decide_eq_decide.mpr (and_congr_left fun _ => beside.mem_line apart)

theorem join (beside : s.Beside number name s') (apart : s.Apart number name t) :
    (s.join t name).Beside number name (s'.join (t.renumber number) name) := by
  unfold Store.join
  by_cases member : ⟨name, t⟩ ∈ s.line
  · rw [if_pos member, if_pos ((beside.mem_line apart).mpr member)]
    exact beside
  · rw [if_neg member, if_neg (mt (beside.mem_line apart).mp member)]
    refine ⟨beside.row, beside.claims, ?_, beside.due, beside.due'⟩
    change s'.line ++ _ = ((s.line ++ _).filter _).map _
    rw [beside.line, List.filter_append, List.map_append]
    simp [Ticket.renumber]

theorem apart_join (s : Store) (number : Nat → Nat) (name : String) (t : TxnId)
    (apart : s.Apart number name t) : (s.join t name).Apart number name t := by
  intro u member renamed
  unfold Store.join at member
  split at member
  · exact apart u member renamed
  · rcases List.mem_append.mp member with old | new
    · exact apart u old renamed
    · exact (Ticket.mk.inj (List.mem_singleton.mp new)).2

theorem close (beside : s.Beside number name s') (apart : s.Apart number name t) :
    (s.close t).Beside number name (s'.close (t.renumber number)) := by
  refine ⟨beside.row, beside.claims, ?_, beside.due, beside.due'⟩
  change s'.line.filter _ = ((s.line.filter _).filter _).map _
  rw [beside.line, List.filter_map, List.filter_filter, List.filter_filter]
  refine congrArg (List.map _) (List.filter_congr ?_)
  rintro ⟨given, u⟩ member
  by_cases other : given = name
  · subst other
    -- In the line for the coupon, no other transaction has become one with this by renumbering.
    have renamed : u.renumber number = t.renumber number ↔ u = t :=
      ⟨apart u member, fun same => by rw [same]⟩
    simp [Ticket.renumber, renamed]
  · simp [other]

theorem apply (beside : s.Beside number name s') (claim claim' : Claim)
    (on : claim.coupon = name) (same : claim'.anonymous = claim.anonymous) :
    (s.apply { taken := [name], staged := [claim] }).Beside number name
      (s'.apply { taken := [name], staged := [claim'] }) := by
  have on' : claim'.coupon = name := (congrArg Claim.coupon same).trans on
  have claimsOn : ∀ (store : Store) (staged : Claim), staged.coupon = name →
      (store.apply { taken := [name], staged := [staged] }).claimsOn name =
        store.claimsOn name ++ [staged] := by
    intro store staged named
    simp [Store.claimsOn, Store.apply, named]
  refine ⟨?_, ?_, beside.line, beside.due, beside.due'⟩
  · rw [coupon?_apply, coupon?_apply, beside.row]
  · rw [claimsOn s claim on, claimsOn s' claim' on', List.map_append, List.map_append,
      beside.claims, List.map_singleton, List.map_singleton, same]

/-- Requests of two attempts that stand side by side lead to stores and stages side by side. -/
theorem reply (beside : s.Beside number name s') (apart : s.Apart number name t)
    (sound : s.Sound) (sound' : s'.Sound) (user : String) (stage stage' : Stage)
    (supports : s.Supports t user name stage)
    (same : stage'.anonymous = stage.anonymous) :
    (s.reply t user name stage).1.Beside number name
        (s'.reply (t.renumber number) user name stage').1 ∧
      (s'.reply (t.renumber number) user name stage').2.anonymous =
        (s.reply t user name stage).2.anonymous := by
  cases stage with
  | opening =>
      cases stage' <;> cases same
      exact ⟨⟨beside.row, beside.claims, beside.line, beside.due, beside.due'⟩, rfl⟩
  | locking =>
      cases stage' <;> cases same
      simp only [Store.reply]
      rw [beside.row]
      cases s.coupon? name with
      | none => exact ⟨beside, rfl⟩
      | some row =>
          dsimp only
          rw [(beside.join apart).holds (apart_join s number name t apart)]
          exact ⟨beside.join apart, rfl⟩
  | inserting =>
      cases stage' <;> cases same
      simp only [Store.reply]
      rw [beside.keys sound sound' user]
      split
      · exact ⟨beside, rfl⟩
      · exact ⟨⟨beside.row, beside.claims, beside.line, beside.due, beside.due'⟩, rfl⟩
  | taking claim =>
      cases stage' with
      | taking claim' =>
          exact ⟨⟨beside.row, beside.claims, beside.line, beside.due, beside.due'⟩,
            congrArg Stage.committing (Stage.taking.inj same)⟩
      | _ => cases same
  | committing claim =>
      cases stage' with
      | committing claim' =>
          have claims := Stage.committing.inj same
          obtain ⟨-, -, -, on, -⟩ := supports
          simp only [Store.reply]
          rw [beside.keys sound sound' user]
          split
          · exact ⟨beside.close apart, rfl⟩
          · refine ⟨(beside.close apart).apply claim claim' on claims, ?_⟩
            exact congrArg (fun claim => Stage.settled (.ok claim)) claims
      | _ => cases same
  | undoing e =>
      cases stage' <;> cases same
      exact ⟨beside.close apart, rfl⟩
  | settled result => exact supports.elim

theorem create (beside : s.Beside number name s') (amount : Int) :
    (s.create name amount).2.Beside number name (s'.create name amount).2 := by
  obtain ⟨claims, line, failing⟩ := s.create_frame name amount
  obtain ⟨claims', line', failing'⟩ := s'.create_frame name amount
  refine ⟨?_, ?_, ?_, failing.trans beside.due, failing'.trans beside.due'⟩
  · rw [coupon?_create_eq, coupon?_create_eq, beside.row]
  · unfold Store.claimsOn
    rw [claims, claims']
    exact beside.claims
  · rw [line, line']
    exact beside.line

/-! ### What other coupons do -/

/-- The store changes in nothing that the coupon shows. -/
theorem aside {store : Store} (beside : s.Beside number name s')
    (row : store.coupon? name = s.coupon? name) (claims : store.claimsOn name = s.claimsOn name)
    (line : store.line.filter (·.coupon = name) = s.line.filter (·.coupon = name))
    (due : store.failing = 0) : store.Beside number name s' where
  row := beside.row.trans row.symm
  claims := by rw [claims, beside.claims]
  line := by rw [line, beside.line]
  due := due
  due' := beside.due'

theorem create_aside (beside : s.Beside number name s') (given : String) (amount : Int)
    (other : given ≠ name) : (s.create given amount).2.Beside number name s' := by
  obtain ⟨claims, line, failing⟩ := s.create_frame given amount
  refine beside.aside ?_ ?_ (by rw [line]) (failing.trans beside.due)
  · rw [coupon?_create_eq, if_neg (fun both => other both.1), Option.or_none]
  · unfold Store.claimsOn
    rw [claims]

end Beside

/-- A transaction that stands in the line for another coupon leaves the line for this one. -/
theorem filter_line_close (s : Store) (t : TxnId) (coupon name : String)
    (own : ∀ given, ⟨given, t⟩ ∈ s.line → given = coupon) (other : coupon ≠ name) :
    (s.close t).line.filter (·.coupon = name) = s.line.filter (·.coupon = name) := by
  change (s.line.filter _).filter _ = _
  rw [List.filter_filter]
  refine List.filter_congr ?_
  rintro ⟨given, u⟩ member
  by_cases same : u = t
  · subst same
    have apart : given ≠ name := by
      rw [own given member]
      exact other
    simp [apart]
  · simp [same]

end Store

open Store

theorem Move.filter_line {s store : Store} {t : TxnId} {user coupon : String}
    {stage next : Stage} (move : Move user coupon t s stage store next)
    (own : ∀ given, ⟨given, t⟩ ∈ s.line → given = coupon) (name : String)
    (other : coupon ≠ name) :
    store.line.filter (·.coupon = name) = s.line.filter (·.coupon = name) := by
  have joined : (s.join t coupon).line.filter (·.coupon = name) =
      s.line.filter (·.coupon = name) := by
    unfold Store.join
    split
    · rfl
    · rw [List.filter_append]
      simp [other]
  have closed := s.filter_line_close t coupon name own other
  cases move with
  | queues row found taken => exact joined
  | soldOut row found empty holds => exact joined
  | secures row found stock holds => exact joined
  | loses claim injected => exact closed
  | clashes claim due claimed => exact closed
  | commits claim due unclaimed => exact closed
  | undoes e => exact closed
  | _ => rfl

/-- A move of an attempt on another coupon changes nothing that the coupon shows. -/
theorem Store.Beside.move {number : Nat → Nat} {name user coupon : String} {s s' store : Store}
    {t : TxnId} {stage next : Stage} (beside : s.Beside number name s')
    (move : Move user coupon t s stage store next) (supports : s.Supports t user coupon stage)
    (own : ∀ given, ⟨given, t⟩ ∈ s.line → given = coupon) (other : coupon ≠ name) :
    store.Beside number name s' := by
  have line := move.filter_line own name other
  have due := move.due beside.due
  rcases move.grants supports with ⟨same, -⟩ | ⟨claim, -, -, -, on, grants⟩
  · exact beside.aside (same.coupon? name) (same.claimsOn name) line due
  · have apart : claim.coupon ≠ name := by
      rw [on]
      exact other
    exact beside.aside (grants.coupon?_of_ne name apart) (grants.claimsOn_of_ne name apart) line due

end CouponDesk.Memory
