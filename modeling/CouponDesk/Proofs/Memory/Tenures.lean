import CouponDesk.Proofs.Memory.Growth
import CouponDesk.Proofs.Memory.Ranks

/-!
# Claims in the order of the locks

A transaction has a lock from the step in which it obtains it to the end of the transaction: that
is its tenure.  Where claims are inserted under locks only, each was staged and committed within one
tenure, and the claims on a coupon stand in the order of the tenures in which they were won.
-/

set_option autoImplicit false

namespace CouponDesk.Memory

structure Step.Obtains (step : Step) (t : TxnId) (name : String) : Prop where
  before : step.before.store.holds t name = false
  after : step.after.store.holds t name = true

/-- A transaction obtains a lock in the step number `first`, and has it at the beginning of every
step from there to the step number `last`, which does not count. -/
structure Tenure (history : List Step) (t : TxnId) (name : String) (first last : Nat) : Prop where
  obtained : ∃ step, history[first]? = some step ∧ step.Obtains t name
  held : ∀ i step, first < i → i < last → history[i]? = some step →
    step.before.store.holds t name = true

/-- A claim was staged and committed within one tenure of its coupon's lock. -/
structure Won (history : List Step) (claim : Claim) (t : TxnId) (obtained committed : Nat) :
    Prop where
  order : obtained < committed
  tenure : Tenure history t claim.coupon obtained (committed + 1)
  published : ∃ step, history[committed]? = some step ∧
    claim ∈ (step.before.store.txn t).staged ∧
    step.before.store.commit t = (.ok (), step.after.store)

namespace Store

variable {s s' : Store} {t : TxnId}

theorem commit_of_allowed (due : s.failing = 0) (allowed : s.refusal? (s.txn t) = none) :
    s.commit t = (.ok (), (s.close t).apply (s.txn t)) := by
  have unset : ¬ 0 < (s.close t).failing := by
    change ¬ 0 < s.failing
    omega
  have checked : (s.close t).refusal? (s.txn t) = none := allowed
  unfold commit
  simp only [if_neg unset, checked]

theorem claims_of_commit (done : s.commit t = (.ok (), s')) :
    s'.claims = s.claims ++ (s.txn t).staged := by
  unfold commit at done
  dsimp only at done
  split at done
  · cases (Prod.mk.inj done).1
  · split at done
    · cases (Prod.mk.inj done).1
    · rw [← (Prod.mk.inj done).2]
      rfl

theorem not_holds_of_commit (done : s.commit t = (.ok (), s')) (name : String) :
    s'.holds t name = false := by
  rw [Bool.eq_false_iff]
  intro holds
  have ticket := ticket_of_holds s' t name holds
  have line : s'.line = (s.close t).line := by
    rw [← (s.commit_ends t).1, done]
  rw [line, ticket_close] at ticket
  exact ticket.2 rfl

end Store

/-- What stands before a member of a growing list without repetitions was there before it. -/
theorem mem_of_prefix {α : Type} (first list : List α) (a b : α) (grown : first <+: list)
    (once : list.Nodup) (listed : [a, b].Sublist list) (member : b ∈ first) : a ∈ first := by
  obtain ⟨rest, rfl⟩ := grown
  obtain ⟨left, right, split, inFirst, inRest⟩ := List.sublist_append_iff.mp listed
  cases left with
  | nil =>
      rw [List.nil_append] at split
      have later : b ∈ rest := inRest.subset (by rw [← split]; simp)
      exact absurd rfl ((List.nodup_append.mp once).2.2 b member b later)
  | cons head tail =>
      obtain ⟨rfl, -⟩ := List.cons.inj split
      exact inFirst.subset List.mem_cons_self

namespace Tenure

variable {history : List Step} {t : TxnId} {name : String} {first last : Nat}

theorem append (tenure : Tenure history t name first last) (within : last ≤ history.length)
    (more : List Step) : Tenure (history ++ more) t name first last where
  obtained := by
    obtain ⟨step, at_, obtains⟩ := tenure.obtained
    have bound := (List.getElem?_eq_some_iff.mp at_).1
    exact ⟨step, by rw [List.getElem?_append_left bound, at_], obtains⟩
  held := by
    intro i step after before at_
    rw [List.getElem?_append_left (by omega)] at at_
    exact tenure.held i step after before at_

theorem lengthen (tenure : Tenure history t name first history.length) (step : Step)
    (holds : step.before.store.holds t name = true) :
    Tenure (history ++ [step]) t name first (history.length + 1) where
  obtained := (tenure.append (Nat.le_refl _) [step]).obtained
  held := by
    intro i other after before at_
    rcases getElem?_snoc history step other i at_ with old | ⟨-, rfl⟩
    · have bound := (List.getElem?_eq_some_iff.mp old).1
      exact tenure.held i other after bound old
    · exact holds

end Tenure

namespace Won

variable {history : List Step} {claim other : Claim} {t u : TxnId} {i j k l : Nat}

theorem append (won : Won history claim t i k) (more : List Step) :
    Won (history ++ more) claim t i k := by
  obtain ⟨step, at_, published⟩ := won.published
  have bound := (List.getElem?_eq_some_iff.mp at_).1
  refine ⟨won.order, won.tenure.append bound more, step, ?_, published⟩
  rw [List.getElem?_append_left bound, at_]

/-- A claim that is committed earlier was won in an earlier tenure: the commit ends the tenure. -/
theorem obtained_lt (first : Won history claim t i k) (second : Won history other u j l)
    (chained : ∀ n step next, history[n]? = some step → history[n + 1]? = some next →
      next.before = step.after)
    (same : claim.coupon = other.coupon) (order : k < l) : i < j := by
  by_contra late
  have began := first.order
  obtain ⟨step, at_, -, done⟩ := first.published
  obtain ⟨last, atLast, -, -⟩ := second.published
  have holds := first.tenure.held k step began (Nat.lt_succ_self k) at_
  have otherHolds := second.tenure.held k step (by omega) (by omega) at_
  rw [same] at holds
  obtain rfl := Store.holder_unique _ t u other.coupon holds otherHolds
  -- The next step begins after the commit, with the lock still held if the tenures overlap.
  have bound : k + 1 < history.length := by
    have := (List.getElem?_eq_some_iff.mp atLast).1
    omega
  have atNext := List.getElem?_eq_getElem bound
  have stillHolds := second.tenure.held (k + 1) _ (by omega) (by omega) atNext
  rw [chained k step _ at_ atNext, Store.not_holds_of_commit done] at stillHolds
  cases stillHolds

theorem obtained_eq (first : Won history claim t i k) (second : Won history other u j k)
    (same : claim.coupon = other.coupon) : t = u ∧ i = j := by
  have began := first.order
  have otherBegan := second.order
  obtain ⟨step, at_, -, -⟩ := first.published
  have holds := first.tenure.held k step began (Nat.lt_succ_self k) at_
  have otherHolds := second.tenure.held k step otherBegan (Nat.lt_succ_self k) at_
  rw [same] at holds
  obtain rfl := Store.holder_unique _ t u other.coupon holds otherHolds
  refine ⟨rfl, ?_⟩
  rcases Nat.lt_trichotomy i j with before | rfl | after
  · obtain ⟨last, atLast, obtains⟩ := second.tenure.obtained
    have held := first.tenure.held j last before (by omega) atLast
    rw [same, obtains.before] at held
    cases held
  · rfl
  · obtain ⟨last, atLast, obtains⟩ := first.tenure.obtained
    have held := second.tenure.held i last after (by omega) atLast
    rw [← same, obtains.before] at held
    cases held

end Won

structure Recorded (history : List Step) (s : System) : Prop where
  sound : s.Sound
  before : ∀ step ∈ history, step.before.Sound
  grown : ∀ step ∈ history, step.after.store.Grows s.store
  ordered : history.Pairwise fun step later => step.after.store.Grows later.before.store

namespace System

variable {s s' : System}

theorem Chained.next {history : List Step} (chained : Chained history s s') (n : Nat)
    (step next : Step) (at_ : history[n]? = some step) (atNext : history[n + 1]? = some next) :
    next.before = step.after := by
  induction history generalizing s n with
  | nil => cases at_
  | cons head rest ih =>
      obtain ⟨-, tail⟩ := chained
      cases n with
      | zero =>
          obtain rfl := Option.some.inj at_
          cases rest with
          | nil => cases atNext
          | cons second rest =>
              obtain rfl := Option.some.inj atNext
              exact tail.1
      | succ n => exact ih tail n at_ atNext

theorem run_recorded (actions : List Action) (runs : run actions {} = some s) :
    Recorded (trace actions {}) s := by
  refine trace_keeps Recorded (fun _ => True) ?_ actions (fun _ _ => trivial) [] ?_ runs
  · rintro history s s' action - does ⟨sound, before, grown, ordered⟩
    have grows := does.grows sound
    refine ⟨does.sound sound, ?_, ?_, ?_⟩
    · intro step member
      rcases List.mem_append.mp member with old | new
      · exact before step old
      · rw [List.mem_singleton.mp new]
        exact sound
    · intro step member
      rcases List.mem_append.mp member with old | new
      · exact (grown step old).trans grows
      · rw [List.mem_singleton.mp new]
        exact .refl _
    · rw [List.pairwise_append]
      refine ⟨ordered, List.pairwise_singleton _ _, ?_⟩
      intro step old _ new
      rw [List.mem_singleton.mp new]
      exact grown step old
  · exact ⟨sound_empty, by simp, by simp, List.Pairwise.nil⟩

end System

theorem Recorded.grows {history : List Step} {s : System} (recorded : Recorded history s)
    {k l : Nat} {step later : Step} (at_ : history[k]? = some step)
    (atLater : history[l]? = some later) (order : k < l) :
    step.after.store.Grows later.before.store := by
  obtain ⟨bound, rfl⟩ := List.getElem?_eq_some_iff.mp at_
  obtain ⟨laterBound, rfl⟩ := List.getElem?_eq_some_iff.mp atLater
  exact List.pairwise_iff_getElem.mp recorded.ordered k l bound laterBound order

theorem Won.committed_le {history : List Step} {s : System} {claim other : Claim} {t u : TxnId}
    {i j k l : Nat} (first : Won history claim t i k) (second : Won history other u j l)
    (recorded : Recorded history s) (listed : [claim, other].Sublist s.store.claims) : k ≤ l := by
  by_contra late
  obtain ⟨step, at_, staged, done⟩ := first.published
  obtain ⟨earlier, atEarlier, otherStaged, otherDone⟩ := second.published
  have grows := recorded.grows atEarlier at_ (by omega)
  have known : other ∈ step.before.store.claims := by
    refine grows.claims.subset ?_
    rw [Store.claims_of_commit otherDone]
    exact List.mem_append_right _ otherStaged
  have toEnd : step.before.store.claims <+: s.store.claims := by
    have published : step.before.store.claims <+: step.after.store.claims := by
      rw [Store.claims_of_commit done]
      exact List.prefix_append _ _
    exact published.trans (recorded.grown step (List.mem_of_getElem? at_)).claims
  have once : s.store.claims.Nodup := recorded.sound.store.ids.once.of_map
  have there := mem_of_prefix _ _ claim other toEnd once listed known
  have sound := recorded.before step (List.mem_of_getElem? at_)
  exact sound.store.ids.apart t claim staged claim there rfl

/-! ## Every claim is won -/

structure Tenured (history : List Step) (s : System) : Prop where
  sound : s.Sound
  ranked : s.store.Ranked
  holders : ∀ t name, s.store.holds t name = true →
    ∃ i, i < history.length ∧ Tenure history t name i history.length
  won : ∀ claim ∈ s.store.claims, ∃ t i k, Won history claim t i k

namespace System

variable {s s' : System}

/-- The claims after a step: those before it, or also those that one transaction commits. -/
theorem Does.claims_cases {action : Action} (does : s.Does action s') (sound : s.Sound) :
    s'.store.claims = s.store.claims ∨
      ∃ t, s.store.commit t = (.ok (), s'.store) ∧
        s'.store.claims = s.store.claims ++ (s.store.txn t).staged := by
  rcases does.store sound with ⟨t, change⟩ | ⟨name, amount, -, created⟩ | ⟨count, set⟩
  · rcases change.tables with ⟨-, claims, -⟩ | ⟨due, allowed, committed⟩
    · exact Or.inl claims
    · refine Or.inr ⟨t, ?_, by rw [committed]; rfl⟩
      rw [committed]
      exact Store.commit_of_allowed due allowed
  · left
    rw [created]
    rcases Store.create_cases s.store name amount with kept | ⟨-, -, added⟩
    · rw [kept]
    · rw [added]
  · left
    rw [set]
    rfl

end System

theorem Tenured.step {history : List Step} {s s' : System} (tenured : Tenured history s)
    (action : Action) (step : s.act action = some s') (locked : Step.Locked ⟨s, action, s'⟩) :
    Tenured (history ++ [⟨s, action, s'⟩]) s' := by
  have does := System.act_does action step
  refine ⟨does.sound tenured.sound,
    System.act_ranked tenured.sound action step locked tenured.ranked, ?_, ?_⟩
  · intro t name holds
    rw [List.length_append, List.length_singleton]
    cases before : s.store.holds t name with
    | true =>
        obtain ⟨i, bound, tenure⟩ := tenured.holders t name before
        exact ⟨i, by omega, tenure.lengthen _ before⟩
    | false =>
        refine ⟨history.length, Nat.lt_succ_self _, ⟨_, List.getElem?_concat_length, before, holds⟩, ?_⟩
        intro i other after within
        omega
  · intro claim member
    rcases does.claims_cases tenured.sound with kept | ⟨t, done, claims⟩
    · rw [kept] at member
      obtain ⟨t, i, k, won⟩ := tenured.won claim member
      exact ⟨t, i, k, won.append _⟩
    · rw [claims] at member
      rcases List.mem_append.mp member with old | staged
      · obtain ⟨t, i, k, won⟩ := tenured.won claim old
        exact ⟨t, i, k, won.append _⟩
      · have holds := tenured.ranked.locked t claim staged
        obtain ⟨i, bound, tenure⟩ := tenured.holders t claim.coupon holds
        exact ⟨t, i, history.length, bound, tenure.lengthen _ holds, _,
          List.getElem?_concat_length, staged, done⟩

theorem System.run_tenured {s : System} (actions : List Action) (runs : run actions {} = some s)
    (locked : ∀ step ∈ trace actions {}, step.Locked) : Tenured (trace actions {}) s := by
  refine trace_keeps_steps Tenured Step.Locked ?_ actions locked [] ?_ runs
  · exact fun history s s' action step locked tenured => tenured.step action step locked
  · exact ⟨sound_empty, Store.ranked_empty, by simp [Store.holds, Store.holder?], by simp⟩

/-- The claims on a coupon stand in the order of the tenures in which they were won. -/
theorem System.run_claims_in_order {s : System} (actions : List Action)
    (runs : run actions {} = some s) (name : String) :
    (s.store.claimsOn name).Pairwise fun claim other => ∀ t i k u j l,
      Won (trace actions {}) claim t i k → Won (trace actions {}) other u j l →
        i < j ∨ t = u ∧ i = j ∧ k = l := by
  have recorded := run_recorded actions runs
  rw [List.pairwise_iff_forall_sublist]
  intro claim other listed t i k u j l first second
  have chained := (trace_chained actions runs).next
  have coupons : ∀ member ∈ [claim, other], member.coupon = name := by
    intro member both
    exact of_decide_eq_true (List.mem_filter.mp (listed.subset both)).2
  have same : claim.coupon = other.coupon :=
    (coupons claim (by simp)).trans (coupons other (by simp)).symm
  have within : [claim, other].Sublist s.store.claims := listed.trans List.filter_sublist
  rcases Nat.lt_or_eq_of_le (first.committed_le second recorded within) with before | rfl
  · exact Or.inl (first.obtained_lt second chained same before)
  · obtain ⟨rfl, rfl⟩ := first.obtained_eq second same
    exact Or.inr ⟨rfl, rfl, rfl⟩

end CouponDesk.Memory
