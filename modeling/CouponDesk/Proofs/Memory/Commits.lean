import CouponDesk.Proofs.Memory.Operations
import CouponDesk.Proofs.Memory.Tenures

/-!
# All or nothing

A commit applies all that its transaction has staged, or nothing of it.  Apart from injected
failures, what can stand in its way is a claim that another transaction has committed under the same
key after this one staged it; under the locks of the coupons there is no such claim.  There is
always stock enough.
-/

set_option autoImplicit false

namespace CouponDesk.Memory

/-- In a step another transaction commits the key of a claim that `t` has staged; till then the key
was free. -/
structure Step.Overtakes (step : Step) (t : TxnId) (claim : Claim) (u : TxnId) : Prop where
  other : u ≠ t
  staged : claim ∈ (step.before.store.txn t).staged
  free : claim.key ∉ step.before.store.keys
  rival : claim.key ∈ (step.before.store.txn u).staged.map Claim.key
  granted : step.before.store.commit u = (.ok (), step.after.store)

def Overtaken (history : List Step) (t : TxnId) (claim : Claim) : Prop :=
  ∃ step ∈ history, ∃ u, step.Overtakes t claim u

namespace Store

/-- The tables after all that a transaction had staged was applied to them. -/
structure Applies (s : Store) (writes : Txn) (store : Store) : Prop where
  coupons : store.coupons = s.coupons.map fun row =>
    { row with remaining := row.remaining - writes.taken.count row.name }
  claims : store.claims = s.claims ++ writes.staged
  keys : ∀ key, key ∈ store.keys ↔ key ∈ s.keys ∨ key ∈ writes.staged.map Claim.key
  fresh : ∀ key ∈ writes.staged.map Claim.key, key ∉ s.keys
  lastId : store.lastId = s.lastId

variable {s s' : Store} {t u : TxnId} {claim : Claim}

theorem applies_commit (allowed : s.refusal? (s.txn t) = none) :
    s.Applies (s.txn t) ((s.close t).apply (s.txn t)) where
  coupons := rfl
  claims := rfl
  keys := fun key => List.mem_append
  fresh := by
    intro key staged
    obtain ⟨claim, member, rfl⟩ := List.mem_map.mp staged
    exact unclaimed_of_allowed (s.txn t) allowed claim member
  lastId := rfl

/-- A staged claim whose key is committed after a change was so before, or the change is the commit
of another transaction that has staged the same key. -/
theorem Change.key_cases (change : s.Change u s') (staged : claim ∈ (s'.txn t).staged)
    (committed : claim.key ∈ s'.keys) :
    claim ∈ (s.txn t).staged ∧
      (claim.key ∈ s.keys ∨
        u ≠ t ∧ claim.key ∈ (s.txn u).staged.map Claim.key ∧ s.commit u = (.ok (), s')) := by
  have before : claim ∈ (s.txn t).staged := by
    rcases change.staged_cases t with same | none_ | ⟨user, name, row, -, -, free, -, drawn, new⟩
    · rwa [same] at staged
    · rw [none_] at staged
      cases staged
    · rw [new] at staged
      rcases List.mem_append.mp staged with old | last
      · exact old
      · -- A claim is drawn under a key that is free.
        rw [List.mem_singleton.mp last, drawn] at committed
        exact absurd committed free
  refine ⟨before, ?_⟩
  rcases change.tables with ⟨-, -, keys⟩ | ⟨due, allowed, applied⟩
  · rw [keys] at committed
    exact Or.inl committed
  · have other : u ≠ t := by
      rintro rfl
      have gone : (s'.txn u).staged = [] := by
        rw [applied]
        exact congrArg Txn.staged (txn_close_self s u)
      rw [gone] at staged
      cases staged
    rw [applied] at committed
    rcases List.mem_append.mp committed with old | new
    · exact Or.inl old
    · refine Or.inr ⟨other, new, ?_⟩
      rw [applied]
      exact commit_of_allowed due allowed

theorem Sound.applies_of_commit (sound : s.Sound) (done : s.commit t = (.ok (), s')) :
    s.Applies (s.txn t) s' := by
  rw [sound.commit_eq t] at done
  split at done
  · cases done
  · cases clash : (s.txn t).staged.find? (·.key ∈ s.keys) with
    | some claim =>
        rw [clash] at done
        cases done
    | none =>
        rw [clash] at done
        rw [← (Prod.mk.inj done).2]
        refine applies_commit ?_
        rw [sound.refusal?_eq t, clash]
        rfl

/-- What a commit comes to, whether or not the transaction has staged anything. -/
theorem Sound.commit_cases (sound : s.Sound) (t : TxnId) :
    (0 < s.failing ∧ s.commit t =
        (.error (.transient .injectedCommit), { s.close t with failing := s.failing - 1 })) ∨
      (s.failing = 0 ∧ ∃ claim ∈ (s.txn t).staged, claim.key ∈ s.keys ∧
        s.commit t = (.error (.alreadyClaimed claim.user claim.coupon), s.close t)) ∨
      (s.failing = 0 ∧ (∀ claim ∈ (s.txn t).staged, claim.key ∉ s.keys) ∧
        s.commit t = (.ok (), (s.close t).apply (s.txn t))) := by
  rw [sound.commit_eq t]
  by_cases injected : 0 < s.failing
  · exact Or.inl ⟨injected, if_pos injected⟩
  · have due : s.failing = 0 := by omega
    rw [if_neg injected]
    cases clash : (s.txn t).staged.find? (·.key ∈ s.keys) with
    | some claim =>
        have committed := List.find?_some clash
        exact Or.inr (Or.inl ⟨due, claim, List.mem_of_find?_eq_some clash,
          of_decide_eq_true committed, rfl⟩)
    | none =>
        rw [List.find?_eq_none] at clash
        exact Or.inr (Or.inr ⟨due, by simpa using clash, rfl⟩)

end Store

open Store

/-! ## Overtaken claims -/

namespace System

variable {s s' : System} {t : TxnId} {claim : Claim}

theorem Does.key_cases {action : Action} (does : s.Does action s') (sound : s.Sound)
    (staged : claim ∈ (s'.store.txn t).staged) (committed : claim.key ∈ s'.store.keys) :
    (claim ∈ (s.store.txn t).staged ∧ claim.key ∈ s.store.keys) ∨
      ∃ u, Step.Overtakes ⟨s, action, s'⟩ t claim u := by
  rcases does.store sound with ⟨u, change⟩ | ⟨name, amount, -, created⟩ | ⟨count, set⟩
  · obtain ⟨before, cases_⟩ := change.key_cases staged committed
    by_cases old : claim.key ∈ s.store.keys
    · exact Or.inl ⟨before, old⟩
    · obtain ⟨other, rival, granted⟩ := cases_.resolve_left old
      exact Or.inr ⟨u, other, before, old, rival, granted⟩
  · left
    rw [created] at staged committed
    rcases create_cases s.store name amount with kept | ⟨-, -, added⟩
    · rw [kept] at staged committed
      exact ⟨staged, committed⟩
    · rw [added] at staged committed
      exact ⟨staged, committed⟩
  · rw [set] at staged committed
    exact Or.inl ⟨staged, committed⟩

/-- Where the key of a staged claim is committed, another transaction has overtaken it. -/
theorem run_overtaken (actions : List Action) (runs : run actions {} = some s)
    (staged : claim ∈ (s.store.txn t).staged) (committed : claim.key ∈ s.store.keys) :
    Overtaken (trace actions {}) t claim := by
  have all : s.Sound ∧ ∀ t claim, claim ∈ (s.store.txn t).staged → claim.key ∈ s.store.keys →
      Overtaken ([] ++ trace actions {}) t claim := by
    refine trace_keeps
      (fun history s => s.Sound ∧ ∀ t claim, claim ∈ (s.store.txn t).staged →
        claim.key ∈ s.store.keys → Overtaken history t claim)
      (fun _ => True) ?_ actions (fun _ _ => trivial) [] ⟨sound_empty, by simp⟩ runs
    rintro history s s' action - does ⟨sound, overtaken⟩
    refine ⟨does.sound sound, ?_⟩
    intro t claim staged committed
    rcases does.key_cases sound staged committed with ⟨before, old⟩ | ⟨u, overtakes⟩
    · obtain ⟨step, member, u, overtakes⟩ := overtaken t claim before old
      exact ⟨step, List.mem_append_left _ member, u, overtakes⟩
    · exact ⟨_, List.mem_append_right _ List.mem_cons_self, u, overtakes⟩
  exact all.2 t claim staged committed

end System

/-- The key of a claim that was overtaken stays committed. -/
theorem Overtaken.committed {history : List Step} {s : System} {t : TxnId} {claim : Claim}
    (overtaken : Overtaken history t claim) (recorded : Recorded history s) :
    claim.key ∈ s.store.keys := by
  obtain ⟨step, member, u, overtakes⟩ := overtaken
  have applies := (recorded.before step member).store.applies_of_commit overtakes.granted
  have after := (applies.keys claim.key).mpr (Or.inr overtakes.rival)
  exact (recorded.grown step member).keys.subset after

/-- Two transactions that stage claims under the lock of their coupon do not overtake each other. -/
theorem Step.Overtakes.unranked {step : Step} {t u : TxnId} {claim : Claim}
    (overtakes : step.Overtakes t claim u) (ranked : step.before.store.Ranked) : False := by
  obtain ⟨rival, member, same⟩ := List.mem_map.mp overtakes.rival
  have coupon : rival.coupon = claim.coupon := congrArg Prod.snd same
  have own := ranked.locked t claim overtakes.staged
  have others := ranked.locked u rival member
  rw [coupon] at others
  exact overtakes.other (holder_unique _ u t claim.coupon others own)

theorem System.run_ranked_before {s : System} (actions : List Action)
    (runs : System.run actions {} = some s)
    (locked : ∀ step ∈ System.trace actions {}, step.Locked) :
    ∀ step ∈ System.trace actions {}, step.before.store.Ranked := by
  have all : s.Sound ∧ s.store.Ranked ∧
      ∀ step ∈ [] ++ System.trace actions {}, step.before.store.Ranked := by
    refine System.trace_keeps_steps
      (fun history s => s.Sound ∧ s.store.Ranked ∧ ∀ step ∈ history, step.before.store.Ranked)
      Step.Locked ?_ actions locked [] ⟨System.sound_empty, ranked_empty, by simp⟩ runs
    rintro history s s' action acts locked ⟨sound, ranked, before⟩
    refine ⟨(System.act_does action acts).sound sound,
      System.act_ranked sound action acts locked ranked, ?_⟩
    intro step member
    rcases List.mem_append.mp member with old | new
    · exact before step old
    · rw [List.mem_singleton.mp new]
      exact ranked
  exact all.2.2

/-! ## Commits -/

/-- What becomes of what a transaction has staged when it is committed. -/
structure Atomic (history : List Step) (s : Store) (t : TxnId) : Prop where
  refused : ∀ e s', s.commit t = (.error e, s') → s.SameTables s' ∧ s'.lastId = s.lastId
  granted : ∀ s', s.commit t = (.ok (), s') → s.Applies (s.txn t) s'
  injected : 0 < s.failing →
    (s.commit t).1 = .error (.transient .injectedCommit) ∧ (s.commit t).2.failing + 1 = s.failing
  due : s.failing = 0 → (s.commit t).2.failing = 0 ∧
    ∀ e, (s.commit t).1 = .error e → ∃ user name, e = .alreadyClaimed user name
  overtaken : s.failing = 0 → ((∃ e, (s.commit t).1 = .error e) ↔
    ∃ claim ∈ (s.txn t).staged, Overtaken history t claim)
  /-- The stock is never short, and the coupons are there. -/
  stocked : ∀ name, (s.commit t).1 ≠ .error (.noStock name) ∧
    (s.commit t).1 ≠ .error (.couponNotFound name)

theorem atomic_of_injected {history : List Step} {s : Store} {t : TxnId}
    (injected : 0 < s.failing)
    (commit : s.commit t =
      (.error (.transient .injectedCommit), { s.close t with failing := s.failing - 1 })) :
    Atomic history s t := by
  constructor <;> rw [commit]
  case refused =>
    rintro e s' ⟨⟩
    exact ⟨⟨rfl, rfl, rfl⟩, rfl⟩
  case granted => rintro s' ⟨⟩
  case injected =>
    intro _
    refine ⟨rfl, ?_⟩
    dsimp only
    omega
  case stocked => exact fun name => ⟨by simp, by simp⟩
  all_goals
    intro due
    omega

theorem atomic_of_clash {history : List Step} {s : Store} {t : TxnId} {claim : Claim}
    (due : s.failing = 0) (staged : claim ∈ (s.txn t).staged) (lost : Overtaken history t claim)
    (commit : s.commit t = (.error (.alreadyClaimed claim.user claim.coupon), s.close t)) :
    Atomic history s t := by
  constructor <;> rw [commit]
  case refused =>
    rintro e s' ⟨⟩
    exact ⟨⟨rfl, rfl, rfl⟩, rfl⟩
  case granted => rintro s' ⟨⟩
  case injected =>
    intro injected
    omega
  case due =>
    refine fun _ => ⟨due, ?_⟩
    rintro e ⟨⟩
    exact ⟨_, _, rfl⟩
  case overtaken => exact fun _ => ⟨fun _ => ⟨claim, staged, lost⟩, fun _ => ⟨_, rfl⟩⟩
  case stocked => exact fun name => ⟨by simp, by simp⟩

theorem atomic_of_free {history : List Step} {s : Store} {t : TxnId} (sound : s.Sound)
    (due : s.failing = 0) (ahead : ∀ claim ∈ (s.txn t).staged, ¬ Overtaken history t claim)
    (commit : s.commit t = (.ok (), (s.close t).apply (s.txn t))) : Atomic history s t := by
  have applies := sound.applies_of_commit commit
  constructor <;> rw [commit]
  case refused => rintro e s' ⟨⟩
  case granted =>
    rintro s' ⟨⟩
    exact applies
  case injected =>
    intro injected
    omega
  case due =>
    refine fun _ => ⟨due, ?_⟩
    rintro e ⟨⟩
  case overtaken =>
    refine fun _ => ⟨?_, ?_⟩
    · rintro ⟨e, ⟨⟩⟩
    · rintro ⟨claim, staged, lost⟩
      exact absurd lost (ahead claim staged)
  case stocked => exact fun name => ⟨by simp, by simp⟩

theorem Atomic.of_sound {history : List Step} {s : Store} (sound : s.Sound) (t : TxnId)
    (keys : ∀ claim ∈ (s.txn t).staged, claim.key ∈ s.keys ↔ Overtaken history t claim) :
    Atomic history s t := by
  rcases sound.commit_cases t with ⟨injected, commit⟩ | ⟨due, claim, staged, clash, commit⟩ |
    ⟨due, free, commit⟩
  · exact atomic_of_injected injected commit
  · exact atomic_of_clash due staged ((keys claim staged).mp clash) commit
  · have ahead : ∀ claim ∈ (s.txn t).staged, ¬ Overtaken history t claim :=
      fun claim staged lost => free claim staged ((keys claim staged).mpr lost)
    exact atomic_of_free sound due ahead commit

namespace System

variable {s s' : System} {t : TxnId}

/-- Transactions are committed by hand and by calls alike. -/
theorem operation?_of_commits (action : Action) (commits : s.commits? action = some t) :
    s.operation? action = some (.ask t .commit) := by
  cases action <;> simp only [commits?, reduceCtorEq, Option.some.injEq] at commits
  case commit number =>
    rw [← commits]
    rfl
  case advance c =>
    obtain ⟨call, known, commits⟩ := Option.bind_eq_some_iff.mp commits
    split at commits
    · rename_i claim expires trying
      rw [← Option.some.inj commits]
      simp [operation?, known, trying, Stage.turn]
    · cases commits

/-- In every state of a run a commit is all or nothing, and only a claim that was overtaken or an
injected failure stands in its way; where claims are inserted under the locks of their coupons,
none is overtaken. -/
theorem run_commits (actions : List Action) (runs : run actions {} = some s) :
    (∀ t, Atomic (trace actions {}) s.store t) ∧
      (∀ t action s', s.commits? action = some t → s.act action = some s' →
        s'.store = (s.store.commit t).2) ∧
      ((∀ step ∈ trace actions {}, step.Locked) →
        ∀ t user name, (s.store.commit t).1 ≠ .error (.alreadyClaimed user name)) := by
  have recorded := run_recorded actions runs
  refine ⟨?_, ?_, ?_⟩
  · intro t
    refine .of_sound recorded.sound.store t ?_
    intro claim staged
    exact ⟨run_overtaken actions runs staged, fun overtaken => overtaken.committed recorded⟩
  · intro t action s' commits step
    exact (act_after recorded.sound action _ (operation?_of_commits action commits) step).2
  · intro locked t user name
    have ranked := run_ranked_before actions runs locked
    rcases recorded.sound.store.commit_cases t with ⟨-, commit⟩ | ⟨-, claim, staged, clash, -⟩ |
      ⟨-, -, commit⟩
    · simp [commit]
    · obtain ⟨step, member, u, overtakes⟩ := run_overtaken actions runs staged clash
      exact (overtakes.unranked (ranked step member)).elim
    · simp [commit]

/-- Two transactions stage a claim under one key, and one of them commits it. -/
def rivals : List Action :=
  [.create "SOLO" 3, .begin 0, .begin 1, .insert 0 "first" "SOLO", .insert 1 "second" "SOLO",
    .insert 1 "first" "SOLO", .lock 1 "SOLO", .decrement 1 "SOLO", .commit 1]

/-- A transaction stages two claims and two units under the lock, and a call waits behind it. -/
def orderly : List Action :=
  [.create "SOLO" 3, .begin 0, .lock 0 "SOLO", .start "third" "SOLO" .zero 1, .advance 0,
    .advance 0, .insert 0 "first" "SOLO", .decrement 0 "SOLO", .insert 0 "second" "SOLO",
    .decrement 0 "SOLO"]

theorem run_commits_rivals :
    ∃ s s', run rivals {} = some s ∧ Atomic (trace rivals {}) s.store (.manual 0) ∧
      (s.store.commit (.manual 0)).1 = .error (.alreadyClaimed "first" "SOLO") ∧
      run orderly {} = some s' ∧ Atomic (trace orderly {}) s'.store (.manual 0) ∧
      (∀ step ∈ trace orderly {}, step.Locked) ∧
      (s'.store.commit (.manual 0)).1 ≠ .error (.alreadyClaimed "first" "SOLO") ∧
      (s'.store.commit (.manual 0)).2.coupons = [⟨"SOLO", 3, 1⟩] ∧
      (s'.store.commit (.manual 0)).2.claims = [⟨1, "first", "SOLO"⟩, ⟨2, "second", "SOLO"⟩] :=
  ⟨_, _, rfl, (run_commits rivals rfl).1 _, rfl, rfl, (run_commits orderly rfl).1 _, by decide,
    (run_commits orderly rfl).2.2 (by decide) _ _ _, rfl, rfl⟩

end System

end CouponDesk.Memory
