import CouponDesk.Proofs.Relational.Attempts
import CouponDesk.Proofs.Relational.Pools

/-!
# Clients among each other

An attempt without the write lock has changed nothing, and one that has it works on tables of its
own while the committed ones stand still.  So a commit appends one claim and takes the unit for it,
whatever other attempts and creations do meanwhile and whichever statements fail.
-/

set_option autoImplicit false

namespace CouponDesk.Relational

theorem Statement.Guarded.inner {q : Statement} {w : Tables} (guarded : q.Guarded w) : q.Inner := by
  cases q <;> trivial

/-! ## The write lock -/

namespace Pool

variable {p p' : Pool} {c : Nat} {w : Tables}

def held (p : Pool) (c : Nat) : Option Tables :=
  match p.writer with
  | some (t, w) => if t = c then some w else none
  | none => none

theorem held_eq_some_iff : p.held c = some w ↔ p.writer = some (c, w) := by
  unfold held
  cases p.writer with
  | none => simp
  | some entry =>
      obtain ⟨t, tables⟩ := entry
      by_cases own : t = c <;> simp [own]

theorem held_eq_none_iff : p.held c = none ↔ ∀ w, p.writer ≠ some (c, w) := by
  simp only [Option.eq_none_iff_forall_ne_some, ne_eq, held_eq_some_iff]

/-- What one transaction does leaves the working tables of every other alone, and the committed
tables while another has the write lock. -/
structure Leads (c : Nat) (p p' : Pool) : Prop where
  others : ∀ d, d ≠ c → p'.held d = p.held d ∧ (p.held d = none ∨ p'.committed = p.committed)
  readOnly : p'.readOnly = p.readOnly

theorem leads_self (p : Pool) (c : Nat) : Leads c p p := ⟨fun _ _ => ⟨rfl, Or.inr rfl⟩, rfl⟩

theorem Leads.trans {p'' : Pool} (first : Leads c p p') (second : Leads c p' p'') :
    Leads c p p'' where
  others := by
    intro d apart
    obtain ⟨same, before⟩ := first.others d apart
    obtain ⟨same', after⟩ := second.others d apart
    refine ⟨same'.trans same, ?_⟩
    rw [same] at after
    exact before.elim Or.inl fun kept => after.imp_right fun kept' => kept'.trans kept
  readOnly := second.readOnly.trans first.readOnly

theorem held_dropTxn (p : Pool) (c d : Nat) :
    (p.dropTxn c).held d = if d = c then none else p.held d := by
  unfold held dropTxn
  cases p.writer with
  | none => simp
  | some entry =>
      obtain ⟨t, tables⟩ := entry
      by_cases own : t = c
      · subst own
        by_cases same : d = t <;> simp [Option.filter, same, Ne.symm]
      · by_cases same : d = c
        · simp [Option.filter, same, own]
        · simp [Option.filter, same, own]

theorem leads_dropTxn (p : Pool) (c : Nat) : Leads c p (p.dropTxn c) := by
  refine ⟨fun d apart => ?_, rfl⟩
  rw [held_dropTxn, if_neg apart]
  exact ⟨rfl, Or.inr rfl⟩

theorem begin_cases (p : Pool) (c : Nat) :
    (∃ f, p.send (some c) .begin = (.error f, p)) ∨
      p.send (some c) .begin = (.ok (), { p with opened := p.opened ++ [c] }) := by
  change (∃ f, p.openTxn c = (.error f, p)) ∨ p.openTxn c = _
  unfold openTxn
  split
  · exact Or.inl ⟨_, rfl⟩
  · exact Or.inr rfl

theorem held_unique {d : Nat} (held : p.held c = some w) (apart : d ≠ c) : p.held d = none := by
  rw [held_eq_some_iff] at held
  rw [held_eq_none_iff]
  intro w' other
  rw [held, Option.some.injEq, Prod.mk.injEq] at other
  exact apart other.1.symm

theorem seen_of_held (held : p.held c = some w) : p.seen (some c) = w := by
  rw [held_eq_some_iff] at held
  simp [seen, held]

theorem held_commitTxn (p : Pool) (c d : Nat) :
    (p.commitTxn c).held d = if d = c then none else p.held d := held_dropTxn p c d

theorem leads_commitTxn (held : p.held c = some w) : Leads c p (p.commitTxn c) := by
  refine ⟨fun d apart => ?_, rfl⟩
  rw [held_commitTxn, if_neg apart]
  exact ⟨rfl, Or.inl (held_unique held apart)⟩

theorem leads_write (w : Tables) (free : ∀ d, d ≠ c → p.held d = none) :
    Leads c p { p with writer := some (c, w) } := by
  refine ⟨fun d apart => ⟨?_, Or.inr rfl⟩, rfl⟩
  rw [free d apart]
  simp [held, Ne.symm apart]

theorem free_of_write (q : Statement) (writes : p.committed.writes q = true)
    (free : p.obstacle? none q = none) : p.writer = none := by
  unfold obstacle? at free
  cases writer : p.writer with
  | none => rfl
  | some entry =>
      cases unavailable : p.unavailable? with
      | some f => simp [unavailable] at free
      | none =>
          have locked : p.lockedOut none = true := by simp [lockedOut, writer]
          simp only [unavailable, seen_none, writes, locked, if_true] at free
          split at free <;> cases free

/-- The statements of the transaction that has the write lock are carried out on its tables. -/
theorem send_of_held (held : p.held c = some w) (writable : p.readOnly = false) (q : Statement)
    (guarded : q.Guarded w) :
    (p.send (some c) q).1 = (w.exec q).1 ∧ Leads c p (p.send (some c) q).2 ∧
      (p.send (some c) q).2.committed = p.committed ∧
      (p.send (some c) q).2.held c = some (w.exec q).2 := by
  have seen := seen_of_held held
  have free : p.obstacle? (some c) q = none := by
    have own : p.lockedOut (some c) = false := by
      simp [lockedOut, held_eq_some_iff.mp held]
    simp [obstacle?, writable, own]
  rw [send_inner p c q guarded.inner, free, seen]
  dsimp only
  by_cases writes : w.writes q = true
  · rw [if_pos writes]
    refine ⟨rfl, leads_write _ fun d apart => held_unique held apart, rfl, ?_⟩
    simp [put, Pool.held]
  · rw [if_neg writes]
    refine ⟨rfl, leads_self p c, rfl, ?_⟩
    rw [w.exec_of_not_writes q (by simpa using writes), held]

/-- The first write of a transaction takes the write lock, or is refused. -/
theorem touch_of_not_held (outside : p.held c = none) (name : String) :
    (∃ f, p.send (some c) (.touchCoupon name) = (.error f, p)) ∨
      p.readOnly = false ∧ p.writer = none ∧
        ∃ effect, p.send (some c) (.touchCoupon name) =
          (.ok effect, { p with writer := some (c, p.committed) }) := by
  rw [send_inner p c (.touchCoupon name) trivial]
  cases blocked : p.obstacle? (some c) (.touchCoupon name) with
  | some f => exact Or.inl ⟨f, rfl⟩
  | none =>
      right
      have unlocked : p.readOnly = false ∧ p.lockedOut (some c) = false := by
        simp only [obstacle?, Tables.writes, if_true] at blocked
        split_ifs at blocked with readOnly locked
        exact ⟨by simpa using readOnly, by simpa using locked⟩
      have free : p.writer = none := by
        cases writer : p.writer with
        | none => rfl
        | some entry =>
            obtain ⟨t, tables⟩ := entry
            have own : c = t := by simpa [lockedOut, writer] using unlocked.2
            subst own
            exact absurd writer (held_eq_none_iff.mp outside tables)
      refine ⟨unlocked.1, free, ⟨0, p.committed.touched name⟩, ?_⟩
      simp [seen, free, Tables.exec, Tables.writes, put]

/-- In the committed tables claims and stock are in step, and only a pool that may be written to has
a writer. -/
structure Fair (p : Pool) : Prop where
  inStep : p.committed.InStep
  writable : p.writer.isSome → p.readOnly = false

theorem Fair.writable_of_held (fair : p.Fair) (held : p.held c = some w) : p.readOnly = false := by
  apply fair.writable
  rw [held_eq_some_iff.mp held]
  rfl

theorem Fair.dropTxn (fair : p.Fair) (c : Nat) : (p.dropTxn c).Fair := by
  refine ⟨fair.inStep, fun writes => fair.writable ?_⟩
  simp only [Pool.dropTxn] at writes
  cases writer : p.writer with
  | none => simp [writer] at writes
  | some entry => rfl

end Pool

/-! ## Attempts in a pool -/

/-- Where an attempt stands towards the committed tables, with these working tables under the write
lock, or without it. -/
inductive Attempt.Relies (c : Tables) (a : Attempt) : Option Tables → Prop
  | opening (stage : a.stage = .opening) (fresh : a.rest = program a.now a.user a.coupon .opening) :
      Relies c a none
  | locking (stage : a.stage = .locking) (fresh : a.rest = program a.now a.user a.coupon .locking) :
      Relies c a none
  | undoing (e : Error) (held : Option Tables) (stage : a.stage = .undoing e)
      (fresh : a.rest = program a.now a.user a.coupon (.undoing e)) : Relies c a held
  | settled (result : Except Error Claim) (stage : a.stage = .settled result)
      (fresh : a.rest = .done (.settled result)) : Relies c a none
  | working (w : Tables) (goesOn : a.isOver = false)
      (ensures : a.rest.Ensures (a.Reaches c) w) : Relies c a (some w)
  | committing (claim : Claim) (w : Tables) (stage : a.stage = .committing claim)
      (fresh : a.rest = program a.now a.user a.coupon (.committing claim))
      (holds : a.Holds c w (.committing claim)) : Relies c a (some w)

namespace Attempt

variable {a : Attempt} {c w : Tables}

theorem Relies.of_not_held (relies : a.Relies c none) (c' : Tables) : a.Relies c' none := by
  cases relies with
  | opening stage fresh => exact .opening stage fresh
  | locking stage fresh => exact .locking stage fresh
  | undoing e _ stage fresh => exact .undoing e none stage fresh
  | settled result stage fresh => exact .settled result stage fresh

/-- An attempt that comes to a stage under the write lock finds there what it relies on. -/
theorem Holds.relies {next : Stage} (holds : a.Holds c w next) (inStep : c.InStep) :
    (a.enter next).Relies c (some w) := by
  cases next with
  | inserting => exact .working w rfl (ensures_inserting (a := a.enter .inserting) rfl holds)
  | taking claim => exact .working w rfl (ensures_taking (a := a.enter _) claim rfl inStep holds)
  | committing claim => exact .committing claim w rfl rfl holds
  | undoing e => exact .undoing e (some w) rfl rfl
  | _ => exact holds.elim

/-- A commit makes one claim and the unit for it visible. -/
theorem Holds.inStep {claim : Claim} (holds : a.Holds c w (.committing claim))
    (inStep : c.InStep) : w.InStep := by
  obtain ⟨stocked, row, between, added, rfl⟩ := holds
  exact inStep.grant a.user a.coupon a.now row between added stocked

structure Advances (n : Nat) (p : Pool) (a : Attempt) (p' : Pool) (a' : Attempt) : Prop where
  leads : Pool.Leads n p p'
  fair : p'.Fair
  relies : a'.Relies p'.committed (p'.held n)
  follows : a'.stage = a.stage ∨ Follows a.stage a'.stage

variable {n : Nat} {p p' : Pool}

theorem advances_settled (result : Except Error Claim) (leads : Pool.Leads n p p') (fair : p'.Fair)
    (follows : Follows a.stage (.settled result)) :
    Advances n p a ((a.enter (.settled result)).leave n p') (a.enter (.settled result)) := by
  have dropped : (a.enter (.settled result)).leave n p' = p'.dropTxn n := rfl
  rw [dropped]
  refine ⟨leads.trans (p'.leads_dropTxn n), fair.dropTxn n, ?_, Or.inr follows⟩
  rw [Pool.held_dropTxn, if_pos rfl]
  exact .settled result rfl rfl

/-- Under the write lock an attempt goes on as its program ensures. -/
theorem advances_working {rest : Program Stage} (goesOn : a.isOver = false)
    (leads : Pool.Leads n p p') (fair : p'.Fair) (committed : p'.committed = p.committed)
    (held : p'.held n = some w) (ensures : rest.Ensures (a.Reaches p.committed) w) :
    Advances n p a ((a.proceed rest).leave n p') (a.proceed rest) := by
  cases rest with
  | ask q resume =>
      have stays : (a.proceed (.ask q resume)).leave n p' = p' := by
        unfold leave
        exact if_neg (by simpa [proceed, isOver] using goesOn)
      rw [stays]
      refine ⟨leads, fair, ?_, Or.inl rfl⟩
      rw [held, committed]
      exact .working w goesOn ensures
  | done next =>
      obtain ⟨holds, follows⟩ := ensures
      have relies := holds.relies (committed ▸ fair.inStep)
      have stays : (a.enter next).leave n p' = p' := by
        unfold leave
        refine if_neg ?_
        cases next with
        | settled result => exact holds.elim
        | _ => simp [enter, isOver]
      change Advances n p a ((a.enter next).leave n p') (a.enter next)
      rw [stays]
      refine ⟨leads, fair, ?_, Or.inr follows⟩
      rw [held, committed]
      exact relies

/-- Without the write lock an attempt begins its transaction, or has a failure to undo. -/
theorem advances_outside {next : Stage} (leads : Pool.Leads n p p') (fair : p'.Fair)
    (held : p'.held n = none) (outside : next = .locking ∨ ∃ e, next = .undoing e)
    (follows : Follows a.stage next) :
    Advances n p a ((a.enter next).leave n p') (a.enter next) := by
  rcases outside with rfl | ⟨e, rfl⟩
  · refine ⟨leads, fair, ?_, Or.inr follows⟩
    change Relies p'.committed _ (p'.held n)
    rw [held]
    exact .locking rfl rfl
  · exact ⟨leads, fair, .undoing e _ rfl rfl, Or.inr follows⟩

variable {q : Statement} {resume : q.Reply → Program Stage}

theorem Relies.send (relies : a.Relies p.committed (p.held n)) (fair : p.Fair)
    (next : a.rest = .ask q resume) :
    Advances n p a ((a.proceed (resume (p.send (some n) q).1)).leave n (p.send (some n) q).2)
      (a.proceed (resume (p.send (some n) q).1)) := by
  generalize now : p.held n = held at relies
  cases relies with
  | opening stage fresh =>
      rw [fresh] at next
      cases next
      have follows : ∀ next, Follows a.stage next := by simp [stage, Follows]
      rcases p.begin_cases n with ⟨f, sent⟩ | sent
      · rw [sent]
        exact advances_settled _ (p.leads_self n) fair (follows _)
      · rw [sent]
        exact advances_outside ⟨fun d apart => ⟨rfl, Or.inr rfl⟩, rfl⟩
          ⟨fair.inStep, fair.writable⟩ now (Or.inl rfl) (follows _)
  | locking stage fresh =>
      have follows : ∀ next, Follows a.stage next := by simp [stage, Follows]
      have goesOn : a.isOver = false := by simp [isOver, stage]
      obtain ⟨resume, same, fails, succeeds⟩ := program_locking (c := p.committed) stage
      rw [fresh, same] at next
      cases next
      rcases Pool.touch_of_not_held now a.coupon with ⟨f, sent⟩ | ⟨writable, free, effect, sent⟩
      · rw [sent]
        dsimp only
        rw [fails f]
        exact advances_outside (p.leads_self n) fair now (Or.inr ⟨_, rfl⟩) (follows _)
      · rw [sent]
        have unheld : ∀ d, d ≠ n → p.held d = none := by simp [Pool.held, free]
        refine advances_working goesOn (Pool.leads_write p.committed unheld)
          ⟨fair.inStep, fun _ => writable⟩ rfl ?_ (succeeds effect)
        simp [Pool.held]
  | undoing e _ stage fresh =>
      rw [fresh] at next
      cases next
      have follows : ∀ next, Follows a.stage next := by simp [stage, Follows]
      exact advances_settled _ (p.leads_dropTxn n) (fair.dropTxn n) (follows _)
  | settled result stage fresh =>
      rw [fresh] at next
      cases next
  | working w goesOn ensures =>
      rw [next] at ensures
      obtain ⟨guarded, -, succeeds⟩ := ensures
      have writable := fair.writable_of_held now
      obtain ⟨reply, leads, committed, held⟩ := Pool.send_of_held now writable q guarded
      rw [reply]
      refine advances_working goesOn leads ?_ committed held succeeds
      refine ⟨committed ▸ fair.inStep, fun _ => ?_⟩
      rw [leads.readOnly, writable]
  | committing claim w stage fresh holds =>
      rw [fresh] at next
      cases next
      have follows : ∀ next, Follows a.stage next := by simp [stage, Follows]
      have seen := Pool.seen_of_held now
      refine advances_settled _ (Pool.leads_commitTxn now) ?_ (follows _)
      refine ⟨?_, (fair.dropTxn n).writable⟩
      change (p.seen (some n)).InStep
      rw [seen]
      exact holds.inStep fair.inStep

theorem Relies.fail (relies : a.Relies p.committed (p.held n)) (fair : p.Fair)
    (next : a.rest = .ask q resume) (f : DatabaseFault) :
    Advances n p a ((a.proceed (resume (.error f))).leave n p) (a.proceed (resume (.error f))) := by
  have idle := p.leads_self n
  generalize now : p.held n = held at relies
  cases relies with
  | opening stage fresh =>
      rw [fresh] at next
      cases next
      exact advances_settled _ idle fair (by simp [stage, Follows])
  | locking stage fresh =>
      obtain ⟨resume, same, fails, -⟩ := program_locking (c := p.committed) stage
      rw [fresh, same] at next
      cases next
      rw [fails f]
      exact advances_outside idle fair now (Or.inr ⟨_, rfl⟩) (by simp [stage, Follows])
  | undoing e _ stage fresh =>
      rw [fresh] at next
      cases next
      exact advances_settled _ idle fair (by simp [stage, Follows])
  | settled result stage fresh =>
      rw [fresh] at next
      cases next
  | working w goesOn ensures =>
      rw [next] at ensures
      exact advances_working goesOn idle fair rfl now (ensures.2.1 f)
  | committing claim w stage fresh holds =>
      rw [fresh] at next
      cases next
      exact advances_settled _ idle fair (by simp [stage, Follows])

end Attempt

/-! ## Creations -/

def Statement.Creates : Statement → Prop
  | .addCoupon row _ => ∃ name amount, row = .fresh name amount
  | .findCoupon _ _ => True
  | _ => False

theorem creates_createCoupon (now : Int) (name : String) (amount : Int) :
    (Records.createCoupon .sqlite Program.send now name amount).Only Statement.Creates := by
  unfold Records.createCoupon
  split
  · trivial
  · refine Program.only_bind _ _ _ ?_ ?_
    · unfold Records.addCoupon
      rw [if_neg (by decide)]
      refine Program.only_bind _ _ _ ⟨⟨name, amount, rfl⟩, fun reply => trivial⟩ fun reply => ?_
      split
      · trivial
      · split
        · trivial
        · refine Program.only_bind _ _ _ ⟨trivial, fun reply => trivial⟩ fun reply => ?_
          split <;> trivial
    · intro reply
      split <;> trivial

/-- A creation adds a coupon nobody has a claim on, and only while nobody has the write lock. -/
theorem Pool.Fair.create {p : Pool} (fair : p.Fair) (n : Nat) (q : Statement) (creates : q.Creates) :
    Leads n p (p.send none q).2 ∧ (p.send none q).2.Fair ∧
      (p.send none q).2.held n = p.held n := by
  rw [p.send_none]
  cases free : p.obstacle? none q with
  | some f => exact ⟨p.leads_self n, fair, rfl⟩
  | none =>
      dsimp only
      by_cases writes : p.committed.writes q = true
      · rw [if_pos writes]
        have writer := Pool.free_of_write q writes free
        have unheld : ∀ d, p.held d = none := by simp [Pool.held, writer]
        refine ⟨⟨fun d _ => ⟨rfl, Or.inl (unheld d)⟩, rfl⟩, ⟨?_, fair.writable⟩, rfl⟩
        cases q with
        | addCoupon row now =>
            obtain ⟨name, amount, rfl⟩ := creates
            cases added : p.committed.addCoupon (.fresh name amount) with
            | error broken => simpa [Tables.exec, added] using fair.inStep
            | ok after => simpa [Tables.exec, added] using fair.inStep.addCoupon amount after added
        | findCoupon name locking => cases writes
        | _ => exact creates.elim
      · rw [if_neg writes]
        exact ⟨p.leads_self n, fair, rfl⟩

/-! ## All clients -/

def Client.Stands (p : Pool) (n : Nat) : Client → Prop
  | .attempt a => a.Relies p.committed (p.held n)
  | .creation rest => rest.Only Statement.Creates ∧ p.held n = none
  | .gone => p.held n = none

theorem Client.Stands.of_leads {p p' : Pool} {n d : Nat} {client : Client}
    (stands : client.Stands p d) (leads : Pool.Leads n p p') (apart : d ≠ n) :
    client.Stands p' d := by
  obtain ⟨held, outside⟩ := leads.others d apart
  cases client with
  | attempt a =>
      unfold Stands at stands ⊢
      rw [held]
      rcases outside with none_held | committed
      · rw [none_held] at stands ⊢
        exact stands.of_not_held _
      · rw [committed]
        exact stands
  | creation rest => exact ⟨stands.1, held.trans stands.2⟩
  | gone => exact held.trans stands

namespace Clients

variable {s s' : Clients}

structure Sound (s : Clients) : Prop where
  fair : s.pool.Fair
  stands : ∀ (n : Nat) (client : Client), s.all[n]? = some client → client.Stands s.pool n
  later : ∀ n, s.all.length ≤ n → s.pool.held n = none

theorem Sound.put (sound : s.Sound) (n : Nat) (client client' : Client) (pool : Pool)
    (known : s.all[n]? = some client) (leads : Pool.Leads n s.pool pool) (fair : pool.Fair)
    (stands : client'.Stands pool n) : (s.put n client' pool).Sound where
  fair := fair
  stands := by
    intro d other found
    change (s.all.set n client')[d]? = some other at found
    by_cases own : n = d
    · subst own
      rw [List.getElem?_set_self (List.getElem?_eq_some_iff.mp known).1] at found
      cases found
      exact stands
    · rw [List.getElem?_set_ne own] at found
      exact (sound.stands d other found).of_leads leads (Ne.symm own)
  later := by
    intro d new
    change (s.all.set n client').length ≤ d at new
    rw [List.length_set] at new
    have apart : d ≠ n := by
      rintro rfl
      have bound := (List.getElem?_eq_some_iff.mp known).1
      omega
    exact (leads.others d apart).1.trans (sound.later d new)

theorem Sound.append (sound : s.Sound) (client : Client)
    (stands : client.Stands s.pool s.all.length) : Sound { s with all := s.all ++ [client] } where
  fair := sound.fair
  stands := by
    intro n other found
    rcases Nat.lt_trichotomy n s.all.length with old | rfl | new
    · rw [List.getElem?_append_left old] at found
      exact sound.stands n other found
    · rw [List.getElem?_concat_length] at found
      cases found
      exact stands
    · rw [List.getElem?_eq_none (by simp; omega)] at found
      cases found
  later := by
    intro n new
    simp only [List.length_append, List.length_singleton] at new
    exact sound.later n (by omega)

/-- What a statement of an attempt comes to, whether it is carried out or fails. -/
theorem Sound.advances (sound : s.Sound) (n : Nat) (a : Attempt) (q : Statement)
    (resume : q.Reply → Program Stage) (known : s.all[n]? = some (.attempt a))
    (next : a.rest = .ask q resume) (how : Reception)
    (answers : how = Pool.send ∨ ∃ f, how = failing f) :
    Attempt.Advances n s.pool a
      ((a.proceed (resume (how (some n) q s.pool).1)).leave n (how (some n) q s.pool).2)
      (a.proceed (resume (how (some n) q s.pool).1)) := by
  have relies : a.Relies s.pool.committed (s.pool.held n) := sound.stands n _ known
  rcases answers with rfl | ⟨f, rfl⟩
  · exact relies.send sound.fair next
  · exact relies.fail sound.fair next f

theorem receive_sound (sound : s.Sound) (n : Nat) (how : Reception)
    (answers : how = Pool.send ∨ ∃ f, how = failing f) (step : s.receive n how = some s') :
    s'.Sound := by
  unfold receive at step
  split at step
  · rename_i q resume known
    cases step
    obtain ⟨only, outside⟩ := sound.stands n _ known
    rcases answers with rfl | ⟨f, rfl⟩
    · obtain ⟨leads, fair, held⟩ := sound.fair.create n q only.1
      exact sound.put n _ _ _ known leads fair ⟨only.2 _, held.trans outside⟩
    · exact sound.put n _ _ _ known (s.pool.leads_self n) sound.fair ⟨only.2 _, outside⟩
  · rename_i a known
    split at step
    · rename_i q resume next
      cases step
      have advances := sound.advances n a q resume known next how answers
      exact sound.put n _ _ _ known advances.leads advances.fair advances.relies
    · cases step
  · cases step

theorem act_sound (sound : s.Sound) (event : Event) (step : s.act event = some s') : s'.Sound := by
  cases event with
  | create name amount now =>
      cases step
      exact sound.append _ ⟨creates_createCoupon now name amount, sound.later _ (Nat.le_refl _)⟩
  | claim user coupon now =>
      cases step
      refine sound.append _ ?_
      unfold Client.Stands
      rw [sound.later _ (Nat.le_refl _)]
      exact .opening rfl rfl
  | send n => exact receive_sound sound n Pool.send (Or.inl rfl) step
  | fail n f => exact receive_sound sound n (failing f) (Or.inr ⟨f, rfl⟩) step
  | drop n =>
      simp only [act, drop] at step
      split at step
      · rename_i a known
        cases step
        refine sound.put n _ _ _ known (s.pool.leads_dropTxn n) (sound.fair.dropTxn n) ?_
        exact (s.pool.held_dropTxn n n).trans (if_pos rfl)
      · rename_i rest known
        cases step
        exact sound.put n _ _ _ known (s.pool.leads_self n) sound.fair (sound.stands n _ known).2
      · cases step

theorem run_sound (sound : s.Sound) (events : List Event) (runs : run events s = some s') :
    s'.Sound := by
  induction events generalizing s with
  | nil =>
      cases runs
      exact sound
  | cons event rest ih =>
      obtain ⟨next, step, runs⟩ := Option.bind_eq_some_iff.mp runs
      exact ih (act_sound sound event step) runs

theorem getElem?_put {m n : Nat} {client other : Client} {pool : Pool}
    (found : (s.put m client pool).all[n]? = some other) :
    m = n ∧ client = other ∨ s.all[n]? = some other := by
  change (s.all.set m client)[n]? = some other at found
  rw [List.getElem?_set] at found
  split at found
  · rename_i own
    split at found
    · exact Or.inl ⟨own, Option.some.inj found⟩
    · cases found
  · exact Or.inr found

theorem receive_follows (sound : s.Sound) (m : Nat) (how : Reception)
    (answers : how = Pool.send ∨ ∃ f, how = failing f) (step : s.receive m how = some s')
    (n : Nat) (a a' : Attempt) (known : s.all[n]? = some (.attempt a))
    (after : s'.all[n]? = some (.attempt a')) :
    a'.stage = a.stage ∨ Attempt.Follows a.stage a'.stage := by
  have stays : s.all[n]? = some (.attempt a') →
      a'.stage = a.stage ∨ Attempt.Follows a.stage a'.stage := by
    intro same
    rw [known] at same
    cases same
    exact Or.inl rfl
  unfold receive at step
  split at step
  · cases step
    rcases getElem?_put after with ⟨-, other⟩ | same
    · cases other
    · exact stays same
  · rename_i b found
    split at step
    · rename_i q resume next
      cases step
      rcases getElem?_put after with ⟨rfl, moved⟩ | same
      · rw [known] at found
        cases found
        cases moved
        exact (sound.advances m a q resume known next how answers).follows
      · exact stays same
    · cases step
  · cases step

theorem act_follows (sound : s.Sound) (event : Event) (step : s.act event = some s') (n : Nat)
    (a a' : Attempt) (known : s.all[n]? = some (.attempt a))
    (after : s'.all[n]? = some (.attempt a')) :
    a'.stage = a.stage ∨ Attempt.Follows a.stage a'.stage := by
  have stays : s.all[n]? = some (.attempt a') →
      a'.stage = a.stage ∨ Attempt.Follows a.stage a'.stage := by
    intro same
    rw [known] at same
    cases same
    exact Or.inl rfl
  have before : ∀ client, (s.all ++ [client])[n]? = s.all[n]? := by
    intro client
    exact List.getElem?_append_left (List.getElem?_eq_some_iff.mp known).1
  cases event with
  | create name amount now =>
      cases step
      exact stays ((before _).symm.trans after)
  | claim user coupon now =>
      cases step
      exact stays ((before _).symm.trans after)
  | send m => exact receive_follows sound m Pool.send (Or.inl rfl) step n a a' known after
  | fail m f => exact receive_follows sound m (failing f) (Or.inr ⟨f, rfl⟩) step n a a' known after
  | drop m =>
      simp only [act, drop] at step
      split at step
      · cases step
        rcases getElem?_put after with ⟨-, other⟩ | same
        · cases other
        · exact stays same
      · cases step
        rcases getElem?_put after with ⟨-, other⟩ | same
        · cases other
        · exact stays same
      · cases step

/-- An attempt takes its unit under the write lock, where there is one. -/
theorem Sound.takeUnit (sound : s.Sound) (n : Nat) (a : Attempt) (name : String)
    (resume : (Statement.takeUnit name).Reply → Program Stage)
    (known : s.all[n]? = some (.attempt a)) (next : a.rest = .ask (.takeUnit name) resume) :
    ∃ effect, (s.pool.send (some n) (.takeUnit name)).1 = .ok effect ∧ effect.affected = 1 := by
  have relies : a.Relies s.pool.committed (s.pool.held n) := sound.stands n _ known
  generalize now : s.pool.held n = held at relies
  cases relies with
  | working w goesOn ensures =>
      rw [next] at ensures
      have writable := sound.fair.writable_of_held now
      have reply := (Pool.send_of_held now writable _ ensures.1).1
      exact ⟨_, reply, ensures.1⟩
  | settled result stage fresh =>
      rw [fresh] at next
      cases next
  | opening stage fresh =>
      rw [fresh] at next
      cases next
  | locking stage fresh =>
      rw [fresh] at next
      cases next
  | undoing e _ stage fresh =>
      rw [fresh] at next
      cases next
  | committing claim w stage fresh holds =>
      rw [fresh] at next
      cases next

/-- What holds of a pool and its clients at every moment. -/
structure Agrees (s : Clients) : Prop where
  balanced : ∀ name row, s.pool.committed.coupon? name = some row →
    ((s.pool.committed.claimsOn name).length : Int) = row.total - row.remaining ∧
      0 ≤ row.remaining ∧ row.remaining ≤ row.total
  once : (s.pool.committed.claims.map ClaimRow.key).Nodup
  /-- The guarded update of an attempt changes just one row. -/
  update : ∀ (n : Nat) (a : Attempt) name resume, s.all[n]? = some (.attempt a) →
    a.rest = .ask (.takeUnit name) resume →
    ∃ effect, (s.pool.send (some n) (.takeUnit name)).1 = .ok effect ∧ effect.affected = 1
  /-- An attempt that has inserted its claim after the stock check is not turned down for want of
  stock: it comes to its commit, unless a statement fails. -/
  taken : ∀ (n : Nat) (a : Attempt) (claim : Claim) event s' (a' : Attempt),
    s.all[n]? = some (.attempt a) → a.stage = .taking claim → s.act event = some s' →
    s'.all[n]? = some (.attempt a') →
    a'.stage = .taking claim ∨ a'.stage = .committing claim ∨
      ∃ f, a'.stage = .undoing (.database f)

/-- Claims and stock agree after every commit, whatever attempts and creations are among each
other, in whatever order they send their statements, and wherever one fails or is abandoned. -/
theorem run_agrees (start : Pool) (quiet : start.writer = none) (inStep : start.committed.InStep)
    (events : List Event) (runs : run events { pool := start } = some s) : s.Agrees := by
  have unheld : ∀ n, start.held n = none := by simp [Pool.held, quiet]
  have first : Sound { pool := start } :=
    ⟨⟨inStep, by simp [quiet]⟩, by simp, fun n _ => unheld n⟩
  have sound := run_sound first events runs
  constructor
  case balanced =>
    intro name row found
    obtain ⟨member, rfl⟩ := Tables.coupon?_some _ name row found
    have stock := sound.fair.inStep.sound.stock row member
    exact ⟨sound.fair.inStep.balanced row member, stock.2⟩
  case once => exact sound.fair.inStep.sound.once
  case update => exact fun n a name resume known next => sound.takeUnit n a name resume known next
  case taken =>
    intro n a claim event s' a' known stage step after
    have follows := act_follows sound event step n a a' known after
    rw [stage] at follows
    exact follows

/-- Two attempts at the last unit among each other: the one that is first at the write lock has its
commit fail, the other finds the lock taken, and a third is granted the unit while a fourth is
abandoned. -/
def lastUnit : List Event :=
  [.create "SOLO" 1 0, .send 0, .send 0, .claim "first" "SOLO" 1, .claim "second" "SOLO" 1,
    .send 1, .send 2, .send 1, .send 2, .send 1, .send 1, .send 1, .send 1, .send 1, .send 2,
    .fail 1 (.execution "disk I/O error"), .claim "third" "SOLO" 2, .claim "fourth" "SOLO" 2,
    .send 3, .send 4, .send 3, .send 3, .send 3, .drop 4, .send 3, .send 3, .send 3, .send 3]

theorem run_agrees_last_unit :
    ∃ s, run lastUnit { pool := { size := 5 } } = some s ∧ s.Agrees ∧
      s.pool.committed.coupons = [⟨"SOLO", 1, 0⟩] ∧
      s.pool.committed.claims = [⟨1, "third", "SOLO", 2⟩] :=
  ⟨_, rfl, run_agrees { size := 5 } rfl Tables.inStep_empty lastUnit rfl, rfl, rfl⟩

end Clients

end CouponDesk.Relational
