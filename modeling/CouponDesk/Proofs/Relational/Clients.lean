import CouponDesk.Proofs.Relational.Programs

/-!
# An attempt that is left alone

When an attempt sends its statements in a row, its stages and programs come to what the attempt comes
to that makes its requests right away; so the clients whose statements are sent among each other are
made of the operations that a single claim is made of.
-/

set_option autoImplicit false

namespace CouponDesk.Relational.Clients

theorem put_put (s : Clients) (n : Nat) (client client' : Client) (pool pool' : Pool) :
    (s.put n client pool).put n client' pool' = s.put n client' pool' := by
  simp [put]

theorem getElem?_put_self {s : Clients} (n : Nat) (client client' : Client) (pool : Pool)
    (known : s.all[n]? = some client) : (s.put n client' pool).all[n]? = some client' :=
  List.getElem?_set_self (List.getElem?_eq_some_iff.mp known).1

theorem run_append (first second : List Event) (s : Clients) :
    run (first ++ second) s = (run first s).bind (run second) := by
  induction first generalizing s with
  | nil => rfl
  | cons event rest ih => simp only [List.cons_append, run, Option.bind_eq_bind, Option.bind_assoc, ih]

/-- The statements of a program lead an attempt to the stage that the program comes to. -/
theorem sends_program (n : Nat) (rest : Program Stage) (s : Clients) (a : Attempt)
    (known : s.all[n]? = some (.attempt a)) (goesOn : a.isOver = false) (same : a.rest = rest)
    (more : ∀ next, rest ≠ .done next) :
    ∃ count, run (List.replicate count (.send n)) s =
      some (s.put n (.attempt (a.enter (rest.run (Pool.send (some n)) s.pool).1))
        ((a.enter (rest.run (Pool.send (some n)) s.pool).1).leave n
          (rest.run (Pool.send (some n)) s.pool).2)) := by
  induction rest generalizing s a with
  | done next => exact absurd rfl (more next)
  | ask q resume ih =>
      have step : s.act (.send n) = some (s.put n
          (.attempt (a.proceed (resume (s.pool.send (some n) q).1)))
          ((a.proceed (resume (s.pool.send (some n) q).1)).leave n (s.pool.send (some n) q).2)) := by
        simp only [act, receive, known, same]
        rfl
      have unfolded : (Program.ask q resume).run (Pool.send (some n)) s.pool =
          (resume (s.pool.send (some n) q).1).run (Pool.send (some n))
            (s.pool.send (some n) q).2 := rfl
      rw [unfolded]
      cases left : resume (s.pool.send (some n) q).1 with
      | done next =>
          refine ⟨1, ?_⟩
          rw [left] at step
          simp only [List.replicate_one, run, step]
          rfl
      | ask q' resume' =>
          -- Between two statements of the program the attempt stays at its stage.
          let between : Attempt := { a with rest := .ask q' resume' }
          have stays : between.leave n (s.pool.send (some n) q).2 = (s.pool.send (some n) q).2 :=
            if_neg (by simpa [between, Attempt.isOver] using goesOn)
          have moved : a.proceed (.ask q' resume') = between := rfl
          rw [left, moved, stays] at step
          have known' := getElem?_put_self n _ (.attempt between) (s.pool.send (some n) q).2 known
          obtain ⟨count, runs⟩ := ih (s.pool.send (some n) q).1 _ between known' goesOn left.symm
            (by simp [left])
          refine ⟨count + 1, ?_⟩
          rw [List.replicate_succ]
          simp only [run, step, Option.bind_eq_bind, Option.bind_some, runs, put_put, left]
          rfl

theorem run_program {now : Int} {user coupon : String} {stage : Stage} {request : Request}
    {resume : request.Reply → Stage} (n : Nat)
    (asks : stage.turn user coupon = .ask request resume) :
    (program now user coupon stage).run (Pool.send (some n)) =
      Records.perform .sqlite (Pool.send (some n)) now request >>= fun reply =>
        pure (resume reply) := by
  unfold program
  rw [asks]
  simp only [Program.run_bind, Records.run_perform]
  rfl

/-- An attempt whose statements are sent one after another comes to what `attempt` comes to in its
transaction, and what is left of the transaction is dropped. -/
theorem sends_attempt (n : Nat) (stage : Stage) (s : Clients) (a : Attempt)
    (known : s.all[n]? = some (.attempt a)) (goesOn : a.isOver = false) (here : a.stage = stage)
    (fresh : a.rest = program a.now a.user a.coupon stage) (result : Except Error Claim)
    (pool : Pool)
    (comes : stage.run (Records.perform .sqlite (Pool.send (some n)) a.now) a.user a.coupon s.pool =
      (result, pool)) :
    ∃ count, run (List.replicate count (.send n)) s =
      some (s.put n (.attempt (a.enter (.settled result))) (pool.dropTxn n)) := by
  cases turned : stage.turn a.user a.coupon with
  | answer answered =>
      cases stage <;> simp only [Stage.turn, reduceCtorEq] at turned
      simp [Attempt.isOver, here] at goesOn
  | ask request resume =>
      have more : ∀ next, program a.now a.user a.coupon stage ≠ .done next := by
        intro next
        cases stage <;> cases turned <;> intro same <;> cases same
      obtain ⟨count, runs⟩ := sends_program n _ s a known goesOn fresh more
      rw [run_program n turned] at runs
      rw [Stage.run_of_ask _ _ _ stage request resume turned] at comes
      cases performed : Records.perform .sqlite (Pool.send (some n)) a.now request s.pool with
      | mk reply between =>
          have reached : (Records.perform .sqlite (Pool.send (some n)) a.now request >>=
              fun reply => pure (resume reply)) s.pool = (resume reply, between) := by
            rw [bind_state, performed]
            rfl
          rw [reached] at runs
          have onward : (resume reply).run (Records.perform .sqlite (Pool.send (some n)) a.now)
              a.user a.coupon between = (result, pool) := by
            rw [← comes, bind_state, performed]
          cases settles : (a.enter (resume reply)).isOver with
          | true =>
              cases settled : resume reply with
              | settled answered =>
                  rw [settled, Stage.run_settled] at onward
                  cases onward
                  rw [settled] at runs
                  exact ⟨count, runs⟩
              | _ => simp [Attempt.isOver, Attempt.enter, settled] at settles
          | false =>
              have stays : (a.enter (resume reply)).leave n between = between :=
                if_neg (by simpa using settles)
              rw [stays] at runs
              have lower := Stage.rank_resume_lt turned reply
              obtain ⟨count', runs'⟩ := sends_attempt n (resume reply) _ (a.enter (resume reply))
                (getElem?_put_self n _ _ _ known) settles rfl rfl result pool onward
              refine ⟨count + count', ?_⟩
              rw [← List.replicate_append_replicate, run_append, runs, Option.bind_some, runs', put_put]
              rfl
termination_by stage.rank

end CouponDesk.Relational.Clients
