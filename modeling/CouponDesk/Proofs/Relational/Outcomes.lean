import CouponDesk.Proofs.Claiming.Stages
import CouponDesk.Proofs.Relational.Decisions

/-!
# What the answers of a datastore amount to

An attempt on a datastore that answers as it likes.  The first answer that decides the attempt makes
its result, and nothing but a rollback follows; what the datastore reports is turned into one of the
domain's own errors only where that error is true.
-/

set_option autoImplicit false

namespace CouponDesk.Relational

/-! ## The statements of an attempt -/

def lookupPlan (d : Dialect) (coupon : String) : List Statement :=
  if d.locksRows then [.findCoupon coupon true]
  else [.touchCoupon coupon, .findCoupon coupon false]

def insertPlan (d : Dialect) (user coupon : String) (now : Int) (id : Nat) : List Statement :=
  if d.returnsInserted then [.addClaimReturning user coupon now]
  else [.addClaim user coupon now, .findClaim id]

/-- The statements of an attempt before it ends its transaction; `id` is that of the inserted
claim. -/
def statementPlan (d : Dialect) (user coupon : String) (now : Int) (id : Nat) : List Statement :=
  .begin :: (lookupPlan d coupon ++ (insertPlan d user coupon now id ++
    [.takeUnit coupon, .findCoupon coupon false]))

def Reports (log : List Served) (claim : Claim) : Prop :=
  (∃ user coupon now, ⟨.addClaimReturning user coupon now, .ok (some claim)⟩ ∈ log) ∨
    ∃ id, ⟨.findClaim id, .ok (some claim)⟩ ∈ log

/-- What the statements of an attempt say about its result. -/
structure Classified (d : Dialect) (now : Int) (user coupon : String) (store : Server)
    (result : Except Error Claim) (log : List Served) : Prop where
  answers : store.Answers log
  planned : ∃ id steps ends, log.map (·.statement) = steps ++ ends ∧
    steps <+: statementPlan d user coupon now id ∧
    (ends = [] ∨ ends = [.commit] ∨ ends = [.rollback])
  /-- The result is an error exactly if an answer decides for it. -/
  decided : ∀ e, result = .error e ↔ DecidedFor user coupon log e
  /-- The first answer that decides is the last that counts. -/
  first : ∀ before x after e, log = before ++ x :: after →
    Decides user coupon (affected? before) x e →
    Undecided user coupon before ∧ ∀ y ∈ after, y.statement = .rollback
  granted : (∃ claim, result = .ok claim) ↔ Undecided user coupon log
  /-- Without a failure all statements are sent, and the commit is granted. -/
  complete : ∀ claim, result = .ok claim → Reports log claim ∧ ⟨.commit, .ok ()⟩ ∈ log ∧
    ∃ id, log.map (·.statement) = statementPlan d user coupon now id ++ [.commit]
  success : Outcome.of result = .success ↔ Undecided user coupon log
  missing : Outcome.of result = .couponNotFound ↔ DecidedFor user coupon log (.couponNotFound coupon)
  soldOut : Outcome.of result = .noStock ↔ DecidedFor user coupon log (.noStock coupon)
  claimed : Outcome.of result = .alreadyClaimed ↔
    ∃ before x after, log = before ++ x :: after ∧ Undecided user coupon before ∧
      x.inserts = true ∧ x.fault? = some (.violation .unique)
  transient : Outcome.of result = .transientFailure ↔
    ∃ f, DecidedFor user coupon log (.database f)

/-! ## Where an attempt stands -/

section

variable (d : Dialect) (now : Int) (user coupon : String)

structure Clear (log : List Served) (steps : List Statement) (affected : Option Nat) : Prop where
  undecided : Undecided user coupon log
  affected : affected? log = affected
  statements : log.map (·.statement) = steps

structure Stopped (log : List Served) (e : Error) : Prop where
  decides : ∃ before x, log = before ++ [x] ∧ Undecided user coupon before ∧
    Decides user coupon (affected? before) x e
  planned : ∃ id, log.map (·.statement) <+: statementPlan d user coupon now id

/-- The statements after which an attempt stands at a stage. -/
def Stands (log : List Served) : Stage → Prop
  | .opening => log = []
  | .locking => Clear user coupon log [.begin] none
  | .inserting => Clear user coupon log (.begin :: lookupPlan d coupon) none
  | .taking claim => Reports log claim ∧ ∃ id,
      Clear user coupon log (.begin :: (lookupPlan d coupon ++ insertPlan d user coupon now id)) none
  | .committing claim => Reports log claim ∧ Undecided user coupon log ∧
      ∃ id, log.map (·.statement) = statementPlan d user coupon now id
  | .undoing e => Stopped d now user coupon log e
  | .settled _ => False

inductive Concludes (log : List Served) : Except Error Claim → Prop
  | granted (claim : Claim) (id : Nat) (undecided : Undecided user coupon log)
      (reports : Reports log claim) (committed : ⟨.commit, .ok ()⟩ ∈ log)
      (planned : log.map (·.statement) = statementPlan d user coupon now id ++ [.commit]) :
      Concludes log (.ok claim)
  | refused (e : Error) (before : List Served) (x : Served) (after : List Served)
      (split : log = before ++ x :: after) (undecided : Undecided user coupon before)
      (decides : Decides user coupon (affected? before) x e)
      (rest : ∀ y ∈ after, y.statement = .rollback)
      (planned : ∃ id steps ends, log.map (·.statement) = steps ++ ends ∧
        steps <+: statementPlan d user coupon now id ∧
        (ends = [] ∨ ends = [.commit] ∨ ends = [.rollback])) :
      Concludes log (.error e)

end

section

variable {d : Dialect} {now : Int} {user coupon : String} {store : Server} {log : List Served}
  {steps : List Statement} {affected : Option Nat}

namespace Clear

theorem snoc (clear : Clear user coupon log steps affected) (x : Served)
    (free : ∀ e, ¬ Decides user coupon affected x e) :
    Clear user coupon (log ++ [x]) (steps ++ [x.statement]) (affected.or x.affected?) where
  undecided := clear.undecided.snoc x (by rwa [clear.affected])
  affected := by rw [affected?_snoc, clear.affected]
  statements := by rw [List.map_append, clear.statements]; rfl

theorem stops (clear : Clear user coupon log steps affected) (x : Served) (e : Error)
    (decides : Decides user coupon affected x e)
    (planned : ∃ id, steps ++ [x.statement] <+: statementPlan d user coupon now id) :
    Stopped d now user coupon (log ++ [x]) e where
  decides := ⟨log, x, rfl, clear.undecided, by rwa [clear.affected]⟩
  planned := by
    rw [List.map_append, clear.statements]
    exact planned

/-- A fault of any statement but an insert is passed on. -/
theorem fails (clear : Clear user coupon log steps affected) (q : Statement) (f : DatabaseFault)
    (counts : q ≠ .rollback) (other : Served.inserts ⟨q, .error f⟩ = false)
    (planned : ∃ id, steps ++ [q] <+: statementPlan d user coupon now id) :
    Stopped d now user coupon (log ++ [⟨q, .error f⟩]) (.database f) :=
  clear.stops ⟨q, .error f⟩ _ (.failed _ f rfl counts (by simp [other])) planned

end Clear

/-! ## From stage to stage -/

theorem lookupPlan_starts (id : Nat) :
    .begin :: lookupPlan d coupon <+: statementPlan d user coupon now id :=
  List.cons_prefix_cons.mpr ⟨rfl, List.prefix_append _ _⟩

theorem insertPlan_starts (id : Nat) :
    .begin :: (lookupPlan d coupon ++ insertPlan d user coupon now id) <+:
      statementPlan d user coupon now id := by
  refine List.cons_prefix_cons.mpr ⟨rfl, ?_⟩
  rw [List.prefix_append_right_inj]
  exact List.prefix_append _ _

def found (coupon : String) : Except DatabaseFault (Option Coupon) → Stage
  | .error f => .undoing (.database f)
  | .ok none => .undoing (.couponNotFound coupon)
  | .ok (some row) => Stage.checkStock coupon row

theorem Clear.found (clear : Clear user coupon log steps none) (locking : Bool)
    (whole : steps ++ [.findCoupon coupon locking] = .begin :: lookupPlan d coupon)
    (reply : (Statement.findCoupon coupon locking).Reply) :
    Stands d now user coupon (log ++ [⟨.findCoupon coupon locking, reply⟩])
      (found coupon reply) := by
  have planned : ∃ id, steps ++ [.findCoupon coupon locking] <+:
      statementPlan d user coupon now id := ⟨0, by rw [whole]; exact lookupPlan_starts 0⟩
  cases reply with
  | error f => exact clear.fails _ f (by simp) rfl planned
  | ok row? =>
      cases row? with
      | none => exact clear.stops _ _ (.unknown coupon locking rfl) planned
      | some row =>
          unfold Relational.found Stage.checkStock
          dsimp only
          split
          · rename_i empty
            exact clear.stops _ _ (.soldOut coupon locking row rfl empty) planned
          · rename_i stock
            have next := clear.snoc ⟨.findCoupon coupon locking, .ok (some row)⟩ (by
              intro e decides
              cases decides with
              | soldOut _ _ _ locked empty => exact stock empty
              | _ => simp_all [Served.fault?, Served.inserts])
            rw [whole] at next
            exact next

def afterLock (coupon : String) : Except Error Coupon → Stage
  | .ok row => Stage.checkStock coupon row
  | .error e => .undoing e

theorem ensures_lock (clear : Clear user coupon log [.begin] none) :
    store.Ensures (Records.lock d store.send coupon) log fun log' reply =>
      Stands d now user coupon log' (afterLock coupon reply) := by
  unfold Records.lock Records.findForUpdate
  refine store.ensures_bind ?_
  by_cases locks : d.locksRows = true
  · rw [if_pos locks]
    refine store.ensures_bind (store.ensures_send _ fun reply => ?_)
    have stands : Stands d now user coupon _ (found coupon reply) :=
      clear.found true (by simp [lookupPlan, locks]) reply
    cases reply with
    | error f => exact store.ensures_pure _ (store.ensures_pure _ stands)
    | ok row? => cases row? <;> exact store.ensures_pure _ (store.ensures_pure _ stands)
  · rw [if_neg locks]
    refine store.ensures_bind (store.ensures_send _ fun reply => ?_)
    cases reply with
    | error f =>
        refine store.ensures_pure _ (store.ensures_pure _ ?_)
        exact clear.fails _ f (by simp) rfl ⟨0, by simp [statementPlan, lookupPlan, locks]⟩
    | ok effect =>
        have touched := clear.snoc ⟨.touchCoupon coupon, .ok effect⟩
          (Served.not_decides rfl (by simp))
        unfold Records.findCoupon
        refine store.ensures_bind (store.ensures_send _ fun reply => ?_)
        have stands : Stands d now user coupon _ (found coupon reply) :=
          touched.found false (by simp [lookupPlan, locks]) reply
        cases reply with
        | error f => exact store.ensures_pure _ (store.ensures_pure _ stands)
        | ok row? => cases row? <;> exact store.ensures_pure _ (store.ensures_pure _ stands)

variable (d now user coupon) in
/-- The last of these statements is an insert that went wrong. -/
def InsertFailed (log : List Served) (f : DatabaseFault) : Prop :=
  ∃ before steps x, log = before ++ [x] ∧ Clear user coupon before steps none ∧
    (∃ id, steps ++ [x.statement] <+: statementPlan d user coupon now id) ∧ x.inserts = true ∧
    x.fault? = some f

def afterInsert : Except Error Claim → Stage
  | .ok claim => .taking claim
  | .error e => .undoing e

theorem InsertFailed.stops {f : DatabaseFault} (failed : InsertFailed d now user coupon log f)
    (e : Error) (decides : ∀ x : Served, x.inserts = true → x.fault? = some f →
      Decides user coupon none x e) : Stopped d now user coupon log e := by
  obtain ⟨before, steps, x, rfl, clear, planned, inserts, fault⟩ := failed
  exact clear.stops x e (decides x inserts fault) planned

/-- An insert that went well decides nothing, and neither does the row that is read back. -/
theorem Clear.inserted (clear : Clear user coupon log steps none) (x : Served)
    (inserts : x.inserts = true) (fine : x.fault? = none) :
    Clear user coupon (log ++ [x]) (steps ++ [x.statement]) none := by
  have unaffected : x.affected? = none := by
    obtain ⟨q, reply⟩ := x
    cases q with
    | takeUnit name => cases inserts
    | _ => rfl
  have next := clear.snoc x (Served.not_decides fine fun name locking same => by
    simp [Served.inserts, same] at inserts)
  rwa [unaffected] at next

variable (d now user coupon) in
def Inserted (log : List Served) : Except DatabaseFault Claim → Prop
  | .ok claim => Stands d now user coupon log (.taking claim)
  | .error f => InsertFailed d now user coupon log f

/-- Where an insert gives the row back, it is one statement. -/
theorem ensures_addClaim_returning (returns : d.returnsInserted = true)
    (clear : Clear user coupon log (.begin :: lookupPlan d coupon) none) :
    store.Ensures (Records.addClaim d store.send user coupon now) log
      (Inserted d now user coupon) := by
  have planned : ∀ id, insertPlan d user coupon now id = [.addClaimReturning user coupon now] :=
    fun id => if_pos returns
  have whole : ∃ id, (.begin :: lookupPlan d coupon) ++ [.addClaimReturning user coupon now] <+:
      statementPlan d user coupon now id :=
    ⟨0, by rw [← planned 0]; exact insertPlan_starts 0⟩
  unfold Records.addClaim
  rw [if_pos returns]
  refine store.ensures_bind (store.ensures_send _ fun reply => ?_)
  cases reply with
  | error f => exact store.ensures_pure _ ⟨log, _, _, rfl, clear, whole, rfl, rfl⟩
  | ok claim? =>
      cases claim? with
      | none => exact store.ensures_pure _ ⟨log, _, _, rfl, clear, whole, rfl, rfl⟩
      | some claim =>
          refine store.ensures_pure _ ⟨Or.inl ⟨user, coupon, now, by simp⟩, 0, ?_⟩
          rw [planned]
          exact clear.inserted ⟨.addClaimReturning user coupon now, .ok (some claim)⟩ rfl rfl

def readBack : Except DatabaseFault (Option Claim) → Except DatabaseFault Claim
  | .ok (some claim) => .ok claim
  | .ok none => .error Records.insertedMissing
  | .error f => .error f

/-- The inserted row is read back by its id. -/
theorem ensures_findClaim (id : Nat) {before : List Statement}
    (added : Clear user coupon log before none)
    (whole : before ++ [.findClaim id] =
      .begin :: (lookupPlan d coupon ++ insertPlan d user coupon now id)) :
    store.Ensures (store.send (.findClaim id)) log fun log' reply =>
      Inserted d now user coupon log' (readBack reply) := by
  have starts : ∃ id', before ++ [.findClaim id] <+: statementPlan d user coupon now id' :=
    ⟨id, whole ▸ insertPlan_starts id⟩
  refine store.ensures_send _ fun reply => ?_
  cases reply with
  | error f => exact ⟨_, _, _, rfl, added, starts, rfl, rfl⟩
  | ok claim? =>
      cases claim? with
      | none => exact ⟨_, _, _, rfl, added, starts, rfl, rfl⟩
      | some claim =>
          refine ⟨Or.inr ⟨id, by simp⟩, id, ?_⟩
          rw [← whole]
          exact added.inserted ⟨.findClaim id, .ok (some claim)⟩ rfl rfl

/-- Where an insert gives no row back, the row is read afterwards. -/
theorem ensures_addClaim_reading (reads : d.returnsInserted ≠ true)
    (clear : Clear user coupon log (.begin :: lookupPlan d coupon) none) :
    store.Ensures (Records.addClaim d store.send user coupon now) log
      (Inserted d now user coupon) := by
  have planned : ∀ id, insertPlan d user coupon now id =
      [.addClaim user coupon now, .findClaim id] := fun id => if_neg reads
  have whole : ∃ id, (.begin :: lookupPlan d coupon) ++ [.addClaim user coupon now] <+:
      statementPlan d user coupon now id := by
    refine ⟨0, List.IsPrefix.trans ?_ (insertPlan_starts 0)⟩
    rw [planned]
    exact List.cons_prefix_cons.mpr ⟨rfl, (List.prefix_append_right_inj _).mpr (by simp)⟩
  unfold Records.addClaim
  rw [if_neg reads]
  refine store.ensures_bind (store.ensures_send _ fun reply => ?_)
  cases reply with
  | error f => exact store.ensures_pure _ ⟨log, _, _, rfl, clear, whole, rfl, rfl⟩
  | ok effect =>
      dsimp only
      split
      · rename_i nothing
        exact store.ensures_pure _ ⟨log, _, _, rfl, clear, whole, rfl, if_pos nothing⟩
      · rename_i changed
        split
        · rename_i large
          refine store.ensures_pure _ ⟨log, _, _, rfl, clear, whole, rfl, ?_⟩
          exact (if_neg changed).trans (if_pos large)
        · rename_i fits
          have added := clear.inserted ⟨.addClaim user coupon now, .ok effect⟩ rfl
            ((if_neg changed).trans (if_neg fits))
          have read : store.Ensures _ _ fun log' reply =>
              Inserted d now user coupon log' (readBack reply) :=
            ensures_findClaim effect.lastId added (by rw [planned]; simp)
          refine store.ensures_bind (read.mono fun log' reply inserted => ?_)
          cases reply with
          | error f => exact store.ensures_pure _ inserted
          | ok claim? => cases claim? <;> exact store.ensures_pure _ inserted

theorem ensures_addClaim (clear : Clear user coupon log (.begin :: lookupPlan d coupon) none) :
    store.Ensures (Records.addClaim d store.send user coupon now) log
      (Inserted d now user coupon) := by
  by_cases returns : d.returnsInserted = true
  · exact ensures_addClaim_returning returns clear
  · exact ensures_addClaim_reading returns clear

theorem ensures_insertClaim
    (clear : Clear user coupon log (.begin :: lookupPlan d coupon) none) :
    store.Ensures (Records.insertClaim d store.send now user coupon) log fun log' reply =>
      Stands d now user coupon log' (afterInsert reply) := by
  unfold Records.insertClaim
  refine store.ensures_bind ((ensures_addClaim clear).mono fun log' reply added => ?_)
  split
  · exact store.ensures_pure _ added
  · exact store.ensures_pure _ (added.stops _ fun x inserts fault => .repeated x inserts fault)
  · exact store.ensures_pure _ (added.stops _ fun x inserts fault => .unreferenced x inserts fault)
  · rename_i f notUnique notForeign
    refine store.ensures_pure _ (added.stops _ fun x inserts fault => ?_)
    refine .failed x f fault ?_ fun _ => ⟨fun same => notUnique (by rw [same]),
      fun same => notForeign (by rw [same])⟩
    intro same
    simp [Served.inserts, same] at inserts

theorem Reports.append {claim : Claim} (reports : Reports log claim) (more : List Served) :
    Reports (log ++ more) claim := by
  rcases reports with ⟨user, coupon, now, member⟩ | ⟨id, member⟩
  · exact Or.inl ⟨user, coupon, now, List.mem_append_left _ member⟩
  · exact Or.inr ⟨id, List.mem_append_left _ member⟩

def afterTake (claim : Claim) : Except Error Coupon → Stage
  | .ok _ => .committing claim
  | .error e => .undoing e

/-- The reply to the taking of a unit, by the number of changed rows and the row that is read
afterwards. -/
def taken (coupon : String) (count : Nat) :
    Except DatabaseFault (Option Coupon) → Except Error Coupon
  | .error f => .error (.database f)
  | .ok none => .error (.couponNotFound coupon)
  | .ok (some row) => if count = 0 then .error (.noStock coupon) else .ok row

/-- The row is read again before the number of changed rows is looked at. -/
theorem Clear.reread {claim : Claim} {id count : Nat}
    (updated : Clear user coupon log steps (some count)) (reports : Reports log claim)
    (whole : steps ++ [.findCoupon coupon false] = statementPlan d user coupon now id)
    (reply : (Statement.findCoupon coupon false).Reply) :
    Stands d now user coupon (log ++ [⟨.findCoupon coupon false, reply⟩])
      (afterTake claim (taken coupon count reply)) := by
  have planned : ∃ id, steps ++ [.findCoupon coupon false] <+:
      statementPlan d user coupon now id := ⟨id, whole ▸ List.prefix_refl _⟩
  cases reply with
  | error f => exact updated.fails _ f (by simp) rfl planned
  | ok row? =>
      cases row? with
      | none => exact updated.stops _ _ (.vanished coupon false count rfl) planned
      | some row =>
          by_cases nothing : count = 0
          · simp only [taken, if_pos nothing]
            exact updated.stops _ _ (.exhausted coupon false row (congrArg some nothing)) planned
          · simp only [taken, if_neg nothing]
            have read := updated.snoc ⟨.findCoupon coupon false, .ok (some row)⟩ (by
              intro e decides
              cases decides with
              | exhausted _ _ _ updated => exact nothing (Option.some.inj updated)
              | _ => simp_all [Served.fault?, Served.inserts])
            exact ⟨reports.append _, read.undecided, id, read.statements.trans whole⟩

theorem ensures_takeUnit (claim : Claim) (id : Nat)
    (clear : Clear user coupon log
      (.begin :: (lookupPlan d coupon ++ insertPlan d user coupon now id)) none)
    (reports : Reports log claim) :
    store.Ensures (Records.takeUnit store.send coupon) log fun log' reply =>
      Stands d now user coupon log' (afterTake claim reply) := by
  have whole : ((.begin :: (lookupPlan d coupon ++ insertPlan d user coupon now id)) ++
      [.takeUnit coupon]) ++ [.findCoupon coupon false] =
      statementPlan d user coupon now id := by
    simp [statementPlan]
  unfold Records.takeUnit
  refine store.ensures_bind (store.ensures_send _ fun reply => ?_)
  cases reply with
  | error f =>
      refine store.ensures_pure _ (clear.fails _ f (by simp) rfl ⟨id, ?_⟩)
      rw [← whole]
      exact List.prefix_append _ _
  | ok effect =>
      have updated := clear.snoc ⟨.takeUnit coupon, .ok effect⟩
        (Served.not_decides rfl (by simp))
      unfold Records.findCoupon
      refine store.ensures_bind (store.ensures_bind (store.ensures_send _ fun reply => ?_))
      have stands : Stands d now user coupon _ (afterTake claim (taken coupon _ reply)) :=
        updated.reread (reports.append _) whole reply
      cases reply with
      | error f => exact store.ensures_pure _ (store.ensures_pure _ stands)
      | ok row? =>
          cases row? with
          | none => exact store.ensures_pure _ (store.ensures_pure _ stands)
          | some row =>
              refine store.ensures_pure _ ?_
              simp only [taken] at stands
              dsimp only
              split at stands <;> rename_i counted
              · rw [if_pos counted]
                exact store.ensures_pure _ stands
              · rw [if_neg counted]
                exact store.ensures_pure _ stands

/-- A reply leads on to the next stage, or it is the last. -/
theorem Stands.step {stage : Stage} (stands : Stands d now user coupon log stage)
    (request : Request) (resume : request.Reply → Stage)
    (asks : stage.turn user coupon = .ask request resume) :
    store.Ensures (Records.perform d store.send now request) log fun log' reply =>
      Stands d now user coupon log' (resume reply) ∨
        ∃ result, resume reply = .settled result ∧
          Concludes d now user coupon log' result := by
  cases stage with
  | opening =>
      cases asks
      cases stands
      refine store.ensures_bind (store.ensures_send _ fun reply => ?_)
      cases reply with
      | ok value =>
          refine store.ensures_pure _ (Or.inl ⟨?_, rfl, rfl⟩)
          exact Undecided.nil.snoc _ (Served.not_decides rfl (by simp))
      | error f =>
          refine store.ensures_pure _ (Or.inr ⟨_, rfl, .refused _ [] _ [] rfl .nil ?_ (by simp)
            ⟨0, [.begin], [], rfl, by simp [statementPlan], Or.inl rfl⟩⟩)
          exact .failed _ f rfl (by simp) (by simp [Served.inserts])
  | locking =>
      cases asks
      have locked : store.Ensures _ log fun log' reply =>
        Stands d now user coupon log' (afterLock coupon reply) := ensures_lock stands
      refine locked.mono fun log' reply next => Or.inl ?_
      cases reply <;> exact next
  | inserting =>
      cases asks
      refine (ensures_insertClaim stands).mono fun log' reply next => Or.inl ?_
      cases reply <;> exact next
  | taking claim =>
      cases asks
      obtain ⟨reports, id, clear⟩ := stands
      refine (ensures_takeUnit claim id clear reports).mono fun log' reply next => Or.inl ?_
      cases reply <;> exact next
  | committing claim =>
      cases asks
      obtain ⟨reports, undecided, id, planned⟩ := stands
      have sent : ∀ reply, (log ++ [(⟨.commit, reply⟩ : Served)]).map (·.statement) =
          statementPlan d user coupon now id ++ [.commit] := by
        intro reply
        rw [List.map_append, planned]
        rfl
      refine store.ensures_bind (store.ensures_send _ fun reply => ?_)
      cases reply with
      | ok value =>
          obtain ⟨⟩ : Unit := value
          refine store.ensures_pure _ (Or.inr ⟨_, rfl, .granted claim id ?_ (reports.append _)
            (by simp) (sent _)⟩)
          exact undecided.snoc _ (Served.not_decides rfl (by simp))
      | error f =>
          refine store.ensures_pure _ (Or.inr ⟨_, rfl, .refused _ log _ [] rfl undecided ?_
            (by simp) ⟨id, _, [.commit], sent _, List.prefix_refl _, by simp⟩⟩)
          exact .failed _ f rfl (by simp) (by simp [Served.inserts])
  | undoing e =>
      cases asks
      obtain ⟨⟨before, x, rfl, undecided, decides⟩, id, planned⟩ := stands
      refine store.ensures_bind (store.ensures_send _ fun reply => ?_)
      refine store.ensures_pure _ (Or.inr ⟨_, rfl, .refused e before x [⟨.rollback, reply⟩]
        (by simp) undecided decides (by simp) ⟨id, _, [.rollback], ?_, planned, by simp⟩⟩)
      rw [List.map_append]
      rfl
  | settled result => exact stands.elim

theorem Stands.asks {stage : Stage} (stands : Stands d now user coupon log stage) :
    ∃ request resume, stage.turn user coupon = .ask request resume := by
  cases stage with
  | settled result => exact stands.elim
  | _ => exact ⟨_, _, rfl⟩

/-- From a stage to which its statements have led, an attempt goes on to its end. -/
theorem Stands.run (stage : Stage) (log : List Served)
    (stands : Stands d now user coupon log stage) :
    store.Ensures (stage.run (Records.perform d store.send now) user coupon) log
      (Concludes d now user coupon) := by
  obtain ⟨request, resume, asks⟩ := stands.asks
  rw [Stage.run_of_ask _ _ _ _ request resume asks]
  refine store.ensures_bind ((stands.step request resume asks).mono fun log' reply next => ?_)
  rcases next with stands | ⟨result, last, concludes⟩
  · exact Stands.run (resume reply) log' stands
  · rw [last, Stage.run_settled]
    exact store.ensures_pure _ concludes
termination_by stage.rank
decreasing_by exact Stage.rank_resume_lt asks reply

/-! ## The result -/

namespace Concludes

variable {result : Except Error Claim} (concludes : Concludes d now user coupon log result)

include concludes

theorem eq_error_iff (e : Error) : result = .error e ↔ DecidedFor user coupon log e := by
  cases concludes with
  | granted claim id undecided reports committed planned =>
      exact iff_of_false (by simp) (undecided.not_decided e)
  | refused given before x after split undecided decides rest planned =>
      constructor
      · rintro ⟨⟩
        exact ⟨before, x, after, split, decides⟩
      · rintro ⟨before', y, after', split', decides'⟩
        have same := decided_unique undecided decides rest (split.symm.trans split') decides'
        rw [same.2.2.2]

theorem eq_ok_iff : (∃ claim, result = .ok claim) ↔ Undecided user coupon log := by
  cases concludes with
  | granted claim id undecided reports committed planned =>
      exact iff_of_true ⟨claim, rfl⟩ undecided
  | refused given before x after split undecided decides rest planned =>
      exact iff_of_false (by simp) fun all => all before x after split given decides

theorem first (before : List Served) (x : Served) (after : List Served) (e : Error)
    (split : log = before ++ x :: after) (decides : Decides user coupon (affected? before) x e) :
    Undecided user coupon before ∧ ∀ y ∈ after, y.statement = .rollback := by
  cases concludes with
  | granted claim id undecided reports committed planned =>
      exact absurd decides (undecided before x after split e)
  | refused given before' y after' split' undecided decides' rest planned =>
      obtain ⟨rfl, -, rfl, -⟩ :=
        decided_unique undecided decides' rest (split'.symm.trans split) decides
      exact ⟨undecided, rest⟩

theorem planned : ∃ id steps ends, log.map (·.statement) = steps ++ ends ∧
    steps <+: statementPlan d user coupon now id ∧
    (ends = [] ∨ ends = [.commit] ∨ ends = [.rollback]) := by
  cases concludes with
  | granted claim id undecided reports committed planned =>
      exact ⟨id, _, [.commit], planned, List.prefix_refl _, Or.inr (Or.inl rfl)⟩
  | refused given before x after split undecided decides rest planned => exact planned

/-- The error of a refused attempt is that of the answer which decides it. -/
theorem outcome_eq_iff (o : Outcome) (fails : o ≠ .success) :
    Outcome.of result = o ↔ ∃ e, DecidedFor user coupon log e ∧ Outcome.ofError e = o := by
  cases held : result with
  | ok claim =>
      refine iff_of_false (fun same => fails same.symm) ?_
      rintro ⟨e, decided, -⟩
      rw [← concludes.eq_error_iff, held] at decided
      cases decided
  | error e =>
      constructor
      · exact fun same => ⟨e, (concludes.eq_error_iff e).mp held, same⟩
      · rintro ⟨e', decided, same⟩
        rw [← concludes.eq_error_iff, held] at decided
        cases decided
        exact same

theorem classified (answers : store.Answers log) :
    Classified d now user coupon store result log where
  answers := answers
  planned := concludes.planned
  decided := concludes.eq_error_iff
  first := concludes.first
  granted := concludes.eq_ok_iff
  complete := by
    rintro claim rfl
    cases concludes with
    | granted _ id undecided reports committed planned => exact ⟨reports, committed, id, planned⟩
  success := by
    rw [← concludes.eq_ok_iff]
    cases result with
    | ok claim => simp [Outcome.of]
    | error e => cases e <;> simp [Outcome.of, Outcome.ofError, Error.kind]
  missing := by
    rw [concludes.outcome_eq_iff _ (by simp)]
    constructor
    · rintro ⟨e, decided, same⟩
      obtain rfl : e = .couponNotFound coupon := decided.eq_of_outcome same
      exact decided
    · exact fun decided => ⟨_, decided, rfl⟩
  soldOut := by
    rw [concludes.outcome_eq_iff _ (by simp)]
    constructor
    · rintro ⟨e, decided, same⟩
      obtain rfl : e = .noStock coupon := decided.eq_of_outcome same
      exact decided
    · exact fun decided => ⟨_, decided, rfl⟩
  claimed := by
    rw [concludes.outcome_eq_iff _ (by simp)]
    constructor
    · rintro ⟨e, ⟨before, x, after, split, decides⟩, same⟩
      have first := concludes.first before x after e split decides
      cases decides with
      | repeated _ inserts fault => exact ⟨before, x, after, split, first.1, inserts, fault⟩
      | _ => cases same
    · rintro ⟨before, x, after, split, -, inserts, fault⟩
      exact ⟨_, ⟨before, x, after, split, .repeated x inserts fault⟩, rfl⟩
  transient := by
    rw [concludes.outcome_eq_iff _ (by simp)]
    constructor
    · rintro ⟨e, decided, same⟩
      obtain ⟨f, rfl⟩ := decided.eq_of_outcome same
      exact ⟨f, decided⟩
    · rintro ⟨f, decided⟩
      exact ⟨_, decided, rfl⟩

end Concludes

/-- On any datastore, whatever it answers, an attempt comes to what the first answer that decides it
says. -/
theorem Server.attempt_classified (store : Server) (d : Dialect) (now : Int)
    (user coupon : String) :
    Classified d now user coupon store (store.attempt d now user coupon).1
      (store.attempt d now user coupon).2 := by
  have opened : Stands d now user coupon [] .opening := rfl
  have fresh : store.Answers [] := by simp [Server.Answers]
  obtain ⟨answers, concludes⟩ := opened.run .opening [] fresh
  exact concludes.classified answers

end

end CouponDesk.Relational
