import CouponDesk.Proofs.Claiming.Stages

/-!
# The protocol of an attempt

An attempt on a store about which nothing is known: it may grant or refuse any request, show any row
under the lock, and let the deadline pass at any point.  What the attempt asks, in which order, and
which answer it comes to are said about the list of its exchanges with the store.
-/

set_option autoImplicit false

namespace CouponDesk

/-- A request with the reply to it; none if the deadline passes before there is one. -/
structure Exchange where
  request : Request
  reply : Option request.Reply

namespace Exchange

@[simp]
def granted (x : Exchange) : Bool :=
  match x.reply with
  | some (.ok _) => true
  | _ => false

@[simp]
def error? (x : Exchange) : Option Error :=
  match x.reply with
  | some (.error e) => some e
  | _ => none

@[simp]
def ends (x : Exchange) : Bool := x.request = .commit || x.request = .rollback

end Exchange

/-- Any store: how it replies to a request may depend on all exchanges before. -/
abbrev Respondent := List Exchange → (r : Request) → Option r.Reply

/-- The exchanges of an attempt, and how often it was dropped. -/
structure Record where
  log : List Exchange := []
  drops : Nat := 0

namespace Respondent

def perform (store : Respondent) (r : Request) : OptionT (StateM Record) r.Reply :=
  OptionT.mk fun record =>
    (store record.log r, { record with log := record.log ++ [⟨r, store record.log r⟩] })

def drop : StateM Record Unit := modify fun record => { record with drops := record.drops + 1 }

def attempt (store : Respondent) (user coupon : String) (deadline : Duration) :
    Except Error Claim × Record :=
  attemptWithin store.perform drop deadline user coupon {}

end Respondent

/-! ## What leads to a stage -/

section

variable (user coupon : String)

@[simp]
def begun : Exchange := ⟨.begin, some (.ok ())⟩

@[simp]
def locked (row : Coupon) : Exchange := ⟨.lock coupon, some (.ok row)⟩

@[simp]
def inserted (claim : Claim) : Exchange := ⟨.insert user coupon, some (.ok claim)⟩

@[simp]
def taken (row : Coupon) : Exchange := ⟨.decrement coupon, some (.ok row)⟩

/-- The exchanges after which an attempt stands at a stage. -/
inductive Trail : List Exchange → Stage → Prop
  | opening : Trail [] .opening
  | locking : Trail [begun] .locking
  | unlocked (e : Error) : Trail [begun, ⟨.lock coupon, some (.error e)⟩] (.undoing e)
  | soldOut (row : Coupon) (empty : row.remaining ≤ 0) :
      Trail [begun, locked coupon row] (.undoing (.noStock coupon))
  | inserting (row : Coupon) (stock : 0 < row.remaining) :
      Trail [begun, locked coupon row] .inserting
  | uninserted (row : Coupon) (stock : 0 < row.remaining) (e : Error) :
      Trail [begun, locked coupon row, ⟨.insert user coupon, some (.error e)⟩] (.undoing e)
  | taking (row : Coupon) (stock : 0 < row.remaining) (claim : Claim) :
      Trail [begun, locked coupon row, inserted user coupon claim] (.taking claim)
  | untaken (row : Coupon) (stock : 0 < row.remaining) (claim : Claim) (e : Error) :
      Trail [begun, locked coupon row, inserted user coupon claim,
        ⟨.decrement coupon, some (.error e)⟩] (.undoing e)
  | committing (row : Coupon) (stock : 0 < row.remaining) (claim : Claim) (left : Coupon) :
      Trail [begun, locked coupon row, inserted user coupon claim, taken coupon left]
        (.committing claim)

end

variable {user coupon : String} {log : List Exchange} {stage : Stage}

/-- A reply leads on to the next stage, or settles the attempt. -/
theorem Trail.step (trail : Trail user coupon log stage) (request : Request)
    (resume : request.Reply → Stage) (asks : stage.turn user coupon = .ask request resume)
    (reply : request.Reply) :
    Trail user coupon (log ++ [⟨request, some reply⟩]) (resume reply) ∨
      ∃ result, resume reply = .settled result := by
  cases trail with
  | opening =>
      cases asks
      cases reply with
      | ok _ => exact Or.inl .locking
      | error e => exact Or.inr ⟨_, rfl⟩
  | locking =>
      cases asks
      cases reply with
      | ok row =>
          left
          dsimp only
          unfold Stage.checkStock
          split
          · rename_i empty
            exact .soldOut row empty
          · rename_i stock
            exact .inserting row (by omega)
      | error e => exact Or.inl (.unlocked e)
  | inserting row stock =>
      cases asks
      cases reply with
      | ok claim => exact Or.inl (.taking row stock claim)
      | error e => exact Or.inl (.uninserted row stock e)
  | taking row stock claim =>
      cases asks
      cases reply with
      | ok left => exact Or.inl (.committing row stock claim left)
      | error e => exact Or.inl (.untaken row stock claim e)
  | committing row stock claim left =>
      cases asks
      cases reply <;> exact Or.inr ⟨_, rfl⟩
  | _ =>
      cases asks
      exact Or.inr ⟨_, rfl⟩

theorem Trail.asks (trail : Trail user coupon log stage) :
    ∃ request resume, stage.turn user coupon = .ask request resume := by
  cases trail <;> exact ⟨_, _, rfl⟩

/-- All exchanges of an attempt with its answer; none if it was cut off. -/
inductive Over (user coupon : String) : List Exchange → Option (Except Error Claim) → Prop
  | settled (log : List Exchange) (stage : Stage) (request : Request)
      (resume : request.Reply → Stage) (reply : request.Reply) (result : Except Error Claim)
      (trail : Trail user coupon log stage) (asks : stage.turn user coupon = .ask request resume)
      (last : resume reply = .settled result) :
      Over user coupon (log ++ [⟨request, some reply⟩]) (some result)
  | late (log : List Exchange) (stage : Stage) (request : Request)
      (resume : request.Reply → Stage) (trail : Trail user coupon log stage)
      (asks : stage.turn user coupon = .ask request resume) :
      Over user coupon (log ++ [⟨request, none⟩]) none

/-- The replies in a list of exchanges are those that the store gives. -/
def Respondent.Answers (store : Respondent) (log : List Exchange) : Prop :=
  ∀ before x after, log = before ++ x :: after → x.reply = store before x.request

theorem Respondent.answers_append {store : Respondent} (answers : store.Answers log)
    (request : Request) : store.Answers (log ++ [⟨request, store log request⟩]) := by
  intro before x after split
  rcases List.eq_nil_or_concat after with rfl | ⟨between, last, rfl⟩
  · obtain ⟨rfl, same⟩ := List.append_inj' split rfl
    cases same
    rfl
  · rw [List.concat_eq_append, ← List.cons_append, ← List.append_assoc] at split
    obtain ⟨earlier, -⟩ := List.append_inj' split rfl
    exact answers before x between earlier

theorem Respondent.run_perform {α : Type} (store : Respondent) (request : Request)
    (resume : request.Reply → OptionT (StateM Record) α) (record : Record) :
    (store.perform request >>= resume).run record =
      match store record.log request with
      | some reply =>
          (resume reply).run { record with log := record.log ++ [⟨request, some reply⟩] }
      | none => (none, { record with log := record.log ++ [⟨request, none⟩] }) := by
  rw [OptionT.run_bind]
  change (store record.log request).elim (pure none : StateM Record (Option α))
    (fun reply => (resume reply).run)
    { record with log := record.log ++ [⟨request, store record.log request⟩] } = _
  cases store record.log request <;> rfl

/-- From a stage to which its exchanges have led, an attempt goes on to its end. -/
theorem run_over (store : Respondent) (stage : Stage) (record : Record)
    (trail : Trail user coupon record.log stage) (answers : store.Answers record.log) :
    ∃ outcome log, (stage.run store.perform user coupon).run record =
        (outcome, { record with log }) ∧ Over user coupon log outcome ∧ store.Answers log := by
  -- Every reply lowers the rank of the stage, and the trail says what the reply adds to the log.
  obtain ⟨request, resume, asks⟩ := trail.asks
  have answered := store.answers_append answers request
  rw [Stage.run_of_ask _ _ _ _ request resume asks, store.run_perform]
  cases replied : store record.log request with
  | none =>
      rw [replied] at answered
      exact ⟨none, _, rfl, .late _ _ request resume trail asks, answered⟩
  | some reply =>
      rw [replied] at answered
      rcases trail.step request resume asks reply with next | ⟨result, last⟩
      · exact run_over store (resume reply)
          { record with log := record.log ++ [⟨request, some reply⟩] } next answered
      · refine ⟨some result, _, ?_, .settled _ _ request resume reply result trail asks last,
          answered⟩
        dsimp only
        rw [last, Stage.run_settled]
        rfl
termination_by stage.rank
decreasing_by exact Stage.rank_resume_lt asks reply

/-! ## The order of the requests -/

/-- The requests of an attempt before it ends its transaction. -/
@[simp]
def plan (user coupon : String) : List Request :=
  [.begin, .lock coupon, .insert user coupon, .decrement coupon]

/-- The requests in a list of exchanges come in the order of the protocol, each after all before it
were granted, and an insert only if the locked row has stock. -/
structure Ordered (user coupon : String) (log : List Exchange) : Prop where
  planned : ∃ steps ends, log.map (·.request) = steps ++ ends ∧ steps <+: plan user coupon ∧
    (ends = [] ∨ ends = [.commit] ∨ ends = [.rollback])
  earlier : log.Pairwise fun y x => y.granted = true ∨ x.request = .rollback
  stocked : ∀ x ∈ log, x.request = .insert user coupon →
    ∃ row, locked coupon row ∈ log ∧ 0 < row.remaining

theorem Trail.ordered (trail : Trail user coupon log stage) (request : Request)
    (resume : request.Reply → Stage) (asks : stage.turn user coupon = .ask request resume)
    (reply : Option request.Reply) : Ordered user coupon (log ++ [⟨request, reply⟩]) := by
  cases trail <;> cases asks
  case opening => exact ⟨⟨[.begin], [], rfl, by simp, by simp⟩, by simp, by simp⟩
  case locking => exact ⟨⟨[.begin, .lock coupon], [], rfl, by simp, by simp⟩, by simp, by simp⟩
  case unlocked e =>
    exact ⟨⟨[.begin, .lock coupon], [.rollback], rfl, by simp, by simp⟩, by simp, by simp⟩
  case soldOut row empty =>
    exact ⟨⟨[.begin, .lock coupon], [.rollback], rfl, by simp, by simp⟩, by simp, by simp⟩
  case inserting row stock =>
    exact ⟨⟨[.begin, .lock coupon, .insert user coupon], [], rfl, by simp, by simp⟩, by simp,
      fun _ _ _ => ⟨row, by simp, stock⟩⟩
  case uninserted row stock e =>
    exact ⟨⟨[.begin, .lock coupon, .insert user coupon], [.rollback], rfl, by simp, by simp⟩,
      by simp, fun _ _ _ => ⟨row, by simp, stock⟩⟩
  case taking row stock claim =>
    exact ⟨⟨plan user coupon, [], rfl, by simp, by simp⟩, by simp,
      fun _ _ _ => ⟨row, by simp, stock⟩⟩
  case untaken row stock claim e =>
    exact ⟨⟨plan user coupon, [.rollback], rfl, by simp, by simp⟩, by simp,
      fun _ _ _ => ⟨row, by simp, stock⟩⟩
  case committing row stock claim left =>
    exact ⟨⟨plan user coupon, [.commit], rfl, by simp, by simp⟩, by simp,
      fun _ _ _ => ⟨row, by simp, stock⟩⟩

/-! ## The answer -/

structure Concludes (user coupon : String) (log : List Exchange) (result : Except Error Claim) :
    Prop where
  /-- After a granted `begin` the transaction is ended once, and else not at all. -/
  ended : (begun ∈ log → log.countP Exchange.ends = 1) ∧
    (begun ∉ log → log.countP Exchange.ends = 0)
  commits : (∃ x ∈ log, x.request = .commit) ↔
    ∀ request ∈ plan user coupon, ∃ x ∈ log, x.request = request ∧ x.granted = true
  granted : (∃ claim, result = .ok claim) ↔ ⟨.commit, some (.ok ())⟩ ∈ log
  ok : ∀ claim, result = .ok claim ↔
    ⟨.commit, some (.ok ())⟩ ∈ log ∧ inserted user coupon claim ∈ log
  lost : ∀ e, ⟨.commit, some (.error e)⟩ ∈ log →
    result = .error e ∧ ∀ x ∈ log, x.request ≠ .rollback
  failed : ∀ x ∈ log, x.request ≠ .rollback → ∀ e, x.error? = some e → result = .error e
  soldOut : ∀ row, locked coupon row ∈ log → row.remaining ≤ 0 → result = .error (.noStock coupon)
  answered : (∃ claim, result = .ok claim) ∨
    (∃ x ∈ log, x.request ≠ .rollback ∧ ∃ e, x.error? = some e ∧ result = .error e) ∨
    (∃ row, locked coupon row ∈ log ∧ row.remaining ≤ 0 ∧ result = .error (.noStock coupon))

@[simp]
theorem lock_ok_inj (row other : Coupon) :
    (Except.ok other : (Request.lock coupon).Reply) = .ok row ↔ other = row := by
  refine ⟨?_, congrArg _⟩
  rintro ⟨⟩
  rfl

@[simp]
theorem insert_ok_inj (claim other : Claim) :
    (Except.ok other : (Request.insert user coupon).Reply) = .ok claim ↔ claim = other := by
  refine ⟨?_, fun same => congrArg _ same.symm⟩
  rintro ⟨⟩
  rfl

/-- Where an attempt rolls back, the failure before stays its answer. -/
theorem Trail.undone {e : Error} (trail : Trail user coupon log (.undoing e))
    (back : Request.rollback.Reply) :
    Concludes user coupon (log ++ [⟨.rollback, some back⟩]) (.error e) := by
  cases trail with
  | unlocked e => constructor <;> simp
  | soldOut row empty => constructor <;> simp [empty]
  | uninserted row stock e =>
      have left : ¬ row.remaining ≤ 0 := by omega
      constructor <;> simp [left]
  | untaken row stock claim e =>
      have left : ¬ row.remaining ≤ 0 := by omega
      constructor <;> simp [left]

/-- Where an attempt commits, the reply to the commit decides. -/
theorem Trail.committed {claim : Claim} (trail : Trail user coupon log (.committing claim))
    (reply : Request.commit.Reply) :
    Concludes user coupon (log ++ [⟨.commit, some reply⟩]) (reply.map fun _ => claim) := by
  cases trail with
  | committing row stock claim rest =>
      have left : ¬ row.remaining ≤ 0 := by omega
      cases reply with
      | ok value =>
          obtain ⟨⟩ : Unit := value
          constructor <;> simp [stock, Except.map]
      | error e => constructor <;> simp [left, Except.map]

theorem Over.concludes {result : Except Error Claim}
    (whole : Over user coupon log (some result)) : Concludes user coupon log result := by
  cases whole with
  | settled log stage request resume reply _ trail asks last =>
  cases stage with
  | opening =>
      cases trail
      cases asks
      cases reply with
      | ok value => cases last
      | error e =>
          cases last
          constructor
          case commits =>
            refine ⟨by simp, fun all => ?_⟩
            simpa using all .begin (by simp)
          all_goals simp
  | locking =>
      cases asks
      cases reply with
      | ok row =>
          dsimp only at last
          unfold Stage.checkStock at last
          split at last <;> cases last
      | error e => cases last
  | inserting =>
      cases asks
      cases reply <;> cases last
  | taking claim =>
      cases asks
      cases reply <;> cases last
  | committing claim =>
      cases asks
      have concludes := trail.committed reply
      cases reply <;> cases last <;> exact concludes
  | undoing e =>
      cases asks
      cases last
      exact trail.undone reply
  | settled given => cases asks

/-- The protocol of an attempt, as seen by the store that it is made on and by its caller. -/
structure FollowsProtocol (store : Respondent) (user coupon : String) (deadline : Duration)
    (result : Except Error Claim) (record : Record) : Prop where
  answers : store.Answers record.log
  ordered : Ordered user coupon record.log
  /-- Without a reply there is no further request. -/
  replied : record.log.Pairwise fun y _ => y.reply.isSome = true
  uncut : (∀ x ∈ record.log, x.reply.isSome = true) →
    Concludes user coupon record.log result ∧ record.drops = 0
  cut : (∃ x ∈ record.log, x.reply = none) →
    result = .error (.timeout coupon deadline) ∧ record.drops = 1

theorem Trail.replied (trail : Trail user coupon log stage) :
    ∀ x ∈ log, x.reply.isSome = true := by
  cases trail <;> simp

/-- An attempt ends with the answer to its last exchange, or it is dropped when it is late. -/
theorem Respondent.attempt_eq (store : Respondent) (deadline : Duration)
    (outcome : Option (Except Error Claim))
    (runs : (Stage.opening.run store.perform user coupon).run {} = (outcome, { log })) :
    store.attempt user coupon deadline =
      match outcome with
      | some result => (result, { log })
      | none => (.error (.timeout coupon deadline), { log, drops := 1 }) := by
  unfold attempt attemptWithin CouponDesk.attempt
  simp only [bind, StateT.bind, runs]
  cases outcome <;> rfl

theorem Over.followsProtocol {store : Respondent} {outcome : Option (Except Error Claim)}
    (whole : Over user coupon log outcome) (answers : store.Answers log) (deadline : Duration)
    (runs : (Stage.opening.run store.perform user coupon).run {} = (outcome, { log })) :
    FollowsProtocol store user coupon deadline (store.attempt user coupon deadline).1
      (store.attempt user coupon deadline).2 := by
  rw [store.attempt_eq deadline outcome runs]
  have last : ∀ (before : List Exchange) (x : Exchange), (∀ y ∈ before, y.reply.isSome = true) →
      (before ++ [x]).Pairwise fun y _ => y.reply.isSome = true := by
    intro before x replied
    rw [List.pairwise_append]
    refine ⟨?_, List.pairwise_singleton _ _, fun y member _ _ => replied y member⟩
    exact List.pairwise_of_forall_mem_list fun y member _ _ => replied y member
  cases whole with
  | settled before stage request resume reply result trail asks settles =>
      refine ⟨answers, trail.ordered request resume asks (some reply), last _ _ trail.replied,
        ?_, ?_⟩
      · exact fun _ => ⟨(Over.settled _ _ _ _ reply _ trail asks settles).concludes, rfl⟩
      · rintro ⟨x, member, unreplied⟩
        rcases List.mem_append.mp member with old | new
        · have replied := trail.replied x old
          rw [unreplied] at replied
          cases replied
        · rw [List.mem_singleton.mp new] at unreplied
          cases unreplied
  | late before stage request resume trail asks =>
      refine ⟨answers, trail.ordered request resume asks none, last _ _ trail.replied, ?_, ?_⟩
      · intro replied
        have unreplied := replied _ (List.mem_append_right before List.mem_cons_self)
        cases unreplied
      · exact fun _ => ⟨rfl, rfl⟩

/-- On any store, and whenever the deadline passes, an attempt follows the protocol. -/
theorem attempt_followsProtocol (store : Respondent) (user coupon : String)
    (deadline : Duration) :
    FollowsProtocol store user coupon deadline (store.attempt user coupon deadline).1
      (store.attempt user coupon deadline).2 := by
  have fresh : store.Answers [] := by simp [Respondent.Answers]
  have opened : Trail user coupon [] .opening := .opening
  obtain ⟨outcome, log, runs, whole, answers⟩ := run_over store .opening {} opened fresh
  exact whole.followsProtocol answers deadline runs

end CouponDesk
