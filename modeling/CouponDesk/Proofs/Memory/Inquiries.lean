import CouponDesk.Memory.Inquiry
import CouponDesk.Proofs.Memory.Race
import CouponDesk.Proofs.Memory.Stock
import CouponDesk.Proofs.Memory.Tenures

/-!
# Details read during claims

The two reads of an inquiry are not one snapshot: claims may be committed between them.  But the
row is read first, units and claims balance at every moment, and claims only get more; so the
claimants that are listed are never fewer than the units missing from the row.
-/

set_option autoImplicit false

namespace CouponDesk.Memory

def Event.action? : Event → Option Action
  | .act action => some action
  | .ask _ | .read _ => none

def actionsOf (events : List Event) : List Action := events.filterMap Event.action?

theorem actionsOf_append (before after : List Event) :
    actionsOf (before ++ after) = actionsOf before ++ actionsOf after :=
  List.filterMap_append

namespace Reading

def listing (name : String) (coupon : Coupon) : Reading (Except Error Details) :=
  .claimants name fun
    | .error e => .done (.error e)
    | .ok users => .done (.ok (.of coupon users))

theorem details_eq (name : String) :
    details name = .row name fun
      | .error e => .done (.error e)
      | .ok coupon => listing name coupon := by
  unfold details Catalog.details
  refine congrArg (Reading.row name) (funext fun reply => ?_)
  cases reply with
  | error e => rfl
  | ok coupon => exact congrArg (Reading.claimants name) (funext fun reply => by cases reply <;> rfl)

def finish {α : Type} (s : Store) : Reading α → α
  | .done value => value
  | .row name resume => (resume (s.get name)).finish s
  | .claimants name resume => (resume (.ok (s.claimants name))).finish s

theorem finish_details (s : Store) (name : String) :
    (details name).finish s = s.details name := by
  rw [details_eq, finish]
  unfold Store.details Catalog.details
  dsimp only
  cases s.get name with
  | error e => rfl
  | ok coupon => rfl

end Reading

namespace Desk

variable {d d' : Desk}

/-! ## Inquiries and the system -/

theorem run_append (first second : List Event) (d : Desk) :
    run (first ++ second) d = (run first d).bind (run second) := by
  induction first generalizing d with
  | nil => rfl
  | cons event rest ih =>
      simp only [List.cons_append, run, Option.bind_eq_bind, Option.bind_assoc, ih]

theorem act_system (event : Event) (inquires : event.action? = none)
    (step : d.act event = some d') : d'.system = d.system := by
  cases event with
  | act action => cases inquires
  | ask name =>
      cases step
      rfl
  | read n =>
      obtain ⟨inquiry, -, step⟩ := Option.bind_eq_some_iff.mp step
      obtain ⟨rest, -, step⟩ := Option.bind_eq_some_iff.mp step
      cases step
      rfl

theorem act_act (action : Action) (step : d.act (.act action) = some d') :
    d.system.act action = some d'.system ∧ d'.inquiries = d.inquiries := by
  obtain ⟨system, acts, step⟩ := Option.bind_eq_some_iff.mp step
  cases step
  exact ⟨acts, rfl⟩

theorem run_system (events : List Event) (runs : run events d = some d') :
    System.run (actionsOf events) d.system = some d'.system := by
  induction events generalizing d with
  | nil =>
      cases runs
      rfl
  | cons event rest ih =>
      obtain ⟨next, step, runs⟩ := Option.bind_eq_some_iff.mp runs
      have later := ih runs
      cases event with
      | act action =>
          obtain ⟨acts, -⟩ := act_act action step
          change System.run (action :: actionsOf rest) d.system = _
          simp only [System.run, acts, Option.bind_eq_bind, Option.bind_some]
          exact later
      | ask name =>
          rw [act_system _ rfl step] at later
          exact later
      | read n =>
          rw [act_system _ rfl step] at later
          exact later

/-! ## How far an inquiry is -/

inductive Stands (events : List Event) (n : Nat) (inquiry : Inquiry) : Prop
  | unread (untouched : .read n ∉ events) (rest : inquiry.rest = .details inquiry.name)
  | halfway (before between : List Event) (first : Desk) (row : Coupon)
      (split : events = before ++ .read n :: between)
      (untouched : .read n ∉ before) (left : .read n ∉ between)
      (reached : run before {} = some first)
      (found : first.system.store.get inquiry.name = .ok row)
      (rest : inquiry.rest = .listing inquiry.name row)
  | failed (e : Error) (rest : inquiry.rest = .done (.error e))
  | answered (before between after : List Event) (first second : Desk) (row : Coupon)
      (split : events = before ++ .read n :: between ++ .read n :: after)
      (untouched : .read n ∉ before) (left : .read n ∉ between) (finished : .read n ∉ after)
      (reached : run before {} = some first)
      (reachedAgain : run (before ++ .read n :: between) {} = some second)
      (found : first.system.store.get inquiry.name = .ok row)
      (rest : inquiry.rest =
        .done (.ok (.of row (second.system.store.claimants inquiry.name))))

theorem Stands.other {events : List Event} {n : Nat} {inquiry : Inquiry}
    (stands : Stands events n inquiry) (event : Event) (other : event ≠ .read n) :
    Stands (events ++ [event]) n inquiry := by
  have absent : ∀ list : List Event, .read n ∉ list → .read n ∉ list ++ [event] := by
    intro list outside
    rw [List.mem_append, List.mem_singleton, not_or]
    exact ⟨outside, Ne.symm other⟩
  cases stands with
  | unread untouched rest => exact .unread (absent events untouched) rest
  | halfway before between first row split untouched left reached found rest =>
      refine .halfway before (between ++ [event]) first row ?_ untouched (absent between left)
        reached found rest
      rw [split, List.append_assoc, List.cons_append]
  | failed e rest => exact .failed e rest
  | answered before between after first second row split untouched left finished reached
      reachedAgain found rest =>
      refine .answered before between (after ++ [event]) first second row ?_ untouched left
        (absent after finished) reached reachedAgain found rest
      rw [split, List.append_assoc, List.cons_append]

/-- A read takes its inquiry further: from the start to the row, and from there to the end. -/
theorem Stands.own {events : List Event} {n : Nat} {inquiry : Inquiry}
    (stands : Stands events n inquiry) (reached : run events {} = some d)
    (rest' : Reading (Except Error Details))
    (reads : inquiry.rest.read d.system.store = some rest') :
    Stands (events ++ [.read n]) n { inquiry with rest := rest' } := by
  cases stands with
  | unread untouched rest =>
      rw [rest, Reading.details_eq] at reads
      cases found : d.system.store.get inquiry.name with
      | error e =>
          rw [Reading.read, found, Option.some.injEq] at reads
          exact .failed e reads.symm
      | ok row =>
          rw [Reading.read, found, Option.some.injEq] at reads
          exact .halfway events [] d row rfl untouched List.not_mem_nil reached found reads.symm
  | halfway before between first row split untouched left start found rest =>
      rw [rest] at reads
      simp only [Reading.listing, Reading.read, Option.some.injEq] at reads
      rw [split] at reached ⊢
      exact .answered before between [] first d row rfl untouched left List.not_mem_nil start
        reached found reads.symm
  | failed e rest =>
      rw [rest] at reads
      cases reads
  | answered before between after first second row split untouched left finished start again found
      rest =>
      rw [rest] at reads
      cases reads

structure Followed (events : List Event) (d : Desk) : Prop where
  known : ∀ n, .read n ∈ events → n < d.inquiries.length
  stands : ∀ n inquiry, d.inquiries[n]? = some inquiry → Stands events n inquiry

theorem Followed.step {events : List Event} (followed : Followed events d)
    (reached : run events {} = some d) (event : Event) (step : d.act event = some d') :
    Followed (events ++ [event]) d' := by
  cases event with
  | act action =>
      obtain ⟨-, same⟩ := act_act action step
      refine ⟨?_, ?_⟩
      · intro n member
        rw [same]
        exact followed.known n (by simpa using member)
      · intro n inquiry known
        rw [same] at known
        exact (followed.stands n inquiry known).other _ Event.noConfusion
  | ask name =>
      cases step
      refine ⟨?_, ?_⟩
      · intro n member
        have bound := followed.known n (by simpa using member)
        simp only [List.length_append, List.length_singleton]
        omega
      · intro n inquiry known
        rcases getElem?_snoc d.inquiries _ inquiry n known with old | ⟨rfl, rfl⟩
        · exact (followed.stands n inquiry old).other _ Event.noConfusion
        · refine .unread ?_ rfl
          intro member
          have bound := followed.known d.inquiries.length (by simpa using member)
          omega
  | read m =>
      obtain ⟨inquiry, known, step⟩ := Option.bind_eq_some_iff.mp step
      obtain ⟨rest, reads, step⟩ := Option.bind_eq_some_iff.mp step
      cases step
      have bound := (List.getElem?_eq_some_iff.mp known).1
      refine ⟨?_, ?_⟩
      · intro n member
        simp only [List.length_set]
        rcases List.mem_append.mp member with old | new
        · exact followed.known n old
        · cases List.mem_singleton.mp new
          exact bound
      · intro n other found
        rw [List.getElem?_set] at found
        by_cases same : m = n
        · subst same
          rw [if_pos rfl, if_pos bound] at found
          cases found
          exact (followed.stands m inquiry known).own reached rest reads
        · rw [if_neg same] at found
          refine (followed.stands n other found).other _ ?_
          exact fun own => same (Event.read.inj own)

theorem run_followed (events : List Event) (runs : run events {} = some d) :
    Followed events d := by
  induction events using List.reverseRecOn generalizing d with
  | nil =>
      cases runs
      exact ⟨by simp, by simp⟩
  | append_singleton events event ih =>
      rw [run_append] at runs
      obtain ⟨before, reached, runs⟩ := Option.bind_eq_some_iff.mp runs
      obtain ⟨next, step, runs⟩ := Option.bind_eq_some_iff.mp runs
      cases runs
      exact (ih reached).step reached event step

/-! ## What an answer is worth -/

/-- What the answer to an inquiry says of its coupon. -/
structure Covers (events : List Event) (n : Nat) (name : String) (answer : Details) : Prop where
  named : answer.name = name
  once : answer.claimants.Nodup
  least : answer.total - answer.remaining ≤ answer.claimants.length
  most : (answer.claimants.length : Int) ≤ answer.total
  /-- If every claim on the coupon that is committed at the second read was so at the first, the
  listing makes up for the missing units exactly. -/
  exact_ : ∃ before between after first second,
    events = before ++ .read n :: between ++ .read n :: after ∧
      .read n ∉ before ∧ .read n ∉ between ∧ .read n ∉ after ∧
      run before {} = some first ∧ run (before ++ .read n :: between) {} = some second ∧
      ((∀ claim ∈ second.system.store.claims, claim.coupon = name →
          claim ∈ first.system.store.claims) →
        (answer.claimants.length : Int) = answer.total - answer.remaining)

end Desk

theorem Store.coupon?_of_get {s : Store} {name : String} {row : Coupon}
    (found : s.get name = .ok row) : s.coupon? name = some row := by
  unfold Store.get at found
  cases known : s.coupon? name with
  | none =>
      rw [known] at found
      cases found
  | some other =>
      rw [known] at found
      cases found
      rfl

theorem Store.Grows.count_eq {s s' : Store} (grows : s.Grows s') (sound : s'.Sound) (name : String)
    (none_new : ∀ claim ∈ s'.claims, claim.coupon = name → claim ∈ s.claims) :
    s'.count name = s.count name := by
  have once : (s'.claimsOn name).Nodup := sound.ids.once.of_map.filter _
  have within : s'.claimsOn name ⊆ s.claimsOn name := by
    intro claim member
    obtain ⟨listed, named⟩ := List.mem_filter.mp member
    exact List.mem_filter.mpr ⟨none_new claim listed (of_decide_eq_true named), named⟩
  exact Nat.le_antisymm (once.subperm within).length_le (grows.count name)

namespace Desk

variable {d d' : Desk}

/-- The row is read before the listing, and between the two reads claims only get more. -/
theorem covers_of_reads (before between : List Event) (first second : Desk)
    (byCalls : ∀ action ∈ actionsOf (before ++ between), action.hand? = none)
    (reached : run before {} = some first) (runs : run between first = some second)
    (name : String) (row : Coupon) (found : first.system.store.get name = .ok row) :
    row.total - row.remaining ≤ ((second.system.store.claimants name).length : Int) ∧
      ((second.system.store.claimants name).length : Int) ≤ row.total ∧
      ((∀ claim ∈ second.system.store.claims, claim.coupon = name →
          claim ∈ first.system.store.claims) →
        ((second.system.store.claimants name).length : Int) = row.total - row.remaining) := by
  have found := Store.coupon?_of_get found
  rw [actionsOf_append] at byCalls
  have firstCalls : ∀ action ∈ actionsOf before, action.hand? = none :=
    fun action member => byCalls action (List.mem_append_left _ member)
  have firstRun := run_system before reached
  have laterRun := run_system between runs
  have wholeRun : System.run (actionsOf before ++ actionsOf between) {} = some second.system := by
    rw [System.run_append]
    exact Option.bind_eq_some_iff.mpr ⟨_, firstRun, laterRun⟩
  obtain ⟨grows, -⟩ := System.run_grows _ _ firstRun laterRun
  have sound := (System.run_sound _ wholeRun).store
  have length : (second.system.store.claimants name).length = second.system.store.count name := by
    rw [sound.claimants_eq, List.length_map]
    rfl
  have balanced := (System.run_balanced _ firstCalls firstRun) name row found
  obtain ⟨row', found', -, total, -⟩ := grows.rows name row found
  have laterBalanced := (System.run_balanced _ byCalls wholeRun) name row' found'
  have laterStock := sound.row name row' found'
  have more := grows.count name
  refine ⟨by omega, by omega, fun none_new => ?_⟩
  have same := grows.count_eq sound name none_new
  omega

/-- What is known of the inquiries in the state that some events lead to. -/
structure Answers (events : List Event) (d : Desk) : Prop where
  /-- The system is in the state to which its own steps lead without any inquiry. -/
  unchanged : System.run (actionsOf events) {} = some d.system
  covered : ∀ n inquiry answer, d.inquiries[n]? = some inquiry →
    inquiry.result? = some (.ok answer) → Covers events n inquiry.name answer
  /-- No inquiry waits, whatever locks are held: its next read can be made at once. -/
  ready : ∀ n inquiry, d.inquiries[n]? = some inquiry → inquiry.result? = none →
    ∃ d', d.act (.read n) = some d' ∧ d'.system = d.system
  /-- An inquiry made now has its answer as soon as it has made its reads. -/
  prompt : ∀ name, ∃ reads d',
    run (.ask name :: List.replicate reads (.read d.inquiries.length)) d = some d' ∧
      d'.system = d.system ∧ d'.inquiries[d.inquiries.length]? =
        some ⟨name, .done (d.system.store.details name)⟩

theorem act_read (n : Nat) (inquiry : Inquiry) (known : d.inquiries[n]? = some inquiry)
    (rest : Reading (Except Error Details))
    (reads : inquiry.rest.read d.system.store = some rest) :
    d.act (.read n) =
      some { d with inquiries := d.inquiries.set n { inquiry with rest } } := by
  simp only [act, known, reads, Option.bind_eq_bind, Option.bind_some]
  rfl

theorem act_read_isSome (n : Nat) (inquiry : Inquiry) (known : d.inquiries[n]? = some inquiry)
    (pending : inquiry.result? = none) :
    ∃ d', d.act (.read n) = some d' ∧ d'.system = d.system := by
  have reads : ∃ rest, inquiry.rest.read d.system.store = some rest := by
    unfold Inquiry.result? at pending
    cases left : inquiry.rest with
    | done result =>
        rw [left] at pending
        cases pending
    | row name resume => exact ⟨_, rfl⟩
    | claimants name resume => exact ⟨_, rfl⟩
  obtain ⟨rest, reads⟩ := reads
  exact ⟨_, act_read n inquiry known rest reads, rfl⟩

/-- The reads of an inquiry, with nothing between them, come to its value on the store. -/
theorem run_reads (n : Nat) (inquiry : Inquiry) (known : d.inquiries[n]? = some inquiry) :
    ∃ reads, run (List.replicate reads (.read n)) d = some { d with
      inquiries := d.inquiries.set n
        { inquiry with rest := .done (inquiry.rest.finish d.system.store) } } := by
  obtain ⟨name, rest⟩ := inquiry
  induction rest generalizing d with
  | done result =>
      refine ⟨0, ?_⟩
      obtain ⟨bound, at_⟩ := List.getElem?_eq_some_iff.mp known
      have same : d.inquiries.set n ⟨name, .done result⟩ = d.inquiries := by
        rw [← at_, List.set_getElem_self]
      simp only [Reading.finish, same]
      rfl
  | row asked resume ih =>
      have bound := (List.getElem?_eq_some_iff.mp known).1
      have first := act_read n _ known (resume (d.system.store.get asked)) rfl
      obtain ⟨reads, later⟩ := ih (d.system.store.get asked)
        (d := { d with inquiries := d.inquiries.set n ⟨name, resume (d.system.store.get asked)⟩ })
        (List.getElem?_set_self bound)
      refine ⟨reads + 1, ?_⟩
      simp only [List.replicate_succ, run, first, Option.bind_eq_bind, Option.bind_some, later,
        List.set_set]
      rfl
  | claimants asked resume ih =>
      have bound := (List.getElem?_eq_some_iff.mp known).1
      have first := act_read n _ known (resume (.ok (d.system.store.claimants asked))) rfl
      obtain ⟨reads, later⟩ := ih (.ok (d.system.store.claimants asked))
        (d := { d with
          inquiries := d.inquiries.set n ⟨name, resume (.ok (d.system.store.claimants asked))⟩ })
        (List.getElem?_set_self bound)
      refine ⟨reads + 1, ?_⟩
      simp only [List.replicate_succ, run, first, Option.bind_eq_bind, Option.bind_some, later,
        List.set_set]
      rfl

theorem run_ask (d : Desk) (name : String) :
    ∃ reads d', run (.ask name :: List.replicate reads (.read d.inquiries.length)) d = some d' ∧
      d'.system = d.system ∧ d'.inquiries[d.inquiries.length]? =
        some ⟨name, .done (d.system.store.details name)⟩ := by
  obtain ⟨reads, runs⟩ := run_reads
    (d := { d with inquiries := d.inquiries ++ [⟨name, .details name⟩] })
    d.inquiries.length ⟨name, .details name⟩ List.getElem?_concat_length
  refine ⟨reads, _, runs, rfl, ?_⟩
  rw [Reading.finish_details, List.getElem?_set_self (by simp)]

/-- However calls, creations and inquiries are interleaved, and whatever comes between the two
reads of an inquiry, its answer is never short of claimants; and no inquiry changes anything or
waits for anybody. -/
theorem run_answers (events : List Event)
    (byCalls : ∀ action ∈ actionsOf events, action.hand? = none)
    (runs : run events {} = some d) : Answers events d where
  unchanged := run_system events runs
  covered := by
    intro n inquiry answer known result
    cases (run_followed events runs).stands n inquiry known with
    | unread untouched rest =>
        rw [Inquiry.result?, rest, Reading.details_eq] at result
        cases result
    | halfway before between first row split untouched left reached found rest =>
        rw [Inquiry.result?, rest] at result
        cases result
    | failed e rest =>
        rw [Inquiry.result?, rest] at result
        cases result
    | answered before between after first second row split untouched left finished reached
        reachedAgain found rest =>
        rw [Inquiry.result?, rest] at result
        cases result
        have between_ := reachedAgain
        rw [run_append, reached, Option.bind_some] at between_
        rw [split, actionsOf_append] at byCalls
        obtain ⟨least, most, same⟩ := covers_of_reads before _ first second
          (fun action member => byCalls action (List.mem_append_left _ member)) reached between_
          inquiry.name row found
        have sound := (System.run_sound _ (run_system _ reachedAgain)).store
        refine ⟨?_, ?_, least, most, before, between, after, first, second, split, untouched, left,
          finished, reached, reachedAgain, same⟩
        · exact (Store.coupon?_some _ _ row (Store.coupon?_of_get found)).2
        · change (second.system.store.claimants inquiry.name).Nodup
          rw [sound.claimants_eq]
          exact sound.nodup_users inquiry.name
  ready := fun n inquiry known pending => act_read_isSome n inquiry known pending
  prompt := run_ask d

/-- One inquiry has its second read after a claim was committed, another makes both of its own while
the next attempt has the lock. -/
def glances : List Event :=
  [.act (.create "SOLO" 2), .ask "SOLO", .act (.start "first" "SOLO" .zero 1), .read 0,
    .act (.start "second" "SOLO" .zero 1), .act (.advance 0), .act (.advance 0), .act (.advance 0),
    .act (.advance 0), .act (.advance 0), .act (.advance 1), .act (.advance 1), .act (.advance 1),
    .ask "SOLO", .read 0, .read 1, .read 1]

theorem run_answers_glances :
    ∃ d, run glances {} = some d ∧ (∀ action ∈ actionsOf glances, action.hand? = none) ∧
      Answers glances d ∧ d.system.store.holds (.attempt 1 1) "SOLO" = true ∧
      d.inquiries.map Inquiry.result? =
        [some (.ok ⟨"SOLO", 2, 2, ["first"]⟩), some (.ok ⟨"SOLO", 2, 1, ["first"]⟩)] :=
  ⟨_, rfl, by decide, run_answers glances (by decide) rfl, rfl, rfl⟩

end Desk

end CouponDesk.Memory
