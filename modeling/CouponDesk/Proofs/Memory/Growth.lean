import CouponDesk.Proofs.Memory.Reachable

/-!
# What is recorded stays

No step takes a coupon, a claim or an id back: rows keep their name and their total and only lose
units, committed claims keep their order and get others after them, and ids go up.  Refused commits,
rollbacks, lost commits and creations beside a claim are no exceptions.
-/

set_option autoImplicit false

namespace CouponDesk

/-! ## Listings -/

theorem firstOccurrences_append (users later : List String) :
    firstOccurrences (users ++ later) =
      later.foldl (fun seen user => if user ∈ seen then seen else seen ++ [user])
        (firstOccurrences users) :=
  List.foldl_append

theorem prefix_foldl_unseen (users seen : List String) :
    seen <+: users.foldl (fun seen user => if user ∈ seen then seen else seen ++ [user]) seen := by
  induction users generalizing seen with
  | nil => exact List.prefix_rfl
  | cons user rest ih =>
      rw [List.foldl_cons]
      by_cases known : user ∈ seen
      · rw [if_pos known]
        exact ih seen
      · rw [if_neg known]
        exact (List.prefix_append seen [user]).trans (ih (seen ++ [user]))

/-- Whoever comes later in a list comes later among its members, or is among them already. -/
theorem firstOccurrences_prefix {users more : List String} (grown : users <+: more) :
    firstOccurrences users <+: firstOccurrences more := by
  obtain ⟨later, rfl⟩ := grown
  rw [firstOccurrences_append]
  exact prefix_foldl_unseen later (firstOccurrences users)

namespace Memory

namespace Store

/-- A later state of a store, seen from an earlier one. -/
structure Grows (s s' : Store) : Prop where
  rows : ∀ name row, s.coupon? name = some row →
    ∃ row', s'.coupon? name = some row' ∧ row'.name = row.name ∧ row'.total = row.total ∧
      row'.remaining ≤ row.remaining
  claims : s.claims <+: s'.claims
  keys : s.keys <+: s'.keys
  lastId : s.lastId ≤ s'.lastId

variable {s s' s'' : Store} {t : TxnId}

namespace Grows

theorem refl (s : Store) : s.Grows s where
  rows := fun _ row found => ⟨row, found, rfl, rfl, Int.le_refl _⟩
  claims := List.prefix_rfl
  keys := List.prefix_rfl
  lastId := Nat.le_refl _

theorem trans (first : s.Grows s') (second : s'.Grows s'') : s.Grows s'' where
  rows := by
    intro name row found
    obtain ⟨between, known, named, total, fewer⟩ := first.rows name row found
    obtain ⟨last, reached, lastNamed, lastTotal, evenFewer⟩ := second.rows name between known
    exact ⟨last, reached, lastNamed.trans named, lastTotal.trans total,
      Int.le_trans evenFewer fewer⟩
  claims := first.claims.trans second.claims
  keys := first.keys.trans second.keys
  lastId := Nat.le_trans first.lastId second.lastId

theorem claimsOn (grows : s.Grows s') (name : String) : s.claimsOn name <+: s'.claimsOn name :=
  grows.claims.filter _

theorem claimants (grows : s.Grows s') (name : String) : s.claimants name <+: s'.claimants name :=
  firstOccurrences_prefix ((grows.claimsOn name).map _)

theorem count (grows : s.Grows s') (name : String) : s.count name ≤ s'.count name :=
  (grows.claimsOn name).length_le

theorem isSome (grows : s.Grows s') (name : String) (known : (s.coupon? name).isSome) :
    (s'.coupon? name).isSome := by
  obtain ⟨row, found⟩ := Option.isSome_iff_exists.mp known
  obtain ⟨row', found', -⟩ := grows.rows name row found
  rw [found']
  rfl

end Grows

/-! ## One step -/

theorem Change.keys_prefix (change : s.Change t s') : s.keys <+: s'.keys := by
  rcases change.tables with ⟨-, -, keys⟩ | ⟨-, -, rfl⟩
  · exact ⟨[], by rw [keys, List.append_nil]⟩
  · exact ⟨(s.txn t).staged.map Claim.key, rfl⟩

theorem Change.grows (change : s.Change t s') : s.Grows s' where
  rows := change.row
  claims := change.claims_prefix
  keys := change.keys_prefix
  lastId := change.lastId_le

theorem create_grows (s : Store) (name : String) (amount : Int) :
    s.Grows (s.create name amount).2 := by
  have kept := coupon?_create s name amount
  rcases create_cases s name amount with same | ⟨-, -, added⟩
  · rw [same]
    exact .refl s
  · rw [added] at kept ⊢
    exact ⟨fun other row found => ⟨row, kept other row found, rfl, rfl, Int.le_refl _⟩,
      List.prefix_rfl, List.prefix_rfl, Nat.le_refl _⟩

theorem failCommits_grows (s : Store) (count : Nat) : s.Grows (s.failCommits count) :=
  ⟨(Grows.refl s).rows, List.prefix_rfl, List.prefix_rfl, Nat.le_refl _⟩

end Store

namespace System

variable {s s' : System}

theorem Does.grows {action : Action} (does : s.Does action s') (sound : s.Sound) :
    s.store.Grows s'.store := by
  rcases does.store sound with ⟨t, change⟩ | ⟨name, amount, -, created⟩ | ⟨count, set⟩
  · exact change.grows
  · rw [created]
    exact s.store.create_grows name amount
  · rw [set]
    exact s.store.failCommits_grows count

/-! ## Runs -/

/-- Whatever is done by hand or through calls, in any order, between two moments of a run: every
coupon of the first is there in the second, with the name and the total it had and no more units,
the claims of the first come first in the second, and no id is taken back. -/
theorem run_grows (before after : List Action) (reached : run before {} = some s)
    (runs : run after s = some s') :
    s.store.Grows s'.store ∧ ∀ name, s.store.claimants name <+: s'.store.claimants name ∧
      s.store.count name ≤ s'.store.count name := by
  have grown : s'.Sound ∧ s.store.Grows s'.store := by
    refine run_keeps (fun last => last.Sound ∧ s.store.Grows last.store) (fun _ => True) ?_ after
      (fun _ _ => trivial) runs ⟨run_sound before reached, .refl s.store⟩
    rintro mid last action - does ⟨sound, grows⟩
    exact ⟨does.sound sound, grows.trans (does.grows sound)⟩
  exact ⟨grown.2, fun name => ⟨grown.2.claimants name, grown.2.count name⟩⟩

/-- One claim is committed by hand; then a second transaction commits it again in vain, a third is
rolled back with a claim staged, a coupon is created and refused, and a call is granted. -/
def bustle : List Action :=
  [.begin 1, .insert 1 "first" "SOLO", .begin 2, .lock 2 "SOLO", .insert 2 "third" "SOLO",
    .rollback 2, .create "SOLO" 9, .create "DUO" 2, .commit 1, .failCommits 1,
    .start "second" "SOLO" .zero 2, .advance 0, .advance 0, .advance 0, .advance 0, .advance 0,
    .wake 0, .advance 0, .advance 0, .advance 0, .advance 0, .advance 0]

theorem run_grows_bustle :
    ∃ s s', run [.create "SOLO" 3, .begin 0, .insert 0 "first" "SOLO", .commit 0] {} = some s ∧
      run bustle s = some s' ∧
      (s.store.Grows s'.store ∧ ∀ name, s.store.claimants name <+: s'.store.claimants name ∧
        s.store.count name ≤ s'.store.count name) ∧
      s.store.claimants "SOLO" = ["first"] ∧ s'.store.claimants "SOLO" = ["first", "second"] :=
  ⟨_, _, rfl, rfl,
    run_grows [.create "SOLO" 3, .begin 0, .insert 0 "first" "SOLO", .commit 0] bustle rfl rfl,
    rfl, rfl⟩

end System

end Memory

end CouponDesk
