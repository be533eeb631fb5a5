import CouponDesk.Memory.System

/-!
# Inquiries

The details of a coupon are two reads, and others act between them.  A `Reading` is what is still
to be read; a `Desk` is the system together with the inquiries made so far, and its events are the
steps of the system, new inquiries and single reads.
-/

set_option autoImplicit false

namespace CouponDesk.Memory

/-- Reads of the committed state, each going on from its reply. -/
inductive Reading (α : Type) : Type
  | done (value : α)
  | row (name : String) (resume : Except Error Coupon → Reading α)
  | claimants (name : String) (resume : Except Error (List String) → Reading α)

namespace Reading

variable {α β : Type}

def bind : Reading α → (α → Reading β) → Reading β
  | .done value, next => next value
  | .row name resume, next => .row name fun reply => (resume reply).bind next
  | .claimants name resume, next => .claimants name fun reply => (resume reply).bind next

instance : Monad Reading where
  pure := .done
  bind := bind

def details (name : String) : Reading (Except Error Details) :=
  Catalog.details (fun name => .row name .done) (fun name => .claimants name .done) name

/-- Makes the next read of a store.  A read takes no lock and changes nothing. -/
def read (s : Store) : Reading α → Option (Reading α)
  | .done _ => none
  | .row name resume => some (resume (s.get name))
  | .claimants name resume => some (resume (.ok (s.claimants name)))

end Reading

structure Inquiry where
  name : String
  rest : Reading (Except Error Details)

namespace Inquiry

def result? (inquiry : Inquiry) : Option (Except Error Details) :=
  match inquiry.rest with
  | .done result => some result
  | _ => none

end Inquiry

structure Desk where
  system : System := {}
  inquiries : List Inquiry := []

inductive Event
  | act (action : Action)
  | ask (name : String)
  | read (inquiry : Nat)

namespace Desk

def act (d : Desk) : Event → Option Desk
  | .act action => do
      let system ← d.system.act action
      return { d with system }
  | .ask name => some { d with inquiries := d.inquiries ++ [⟨name, .details name⟩] }
  | .read n => do
      let inquiry ← d.inquiries[n]?
      let rest ← inquiry.rest.read d.system.store
      return { d with inquiries := d.inquiries.set n { inquiry with rest } }

def run : List Event → Desk → Option Desk
  | [], d => some d
  | event :: rest, d => do
      let next ← d.act event
      run rest next

end Desk

end CouponDesk.Memory
