/-!
# TOML values

The values of a TOML document.  A table remembers how it came to be, because that decides
whether later lines may still add to it: a table with a header of its own cannot be extended by
dotted keys, a table made by dotted keys can have no header, and an inline table is closed.
Floats and moments of time keep their text.
-/

set_option autoImplicit false

namespace CouponDesk.Toml

inductive Origin
  /-- By a header of its own, or as the root. -/
  | header
  /-- By a header of a table inside it. -/
  | implied
  /-- By a dotted key. -/
  | dotted
  | inline
deriving DecidableEq, Repr

inductive Value
  | string (text : String)
  | integer (value : Int)
  | float (literal : String)
  | boolean (value : Bool)
  | moment (literal : String)
  | array (items : List Value)
  | table (origin : Origin) (entries : List (String × Value))
  /-- An array of tables, one for each header in double brackets. -/
  | tables (elements : List (List (String × Value)))

/-- The keys and values of a table, in the order of their first mention. -/
abbrev Entries := List (String × Value)

namespace Entries

def replace (entries : Entries) (key : String) (value : Value) : Entries :=
  entries.map fun entry => if entry.1 = key then (key, value) else entry

def add (entries : Entries) (key : String) (value : Value) : Entries := entries ++ [(key, value)]

/-- The table inside a table under a key on the way along a path; a missing one is made.  A dotted
key goes through no table with a header of its own. -/
def inner? (entries : Entries) (dotted : Bool) (key : String) : Option (Origin × Entries) :=
  match entries.lookup key with
  | none => some (if dotted then .dotted else .implied, [])
  | some (.table origin inner) =>
      if origin = .inline ∨ (dotted ∧ origin = .header) then none else some (origin, inner)
  | some (.tables elements) => elements.getLast?.map fun inner => (.header, inner)
  | some _ => none

/-- Puts a changed table back under its key; of an array of tables it is the last one. -/
def putInner (entries : Entries) (key : String) (origin : Origin) (inner : Entries) : Entries :=
  match entries.lookup key with
  | none => entries.add key (.table origin inner)
  | some (.tables elements) => entries.replace key (.tables (elements.dropLast ++ [inner]))
  | some _ => entries.replace key (.table origin inner)

def update (dotted : Bool) (change : Origin → Entries → Option Entries) :
    List String → Origin → Entries → Option Entries
  | [], origin, entries => change origin entries
  | key :: path, _, entries => do
      let (origin, inner) ← entries.inner? dotted key
      let inner ← update dotted change path origin inner
      return entries.putInner key origin inner

/-- Gives a dotted key a value that it does not have yet.  The table it goes into must have been
made by dotted keys exactly when the key has dots. -/
def assign (path : List String) (key : String) (value : Value) (origin : Origin)
    (entries : Entries) : Option Entries :=
  update true
    (fun origin entries =>
      if origin = .dotted ↔ path = [] then none
      else if (entries.lookup key).isSome then none
      else some (entries.add key value))
    path origin entries

/-- Opens a table by a header: it is new, or so far only implied. -/
def openTable (path : List String) (key : String) (entries : Entries) : Option Entries :=
  update false
    (fun _ entries =>
      match entries.lookup key with
      | none => some (entries.add key (.table .header []))
      | some (.table .implied inner) => some (entries.replace key (.table .header inner))
      | some _ => none)
    path .header entries

def openElement (path : List String) (key : String) (entries : Entries) : Option Entries :=
  update false
    (fun _ entries =>
      match entries.lookup key with
      | none => some (entries.add key (.tables [[]]))
      | some (.tables elements) => some (entries.replace key (.tables (elements ++ [[]])))
      | some _ => none)
    path .header entries

end Entries

end CouponDesk.Toml
