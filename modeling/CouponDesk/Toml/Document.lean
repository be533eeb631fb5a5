import CouponDesk.Toml.Reader

/-!
# TOML documents

A document is a sequence of lines: pairs of a key and a value, headers of tables, and headers of
the next table of an array of tables.  A pair belongs to the table of the header before it.
-/

set_option autoImplicit false

namespace CouponDesk.Toml

inductive Line
  | pair (path : List String) (key : String) (value : Value)
  | table (path : List String) (key : String)
  | element (path : List String) (key : String)

namespace Line

def read? : List Char → Option (Line × List Char)
  | '[' :: '[' :: rest => do
      let (path, key, rest) ← key? maxDepth rest
      let ']' :: ']' :: rest := rest | none
      return (.element path key, rest)
  | '[' :: rest => do
      let (path, key, rest) ← key? maxDepth rest
      let ']' :: rest := rest | none
      return (.table path key, rest)
  | cs => do
      let (path, key, rest) ← key? maxDepth cs
      let '=' :: rest := rest | none
      let (value, rest) ← readValue? (skipBlanks rest)
      return (.pair path key value, rest)

/-- The text after the end of a line: blanks, a comment, and a newline or the end of the text. -/
def afterEnd? (cs : List Char) : Option (List Char) :=
  match skipComment (skipBlanks cs) with
  | [] => some []
  | rest => afterNewline? rest

end Line

/-- A document of which some lines have been read: its root table and the path of the table that
is open. -/
structure Draft where
  root : Entries := []
  path : List String := []

namespace Draft

def add (d : Draft) : Line → Option Draft
  | .pair path key value => do
      let root ← d.root.update false (Entries.assign path key value) d.path .header
      return { d with root }
  | .table path key => do
      return ⟨← d.root.openTable path key, path ++ [key]⟩
  | .element path key => do
      return ⟨← d.root.openElement path key, path ++ [key]⟩

def addLines : Nat → List Char → Draft → Option Draft
  | 0, _, _ => none
  | count + 1, cs, d =>
      match skipBlanks cs with
      | [] => some d
      | c :: cs =>
          if c = '#' || c = '\n' || c = '\r' then do
            addLines count (← Line.afterEnd? (c :: cs)) d
          else do
            let (line, rest) ← Line.read? (c :: cs)
            addLines count (← Line.afterEnd? rest) (← d.add line)

end Draft

/-- The root table of the document that a text holds.  A byte order mark may stand in front. -/
def readDocument? (text : String) : Option Entries :=
  let cs := match text.toList with
    | '\uFEFF' :: cs => cs
    | cs => cs
  (Draft.addLines (cs.length + 1) cs {}).map (·.root)

end CouponDesk.Toml
