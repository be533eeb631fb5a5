import CouponDesk.Text.Basic

/-!
# The environment and its file

Variables with values, and a file of further ones: lines `KEY=value`, with `export` in front if
one likes, with quotes, escapes, comments, and values of other variables.  What is defined
already stays, and reading stops at the first line that is malformed.
-/

set_option autoImplicit false

namespace CouponDesk

abbrev Environment := List (String × String)

namespace Environment

def define (env : Environment) (name value : String) : Environment :=
  if (env.lookup name).isSome then env else env ++ [(name, value)]

/-! ## Lines -/

/-- Where a reader stands with respect to quotes, escapes and blanks. -/
inductive Scan
  | plain
  | escape
  | single
  | singleEscape
  | double
  | doubleEscape
  | blank
deriving DecidableEq, Repr

namespace Scan

def next (state : Scan) (c : Char) : Scan :=
  match state with
  | .plain | .blank =>
      if c = '\\' then .escape
      else if c = '"' then .double
      else if c = '\'' then .single
      else if state = .plain ∧ Text.isBlank c ∧ c ≠ '\n' ∧ c ≠ '\r' then .blank
      else .plain
  | .escape => .plain
  | .single => if c = '\\' then .singleEscape else if c = '\'' then .plain else .single
  | .singleEscape => .single
  | .double => if c = '\\' then .doubleEscape else if c = '"' then .plain else .double
  | .doubleEscape => .double

/-- The part of a line before a comment, and the state at its end unless a comment ends it. -/
def line : Scan → List Char → List Char × Option Scan
  | state, [] => ([], some state)
  | .blank, '#' :: _ => ([], none)
  | state, c :: rest =>
      let (kept, final) := line (state.next c) rest
      (c :: kept, final)

end Scan

def dropNewline (cs : List Char) : List Char :=
  match cs.reverse with
  | '\n' :: '\r' :: rest | '\n' :: rest => rest.reverse
  | _ => cs

/-- Joins lines as long as a quote is open, an escape is begun or a blank is last, and takes
comments away.  What is unfinished at the end is no line. -/
def joinLines : Scan → List Char → List (List Char) → List (List Char)
  | _, _, [] => []
  | state, open_, line :: rest =>
      let whole := open_ ++ line
      if (Text.dropBlank whole).head? = some '#' then joinLines .plain [] rest
      else
        match state.line line with
        | (kept, none) => (open_ ++ kept) :: joinLines .plain [] rest
        | (_, some .plain) => dropNewline whole :: joinLines .plain [] rest
        | (_, some state) => joinLines state whole rest

/-! ## Values -/

inductive Mode
  | normal
  | escape
  | single
  /-- In the name of a variable after a dollar sign; the name is kept in reverse. -/
  | name (reversed : List Char)
  | braced (reversed : List Char)
  | ended

/-- The characters of a variable's name; all that are not ASCII are taken for letters. -/
def isNameChar (c : Char) : Bool := c.isAlphanum || (0x80 ≤ c.toNat && !Text.isBlank c)

def substitute (env : Environment) (reversed : List Char) : List Char :=
  ((env.lookup (String.ofList reversed.reverse)).getD "").toList

def before (cs : List Char) : Option (List Char) → Option (List Char) := Option.map (cs ++ ·)

/-- The value that a text denotes, in or out of double quotes. -/
def valueFrom (env : Environment) : (double : Bool) → Mode → List Char → Option (List Char)
  | double, mode, [] =>
      match mode with
      | .single | .braced _ => none
      | .name reversed => if double then none else some (substitute env reversed)
      | .normal | .escape | .ended => if double then none else some []
  | double, .ended, c :: rest =>
      if c = ' ' ∨ c = '\t' then valueFrom env double .ended rest
      else if c = '#' then some []
      else none
  | double, .escape, c :: rest =>
      if c = 'n' then before ['\n'] (valueFrom env double .normal rest)
      else if c ∈ ['\\', '\'', '"', '$', ' '] then
        before [c] (valueFrom env double .normal rest)
      else none
  | double, .single, c :: rest =>
      if c = '\'' then valueFrom env double .normal rest
      else before [c] (valueFrom env double .single rest)
  | double, .name reversed, c :: rest =>
      if isNameChar c then valueFrom env double (.name (c :: reversed)) rest
      else if c = '\x7b' ∧ reversed = [] then valueFrom env double (.braced []) rest
      else if c = '$' then before (substitute env reversed) (valueFrom env double (.name []) rest)
      else before (substitute env reversed ++ [c]) (valueFrom env double .normal rest)
  | double, .braced reversed, c :: rest =>
      if c = '\x7d' then
        before (substitute env reversed) (valueFrom env double .normal rest)
      else valueFrom env double (.braced (c :: reversed)) rest
  | double, .normal, c :: rest =>
      if c = '$' then valueFrom env double (.name []) rest
      else if c = '\\' then valueFrom env double .escape rest
      else if c = '"' then valueFrom env (!double) .normal rest
      else if double then before [c] (valueFrom env double .normal rest)
      else if c = '\'' then valueFrom env double .single rest
      else if c = ' ' ∨ c = '\t' then valueFrom env double .ended rest
      else before [c] (valueFrom env double .normal rest)

/-! ## Definitions -/

def isKeyChar (c : Char) : Bool := c.isAlphanum || c = '_' || c = '.'

def key? (cs : List Char) : Option (List Char × List Char) :=
  match cs with
  | c :: _ =>
      if c.isAlpha || c = '_' then
        some (cs.takeWhile isKeyChar, Text.dropBlank (cs.dropWhile isKeyChar))
      else none
  | [] => none

/-- The key of a definition and what follows the equals sign.  The word `export` may stand in
front, and may also be a key itself. -/
def target? (cs : List Char) : Option (List Char × List Char) := do
  let (key, rest) ← key? cs
  match rest with
  | '=' :: rest => return (key, rest)
  | rest =>
      if key = ['e', 'x', 'p', 'o', 'r', 't'] then do
        let (key, rest) ← key? rest
        let '=' :: rest := rest | none
        return (key, rest)
      else none

def addLine (env : Environment) (line : List Char) : Option Environment :=
  match Text.dropBlank (Text.dropBlankEnd line) with
  | [] | '#' :: _ => some env
  | cs => do
      let (key, rest) ← target? cs
      let value ←
        match Text.dropBlank rest with
        | [] | '#' :: _ => some []
        | cs => valueFrom env false .normal cs
      return env.define (String.ofList key) (String.ofList value)

def addLines (env : Environment) : List (List Char) → Environment
  | [] => env
  | line :: rest =>
      match env.addLine line with
      | some env => addLines env rest
      | none => env

/-- The environment after a file.  A byte order mark may stand in front, and a line that is no text
is malformed. -/
def load (env : Environment) (content : List UInt8) : Environment :=
  let content := match content with
    | 0xEF :: 0xBB :: 0xBF :: rest => rest
    | content => content
  let lines := ((Text.splitAfter 10 content).map Text.ofBytes?).takeWhile Option.isSome
  env.addLines (joinLines .plain [] (lines.filterMap fun line => line.map String.toList))

end Environment

end CouponDesk
