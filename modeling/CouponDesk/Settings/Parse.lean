import CouponDesk.Environment
import CouponDesk.Files
import CouponDesk.Json.Value
import CouponDesk.Settings.Shape
import CouponDesk.Toml.Document

/-!
# Reading settings

Settings are read from TOML or JSON.  Both formats are looked at in the same way and decoded by the
same rules.  They come from a file, whose absence means the defaults where the file is optional.
The environment may replace the address of the datastore, and nothing else; the file must be right
by itself even then.
-/

set_option autoImplicit false

namespace CouponDesk

/-! ## Formats -/

namespace Toml

/-- What a TOML value looks like.  A moment is a record none of whose fields is known. -/
def Value.shape : Value → Shape Value
  | .string text => .text text
  | .integer n => .integer n
  | .array items => .list items
  | .table _ entries => .record entries
  | .tables elements => .list (elements.map (.table .header))
  | .moment _ => .record []
  | .float _ | .boolean _ => .other

def view : View Value := ⟨Value.shape, true⟩

end Toml

namespace Json

def namedMember? : Option String × Value → Option (String × Value)
  | (some name, value) => some (name, value)
  | (none, _) => none

def Value.shape : Value → Shape Value
  | .string (some text) => .text text
  | .integer n => .integer n
  | .array items => .list items
  | .object members => .record (members.filterMap namedMember?)
  | .string none | .real _ | .bool _ | .null => .other

def view : View Value := ⟨Value.shape, false⟩

end Json

namespace Settings

def ofToml? (text : String) : Option Settings :=
  (Toml.readDocument? text).bind fun entries => Toml.view.settings? (.table .header entries)

def ofJson? (value : Json.Value) : Option Settings := Json.view.settings? value

def checked (s : Settings) : Except Error Settings := s.validate.map fun _ => s

def parse (text : String) : Except Error Settings :=
  match ofToml? text with
  | some s => s.checked
  | none => .error (.config .malformed)

/-! ## Files and environment -/

def urlVariable : String := "DATABASE_URL"

def ofRead (path : String) : Except FileFault String → Except Error Settings
  | .ok text => parse text
  | .error fault => .error (.config (.unreadable path fault))

def withUrl (s : Settings) (url : String) : Settings :=
  { s with database := { s.database with url } }

def resolve (file? : Option (Except FileFault String)) (url? : Option String) :
    Except Error Settings := do
  let s ← match file? with
    | some found => ofRead defaultPath found
    | none => pure {}
  match url? with
  | some url => (s.withUrl url).checked
  | none => return s

def load (files : Files) (path : String) : Except Error Settings :=
  ofRead path (files.readText path)

/-- What the optional file holds.  A path that leads nowhere counts as no file, whatever the reason:
access that is refused, or a link to nothing, is left out. -/
def file? (files : Files) : Option (Except FileFault String) :=
  if (files.at? defaultPath).isSome then some (files.readText defaultPath) else none

def loadAll (files : Files) (env : Environment) : Except Error Settings :=
  resolve (file? files) (env.lookup urlVariable)

end Settings

end CouponDesk
