import CouponDesk.Coupon
import CouponDesk.Toml.Quoted

/-!
# Details as a TOML document

The printed form of a coupon's details: four lines, one key each.
-/

set_option autoImplicit false

namespace CouponDesk

namespace Toml

def stringItems : List String → List Char
  | [] => []
  | [item] => Quoted.write item.toList
  | item :: rest => Quoted.write item.toList ++ ',' :: ' ' :: stringItems rest

def pairLine (key : String) (value : List Char) : List Char :=
  key.toList ++ ' ' :: '=' :: ' ' :: (value ++ ['\n'])

end Toml

namespace Details

def tomlChars (d : Details) : List Char :=
  Toml.pairLine "name" (Toml.Quoted.write d.name.toList) ++
  Toml.pairLine "total_amount" (Numeral.signed d.total) ++
  Toml.pairLine "remaining_amount" (Numeral.signed d.remaining) ++
  Toml.pairLine "claimants" ('[' :: (Toml.stringItems d.claimants ++ [']']))

def toml (d : Details) : String := String.ofList d.tomlChars

end Details

end CouponDesk
