import Mathlib.Data.Int.Notation
import Mathlib.Data.Nat.Notation
import Mathlib.Data.Rat.Init
import WmAutopilot.Js.Throw

/-!
# The platform

What programs use of the JavaScript platform and is not modelled: JSON, dates, URLs, hashes and
conversions, as a parameter with the laws that are relied on.
-/

set_option autoImplicit false

namespace Js

/-- the parts of a URL; `authority` is what stands between the protocol and the path. -/
structure Url where
  protocol : String
  authority : String
  pathname : String
  search : String := ""
  hash : String := ""
  origin : String

/-- `url.toString()` -/
def Url.href (u : Url) : String := u.protocol ++ u.authority ++ u.pathname ++ u.search ++ u.hash

/-- What is used of the platform.  `none` is a throw, and for `dateParse` and `toNumber` it is
`NaN`. -/
structure Platform where
  jsonParse : String → Option Value
  /-- `Date.parse(value)` -/
  dateParse : Value → Option ℤ
  /-- `new URL(value)` -/
  url : String → Option Url
  /-- `new URL(value, base)` -/
  urlAt : String → String → Option Url
  sha256 : String → String
  /-- the text of base64 data. -/
  base64Text : String → String
  /-- `String(value)` -/
  toText : Value → String
  /-- `Number(value)` -/
  toNumber : Value → Option ℚ
  toNumber_num : ∀ q, toNumber (.num q) = some q
  encodeURIComponent : String → String

/-- `Number` where only JSON numbers are converted. -/
def numberOf : Value → Option ℚ
  | .num q => some q
  | _ => none

theorem numberOf_num (q : ℚ) : numberOf (.num q) = some q := rfl

end Js
