import LoginServer.Lib.JsonDecode

/-!
# The language `json.decode` reads

The texts the decoder accepts and the values they stand for, as a grammar.
It is JSON with some licence: the last element of an array and the last field
of an object may be followed by a comma, a number is whatever `tonumber` takes
up to the next delimiter, and a high surrogate may be paired with any escape.

## Main definitions

* `IsValue`, `IsDocument` — the text of a value, and a whole text.
* `IsStringBody` — the characters of a string, with their escapes.
-/

namespace LoginServer.Lib

open LoginServer.Network (Bytes text)
open LoginServer.Verified.OneBased

/-! ## The grammar -/

/-- White space. -/
def Space (s : Bytes) : Prop := ∀ c ∈ s, spaceChars c = true

/-- Four hexadecimal digits. -/
def Hex4 (hex : Bytes) (n : Nat) : Prop :=
  (matchFront hexPattern hex = some hex) ∧ tonumber16 hex = some n

/-- The escape of a UTF-16 code unit follows. -/
def EscapeFollows (body : Bytes) : Prop :=
  ∃ hex n rest, Hex4 hex n ∧ body = text "\\u" ++ (hex ++ rest)

/-- The first half of a surrogate pair. -/
def IsHigh (n : Nat) : Prop := 0xd800 ≤ n ∧ n < 0xdc00

/-- The code point of a surrogate pair. -/
def pairCodepoint (high low : Nat) : Int :=
  ((high : Int) - 0xd800) * 0x400 + ((low : Int) - 0xdc00) + 0x10000

/-- `body`, between two quotes, stands for the string `s`. -/
inductive IsStringBody : Bytes → Bytes → Prop
  | nil : IsStringBody [] []
  | plain {c : UInt8} {body s : Bytes} (hcontrol : 32 ≤ c) (hquote : c ≠ 34)
      (hescape : c ≠ 92) :
      IsStringBody body s → IsStringBody (c :: body) (c :: s)
  | escape {c d : UInt8} {body s : Bytes} (h : escapeCharMapInv c = some d) :
      IsStringBody body s → IsStringBody (92 :: c :: body) (d :: s)
  | unicode {hex body s utf8 : Bytes} {n : Nat} (hhex : Hex4 hex n)
      (hlone : ¬ (IsHigh n ∧ EscapeFollows body)) (hutf8 : codepointToUtf8 n = .ok utf8) :
      IsStringBody body s → IsStringBody (text "\\u" ++ (hex ++ body)) (utf8 ++ s)
  | pair {high low body s utf8 : Bytes} {m n : Nat} (hhigh : Hex4 high m) (hm : IsHigh m)
      (hlow : Hex4 low n) (hutf8 : codepointToUtf8 (pairCodepoint m n) = .ok utf8) :
      IsStringBody body s →
      IsStringBody (text "\\u" ++ (high ++ (text "\\u" ++ (low ++ body)))) (utf8 ++ s)

/-- The table of an array from index `n` on, put into `res`. -/
def fillIndices (res : Entries) (n : Nat) (xs : List Tree) : Entries :=
  (xs.zipIdx n).foldl (fun res x => res.set (.index x.2) x.1) res

/-- The table of an object, put into `res`. -/
def fillNames (res : Entries) (fields : List (Bytes × Tree)) : Entries :=
  fields.foldl (fun res field => res.set (.name field.1) field.2) res

section
variable (numerals : Numerals)

mutual

/-- The text of a value. -/
inductive IsValue : Bytes → Tree → Prop
  | string {body s : Bytes} (h : IsStringBody body s) : IsValue (34 :: (body ++ [34])) (.string s)
  | number {t : Bytes} {n : Number} (hfirst : t.head?.bind charFuncMap = some .number)
      (htoken : ∀ c ∈ t, delimChars c = false) (hvalue : numerals.tonumber t = some n) :
      IsValue t (.number n)
  | literal {word : Bytes} (h : literals word = true) : IsValue word (literalMap word)
  | array {t : Bytes} {xs : List Tree} (h : IsArrayBody t xs) :
      IsValue (text "[" ++ (t ++ text "]")) (.table (fillIndices [] 1 xs))
  | object {t : Bytes} {fields : List (Bytes × Tree)} (h : IsObjectBody t fields) :
      IsValue (text "\x7b" ++ (t ++ text "\x7d")) (.table (fillNames [] fields))

/-- What stands between the brackets of an array. -/
inductive IsArrayBody : Bytes → List Tree → Prop
  | empty {a : Bytes} (ha : Space a) : IsArrayBody a []
  | last {a t b : Bytes} {x : Tree} (ha : Space a) (ht : IsValue t x) (hb : Space b) :
      IsArrayBody (a ++ (t ++ b)) [x]
  | cons {a t b u : Bytes} {x : Tree} {xs : List Tree} (ha : Space a) (ht : IsValue t x)
      (hb : Space b) (hu : IsArrayBody u xs) :
      IsArrayBody (a ++ (t ++ (b ++ (text "," ++ u)))) (x :: xs)

/-- What stands between the braces of an object. -/
inductive IsObjectBody : Bytes → List (Bytes × Tree) → Prop
  | empty {a : Bytes} (ha : Space a) : IsObjectBody a []
  | last {t b : Bytes} {field : Bytes × Tree} (ht : IsField t field) (hb : Space b) :
      IsObjectBody (t ++ b) [field]
  | cons {t b u : Bytes} {field : Bytes × Tree} {fields : List (Bytes × Tree)}
      (ht : IsField t field) (hb : Space b) (hu : IsObjectBody u fields) :
      IsObjectBody (t ++ (b ++ (text "," ++ u))) (field :: fields)

/-- A key, a colon and a value. -/
inductive IsField : Bytes → Bytes × Tree → Prop
  | mk {a body b c t : Bytes} {key : Bytes} {x : Tree} (ha : Space a)
      (hkey : IsStringBody body key) (hb : Space b) (hc : Space c) (ht : IsValue t x) :
      IsField (a ++ (34 :: (body ++ (34 :: (b ++ (text ":" ++ (c ++ t))))))) (key, x)

end

/-- A whole text: one value with white space around it. -/
def IsDocument (str : Bytes) (x : Tree) : Prop :=
  ∃ a t b, Space a ∧ IsValue numerals t x ∧ Space b ∧ str = a ++ (t ++ b)

end

end LoginServer.Lib
