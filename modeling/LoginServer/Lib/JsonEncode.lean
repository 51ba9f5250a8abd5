import LoginServer.Lib.JsonDecode
import LoginServer.Verified.PathMarks

/-!
# `json.encode`

The encoder of `lib/json.lua`.  Its argument is a value of a Lua program, whose
tables are objects on a heap: two fields may hold one table, and a table may
hold itself.  The heap does not change while the encoder runs; `stack` is the
table of the source, which has the tables the walk is inside of.

What `pairs` and `#` make of a table is Lua's choice, and a table carries that
choice: its entries are listed in the order of `pairs`, and `border` is what
`#` answers, any border there is.
-/

namespace LoginServer.Lib

open LoginServer.Network (Bytes text)
open LoginServer.Verified.PathMarks

/-! ## Values -/

/-- The types `json.encode` has no function for. -/
inductive OtherType where
  | function
  | userdata
  | thread
  deriving DecidableEq, Repr

/-- A Lua value; `ρ` are the tables of the heap. -/
inductive LuaValue (ρ : Type) where
  | nil
  | boolean (value : Bool)
  | number (value : Number)
  | string (value : Bytes)
  | table (r : ρ)
  | other (type : OtherType) (id : Nat)
  deriving DecidableEq, Repr

namespace LuaValue
variable {ρ : Type}

/-- An integer, as a number. -/
def index (n : Nat) : LuaValue ρ := .number (.finite n)

/-- `type(val) == 'number'`. -/
def isNumber : LuaValue ρ → Bool
  | .number _ => true
  | _ => false

/-- `type(val) == 'string'`. -/
def isString : LuaValue ρ → Bool
  | .string _ => true
  | _ => false

end LuaValue

section
variable {ρ : Type} [DecidableEq ρ]

/-- `t[k]` of the entries of a table. -/
def rawgetOf (entries : List (LuaValue ρ × LuaValue ρ)) (k : LuaValue ρ) : LuaValue ρ :=
  (entries.lookup k).getD .nil

/-- What `#` may answer for the entries of a table. -/
def IsBorder (entries : List (LuaValue ρ × LuaValue ρ)) (n : Nat) : Prop :=
  (n = 0 ∨ rawgetOf entries (.index n) ≠ .nil) ∧ rawgetOf entries (.index (n + 1)) = .nil

instance (entries : List (LuaValue ρ × LuaValue ρ)) (n : Nat) : Decidable (IsBorder entries n) :=
  inferInstanceAs (Decidable (_ ∧ _))

end

/-- A table without a metatable. -/
structure LuaTable (ρ : Type) [DecidableEq ρ] where
  /-- in the order of `pairs` -/
  entries : List (LuaValue ρ × LuaValue ρ)
  /-- what `#` answers -/
  border : Nat
  nodup : (entries.map Prod.fst).Nodup
  keys : ∀ e ∈ entries, e.1 ≠ .nil ∧ e.1 ≠ .number .nan
  values : ∀ e ∈ entries, e.2 ≠ .nil
  isBorder : IsBorder entries border

namespace LuaTable
variable {ρ : Type} [DecidableEq ρ] (t : LuaTable ρ)

def rawget (k : LuaValue ρ) : LuaValue ρ := rawgetOf t.entries k

/-- What `ipairs` visits; there are no more indices in a row than entries. -/
def ipairs : List (LuaValue ρ) :=
  ((List.range t.entries.length).map fun i => t.rawget (.index (i + 1))).takeWhile (· ≠ .nil)

end LuaTable

/-! ## Errors -/

/-- The errors, by what they are about: `circular reference`, `invalid table:
mixed or invalid key types`, `invalid table: sparse array`, `unexpected number
value '...'` and `unexpected type '...'`. -/
inductive EncodeError where
  | circularReference
  | mixedKeys
  | sparseArray
  | unexpectedNumber (val : Number)
  | unexpectedType (type : OtherType)
  /-- not an error of the source -/
  | outOfFuel
  deriving DecidableEq, Repr

/-! ## Strings and numbers -/

def escapeCharMap (c : UInt8) : Option UInt8 :=
  if c = '\\'.toUInt8 then some '\\'.toUInt8
  else if c = '"'.toUInt8 then some '"'.toUInt8
  else if c = 8 then some 'b'.toUInt8
  else if c = 12 then some 'f'.toUInt8
  else if c = 10 then some 'n'.toUInt8
  else if c = 13 then some 'r'.toUInt8
  else if c = 9 then some 't'.toUInt8
  else none

/-- A hexadecimal digit, as `%x` prints it. -/
def hexDigit (n : Nat) : UInt8 := UInt8.ofNat (if n < 10 then 48 + n else 87 + n)

/-- `string.format('u%04x', n)`, for `n` below `0x10000`. -/
def formatU04x (n : Nat) : Bytes :=
  text "u" ++ [hexDigit (n / 4096), hexDigit (n / 256 % 16), hexDigit (n / 16 % 16),
    hexDigit (n % 16)]

/-- `escape_char(c)`. -/
def escapeChar (c : UInt8) : Bytes :=
  text "\\" ++
    match escapeCharMap c with
    | some d => [d]
    | none => formatU04x c.toNat

/-- `[%z\1-\31\\"]`. -/
def isEscaped (c : UInt8) : Bool := c < 32 || c = '\\'.toUInt8 || c = '"'.toUInt8

/-- `encode_string(val)`. -/
def encodeString (val : Bytes) : Bytes :=
  text "\"" ++ (val.flatMap (fun c => if isEscaped c then escapeChar c else [c]) ++ text "\"")

def encodeBoolean (val : Bool) : Bytes := if val then text "true" else text "false"

/-- `table.concat(res, ',')`. -/
def concat (res : List Bytes) : Bytes := (text ",").intercalate res

section
variable (numerals : Numerals)

/-- `encode_number(val)`. -/
def encodeNumber : Number → Except EncodeError Bytes
  | .finite val => .ok (numerals.format val)
  | val => .error (.unexpectedNumber val)

variable {ρ : Type} [DecidableEq ρ]

/-- The tables the encoder is inside of. -/
abbrev Stack (ρ : Type) := ρ → Bool

/-! ## Tables -/

/-- A loop that puts what `f` returns into `res`, one element after the other. -/
def encodeEach {α : Type} (f : α → Stack ρ → Except EncodeError (Bytes × Stack ρ)) :
    List α → Stack ρ → Except EncodeError (List Bytes × Stack ρ)
  | [], stack => .ok ([], stack)
  | x :: xs, stack =>
      match f x stack with
      | .error e => .error e
      | .ok (s, stack) =>
          match encodeEach f xs stack with
          | .error e => .error e
          | .ok (res, stack) => .ok (s :: res, stack)

/-- One round of the loop over the fields of an object. -/
def encodeField (encode : LuaValue ρ → Stack ρ → Except EncodeError (Bytes × Stack ρ)) :
    LuaValue ρ × LuaValue ρ → Stack ρ → Except EncodeError (Bytes × Stack ρ)
  | (.string k, v), stack =>
      match encode v stack with
      | .error e => .error e
      | .ok (s, stack) => .ok (encodeString k ++ (text ":" ++ s), stack)
  | _, _ => .error .mixedKeys

/-- `rawget(val, 1) ~= nil or next(val) == nil`. -/
def LuaTable.IsArray (t : LuaTable ρ) : Prop := t.rawget (.index 1) ≠ .nil ∨ t.entries = []

instance (t : LuaTable ρ) : Decidable t.IsArray := inferInstanceAs (Decidable (_ ∨ _))

/-- `stack[val] = nil`, and the text of the table. -/
def leaveTable (opening closing : Bytes) (val : ρ) :
    Except EncodeError (List Bytes × Stack ρ) → Except EncodeError (Bytes × Stack ρ)
  | .error e => .error e
  | .ok (res, stack) => .ok (opening ++ (concat res ++ closing), unmark stack val)

variable (heap : ρ → LuaTable ρ)

/-- `encode_table(val, stack)`. -/
def encodeTable (encode : LuaValue ρ → Stack ρ → Except EncodeError (Bytes × Stack ρ))
    (val : ρ) (stack : Stack ρ) : Except EncodeError (Bytes × Stack ρ) :=
  if stack val then .error .circularReference
  else if (heap val).IsArray then
    if ((heap val).entries.any fun e => !e.1.isNumber) then .error .mixedKeys
    else if (heap val).entries.length ≠ (heap val).border then .error .sparseArray
    else
      leaveTable (text "[") (text "]") val
        (encodeEach encode (heap val).ipairs (mark stack val))
  else
    leaveTable (text "\x7b") (text "\x7d") val
      (encodeEach (encodeField encode) (heap val).entries (mark stack val))

/-- `encode(val, stack)`. -/
def encodeValue : Nat → LuaValue ρ → Stack ρ → Except EncodeError (Bytes × Stack ρ)
  | 0, _, _ => .error .outOfFuel
  | fuel + 1, val, stack =>
      match val with
      | .nil => .ok (text "null", stack)
      | .table r => encodeTable heap (encodeValue fuel) r stack
      | .string s => .ok (encodeString s, stack)
      | .number x =>
          match encodeNumber numerals x with
          | .error e => .error e
          | .ok s => .ok (s, stack)
      | .boolean b => .ok (encodeBoolean b, stack)
      | .other type _ => .error (.unexpectedType type)

/-- `json.encode(val)`. -/
def encode [Fintype ρ] (val : LuaValue ρ) : Except EncodeError Bytes :=
  match encodeValue numerals heap (Fintype.card ρ + 1) val (fun _ => false) with
  | .error e => .error e
  | .ok (s, _) => .ok s

end

end LoginServer.Lib
