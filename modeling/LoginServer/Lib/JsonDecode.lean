import Mathlib.Data.Rat.Defs
import LoginServer.Network.Protocol
import LoginServer.Verified.KeyedEntries
import LoginServer.Verified.OneBased

/-!
# `json.decode`

The decoder of `lib/json.lua`, function by function: indices count from one,
`str:sub(i, i)` is empty behind the end, and every parser returns its value
and the index behind it.

A table `json.decode` makes is in one place only, so a result is a tree; its
entries are listed in the order in which the decoder set them.  `tonumber` and
`string.format('%.14g', x)` belong to the Lua implementation and are
parameters.  The rounds of the loops and the depth of the recursion are bounded
by `fuel`; the fuel `decode` starts with is never used up
(`decode_error_reported`).
-/

namespace LoginServer.Lib

open LoginServer.Network (Bytes text toDecimal)
open LoginServer.Verified
open LoginServer.Verified.OneBased

/-! ## Values -/

/-- A Lua number. -/
inductive Number where
  | finite (value : Rat)
  | infinite (negative : Bool)
  | nan
  deriving DecidableEq, Repr

/-- The keys of the tables `json.decode` makes. -/
inductive Key where
  | index (n : Nat)
  | name (s : Bytes)
  deriving DecidableEq, Repr

/-- What `json.decode` returns. -/
inductive Tree where
  | nil
  | boolean (value : Bool)
  | number (value : Number)
  | string (value : Bytes)
  | table (entries : List (Key × Tree))

abbrev Entries := List (Key × Tree)

/-- `t[key] = value`; `nil` takes the entry out. -/
def Entries.set (entries : Entries) (key : Key) : Tree → Entries
  | .nil => KeyedEntries.erase entries key
  | value => KeyedEntries.store entries key value

/-- The conversions of the Lua implementation between numbers and texts. -/
structure Numerals where
  tonumber : Bytes → Option Number
  /-- `string.format('%.14g', x)` -/
  format : Rat → Bytes

/-! ## Errors -/

inductive DecodeMessage where
  | controlCharacter
  | invalidUnicodeEscape
  | invalidEscapeChar (c : Option UInt8)
  | unclosedString
  | invalidNumber (s : Bytes)
  | invalidLiteral (word : Bytes)
  | expectedBracketOrComma
  | expectedStringKey
  | expectedColon
  | expectedBraceOrComma
  | unexpectedCharacter (chr : Option UInt8)
  | trailingGarbage
  deriving DecidableEq, Repr

def DecodeMessage.text : DecodeMessage → Bytes
  | controlCharacter => Network.text "control character in string"
  | invalidUnicodeEscape => Network.text "invalid unicode escape in string"
  | invalidEscapeChar c =>
      Network.text "invalid escape char '" ++ c.toList ++ Network.text "' in string"
  | unclosedString => Network.text "expected closing quote for string"
  | invalidNumber s => Network.text "invalid number '" ++ s ++ Network.text "'"
  | invalidLiteral word => Network.text "invalid literal '" ++ word ++ Network.text "'"
  | expectedBracketOrComma => Network.text "expected ']' or ','"
  | expectedStringKey => Network.text "expected string for key"
  | expectedColon => Network.text "expected ':' after key"
  | expectedBraceOrComma => Network.text "expected '\x7d' or ','"
  | unexpectedCharacter chr =>
      Network.text "unexpected character '" ++ chr.toList ++ Network.text "'"
  | trailingGarbage => Network.text "trailing garbage"

inductive DecodeError where
  /-- `decode_error`: `'%s at line %d col %d'` -/
  | located (msg : DecodeMessage) (line col : Nat)
  /-- `invalid unicode codepoint '%x'` -/
  | codepoint (n : Int)
  /-- not an error of the source -/
  | outOfFuel
  deriving DecidableEq, Repr

/-- `%x`, of a number that is not negative. -/
def toHexadecimal (n : Nat) : Bytes :=
  (Nat.toDigits 16 n).map fun c => UInt8.ofNat c.toNat

/-- The string that is raised, behind the place in `lib/json.lua` that `error`
puts in front of it; `%s` takes a message whole, a zero byte included. -/
def DecodeError.text : DecodeError → Bytes
  | located msg line col =>
      msg.text ++ Network.text " at line " ++ toDecimal line ++
        Network.text " col " ++ toDecimal col
  | codepoint n =>
      Network.text "invalid unicode codepoint '" ++ toHexadecimal n.toNat ++ Network.text "'"
  | outOfFuel => []

/-- The line and the column `decode_error` counts for an index. -/
def position (str : Bytes) (idx : Nat) : Nat × Nat :=
  (List.range (idx - 1)).foldl (fun (line, col) i =>
    if at? str (i + 1) = some '\n'.toUInt8 then (line + 1, 1) else (line, col + 1)) (1, 1)

/-- `decode_error(str, idx, msg)`. -/
def decodeError (str : Bytes) (idx : Nat) (msg : DecodeMessage) : DecodeError :=
  .located msg (position str idx).1 (position str idx).2

/-! ## Character sets -/

def spaceChars (c : UInt8) : Bool := c ∈ text " \t\r\n"

def delimChars (c : UInt8) : Bool := c ∈ text " \t\r\n]\x7d,"

def escapeChars (c : UInt8) : Bool := c ∈ text "\\/\"bfnrtu"

def escapeCharMapInv (c : UInt8) : Option UInt8 :=
  if c = '/'.toUInt8 then some '/'.toUInt8
  else if c = '\\'.toUInt8 then some '\\'.toUInt8
  else if c = '"'.toUInt8 then some '"'.toUInt8
  else if c = 'b'.toUInt8 then some 8
  else if c = 'f'.toUInt8 then some 12
  else if c = 'n'.toUInt8 then some 10
  else if c = 'r'.toUInt8 then some 13
  else if c = 't'.toUInt8 then some 9
  else none

def literals (word : Bytes) : Bool :=
  word = text "true" ∨ word = text "false" ∨ word = text "null"

def literalMap (word : Bytes) : Tree :=
  if word = text "true" then .boolean true
  else if word = text "false" then .boolean false
  else .nil

/-- `next_char(str, idx, set, negate)`. -/
def nextChar (str : Bytes) (idx : Nat) (set : UInt8 → Bool) (negate : Bool) : Nat :=
  find (fun c => set c != negate) str idx

/-! ## Strings -/

def byteOf (n : Int) : UInt8 := UInt8.ofNat n.toNat

def codepointToUtf8 (n : Int) : Except DecodeError Bytes :=
  if n ≤ 0x7f then .ok [byteOf n]
  else if n ≤ 0x7ff then .ok [byteOf (n / 64 + 192), byteOf (n % 64 + 128)]
  else if n ≤ 0xffff then
    .ok [byteOf (n / 4096 + 224), byteOf (n % 4096 / 64 + 128), byteOf (n % 64 + 128)]
  else if n ≤ 0x10ffff then
    .ok [byteOf (n / 262144 + 240), byteOf (n % 262144 / 4096 + 128),
      byteOf (n % 4096 / 64 + 128), byteOf (n % 64 + 128)]
  else .error (.codepoint n)

def hexDigit? (c : UInt8) : Option Nat :=
  if 48 ≤ c ∧ c ≤ 57 then some (c.toNat - 48)
  else if 97 ≤ c ∧ c ≤ 102 then some (c.toNat - 87)
  else if 65 ≤ c ∧ c ≤ 70 then some (c.toNat - 55)
  else none

/-- `%x`. -/
def isHexDigit (c : UInt8) : Bool := (hexDigit? c).isSome

/-- `tonumber(s, 16)`, for digits. -/
def tonumber16 (s : Bytes) : Option Nat :=
  if s = [] then none
  else s.foldl (fun n c => n.bind fun n => (hexDigit? c).map (16 * n + ·)) (some 0)

/-- `'%x%x%x%x'`. -/
def hexPattern : List (UInt8 → Bool) := [isHexDigit, isHexDigit, isHexDigit, isHexDigit]

/-- `'[dD][89aAbB]%x%x'`. -/
def highPattern : List (UInt8 → Bool) :=
  [(· ∈ text "dD"), (· ∈ text "89aAbB"), isHexDigit, isHexDigit]

/-- `'\u'`. -/
def escapePattern : List (UInt8 → Bool) := [(· = '\\'.toUInt8), (· = 'u'.toUInt8)]

/-- `'[dD][89aAbB]%x%x\u%x%x%x%x'`. -/
def pairPattern : List (UInt8 → Bool) := highPattern ++ (escapePattern ++ hexPattern)

/-- The two calls of `str:match` at index `init`. -/
def matchEscape (str : Bytes) (init : Nat) : Option Bytes :=
  match matchFront pairPattern (str.drop (init - 1)) with
  | some hex => some hex
  | none => matchFront hexPattern (str.drop (init - 1))

def parseUnicodeEscape (s : Bytes) : Except DecodeError Bytes :=
  let n1 := (tonumber16 (sub s 1 4)).getD 0
  match tonumber16 (sub s 7 10) with
  | some n2 =>
      codepointToUtf8 (((n1 : Int) - 0xd800) * 0x400 + ((n2 : Int) - 0xdc00) + 0x10000)
  | none => codepointToUtf8 n1

/-- The loop of `parse_string(str, i)`. -/
def parseStringLoop (str : Bytes) (i : Nat) : Nat → Bytes → Nat → Nat →
    Except DecodeError (Bytes × Nat)
  | 0, _, _, _ => .error .outOfFuel
  | fuel + 1, res, j, k =>
      match at? str j with
      | none => .error (decodeError str i .unclosedString)
      | some x =>
          if x < 32 then .error (decodeError str j .controlCharacter)
          else if x = 92 then
            let res := res ++ sub str k (j - 1)
            let j := j + 1
            let c := at? str j
            if c = some 'u'.toUInt8 then
              match matchEscape str (j + 1) with
              | none => .error (decodeError str (j - 1) .invalidUnicodeEscape)
              | some hex =>
                  match parseUnicodeEscape hex with
                  | .error e => .error e
                  | .ok utf8 =>
                      let j := j + hex.length
                      parseStringLoop str i fuel (res ++ utf8) (j + 1) (j + 1)
            else if c.any escapeChars then
              parseStringLoop str i fuel (res ++ (c.bind escapeCharMapInv).toList) (j + 1) (j + 1)
            else .error (decodeError str (j - 1) (.invalidEscapeChar c))
          else if x = 34 then .ok (res ++ sub str k (j - 1), j + 1)
          else parseStringLoop str i fuel res (j + 1) k

/-- `parse_string(str, i)`. -/
def parseString (str : Bytes) (i : Nat) : Except DecodeError (Bytes × Nat) :=
  parseStringLoop str i (str.length + 1) [] (i + 1) (i + 1)

/-! ## Values -/

section
variable (numerals : Numerals) (str : Bytes)

/-- `parse_number(str, i)`. -/
def parseNumber (i : Nat) : Except DecodeError (Tree × Nat) :=
  let x := nextChar str i delimChars false
  let s := sub str i (x - 1)
  match numerals.tonumber s with
  | none => .error (decodeError str i (.invalidNumber s))
  | some n => .ok (.number n, x)

/-- `parse_literal(str, i)`. -/
def parseLiteral (i : Nat) : Except DecodeError (Tree × Nat) :=
  let x := nextChar str i delimChars false
  let word := sub str i (x - 1)
  if literals word then .ok (literalMap word, x)
  else .error (decodeError str i (.invalidLiteral word))

/-- The functions of `char_func_map`. -/
inductive Parser where
  | string | number | literal | array | object
  deriving DecidableEq, Repr

def charFuncMap (chr : UInt8) : Option Parser :=
  if chr = '"'.toUInt8 then some .string
  else if chr ∈ text "0123456789-" then some .number
  else if chr ∈ text "tfn" then some .literal
  else if chr = '['.toUInt8 then some .array
  else if chr = '{'.toUInt8 then some .object
  else none

mutual

/-- `parse(str, idx)`. -/
def parse : Nat → Nat → Except DecodeError (Tree × Nat)
  | 0, _ => .error .outOfFuel
  | fuel + 1, idx =>
      let chr := at? str idx
      match chr.bind charFuncMap with
      | some .string =>
          match parseString str idx with
          | .error e => .error e
          | .ok (s, i) => .ok (.string s, i)
      | some .number => parseNumber numerals str idx
      | some .literal => parseLiteral str idx
      | some .array => parseArray fuel (idx + 1) [] 1
      | some .object => parseObject fuel (idx + 1) []
      | none => .error (decodeError str idx (.unexpectedCharacter chr))
termination_by structural fuel => fuel

/-- The loop of `parse_array(str, i)`. -/
def parseArray : Nat → Nat → Entries → Nat → Except DecodeError (Tree × Nat)
  | 0, _, _, _ => .error .outOfFuel
  | fuel + 1, i, res, n =>
      let i := nextChar str i spaceChars true
      if at? str i = some ']'.toUInt8 then .ok (.table res, i + 1)
      else
        match parse fuel i with
        | .error e => .error e
        | .ok (x, i) =>
            let res := res.set (.index n) x
            let i := nextChar str i spaceChars true
            let chr := at? str i
            let i := i + 1
            if chr = some ']'.toUInt8 then .ok (.table res, i)
            else if chr ≠ some ','.toUInt8 then
              .error (decodeError str i .expectedBracketOrComma)
            else parseArray fuel i res (n + 1)
termination_by structural fuel => fuel

/-- The loop of `parse_object(str, i)`; the key is at a quote, where `parse` is
`parse_string`. -/
def parseObject : Nat → Nat → Entries → Except DecodeError (Tree × Nat)
  | 0, _, _ => .error .outOfFuel
  | fuel + 1, i, res =>
      let i := nextChar str i spaceChars true
      if at? str i = some '}'.toUInt8 then .ok (.table res, i + 1)
      else if at? str i ≠ some '"'.toUInt8 then
        .error (decodeError str i .expectedStringKey)
      else
        match parseString str i with
        | .error e => .error e
        | .ok (key, i) =>
            let i := nextChar str i spaceChars true
            if at? str i ≠ some ':'.toUInt8 then .error (decodeError str i .expectedColon)
            else
              let i := nextChar str (i + 1) spaceChars true
              match parse fuel i with
              | .error e => .error e
              | .ok (val, i) =>
                  let res := res.set (.name key) val
                  let i := nextChar str i spaceChars true
                  let chr := at? str i
                  let i := i + 1
                  if chr = some '}'.toUInt8 then .ok (.table res, i)
                  else if chr ≠ some ','.toUInt8 then
                    .error (decodeError str i .expectedBraceOrComma)
                  else parseObject fuel i res
termination_by structural fuel => fuel

end

/-- `json.decode(str)`, for a string. -/
def decode : Except DecodeError Tree :=
  match parse numerals str (2 * str.length + 2) (nextChar str 1 spaceChars true) with
  | .error e => .error e
  | .ok (res, idx) =>
      let idx := nextChar str idx spaceChars true
      if idx ≤ str.length then .error (decodeError str idx .trailingGarbage) else .ok res

end

end LoginServer.Lib
