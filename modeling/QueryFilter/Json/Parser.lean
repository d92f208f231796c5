import QueryFilter.Json.Basic
import QueryFilter.Binary64.Reading

/-! # Reading JSON text

A text holds one value between blanks. Of a repeated key the first place and the last value count.
A text that is no value is refused with what is wrong and where: the line, and the number of bytes
of that line up to the place.
-/

namespace QueryFilter.Json

inductive Flaw where
  | endInValue
  | endInString
  | endInList
  | endInObject
  | unknownWord
  | noValue
  | malformedNumber
  | numberTooLarge
  | controlCharacter
  | unknownEscape
  | loneSurrogate
  | missingSurrogate
  | trailingComma
  | noListSeparator
  | noObjectSeparator
  | keyNotString
  | noColon
  | trailingText
  | tooDeep
deriving DecidableEq

def Flaw.message : Flaw → String
  | .endInValue => "EOF while parsing a value"
  | .endInString => "EOF while parsing a string"
  | .endInList => "EOF while parsing a list"
  | .endInObject => "EOF while parsing an object"
  | .unknownWord => "expected ident"
  | .noValue => "expected value"
  | .malformedNumber => "invalid number"
  | .numberTooLarge => "number out of range"
  | .controlCharacter => "control character (\\u0000-\\u001F) found while parsing a string"
  | .unknownEscape => "invalid escape"
  | .loneSurrogate => "lone leading surrogate in hex escape"
  | .missingSurrogate => "unexpected end of hex escape"
  | .trailingComma => "trailing comma"
  | .noListSeparator => "expected `,` or `]`"
  | .noObjectSeparator => "expected `,` or `\x7d`"
  | .keyNotString => "key must be a string"
  | .noColon => "expected `:`"
  | .trailingText => "trailing characters"
  | .tooDeep => "recursion limit exceeded"

structure ParseError where
  flaw : Flaw
  line : Nat
  column : Nat
deriving DecidableEq

def ParseError.message (e : ParseError) : String :=
  e.flaw.message ++ " at line " ++ toString e.line ++ " column " ++ toString e.column

namespace Parser

/-- A flaw, and how many bytes of the text lie behind it. -/
structure Stop where
  flaw : Flaw
  unread : Nat

/-- Reads a value off the front of a text and returns it with the rest. -/
abbrev Scan (α : Type) := List Char → Except Stop (α × List Char)

def byteSize (text : List Char) : Nat := text.foldl (fun size c => size + c.utf8Size) 0

/-- Stops with the first `past` bytes of the text already read. -/
def stop {α : Type} (flaw : Flaw) (text : List Char) (past : Nat) : Except Stop α :=
  .error ⟨flaw, byteSize text - past⟩

def skipBlanks (text : List Char) : List Char :=
  text.dropWhile fun c => c = ' ' || c = '\n' || c = '\t' || c = '\r'

def scanWord (value : Json) : List Char → Scan Json
  | [], text => .ok (value, text)
  | _ :: _, [] => stop .endInValue [] 0
  | c :: word, d :: text =>
    if c = d then scanWord value word text else stop .unknownWord (d :: text) 1

/-! ## Numbers -/

/-- Exponents beyond this are not computed. -/
def exponentLimit : Nat := 2147483647

/-- The digits behind the one with which the exponent passes the limit. -/
def pastExponentLimit (value : Nat) : List Char → List Char
  | [] => []
  | d :: rest =>
    let value := 10 * value + (d.toNat - '0'.toNat)
    if exponentLimit < value then rest else pastExponentLimit value rest

def realNumber (negative : Bool) (digits : List Char) (exponent : Int) : Scan Number := fun rest =>
  match Binary64.ofDecimal? negative (Binary64.digitsValue digits) exponent with
  | some x => .ok (.real x, rest)
  | none => stop .numberTooLarge rest 0

/-- Integers that fit no word and minus zero are reals. -/
def wholeNumber (negative : Bool) (digits : List Char) : Scan Number := fun rest =>
  let n : Int := Binary64.digitsValue digits
  match WordInt.ofInt? (if negative then -n else n) with
  | some m =>
    if negative && n = 0 then realNumber negative digits 0 rest else .ok (.integer m, rest)
  | none => realNumber negative digits 0 rest

def isExponentMark (c : Char) : Bool := c = 'e' || c = 'E'

/-- The exponent behind its mark; `scale` is the number of digits behind the point. -/
def scanExponent (negative : Bool) (digits : List Char) (scale : Nat) : Scan Number := fun text =>
  let (downward, text) := Binary64.readSign text
  let exponentDigits := text.takeWhile Char.isDigit
  let rest := text.dropWhile Char.isDigit
  match exponentDigits, text with
  | [], [] => stop .endInValue [] 0
  | [], _ :: _ => stop .malformedNumber text 1
  | _ :: _, _ =>
    let exponent : Int := Binary64.digitsValue exponentDigits
    if exponent ≤ exponentLimit then
      realNumber negative digits ((if downward then -exponent else exponent) - scale) rest
    else if downward || Binary64.digitsValue digits = 0 then
      realNumber negative ['0'] 0 rest
    else stop .numberTooLarge (pastExponentLimit 0 exponentDigits ++ rest) 0

def scanFraction (negative : Bool) (whole : List Char) : Scan Number := fun text =>
  let fraction := text.takeWhile Char.isDigit
  let rest := text.dropWhile Char.isDigit
  match fraction, rest with
  | [], [] => stop .endInValue [] 0
  | [], _ :: _ => stop .malformedNumber rest 1
  | _ :: _, [] => realNumber negative (whole ++ fraction) (-(fraction.length : Int)) []
  | _ :: _, c :: after =>
    if isExponentMark c then scanExponent negative (whole ++ fraction) fraction.length after
    else realNumber negative (whole ++ fraction) (-(fraction.length : Int)) rest

/-- A number behind its sign; a zero in front is the only digit before the point. -/
def scanNumber (negative : Bool) : Scan Number := fun text =>
  let whole := text.takeWhile Char.isDigit
  let rest := text.dropWhile Char.isDigit
  match whole, text with
  | [], [] => stop .endInValue [] 0
  | [], _ :: _ => stop .malformedNumber text 1
  | '0' :: _ :: _, _ => stop .malformedNumber text 2
  | _ :: _, _ =>
    match rest with
    | [] => wholeNumber negative whole []
    | c :: after =>
      if c = '.' then scanFraction negative whole after
      else if isExponentMark c then scanExponent negative whole 0 after
      else wholeNumber negative whole rest

/-! ## Strings -/

def hexValue? (c : Char) : Option Nat :=
  if c.isDigit then some (c.toNat - '0'.toNat)
  else if 'a' ≤ c ∧ c ≤ 'f' then some (c.toNat - 'a'.toNat + 10)
  else if 'A' ≤ c ∧ c ≤ 'F' then some (c.toNat - 'A'.toNat + 10)
  else none

def codeUnit? (a b c d : Char) : Option Nat := do
  return 4096 * (← hexValue? a) + 256 * (← hexValue? b) + 16 * (← hexValue? c) + (← hexValue? d)

def isLeading (unit : Nat) : Bool := decide (0xD800 ≤ unit ∧ unit ≤ 0xDBFF)

def isTrailing (unit : Nat) : Bool := decide (0xDC00 ≤ unit ∧ unit ≤ 0xDFFF)

def joinSurrogates (leading trailing : Nat) : Char :=
  Char.ofNat (0x10000 + 0x400 * (leading - 0xD800) + (trailing - 0xDC00))

/-- Four bytes that are no hexadecimal digits, or less than four bytes. -/
def stopInCodeUnit {α : Type} (text : List Char) : Except Stop α :=
  if byteSize text < 4 then stop .endInString [] 0 else stop .unknownEscape text 4

def simpleEscape? (c : Char) : Option Char :=
  if c = '"' || c = '\\' || c = '/' then some c
  else if c = 'b' then some '\x08'
  else if c = 'f' then some '\x0c'
  else if c = 'n' then some '\n'
  else if c = 'r' then some '\r'
  else if c = 't' then some '\t'
  else none

/-- The characters up to the closing quote; `done` holds those already read, last first. -/
def scanString (done : List Char) : Scan String
  | [] => stop .endInString [] 0
  | '"' :: text => .ok (String.ofList done.reverse, text)
  | '\\' :: [] => stop .endInString [] 0
  | '\\' :: 'u' :: a :: b :: c :: d :: text =>
    match codeUnit? a b c d with
    | none => stopInCodeUnit (a :: b :: c :: d :: text)
    | some unit =>
      if isTrailing unit then stop .loneSurrogate text 0
      else if isLeading unit then
        match text with
        | '\\' :: 'u' :: e :: f :: g :: h :: rest =>
          match codeUnit? e f g h with
          | none => stopInCodeUnit (e :: f :: g :: h :: rest)
          | some second =>
            if isTrailing second then scanString (joinSurrogates unit second :: done) rest
            else stop .loneSurrogate rest 0
        | '\\' :: 'u' :: rest => stopInCodeUnit rest
        | [] | ['\\'] => stop .endInString [] 0
        | '\\' :: rest => stop .missingSurrogate rest 1
        | rest => stop .missingSurrogate rest 1
      else scanString (Char.ofNat unit :: done) text
  | '\\' :: 'u' :: text => stopInCodeUnit text
  | '\\' :: c :: text =>
    match simpleEscape? c with
    | some d => scanString (d :: done) text
    | none => stop .unknownEscape (c :: text) 1
  | c :: text =>
    if c.toNat < 0x20 then stop .controlCharacter (c :: text) 1 else scanString (c :: done) text

/-! ## Values -/

def depthLimit : Nat := 127

mutual

/-- A value behind blanks. The first argument bounds the number of steps. -/
def scanValue : Nat → Nat → Scan Json
  | 0, _, text => stop .tooDeep text 0
  | steps + 1, depth, text =>
    match skipBlanks text with
    | [] => stop .endInValue [] 0
    | 'n' :: rest => scanWord .null ['u', 'l', 'l'] rest
    | 't' :: rest => scanWord (.bool true) ['r', 'u', 'e'] rest
    | 'f' :: rest => scanWord (.bool false) ['a', 'l', 's', 'e'] rest
    | '"' :: rest => do
      let (s, rest) ← scanString [] rest
      return (.string s, rest)
    | '-' :: rest => do
      let (n, rest) ← scanNumber true rest
      return (.number n, rest)
    | '[' :: rest =>
      match depth with
      | 0 => stop .tooDeep ('[' :: rest) 1
      | depth + 1 =>
        match skipBlanks rest with
        | [] => stop .endInList [] 0
        | ']' :: rest => .ok (.array [], rest)
        | rest => do
          let (items, rest) ← scanItems steps depth rest
          return (.array items, rest)
    | '\x7b' :: rest =>
      match depth with
      | 0 => stop .tooDeep ('\x7b' :: rest) 1
      | depth + 1 =>
        match skipBlanks rest with
        | [] => stop .endInObject [] 0
        | '\x7d' :: rest => .ok (.object [], rest)
        | '"' :: rest => do
          let (fields, rest) ← scanFields steps depth [] rest
          return (.object fields, rest)
        | rest => stop .keyNotString rest 1
    | c :: rest =>
      if c.isDigit then do
        let (n, rest) ← scanNumber false (c :: rest)
        return (.number n, rest)
      else stop .noValue (c :: rest) 1

def scanItems : Nat → Nat → Scan (List Json)
  | 0, _, text => stop .tooDeep text 0
  | steps + 1, depth, text => do
    let (item, rest) ← scanValue steps depth text
    match skipBlanks rest with
    | [] => stop .endInList [] 0
    | ']' :: rest => return ([item], rest)
    | ',' :: rest =>
      match skipBlanks rest with
      | [] => stop .endInValue [] 0
      | ']' :: rest => stop .trailingComma (']' :: rest) 1
      | rest =>
        let (items, rest) ← scanItems steps depth rest
        return (item :: items, rest)
    | rest => stop .noListSeparator rest 1

/-- The fields up to the closing brace, behind the quote of the first key. -/
def scanFields : Nat → Nat → Fields → Scan Fields
  | 0, _, _, text => stop .tooDeep text 0
  | steps + 1, depth, fields, text => do
    let (key, rest) ← scanString [] text
    match skipBlanks rest with
    | [] => stop .endInObject [] 0
    | ':' :: rest =>
      let (value, rest) ← scanValue steps depth rest
      let fields := fields.insert key value
      match skipBlanks rest with
      | [] => stop .endInObject [] 0
      | '\x7d' :: rest => return (fields, rest)
      | ',' :: rest =>
        match skipBlanks rest with
        | [] => stop .endInValue [] 0
        | '"' :: rest => scanFields steps depth fields rest
        | '\x7d' :: rest => stop .trailingComma ('\x7d' :: rest) 1
        | rest => stop .keyNotString rest 1
      | rest => stop .noObjectSeparator rest 1
    | rest => stop .noColon rest 1

end

/-- One value and nothing but blanks behind it. A value takes at most two steps a character. -/
def scanText (text : List Char) : Except Stop Json := do
  let (value, rest) ← scanValue (2 * text.length + 1) depthLimit text
  match skipBlanks rest with
  | [] => return value
  | rest => stop .trailingText rest 1

/-- Line and column behind the first `bytes` bytes, counted from line `line` and column `column`. -/
def placeFrom (line column bytes : Nat) : List Char → Nat × Nat
  | [] => (line, column)
  | c :: text =>
    if bytes < c.utf8Size then (line, column + bytes)
    else if c = '\n' then placeFrom (line + 1) 0 (bytes - c.utf8Size) text
    else placeFrom line (column + c.utf8Size) (bytes - c.utf8Size) text

end Parser

def parse (text : String) : Except ParseError Json :=
  match Parser.scanText text.toList with
  | .ok value => .ok value
  | .error e =>
    let (line, column) := Parser.placeFrom 1 0 (Parser.byteSize text.toList - e.unread) text.toList
    .error ⟨e.flaw, line, column⟩

end QueryFilter.Json
