import MarketingSuite.Base.Payloads

/-! # Responses

What `httpx` gives for a request, and the numbers that `int` reads in a header. -/

namespace MarketingSuite.Base.Http

open MarketingSuite.Base.Values

/-- `httpx.Response`: `header name` is `headers.get(name)`, and `json` what `json()` returns, or the
text of the `ValueError` that it raises. -/
structure Response where
  status : ℕ
  header : String → Option String
  text : String
  json : Except String Json

/-- `response.json()`. -/
def Response.parse (response : Response) : Except Exc Json := response.json.mapError .valueError

/-- What a request ends with if there is no response: a `httpx.RequestError`, or another exception. -/
inductive Lost
  | request (text : String)
  | other (e : Exc)
deriving DecidableEq, Repr

/-! ### `int` of a text -/

/-- The zeros of the decimal digits of Unicode; each is followed by the nine others. -/
def decimalZeros : List ℕ :=
  [0x30, 0x660, 0x6f0, 0x7c0, 0x966, 0x9e6, 0xa66, 0xae6, 0xb66, 0xbe6, 0xc66, 0xce6, 0xd66, 0xde6,
    0xe50, 0xed0, 0xf20, 0x1040, 0x1090, 0x17e0, 0x1810, 0x1946, 0x19d0, 0x1a80, 0x1a90, 0x1b50,
    0x1bb0, 0x1c40, 0x1c50, 0xa620, 0xa8d0, 0xa900, 0xa9d0, 0xa9f0, 0xaa50, 0xabf0, 0xff10, 0x104a0,
    0x10d30, 0x11066, 0x110f0, 0x11136, 0x111d0, 0x112f0, 0x11450, 0x114d0, 0x11650, 0x116c0,
    0x11730, 0x118e0, 0x11950, 0x11c50, 0x11d50, 0x11da0, 0x11f50, 0x16a60, 0x16ac0, 0x16b50,
    0x1d7ce, 0x1d7d8, 0x1d7e2, 0x1d7ec, 0x1d7f6, 0x1e140, 0x1e2f0, 0x1e4f0, 0x1e950, 0x1fbf0]

/-- The value of a decimal digit. -/
def digitOf (c : Char) : Option ℕ :=
  (decimalZeros.find? fun z => z ≤ c.toNat && c.toNat ≤ z + 9).map fun z => c.toNat - z

/-- The number that the digits continue, with single underscores between them. -/
def digitsFrom (n : ℕ) : List Char → Option ℕ
  | [] => some n
  | '_' :: c :: l =>
    match digitOf c with
    | some d => digitsFrom (10 * n + d) l
    | none => none
  | c :: l =>
    match digitOf c with
    | some d => digitsFrom (10 * n + d) l
    | none => none

/-- The number that a text without a sign stands for. It has 4300 digits at most. -/
def natOf (l : List Char) : Option ℕ :=
  if 4300 < (l.filter fun c => (digitOf c).isSome).length then none
  else match l with
    | [] => none
    | c :: l => (digitOf c).bind fun d => digitsFrom d l

/-- The white space that `int` skips. -/
def isBlank (c : Char) : Bool := isSpace c && !(28 ≤ c.toNat && c.toNat ≤ 31)

/-- `int(s)`; none if it raises `ValueError`. -/
def intOf (s : String) : Option ℤ :=
  match (stripOf isBlank s).toList with
  | '-' :: l => (natOf l).map fun n => -(n : ℤ)
  | '+' :: l => (natOf l).map fun n => (n : ℤ)
  | l => (natOf l).map fun n => (n : ℤ)

example : intOf "\x1c1000" = none := by decide

example : intOf " -1٠0_0\n" = some (-1000) := by decide

/-- `s.split("-")[1]`; none if there is no `-`. -/
def secondPart (s : String) : Option String :=
  match s.toList.dropWhile fun c => c ≠ '-' with
  | [] => none
  | _ :: l => some (String.ofList (l.takeWhile fun c => c ≠ '-'))

/-- `int(range_header.split("-")[1])`, which no `-` makes negative. -/
def lastByteOf (rangeHeader : String) : Except Exc ℕ :=
  match secondPart rangeHeader with
  | none => .error (.raised "list index out of range")
  | some part =>
    match intOf part with
    | some n => .ok n.toNat
    | none => .error (.valueError ("invalid literal for int() with base 10: '" ++ part ++ "'"))

example : lastByteOf "bytes=0-1_234 " = .ok 1234 := by decide

end MarketingSuite.Base.Http
