import Deglobal.Json.Literal

/-!
# Numbers of JSON

No field of a description is a number, so a number is either passed over in an
unknown field or stands where something else is wanted. The two differ in what
they ask of it: the first only in form, the second that it be complete and lie
in the range of double precision.
-/

namespace Deglobal.Json

def isDigit (c : Char) : Bool := '0' ≤ c && c ≤ '9'

def digitValue (c : Char) : Nat := c.toNat - '0'.toNat

/-- Pass over an exponent whose letter is behind us. -/
def passExponent (cs : List Char) : Except Fault (List Char) :=
  let digits := match cs with
    | '+' :: rest => rest
    | '-' :: rest => rest
    | other => other
  match digits with
  | [] => .error .malformed
  | c :: rest => if isDigit c then .ok (rest.dropWhile isDigit) else .error .malformed

def passOptionalExponent : List Char → Except Fault (List Char)
  | 'e' :: rest => passExponent rest
  | 'E' :: rest => passExponent rest
  | rest => .ok rest

def passFraction : List Char → Except Fault (List Char)
  | '.' :: [] => .error .malformed
  | '.' :: c :: rest =>
      if isDigit c then passOptionalExponent (rest.dropWhile isDigit) else .error .malformed
  | rest => passOptionalExponent rest

/-- Pass over a number whose minus sign, if any, is behind us. -/
def passNumber : List Char → Except Fault (List Char)
  | [] => .error .malformed
  | '0' :: rest =>
      match rest with
      | c :: _ => if isDigit c then .error .malformed else passFraction rest
      | [] => .ok []
  | c :: rest => if isDigit c then passFraction (rest.dropWhile isDigit) else .error .malformed

/--
A positive decimal while it is read: its significand, which stays below `2 ^ 64`,
the power of ten it is scaled by, and whether a digit has been left out.
-/
structure Scaled where
  significand : Nat
  exponent : Int
  full : Bool
  deriving DecidableEq, Inhabited

/-- Take a digit before the point: one that no longer fits scales the number instead. -/
def Scaled.takeWhole (x : Scaled) (c : Char) : Scaled :=
  if x.full || 0x10000000000000000 ≤ x.significand * 10 + digitValue c then
    { x with exponent := x.exponent + 1, full := true }
  else { x with significand := x.significand * 10 + digitValue c }

/-- Take a digit after the point: from the first that no longer fits on, they are left out. -/
def Scaled.takePart (x : Scaled) (c : Char) : Scaled :=
  if x.full || 0x10000000000000000 ≤ x.significand * 10 + digitValue c then { x with full := true }
  else { x with significand := x.significand * 10 + digitValue c, exponent := x.exponent - 1 }

/-- The number with 53 significant bits nearest to `n`, the even one of two. -/
def nearestDouble (n : Nat) : Nat :=
  let dropped := n.log2 - 52
  let unit := 1 <<< dropped
  let low := n % unit
  let high := n / unit
  let up := unit < 2 * low || (2 * low == unit && high % 2 == 1)
  (if up then high + 1 else high) * unit

def Scaled.outOfRange (x : Scaled) : Bool :=
  if x.exponent < 0 then false
  else if 308 < x.exponent then x.significand != 0
  else 1 <<< 1024 - 1 <<< 970 ≤
    nearestDouble x.significand * nearestDouble (Nat.pow 10 x.exponent.toNat)

/-- The verdict on a complete number that stands where something else is wanted. -/
def Scaled.verdict (x : Scaled) : Fault := if x.outOfRange then .malformed else .mistyped

/-- Value of an exponent's digits, or nothing once it leaves the range of 32 bits. -/
def exponentValue? (high : Nat) : List Char → Option Nat
  | [] => some high
  | c :: rest =>
      if isDigit c then
        if 0x80000000 ≤ high * 10 + digitValue c then none
        else exponentValue? (high * 10 + digitValue c) rest
      else some high

/-- The verdict on a number whose exponent follows, its letter behind us. -/
def exponentVerdict (x : Scaled) (cs : List Char) : Fault :=
  let (negative, digits) := match cs with
    | '+' :: rest => (false, rest)
    | '-' :: rest => (true, rest)
    | other => (false, other)
  match digits with
  | [] => .truncated
  | c :: _ =>
      if isDigit c then
        match exponentValue? 0 digits with
        | none => if x.significand != 0 && !negative then .malformed else .mistyped
        | some e =>
            let e : Int := e
            Scaled.verdict
              { x with exponent := if negative then x.exponent - e else x.exponent + e }
      else .malformed

def optionalExponentVerdict (x : Scaled) : List Char → Fault
  | 'e' :: rest => exponentVerdict x rest
  | 'E' :: rest => exponentVerdict x rest
  | _ => x.verdict

def fractionVerdict (x : Scaled) : List Char → Fault
  | '.' :: [] => .truncated
  | '.' :: c :: rest =>
      if isDigit c then
        let digits := (c :: rest).takeWhile isDigit
        optionalExponentVerdict (digits.foldl Scaled.takePart { x with full := false })
          ((c :: rest).dropWhile isDigit)
      else .malformed
  | rest => optionalExponentVerdict x rest

/-- The verdict on a number, its minus sign behind us, that stands where something else is
wanted. -/
def numberVerdict : List Char → Fault
  | [] => .truncated
  | '0' :: rest =>
      match rest with
      | c :: _ => if isDigit c then .malformed else fractionVerdict ⟨0, 0, false⟩ rest
      | [] => .mistyped
  | c :: rest =>
      if isDigit c then
        fractionVerdict (((c :: rest).takeWhile isDigit).foldl Scaled.takeWhole ⟨0, 0, false⟩)
          ((c :: rest).dropWhile isDigit)
      else .malformed

end Deglobal.Json
