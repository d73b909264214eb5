import Deglobal.Json.Number

/-!
# Passing over a JSON value

A value in an unknown field must be well formed, to any depth, and is otherwise
ignored. The same first look at a value also decides what is wrong with one
that stands where another type is wanted.
-/

namespace Deglobal.Json

mutual

/-- Pass over one value, with an allowance for the calls this takes. -/
def passValue : Nat → List Char → Except Fault (List Char)
  | 0, _ => .error .truncated
  | allowance + 1, cs =>
      match skipSpace cs with
      | [] => .error .truncated
      | 'n' :: rest => word ['u', 'l', 'l'] rest
      | 't' :: rest => word ['r', 'u', 'e'] rest
      | 'f' :: rest => word ['a', 'l', 's', 'e'] rest
      | '-' :: rest => passNumber rest
      | '"' :: rest => passString rest
      | '[' :: rest =>
          match skipSpace rest with
          | ']' :: rest => .ok rest
          | rest => passElements allowance rest
      | '{' :: rest =>
          match skipSpace rest with
          | '}' :: rest => .ok rest
          | rest => passMembers allowance rest
      | c :: rest => if isDigit c then passNumber (c :: rest) else .error .malformed

/-- Pass over the elements of an array that are left, at least one, and its end. -/
def passElements : Nat → List Char → Except Fault (List Char)
  | 0, _ => .error .truncated
  | allowance + 1, cs => do
      let rest ← passValue allowance cs
      match skipSpace rest with
      | [] => throw .truncated
      | ',' :: rest => passElements allowance rest
      | ']' :: rest => return rest
      | _ => throw .malformed

def passMembers : Nat → List Char → Except Fault (List Char)
  | 0, _ => .error .truncated
  | allowance + 1, cs =>
      match skipSpace cs with
      | [] => .error .truncated
      | '"' :: rest => do
          let rest ← passString rest
          match skipSpace rest with
          | [] => throw .truncated
          | ':' :: rest =>
              let rest ← passValue allowance rest
              match skipSpace rest with
              | [] => throw .truncated
              | ',' :: rest => passMembers allowance rest
              | '}' :: rest => return rest
              | _ => throw .malformed
          | _ => throw .malformed
      | _ => .error .malformed

end

/-- Pass over one value: two calls for each character left are always enough. -/
def skipValue (cs : List Char) : Except Fault (List Char) :=
  passValue (2 * cs.length + 2) cs

/-- What is wrong with a value once something else was wanted: itself, if it is not JSON. -/
def otherwise (scan : Except Fault α) : Fault :=
  match scan with
  | .ok _ => .mistyped
  | .error e => e

/-- The fault of a text that holds another type than the one wanted. -/
def wrongType : List Char → Fault
  | 'n' :: rest => otherwise (word ['u', 'l', 'l'] rest)
  | 't' :: rest => otherwise (word ['r', 'u', 'e'] rest)
  | 'f' :: rest => otherwise (word ['a', 'l', 's', 'e'] rest)
  | '-' :: rest => numberVerdict rest
  | '"' :: rest => otherwise (stringBody rest)
  | '[' :: _ => .mistyped
  | '{' :: _ => .mistyped
  | c :: rest => if isDigit c then numberVerdict (c :: rest) else .malformed
  | [] => .truncated

end Deglobal.Json
