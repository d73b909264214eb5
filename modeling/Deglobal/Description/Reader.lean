import Deglobal.Description.Basic
import Deglobal.Json.Skip

/-!
# Reading a description

A description is written as a JSON object, or as an array of its first fields
in order. Fields that are left out keep their defaults. An object may hold
other fields, which are passed over, but no field of a description twice.
-/

namespace Deglobal.Description

open Json (Fault skipSpace stringBody word wrongType skipValue)

def readText (cs : List Char) : Except Fault (String × List Char) :=
  match skipSpace cs with
  | [] => .error .truncated
  | '"' :: rest => do
      let (s, rest) ← stringBody rest
      return (String.ofList s, rest)
  | other => .error (wrongType other)

def readFlag (cs : List Char) : Except Fault (Bool × List Char) :=
  match skipSpace cs with
  | [] => .error .truncated
  | 't' :: rest => (word ['r', 'u', 'e'] rest).map fun rest => (true, rest)
  | 'f' :: rest => (word ['a', 'l', 's', 'e'] rest).map fun rest => (false, rest)
  | other => .error (wrongType other)

/-- Read the strings of an array that are left after one of them, and its end. -/
def readMoreTexts : Nat → List Char → Except Fault (List String × List Char)
  | 0, _ => .error .truncated
  | allowance + 1, cs =>
      match skipSpace cs with
      | [] => .error .truncated
      | ']' :: rest => .ok ([], rest)
      | ',' :: rest =>
          match skipSpace rest with
          | ']' :: _ => .error .malformed
          | rest => do
              let (s, rest) ← readText rest
              let (more, rest) ← readMoreTexts allowance rest
              return (s :: more, rest)
      | _ => .error .malformed

def readTexts (cs : List Char) : Except Fault (List String × List Char) :=
  match skipSpace cs with
  | [] => .error .truncated
  | '[' :: rest =>
      match skipSpace rest with
      | [] => .error .truncated
      | ']' :: rest => .ok ([], rest)
      | rest => do
          let (s, rest) ← readText rest
          let (more, rest) ← readMoreTexts (rest.length + 1) rest
          return (s :: more, rest)
  | other => .error (wrongType other)

def readKind : (k : Field.Kind) → List Char → Except Fault (k.Value × List Char)
  | .text, cs => readText cs
  | .texts, cs => readTexts cs
  | .flag, cs => readFlag cs

/-- Read one member of an object, its key's opening quote behind us. -/
def readMember (seen : List Field) (d : Description) (cs : List Char) :
    Except Fault (List Field × Description × List Char) := do
  let (key, rest) ← stringBody cs
  let field := Field.ofKey? (String.ofList key)
  if field.any seen.contains then throw .mistyped
  match skipSpace rest with
  | [] => throw .truncated
  | ':' :: rest =>
      match field with
      | some f =>
          let (v, rest) ← readKind f.kind rest
          return (f :: seen, d.set f v, rest)
      | none =>
          let rest ← skipValue rest
          return (seen, d, rest)
  | _ => throw .malformed

/-- Read the members of an object that are left after one of them, and its end. -/
def readMoreMembers : Nat → List Field → Description → List Char →
    Except Fault (Description × List Char)
  | 0, _, _, _ => .error .truncated
  | allowance + 1, seen, d, cs =>
      match skipSpace cs with
      | [] => .error .truncated
      | '}' :: rest => .ok (d, rest)
      | ',' :: rest =>
          match skipSpace rest with
          | [] => .error .truncated
          | '"' :: rest => do
              let (seen, d, rest) ← readMember seen d rest
              readMoreMembers allowance seen d rest
          | _ => .error .malformed
      | _ => .error .malformed

/-- Read an object, its opening brace behind us. -/
def readObject (cs : List Char) : Except Fault (Description × List Char) :=
  match skipSpace cs with
  | [] => .error .truncated
  | '}' :: rest => .ok ({}, rest)
  | '"' :: rest => do
      let (seen, d, rest) ← readMember [] {} rest
      readMoreMembers (rest.length + 1) seen d rest
  | _ => .error .malformed

/-- Read the elements of an array that are left, one for each field, and its end. -/
def readElements (first : Bool) : List Field → Description → List Char →
    Except Fault (Description × List Char)
  | [], d, cs =>
      match skipSpace cs with
      | [] => .error .truncated
      | ']' :: rest => .ok (d, rest)
      | _ => .error .malformed
  | f :: fields, d, cs => do
      match skipSpace cs with
      | [] => throw .truncated
      | ']' :: rest => return (d, rest)
      | rest =>
          let rest ← if first then pure rest else
            match rest with
            | ',' :: rest =>
                match skipSpace rest with
                | [] => throw .truncated
                | ']' :: _ => throw .malformed
                | rest => pure rest
            | _ => throw .malformed
          let (v, rest) ← readKind f.kind rest
          readElements false fields (d.set f v) rest

/-- Read a description with nothing but space around it. -/
def ofChars (cs : List Char) : Except Fault Description := do
  let (d, rest) ← match skipSpace cs with
    | [] => throw .truncated
    | '{' :: rest => readObject rest
    | '[' :: rest => readElements true Field.all {} rest
    | other => throw (wrongType other)
  if (skipSpace rest).isEmpty then return d else throw .malformed

def ofText (s : String) : Except Fault Description := ofChars s.toList

end Deglobal.Description
