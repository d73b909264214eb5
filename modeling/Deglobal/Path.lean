import Deglobal.Text.Blank

/-!
# Paths

A path is kept as the text it was written as; what it means is the list of its
components. Two spellings name the same file exactly when their components are
equal. Operations that build a sibling work on the text, so that what they
return is spelled like what they were given.
-/

namespace Deglobal

/-- A path as it was written. -/
structure Path where
  text : String
  deriving DecidableEq, Inhabited

/-- One step of a path. -/
inductive Component where
  | root
  /-- A dot at the very start of a relative path. -/
  | here
  | up
  | name (n : String)
  deriving DecidableEq, Inhabited

namespace Path

instance : Coe String Path := ⟨Path.mk⟩

/-- Whether a piece between separators stands for nothing. -/
def isIdle (piece : List Char) : Bool := piece.isEmpty || piece == ['.']

def component? (piece : List Char) : Option Component :=
  if isIdle piece then none
  else if piece == ['.', '.'] then some .up
  else some (.name (String.ofList piece))

/--
A path's text cut in two: the leading separator, or the leading dot of a
relative path, which are never dropped; and the pieces after it.
-/
def anchored (p : Path) : List Char × List (List Char) :=
  match p.text.toList with
  | '/' :: rest => (['/'], rest.splitOn '/')
  | cs =>
      match cs.splitOn '/' with
      | ['.'] :: rest => (['.'], [] :: rest)
      | pieces => ([], pieces)

def anchorComponent : List Char → List Component
  | ['/'] => [.root]
  | ['.'] => [.here]
  | _ => []

/-- The steps of a path, with repeated separators and idle dots dropped. -/
def components (p : Path) : List Component :=
  anchorComponent p.anchored.1 ++ p.anchored.2.filterMap component?

/-- Two paths are the same when their components are equal. -/
def Same (p q : Path) : Prop := p.components = q.components

instance (p q : Path) : Decidable (Same p q) := inferInstanceAs (Decidable (_ = _))

def isAbsolute (p : Path) : Bool := ['/'].isPrefixOf p.text.toList

/-- The last component, when it is a name. -/
def fileName? (p : Path) : Option String :=
  match p.components.getLast? with
  | some (.name n) => some n
  | _ => none

/-- The last component, or nothing when it is not a name. -/
def fileName (p : Path) : String := p.fileName?.getD ""

/-- A file name without its last suffix; a name whose only dot leads it has no suffix. -/
def stemOf (name : String) : String :=
  match name.toList.reverse.span (· != '.') with
  | (_, _ :: before) => if before.isEmpty then name else String.ofList before.reverse
  | (_, []) => name

def fileStem (p : Path) : String := (p.fileName?.map stemOf).getD ""

def settled (pieces : List (List Char)) : List (List Char) :=
  Text.dropTail isIdle pieces

def parent (p : Path) : Path :=
  let (anchor, pieces) := p.anchored
  let kept := settled (settled pieces).dropLast
  ⟨String.ofList (anchor ++ ['/'].intercalate kept)⟩

/-- Append `q`, with a separator where one is needed; an absolute `q` replaces the path. -/
def join (p q : Path) : Path :=
  if q.isAbsolute then q
  else
    match p.text.toList.getLast? with
    | none => q
    | some '/' => ⟨p.text ++ q.text⟩
    | some _ => ⟨p.text ++ "/" ++ q.text⟩

/-- Name `n` in the path's directory: in place of its file name, or below it if it has none. -/
def sibling (p : Path) (n : String) : Path :=
  if p.fileName?.isSome then p.parent.join ⟨n⟩ else p.join ⟨n⟩

end Path

end Deglobal
