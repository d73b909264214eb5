/-!
# Search and substitution

Literal occurrences of one text in another, found from left to right without
overlap.
-/

namespace Deglobal.Text

def occursIn (pattern : List Char) : List Char → Bool
  | [] => pattern.isEmpty
  | c :: rest => pattern.isPrefixOf (c :: rest) || occursIn pattern rest

/--
Substitution with a number of characters still to pass over: they belong to an
occurrence whose replacement has been written already.
-/
def substituteFrom (pattern replacement : List Char) : Nat → List Char → List Char
  | _, [] => []
  | pending + 1, _ :: rest => substituteFrom pattern replacement pending rest
  | 0, c :: rest =>
      if pattern.isPrefixOf (c :: rest) then
        replacement ++ substituteFrom pattern replacement (pattern.length - 1) rest
      else
        c :: substituteFrom pattern replacement 0 rest

/-- Write `replacement` for every occurrence of a non-empty `pattern`. -/
def substitute (pattern replacement : String) (s : String) : String :=
  String.ofList (substituteFrom pattern.toList replacement.toList 0 s.toList)

def contains (s pattern : String) : Bool :=
  occursIn pattern.toList s.toList

def begins (s start : String) : Bool :=
  start.toList.isPrefixOf s.toList

def ends (s ending : String) : Bool :=
  ending.toList.isSuffixOf s.toList

end Deglobal.Text
