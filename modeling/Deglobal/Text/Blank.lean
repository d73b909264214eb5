/-!
# White space

A class of characters is given as closed ranges of code points, ascending and
apart. The characters with the Unicode property `White_Space` are one, and the
driver does two things with them: it strips them from the ends of a text and
splits a text into the words between them.
-/

namespace Deglobal.Text

/-- Whether a character lies in one of the ranges, ends included. -/
def inRanges (ranges : List (Nat × Nat)) (c : Char) : Bool :=
  ranges.any fun r => decide (r.1 ≤ c.toNat) && decide (c.toNat ≤ r.2)

/-- Code point ranges of the Unicode property `White_Space`, ends included. -/
def blankRanges : List (Nat × Nat) :=
  [(0x9, 0xD), (0x20, 0x20), (0x85, 0x85), (0xA0, 0xA0), (0x1680, 0x1680), (0x2000, 0x200A),
   (0x2028, 0x2029), (0x202F, 0x202F), (0x205F, 0x205F), (0x3000, 0x3000)]

def isBlank (c : Char) : Bool := inRanges blankRanges c

/-- Drop the longest tail of elements that satisfy `p`. -/
def dropTail {α : Type} (p : α → Bool) (l : List α) : List α :=
  (l.reverse.dropWhile p).reverse

/-- Drop the characters that satisfy `p` from both ends. -/
def strip (p : Char → Bool) (cs : List Char) : List Char :=
  dropTail p (cs.dropWhile p)

/-- The maximal runs of non-blank characters, in order. -/
def wordsOf (cs : List Char) : List (List Char) :=
  (cs.splitOnP isBlank).filter fun w => !w.isEmpty

def trimmed (s : String) : String :=
  String.ofList (strip isBlank s.toList)

def words (s : String) : List String :=
  (wordsOf s.toList).map String.ofList

def hasBlank (s : String) : Bool :=
  s.toList.any isBlank

end Deglobal.Text
