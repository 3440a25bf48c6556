import Mathlib.Tactic.Common

/-!
# The ratio of `difflib.SequenceMatcher`

The longest matching block of two texts, the earliest in the first and then in the second,
and the blocks to its left and right in turn. In a second text of 200 characters or more, a
character that is too frequent starts no block.
-/

namespace Difflib

/-- A block of `size` characters at `i` in the first text and at `j` in the second. -/
structure Block where
  i : Nat
  j : Nat
  size : Nat
  deriving DecidableEq, Repr

/-- The lengths of the matches that end with `x`, from those that end one character earlier. -/
def nextLengths (popular : Char → Bool) (x : Char) : Nat → List Char → List Nat → List Nat
  | prev, y :: ys, n :: ns =>
    (if x = y && !popular y then prev + 1 else 0) :: nextLengths popular x n ys ns
  | _, _, _ => []

/-- Takes the first block of a row that is longer than the best one. -/
def bestOfRow (i : Nat) : Nat → List Nat → Block → Block
  | _, [], best => best
  | j, k :: ks, best =>
    bestOfRow i (j + 1) ks (if best.size < k then ⟨i + 1 - k, j + 1 - k, k⟩ else best)

def scanRows (popular : Char → Bool) (b : List Char) :
    Nat → List Char → List Nat → Block → Block
  | _, [], _, best => best
  | i, x :: xs, lengths, best =>
    let lengths := nextLengths popular x 0 b lengths
    scanRows popular b (i + 1) xs lengths (bestOfRow i 0 lengths best)

/-- The length of the common start of two texts. -/
def commonPrefix : List Char → List Char → Nat
  | x :: xs, y :: ys => if x = y then commonPrefix xs ys + 1 else 0
  | _, _ => 0

/-- `find_longest_match`: the best block, extended to both sides by equal characters. -/
def findLongestMatch (popular : Char → Bool) (a b : List Char) : Block :=
  let best := scanRows popular b 0 a (b.map fun _ => 0) ⟨0, 0, 0⟩
  let left := commonPrefix (a.take best.i).reverse (b.take best.j).reverse
  let right := commonPrefix (a.drop (best.i + best.size)) (b.drop (best.j + best.size))
  ⟨best.i - left, best.j - left, left + best.size + right⟩

/-- The total size of the matching blocks; `fuel` exceeds the length of the first text. -/
def matchedSize (popular : Char → Bool) : Nat → List Char → List Char → Nat
  | 0, _, _ => 0
  | fuel + 1, a, b =>
    let m := findLongestMatch popular a b
    if m.size = 0 then 0
    else m.size + matchedSize popular fuel (a.take m.i) (b.take m.j) +
      matchedSize popular fuel (a.drop (m.i + m.size)) (b.drop (m.j + m.size))

def isPopular (b : List Char) (c : Char) : Bool :=
  200 ≤ b.length && b.length / 100 + 1 < b.count c

/-- `SequenceMatcher(None, a, b).ratio()`. -/
def ratio (a b : List Char) : Float :=
  if a.length + b.length = 0 then 1
  else Float.ofNat (2 * matchedSize (isPopular b) (a.length + 1) a b) /
    Float.ofNat (a.length + b.length)

end Difflib
