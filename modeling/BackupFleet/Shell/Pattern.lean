/-!
# `BackupFleet.Shell.Pattern` — patterns of texts

In a pattern `*` stands for any text, `?` for any character, and a set between brackets for one of its
characters. A quoted character stands for itself.

## Contents

* `Wild`, `readPattern` — patterns;
* `accepts` — whether a text fits;
* `trim` — a text without an end that fits.
-/

namespace BackupFleet.Shell

/-- A part of a pattern: a character, any character, any text, or one of a set of ranges. -/
inductive Wild where
  | exactly (c : Char)
  | anyChar
  | anyText
  | oneOf (negated : Bool) (ranges : List (Char × Char))
deriving Repr

/-- The ranges of a set, up to its closing bracket, and what follows. -/
def readRanges : List (Char × Bool) → Option (List (Char × Char) × List (Char × Bool))
  | [] => none
  | (']', false) :: r => some ([], r)
  | (a, _) :: ('-', false) :: (b, q) :: r =>
    if b = ']' ∧ q = false then
      (readRanges ((b, q) :: r)).map fun (ranges, r) => ((a, a) :: ('-', '-') :: ranges, r)
    else (readRanges r).map fun (ranges, r) => ((a, b) :: ranges, r)
  | (a, _) :: r => (readRanges r).map fun (ranges, r) => ((a, a) :: ranges, r)

/-- A set after its opening bracket. A closing bracket in front is one of its characters. -/
def readSet (cs : List (Char × Bool)) : Option (Wild × List (Char × Bool)) :=
  let (negated, cs) := match cs with
    | ('!', false) :: r => (true, r)
    | _ => (false, cs)
  let (first, cs) := match cs with
    | (']', false) :: r => ([(']', ']')], r)
    | _ => ([], cs)
  (readRanges cs).map fun (ranges, r) => (.oneOf negated (first ++ ranges), r)

/-- The pattern of characters, each with whether it is quoted. -/
def readPatternIn : Nat → List (Char × Bool) → List Wild
  | 0, _ => []
  | _, [] => []
  | n + 1, (c, true) :: r => .exactly c :: readPatternIn n r
  | n + 1, (c, false) :: r =>
    match c with
    | '*' => .anyText :: readPatternIn n r
    | '?' => .anyChar :: readPatternIn n r
    | '[' =>
      match readSet r with
      | some (w, r) => w :: readPatternIn n r
      | none => .exactly '[' :: readPatternIn n r
    | _ => .exactly c :: readPatternIn n r

/-- The pattern of characters, each with whether it is quoted. -/
def readPattern (cs : List (Char × Bool)) : List Wild := readPatternIn cs.length cs

/-- A character fits a part of a pattern. -/
def Wild.fits : Wild → Char → Bool
  | exactly c, d => c == d
  | anyChar, _ => true
  | anyText, _ => true
  | oneOf negated ranges, d => (ranges.any fun (a, b) => a ≤ d && d ≤ b) != negated

/-- A text fits a pattern. -/
def accepts : List Wild → List Char → Bool
  | [], cs => cs.isEmpty
  | .anyText :: p, cs => accepts p cs || match cs with
    | [] => false
    | _ :: r => accepts (.anyText :: p) r
  | _ :: _, [] => false
  | w :: p, c :: r => w.fits c && accepts p r
termination_by p cs => (p.length, cs.length)

/-- A text without the shortest or the longest piece at its start or at its end that fits a pattern. -/
def trim (p : List Wild) (atEnd longest : Bool) (cs : List Char) : List Char :=
  let lengths := if longest then (List.range (cs.length + 1)).reverse else List.range (cs.length + 1)
  let rest (k : Nat) := if atEnd then cs.take (cs.length - k) else cs.drop k
  let piece (k : Nat) := if atEnd then cs.drop (cs.length - k) else cs.take k
  match lengths.find? fun k => accepts p (piece k) with
  | some k => rest k
  | none => cs

end BackupFleet.Shell
