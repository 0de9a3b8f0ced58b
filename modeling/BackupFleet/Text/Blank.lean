/-!
# `BackupFleet.Text.Blank` — white space, lines and words

Every place of the program that trims a value, splits a line into words or reads a catalog line by
line goes by one notion of white space: the `White_Space` property of Unicode, 25 characters in all.
`Char.isWhitespace` of core knows six of them, so the property has its own table here.

## Contents

* `isBlank` — the property;
* `trimStart`, `trimEnd`, `trim` — what is left of a text without blanks at its ends;
* `words` — the maximal blank-free pieces of a text;
* `lines` — the pieces between line feeds; a final line feed ends the last line and opens none.
-/

namespace BackupFleet.Text

/-! ## White space -/

/-- The `White_Space` property of Unicode. -/
def isBlank (c : Char) : Bool :=
  let n := c.toNat
  (9 ≤ n && n ≤ 13) || n == 0x20 || n == 0x85 || n == 0xA0 || n == 0x1680 ||
    (0x2000 ≤ n && n ≤ 0x200A) || n == 0x2028 || n == 0x2029 || n == 0x202F || n == 0x205F ||
    n == 0x3000

/-! ## Trimming -/

/-- `cs` without the blanks it starts with. -/
def trimStart (cs : List Char) : List Char := cs.dropWhile isBlank

/-- `cs` without the blanks it ends with. -/
def trimEnd (cs : List Char) : List Char := (cs.reverse.dropWhile isBlank).reverse

/-- `cs` without the blanks at either end. -/
def trim (cs : List Char) : List Char := trimEnd (trimStart cs)

@[simp] theorem trimStart_nil : trimStart [] = [] := rfl

@[simp] theorem trimEnd_nil : trimEnd [] = [] := rfl

theorem trimStart_cons_of_not_blank {c : Char} (cs : List Char) (h : isBlank c = false) :
    trimStart (c :: cs) = c :: cs := by
  simp [trimStart, h]

theorem trimEnd_concat_of_not_blank (cs : List Char) {c : Char} (h : isBlank c = false) :
    trimEnd (cs ++ [c]) = cs ++ [c] := by
  simp [trimEnd, h]

/-! ## Pieces, lines and words -/

/-- The pieces of `cs` between the characters that `p` picks; one piece more than there are such
    characters. -/
def splitWhen (p : Char → Bool) : List Char → List (List Char)
  | [] => [[]]
  | c :: r =>
    if p c then [] :: splitWhen p r
    else match splitWhen p r with
      | [] => [[c]]
      | piece :: rest => (c :: piece) :: rest

theorem splitWhen_ne_nil (p : Char → Bool) (cs : List Char) : splitWhen p cs ≠ [] := by
  cases cs with
  | nil => simp [splitWhen]
  | cons c r =>
    rw [splitWhen]
    split
    · simp
    · split <;> simp

/-- The lines of `cs`. -/
def lines : List Char → List (List Char)
  | [] => []
  | c :: r =>
    if c = '\n' then [] :: lines r
    else match lines r with
      | [] => [[c]]
      | line :: rest => (c :: line) :: rest

/-- The words of `cs`, in order. -/
def words (cs : List Char) : List (List Char) :=
  (splitWhen isBlank cs).filter (· ≠ [])

/-- No word is empty. -/
theorem ne_nil_of_mem_words {w cs : List Char} (h : w ∈ words cs) : w ≠ [] := by
  simpa using (List.mem_filter.1 h).2

end BackupFleet.Text
