/-!
# `BackupFleet.Report.Written` — text on the two output streams

A writer turns messages into text for the standard output and for the standard error. Both grow at the
end only, so what a run has written is the sum of what its messages wrote.

## Contents

* `Written`, `++` — text for both streams;
* `Written.line`, `Written.errorLine` — one line for one of them.
-/

namespace BackupFleet

/-- Text for the standard output and for the standard error. -/
structure Written where
  out : String
  err : String
deriving DecidableEq, Repr

namespace Written

/-- Nothing. -/
def empty : Written := ⟨"", ""⟩

/-- One text after the other, on each stream. -/
def append (a b : Written) : Written := ⟨a.out ++ b.out, a.err ++ b.err⟩

instance : Append Written := ⟨append⟩

instance : Inhabited Written := ⟨empty⟩

/-- A line on the standard output. -/
def line (text : String) : Written := ⟨text ++ "\n", ""⟩

/-- A line on the standard error. -/
def errorLine (text : String) : Written := ⟨"", text ++ "\n"⟩

@[simp] theorem out_append (a b : Written) : (a ++ b).out = a.out ++ b.out := rfl

@[simp] theorem err_append (a b : Written) : (a ++ b).err = a.err ++ b.err := rfl

@[simp] theorem empty_append (a : Written) : empty ++ a = a := by
  show append empty a = a
  simp [append, empty]

@[simp] theorem append_empty (a : Written) : a ++ empty = a := by
  show append a empty = a
  simp [append, empty]

end Written

end BackupFleet
