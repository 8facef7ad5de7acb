import SrxProbe.Lib.Py

/-!
# Command lines

How a program with options reads its arguments: options that take the next argument as
their value, options that stand alone, and operands.
-/

namespace SrxProbe.Lib

/-- The options with their values and the operands, in order; `none` for a usage error. -/
def getopt (valued flags : List PyStr) : List PyStr → Option (List (PyStr × PyStr) × List PyStr)
  | [] => some ([], [])
  | arg :: rest =>
      if arg ∈ flags then
        (getopt valued flags rest).map fun read => ((arg, []) :: read.1, read.2)
      else if arg ∈ valued then
        match rest with
        | [] => none
        | value :: rest =>
            (getopt valued flags rest).map fun read => ((arg, value) :: read.1, read.2)
      else if arg.head? = some '-' then none
      else (getopt valued flags rest).map fun read => (read.1, arg :: read.2)

variable {valued flags : List PyStr} {arg value : PyStr} {rest : List PyStr}

theorem getopt_flag (h : arg ∈ flags) : getopt valued flags (arg :: rest) =
    (getopt valued flags rest).map fun read => ((arg, []) :: read.1, read.2) := by
  rw [getopt.eq_def]
  exact if_pos h

theorem getopt_valued (hflag : arg ∉ flags) (h : arg ∈ valued) :
    getopt valued flags (arg :: value :: rest) =
      (getopt valued flags rest).map fun read => ((arg, value) :: read.1, read.2) := by
  rw [getopt.eq_def]
  dsimp only
  rw [if_neg hflag, if_pos h]

/-- An argument that does not look like an option. -/
theorem getopt_operand (hdash : ∀ option ∈ flags ++ valued, option.head? = some '-')
    (h : arg.head? ≠ some '-') : getopt valued flags (arg :: rest) =
      (getopt valued flags rest).map fun read => (read.1, arg :: read.2) := by
  have hflag : arg ∉ flags := fun hmem => h (hdash arg (List.mem_append_left _ hmem))
  have hvalued : arg ∉ valued := fun hmem => h (hdash arg (List.mem_append_right _ hmem))
  rw [getopt.eq_def]
  dsimp only
  rw [if_neg hflag, if_neg hvalued, if_neg h]

end SrxProbe.Lib
