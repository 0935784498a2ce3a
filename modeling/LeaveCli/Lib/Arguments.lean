import Mathlib.Data.List.Basic

/-!
# Conventional arguments

What a program that follows the usual conventions makes of its arguments: options, some with the
next argument as their value, and operands, in any order; behind the dashes everything is an
operand. `readProgram` is for a program that takes options of its own up to the name of a command.
The arguments are of any type; there is one equation for each kind of argument.
-/

namespace Lib.Arguments

variable {τ : Type*}

structure Conventions (τ : Type*) where
  dashes : τ
  isOption : τ → Bool
  /-- The options that take a value. -/
  valued : τ → Bool

structure Found (τ : Type*) where
  options : List (τ × Option τ)
  operands : List τ
  deriving DecidableEq

namespace Found

def withOption (option : τ) (value : Option τ) (found : Found τ) : Found τ :=
  { found with options := (option, value) :: found.options }

def withOperand (operand : τ) (found : Found τ) : Found τ :=
  { found with operands := operand :: found.operands }

end Found

variable (C : Conventions τ)

/-- The options and operands; an option without its value is refused. -/
def read [DecidableEq τ] : List τ → Option (Found τ)
  | [] => some ⟨[], []⟩
  | argument :: rest =>
    if argument = C.dashes then some ⟨[], rest⟩
    else if C.isOption argument then
      if C.valued argument then
        match rest with
        | [] => none
        | value :: rest => (read rest).map (.withOption argument (some value))
      else (read rest).map (.withOption argument none)
    else (read rest).map (.withOperand argument)

/-- The options of the program, the name of the command and what comes after it. -/
def readProgram : List τ → Option (List (τ × Option τ) × τ × List τ)
  | [] => none
  | argument :: rest =>
    if C.isOption argument then
      if C.valued argument then
        match rest with
        | [] => none
        | value :: rest =>
          (readProgram rest).map fun found => ((argument, some value) :: found.1, found.2)
      else (readProgram rest).map fun found => ((argument, none) :: found.1, found.2)
    else some ([], argument, rest)

section
variable {C} [DecidableEq τ]

theorem read_nil : read C [] = some ⟨[], []⟩ := rfl

theorem read_dashes (rest : List τ) : read C (C.dashes :: rest) = some ⟨[], rest⟩ := by
  unfold read
  exact if_pos rfl

theorem read_flag {option : τ} (hdashes : option ≠ C.dashes) (hoption : C.isOption option = true)
    (hvalued : C.valued option = false) (rest : List τ) :
    read C (option :: rest) = (read C rest).map (.withOption option none) := by
  rw [read.eq_def]
  dsimp only
  rw [if_neg hdashes, if_pos hoption, hvalued]
  rfl

theorem read_valued {option : τ} (hdashes : option ≠ C.dashes)
    (hoption : C.isOption option = true) (hvalued : C.valued option = true) (value : τ)
    (rest : List τ) : read C (option :: value :: rest) =
      (read C rest).map (.withOption option (some value)) := by
  rw [read, if_neg hdashes, if_pos hoption, if_pos hvalued]

theorem read_operand {operand : τ} (hdashes : operand ≠ C.dashes)
    (hoption : C.isOption operand = false) (rest : List τ) :
    read C (operand :: rest) = (read C rest).map (.withOperand operand) := by
  rw [read.eq_def]
  dsimp only
  rw [if_neg hdashes, hoption]
  rfl

/-- Options without values, all in front. -/
theorem read_flags {flags : List τ} (h : ∀ flag ∈ flags, flag ≠ C.dashes ∧
    C.isOption flag = true ∧ C.valued flag = false) {rest : List τ} {found : Found τ}
    (hrest : read C rest = some found) : read C (flags ++ rest) =
      some { found with options := flags.map (fun flag => (flag, none)) ++ found.options } := by
  induction flags with
  | nil => exact hrest
  | cons flag flags ih =>
    obtain ⟨⟨hdashes, hoption, hvalued⟩, hflags⟩ := List.forall_mem_cons.1 h
    rw [List.cons_append, read_flag hdashes hoption hvalued, ih hflags]
    rfl

end

variable {C}

theorem readProgram_flag {option : τ} (hoption : C.isOption option = true)
    (hvalued : C.valued option = false) (rest : List τ) :
    readProgram C (option :: rest) =
      (readProgram C rest).map fun found => ((option, none) :: found.1, found.2) := by
  rw [readProgram.eq_def]
  dsimp only
  rw [if_pos hoption, hvalued]
  rfl

theorem readProgram_valued {option : τ} (hoption : C.isOption option = true)
    (hvalued : C.valued option = true) (value : τ) (rest : List τ) :
    readProgram C (option :: value :: rest) =
      (readProgram C rest).map fun found => ((option, some value) :: found.1, found.2) := by
  rw [readProgram, if_pos hoption, if_pos hvalued]

theorem readProgram_command {command : τ} (hcommand : C.isOption command = false)
    (rest : List τ) : readProgram C (command :: rest) = some ([], command, rest) := by
  rw [readProgram.eq_def]
  dsimp only
  rw [hcommand]
  rfl

end Lib.Arguments
