import ParamLens.Text.Basic
import ParamLens.Text.Numeral

/-! Versions of libraries, compared by their first three numbers. -/

namespace ParamLens.Library

/-- The runs of digits in a text, each as the values of its digits; `run` holds the digits just
before the text. -/
def digitRuns (run : List Nat) : List Char → List (List Nat)
  | [] => if run.isEmpty then [] else [run]
  | c :: rest =>
    match Text.decimalValue? c with
    | some digit => digitRuns (run ++ [digit]) rest
    | none => if run.isEmpty then digitRuns [] rest else run :: digitRuns [] rest

/-- The number with the given decimal digits. -/
def decimalNumber (digits : List Nat) : Nat := digits.foldl (fun n d => n * 10 + d) 0

/-- The first three numbers of a version. -/
def versionNumbers (version : String) : List Nat :=
  ((digitRuns [] version.toList).take 3).map decimalNumber

/-- Numbers written with a delimiter between them. -/
def versionText (numbers : List Nat) (delimiter : String) : String :=
  Text.join delimiter (numbers.map fun n => toString n)

/-- The version of the form in which records are kept. -/
def formatVersion : List Nat := [1, 2, 0]

end ParamLens.Library
