import HtmlStream.Text.Digits

/-! # Differences of line lists

A report on the first line in which two lists of lines differ, with the lines around it. A list that is
too short is read as if it went on with a line that says so. -/

namespace HtmlStream.LineDiff

/-- What stands for a line that a list does not have. -/
def missing : String := "<missing>"

/-- A line of a list. -/
def lineAt (lines : Array String) (i : Nat) : String := lines.getD i missing

/-- The first place at which the lists read differently. -/
def firstMismatch? (expected actual : Array String) : Option Nat :=
  (List.range (max expected.size actual.size)).find? fun i =>
    lineAt expected i != lineAt actual i

/-- The two report lines of a place; the mismatch is marked. -/
def placeLines (expected actual : Array String) (mismatch i : Nat) : List String :=
  let lead := (if i = mismatch then "> " else "  ") ++ Text.padLeft 4 ' ' (toString (i + 1))
  [lead ++ "  expected: " ++ lineAt expected i, lead ++ "    actual: " ++ lineAt actual i]

/-- The report lines of a mismatch and the two places on either side of it. -/
def contextLines (expected actual : Array String) (mismatch : Nat) : List String :=
  let start := mismatch - 2
  let stop := min (mismatch + 3) (max expected.size actual.size)
  ("first mismatch at line " ++ toString (mismatch + 1) ++ " (showing " ++ toString (start + 1) ++
      "..=" ++ toString stop ++ "):") ::
    (List.range' start (stop - start)).flatMap (placeLines expected actual mismatch)

/-- The report. -/
def report (expected actual : Array String) : String :=
  let context :=
    match firstMismatch? expected actual with
    | none => []
    | some i => contextLines expected actual i
  let last :=
    "expected " ++ toString expected.size ++ " lines, actual " ++ toString actual.size ++ " lines"
  String.join ((context ++ [last]).map (· ++ "\n"))

end HtmlStream.LineDiff
