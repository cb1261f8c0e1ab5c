import RecordQuery.Text.CaseTable

/-!
Lower case, upper case and case folding of text. Folding is what names are compared by when case is
disregarded: two texts agree up to case when their foldings are equal.
-/

namespace RecordQuery.Text

/-- Does the run list the character, and if so, what is its image? -/
def CaseRun.image? (r : CaseRun) (c : Char) : Option Char :=
  if r.first ≤ c.toNat && c.toNat ≤ r.last && (c.toNat - r.first) % r.step == 0 then
    some (Char.ofNat ((c.toNat : Int) + r.shift).toNat)
  else none

/-- The image of a character under a case mapping given by its runs and its long images. -/
def caseImage (runs : List CaseRun) (long : List (Nat × List Nat)) (c : Char) : List Char :=
  match runs.findSome? (·.image? c) with
  | some d => [d]
  | none =>
    match long.lookup c.toNat with
    | some ds => ds.map Char.ofNat
    | none => [c]

/-- Is the code point of the character in one of the ranges? -/
def inRanges (ranges : List (Nat × Nat)) (c : Char) : Bool :=
  ranges.any fun r => r.1 ≤ c.toNat && c.toNat ≤ r.2

/-- Skips the characters that do not interrupt a word and looks whether a letter with case comes. -/
def meetsCased : List Char → Bool
  | [] => false
  | c :: cs => if inRanges caseIgnorableRanges c then meetsCased cs else inRanges casedRanges c

/-- Lower case, character by character. The capital sigma at the end of a word becomes the final
sigma; `before` holds the characters already passed, nearest first. -/
def lowerAfter (before : List Char) : List Char → List Char
  | [] => []
  | c :: cs =>
    (if c.toNat < 128 then [c.toLower]
     else if c == 'Σ' then [if meetsCased before && !meetsCased cs then 'ς' else 'σ']
     else caseImage lowerRuns lowerLong c) ++ lowerAfter (c :: before) cs

def lower (cs : List Char) : List Char :=
  lowerAfter [] cs

def upper (cs : List Char) : List Char :=
  cs.flatMap fun c => if c.toNat < 128 then [c.toUpper] else caseImage upperRuns upperLong c

def fold (cs : List Char) : List Char :=
  cs.flatMap fun c => if c.toNat < 128 then [c.toLower] else caseImage foldRuns foldLong c

/-- Two names agree up to case. -/
def sameFold (a b : String) : Bool :=
  fold a.toList == fold b.toList

@[simp] theorem sameFold_self (a : String) : sameFold a a = true := by
  simp [sameFold]

end RecordQuery.Text
