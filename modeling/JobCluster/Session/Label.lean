import JobCluster.Session.Scene
/-!
# Labels

Drawn identifiers differ from run to run of a cluster, and so they are not shown. In every text of
an answer, the label that a session has given to an identifier stands in its place, and the same
mark for all identifiers that have no label. UUIDs of other versions are never drawn, and are kept.
-/

namespace JobCluster.Session

/-- Whether the character is a hexadecimal digit, in lower case. -/
def isHexDigit (c : Char) : Bool := c.isDigit || ('a' ≤ c && c ≤ 'f')

/-- The form of a drawn identifier, which is that of a random UUID: `x` stands for any hexadecimal
digit and `y` for one of those that mark the variant. -/
def drawnForm : List Char := "xxxxxxxx-xxxx-4xxx-yxxx-xxxxxxxxxxxx".toList

/-- Whether a character may stand where a form has another one. -/
def fitsChar (f c : Char) : Bool :=
  match f with
  | 'x' => isHexDigit c
  | 'y' => ['8', '9', 'a', 'b'].contains c
  | _ => c == f

/-- Whether characters have a form. -/
def fits : List Char → List Char → Bool
  | [], [] => true
  | f :: form, c :: cs => fitsChar f c && fits form cs
  | _, _ => false

/-- Whether the characters could be a drawn identifier. -/
def isDrawn (cs : List Char) : Bool := fits drawnForm cs

/-- The mark for identifiers without a label. -/
def unlabelled : String := "<uuid>"

/-- The text that is shown for an identifier. -/
def shown (labels : Table String String) (id : String) : String :=
  (labels.get? id).getD unlabelled

/-- Characters with every drawn identifier replaced. -/
def showChars (labels : Table String String) : List Char → List Char
  | [] => []
  | c :: rest =>
    let front := (c :: rest).take drawnForm.length
    if isDrawn front then
      (shown labels (String.ofList front)).toList ++
        showChars labels (rest.drop (drawnForm.length - 1))
    else c :: showChars labels rest
termination_by cs => cs.length
decreasing_by
  · simp only [List.length_drop, List.length_cons]
    omega
  · simp

/-- A text with every drawn identifier replaced. -/
def showText (labels : Table String String) (s : String) : String :=
  String.ofList (showChars labels s.toList)

end JobCluster.Session
