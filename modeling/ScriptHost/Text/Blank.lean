/-!
# Blank characters and words

The characters that separate words on a console line, the words of a line, and trimming. "Blank"
is the Unicode property `White_Space`: 25 characters, among them the no-break space and the
ideographic space, but neither the zero width space nor the byte order mark.

* `isBlank c`: the property.
* `words s`: the maximal runs of characters that are not blank, in order.
* `trim s`, `trimEnd s`: a text without the blanks at both ends, or at its end.
-/

namespace ScriptHost.Text

/-- The Unicode property `White_Space`. -/
def isBlank (c : Char) : Bool :=
  let n := c.toNat
  (9 ≤ n && n ≤ 13) || n == 0x20 || n == 0x85 || n == 0xA0 || n == 0x1680
    || (0x2000 ≤ n && n ≤ 0x200A) || n == 0x2028 || n == 0x2029 || n == 0x202F
    || n == 0x205F || n == 0x3000

/-! ## Words -/

/-- Put a finished word in front of the others; an empty one is no word. -/
def pushWord (w : List Char) (ws : List (List Char)) : List (List Char) :=
  match w with
  | [] => ws
  | _ :: _ => w :: ws

/-- The characters up to the first blank, and the words after them. -/
def splitWords : List Char → List Char × List (List Char)
  | [] => ([], [])
  | c :: cs =>
    let rest := splitWords cs
    if isBlank c then ([], pushWord rest.1 rest.2) else (c :: rest.1, rest.2)

/-- The words of a list of characters. -/
def charWords (cs : List Char) : List (List Char) :=
  pushWord (splitWords cs).1 (splitWords cs).2

/-- The words of a text: its maximal runs of characters that are not blank. -/
def words (s : String) : List String := (charWords s.toList).map String.ofList

/-- A leading blank separates nothing. -/
theorem charWords_cons_of_isBlank {c : Char} {cs : List Char} (h : isBlank c = true) :
    charWords (c :: cs) = charWords cs := by
  simp [charWords, splitWords, h, pushWord]

/-- The empty text has no words. -/
@[simp] theorem charWords_nil : charWords [] = [] := rfl

/-! ## Trimming -/

/-- A text without the blanks at its end. -/
def trimEnd (s : String) : String :=
  String.ofList (s.toList.reverse.dropWhile isBlank).reverse

/-- A text without the blanks at its start and its end. -/
def trim (s : String) : String :=
  String.ofList ((s.toList.dropWhile isBlank).reverse.dropWhile isBlank).reverse

end ScriptHost.Text
