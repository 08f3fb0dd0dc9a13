import ScriptHost.Guest.Number

/-!
# Patterns

The patterns of the string library. A pattern is a list of items; what is wrong with it is an item too,
since only a match that gets there fails.

* `patternItems`: the items of a pattern.
* `matchItems`: the end of a match from a place on, with the captures on the way.
* `findMatch`: the first match from a place on.
-/

namespace ScriptHost.Guest

/-! ## Items -/

/-- A set of bytes. -/
inductive ByteSet where
  | any
  | byte (b : UInt8)
  /-- A class named by a letter, or the letter itself if it names none. -/
  | letter (c : UInt8)
  | range (low high : UInt8)
  | members (negated : Bool) (sets : List ByteSet)

/-- How often a set may match. -/
inductive Repetition where
  | once
  | optional
  | most (atLeast : Nat)
  | fewest
deriving Repr, DecidableEq

/-- An item of a pattern. -/
inductive PatternItem where
  | bytes (set : ByteSet) (times : Repetition)
  | openCapture
  | closeCapture
  /-- Captures the place itself. -/
  | place
  /-- The text of a capture again. -/
  | again (index : Nat)
  | balanced (first last : UInt8)
  | frontier (set : ByteSet)
  | atEnd
  | malformed (message : String)

/-- The code of an ASCII character. -/
def asciiCode (c : Char) : UInt8 := c.toNat.toUInt8

/-- Whether a byte is visible in ASCII. -/
def isVisibleByte (b : UInt8) : Bool := 33 ≤ b && b ≤ 126

/-- Whether a byte is in the class of a lower-case letter; nothing if the letter names none. -/
def inClass? (c b : UInt8) : Option Bool :=
  let ch := Char.ofNat b.toNat
  match Char.ofNat c.toNat with
  | 'a' => some ch.isAlpha
  | 'c' => some (b < 32 || b == 127)
  | 'd' => some ch.isDigit
  | 'g' => some (isVisibleByte b)
  | 'l' => some ch.isLower
  | 'p' => some (isVisibleByte b && !ch.isAlphanum)
  | 's' => some (isSpace ch)
  | 'u' => some ch.isUpper
  | 'w' => some ch.isAlphanum
  | 'x' => some (isHexDigit ch)
  | _ => none

/-- Whether a byte is in the class of a letter. Upper-case letters stand for the other bytes. -/
def matchesLetter (c b : UInt8) : Bool :=
  let lower := asciiCode (Char.ofNat c.toNat).toLower
  match inClass? lower b with
  | none => c == b
  | some found => if lower == c then found else !found

mutual

/-- Whether a byte is in a set. -/
def ByteSet.has (b : UInt8) : ByteSet → Bool
  | .any => true
  | .byte c => c == b
  | .letter c => matchesLetter c b
  | .range low high => low ≤ b && b ≤ high
  | .members negated sets => anyHas b sets != negated

/-- Whether a byte is in one of several sets. -/
def anyHas (b : UInt8) : List ByteSet → Bool
  | [] => false
  | s :: ss => s.has b || anyHas b ss

end

/-! ## Reading patterns -/

/-- The inside of a bracketed set and what follows its bracket. The first character is never the closing
bracket, and neither is one after `%`. -/
def setInside : List UInt8 → Option (List UInt8 × List UInt8)
  | 37 :: c :: 93 :: rest => some ([37, c], rest)
  | 37 :: c :: rest => (setInside rest).map fun (inside, rest) => (37 :: c :: inside, rest)
  | c :: 93 :: rest => some ([c], rest)
  | c :: rest => (setInside rest).map fun (inside, rest) => (c :: inside, rest)
  | [] => none

/-- The sets that the inside of a bracketed set lists. -/
def setMembers : List UInt8 → List ByteSet
  | 37 :: c :: rest => .letter c :: setMembers rest
  | low :: 45 :: high :: rest => .range low high :: setMembers rest
  | c :: rest => .byte c :: setMembers rest
  | [] => []

/-- A bracketed set, after its opening bracket. -/
def readSet (cs : List UInt8) : Option (ByteSet × List UInt8) :=
  let (negated, cs) :=
    match cs with
    | 94 :: rest => (true, rest)
    | cs => (false, cs)
  (setInside cs).map fun (inside, rest) => (.members negated (setMembers inside), rest)

/-- How often a set may match, by what follows it. -/
def readRepetition (cs : List UInt8) : Repetition × List UInt8 :=
  match cs with
  | 63 :: rest => (.optional, rest)
  | 43 :: rest => (.most 1, rest)
  | 42 :: rest => (.most 0, rest)
  | 45 :: rest => (.fewest, rest)
  | cs => (.once, cs)

/-- The item at the front of a pattern, and what follows it; nothing follows what is malformed. -/
def readItem (c : UInt8) (rest : List UInt8) : PatternItem × List UInt8 :=
  let repeated := fun (set : ByteSet) (rest : List UInt8) =>
    let (times, rest) := readRepetition rest
    (PatternItem.bytes set times, rest)
  match Char.ofNat c.toNat, rest with
  | '(', 41 :: rest => (.place, rest)
  | '(', rest => (.openCapture, rest)
  | ')', rest => (.closeCapture, rest)
  | '$', [] => (.atEnd, [])
  | '.', rest => repeated .any rest
  | '[', rest =>
    match readSet rest with
    | some (set, rest) => repeated set rest
    | none => (.malformed "malformed pattern (missing ']')", [])
  | '%', [] => (.malformed "malformed pattern (ends with '%')", [])
  | '%', d :: rest =>
    match Char.ofNat d.toNat, rest with
    | 'b', first :: last :: rest => (.balanced first last, rest)
    | 'b', _ => (.malformed "malformed pattern (missing arguments to '%b')", [])
    | 'f', 91 :: rest =>
      match readSet rest with
      | some (set, rest) => (.frontier set, rest)
      | none => (.malformed "malformed pattern (missing ']')", [])
    | 'f', _ => (.malformed "missing '[' after '%f' in pattern", [])
    | ch, rest =>
      if ch.isDigit then (.again (ch.toNat - '0'.toNat), rest) else repeated (.letter d) rest
  | _, rest => repeated (.byte c) rest

/-- The items of a pattern; `fuel` is its length. -/
def readItems : Nat → List UInt8 → List PatternItem
  | 0, _ => []
  | _, [] => []
  | fuel + 1, c :: rest =>
    let (item, rest) := readItem c rest
    item :: readItems fuel rest

/-- The items of a pattern. -/
def patternItems (cs : List UInt8) : List PatternItem := readItems cs.length cs

/-! ## Matching -/

/-- How far a capture reaches. -/
inductive Extent where
  | unfinished
  | place
  | size (n : Nat)
deriving Repr, DecidableEq

/-- What a part of a pattern matched: where it starts and how far it reaches. -/
structure Captured where
  start : Nat
  extent : Extent
deriving Repr

/-- The end of a match and its captures, or nothing; or what is wrong with the pattern. -/
abbrev MatchResult := Except String (Option (Nat × List Captured))

/-- The number of bytes from a place on that are in a set, at most `limit`. -/
def runLength (s : ByteArray) (set : ByteSet) (i : Nat) : Nat → Nat
  | 0 => 0
  | limit + 1 =>
    match s.data[i]? with
    | some b => if set.has b then runLength s set (i + 1) limit + 1 else 0
    | none => 0

/-- The first success with fewer and fewer bytes, at least `least` of them. -/
def tryFewer (next : Nat → MatchResult) (least : Nat) : Nat → MatchResult
  | 0 => if least == 0 then next 0 else .ok none
  | n + 1 =>
    if n + 1 < least then .ok none
    else
      match next (n + 1) with
      | .ok none => tryFewer next least n
      | r => r

/-- The first success with more and more bytes, `done` so far and up to `left` more. -/
def tryMore (next : Nat → MatchResult) (done : Nat) : Nat → MatchResult
  | 0 => next done
  | left + 1 =>
    match next done with
    | .ok none => tryMore next (done + 1) left
    | r => r

/-- The place after a balanced stretch; `depth` openings wait for their closing. -/
def balancedEnd (s : ByteArray) (first last : UInt8) (i depth : Nat) : Nat → Option Nat
  | 0 => none
  | fuel + 1 =>
    match s.data[i]? with
    | none => none
    | some b =>
      if b == last then
        if depth == 1 then some (i + 1)
        else balancedEnd s first last (i + 1) (depth - 1) fuel
      else if b == first then balancedEnd s first last (i + 1) (depth + 1) fuel
      else balancedEnd s first last (i + 1) depth fuel

/-- The captures with the last unfinished one finished at a place. -/
def closeLast (i : Nat) : List Captured → Option (List Captured)
  | [] => none
  | c :: cs =>
    match closeLast i cs with
    | some cs => some (c :: cs)
    | none =>
      if c.extent == .unfinished then some ({ c with extent := .size (i - c.start) } :: cs)
      else none

/-- The largest number of captures of a pattern. -/
def maxCaptures : Nat := 32

/-- Match items from a place on. -/
def matchItems (s : ByteArray) : List PatternItem → Nat → List Captured → MatchResult
  | [], i, caps => .ok (some (i, caps))
  | .malformed message :: _, _, _ => .error message
  | .bytes set times :: rest, i, caps =>
    let next := fun n => matchItems s rest (i + n) caps
    match times with
    | .once => if runLength s set i 1 == 1 then next 1 else .ok none
    | .optional => tryFewer next 0 (runLength s set i 1)
    | .most atLeast => tryFewer next atLeast (runLength s set i (s.size - i))
    | .fewest => tryMore next 0 (runLength s set i (s.size - i))
  | .openCapture :: rest, i, caps =>
    if maxCaptures ≤ caps.length then .error "too many captures"
    else matchItems s rest i (caps ++ [⟨i, .unfinished⟩])
  | .place :: rest, i, caps =>
    if maxCaptures ≤ caps.length then .error "too many captures"
    else matchItems s rest i (caps ++ [⟨i, .place⟩])
  | .closeCapture :: rest, i, caps =>
    match closeLast i caps with
    | some caps => matchItems s rest i caps
    | none => .error "invalid pattern capture"
  | .again index :: rest, i, caps =>
    match index, caps[index - 1]? with
    | _ + 1, some ⟨start, .size n⟩ =>
      if i + n ≤ s.size && s.extract start (start + n) == s.extract i (i + n) then
        matchItems s rest (i + n) caps
      else .ok none
    | _, _ => .error s!"invalid capture index %{index}"
  | .balanced first last :: rest, i, caps =>
    if s.data[i]? == some first then
      match balancedEnd s first last (i + 1) 1 (s.size - i) with
      | some i => matchItems s rest i caps
      | none => .ok none
    else .ok none
  | .frontier set :: rest, i, caps =>
    let before := if i == 0 then 0 else (s.data[i - 1]?).getD 0
    if !set.has before && set.has ((s.data[i]?).getD 0) then matchItems s rest i caps else .ok none
  | .atEnd :: _, i, caps => .ok (if i == s.size then some (i, caps) else none)

/-- A pattern: its items, and whether it matches at the start only. -/
structure Pattern where
  items : List PatternItem
  anchored : Bool

/-- The pattern that bytes write; only some functions know the anchor. -/
def Pattern.ofBytes (p : ByteArray) (knowsAnchor : Bool) : Pattern :=
  match p.data.toList with
  | 94 :: rest => if knowsAnchor then ⟨patternItems rest, true⟩ else ⟨patternItems (94 :: rest), false⟩
  | cs => ⟨patternItems cs, false⟩

/-- The first match that starts at a place or at one of the `left` places after it: its start, its end
and its captures. -/
def findMatch (s : ByteArray) (items : List PatternItem) (i : Nat) :
    Nat → Except String (Option (Nat × Nat × List Captured))
  | 0 => do pure ((← matchItems s items i []).map fun (e, caps) => (i, e, caps))
  | left + 1 => do
    match ← matchItems s items i [] with
    | some (e, caps) => pure (some (i, e, caps))
    | none => findMatch s items (i + 1) left

/-- The value of a capture. -/
def Captured.value (s : ByteArray) (c : Captured) : Except String Value :=
  match c.extent with
  | .unfinished => .error "unfinished capture"
  | .place => .ok (.int (Int64.ofNat (c.start + 1)))
  | .size n => .ok (.str (s.extract c.start (c.start + n)))

/-- The values of all captures of a match, or the whole match if there are none. -/
def captureValues (s : ByteArray) (start stop : Nat) (caps : List Captured) :
    Except String (List Value) :=
  match caps with
  | [] => .ok [.str (s.extract start stop)]
  | caps => caps.mapM (Captured.value s)

/-- The place of the first copy of `p` in `s` at one of `left + 1` places from `i` on. -/
def findPlain (s p : ByteArray) (i : Nat) : Nat → Option Nat
  | 0 => if s.extract i (i + p.size) == p then some i else none
  | left + 1 => if s.extract i (i + p.size) == p then some i else findPlain s p (i + 1) left

/-- Whether a pattern has no character with a meaning of its own. -/
def isPlainPattern (p : ByteArray) : Bool :=
  p.data.all fun b => !("^$*+?.([%-".toList.contains (Char.ofNat b.toNat))

end ScriptHost.Guest
