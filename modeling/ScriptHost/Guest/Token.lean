import ScriptHost.Guest.Number
import ScriptHost.Text.Utf8

/-!
# Tokens

The tokens of a chunk of guest source. Source is bytes; here each byte is a character of its own.

* `scanToken`: the first token of the source.
* `tokens`: all tokens. If the source holds something that begins no token, the last one is `bad`, with
  what is wrong; it is an error only once the tokens before it have been read.

A token knows the line on which it ends and the text by which messages name it.
-/

namespace ScriptHost.Guest

/-- A token. Reserved words and symbols are told apart by their text. -/
inductive Token where
  | name (s : String)
  | str (b : ByteArray)
  | number (v : Value)
  | word (s : String)
  | eof
  | bad (message : String)
deriving Inhabited

/-- A token with the line on which it ends and its text in messages. -/
structure Lexeme where
  token : Token
  line : Nat
  near : String
deriving Inhabited

/-- The reserved words. -/
def reservedWords : List String :=
  ["and", "break", "do", "else", "elseif", "end", "false", "for", "function", "goto", "if", "in",
    "local", "nil", "not", "or", "repeat", "return", "then", "true", "until", "while"]

/-- The symbols of several characters, longer ones first. -/
def longSymbols : List String :=
  ["...", "..", "//", "<<", ">>", "==", "~=", "<=", ">=", "::"]

/-! ## Characters -/

/-- Letters of names. -/
def isNameStart (c : Char) : Bool := c.isAlpha || c == '_'

/-- Letters and digits of names. -/
def isNamePart (c : Char) : Bool := c.isAlphanum || c == '_'

/-- Line ends. -/
def isLineEnd (c : Char) : Bool := c == '\n' || c == '\r'

/-- The bytes that one-byte characters stand for. -/
def bytesOfChars (cs : List Char) : ByteArray := ⟨(cs.map fun c => c.toNat.toUInt8).toArray⟩

/-- The text of one-byte characters, as messages show it: up to the first zero. -/
def shownChars (cs : List Char) : String :=
  Text.decodeLossy (bytesOfChars (cs.takeWhile (· != '\x00')))

/-- A quoted text after `near`. -/
def nearChars (cs : List Char) : String := s!"'{shownChars cs}'"

/-- A message with the text that it is about. -/
def nearMessage (message near : String) : String := s!"{message} near {near}"

/-- What follows a line end, which may be two different characters. -/
def afterLineEnd : List Char → List Char
  | '\n' :: '\r' :: cs => cs
  | '\r' :: '\n' :: cs => cs
  | _ :: cs => cs
  | [] => []

/-! ## Long brackets -/

/-- The level of a long bracket `[==[` at the front, and what follows it. -/
def openLong? (cs : List Char) : Option (Nat × List Char) :=
  match cs with
  | '[' :: rest =>
    let level := (rest.takeWhile (· == '=')).length
    match rest.drop level with
    | '[' :: body => some (level, body)
    | _ => none
  | _ => none

/-- Whether a closing long bracket of a level stands at the front. -/
def closesLong (level : Nat) (cs : List Char) : Bool :=
  match cs with
  | ']' :: rest => (rest.takeWhile (· == '=')).length == level && (rest.drop level).head? == some ']'
  | _ => false

/-- The content of a long bracket up to its end: the characters in reverse, what follows, and the
line. Line ends become line feeds. -/
def longBody (level : Nat) : Nat → List Char → Nat → List Char → Option (List Char × List Char × Nat)
  | 0, _, _, _ => none
  | _, [], _, _ => none
  | fuel + 1, c :: cs, line, done =>
    if c == ']' && closesLong level (c :: cs) then some (done, cs.drop (level + 1), line)
    else if isLineEnd c then longBody level fuel (afterLineEnd (c :: cs)) (line + 1) ('\n' :: done)
    else longBody level fuel cs line (c :: done)

/-- What follows the line end right after an opening long bracket, if there is one. -/
def skipFirstLineEnd (cs : List Char) (line : Nat) : List Char × Nat :=
  match cs with
  | c :: _ => if isLineEnd c then (afterLineEnd cs, line + 1) else (cs, line)
  | [] => (cs, line)

/-! ## Quoted strings -/

/-- The bytes of a code point, up to six of them. -/
def utf8Chars (n : Nat) : List Char :=
  let byte (x : Nat) : Char := Char.ofNat x
  if n < 0x80 then [byte n]
  else if n < 0x800 then [byte (0xC0 + n / 64), byte (0x80 + n % 64)]
  else if n < 0x10000 then
    [byte (0xE0 + n / 4096), byte (0x80 + n / 64 % 64), byte (0x80 + n % 64)]
  else if n < 0x200000 then
    [byte (0xF0 + n / 262144), byte (0x80 + n / 4096 % 64), byte (0x80 + n / 64 % 64),
      byte (0x80 + n % 64)]
  else if n < 0x4000000 then
    [byte (0xF8 + n / 16777216), byte (0x80 + n / 262144 % 64), byte (0x80 + n / 4096 % 64),
      byte (0x80 + n / 64 % 64), byte (0x80 + n % 64)]
  else
    [byte (0xFC + n / 1073741824), byte (0x80 + n / 16777216 % 64), byte (0x80 + n / 262144 % 64),
      byte (0x80 + n / 4096 % 64), byte (0x80 + n / 64 % 64), byte (0x80 + n % 64)]

/-- What an escape sequence does to the text read so far. -/
inductive Escape where
  /-- It adds characters; the rest follows. -/
  | add (cs rest : List Char)
  /-- It ends a line of the source within the string. -/
  | lineEnd (rest : List Char)
  /-- It skips blanks. -/
  | skip (rest : List Char)
  /-- It is none: what is wrong, and its characters so far. -/
  | wrong (message : String) (seen : List Char)

/-- A faulty escape sequence; the character that shows the fault belongs to the text shown. -/
def Escape.fault (message : String) (seen rest : List Char) : Escape :=
  .wrong message (seen ++ rest.take 1)

/-- The hexadecimal digits of a code point, after the first one; `seen` holds the sequence so far. -/
def codePointEscape (value : Nat) (seen : List Char) : List Char → Escape
  | [] => .fault "missing '\x7d'" seen []
  | c :: cs =>
    match hexValue? c with
    | some d =>
      if 0x7FFFFFFF / 16 < value then .fault "UTF-8 value too large" seen (c :: cs)
      else codePointEscape (16 * value + d) (seen ++ [c]) cs
    | none =>
      if c == '\x7d' then .add (utf8Chars value) cs
      else .fault "missing '\x7d'" seen (c :: cs)

/-- The escape sequence after a backslash. -/
def escape (cs : List Char) : Escape :=
  match cs with
  | [] => .wrong "unfinished string" []
  | 'a' :: r => .add ['\x07'] r
  | 'b' :: r => .add ['\x08'] r
  | 'f' :: r => .add ['\x0c'] r
  | 'n' :: r => .add ['\n'] r
  | 'r' :: r => .add ['\r'] r
  | 't' :: r => .add ['\t'] r
  | 'v' :: r => .add ['\x0b'] r
  | '\\' :: r => .add ['\\'] r
  | '"' :: r => .add ['"'] r
  | '\'' :: r => .add ['\''] r
  | 'z' :: r => .skip r
  | 'x' :: r =>
    match r with
    | a :: r₁ =>
      match hexValue? a, r₁ with
      | none, _ => .fault "hexadecimal digit expected" ['\\', 'x'] r
      | some high, b :: r₂ =>
        match hexValue? b with
        | some low => .add [Char.ofNat (16 * high + low)] r₂
        | none => .fault "hexadecimal digit expected" ['\\', 'x', a] r₁
      | some _, [] => .fault "hexadecimal digit expected" ['\\', 'x', a] []
    | [] => .fault "hexadecimal digit expected" ['\\', 'x'] []
  | 'u' :: r =>
    match r with
    | '\x7b' :: r₁ =>
      match r₁ with
      | a :: r₂ =>
        match hexValue? a with
        | some d => codePointEscape d ['\\', 'u', '\x7b', a] r₂
        | none => .fault "hexadecimal digit expected" ['\\', 'u', '\x7b'] r₁
      | [] => .fault "hexadecimal digit expected" ['\\', 'u', '\x7b'] []
    | _ => .fault "missing '\x7b'" ['\\', 'u'] r
  | c :: r =>
    if isLineEnd c then .lineEnd (afterLineEnd cs)
    else if c.isDigit then
      let digits := (cs.take 3).takeWhile Char.isDigit
      let value := Decimal.natOfDigits digits
      if 255 < value then
        .fault "decimal escape too large" ('\\' :: digits) (cs.drop digits.length)
      else .add [Char.ofNat value] (cs.drop digits.length)
    else .fault "invalid escape sequence" ['\\'] (c :: r)

/-- Skip blanks within a string, counting lines. -/
def skipBlanks : Nat → List Char → Nat → List Char × Nat
  | 0, cs, line => (cs, line)
  | _, [], line => ([], line)
  | fuel + 1, c :: cs, line =>
    if isLineEnd c then skipBlanks fuel (afterLineEnd (c :: cs)) (line + 1)
    else if isSpace c then skipBlanks fuel cs line
    else (c :: cs, line)

/-- A scanned token with what follows it and the line there. -/
abbrev Scanned := Lexeme × List Char × Nat

/-- A token that is none. -/
def badToken (message : String) (line : Nat) : Scanned := (⟨.bad message, line, ""⟩, [], line)

/-- A quoted string after its opening quote. The characters read so far are held in reverse. -/
def quoted (quote : Char) : Nat → List Char → Nat → List Char → Scanned
  | 0, _, line, _ => badToken (nearMessage "unfinished string" "<eof>") line
  | _, [], line, _ => badToken (nearMessage "unfinished string" "<eof>") line
  | fuel + 1, c :: cs, line, done =>
    if c == quote then
      let body := done.reverse
      (⟨.str (bytesOfChars body), line, nearChars (quote :: body ++ [quote])⟩, cs, line)
    else if isLineEnd c then
      badToken (nearMessage "unfinished string" (nearChars (quote :: done.reverse))) line
    else if c == '\\' then
      match escape cs with
      | .add added rest => quoted quote fuel rest line (added.reverse ++ done)
      | .lineEnd rest => quoted quote fuel rest (line + 1) ('\n' :: done)
      | .skip rest =>
        let (rest, line) := skipBlanks fuel rest line
        quoted quote fuel rest line done
      | .wrong _ [] => badToken (nearMessage "unfinished string" "<eof>") line
      | .wrong message seen =>
        badToken (nearMessage message (nearChars (quote :: done.reverse ++ seen))) line
    else quoted quote fuel cs line (c :: done)

/-! ## Numerals -/

/-- The characters of a numeral: digits of any base, points, and exponent marks with a sign. -/
def numeralChars (marks : List Char) : Nat → List Char → List Char → List Char × List Char
  | 0, cs, done => (done.reverse, cs)
  | _, [], done => (done.reverse, [])
  | fuel + 1, c :: cs, done =>
    if marks.contains c then
      match cs with
      | s :: rest =>
        if s == '+' || s == '-' then numeralChars marks fuel rest (s :: c :: done)
        else numeralChars marks fuel cs (c :: done)
      | [] => ((c :: done).reverse, [])
    else if isHexDigit c || c == '.' then numeralChars marks fuel cs (c :: done)
    else (done.reverse, c :: cs)

/-- A numeral at the front. -/
def numeral (cs : List Char) (line : Nat) : Scanned :=
  let hex := cs.head? == some '0' && ((cs.drop 1).head? == some 'x' || (cs.drop 1).head? == some 'X')
  let (opening, rest) := if hex then (cs.take 2, cs.drop 2) else ([], cs)
  let (body, rest) := numeralChars (if hex then ['p', 'P'] else ['e', 'E']) cs.length rest []
  let (body, rest) :=
    match rest with
    | c :: r => if isNameStart c then (body ++ [c], r) else (body, rest)
    | [] => (body, rest)
  let text := opening ++ body
  match readNumeral? text with
  | some v => (⟨.number v, line, nearChars text⟩, rest, line)
  | none => badToken (nearMessage "malformed number" (nearChars text)) line

/-! ## Scanning -/

/-- A reserved word or symbol. -/
def wordLexeme (s : String) (line : Nat) : Lexeme := ⟨.word s, line, s!"'{s}'"⟩

/-- A character that is a symbol of its own, or none of the language. -/
def charLexeme (c : Char) (line : Nat) : Lexeme :=
  if 0x20 ≤ c.toNat && c.toNat < 0x7F then wordLexeme c.toString line
  else ⟨.word c.toString, line, s!"'<\\{c.toNat}>'"⟩

/-- The string of a long bracket whose body follows. -/
def longString (level : Nat) (cs : List Char) (line : Nat) : Scanned :=
  let (body, first) := skipFirstLineEnd cs line
  match longBody level (cs.length + 1) body first [] with
  | none =>
    badToken (nearMessage s!"unfinished long string (starting at line {line})" "<eof>")
      (first + (body.filter (· == '\n')).length)
  | some (done, rest, line) =>
    let bars := List.replicate level '='
    let text := done.reverse
    (⟨.str (bytesOfChars text), line,
      nearChars (['['] ++ bars ++ ['['] ++ text ++ [']'] ++ bars ++ [']'])⟩, rest, line)

/-- A token at the front, where neither a blank nor a comment stands. -/
def scanHere (c : Char) (cs : List Char) (line : Nat) : Scanned :=
  if isNameStart c then
    let text := String.ofList ((c :: cs).takeWhile isNamePart)
    let rest := (c :: cs).dropWhile isNamePart
    if reservedWords.contains text then (wordLexeme text line, rest, line)
    else (⟨.name text, line, s!"'{text}'"⟩, rest, line)
  else if c.isDigit || (c == '.' && (cs.head?.any Char.isDigit)) then numeral (c :: cs) line
  else if c == '"' || c == '\'' then quoted c (cs.length + 1) cs line []
  else
    match openLong? (c :: cs) with
    | some (level, body) => longString level body line
    | none =>
      if c == '[' && cs.head? == some '=' then
        let bars := cs.takeWhile (· == '=')
        badToken (nearMessage "invalid long string delimiter" (nearChars ('[' :: bars))) line
      else
        match longSymbols.find? fun s => s.toList.isPrefixOf (c :: cs) with
        | some s => (wordLexeme s line, (c :: cs).drop s.length, line)
        | none => (charLexeme c line, cs, line)

/-- The first token, after blanks and comments. -/
def scanToken : Nat → List Char → Nat → Scanned
  | 0, _, line => (⟨.eof, line, "<eof>"⟩, [], line)
  | _, [], line => (⟨.eof, line, "<eof>"⟩, [], line)
  | fuel + 1, c :: cs, line =>
    if isLineEnd c then scanToken fuel (afterLineEnd (c :: cs)) (line + 1)
    else if isSpace c then scanToken fuel cs line
    else if c == '-' && cs.head? == some '-' then
      let body := cs.drop 1
      match openLong? body with
      | some (level, rest) =>
        match longBody level (rest.length + 1) rest line [] with
        | some (_, rest, line) => scanToken fuel rest line
        | none =>
          badToken (nearMessage s!"unfinished long comment (starting at line {line})" "<eof>")
            (line + (rest.filter (· == '\n')).length)
      | none => scanToken fuel (body.dropWhile fun c => !isLineEnd c) line
    else scanHere c cs line

/-- All tokens from a line on, the last of which is the end or is bad. -/
def tokensFrom : Nat → List Char → Nat → List Lexeme → List Lexeme
  | 0, _, line, done => (⟨.eof, line, "<eof>"⟩ :: done).reverse
  | fuel + 1, cs, line, done =>
    let (lexeme, rest, next) := scanToken (cs.length + 1) cs line
    match lexeme.token with
    | .eof => (lexeme :: done).reverse
    | .bad _ => (lexeme :: done).reverse
    | _ => tokensFrom fuel rest next (lexeme :: done)

/-- All tokens of a source. -/
def tokens (source : ByteArray) : List Lexeme :=
  tokensFrom (source.size + 1) (byteChars source) 1 []

end ScriptHost.Guest
