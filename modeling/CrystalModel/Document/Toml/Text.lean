/-! # Blanks, comments and quoted texts in TOML

The parts of a document in TOML that are read character by character. Every function returns the
text behind what it has read, and nothing when the text is malformed. -/
namespace CrystalModel.Document.Toml

/-! ## Blanks and comments -/

def isBlank (c : Char) : Bool := c == ' ' || c == '\t'

def skipBlanks (cs : List Char) : List Char := cs.dropWhile isBlank

def isAllowed (c : Char) : Bool := c == '\t' || (32 ≤ c.toNat && c.toNat != 127)

def startsLine : List Char → Bool
  | '\n' :: _ => true
  | '\r' :: '\n' :: _ => true
  | _ => false

def skipFiller (inComment : Bool) : List Char → Option (List Char)
  | [] => some []
  | '\n' :: rest => skipFiller false rest
  | '\r' :: '\n' :: rest => skipFiller false rest
  | c :: rest =>
    if inComment then if isAllowed c then skipFiller true rest else none
    else if isBlank c then skipFiller false rest
    else if c = '#' then skipFiller true rest
    else some (c :: rest)

def endLine (inComment : Bool) : List Char → Option (List Char)
  | [] => some []
  | '\n' :: rest => some rest
  | '\r' :: '\n' :: rest => some rest
  | c :: rest =>
    if inComment then if isAllowed c then endLine true rest else none
    else if isBlank c then endLine false rest
    else if c = '#' then endLine true rest
    else none

/-! ## Texts -/

def hexDigit? (c : Char) : Option Nat :=
  if c.isDigit then some (c.toNat - '0'.toNat)
  else if 'a' ≤ c ∧ c ≤ 'f' then some (c.toNat - 'a'.toNat + 10)
  else if 'A' ≤ c ∧ c ≤ 'F' then some (c.toNat - 'A'.toNat + 10)
  else none

/-- The character with the code in the given digits, unless it is a surrogate or too great. -/
def codeChar (digits : List Char) : Option Char := do
  let digits ← digits.mapM hexDigit?
  let n := digits.foldl (fun n d => 16 * n + d) 0
  if n.isValidChar then some (Char.ofNat n) else none

def simpleEscape : Char → Option Char
  | 'b' => some '\x08'
  | 't' => some '\t'
  | 'n' => some '\n'
  | 'f' => some '\x0c'
  | 'r' => some '\r'
  | 'e' => some '\x1b'
  | '"' => some '"'
  | '\\' => some '\\'
  | _ => none

def basicText (done : List Char) : List Char → Option (String × List Char)
  | '"' :: rest => some (String.ofList done.reverse, rest)
  | '\\' :: 'x' :: a :: b :: rest => do basicText ((← codeChar [a, b]) :: done) rest
  | '\\' :: 'u' :: a :: b :: c :: d :: rest => do
    basicText ((← codeChar [a, b, c, d]) :: done) rest
  | '\\' :: 'U' :: a :: b :: c :: d :: e :: f :: g :: h :: rest => do
    basicText ((← codeChar [a, b, c, d, e, f, g, h]) :: done) rest
  | '\\' :: c :: rest => do basicText ((← simpleEscape c) :: done) rest
  | c :: rest => if isAllowed c then basicText (c :: done) rest else none
  | [] => none
termination_by cs => cs.length

def literalText (done : List Char) : List Char → Option (String × List Char)
  | '\x27' :: rest => some (String.ofList done.reverse, rest)
  | c :: rest => if isAllowed c then literalText (c :: done) rest else none
  | [] => none

/-- A text over several lines; one or two quotes may stand before the closing three. After a
backslash at the end of a line, `trimming` skips to the next character that is no blank. -/
def basicLines (trimming : Bool) (done : List Char) : List Char → Option (String × List Char)
  | '"' :: '"' :: '"' :: '"' :: '"' :: rest =>
    some (String.ofList ('"' :: '"' :: done).reverse, rest)
  | '"' :: '"' :: '"' :: '"' :: rest => some (String.ofList ('"' :: done).reverse, rest)
  | '"' :: '"' :: '"' :: rest => some (String.ofList done.reverse, rest)
  | '\\' :: 'x' :: a :: b :: rest => do basicLines false ((← codeChar [a, b]) :: done) rest
  | '\\' :: 'u' :: a :: b :: c :: d :: rest => do
    basicLines false ((← codeChar [a, b, c, d]) :: done) rest
  | '\\' :: 'U' :: a :: b :: c :: d :: e :: f :: g :: h :: rest => do
    basicLines false ((← codeChar [a, b, c, d, e, f, g, h]) :: done) rest
  | '\\' :: c :: rest =>
    if startsLine (skipBlanks (c :: rest)) then basicLines true done (c :: rest)
    else do basicLines false ((← simpleEscape c) :: done) rest
  | '\r' :: '\n' :: rest =>
    if trimming then basicLines true done rest
    else basicLines false ('\n' :: '\r' :: done) rest
  | c :: rest =>
    if trimming && (isBlank c || c == '\n') then basicLines true done rest
    else if isAllowed c || c == '\n' then basicLines false (c :: done) rest
    else none
  | [] => none
termination_by cs => cs.length

def literalLines (done : List Char) : List Char → Option (String × List Char)
  | '\x27' :: '\x27' :: '\x27' :: '\x27' :: '\x27' :: rest =>
    some (String.ofList ('\x27' :: '\x27' :: done).reverse, rest)
  | '\x27' :: '\x27' :: '\x27' :: '\x27' :: rest =>
    some (String.ofList ('\x27' :: done).reverse, rest)
  | '\x27' :: '\x27' :: '\x27' :: rest => some (String.ofList done.reverse, rest)
  | '\r' :: '\n' :: rest => literalLines ('\n' :: '\r' :: done) rest
  | c :: rest => if isAllowed c || c == '\n' then literalLines (c :: done) rest else none
  | [] => none

def skipFirstLine : List Char → List Char
  | '\n' :: rest => rest
  | '\r' :: '\n' :: rest => rest
  | rest => rest

end CrystalModel.Document.Toml
