import NativeBoundary.Toml.Number

/-!
# Reading TOML text

The text is read as a list of statements, which are then put together to a document.  Values
nest at most 79 deep, and a dotted key has at most 79 parts; these limits are also what bounds the
recursion.  Every way in which a text can be wrong is one and the same failure.
-/

set_option autoImplicit false

namespace NativeBoundary.Toml

open Reader

/-- How deep values may nest, and how many parts a key may have. -/
def nestingLimit : Nat := 79

/-! ## Blanks and comments -/

def isBlank (c : Char) : Bool :=
  c = ' ' || c = '\t'

def isCommentChar (c : Char) : Bool :=
  c = '\t' || (' ' ≤ c && c ≠ '\x7f')

def blanks : Reader Unit := do
  let _ ← run isBlank

def newline : Reader Unit := fun
  | '\n' :: rest => some ((), rest)
  | '\r' :: '\n' :: rest => some ((), rest)
  | _ => none

def lineEnd : Reader Unit := fun
  | [] => some ((), [])
  | input => newline input

def comment : Reader Unit := do
  expect '#'
  let _ ← run isCommentChar

def restOfLine : Reader Unit := do
  blanks
  let _ ← optional comment
  lineEnd

/-- Blanks, comments and ends of lines, as far as they go; `fuel` bounds their number. -/
def skipLines : Nat → Reader Unit
  | 0 => pure ()
  | fuel + 1 => do
    blanks
    match ← peek with
    | some '#' => comment; newline; skipLines fuel
    | some '\n' | some '\r' => newline; skipLines fuel
    | _ => pure ()

def skipBlankLines : Reader Unit := fun input => skipLines input.length input

/-! ## Strings -/

def scalar? (digits : List Char) : Option Char := do
  guard (digits.all isHexDigit)
  let code := digitsValue 16 digits
  if h : code.isValidChar then some (Char.ofNatAux code h) else none

def escape? : Char → Option Char
  | 'b' => some '\x08'
  | 't' => some '\t'
  | 'n' => some '\n'
  | 'f' => some '\x0c'
  | 'r' => some '\r'
  | '"' => some '"'
  | '\\' => some '\\'
  | _ => none

def isTextChar (c : Char) : Bool :=
  c = '\t' || (' ' ≤ c && c ≠ '\x7f')

def prepend (c : Char) : Option (List Char × List Char) → Option (List Char × List Char) :=
  Option.map fun (text, rest) => (c :: text, rest)

def basicBody : Reader (List Char)
  | '"' :: rest => some ([], rest)
  | '\\' :: 'u' :: a :: b :: c :: d :: rest => do
    prepend (← scalar? [a, b, c, d]) (basicBody rest)
  | '\\' :: 'U' :: a :: b :: c :: d :: e :: f :: g :: h :: rest => do
    prepend (← scalar? [a, b, c, d, e, f, g, h]) (basicBody rest)
  | '\\' :: c :: rest => do prepend (← escape? c) (basicBody rest)
  | c :: rest => if isTextChar c then prepend c (basicBody rest) else none
  | [] => none

def literalBody : Reader (List Char)
  | '\'' :: rest => some ([], rest)
  | c :: rest => if isTextChar c then prepend c (literalBody rest) else none
  | [] => none

def endsLine (input : List Char) : Bool :=
  (newline (input.dropWhile isBlank)).isSome

/-- The body of a string in three double quotes, and its end.  Up to two quotes may stand before
the end.  After a backslash at the end of a line, `joining` holds until a character that is
neither blank nor an end of line. -/
def longBasicBody (joining : Bool) : Reader (List Char)
  | '"' :: '"' :: '"' :: '"' :: '"' :: rest => some (['"', '"'], rest)
  | '"' :: '"' :: '"' :: '"' :: rest => some (['"'], rest)
  | '"' :: '"' :: '"' :: rest => some ([], rest)
  | '\r' :: '\n' :: rest =>
    if joining then longBasicBody true rest else prepend '\n' (longBasicBody false rest)
  | '\n' :: rest =>
    if joining then longBasicBody true rest else prepend '\n' (longBasicBody false rest)
  | '\\' :: 'u' :: a :: b :: c :: d :: rest => do
    prepend (← scalar? [a, b, c, d]) (longBasicBody false rest)
  | '\\' :: 'U' :: a :: b :: c :: d :: e :: f :: g :: h :: rest => do
    prepend (← scalar? [a, b, c, d, e, f, g, h]) (longBasicBody false rest)
  | '\\' :: c :: rest =>
    if endsLine (c :: rest) then longBasicBody true (c :: rest)
    else do prepend (← escape? c) (longBasicBody false rest)
  | c :: rest =>
    if joining && isBlank c then longBasicBody true rest
    else if isTextChar c then prepend c (longBasicBody false rest)
    else none
  | [] => none

/-- The body of a string in three single quotes, and its end.  Up to two quotes may stand before
the end. -/
def longLiteralBody : Reader (List Char)
  | '\'' :: '\'' :: '\'' :: '\'' :: '\'' :: rest => some (['\'', '\''], rest)
  | '\'' :: '\'' :: '\'' :: '\'' :: rest => some (['\''], rest)
  | '\'' :: '\'' :: '\'' :: rest => some ([], rest)
  | '\r' :: '\n' :: rest => prepend '\n' (longLiteralBody rest)
  | '\n' :: rest => prepend '\n' (longLiteralBody rest)
  | c :: rest => if isTextChar c then prepend c (longLiteralBody rest) else none
  | [] => none

/-- A string of any of the four kinds.  An end of line right after three opening quotes does not
count. -/
def quoted : Reader String := do
  let long (body : Reader (List Char)) : Reader (List Char) := do
    let _ ← optional newline
    body
  let text ← (fun
    | '"' :: '"' :: '"' :: rest => long (longBasicBody false) rest
    | '"' :: rest => basicBody rest
    | '\'' :: '\'' :: '\'' :: rest => long longLiteralBody rest
    | '\'' :: rest => literalBody rest
    | _ => none : Reader (List Char))
  pure (String.ofList text)

/-! ## Keys -/

def isBareChar (c : Char) : Bool :=
  c.isAlphanum || c = '_' || c = '-'

def keyPart : Reader String := do
  match ← peek with
  | some '"' => let _ ← next; pure (String.ofList (← basicBody))
  | some '\'' => let _ ← next; pure (String.ofList (← literalBody))
  | _ =>
    let text ← run isBareChar
    guard (!text.isEmpty)
    pure (String.ofList text)

def keyParts : Nat → Reader (List String)
  | 0 => failure
  | limit + 1 => do
    blanks
    let part ← keyPart
    blanks
    match ← peek with
    | some '.' => let _ ← next; pure (part :: (← keyParts limit))
    | _ => pure [part]

def key : Reader (List String × String) := do
  let parts ← keyParts nestingLimit
  pure (parts.dropLast, ← parts.getLast?)

/-! ## Values -/

def arrayItems (item : Reader Node) : Nat → Reader (List Node)
  | 0 => failure
  | fuel + 1 => do
    skipBlankLines
    match ← peek with
    | some ']' => let _ ← next; pure []
    | _ =>
      let first ← item
      skipBlankLines
      match ← next with
      | ',' => pure (first :: (← arrayItems item fuel))
      | ']' => pure [first]
      | _ => failure

def braceEntries (item : Reader Node) : Nat → Entries → Reader Entries
  | 0, _ => failure
  | fuel + 1, entries => do
    let (path, last) ← key
    expect '='
    blanks
    let node ← item
    blanks
    let entries ← entries.assign path last node
    match ← next with
    | ',' => braceEntries item fuel entries
    | '\x7d' => pure entries
    | _ => failure

def braceTable (item : Reader Node) : Reader Entries := do
  blanks
  match ← peek with
  | some '\x7d' => let _ ← next; pure []
  | _ => fun input => braceEntries item input.length [] input

/-- A value whose items, if it has any, are read by `item`; without `item` it may have none. -/
def valueOf (item : Option (Reader Node)) : Reader Node := do
  match ← peek with
  | some '"' | some '\'' => pure (.string (← quoted))
  | some '[' =>
    let item ← item
    let _ ← next
    pure (.array (← fun input => arrayItems item input.length input))
  | some '\x7b' =>
    let item ← item
    let _ ← next
    pure (.table .braces (← braceTable item))
  | some 't' => word "true"; pure (.boolean true)
  | some 'f' => word "false"; pure (.boolean false)
  | _ => numeric

/-- A value; `depth` is how deep other values may nest in it. -/
def value : Nat → Reader Node
  | 0 => valueOf none
  | depth + 1 => valueOf (some (value depth))

/-! ## Documents -/

def header : Reader Statement := do
  match ← peek with
  | some '[' =>
    let _ ← next
    let (path, last) ← key
    expect ']'
    expect ']'
    restOfLine
    pure (.openElement path last)
  | _ =>
    let (path, last) ← key
    expect ']'
    restOfLine
    pure (.openTable path last)

def assignment : Reader Statement := do
  let (path, last) ← key
  expect '='
  blanks
  let node ← value nestingLimit
  restOfLine
  pure (.assign path last node)

def statements : Nat → Reader (List Statement)
  | 0 => failure
  | fuel + 1 => do
    blanks
    match ← peek with
    | none => pure []
    | some '#' => comment; lineEnd; statements fuel
    | some '\n' | some '\r' => newline; statements fuel
    | some '[' =>
      let _ ← next
      let first ← header
      pure (first :: (← statements fuel))
    | some _ =>
      let first ← assignment
      pure (first :: (← statements fuel))

/-- The document of a text, after a byte order mark if there is one. -/
def parse? (text : String) : Option Entries := do
  let input :=
    match text.toList with
    | '\ufeff' :: rest => rest
    | input => input
  let (all, _) ← statements (input.length + 1) input
  assemble all

end NativeBoundary.Toml
