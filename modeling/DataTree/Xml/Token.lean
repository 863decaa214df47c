import DataTree.Text.Span
import DataTree.Xml.Error
import DataTree.Xml.Symbol

namespace DataTree.Xml

inductive Token
  /-- What stands between the angle brackets of a tag. -/
  | tag (content : Symbols)
  | text (content : Symbols)
  | cdata (content : Symbols)
  | reference (name : Symbols)
  /-- A comment, an instruction, a declaration or a document type. -/
  | aside
  | broken (fault : Malformed)

namespace Token

structure Piece (text : Symbols) where
  token : Token
  rest : Symbols
  length_le : rest.length ≤ text.length

namespace Piece

variable {text : Symbols}

def broken (fault : Malformed) : Piece text := ⟨.broken fault, [], Nat.zero_le _⟩

def behind (x : Symbol) (piece : Piece text) : Piece (x :: text) :=
  ⟨piece.token, piece.rest, Nat.le_trans piece.length_le (Nat.le_succ _)⟩

end Piece

def quoteAfter (quote : Option Char) (x : Symbol) : Option Char :=
  match quote with
  | some q => if x = .char q then none else some q
  | none => if x.isQuote then x.char? else none

/-- The end of a tag is outside quotes; `quote` is the open one. -/
def cutTag (quote : Option Char) : (text : Symbols) → Except Malformed (Cut text)
  | [] => .error ((quote.map Malformed.valueNotClosed).getD .tagNotClosed)
  | x :: rest =>
    if quote.isNone && x == .char '>' then .ok ⟨[], rest, Nat.le_succ _⟩
    else (cutTag (quoteAfter quote x) rest).map (Cut.cons x)

/-- Where in a document type the text stands. -/
inductive Doctype
  | before (quote : Option Char)
  | subset
  | comment
  | instruction
  | declaration (quote : Option Char)
  | markup
  | after

/-- What markup inside the subset starts with an angle bracket, and how many symbols of it are
passed before its end may come. -/
def subsetMarkup (text : Symbols) : Doctype × Nat :=
  let starts (s : String) : Bool := (Symbols.ofText s).isPrefixOf text
  if starts "<!--" then (.comment, 3)
  else if starts "<?" then (.instruction, 1)
  else if starts "<!ENTITY" || starts "<!ATTLIST" || starts "<!NOTATION" then (.declaration none, 0)
  else (.markup, 0)

/-- The end of a document type, whose internal subset has markup of its own. -/
def cutDoctype (place : Doctype) (pass : Nat) : (text : Symbols) → Option (Cut text)
  | [] => none
  | x :: rest =>
    let go (place : Doctype) (pass : Nat) := (cutDoctype place pass rest).map (Cut.cons x)
    let starts (s : String) : Bool := (Symbols.ofText s).isPrefixOf (x :: rest)
    match pass, place with
    | pass + 1, place => go place pass
    | 0, .before quote =>
      if quote.isNone && x == .char '>' then some ⟨[], rest, Nat.le_succ _⟩
      else if quote.isNone && x == .char '[' then go .subset 0
      else go (.before (quoteAfter quote x)) 0
    | 0, .subset =>
      if x = .char ']' then go .after 0
      else if x = .char '<' then go (subsetMarkup (x :: rest)).1 (subsetMarkup (x :: rest)).2
      else go .subset 0
    | 0, .comment => if starts "-->" then go .subset 2 else go .comment 0
    | 0, .instruction => if starts "?>" then go .subset 1 else go .instruction 0
    | 0, .declaration quote =>
      if quote.isNone && x == .char '>' then go .subset 0
      else go (.declaration (quoteAfter quote x)) 0
    | 0, .markup => if x = .char '>' then go .subset 0 else go .markup 0
    | 0, .after => if x = .char '>' then some ⟨[], rest, Nat.le_succ _⟩ else go .after 0

/-- The text behind a word, of which capitals and small letters are the same. -/
def afterWord? : (word : List Char) → (text : Symbols) → Option Symbols
  | [], rest => some rest
  | c :: word, .char d :: rest => if c.toLower = d.toLower then afterWord? word rest else none
  | _ :: _, _ => none

/-- The token of a document type, of which `content` stands behind the exclamation mark. -/
def doctype (content : Symbols) : Token :=
  match afterWord? "DOCTYPE".toList content with
  | none => .broken .doctypeNotClosed
  | some name => if name.all Symbol.isBlank then .broken .doctypeWithoutName else .aside

def isDeclaration (content : Symbols) : Bool :=
  (Symbols.ofText "xml").isPrefixOf content &&
    match content.drop 3 with
    | [] => true
    | x :: _ => x.isBlank || x == .char '?'

def comment : (text : Symbols) → Piece text
  | [] => .broken .commentNotClosed
  | x :: rest =>
    if x = .char '-' then
      match Cut.at? (Symbols.ofText "-->") rest with
      | some cut => .behind x ⟨.aside, cut.after, cut.length_le⟩
      | none => .broken .commentNotClosed
    else .broken .commentNotClosed

def characterData (text : Symbols) : Piece text :=
  if (Symbols.ofText "CDATA[").isPrefixOf text then
    match Cut.at? (Symbols.ofText "]]>") (text.drop 6) with
    | some cut => ⟨.cdata cut.before, cut.after,
        Nat.le_trans cut.length_le (by simp only [List.length_drop]; omega)⟩
    | none => .broken .cdataNotClosed
  else .broken .cdataNotClosed

def declared : (text : Symbols) → Piece text
  | [] => .broken .unknownMarkup
  | x :: rest =>
    if x = .char '-' then .behind x (comment rest)
    else if x = .char '[' then .behind x (characterData rest)
    else if x = .char 'D' ∨ x = .char 'd' then
      match cutDoctype (.before none) 0 rest with
      | some cut => .behind x ⟨doctype (x :: cut.before), cut.after, cut.length_le⟩
      | none => .broken .doctypeNotClosed
    else .broken .unknownMarkup

def instruction (text : Symbols) : Piece text :=
  if text.head? = some (.char '>') then .broken .instructionNotClosed
  else match Cut.at? (Symbols.ofText "?>") text with
    | some cut => ⟨.aside, cut.after, cut.length_le⟩
    | none =>
      .broken (if isDeclaration text then .declarationNotClosed else .instructionNotClosed)

def tagged (text : Symbols) : Piece text :=
  match cutTag none text with
  | .ok cut => ⟨.tag cut.before, cut.after, cut.length_le⟩
  | .error fault => .broken fault

def markup : (text : Symbols) → Piece text
  | [] => tagged []
  | x :: rest =>
    if x = .char '!' then .behind x (declared rest)
    else if x = .char '?' then .behind x (instruction rest)
    else tagged (x :: rest)

def isReferenceName (x : Symbol) : Bool := x != .char ';' && x != .char '&' && x != .char '<'

/-- A reference behind its ampersand: it ends with a semicolon before other markup. -/
def referenced (text : Symbols) : Piece text :=
  match h : text.dropWhile isReferenceName with
  | [] => .broken .referenceNotClosed
  | x :: rest =>
    if x = .char ';' then ⟨.reference (text.takeWhile isReferenceName), rest,
      Nat.le_of_lt (Text.length_lt_of_dropWhile h)⟩
    else .broken .referenceNotClosed

def isText (x : Symbol) : Bool := x != .char '<' && x != .char '&'

def next (x : Symbol) (rest : Symbols) : Piece rest :=
  if x = .char '<' then markup rest
  else if x = .char '&' then referenced rest
  else ⟨.text (x :: rest.takeWhile isText), rest.dropWhile isText,
    Text.length_dropWhile_le isText rest⟩

def scan : Symbols → List Token
  | [] => []
  | x :: rest =>
    let piece := next x rest
    piece.token :: scan piece.rest
termination_by text => text.length
decreasing_by exact Nat.lt_succ_of_le piece.length_le

end Token

end DataTree.Xml
