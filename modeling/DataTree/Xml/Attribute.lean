import DataTree.Xml.Reference
import DataTree.Xml.Symbol

namespace DataTree.Xml

inductive Attribute
  | given (key value : Symbols)
  | broken (fault : AttributeFault)

namespace Attribute

def isKey (x : Symbol) : Bool := x != .char '=' && !x.isBlank

/-- What stands behind a key: an equals sign, a quote, the value and the quote again. The result is
the value and the rest of the tag. -/
def cutValue (total : Nat) (text : Symbols) : Except AttributeFault (Cut text) :=
  match h : text.skipBlanks with
  | [] => .error (.expectedValue total)
  | quote :: rest =>
    if quote.isQuote then
      match h' : rest.dropWhile (· != quote) with
      | [] => .error (.expectedQuote total (quote.char?.getD '\"'))
      | _ :: after => .ok ⟨rest.takeWhile (· != quote), after,
          Nat.le_of_lt (Nat.lt_trans (Text.length_lt_of_dropWhile h')
            (Text.length_lt_of_dropWhile h))⟩
    else .error (.unquotedValue (total - Symbols.width (quote :: rest)))

/-- The rest of a tag, which has `total` octets, as attributes. Of the keys before it knows the
position. The first symbol of a key may be any. -/
def scan (total : Nat) (seen : List (Symbols × Nat)) (text : Symbols) : List Attribute :=
  match _h : text.skipBlanks with
  | [] => []
  | x :: rest =>
    let position := total - Symbols.width (x :: rest)
    let key := x :: rest.takeWhile isKey
    match _h' : Symbols.skipBlanks (rest.dropWhile isKey) with
    | [] => [.broken (.expectedEquals total)]
    | y :: behind =>
      if y ≠ .char '=' then [.broken (.expectedEquals (total - Symbols.width (y :: behind)))]
      else match seen.lookup key with
        | some previous => [.broken (.duplicated position previous)]
        | none =>
          match cutValue total behind with
          | .error fault => [.broken fault]
          | .ok cut => .given key cut.before :: scan total ((key, position) :: seen) cut.after
termination_by text.length
decreasing_by
  have outer := Text.length_lt_of_dropWhile _h
  have inner := Text.length_lt_of_dropWhile _h'
  have key := Text.length_dropWhile_le isKey rest
  have value := cut.length_le
  omega

def localName (name : Symbols) : Symbols :=
  match name.dropWhile (· != .char ':') with
  | [] => name
  | _ :: rest => rest

def isDeclaration (key : Symbols) : Bool :=
  key.takeWhile (· != .char ':') == Symbols.ofText "xmlns"

def valueText (value : Symbols) : Except Error String := do
  let cs ← value.chars.mapError fun fault => .parse (.undecodable fault)
  let cs ← (Reference.expandAll cs).mapError fun fault => .parse (.badReference fault)
  return String.ofList cs

/-- Adds the attributes in order to known ones, under their local names. -/
def collect : List Attribute → List (String × String) → Except Error (List (String × String))
  | [], known => .ok known
  | .broken fault :: _, _ => .error (.parse (.badAttribute fault))
  | .given key value :: rest, known => do
    if isDeclaration key then collect rest known
    else
      let name ← (localName key).decode.mapError .invalidUtf8
      let value ← valueText value
      collect rest (Fields.put name value known)

end Attribute

end DataTree.Xml
