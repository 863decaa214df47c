import DataTree.Fault
import DataTree.Text.Utf8

namespace DataTree.Xml

/-- An attribute that is not written as it should be. Positions count octets in the tag. -/
inductive AttributeFault
  | expectedEquals (position : Nat)
  | duplicated (position previous : Nat)
  | expectedValue (position : Nat)
  | unquotedValue (position : Nat)
  | expectedQuote (position : Nat) (quote : Char)

def AttributeFault.message : AttributeFault → String
  | .expectedEquals position =>
    "position " ++ toString position ++
      ": attribute key must be directly followed by `=` or space"
  | .duplicated position previous =>
    "position " ++ toString position ++
      ": duplicated attribute, previous declaration at position " ++ toString previous
  | .expectedValue position =>
    "position " ++ toString position ++ ": `=` must be followed by an attribute value"
  | .unquotedValue position =>
    "position " ++ toString position ++ ": attribute value must be enclosed in `\"` or `'`"
  | .expectedQuote position quote =>
    "position " ++ toString position ++ ": missing closing quote `" ++ String.ofList [quote] ++
      "` in attribute value"

/-- A numeric reference, in an attribute value, to no character. -/
inductive CharacterFault
  | signed
  | empty
  | badDigit
  | tooLarge
  | zero
  | notScalar (code : Nat)

def CharacterFault.message : CharacterFault → String
  | .signed => "unexpected number sign"
  | .empty => "cannot parse integer from empty string"
  | .badDigit => "invalid digit found in string"
  | .tooLarge => "number too large to fit in target type"
  | .zero => "0x0 character is not permitted in XML"
  | .notScalar code => "`" ++ toString code ++ "` is not a valid codepoint"

/-- A reference in an attribute value. Positions count octets in the value. -/
inductive ReferenceFault
  | unterminated (start stop : Nat)
  | character (fault : CharacterFault)
  | unrecognized (start stop : Nat) (name : String)

def ReferenceFault.message : ReferenceFault → String
  | .unterminated start stop =>
    "Error while escaping character at range " ++ toString start ++ ".." ++ toString stop ++
      ": Cannot find ';' after '&'"
  | .character fault => "invalid character reference: " ++ fault.message
  | .unrecognized start stop name =>
    "at " ++ toString start ++ ".." ++ toString stop ++ ": unrecognized entity `" ++ name ++ "`"

inductive Malformed
  | referenceNotClosed
  | commentNotClosed
  | cdataNotClosed
  | doctypeNotClosed
  | doctypeWithoutName
  | instructionNotClosed
  | declarationNotClosed
  | tagNotClosed
  | valueNotClosed (quote : Char)
  | unknownMarkup
  | mismatchedEnd (expected found : String)
  | unmatchedEnd (found : String)
  | undecodable (fault : Utf8.Fault)
  | badAttribute (fault : AttributeFault)
  | badReference (fault : ReferenceFault)
  | characterReference (raw : String)
  | codePoint (code : Nat)

namespace Malformed

def notClosed (what mark : String) : String :=
  what ++ " not closed: `" ++ mark ++ "` not found before end of input"

def message : Malformed → String
  | referenceNotClosed => notClosed "ill-formed document: entity or character reference" ";"
  | commentNotClosed => notClosed "syntax error: comment" "-->"
  | cdataNotClosed => notClosed "syntax error: CDATA" "]]>"
  | doctypeNotClosed => notClosed "syntax error: DOCTYPE" ">"
  | doctypeWithoutName =>
    "ill-formed document: `<!DOCTYPE>` declaration does not contain a name of a document type"
  | instructionNotClosed => notClosed "syntax error: processing instruction" "?>"
  | declarationNotClosed => notClosed "syntax error: XML declaration" "?>"
  | tagNotClosed => notClosed "syntax error: tag" ">"
  | valueNotClosed quote => notClosed "syntax error: attribute value" (String.ofList [quote])
  | unknownMarkup => "syntax error: unknown or missed symbol in markup"
  | mismatchedEnd expected found =>
    "ill-formed document: expected `</" ++ expected ++ ">`, but `</" ++ found ++ ">` was found"
  | unmatchedEnd found =>
    "ill-formed document: close tag `</" ++ found ++ ">` does not match any open tag"
  | undecodable fault => "cannot decode input using UTF-8: " ++ fault.message
  | badAttribute fault => fault.message
  | badReference fault => fault.message
  | characterReference raw => "invalid character reference &" ++ raw ++ ";"
  | codePoint code => "invalid code point " ++ toString code

end Malformed

inductive Error
  | parse (fault : Malformed)
  | invalidUtf8 (fault : Utf8.Fault)
  | unbalancedTags
  | multipleRoots
  | noRoot

namespace Error

def message : Error → String
  | parse fault => "XML parse error: " ++ fault.message
  | invalidUtf8 fault => "invalid UTF-8 in XML: " ++ fault.message
  | unbalancedTags => "unbalanced XML tags"
  | multipleRoots => "XML document has multiple root elements"
  | noRoot => "XML document has no root element"

def toError (e : Error) : DataTree.Error := .root (.dataCorrupted e.message)

end Error

end DataTree.Xml
