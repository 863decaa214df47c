import DataTree.Xml.Token

namespace DataTree.Xml

inductive Event
  | start (tag : Symbols)
  /-- An element that is closed at once. -/
  | empty (tag : Symbols)
  | stop
  | text (content : Symbols)
  | cdata (content : Symbols)
  | reference (name : Symbols)
  | aside
  | broken (fault : Malformed)

namespace Event

def tagName (tag : Symbols) : Symbols := tag.takeWhile fun x => !x.isBlank

def shown (name : Symbols) : String := name.decode.toOption.getD ""

/-- The name of an end tag, behind its slash: without the blanks at its end, unless there is nothing
else. -/
def endName (content : Symbols) : Symbols :=
  match content.reverse.dropWhile Symbol.isBlank with
  | [] => content
  | name => name.reverse

/-- The events of some tokens, with the names of the elements that are open, innermost first. -/
def ofTokens (opened : List Symbols) : List Token → List Event
  | [] => []
  | .text content :: rest => .text content :: ofTokens opened rest
  | .cdata content :: rest => .cdata content :: ofTokens opened rest
  | .reference name :: rest => .reference name :: ofTokens opened rest
  | .aside :: rest => .aside :: ofTokens opened rest
  | .broken fault :: _ => [.broken fault]
  | .tag content :: rest =>
    if content.head? = some (.char '/') then
      let name := endName content.tail
      match opened with
      | [] => [.broken (.unmatchedEnd (shown name))]
      | expected :: opened =>
        if name = expected then .stop :: ofTokens opened rest
        else [.broken (.mismatchedEnd (shown expected) (shown name))]
    else if content.getLast? = some (.char '/') then
      .empty content.dropLast :: ofTokens opened rest
    else .start content :: ofTokens (tagName content :: opened) rest

def scan (text : Symbols) : List Event := ofTokens [] (Token.scan text)

end Event

end DataTree.Xml
