import DataTree.Script.Note

namespace DataTree.Encoding

open Script

mutual

/-- What is encoded: a value of a codable type, or a structure over scripts that encode
themselves. -/
inductive Content
  | datum (t : Codable Empty) (x : t.Carrier fun x => nomatch x)
  | text (s : String)
  | list (items : List Content)
  | option (content : Option Content)
  | entries (fields : List (String × Content))
  | script (steps : List (Bool × LevelStep))

/-- What can be done at a level. -/
inductive LevelStep
  | path
  | naming
  | keyed (body : List (Bool × KeyedStep))
  | sequential (body : List (Bool × SequentialStep))
  | single (body : List (Bool × SingleStep))
  | encode (content : Content)
  | fail (e : Error)

/-- What can be written to one field or one item. -/
inductive MemberStep
  | encode (content : Content)
  | encodeNil
  | nestedKeyed (body : List (Bool × KeyedStep))
  | nestedSequential (body : List (Bool × SequentialStep))

/-- What can be done with an object. Delegates are known by the names that the script gives them. -/
inductive KeyedStep
  | path
  | member (key : String) (step : MemberStep)
  | encodeOptional (key : String) (content : Option Content)
  | delegate (id : String) (key : Option String)
  | within (id : String) (body : List (Bool × LevelStep))
  | finish (id : String)
  | fail (e : Error)

/-- What can be done with a list. Its members are appended in turn. -/
inductive SequentialStep
  | path
  | count
  | next (step : MemberStep)
  | fail (e : Error)

/-- What can be done with a level as one value. -/
inductive SingleStep
  | path
  | encodeNil
  | encodePrimitive (p : Primitive) (x : p.Carrier)
  | encode (content : Content)
  | fail (e : Error)

end

variable {S : Type} [Backend S]

abbrev Delegates (S : Type) := List (String × Keyed.Delegate S Log)

omit [Backend S] in
def note (outcome : Except Error Note) : Encoding S Log Unit := modify fun e =>
  { e with user := e.user ++ [outcome] }

omit [Backend S] in
def noted (tried : Bool) (step : Encoding S Log Note) (rest : Encoding S Log Unit) :
    Encoding S Log Unit := do
  let outcome ← attempt step
  note outcome
  proceed tried outcome rest

omit [Backend S] in
def apart (delegates : Delegates S) (step : Encoding S Log Note) :
    Encoding S Log (Except Error Note × Delegates S) :=
  return (← attempt step, delegates)

omit [Backend S] in
def onDelegate (id : String) (delegates : Delegates S)
    (step : Keyed.Delegate S Log → Encoding S Log (Except Error Note × Delegates S)) :
    Encoding S Log (Except Error Note × Delegates S) :=
  match List.lookup id delegates with
  | some delegate => step delegate
  | none => return (.error (.root (.keyNotFound id)), delegates)

mutual

def Content.encode : Content → Encoding S Log Unit
  | .datum t x => t.encode (fun x => nomatch x) x
  | .text s => do
    single
    Single.encodeText s
  | .list items => do
    sequential
    Sequential.encodeAll (contentActions items)
  | .option (some content) => content.encode
  | .option none => do
    single
    Single.encodeNil
  | .entries fields => do
    keyed
    Keyed.encodeEntries (entryActions fields)
  | .script steps => runLevel steps

def contentActions : List Content → List (Encoding S Log Unit)
  | [] => []
  | content :: rest => content.encode :: contentActions rest

def entryActions : List (String × Content) → List (String × Encoding S Log Unit)
  | [] => []
  | (name, content) :: rest => (name, content.encode) :: entryActions rest

def LevelStep.run : LevelStep → Encoding S Log Note
  | .path => return .path (← codingPath)
  | .naming => return .naming (← get).naming
  | .keyed body => do
    keyed
    runKeyed [] body
    return .done
  | .sequential body => do
    sequential
    runSequential body
    return .done
  | .single body => do
    single
    runSingle body
    return .done
  | .encode content => do
    content.encode
    return .done
  | .fail e => throw e

def MemberStep.runAt (key : String) : MemberStep → Encoding S Log Unit
  | .encode content => Keyed.encode key content.encode
  | .encodeNil => Keyed.encodeNil key
  | .nestedKeyed body => Keyed.nestedKeyed key (runKeyed [] body)
  | .nestedSequential body => Keyed.nestedSequential key (runSequential body)

def MemberStep.runNext : MemberStep → Encoding S Log Unit
  | .encode content => Sequential.encode content.encode
  | .encodeNil => Sequential.encodeNil
  | .nestedKeyed body => Sequential.nestedKeyed (runKeyed [] body)
  | .nestedSequential body => Sequential.nestedSequential (runSequential body)

def KeyedStep.run (delegates : Delegates S) :
    KeyedStep → Encoding S Log (Except Error Note × Delegates S)
  | .path => apart delegates do return .path (← codingPath)
  | .member key step => apart delegates do
    step.runAt key
    return .done
  | .encodeOptional key (some content) => apart delegates do
    Keyed.encodeOptional key (some content.encode)
    return .done
  | .encodeOptional key none => apart delegates do
    Keyed.encodeOptional key none
    return .done
  | .delegate id key => do
    let delegate ← key.elim Keyed.delegate Keyed.delegateFor
    return (.ok (.delegate delegate.name delegate.encoder.path), Fields.put id delegate delegates)
  | .within id body => onDelegate id delegates fun delegate => do
    let (outcome, delegate) ← Keyed.runOn delegate (runLevel body)
    return (outcome.map fun () => .done, Fields.put id delegate delegates)
  | .finish id => onDelegate id delegates fun delegate => do
    let outcome ← attempt (Keyed.finish delegate)
    return (outcome.map fun () => .done, Fields.erase id delegates)
  | .fail e => apart delegates (throw e)

def SequentialStep.run : SequentialStep → Encoding S Log Note
  | .path => return .path (← codingPath)
  | .count => return .count (← Sequential.count)
  | .next step => do
    step.runNext
    return .done
  | .fail e => throw e

def SingleStep.run : SingleStep → Encoding S Log Note
  | .path => return .path (← codingPath)
  | .encodeNil => do
    Single.encodeNil
    return .done
  | .encodePrimitive p x => do
    Single.encodePrimitive p x
    return .done
  | .encode content => do
    Single.encode content.encode
    return .done
  | .fail e => throw e

def runLevel : List (Bool × LevelStep) → Encoding S Log Unit
  | [] => return
  | (tried, step) :: rest => noted tried step.run (runLevel rest)

def runKeyed (delegates : Delegates S) : List (Bool × KeyedStep) → Encoding S Log Unit
  | [] => return
  | (tried, step) :: rest => do
    let (outcome, delegates) ← step.run delegates
    note outcome
    proceed tried outcome (runKeyed delegates rest)

def runSequential : List (Bool × SequentialStep) → Encoding S Log Unit
  | [] => return
  | (tried, step) :: rest => noted tried step.run (runSequential rest)

def runSingle : List (Bool × SingleStep) → Encoding S Log Unit
  | [] => return
  | (tried, step) :: rest => noted tried step.run (runSingle rest)

end

end DataTree.Encoding
