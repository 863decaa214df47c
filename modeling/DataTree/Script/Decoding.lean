import DataTree.Script.Note

namespace DataTree.Decoding

open Script

mutual

/-- What can be done at a level. The script of a decoded type runs at the types of the user's
own. Without a script they run the nearest one around the step. -/
inductive LevelStep
  | path
  | isNull
  | naming
  | keyed (body : List (Bool × KeyedStep))
  | sequential (body : List (Bool × SequentialStep))
  | single (body : List (Bool × SingleStep))
  | decode (t : Codable Unit) (script : Option (List (Bool × LevelStep)))
  | fail (e : Error)

/-- What can be done with one field or one item. -/
inductive MemberStep
  | decodeNil
  | decode (t : Codable Unit) (script : Option (List (Bool × LevelStep)))
  | decodeOptional (t : Codable Unit) (script : Option (List (Bool × LevelStep)))
  | nestedKeyed (body : List (Bool × KeyedStep))
  | nestedSequential (body : List (Bool × SequentialStep))

/-- What can be done with an object. -/
inductive KeyedStep
  | path
  | names
  | contains (key : String)
  | member (key : String) (step : MemberStep)
  | delegate (key : Option String) (body : List (Bool × LevelStep))
  | fail (e : Error)

/-- What can be done with a list. Its members are taken in turn. -/
inductive SequentialStep
  | path
  | cursor
  | next (step : MemberStep)
  | fail (e : Error)

/-- What can be done with a level as one value. -/
inductive SingleStep
  | path
  | decodeNil
  | decodePrimitive (p : Primitive)
  | decode (t : Codable Unit) (script : Option (List (Bool × LevelStep)))
  | fail (e : Error)

end

variable {S : Type} [Backend S]

omit [Backend S] in
def noted (tried : Bool) (step : Decoding S Log Note) (rest : Decoding S Log Unit) :
    Decoding S Log Unit := do
  let outcome ← attempt step
  modify fun d => { d with user := d.user ++ [outcome] }
  proceed tried outcome rest

abbrev Own (S : Type) := Unit → Decoding S Log Unit

omit [Backend S] in
/-- An action that may run itself, to the given depth. It does nothing below. -/
def within (depth : Nat) (body : Own S → Decoding S Log Unit) : Own S :=
  match depth with
  | 0 => fun () => return
  | n + 1 => fun () => body (within n body)

mutual

def LevelStep.run (depth : Nat) (above : Own S) : LevelStep → Decoding S Log Note
  | .path => return .path (← codingPath)
  | .isNull => return .flag (← isNull)
  | .naming => return .naming (← get).naming
  | .keyed body => do
    keyed
    runKeyed depth above body
    return .done
  | .sequential body => do
    sequential
    runSequential depth above body
    return .done
  | .single body => do
    single
    runSingle depth above body
    return .done
  | .decode t script => return .decoded t (← t.decode (runScript depth above script))
  | .fail e => throw e

def MemberStep.runAt (depth : Nat) (above : Own S) (key : String) : MemberStep → Decoding S Log Note
  | .decodeNil => return .flag (← Keyed.decodeNil key)
  | .decode t script =>
    return .decoded t (← Keyed.decode key (t.decode (runScript depth above script)))
  | .decodeOptional t script =>
    return .decoded (.option t)
      (← Keyed.decodeOptional key (t.decode (runScript depth above script)))
  | .nestedKeyed body => do
    Keyed.nestedKeyed key (runKeyed depth above body)
    return .done
  | .nestedSequential body => do
    Keyed.nestedSequential key (runSequential depth above body)
    return .done

def MemberStep.runNext (depth : Nat) (above : Own S) : MemberStep → Decoding S Log Note
  | .decodeNil => return .flag (← Sequential.decodeNil)
  | .decode t script =>
    return .decoded t (← Sequential.decode (t.decode (runScript depth above script)))
  | .decodeOptional t script =>
    return .decoded (.option t)
      (← Sequential.decodeOptional (t.decode (runScript depth above script)))
  | .nestedKeyed body => do
    Sequential.nestedKeyed (runKeyed depth above body)
    return .done
  | .nestedSequential body => do
    Sequential.nestedSequential (runSequential depth above body)
    return .done

def KeyedStep.run (depth : Nat) (above : Own S) : KeyedStep → Decoding S Log Note
  | .path => return .path (← codingPath)
  | .names => return .names (← Keyed.names)
  | .contains key => return .flag (← Keyed.contains key)
  | .member key step => step.runAt depth above key
  | .delegate key body => do
    runOn (← key.elim Keyed.delegate Keyed.delegateFor) (runLevel depth above body)
    return .done
  | .fail e => throw e

def SequentialStep.run (depth : Nat) (above : Own S) : SequentialStep → Decoding S Log Note
  | .path => return .path (← codingPath)
  | .cursor =>
    return .cursor (← Sequential.count) (← Sequential.currentIndex) (← Sequential.isAtEnd)
  | .next step => step.runNext depth above
  | .fail e => throw e

def SingleStep.run (depth : Nat) (above : Own S) : SingleStep → Decoding S Log Note
  | .path => return .path (← codingPath)
  | .decodeNil => return .flag (← Single.decodeNil)
  | .decodePrimitive p => return .decoded (.prim p) (← Single.decodePrimitive p)
  | .decode t script =>
    return .decoded t (← Single.decode (t.decode (runScript depth above script)))
  | .fail e => throw e

def runLevel (depth : Nat) (above : Own S) : List (Bool × LevelStep) → Decoding S Log Unit
  | [] => return
  | (tried, step) :: rest => noted tried (step.run depth above) (runLevel depth above rest)

def runKeyed (depth : Nat) (above : Own S) : List (Bool × KeyedStep) → Decoding S Log Unit
  | [] => return
  | (tried, step) :: rest => noted tried (step.run depth above) (runKeyed depth above rest)

def runSequential (depth : Nat) (above : Own S) : List (Bool × SequentialStep) → Decoding S Log Unit
  | [] => return
  | (tried, step) :: rest => noted tried (step.run depth above) (runSequential depth above rest)

def runSingle (depth : Nat) (above : Own S) : List (Bool × SingleStep) → Decoding S Log Unit
  | [] => return
  | (tried, step) :: rest => noted tried (step.run depth above) (runSingle depth above rest)

/-- Runs the script of a step, or the script above when the step has none. The script is the one
above for the steps inside it. -/
def runScript (depth : Nat) (above : Own S) : Option (List (Bool × LevelStep)) → Own S
  | none => above
  | some script => within depth fun self => runLevel depth self script

end

end DataTree.Decoding
