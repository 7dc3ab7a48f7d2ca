import Redraw.Dynamic.Generator

/-!
# Sessions of callers without types

A caller holds generators and lists, and calls whatever methods with whatever arguments. What it
holds it passes by number: shuffling overwrites a list that the caller holds, sampling makes a new
one, and a failed call leaves it to the caller to go on.
-/

namespace Redraw.Dynamic

/-- Anything that is passed. -/
inductive Argument where
  /-- A value that is none of the others. -/
  | value (value : Value)
  /-- A text. -/
  | text (text : String)
  /-- A list that the caller holds. -/
  | list (number : Nat)
  /-- A generator that the caller holds. -/
  | generator (number : Nat)
  deriving DecidableEq, Repr

namespace Argument

/-- What is passed where a number is taken. -/
def toValue : Argument → Value
  | value v => v
  | _ => .other

/-- What is passed where a text is taken. -/
def toText : Argument → Except Refusal String
  | text t => .ok t
  | _ => .error .wrongType

/-- What is passed where a list is taken, when the caller holds these lists. -/
def toItems {α : Type} (lists : List (List α)) : Argument → Items α
  | list number =>
    match lists[number]? with
    | some items => .list items
    | none => .other
  | _ => .other

end Argument

/-- A method of a generator. -/
inductive Method where
  /-- Draw an integer below a bound. -/
  | integerBelow
  /-- Draw a real. -/
  | real
  /-- Look at the seed. -/
  | seed
  /-- Put a list in random order. -/
  | shuffle
  /-- Select items of a list. -/
  | sample
  /-- Write the state as text. -/
  | save
  /-- Replace the state by one that is written as text. -/
  | load
  /-- Write the state as JSON. -/
  | toJson
  /-- Compare with anything. -/
  | equals
  /-- Show what it is. -/
  | description
  deriving DecidableEq, Repr

/-- Something that a caller does. -/
inductive Step where
  /-- Make a generator from a seed. -/
  | make (arguments : List Argument)
  /-- Make a generator from JSON. -/
  | ofJson (arguments : List Argument)
  /-- Ask for a seed. -/
  | issue
  /-- Call a method of a generator that the caller holds. -/
  | call (receiver : Nat) (method : Method) (arguments : List Argument)
  deriving DecidableEq, Repr

/-- What a step gives. -/
inductive Answer where
  /-- Nothing. -/
  | nothing
  /-- A 32-bit integer. -/
  | half (value : UInt32)
  /-- A 64-bit integer. -/
  | word (value : UInt64)
  /-- A real. -/
  | real (value : Float)
  /-- A truth value. -/
  | truth (value : Bool)
  /-- A text. -/
  | text (text : String)
  /-- A list, which the caller holds from now on. -/
  | list (number : Nat)
  /-- A generator, which the caller holds from now on. -/
  | generator (number : Nat)

/-- What a caller holds, and the provider of seeds. -/
structure Session (α : Type) where
  /-- The provider of seeds. -/
  provider : SeedProvider
  /-- The generators, oldest first. -/
  generators : List Generator := []
  /-- The lists, oldest first. -/
  lists : List (List α) := []

/-- A step of a session, which is kept where a refusal left it. -/
abbrev Turn (α β : Type) := ExceptT Refusal (StateT (Session α) Logged) β

namespace Turn

variable {α β : Type}

/-- Fails as a result does. -/
def orFail : Except Refusal β → Turn α β
  | .ok b => return b
  | .error refusal => throw refusal

/-- Asks the provider. -/
def withProvider (ask : ExceptT Refusal (StateT SeedProvider Logged) β) : Turn α β := do
  let (result, provider) ← (ask.run.run (← get).provider : Logged _)
  modify fun session => { session with provider := provider }
  orFail result

/-- Calls a generator that the caller holds. -/
def withGenerator (receiver : Nat) (call : Call β) : Turn α β := do
  match (← get).generators[receiver]? with
  | none => throw .wrongType
  | some g =>
    let (result, g) ← (call.run.run g : Logged _)
    modify fun session => { session with generators := session.generators.set receiver g }
    orFail result

/-- Hands a new generator to the caller. -/
def holdGenerator (g : Generator) : Turn α Answer :=
  modifyGet fun session => (.generator session.generators.length,
    { session with generators := session.generators ++ [g] })

/-- Hands a new list to the caller. -/
def holdList (items : List α) : Turn α Answer :=
  modifyGet fun session => (.list session.lists.length,
    { session with lists := session.lists ++ [items] })

/-- Overwrites a list that the caller holds. -/
def overwrite (argument : Argument) (items : List α) : Turn α Answer := do
  if let .list number := argument then
    modify fun session => { session with lists := session.lists.set number items }
  return .nothing

end Turn

namespace Method

open Turn

variable {α : Type}

/-- Calls a method. It is refused unless as many arguments are passed as it takes. -/
def perform (receiver : Nat) : Method → List Argument → Turn α Answer
  | integerBelow, arguments =>
    .half <$> withGenerator receiver (Dynamic.integerBelow (arguments.map Argument.toValue))
  | real, [] => .real <$> withGenerator receiver Dynamic.real
  | seed, [] => .word <$> withGenerator receiver Dynamic.seed
  | shuffle, [items] => do
    overwrite items (← withGenerator receiver (Dynamic.shuffle (items.toItems (← get).lists)))
  | sample, [population, choices] => do
    let population := population.toItems (← get).lists
    holdList (← withGenerator receiver (Dynamic.sample population choices.toValue))
  | save, [] => .text <$> withGenerator receiver Dynamic.save
  | load, [state] => do
    let text ← orFail state.toText
    withGenerator receiver (Dynamic.load text)
    return .nothing
  | toJson, [] => .text <$> withGenerator receiver Dynamic.toJson
  | equals, [.generator other] => do
    let generators := (← get).generators
    return .truth (generators[receiver]? == generators[other]?)
  | equals, [_] => return .truth false
  | description, [] =>
    .text <$> withGenerator receiver (Dynamic.description <$> getThe Generator)
  | _, _ => throw .wrongType

end Method

namespace Step

open Turn

variable {α : Type}

/-- Takes a step. -/
def take : Step → Turn α Answer
  | make arguments => do
    holdGenerator (← withProvider (Dynamic.make (arguments.map Argument.toValue)))
  | ofJson [json] => do
    let text ← orFail json.toText
    holdGenerator (← orFail (Dynamic.ofJson text))
  | ofJson _ => throw .wrongType
  | issue => (fun seed => .half seed) <$> withProvider (ExceptT.lift SeedProvider.next)
  | call receiver method arguments => method.perform receiver arguments

end Step

namespace Session

variable {α : Type}

/-- Takes steps one after the other, whether they are refused or not, and collects what they
give. -/
def run : List Step → StateT (Session α) Logged (List (Except Refusal Answer))
  | [] => return []
  | step :: steps => do
    let answer ← step.take.run
    return answer :: (← run steps)

end Session

end Redraw.Dynamic
