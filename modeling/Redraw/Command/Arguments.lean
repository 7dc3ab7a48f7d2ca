import Redraw.Command.Basic
import Redraw.Numeral

/-!
# Reading the command line

Arguments are read from the first to the last. An option's value may be attached to it or be the
next argument; in the second case it is checked when the next option or item comes, or at the end,
and so is the lack of it. Two options hold for every command and may stand before or after its
name. A command is complete with all it requires before anything is said about a value that is still
open before its name.
-/

namespace Redraw

/-- What the arguments read so far say. -/
structure ArgumentDraft where
  /-- The configuration file. -/
  config : Option String := none
  /-- Whether details are reported. -/
  verbose : Bool := false
  /-- The seed. -/
  seed : Option UInt64 := none
  /-- How many draws are printed. -/
  count : Option Nat := none
  /-- The bound of the draws. -/
  bound : Option UInt32 := none
  /-- Whether reals are drawn. -/
  real : Bool := false
  /-- How many items are selected. -/
  choices : Option Nat := none
  /-- How many draws come before a checkpoint. -/
  skip : Option Nat := none
  /-- The file that is written. -/
  out : Option String := none
  /-- The file that is read. -/
  state : Option String := none
  /-- Whether the file is JSON. -/
  json : Bool := false
  /-- The items, last to first. -/
  items : List String := []

/-- How the value of an option is checked and put into a draft. -/
abbrev ValueReader := String → Except Usage (ArgumentDraft → ArgumentDraft)

/-- What an option does. -/
inductive Effect where
  /-- It sets something. -/
  | flag (put : ArgumentDraft → ArgumentDraft)
  /-- It takes a value. -/
  | value (read : ValueReader)
  /-- It ends everything. -/
  | stop (usage : Usage)

/-- An option. -/
structure CommandOption where
  /-- Its long name. -/
  long : String
  /-- Its short name. -/
  short : Option Char := none
  /-- Whether it has been given. -/
  isGiven : ArgumentDraft → Bool
  /-- What it does. -/
  effect : Effect

/-- An option whose value has not been checked yet. -/
structure OpenOption where
  /-- The option. -/
  option : CommandOption
  /-- How its value is checked. -/
  read : ValueReader
  /-- Its value, if it has come. -/
  text : Option String

/-- How far the arguments have been read. -/
structure Progress where
  /-- What they say. -/
  draft : ArgumentDraft := {}
  /-- The option whose value has not been checked yet. -/
  pending : Option OpenOption := none

/-- One argument. -/
inductive Argument where
  /-- The mark after which all arguments are words. -/
  | escape
  /-- A long option, with the value that is attached to it. -/
  | long (name : String) (value : Option String)
  /-- Short options. -/
  | short (names : List Char)
  /-- Anything else. -/
  | word (text : String)
  deriving DecidableEq, Repr

namespace Argument

/-- What follows the first equals sign. -/
def afterEquals? : List Char → Option String
  | [] => none
  | c :: cs => if c = '=' then some (String.ofList cs) else afterEquals? cs

/-- The kind of an argument. -/
def ofString (text : String) : Argument :=
  match text.toList with
  | ['-', '-'] => .escape
  | '-' :: '-' :: cs => .long (String.ofList (cs.takeWhile (· ≠ '='))) (afterEquals? cs)
  | '-' :: c :: cs => .short (c :: cs)
  | _ => .word text

end Argument

namespace CommandOption

/-- Checks the value of an option that may not have been given before. -/
def give (option : CommandOption) (read : ValueReader) (text : String) (draft : ArgumentDraft) :
    Except Usage ArgumentDraft := do
  if option.isGiven draft then throw .repeatedOption
  return (← read text) draft

/-- Reads a path, which may not be empty. -/
def path (put : String → ArgumentDraft → ArgumentDraft) : Effect :=
  .value fun text => if text.isEmpty then .error .missingValue else .ok (put text)

/-- Reads a number in a range. -/
def number (least limit : Nat) (put : Nat → ArgumentDraft → ArgumentDraft) : Effect :=
  .value fun text =>
    match Numeral.read? limit text.toList with
    | some n => if least ≤ n then .ok (put n) else .error .badValue
    | none => .error .badValue

/-- Names the configuration file. -/
def config : CommandOption where
  long := "config"
  short := some 'c'
  isGiven d := d.config.isSome
  effect := path fun text d => { d with config := some text }

/-- Has details reported. -/
def verbose : CommandOption where
  long := "verbose"
  short := some 'v'
  isGiven d := d.verbose
  effect := .flag fun d => { d with verbose := true }

/-- Asks for help. -/
def help : CommandOption where
  long := "help"
  short := some 'h'
  isGiven _ := false
  effect := .stop .help

/-- Asks for the version. -/
def version : CommandOption where
  long := "version"
  short := some 'V'
  isGiven _ := false
  effect := .stop .version

/-- Fixes the seed. -/
def seed : CommandOption where
  long := "seed"
  isGiven d := d.seed.isSome
  effect := number 0 UInt64.size fun n d => { d with seed := some (.ofNat n) }

/-- Says how many draws are printed. -/
def count : CommandOption where
  long := "count"
  isGiven d := d.count.isSome
  effect := number 0 UInt64.size fun n d => { d with count := some n }

/-- Sets the bound of the draws, which may not be zero. -/
def max : CommandOption where
  long := "max"
  isGiven d := d.bound.isSome
  effect := number 1 UInt32.size fun n d => { d with bound := some (.ofNat n) }

/-- Has reals drawn. -/
def real : CommandOption where
  long := "real"
  isGiven d := d.real
  effect := .flag fun d => { d with real := true }

/-- Says how many items are selected. -/
def choices : CommandOption where
  long := "choices"
  isGiven d := d.choices.isSome
  effect := number 0 UInt64.size fun n d => { d with choices := some n }

/-- Says how many draws come before a checkpoint. -/
def skip : CommandOption where
  long := "skip"
  isGiven d := d.skip.isSome
  effect := number 0 UInt64.size fun n d => { d with skip := some n }

/-- Names the file that is written. -/
def out : CommandOption where
  long := "out"
  isGiven d := d.out.isSome
  effect := path fun text d => { d with out := some text }

/-- Names the file that is read. -/
def state : CommandOption where
  long := "state"
  isGiven d := d.state.isSome
  effect := path fun text d => { d with state := some text }

/-- Has the file be JSON. -/
def json : CommandOption where
  long := "json"
  isGiven d := d.json
  effect := .flag fun d => { d with json := true }

end CommandOption

namespace Progress

/-- Whether an option waits for its value. -/
def isWaiting (p : Progress) : Bool :=
  p.pending.any fun o => o.text.isNone

/-- Takes a word as the value that an option waits for. -/
def answer (text : String) (p : Progress) : Progress :=
  { p with pending := p.pending.map fun o => { o with text := some text } }

/-- Checks the value that has not been checked yet. -/
def settle (p : Progress) : Except Usage ArgumentDraft :=
  match p.pending with
  | none => .ok p.draft
  | some ⟨_, _, none⟩ => .error .missingValue
  | some ⟨option, read, some text⟩ => option.give read text p.draft

/-- Takes an option, with the value that is attached to it. -/
def take (option : CommandOption) (attached : Option String) (p : Progress) :
    Except Usage Progress :=
  match option.effect, attached with
  | .value read, some text => do
    return ⟨← option.give read text (← p.settle), none⟩
  | .value read, none => do
    return ⟨← p.settle, some ⟨option, read, none⟩⟩
  | .flag put, none => do
    let draft ← p.settle
    if option.isGiven draft then throw .repeatedOption
    return ⟨put draft, none⟩
  | .stop usage, none => do
    let _ ← p.settle
    throw usage
  | _, some _ => .error .uncalledValue

/-- Takes a long option. -/
def takeLong (options : List CommandOption) (name : String) (attached : Option String)
    (p : Progress) : Except Usage Progress :=
  match options.find? fun option => option.long == name with
  | some option => p.take option attached
  | none => .error .unknownArgument

/-- The value that is attached to a short option. An equals sign in front is no part of it. -/
def attachedValue : List Char → Option String
  | [] => none
  | '=' :: cs => some (String.ofList cs)
  | cs => some (String.ofList cs)

/-- Takes short options. What follows one that takes a value is its value. -/
def takeShort (options : List CommandOption) : List Char → Progress → Except Usage Progress
  | [], p => .ok p
  | name :: names, p =>
    match options.find? fun option => option.short == some name with
    | none => .error .unknownArgument
    | some option =>
      match option.effect with
      | .value _ => p.take option (attachedValue names)
      | _ => p.take option none >>= takeShort options names

end Progress

/-- A command as it can be asked for. -/
structure CommandForm where
  /-- Its name. -/
  name : String
  /-- Its own options. -/
  options : List CommandOption := []
  /-- Whether it takes items. -/
  takesItems : Bool := false
  /-- The command that the arguments ask for, if they are complete. -/
  complete : ArgumentDraft → Except Usage Command

namespace CommandForm

/-- How many draws are printed if nothing is said. -/
def defaultCount : Nat := 10

/-- The bound of the draws if nothing is said. -/
def defaultBound : UInt32 := 0xFFFFFFFF

/-- A value that is required. -/
def required {α : Type} : Option α → Except Usage α
  | some a => .ok a
  | none => .error .missingOption

/-- All commands. -/
def all : List CommandForm :=
  [{ name := "seed"
     complete := fun _ => .ok .issue },
   { name := "draw"
     options := [.seed, .count, .max, .real]
     complete := fun d =>
       .ok (.draw d.seed (d.count.getD defaultCount) (d.bound.getD defaultBound) d.real) },
   { name := "shuffle"
     options := [.seed]
     takesItems := true
     complete := fun d => .ok (.shuffle d.seed d.items.reverse) },
   { name := "sample"
     options := [.seed, .choices]
     takesItems := true
     complete := fun d => return .sample d.seed (← required d.choices) d.items.reverse },
   { name := "checkpoint"
     options := [.seed, .skip, .out, .json]
     complete := fun d => return .checkpoint d.seed (d.skip.getD 0) (← required d.out) d.json },
   { name := "resume"
     options := [.state, .json, .count, .max]
     complete := fun d =>
       return .resume (← required d.state) d.json (d.count.getD defaultCount)
         (d.bound.getD defaultBound) }]

/-- The command with a name. -/
def ofName? (name : String) : Option CommandForm :=
  all.find? fun form => form.name == name

/-- The word that asks for help. -/
def helpWord : String := "help"

/-- Whether a word is the name of a command or asks for help. -/
def isName (word : String) : Bool :=
  word == helpWord || (ofName? word).isSome

/-- All options of a command. -/
def allOptions (form : CommandForm) : List CommandOption :=
  form.options ++ [.config, .verbose, .help]

/-- Takes a word as an item. -/
def takeItem (form : CommandForm) (text : String) (p : Progress) : Except Usage Progress :=
  if form.takesItems then do
    let draft ← p.settle
    return ⟨{ draft with items := text :: draft.items }, none⟩
  else .error .unknownArgument

/-- Takes words as items. -/
def takeItems (form : CommandForm) : List String → Progress → Except Usage Progress
  | [], p => .ok p
  | text :: texts, p => form.takeItem text p >>= form.takeItems texts

/-- Reads the arguments after a command's name. -/
def read (form : CommandForm) : List String → Progress → Except Usage ArgumentDraft
  | [], p => p.settle
  | text :: texts, p =>
    match Argument.ofString text with
    | .escape => do (← form.takeItems texts p).settle
    | .long name value => do form.read texts (← p.takeLong form.allOptions name value)
    | .short names => do form.read texts (← p.takeShort form.allOptions names)
    | .word text =>
      if p.isWaiting then form.read texts (p.answer text)
      else do form.read texts (← form.takeItem text p)

end CommandForm

namespace Invocation

/-- The options that may stand before a command's name. -/
def options : List CommandOption :=
  [.config, .verbose, .help, .version]

/-- What words after the word for help ask for. -/
def ofHelp : List String → Usage
  | [] => .help
  | [word] => if CommandForm.isName word then .help else .unknownCommand
  | _ => .unknownCommand

/-- Joins what was said before a command's name and after it. -/
def join (before after : ArgumentDraft) (command : Command) : Invocation where
  config := after.config <|> before.config
  verbose := before.verbose || after.verbose
  command := command

/-- Reads arguments up to the name of a command, and then those of the command. -/
def read : List String → Progress → Except Usage Invocation
  | [], p => do
    let draft ← p.settle
    throw (if draft.config.isSome || draft.verbose then .missingCommand else .nothing)
  | text :: texts, p =>
    match Argument.ofString text with
    | .escape =>
      match texts with
      | [] => read [] p
      | word :: _ =>
        .error (if CommandForm.isName word then .unknownArgument else .unknownCommand)
    | .long name value => do read texts (← p.takeLong options name value)
    | .short names => do read texts (← p.takeShort options names)
    | .word text =>
      if p.isWaiting then read texts (p.answer text)
      else if text = CommandForm.helpWord then .error (ofHelp texts)
      else match CommandForm.ofName? text with
        | none => .error .unknownCommand
        | some form => do
          let after ← form.read texts {}
          let command ← form.complete after
          return join (← p.settle) after command

/-- The invocation that arguments ask for. -/
def ofArguments (arguments : List String) : Except Usage Invocation :=
  read arguments {}

end Invocation

end Redraw
