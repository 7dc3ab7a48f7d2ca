/-!
# Commands

What can be asked for on the command line, with every choice made.
-/

namespace Redraw

/-- One thing to do. -/
inductive Command where
  /-- Print a seed from the provider. -/
  | issue
  /-- Print integers below a bound, or reals. -/
  | draw (seed : Option UInt64) (count : Nat) (bound : UInt32) (real : Bool)
  /-- Print items in random order. -/
  | shuffle (seed : Option UInt64) (items : List String)
  /-- Print a random selection of items. -/
  | sample (seed : Option UInt64) (choices : Nat) (items : List String)
  /-- Write the state of a generator to a file after some draws, in JSON or in its text form. -/
  | checkpoint (seed : Option UInt64) (skip : Nat) (path : String) (json : Bool)
  /-- Read the state of a generator from a file and print integers below a bound. -/
  | resume (path : String) (json : Bool) (count : Nat) (bound : UInt32)
  deriving DecidableEq, Repr

/-- A command with what holds for any command. -/
structure Invocation where
  /-- The configuration file, if one is named. -/
  config : Option String
  /-- Whether details are reported. -/
  verbose : Bool
  /-- The command. -/
  command : Command
  deriving DecidableEq, Repr

/-- Why there is nothing to do. -/
inductive Usage where
  /-- An option has no value, or an empty path. -/
  | missingValue
  /-- An option's value is not of its type or not in its range. -/
  | badValue
  /-- An option that takes no value has one. -/
  | uncalledValue
  /-- An argument is none of those that can be there. -/
  | unknownArgument
  /-- A word is no command. -/
  | unknownCommand
  /-- An option is there twice. -/
  | repeatedOption
  /-- A required option is not there. -/
  | missingOption
  /-- There are options but no command. -/
  | missingCommand
  /-- There are no arguments. -/
  | nothing
  /-- Help is asked for. -/
  | help
  /-- The version is asked for. -/
  | version
  deriving DecidableEq, Repr

end Redraw
