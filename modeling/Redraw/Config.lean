import Redraw.FileStore
import Redraw.Json.Record
import Redraw.Json.Writer
import Redraw.Numeral
import Redraw.SeedProvider.Basic

/-!
# Configurations

A configuration may fix the seed. Its JSON form is a record with that one field, which may be
missing; no other field may be there. A generator that is built without a fixed seed gets one from
a provider.
-/

namespace Redraw

/-- What a generator is built from. -/
structure Config where
  /-- The seed, if it is fixed. -/
  seed : Option UInt64 := none
  deriving DecidableEq, Repr

namespace Config

/-- The configuration that fixes a seed. -/
def ofSeed (seed : UInt64) : Config :=
  ⟨some seed⟩

/-- The JSON form of a configuration. -/
def json (c : Config) : List Char :=
  let seed := match c.seed with
    | none => ['n', 'u', 'l', 'l']
    | some word => Numeral.digits word.toNat
  Json.object [Json.member "seed" seed]

/-- The JSON text of a configuration. -/
def toJson (c : Config) : String :=
  String.ofList c.json

/-- How a configuration is read from JSON text. The draft says whether the seed has been read, and
what was read. -/
def layout : Json.Layout (Option (Option UInt64)) Config where
  title := "RandomConfig"
  fields :=
    [{ name := "seed"
       isFilled := Option.isSome
       fill := Json.Reader.word.optional.map fun seed _ => some seed }]
  closed := true
  blank := none
  complete := fun _ seed => .ok ⟨seed.join⟩

/-- The configuration that a JSON text stands for, with the file that the text is from, if it is
from one. -/
def ofJson? (text : String) (file : Option String := none) : Except Fault Config :=
  (layout.reader.whole text).mapError (.config file)

/-- The configuration in a file. -/
def load (store : FileStore) (path : String) : Except Fault Config :=
  match store.readText path with
  | .ok text => ofJson? text (some path)
  | .error fault => .error (.io fault)

/-- A generator from the fixed seed, or else from the next seed of a provider. -/
def build (c : Config) : StateT SeedProvider Logged Generator := do
  match c.seed with
  | some seed => return .ofSeed seed
  | none =>
    let g ← Generator.ofProvider
    report (.freshSeed g.seed)
    return g

end Config

end Redraw
