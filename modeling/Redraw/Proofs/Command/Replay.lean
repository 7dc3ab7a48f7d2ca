import Redraw.Proofs.Command.Aloofness

/-!
# Runs without a seed can be repeated

A command that makes a generator takes its seed from the command line, or else from the
configuration, or else from the provider. Only in the last case is the provider asked, once, and the
seed that it gives is reported: given that seed, the command does the same again.
-/

namespace Redraw

open Running

/-- A command that makes a generator, the seed apart. -/
inductive Task where
  /-- Print integers below a bound, or reals. -/
  | draw (count : Nat) (bound : UInt32) (real : Bool)
  /-- Print items in random order. -/
  | shuffle (items : List String)
  /-- Print a random selection of items. -/
  | sample (choices : Nat) (items : List String)
  /-- Write the state of a generator to a file after some draws. -/
  | checkpoint (skip : Nat) (path : String) (json : Bool)
  deriving DecidableEq, Repr

namespace Task

/-- The command for a task, from a seed if one is given. -/
def command (seed : Option UInt64) : Task → Command
  | draw count bound real => .draw seed count bound real
  | shuffle items => .shuffle seed items
  | sample choices items => .sample seed choices items
  | checkpoint skip path json => .checkpoint seed skip path json

/-- What is done for a task with a generator. -/
def perform (g : Generator) : Task → Running Unit
  | draw count bound real => Command.printDraws g count bound real
  | shuffle items => print [Command.itemLine (g.shuffle items).1]
  | sample choices items => do
    let picked ← orRefuse none <| (g.sample items choices).1.mapError .shortage
    print [Command.itemLine picked]
  | checkpoint skip path json => do
    Command.write (g.skip skip) path json
    report (.checkpointWritten (g.skip skip).seed skip path)
    print [path]

/-- A generator is made, and everything else is done with it. -/
theorem run_command (task : Task) (seed : Option UInt64) (config : Config) :
    (task.command seed).run config = Command.generator seed config >>= (perform · task) := by
  cases task <;> rfl

theorem aloof_perform (task : Task) (g : Generator) : Aloof (task.perform g) := by
  cases task with
  | draw count bound real => exact Command.aloof_printDraws g count bound real
  | shuffle items => exact aloof_print _
  | sample choices items => exact (aloof_orRefuse _ _).bind fun picked => aloof_print _
  | checkpoint skip path json =>
    exact (Command.aloof_write _ path json).bind fun _ =>
      (aloof_report rfl).bind fun _ => aloof_print [path]

end Task

namespace SeedProvider

/-- A provider issues a seed and reports it. -/
theorem exists_next_run (p : SeedProvider) : ∃ seed source after, ∀ journal,
    (next.run p).run journal = ((seed, after), journal ++ [.seedIssued seed source]) := by
  obtain ⟨seeder, calls, fallback, entropy⟩ := p
  cases seeder with
  | none => exact ⟨_, .fallback, _, fun journal => rfl⟩
  | some seeder => exact ⟨_, .bound, _, fun journal => rfl⟩

end SeedProvider

/-- The report of a fresh seed carries the seed that the provider issued. -/
theorem Event.text_freshSeed (seed : UInt32) : (freshSeed seed.toUInt64).text =
    "INFO no seed configured, using fresh seed seed=" ++ Numeral.text seed.toNat := by
  have hseed : toString seed.toUInt64 = Numeral.text seed.toNat := by
    change seed.toUInt64.toNat.repr = _
    rw [UInt32.toNat_toUInt64]
    rfl
  change "INFO" ++ " " ++ ("no seed configured, using fresh seed seed=" ++
    toString seed.toUInt64) = _
  rw [hseed, ← String.append_assoc]
  rfl

namespace Command

variable {files : FileStore} {provider after : SeedProvider} {out : List String}
  {seed : UInt32} {source : SeedSource} {journal : Journal}

theorem generator_some (seed : UInt64) (config : Config) :
    generator (some seed) config = pure (.ofSeed seed) := rfl

theorem generator_none_ofSeed (seed : UInt64) :
    generator none (.ofSeed seed) = pure (.ofSeed seed) := rfl

/-- With no seed anywhere, the generator is made from the seed that the provider issues next. -/
theorem generator_none_run (hnext : (SeedProvider.next.run provider).run journal =
      ((seed, after), journal ++ [.seedIssued seed source])) :
    ((generator none {}).run.run ⟨files, provider, out⟩).run journal =
      ((.ok (.ofSeed seed.toUInt64), ⟨files, after, out⟩),
        journal ++ [.seedIssued seed source] ++ [.freshSeed seed.toUInt64]) := by
  have hbuild : ((({} : Config).build).run provider).run journal =
      ((.ofSeed seed.toUInt64, after),
        journal ++ [.seedIssued seed source] ++ [.freshSeed seed.toUInt64]) := by
    simp only [Config.build, Generator.ofProvider, StateT.run_bind, hnext, bind_assoc]
    rfl
  rw [generator, withProvider, Logged.run_bind rfl, Logged.run_bind (Logged.run_lift hbuild _)]
  rfl

end Command

namespace Task

/-- A task does the same from a seed on the command line, whatever the configuration, and from one
in the configuration; what it does hangs on the seed alone, and the provider is not asked. When
there is no seed the provider is asked once: the seed that it issues is reported, and the task does
what it does from that seed. -/
theorem unseeded_run_replayed (task : Task) (files : FileStore) (out : List String) :
    ∃ upshot : UInt64 → Upshot Unit,
      (∀ seed config, EndsIn ((task.command (some seed)).run config) files out (upshot seed)) ∧
      (∀ seed, EndsIn ((task.command none).run (.ofSeed seed)) files out (upshot seed)) ∧
      ∀ provider, ∃ seed source after,
        (Event.freshSeed seed.toUInt64).text =
          "INFO no seed configured, using fresh seed seed=" ++ Numeral.text seed.toNat ∧
        ∀ journal,
          (SeedProvider.next.run provider).run journal =
            ((seed, after), journal ++ [.seedIssued seed source]) ∧
          (((task.command none).run {}).run.run ⟨files, provider, out⟩).run journal =
            (((upshot seed.toUInt64).result, (upshot seed.toUInt64).world after),
              journal ++ [.seedIssued seed source] ++ [.freshSeed seed.toUInt64] ++
                (upshot seed.toUInt64).events) := by
  obtain ⟨upshot, hupshot⟩ :=
    Classical.skolem.mp fun seed => task.aloof_perform (.ofSeed seed) files out
  refine ⟨upshot, fun seed config => ?_, fun seed => ?_, fun provider => ?_⟩
  · rw [run_command, Command.generator_some, pure_bind]
    exact hupshot seed
  · rw [run_command, Command.generator_none_ofSeed, pure_bind]
    exact hupshot seed
  · obtain ⟨seed, source, after, hnext⟩ := provider.exists_next_run
    refine ⟨seed, source, after, Event.text_freshSeed seed, fun journal => ⟨hnext journal, ?_⟩⟩
    rw [run_command, Logged.run_bind (Command.generator_none_run (hnext journal))]
    exact (hupshot seed.toUInt64).run_eq after _

end Task

end Redraw
