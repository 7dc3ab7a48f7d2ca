import Redraw.Command.Program
import Redraw.Proofs.Command.Accepted
import Redraw.Proofs.Failing
import Redraw.Proofs.Generator.Lookups

/-!
# Commands do not break off

A command whose draws are not below zero fails only by refusing something. Its lines are made of
draws that look every position up, and no such draw breaks off.
-/

namespace Redraw

/-- The line that a draw prints, made of draws with lookups. -/
def Checked.drawLine (bound : UInt32) (real : Bool) : Checked String := do
  if real then return Decimal.plain (← Checked.real)
  else return Numeral.text (← Checked.below bound).toNat

theorem Checked.fulfils_drawLine {bound : UInt32} (h : bound ≠ 0) (real : Bool) :
    (Checked.drawLine bound real).Fulfils (Command.drawLine bound real) := by
  cases real with
  | true => exact Checked.realizes_real.fulfils.bind fun _ => Checked.fulfils_pure _
  | false => exact (Checked.fulfils_below h).bind fun _ => Checked.fulfils_pure _

/-- Something was refused, and no draw broke off. -/
def Failure.IsRefusal (failure : Failure) : Prop :=
  ∃ context fault, failure = .refused context fault

namespace Running

variable {α : Type}

theorem failsOnly_print (lines : List String) : FailsOnly Failure.IsRefusal (print lines) :=
  .modifyGet _

theorem failsOnly_orRefuse (context : Option String) (result : Except Fault α) :
    FailsOnly Failure.IsRefusal (orRefuse context result) := by
  cases result with
  | ok a => exact .pure a
  | error fault => exact .throw ⟨context, fault, rfl⟩

theorem failsOnly_report (e : Event) : FailsOnly Failure.IsRefusal (report e : Running Unit) :=
  .lift _

theorem failsOnly_withProvider (ask : StateT SeedProvider Logged α) :
    FailsOnly Failure.IsRefusal (withProvider ask) :=
  .bind (.modifyGet _) fun _ => .bind (.lift _) fun _ => .bind (.modifyGet _) fun _ => .pure _

theorem failsOnly_withFiles (context : Option String)
    (work : ExceptT Fault (StateT FileStore Logged) α) :
    FailsOnly Failure.IsRefusal (withFiles context work) :=
  .bind (.modifyGet _) fun _ => .bind (.lift _) fun _ => .bind (.modifyGet _) fun _ =>
    failsOnly_orRefuse _ _

end Running

namespace Command

open Running

theorem failsOnly_generator (seed : Option UInt64) (config : Config) :
    FailsOnly Failure.IsRefusal (generator seed config) := by
  cases seed with
  | none => exact failsOnly_withProvider _
  | some seed => exact .pure _

theorem failsOnly_printDraws (g : Generator) (count : Nat) {bound : UInt32} (h : bound ≠ 0)
    (real : Bool) : FailsOnly Failure.IsRefusal (printDraws g count bound real) := by
  obtain ⟨lines, after, hlines, _⟩ := (Checked.fulfils_drawLine h real).repeated count g
  rw [printDraws, hlines]
  exact failsOnly_print lines

theorem failsOnly_readJson (path : String) : FailsOnly Failure.IsRefusal (readJson path) :=
  .bind (.modifyGet _) fun _ => (failsOnly_orRefuse _ _).bind fun _ => failsOnly_orRefuse _ _

theorem failsOnly_readText (path : String) : FailsOnly Failure.IsRefusal (readText path) :=
  .bind (.modifyGet _) fun _ => .bind (.lift _) fun (_, g) =>
    (failsOnly_orRefuse _ _).bind fun _ => .pure g

/-- A command fails only by refusing something when its draws are not below zero. -/
theorem Bounded.failsOnly_run {command : Command} (h : command.Bounded) (config : Config) :
    FailsOnly Failure.IsRefusal (command.run config) := by
  cases command with
  | issue => exact (failsOnly_withProvider _).bind fun _ => failsOnly_print _
  | draw seed count bound real =>
    exact (failsOnly_generator seed config).bind fun g => failsOnly_printDraws g count h real
  | shuffle seed items =>
    exact (failsOnly_generator seed config).bind fun _ => failsOnly_print _
  | sample seed choices items =>
    exact (failsOnly_generator seed config).bind fun _ =>
      (failsOnly_orRefuse _ _).bind fun _ => failsOnly_print _
  | checkpoint seed skip path json =>
    exact (failsOnly_generator seed config).bind fun _ => (failsOnly_withFiles _ _).bind fun _ =>
      (failsOnly_report _).bind fun _ => failsOnly_print _
  | resume path json count bound =>
    have hprint (g : Generator) := (failsOnly_report (.checkpointResumed g.seed path)).bind
      fun _ => failsOnly_printDraws g count h false
    cases json with
    | true => exact (failsOnly_readJson path).bind hprint
    | false => exact (failsOnly_readText path).bind hprint

end Command

namespace Invocation

theorem failsOnly_run {invocation : Invocation} (h : invocation.command.Bounded) :
    FailsOnly Failure.IsRefusal invocation.run := by
  have hrun : FailsOnly Failure.IsRefusal (do
      let config ← Running.orRefuse none (invocation.loadConfig (← get).files)
      invocation.command.run config) :=
    .bind (.modifyGet _) fun _ => (Running.failsOnly_orRefuse _ _).bind h.failsOnly_run
  unfold run
  split
  · exact (Running.failsOnly_report _).bind fun _ => hrun
  · exact hrun

end Invocation

end Redraw
