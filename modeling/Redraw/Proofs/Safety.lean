import Mathlib
import Redraw.Proofs.Command.Safety
import Redraw.Proofs.Dynamic.Lookups
import Redraw.Proofs.Dynamic.Safety

/-!
# No input breaks the program off

Commands that are read from arguments, and calls with any arguments, come to a result or are
refused. Below them every draw is made from words and an index that fit together, even when they
were read from a file: a draw that looks up each position and checks each modulus never has to give
up.
-/

namespace Redraw

/-- The program does not break off, whatever it is given. A command whose draws are not below zero
prints and writes or is refused something, under any configuration and with any files, and arguments
that are accepted are those of such a command. Callers who make generators and call their methods
with any arguments get an answer or a refusal from every call. And all draws that are made on the
way find every position they look up and divide by nothing that is zero, from any generator, as from
one whose words and index were read from a file. -/
theorem no_input_breaks_off :
    (∀ command : Command, command.Bounded → ∀ config,
      FailsOnly Failure.IsRefusal (command.run config)) ∧
    (∀ arguments invocation, Invocation.ofArguments arguments = .ok invocation →
      invocation.command.Bounded ∧ FailsOnly Failure.IsRefusal invocation.run ∧
        ∀ config, FailsOnly Failure.IsRefusal (invocation.command.run config)) ∧
    (∀ (α : Type) (steps : List Dynamic.Step) (session : Dynamic.Session α) (journal : Journal),
      let answers := (((Dynamic.Session.run steps).run session).run journal).1.1
      answers.length = steps.length ∧ ∀ answer ∈ answers, Dynamic.IsAnswer answer) ∧
    (∀ s g, Snapshot.toGenerator? s = .ok g → g.tape = ⟨s.words.toArray, s.index.toNat⟩) ∧
    (∀ g : Generator, g.tape.words.size = 312 ∧ g.tape.index ≤ 312) ∧
    (Checked.raw.Realizes Generator.raw ∧ Checked.real.Realizes Generator.real ∧
      (Checked.below Generator.widest).Realizes Generator.next32 ∧
      (∀ n (g : Generator), (Checked.skip n).run g.tape = some ((), (g.skip n).tape)) ∧
      ∀ bound, bound ≠ 0 → (Checked.below bound).Fulfils (Generator.below bound) ∧
        ∀ real count, (Generator.repeated (Checked.drawLine bound real) count).Fulfils
          (Generator.repeated (Command.drawLine bound real) count)) ∧
    ∀ (α : Type) (items : List α),
      (Checked.shuffle items).Realizes (Generator.shuffle items) ∧
      (∀ n, (Checked.sample items n).Realizes (Generator.sample items n)) ∧
      ∀ (g : Generator) journal,
        (∃ order after, ((Dynamic.shuffle (.list items)).run.run g).run journal =
            ((.ok order, after), journal) ∧
          (Checked.shuffleList items).run g.tape = some (order, after.tape)) ∧
        ∀ n : UInt64, ∃ result after,
          ((Dynamic.sample (.list items) (.integer n.toNat)).run.run g).run journal =
            ((result.mapError (.refused ∘ .shortage), after), journal) ∧
          (Checked.sampleList items n.toNat).run g.tape = some (result, after.tape) := by
  refine ⟨fun _ hbounded => hbounded.failsOnly_run, fun arguments invocation hread => ?_,
    fun α steps session journal => Dynamic.Session.isAnswer_run steps session journal,
    fun s g => Snapshot.tape_eq,
    Generator.tape_fits, ⟨Checked.realizes_raw, Checked.realizes_real, Checked.realizes_next32,
      Checked.skip_run, fun bound hbound => ⟨Checked.fulfils_below hbound, fun real count =>
        (Checked.fulfils_drawLine hbound real).repeated count⟩⟩,
    fun α items => ⟨Checked.realizes_shuffle items, Checked.realizes_sample items,
      fun g journal => ⟨?_, fun n => ?_⟩⟩⟩
  · have hbounded := Invocation.bounded_ofArguments hread
    exact ⟨hbounded, Invocation.failsOnly_run hbounded, hbounded.failsOnly_run⟩
  · exact ⟨_, _, Dynamic.shuffle_run items g journal, Checked.realizes_shuffleList items g⟩
  · exact ⟨_, _, Dynamic.sample_run items n g journal, Checked.realizes_sampleList items n.toNat g⟩

/-- Six is accepted as a bound, and a file may hold a generator that has no word left to give
out. -/
theorem no_input_breaks_off_six :
    Invocation.ofArguments ["draw", "--max", "6"] =
      .ok ⟨none, false, .draw none 10 6 false⟩ ∧
    (Command.draw none 10 6 false).Bounded ∧
    FailsOnly Failure.IsRefusal (Command.run {} (.draw none 10 6 false)) ∧
    ∃ g, Snapshot.toGenerator? ⟨7, 312, List.replicate 312 1⟩ = .ok g ∧
      g.tape = ⟨(List.replicate 312 1).toArray, 312⟩ ∧
      ∃ value after, (Generator.below 6).run.run g = (.ok value, after) ∧
        (Checked.below 6).run g.tape = some (value, after.tape) := by
  obtain ⟨hcommand, harguments, _, hread, _, ⟨_, _, _, _, hdraws⟩, _⟩ := no_input_breaks_off
  have haccepted : Invocation.ofArguments ["draw", "--max", "6"] =
      .ok ⟨none, false, .draw none 10 6 false⟩ := by cbv
  have hwords : ∃ word ∈ List.replicate 312 (1 : UInt64), word ≠ 0 :=
    ⟨1, List.mem_replicate.mpr ⟨by decide, rfl⟩, by decide⟩
  obtain ⟨g, hg⟩ := (Snapshot.exists_toGenerator?_eq_ok_iff
    (s := ⟨7, 312, List.replicate 312 1⟩) List.length_replicate).mpr ⟨Nat.le_refl 312, hwords⟩
  have hbounded := (harguments _ _ haccepted).1
  exact ⟨haccepted, hbounded, hcommand _ hbounded {}, g, hg, hread _ g hg,
    (hdraws 6 (by decide)).1 g⟩

end Redraw
