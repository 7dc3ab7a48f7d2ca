import Redraw.Command.Run
import Redraw.Proofs.Generator.Storing

/-!
# Work apart from the provider

Once a command has its generator, it asks the provider for nothing more. What it comes to, its
result, its files, its lines and its reports, is the same whatever the provider is, and the provider
stays as it is.
-/

namespace Redraw

/-- Whether an event tells of a seed from a provider. -/
def Event.tellsSeed : Event → Bool
  | seedIssued .. => true
  | freshSeed _ => true
  | _ => false

/-- What work comes to, the provider apart. -/
structure Upshot (α : Type) where
  /-- Its value, or why it failed. -/
  result : Except Failure α
  /-- The files after it. -/
  files : FileStore
  /-- The lines printed until then. -/
  out : List String
  /-- What it reported. -/
  events : Journal

/-- The world after an upshot when the provider is the given one. -/
def Upshot.world {α : Type} (upshot : Upshot α) (provider : SeedProvider) : World :=
  ⟨upshot.files, provider, upshot.out⟩

namespace Running

variable {α β : Type}

/-- From files and lines, work comes to an upshot, and keeps the provider, whatever it is, and
reports of no seed from it. -/
structure EndsIn (work : Running α) (files : FileStore) (out : List String) (upshot : Upshot α) :
    Prop where
  /-- It comes to the upshot. -/
  run_eq : ∀ provider journal, (work.run.run ⟨files, provider, out⟩).run journal =
    ((upshot.result, upshot.world provider), journal ++ upshot.events)
  /-- No seed is reported. -/
  quiet : ∀ e ∈ upshot.events, e.tellsSeed = false

/-- Work that has nothing to do with the provider. -/
def Aloof (work : Running α) : Prop :=
  ∀ files out, ∃ upshot, work.EndsIn files out upshot

/-- Work on files that reports of no seed. -/
def FilesOnly (work : ExceptT Fault (StateT FileStore Logged) α) : Prop :=
  ∀ files, ∃ (result : Except Fault α) (files' : FileStore) (events : Journal),
    (∀ e ∈ events, e.tellsSeed = false) ∧
      ∀ journal, (work.run.run files).run journal = ((result, files'), journal ++ events)

theorem EndsIn.of_run_eq {work : Running α} {files files' : FileStore} {out out' : List String}
    {result : Except Failure α}
    (h : ∀ provider journal, (work.run.run ⟨files, provider, out⟩).run journal =
      ((result, ⟨files', provider, out'⟩), journal)) :
    work.EndsIn files out ⟨result, files', out', []⟩ where
  run_eq provider journal := by
    rw [h, List.append_nil]
    rfl
  quiet e he := absurd he List.not_mem_nil

theorem aloof_pure (a : α) : Aloof (pure a) :=
  fun _ _ => ⟨_, .of_run_eq fun _ _ => rfl⟩

theorem aloof_throw (failure : Failure) : Aloof (throw failure : Running α) :=
  fun _ _ => ⟨_, .of_run_eq fun _ _ => rfl⟩

theorem aloof_print (lines : List String) : Aloof (print lines) :=
  fun files out => ⟨⟨.ok (), files, out ++ lines, []⟩, .of_run_eq fun _ _ => rfl⟩

theorem aloof_orRefuse (context : Option String) (result : Except Fault α) :
    Aloof (orRefuse context result) := by
  cases result with
  | ok a => exact aloof_pure a
  | error fault => exact aloof_throw _

theorem aloof_report {e : Event} (h : e.tellsSeed = false) : Aloof (report e : Running Unit) :=
  fun files out => ⟨⟨.ok (), files, out, [e]⟩, fun _ _ => rfl, fun _ he =>
    List.mem_singleton.mp he ▸ h⟩

theorem Aloof.bind {work : Running α} {next : α → Running β} (h : Aloof work)
    (h' : ∀ a, Aloof (next a)) : Aloof (work >>= next) := by
  intro files out
  obtain ⟨⟨result, files', out', events⟩, hrun, hquiet⟩ := h files out
  cases result with
  | error failure =>
    exact ⟨⟨.error failure, files', out', events⟩,
      fun provider journal => Logged.run_bind_of_error _ (hrun provider journal), hquiet⟩
  | ok a =>
    obtain ⟨upshot, hrun', hquiet'⟩ := h' a files' out'
    refine ⟨{ upshot with events := events ++ upshot.events }, fun provider journal => ?_,
      fun e he => (List.mem_append.mp he).elim (hquiet e) (hquiet' e)⟩
    rw [Logged.run_bind (hrun provider journal), ← List.append_assoc]
    exact hrun' provider _

theorem FilesOnly.aloof {work : ExceptT Fault (StateT FileStore Logged) α} (h : FilesOnly work)
    (context : Option String) : Aloof (withFiles context work) := by
  intro files out
  obtain ⟨result, files', events, hquiet, hrun⟩ := h files
  obtain ⟨upshot, hend, hquiet'⟩ := aloof_orRefuse context result files' out
  refine ⟨{ upshot with events := events ++ upshot.events }, fun provider journal => ?_,
    fun e he => (List.mem_append.mp he).elim (hquiet e) (hquiet' e)⟩
  rw [withFiles, Logged.run_bind rfl, Logged.run_bind (Logged.run_lift (hrun journal) _),
    Logged.run_bind rfl, ← List.append_assoc]
  exact hend provider _

end Running

namespace Command

open Running

theorem aloof_printDraws (g : Generator) (count : Nat) (bound : UInt32) (real : Bool) :
    Aloof (printDraws g count bound real) := by
  unfold printDraws
  rcases (Generator.repeated (drawLine bound real) count).run.run g with ⟨fault | lines, after⟩
  · exact aloof_throw _
  · exact aloof_print lines

theorem filesOnly_saveFile (g : Generator) (path : String) : FilesOnly (g.saveFile path) := by
  intro files
  cases hwrite : files.write path (Snapshot.ofGenerator g).encode with
  | ok files' =>
    refine ⟨.ok (), files', [.stateSaved g.seed], fun e he => List.mem_singleton.mp he ▸ rfl, ?_⟩
    exact fun journal => Generator.saveFile_run hwrite journal
  | error fault =>
    refine ⟨.error (.io fault), files, [], fun e he => absurd he List.not_mem_nil,
      fun journal => ?_⟩
    rw [Generator.saveFile, Logged.run_bind rfl, hwrite, List.append_nil]
    rfl

theorem aloof_write (g : Generator) (path : String) (json : Bool) :
    Aloof (write g path json) := by
  cases json with
  | false => exact (filesOnly_saveFile g path).aloof _
  | true =>
    refine FilesOnly.aloof (fun files => ?_) _
    rw [if_pos rfl]
    cases hwrite : files.write path (Bytes.ofText g.toJson) with
    | ok files' =>
      refine ⟨.ok (), files', [], fun e he => absurd he List.not_mem_nil, fun journal => ?_⟩
      rw [Logged.run_bind rfl, hwrite, List.append_nil]
      rfl
    | error fault =>
      refine ⟨.error (.io fault), files, [], fun e he => absurd he List.not_mem_nil,
        fun journal => ?_⟩
      rw [Logged.run_bind rfl, hwrite, List.append_nil]
      rfl

end Command

end Redraw
