import Mathlib
import Redraw.Command.Run
import Redraw.Proofs.Checkpoint.RoundTrip
import Redraw.Proofs.FileStore
import Redraw.Proofs.Generator.Cost
import Redraw.Proofs.Generator.Loading
import Redraw.Proofs.Twister.Seeding

/-!
# Resuming is never having stopped

A command that prints integers draws one raw word for each of its lines, whatever the bound. So the
lines printed from a generator after some draws are the last lines of a longer run. A checkpoint
writes that generator to a file, in its text form or in JSON, and both forms are read back as the
same generator: printing the rest is the same, whether or not the run was interrupted.
-/

namespace Redraw

namespace Generator

/-- A generator that was made from a seed is never left with zeros alone. -/
theorem not_all_zero_skip_ofSeed (seed : UInt64) (n : Nat) :
    ¬ ((ofSeed seed).skip n).twister.words.all (· = 0) = true := by
  rw [Twister.all_words_eq_zero_iff]
  intro hzero
  have hidle := ((Twister.ofSeed seed).idle_skip_iff n).mp (Block.idle_of_eq_zero hzero)
  exact Block.not_idle_ofSeed seed hidle

/-- What is written to a file for a generator, in JSON or in its text form. -/
def stored (g : Generator) (json : Bool) : Bytes :=
  if json then Bytes.ofText g.toJson else (Snapshot.ofGenerator g).encode

theorem stored_true (g : Generator) : g.stored true = Bytes.ofText g.toJson := rfl

theorem stored_false (g : Generator) : g.stored false = (Snapshot.ofGenerator g).encode := rfl

end Generator

namespace Running

variable {α : Type} {world : World} {journal journal' : Journal}

theorem withFiles_run {work : ExceptT Fault (StateT FileStore Logged) α} {value : α}
    {files : FileStore} (context : Option String)
    (h : (work.run.run world.files).run journal = ((.ok value, files), journal')) :
    ((withFiles context work).run.run world).run journal =
      ((.ok value, { world with files := files }), journal') := by
  rw [withFiles, Logged.run_bind rfl, Logged.run_bind (Logged.run_lift h world),
    Logged.run_bind rfl]
  rfl

end Running

namespace Command

/-- The command prints the lines, leaves the files so, and succeeds. -/
def Prints (command : Command) (config : Config) (world : World) (lines : List String)
    (files : FileStore) : Prop :=
  ∀ journal, ∃ journal', ((command.run config).run.run world).run journal =
    ((.ok (), { world with files := files, out := world.out ++ lines }), journal')

/-- The line that the next draw prints. -/
def nextLine (bound : UInt32) (g : Generator) : String :=
  Numeral.text (g.twister.next.1 % bound.toUInt64).toUInt32.toNat

theorem drawLine_run {bound : UInt32} (h : bound ≠ 0) (g : Generator) :
    (drawLine bound false).run.run g = (.ok (nextLine bound g), g.skip 1) := by
  have hbelow := Generator.below_run bound g
  rw [if_neg h] at hbelow
  have hline : drawLine bound false =
      Generator.below bound >>= fun value => pure (Numeral.text value.toNat) := rfl
  rw [hline, Draw.run_bind hbelow]
  rfl

theorem printDraws_run {bound : UInt32} (h : bound ≠ 0) (g : Generator) (count : Nat)
    (world : World) (journal : Journal) :
    ((printDraws g count bound false).run.run world).run journal =
      ((.ok (), { world with
        out := world.out ++ (List.range count).map fun i => nextLine bound (g.skip i) }),
          journal) := by
  rw [printDraws, Generator.repeated_run (drawLine_run h)]
  rfl

theorem write_run {g : Generator} {path : String} {json : Bool} {world : World} {files : FileStore}
    (h : world.files.write path (g.stored json) = .ok files) (journal : Journal) :
    ∃ journal', ((write g path json).run.run world).run journal =
      ((.ok (), { world with files := files }), journal') := by
  cases json with
  | true =>
    rw [Generator.stored_true] at h
    refine ⟨journal, Running.withFiles_run _ ?_⟩
    rw [if_pos rfl, Logged.run_bind rfl, h]
    rfl
  | false =>
    rw [Generator.stored_false] at h
    refine ⟨journal ++ [.stateSaved g.seed], Running.withFiles_run _ ?_⟩
    rw [if_neg (by decide)]
    exact Generator.saveFile_run h journal

theorem readJson_run {g : Generator} (hzero : ¬ g.twister.words.all (· = 0) = true) {path : String}
    {world : World} (h : world.files.read path = .ok (Bytes.ofText g.toJson)) (journal : Journal) :
    ((readJson path).run.run world).run journal = ((.ok g, world), journal) := by
  have htext : world.files.readText path = .ok g.toJson := by
    simp only [FileStore.readText, h, Bytes.text?_ofText]
  have hread := (Generator.ofJson?_toJson_iff g).mpr hzero
  rw [readJson, Logged.run_bind rfl, htext, Logged.run_bind rfl, hread]
  rfl

theorem readText_run {g : Generator} (hzero : ¬ g.twister.words.all (· = 0) = true) {path : String}
    {world : World} (h : world.files.read path = .ok (Snapshot.ofGenerator g).encode)
    (journal : Journal) :
    ((readText path).run.run world).run journal =
      ((.ok g, world), journal ++ [.stateLoaded g.seed]) := by
  obtain ⟨hrest, _⟩ := Input.rest_buffered (by decide : Generator.fileBuffer ≠ 0)
    (Snapshot.ofGenerator g).encode .closed
  obtain ⟨left, hload, _⟩ := Generator.loads_encode hzero (.ofSeed 0) _ [] journal
    (hrest.trans (List.append_nil _).symm)
  have hloaded := Generator.loadFile_run h hload
  rw [readText, Logged.run_bind rfl]
  exact (Logged.run_bind (Logged.run_lift hloaded world)).trans rfl

/-- What is stored for a generator is read back as that generator. -/
theorem read_run {g : Generator} (hzero : ¬ g.twister.words.all (· = 0) = true) {path : String}
    {json : Bool} {world : World} (h : world.files.read path = .ok (g.stored json))
    (journal : Journal) :
    ∃ journal', ((if json then readJson path else readText path).run.run world).run journal =
      ((.ok g, world), journal') := by
  cases json with
  | true => exact ⟨journal, readJson_run hzero (Generator.stored_true g ▸ h) journal⟩
  | false => exact ⟨_, readText_run hzero (Generator.stored_false g ▸ h) journal⟩

theorem run_resume (config : Config) (path : String) (json : Bool) (count : Nat) (bound : UInt32) :
    run config (resume path json count bound) =
      ((if json then readJson path else readText path) >>= fun g => do
        report (.checkpointResumed g.seed path)
        printDraws g count bound false) := by
  cases json <;> rfl

/-- Resuming prints what a run that was never interrupted would have printed from there on. The
checkpoint is of the generator after so many draws below the greatest bound; it replaces what the
file held before, and as long as the file stays as it is, it makes no difference when it is read,
under which configuration, or in which of the two forms it was written. -/
theorem resume_prints_drop {bound : UInt32} (hbound : bound ≠ 0) (seed : UInt64) (skip count : Nat)
    (path : String) (json : Bool) :
    ∃ lines : List String, lines.length = skip + count ∧
      (∀ config world,
        (draw (some seed) (skip + count) bound false).Prints config world lines world.files) ∧
      ∀ config world, world.files.Writable path → ∃ files,
        world.files.write path
          (((Generator.repeated Generator.next32 skip).run (.ofSeed seed)).2.stored json) =
            .ok files ∧
        (checkpoint (some seed) skip path json).Prints config world [path] files ∧
        ∀ config' later, later.files.read path = files.read path →
          (resume path json count bound).Prints config' later (lines.drop skip) later.files := by
  let fresh := Generator.ofSeed seed
  let line i := nextLine bound (fresh.skip i)
  have hdrop : ((List.range (skip + count)).map line).drop skip =
      (List.range count).map fun i => nextLine bound ((fresh.skip skip).skip i) := by
    have hlength : ((List.range skip).map line).length = skip := by simp
    rw [List.range_add, List.map_append, List.drop_left' hlength, List.map_map]
    refine List.map_congr_left fun i _ => ?_
    simp only [line, Function.comp_apply, Generator.skip_add]
  refine ⟨(List.range (skip + count)).map line, by simp, fun config world journal => ⟨journal, ?_⟩,
    fun config world hwritable => ?_⟩
  · exact printDraws_run hbound _ _ world journal
  · rw [Generator.costs_repeated_next32 skip fresh, hdrop]
    obtain ⟨files, hwrite⟩ := hwritable.exists_write ((fresh.skip skip).stored json)
    refine ⟨files, hwrite, fun journal => ?_, fun config' later hfile journal => ?_⟩
    · obtain ⟨journal', hrun⟩ := write_run hwrite journal
      exact ⟨journal' ++ [.checkpointWritten seed skip path], Logged.run_bind hrun⟩
    · rw [FileStore.read_of_write hwrite] at hfile
      have hzero := Generator.not_all_zero_skip_ofSeed seed skip
      obtain ⟨journal', hrun⟩ := read_run hzero hfile journal
      refine ⟨journal' ++ [.checkpointResumed seed path], ?_⟩
      rw [run_resume]
      exact (Logged.run_bind hrun).trans (printDraws_run hbound _ count later _)

/-- The file that a checkpoint goes to may hold something else before, and a seed that a
configuration fixes makes no difference to what was asked for with a seed. -/
theorem resume_prints_drop_overwritten :
    (1000000 : UInt32) ≠ 0 ∧ FileStore.Writable ⟨[(["s"], .file [114])]⟩ "s" ∧
    ∃ (lines : List String) (files : FileStore), lines.length = 3 + 5 ∧
      (draw (some 42) (3 + 5) 1000000 false).Prints (.ofSeed 7)
        { provider := .unbound 1 } lines {} ∧
      (checkpoint (some 42) 3 "s" true).Prints (.ofSeed 7)
        { files := ⟨[(["s"], .file [114])]⟩, provider := .unbound 1 } ["s"] files ∧
      (resume "s" true 5 1000000).Prints {}
        { files := files, provider := .unbound 2 } (lines.drop 3) files := by
  have hbound : (1000000 : UInt32) ≠ 0 := by decide
  have hwritable : FileStore.Writable ⟨[(["s"], .file [114])]⟩ "s" := ⟨["s"], by cbv⟩
  obtain ⟨lines, hlength, hdraw, hcheckpoint⟩ := resume_prints_drop hbound 42 3 5 "s" true
  obtain ⟨files, _, hwritten, hresume⟩ := hcheckpoint (.ofSeed 7)
    { files := ⟨[(["s"], .file [114])]⟩, provider := .unbound 1 } hwritable
  exact ⟨hbound, hwritable, lines, files, hlength, hdraw _ _, hwritten, hresume _ _ rfl⟩

end Command

end Redraw
