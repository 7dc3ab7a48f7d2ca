import Redraw.Generator.Stream
import Redraw.Proofs.Stream.Embedding
import Redraw.Proofs.Twister.Restore

/-!
# Generators stored and loaded

A generator is saved as the text form of its snapshot. Whatever generator is replaced by loading
that text, and whatever follows the text, the outcome hangs on one thing: whether the words of the
saved generator are all zero. If they are, the text is refused and nothing is replaced.
-/

namespace Redraw

/-- A computation that reports on the way and succeeds hands its value, its state and the journal
on. -/
theorem Logged.run_bind {ε σ α β : Type} {work : ExceptT ε (StateT σ Logged) α}
    {next : α → ExceptT ε (StateT σ Logged) β} {value : α} {s after : σ}
    {journal journal' : Journal}
    (h : (work.run.run s).run journal = ((.ok value, after), journal')) :
    ((work >>= next).run.run s).run journal = ((next value).run.run after).run journal' := by
  rw [ExceptT.run_bind, StateT.run_bind, StateT.run_bind, h]
  rfl

/-- A computation that fails is the end of what was to come after it. -/
theorem Logged.run_bind_of_error {ε σ α β : Type} {work : ExceptT ε (StateT σ Logged) α}
    (next : α → ExceptT ε (StateT σ Logged) β) {fault : ε} {s after : σ}
    {journal journal' : Journal}
    (h : (work.run.run s).run journal = ((.error fault, after), journal')) :
    ((work >>= next).run.run s).run journal = ((.error fault, after), journal') := by
  rw [ExceptT.run_bind, StateT.run_bind, StateT.run_bind, h]
  rfl

/-- A computation that only reports leaves the state as it is. -/
theorem Logged.run_lift {ε σ α : Type} {work : Logged α} {value : α} {journal journal' : Journal}
    (h : work.run journal = (value, journal')) (s : σ) :
    ((liftM work : ExceptT ε (StateT σ Logged) α).run.run s).run journal =
      ((.ok value, s), journal') := by
  change ((Except.ok (work.run journal).1, s), (work.run journal).2) = _
  rw [h]

/-- Faults that are told otherwise are faults still. -/
theorem mapError_eq_ok_iff {ε ε' α : Type} {tell : ε → ε'} {result : Except ε α} {value : α} :
    result.mapError tell = .ok value ↔ result = .ok value := by
  cases result with
  | ok _ => exact ⟨fun h => by cases h; rfl, fun h => by cases h; rfl⟩
  | error _ => exact iff_of_false (fun h => nomatch h) fun h => nomatch h

theorem Snapshot.length_words_ofGenerator (g : Generator) :
    (Snapshot.ofGenerator g).words.length = blockSize :=
  g.twister.length_words

/-- The snapshot of a generator is that of this generator, unless its words are all zero. -/
theorem Snapshot.toGenerator?_ofGenerator (g : Generator) :
    (Snapshot.ofGenerator g).toGenerator? =
      if g.twister.words.all (· = 0) then .error .allZero else .ok g := by
  have hindex : g.twister.index.toUInt64.toNat = g.twister.index := by
    have hle := g.twister.index_le
    have hsize : blockSize = 312 := rfl
    exact UInt64.toNat_ofNat_of_lt' (by rw [UInt64.size]; omega)
  simp only [toGenerator?, ofGenerator, hindex, Twister.ofWords?_words]
  split <;> rfl

/-- The words of a snapshot and of the generator that it is of are the same, as is the index. -/
theorem Snapshot.toGenerator?_eq_ok {s : Snapshot} {g : Generator} (h : s.toGenerator? = .ok g) :
    g.twister.words = s.words ∧ g.twister.index = s.index.toNat ∧
      ¬ g.twister.words.all (· = 0) = true := by
  unfold toGenerator? at h
  cases hwords : Twister.ofWords? s.words s.index.toNat with
  | error fault =>
    rw [hwords] at h
    cases h
  | ok t =>
    rw [hwords] at h
    cases h
    obtain ⟨hsame, hindex, hzero⟩ := Twister.ofWords?_eq_ok hwords
    exact ⟨hsame, hindex, by rwa [hsame]⟩

/-- A snapshot is of a generator when it is the snapshot of that generator and some word is not
zero. -/
theorem Snapshot.toGenerator?_eq_ok_iff {s : Snapshot} {g : Generator} :
    s.toGenerator? = .ok g ↔ s = ofGenerator g ∧ ¬ g.twister.words.all (· = 0) = true := by
  constructor
  · intro h
    obtain ⟨hwords, hindex, hzero⟩ := toGenerator?_eq_ok h
    have hseed : g.seed = s.seed := by
      unfold toGenerator? at h
      cases hparts : Twister.ofWords? s.words s.index.toNat <;> rw [hparts] at h <;> cases h
      rfl
    refine ⟨?_, hzero⟩
    rw [ofGenerator, hseed, hwords, hindex]
    exact congrArg (fun index => Snapshot.mk s.seed index s.words) UInt64.ofNat_toNat.symm
  · rintro ⟨rfl, hzero⟩
    rw [toGenerator?_ofGenerator, if_neg hzero]

/-- A snapshot of as many words as a block holds is of a generator exactly when its index lies
within the block and some word is not zero. -/
theorem Snapshot.exists_toGenerator?_eq_ok_iff {s : Snapshot} (h : s.words.length = blockSize) :
    (∃ g, s.toGenerator? = .ok g) ↔ s.index.toNat ≤ blockSize ∧ ∃ word ∈ s.words, word ≠ 0 := by
  have hparts : (∃ g, s.toGenerator? = .ok g) ↔
      ∃ t, Twister.ofWords? s.words s.index.toNat = .ok t := by
    unfold toGenerator?
    cases Twister.ofWords? s.words s.index.toNat with
    | ok t => exact iff_of_true ⟨⟨s.seed, t⟩, rfl⟩ ⟨t, rfl⟩
    | error fault => exact iff_of_false (fun ⟨_, h⟩ => nomatch h) fun ⟨_, h⟩ => nomatch h
  rw [hparts, Twister.exists_ofWords?_eq_ok_iff]
  exact and_iff_right h

namespace Generator

/-- Saving the generator appends the text to whatever a sink holds, and reports the seed. -/
def Saves (g : Generator) (text : Bytes) : Prop :=
  ∀ (written : Bytes) (refusal : IoFault) (journal : Journal),
    (g.save.run.run ⟨written, none, refusal⟩).run journal =
      ((.ok (), ⟨written ++ text, none, refusal⟩), journal ++ [.stateSaved g.seed])

/-- Off any input that starts with the text, loading replaces any generator by the given one,
reports its seed, and leaves what follows the text. -/
def Loads (text : Bytes) (g : Generator) : Prop :=
  ∀ (target : Generator) (input : Input) (more : Bytes) (journal : Journal),
    input.rest = text ++ more →
    ∃ left : Input, ((load.run.run target).run input).run journal =
        (((.ok (), g), left), journal ++ [.stateLoaded g.seed]) ∧
      left.rest = more ∧ left.ending = input.ending

/-- Off any input that starts with the text, loading replaces nothing and reports nothing. -/
def Refuses (text : Bytes) (fault : Fault) : Prop :=
  ∀ (target : Generator) (input : Input) (more : Bytes) (journal : Journal),
    input.rest = text ++ more →
    ∃ left : Input, ((load.run.run target).run input).run journal =
      (((.error fault, target), left), journal)

/-- Saving is reported when every piece of the text is written. -/
theorem saveBy_run {σ : Type} (writeAll : List Bytes → σ → Except IoFault Unit × σ) (g : Generator)
    (s : σ) (journal : Journal) :
    ((g.saveBy writeAll).run.run s).run journal =
      match writeAll (Snapshot.ofGenerator g).pieces s with
      | (.ok (), s) => ((.ok (), s), journal ++ [.stateSaved g.seed])
      | (.error fault, s) => ((.error (.io fault), s), journal) := by
  have hmodify : ((modifyGet (writeAll (Snapshot.ofGenerator g).pieces) :
      ExceptT Fault (StateT σ Logged) _).run.run s).run journal =
        ((.ok (writeAll (Snapshot.ofGenerator g).pieces s).1,
          (writeAll (Snapshot.ofGenerator g).pieces s).2), journal) := rfl
  simp only [saveBy, ExceptT.run_bind, StateT.run_bind]
  rw [hmodify]
  rcases writeAll (Snapshot.ofGenerator g).pieces s with ⟨result, s⟩
  cases result <;> rfl

/-- A file that can be written holds the text form then, and that is reported. -/
theorem saveFile_run {g : Generator} {store files : FileStore} {path : String}
    (h : store.write path (Snapshot.ofGenerator g).encode = .ok files) (journal : Journal) :
    ((g.saveFile path).run.run store).run journal =
      ((.ok (), files), journal ++ [.stateSaved g.seed]) := by
  rw [saveFile, Logged.run_bind rfl, h]
  rfl

/-- Loading replaces the generator by one that was read, and reports that; otherwise it keeps it. -/
theorem load_run (target : Generator) (input : Input) (journal : Journal) :
    ((load.run.run target).run input).run journal =
      match ofInput.run.run input with
      | (.ok g, left) => (((.ok (), g), left), journal ++ [.stateLoaded g.seed])
      | (.error fault, left) => (((.error fault, target), left), journal) := by
  have hmodify : (((modifyGetThe Input ofInput.run : Loading _).run.run target).run input).run
      journal =
        (((.ok (ofInput.run.run input).1, target), (ofInput.run.run input).2), journal) := rfl
  simp only [load, ExceptT.run_bind, StateT.run_bind]
  rw [hmodify]
  rcases ofInput.run.run input with ⟨result, left⟩
  cases result <;> rfl

/-- What is read off the text form of a snapshot is the generator that the snapshot is of, or the
reason why there is none. -/
theorem ofInput_run {s : Snapshot} (h : s.words.length = blockSize) {input : Input} {more : Bytes}
    (hrest : input.rest = s.encode ++ more) :
    ∃ left : Input, ofInput.run.run input =
        (s.toGenerator?.mapError fun fault => .malformed (.block fault), left) ∧
      left.rest = more ∧ left.ending = input.ending := by
  obtain ⟨left, hrun, hleft, hending⟩ := Snapshot.takes_decode h input more hrest
  refine ⟨left, ?_, hleft, hending⟩
  rw [ofInput, Reading.run_bind hrun]
  cases s.toGenerator? <;> rfl

theorem saves_encode (g : Generator) : g.Saves (Snapshot.ofGenerator g).encode := by
  intro written refusal journal
  rw [save, saveBy_run, Sink.writeAll_of_room_none]
  rfl

/-- A generator is loaded from the text form of its snapshot when some word is not zero. -/
theorem loads_encode {g : Generator} (h : ¬ g.twister.words.all (· = 0) = true) :
    Loads (Snapshot.ofGenerator g).encode g := by
  intro target input more journal hrest
  obtain ⟨left, hrun, hleft⟩ := ofInput_run (Snapshot.length_words_ofGenerator g) hrest
  rw [Snapshot.toGenerator?_ofGenerator, if_neg h] at hrun
  refine ⟨left, ?_, hleft⟩
  rw [load_run, hrun]
  rfl

/-- The text form of a snapshot is refused when its words are all zero. -/
theorem refuses_encode {g : Generator} (h : g.twister.words.all (· = 0) = true) :
    Refuses (Snapshot.ofGenerator g).encode (.malformed (.block .allZero)) := by
  intro target input more journal hrest
  obtain ⟨left, hrun, _⟩ := ofInput_run (Snapshot.length_words_ofGenerator g) hrest
  rw [Snapshot.toGenerator?_ofGenerator, if_pos h] at hrun
  refine ⟨left, ?_⟩
  rw [load_run, hrun]
  rfl

/-- No text is both loaded and refused. -/
theorem Loads.not_refuses {text : Bytes} {g : Generator} (h : Loads text g) (fault : Fault) :
    ¬ Refuses text fault := by
  intro hrefuses
  have hrest : (Input.ofBytes text).rest = text ++ [] := rfl
  obtain ⟨left, hrun, _⟩ := h g (.ofBytes text) [] [] hrest
  obtain ⟨left', hrun'⟩ := hrefuses g (.ofBytes text) [] [] hrest
  rw [hrun] at hrun'
  cases hrun'

end Generator

end Redraw
