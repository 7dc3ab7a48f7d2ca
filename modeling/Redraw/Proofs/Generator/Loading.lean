import Redraw.Dynamic.Generator
import Redraw.Proofs.Generator.Storing
import Redraw.Proofs.Snapshot.Grammar

/-!
# Loading is all or nothing

Whatever an input holds, loading comes to one of two things. Either a snapshot of a generator is
decoded, and that generator replaces the old one; or something is wrong with the bytes, with the
input or with the snapshot, and the old generator stays. All ways of loading are the same reading,
so they agree on the result and on what is left of the input; a file and a text are inputs whose
bytes come in pieces of some size.
-/

namespace Redraw

open Reading

theorem Bytes.flatten_pieces (size : Nat) (bytes : Bytes) :
    (pieces size bytes).flatten = bytes := by
  fun_induction pieces size bytes with
  | case1 => rfl
  | case2 byte rest ih =>
    rw [List.flatten_cons, ih, List.cons_append, List.take_append_drop]

/-- What is buffered from bytes without a fault are these bytes. -/
theorem Input.rest_buffered {size : Nat} (h : size ≠ 0) (bytes : Bytes) (ending : Ending) :
    (buffered size bytes ending).rest = bytes ∧ (buffered size bytes ending).ending = ending := by
  rw [buffered, if_neg fun hsize => h hsize.1]
  exact ⟨Bytes.flatten_pieces size bytes, rfl⟩

/-- A decoded snapshot has as many words as a block holds. -/
theorem Snapshot.length_words_of_decode {s : Snapshot} {input left : Input}
    (h : decode.run.run input = (.ok s, left)) : s.words.length = blockSize := by
  obtain ⟨left', hclosed⟩ := tokenwise_decode.run_closed_of_ok h
  exact (yields_decode_iff.mp (tokenwise_decode.yields hclosed)).1

namespace Generator

/-- Reading a generator only asks for tokens. -/
theorem tokenwise_ofInput : Tokenwise ofInput := by
  refine Snapshot.tokenwise_decode.bind fun s => ?_
  cases s.toGenerator? with
  | ok g => exact .pure g
  | error fault => exact .refuse _ (by simp)

/-- A generator is read when a snapshot of it is decoded, and nothing more is taken than that. -/
theorem ofInput_run_eq (input : Input) : ofInput.run.run input =
    match Snapshot.decode.run.run input with
    | (.ok s, left) => (s.toGenerator?.mapError fun fault => .malformed (.block fault), left)
    | (.error fault, left) => (.error fault, left) := by
  rcases hrun : Snapshot.decode.run.run input with ⟨result, left⟩
  rw [ofInput]
  cases result with
  | ok s =>
    rw [run_bind hrun]
    change _ = (s.toGenerator?.mapError fun fault => Fault.malformed (.block fault), left)
    cases s.toGenerator? <;> rfl
  | error fault => rw [run_bind_error hrun]

theorem snd_ofInput_run (input : Input) :
    (ofInput.run.run input).2 = (Snapshot.decode.run.run input).2 := by
  rw [ofInput_run_eq]
  rcases Snapshot.decode.run.run input with ⟨_ | _, left⟩ <;> rfl

theorem fst_ofInput_run_eq_ok_iff {input : Input} {g : Generator} :
    (ofInput.run.run input).1 = .ok g ↔
      ∃ s, (Snapshot.decode.run.run input).1 = .ok s ∧ s.toGenerator? = .ok g := by
  rw [ofInput_run_eq]
  rcases Snapshot.decode.run.run input with ⟨fault | s, left⟩
  · exact iff_of_false (fun h => nomatch h) fun ⟨_, h, _⟩ => nomatch h
  · refine mapError_eq_ok_iff.trans ⟨fun hs => ⟨s, rfl, hs⟩, ?_⟩
    rintro ⟨_, ⟨⟩, hs⟩
    exact hs

/-- Some generator is read exactly when a snapshot is decoded whose index lies within the block and
of whose words some is not zero. -/
theorem exists_ofInput_run_eq_ok_iff {input : Input} :
    (∃ g, (ofInput.run.run input).1 = .ok g) ↔
      ∃ s, (Snapshot.decode.run.run input).1 = .ok s ∧
        s.index.toNat ≤ blockSize ∧ ∃ word ∈ s.words, word ≠ 0 := by
  simp only [fst_ofInput_run_eq_ok_iff]
  rw [exists_comm]
  refine exists_congr fun s => ?_
  rw [exists_and_left]
  refine and_congr_right fun hdecode => Snapshot.exists_toGenerator?_eq_ok_iff ?_
  exact Snapshot.length_words_of_decode (Prod.ext hdecode rfl)

/-- Inputs that hold the same bytes and end alike are loaded alike, however they are cut into
chunks. -/
theorem load_run_congr {target g : Generator} {input input' left : Input}
    {journal journal' : Journal} {result : Except Fault Unit} (hrest : input'.rest = input.rest)
    (hending : input'.ending = input.ending)
    (h : ((load.run.run target).run input).run journal = (((result, g), left), journal')) :
    ∃ left', ((load.run.run target).run input').run journal =
      (((result, g), left'), journal') := by
  have hsame := tokenwise_ofInput.fst_run_eq hrest hending
  rw [load_run] at h ⊢
  rcases hread : ofInput.run.run input with ⟨read, taken⟩
  rcases hread' : ofInput.run.run input' with ⟨read', taken'⟩
  rw [hread, hread'] at hsame
  obtain rfl : read' = read := hsame
  rw [hread] at h
  cases read' <;> cases h <;> exact ⟨_, rfl⟩

/-- Loading from a file is loading from its content. -/
theorem loadFile_run {store : FileStore} {path : String} {content : Bytes}
    (hread : store.read path = .ok content) {target g : Generator} {left : Input}
    {journal journal' : Journal} {result : Except Fault Unit}
    (h : ((load.run.run target).run (.buffered fileBuffer content .closed)).run journal =
      (((result, g), left), journal')) :
    ((loadFile store path).run.run target).run journal = ((result, g), journal') := by
  rw [loadFile, hread]
  exact congrArg (fun loaded => (loaded.1.1, loaded.2)) h

/-- A file that cannot be read loads nothing. -/
theorem loadFile_run_of_error {store : FileStore} {path : String} {fault : IoFault}
    (hread : store.read path = .error fault) (target : Generator) (journal : Journal) :
    ((loadFile store path).run.run target).run journal =
      ((.error (.io fault), target), journal) := by
  rw [loadFile, hread]
  rfl

/-- Loading from a text is loading from its bytes. -/
theorem dynamicLoad_run {text : String} {target g : Generator} {left : Input}
    {journal journal' : Journal} {result : Except Fault Unit}
    (h : ((load.run.run target).run (.ofBytes (Bytes.ofText text))).run journal =
      (((result, g), left), journal')) :
    ((Dynamic.load text).run.run target).run journal =
      ((result.mapError Dynamic.Refusal.refused, g), journal') := by
  rw [Dynamic.load, Logged.run_bind rfl]
  refine (Logged.run_bind (Logged.run_lift h target)).trans ?_
  rw [Logged.run_bind rfl]
  cases result <;> rfl

/-- What loading comes to: its result, the generator after it, and what is left of the input. -/
structure LoadsExactly (target : Generator) (input : Input) (result : Except Fault Unit)
    (g : Generator) (left : Input) : Prop where
  /-- It succeeds exactly when a snapshot is decoded whose index lies within the block and of whose
  words some is not zero. -/
  ok_iff : result = .ok () ↔ ∃ s, (Snapshot.decode.run.run input).1 = .ok s ∧
    s.index.toNat ≤ 312 ∧ ∃ word ∈ s.words, word ≠ 0
  /-- Then the generator is that of the snapshot. -/
  of_ok : result = .ok () → ∀ s, (Snapshot.decode.run.run input).1 = .ok s →
    g.seed = s.seed ∧ g.twister.index = s.index.toNat ∧ g.twister.words = s.words
  /-- Otherwise the generator is the old one, and the fault is that something is malformed or it is
  the input's own. -/
  of_error : ∀ fault, result = .error fault → g = target ∧
    ((∃ cause, fault = .malformed cause) ∨
      ∃ broken, fault = .io broken ∧ input.ending = .failed broken)
  /-- What decoding takes from the input is all that is taken. -/
  left_eq : left = (Snapshot.decode.run.run input).2

theorem loadsExactly_of_ok (target : Generator) {g : Generator} {input left : Input}
    (h : ofInput.run.run input = (.ok g, left)) : LoadsExactly target input (.ok ()) g left := by
  have hread : (ofInput.run.run input).1 = .ok g := by rw [h]
  refine ⟨iff_of_true rfl (exists_ofInput_run_eq_ok_iff.mp ⟨g, hread⟩), fun _ s hdecode => ?_,
    fun _ hfault => (nomatch hfault), ?_⟩
  · obtain ⟨s', hdecode', hs⟩ := fst_ofInput_run_eq_ok_iff.mp hread
    rw [hdecode] at hdecode'
    cases hdecode'
    obtain ⟨hwords, hindex, _⟩ := Snapshot.toGenerator?_eq_ok hs
    obtain ⟨rfl, _⟩ := Snapshot.toGenerator?_eq_ok_iff.mp hs
    exact ⟨rfl, hindex, hwords⟩
  · rw [← snd_ofInput_run, h]

theorem loadsExactly_of_error (target : Generator) {fault : Fault} {input left : Input}
    (h : ofInput.run.run input = (.error fault, left)) :
    LoadsExactly target input (.error fault) target left := by
  refine ⟨iff_of_false (fun hok => nomatch hok) fun hok => ?_, fun hok => (nomatch hok), ?_, ?_⟩
  · obtain ⟨g, hread⟩ := exists_ofInput_run_eq_ok_iff.mpr hok
    rw [h] at hread
    cases hread
  · rintro _ ⟨⟩
    exact ⟨rfl, tokenwise_ofInput.malformed_or_io h⟩
  · rw [← snd_ofInput_run, h]

/-- Loading from an input either succeeds, with the generator of a snapshot that is decoded and in
order, or leaves the generator as it was. A generator that is read off the input by itself is the
one that is loaded, with the same faults and the same bytes left; and loading the same bytes from a
file or from a text has the same result, leaves the same generator and reports the same. A file that
cannot be read leaves the generator as it was. -/
theorem exists_loadsExactly (target : Generator) (input : Input) (journal : Journal) :
    ∃ (result : Except Fault Unit) (g : Generator) (left : Input) (journal' : Journal),
      ((load.run.run target).run input).run journal = (((result, g), left), journal') ∧
      LoadsExactly target input result g left ∧
      ofInput.run.run input = (result.map fun _ => g, left) ∧
      (input.ending = .closed →
        (∀ store path, FileStore.read store path = .ok input.rest →
          ((loadFile store path).run.run target).run journal = ((result, g), journal')) ∧
        ∀ text, Bytes.ofText text = input.rest →
          ((Dynamic.load text).run.run target).run journal =
            ((result.mapError .refused, g), journal')) ∧
      ∀ store path fault, FileStore.read store path = .error fault →
        ((loadFile store path).run.run target).run journal =
          ((.error (.io fault), target), journal) := by
  obtain ⟨result, g, left, journal', hload, hexact, hread⟩ :
      ∃ (result : Except Fault Unit) (g : Generator) (left : Input) (journal' : Journal),
        ((load.run.run target).run input).run journal = (((result, g), left), journal') ∧
        LoadsExactly target input result g left ∧
        ofInput.run.run input = (result.map fun _ => g, left) := by
    rcases hread : ofInput.run.run input with ⟨fault | g, left⟩
    · exact ⟨.error fault, target, left, journal, by rw [load_run, hread],
        loadsExactly_of_error target hread, rfl⟩
    · exact ⟨.ok (), g, left, journal ++ [.stateLoaded g.seed], by rw [load_run, hread],
        loadsExactly_of_ok target hread, rfl⟩
  refine ⟨result, g, left, journal', hload, hexact, hread, fun hclosed => ⟨?_, ?_⟩,
    fun store path fault hfile => loadFile_run_of_error hfile target journal⟩
  · intro store path hfile
    obtain ⟨hrest, hending⟩ := Input.rest_buffered (by decide : fileBuffer ≠ 0) input.rest .closed
    obtain ⟨left', hbuffered⟩ := load_run_congr hrest (hending.trans hclosed.symm) hload
    exact loadFile_run hfile hbuffered
  · intro text htext
    have hrest : (Input.ofBytes (Bytes.ofText text)).rest = input.rest := by
      rw [← htext]
      exact List.append_nil _
    obtain ⟨left', hbytes⟩ := load_run_congr hrest hclosed.symm hload
    exact dynamicLoad_run hbytes

end Generator

end Redraw
