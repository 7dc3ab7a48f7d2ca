import Redraw.Checkpoint.Json
import Redraw.Proofs.Generator.Storing
import Redraw.Proofs.Json.Record

/-!
# Checkpoints read back

The JSON text of a checkpoint is read back as that checkpoint, with every word and every character
of its fingerprint. A checkpoint is that of a generator exactly when the generator would write it,
so that a text in any other layout that is accepted says no more than the text that the generator
writes itself.
-/

namespace Redraw

open Json

/-- The JSON form of a snapshot is taken for it, whatever the number of its words. -/
theorem Snapshot.takes_json (s : Snapshot) : layout.reader.Takes s.json s := by
  have hseed := (Reader.takes_word s.seed).map fun seed (d : Draft) => { d with seed := some seed }
  have hindex := (Reader.takes_size s.index).map fun index (d : Draft) =>
    { d with index := some index }
  have hwords := (Reader.takes_list fun word (_ : word ∈ s.words) => Reader.takes_word word).map
    fun words (d : Draft) => { d with words := some words }
  exact Layout.takes_object (.cons rfl rfl hseed <| .cons rfl rfl hindex <|
    .cons rfl rfl hwords .nil) rfl

namespace Checkpoint

/-- The JSON form of a checkpoint is taken for it, whether it is valid or not. -/
theorem takes_json (c : Checkpoint) : layout.reader.Takes c.json c := by
  have hversion := (Reader.takes_halfWord c.version).map fun version (d : Draft) =>
    { d with version := some version }
  have hsnapshot := c.snapshot.takes_json.map fun snapshot (d : Draft) =>
    { d with snapshot := some snapshot }
  have hfingerprint := (Reader.takes_string c.fingerprint).map fun text (d : Draft) =>
    { d with fingerprint := some text }
  exact Layout.takes_object (.cons rfl rfl hversion <| .cons rfl rfl hsnapshot <|
    .cons rfl rfl hfingerprint .nil) rfl

theorem ofJson?_toJson (c : Checkpoint) : ofJson? c.toJson = .ok c :=
  c.takes_json.whole

/-- A checkpoint is valid when it is that of its snapshot. -/
theorem validate_eq_ok_iff {c : Checkpoint} : c.validate = .ok () ↔ c = ofSnapshot c.snapshot := by
  obtain ⟨version, snapshot, fingerprint⟩ := c
  rw [validate, ofSnapshot, Checkpoint.mk.injEq]
  by_cases hversion : version = currentVersion
  · rw [if_neg (not_not_intro hversion)]
    by_cases hhash : snapshot.fingerprint = fingerprint
    · rw [if_neg (not_not_intro hhash)]
      exact iff_of_true rfl ⟨hversion, rfl, hhash.symm⟩
    · rw [if_pos hhash]
      exact iff_of_false (fun h => nomatch h) fun h => hhash h.2.2.symm
  · rw [if_pos hversion]
    exact iff_of_false (fun h => nomatch h) fun h => hversion h.1

/-- A checkpoint has a generator when the generator would write that very checkpoint and some word
is not zero. -/
theorem toGenerator?_eq_ok_iff {c : Checkpoint} {g : Generator} :
    c.toGenerator? = .ok g ↔ c = ofGenerator g ∧ ¬ g.twister.words.all (· = 0) = true := by
  constructor
  · intro h
    unfold toGenerator? at h
    cases hvalid : c.validate with
    | error cause =>
      rw [hvalid] at h
      cases h
    | ok _ =>
      rw [hvalid] at h
      obtain ⟨hs, hzero⟩ := Snapshot.toGenerator?_eq_ok_iff.mp (mapError_eq_ok_iff.mp h)
      refine ⟨?_, hzero⟩
      rw [validate_eq_ok_iff.mp hvalid, hs]
      rfl
  · rintro ⟨rfl, hzero⟩
    have hvalid : (ofGenerator g).validate = .ok () := validate_eq_ok_iff.mpr rfl
    rw [toGenerator?, hvalid]
    exact mapError_eq_ok_iff.mpr (Snapshot.toGenerator?_eq_ok_iff.mpr ⟨rfl, hzero⟩)

end Checkpoint

namespace Generator

/-- A text stands for a generator when the checkpoint that it holds is that of the generator. -/
theorem ofJson?_eq_ok_iff {text : String} {g : Generator} :
    ofJson? text = .ok g ↔ Checkpoint.ofJson? text = .ok (.ofGenerator g) ∧
      ¬ g.twister.words.all (· = 0) = true := by
  unfold ofJson?
  cases Checkpoint.ofJson? text with
  | ok c => rw [Checkpoint.toGenerator?_eq_ok_iff, Except.ok.injEq]
  | error fault => exact iff_of_false (fun h => nomatch h) (fun h => nomatch h.1)

/-- A generator is read back from its JSON text exactly when some word is not zero. -/
theorem ofJson?_toJson_iff (g : Generator) :
    ofJson? g.toJson = .ok g ↔ ¬ g.twister.words.all (· = 0) = true := by
  rw [ofJson?_eq_ok_iff, toJson, Checkpoint.ofJson?_toJson]
  exact and_iff_right rfl

/-- A generator is read back from its JSON text, unless its words are all zero. Any text that is
read as a generator holds the generator's own checkpoint, so that writing the generator anew and
reading that changes nothing. -/
theorem ofJson?_toJson_and_of_ofJson? :
    (∀ g : Generator, ofJson? g.toJson = .ok g ↔ ∃ word ∈ g.twister.words, word ≠ 0) ∧
    ∀ (text : String) (g : Generator), ofJson? text = .ok g →
      Checkpoint.ofJson? text = .ok (.ofGenerator g) ∧ ofJson? g.toJson = .ok g := by
  constructor
  · intro g
    rw [ofJson?_toJson_iff, List.all_eq_true]
    simp
  · intro text g h
    obtain ⟨hcheckpoint, hzero⟩ := ofJson?_eq_ok_iff.mp h
    exact ⟨hcheckpoint, (ofJson?_toJson_iff g).mpr hzero⟩

end Generator

end Redraw
