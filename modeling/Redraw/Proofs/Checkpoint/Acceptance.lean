import Redraw.Proofs.Checkpoint.RoundTrip

/-!
# Which checkpoints are accepted

Making the checkpoint of a generator and taking the generator of a checkpoint undo each other: the
only checkpoints with a generator are those that the generator would make, and they have no other
generator. Any other checkpoint has defects, of which the gravest is reported: its version comes
before its fingerprint, and that before its words and its index.
-/

namespace Redraw

/-- A fault that is told otherwise is told of a fault. -/
theorem mapError_eq_error_iff {ε ε' α : Type} {tell : ε → ε'} {result : Except ε α} {told : ε'} :
    result.mapError tell = .error told ↔ ∃ fault, result = .error fault ∧ tell fault = told := by
  cases result with
  | ok _ =>
    refine iff_of_false (fun h => nomatch h) ?_
    rintro ⟨_, h, _⟩
    cases h
  | error fault =>
    constructor
    · intro h
      exact ⟨fault, rfl, Except.error.inj h⟩
    · rintro ⟨_, h, rfl⟩
      cases h
      rfl

namespace Snapshot

/-- What keeps a snapshot from being that of a generator, the gravest first: the number of words, an
index beyond them, and words that are all zero. -/
def defects (s : Snapshot) : List BlockFault :=
  (if s.words.length = blockSize then [] else [.wrongLength s.words.length]) ++
    (if s.index.toNat ≤ blockSize then [] else [.indexOutOfRange s.index.toNat]) ++
    (if ∃ word ∈ s.words, word ≠ 0 then [] else [.allZero])

theorem not_all_zero_iff {words : List UInt64} :
    ¬ words.all (· = 0) = true ↔ ∃ word ∈ words, word ≠ 0 := by
  rw [List.all_eq_true]
  simp

/-- Of the defects of a snapshot the gravest is reported. -/
theorem toGenerator?_eq_error_iff {s : Snapshot} {fault : BlockFault} :
    s.toGenerator? = .error fault ↔ s.defects.head? = some fault := by
  have hparts : s.toGenerator? = .error fault ↔
      Twister.ofWords? s.words s.index.toNat = .error fault := by
    unfold toGenerator?
    cases Twister.ofWords? s.words s.index.toNat <;> simp [Except.map]
  rw [hparts, Twister.ofWords?, defects]
  by_cases hlength : s.words.length = blockSize
  · by_cases hindex : s.index.toNat ≤ blockSize
    · by_cases hword : ∃ word ∈ s.words, word ≠ 0
      · rw [dif_pos hlength, dif_pos hindex, if_neg (not_all_zero_iff.mpr hword),
          if_pos hlength, if_pos hindex, if_pos hword]
        simp
      · have hzero := Decidable.not_not.mp (mt not_all_zero_iff.mp hword)
        rw [dif_pos hlength, dif_pos hindex, if_pos hzero, if_pos hlength, if_pos hindex,
          if_neg hword]
        simp
    · rw [dif_pos hlength, dif_neg hindex, if_pos hlength, if_neg hindex]
      simp
  · rw [dif_neg hlength, if_neg hlength]
    simp

end Snapshot

namespace Checkpoint

/-- What keeps a checkpoint from being that of a generator, the gravest first. -/
def defects (c : Checkpoint) : List Malformed :=
  (if c.version = currentVersion then [] else [.unsupportedVersion c.version currentVersion]) ++
    (if c.snapshot.fingerprint = c.fingerprint then []
      else [.hashMismatch c.fingerprint c.snapshot.fingerprint]) ++
    c.snapshot.defects.map .block

/-- Of the defects of a checkpoint the gravest is reported. -/
theorem toGenerator?_eq_error_iff {c : Checkpoint} {cause : Malformed} :
    c.toGenerator? = .error cause ↔ c.defects.head? = some cause := by
  rw [toGenerator?, validate, defects]
  by_cases hversion : c.version = currentVersion
  · rw [if_neg (not_not_intro hversion), if_pos hversion]
    by_cases hhash : c.snapshot.fingerprint = c.fingerprint
    · rw [if_neg (not_not_intro hhash), if_pos hhash, List.nil_append, List.nil_append,
        List.head?_map, Option.map_eq_some_iff]
      simp only [← Snapshot.toGenerator?_eq_error_iff]
      exact mapError_eq_error_iff
    · rw [if_pos hhash, if_neg hhash]
      simp
  · rw [if_pos hversion, if_neg hversion]
    simp

/-- A checkpoint without defects has a generator. -/
theorem exists_toGenerator?_eq_ok_iff {c : Checkpoint} :
    (∃ g, c.toGenerator? = .ok g) ↔ c.defects = [] := by
  rw [← List.head?_eq_none_iff]
  cases hresult : c.toGenerator? with
  | ok g =>
    refine iff_of_true ⟨g, rfl⟩ (Option.eq_none_iff_forall_ne_some.mpr fun cause hcause => ?_)
    rw [← toGenerator?_eq_error_iff, hresult] at hcause
    cases hcause
  | error cause =>
    rw [toGenerator?_eq_error_iff] at hresult
    rw [hresult]
    exact iff_of_false (fun ⟨_, h⟩ => nomatch h) fun h => nomatch h

/-- A checkpoint has a generator exactly when it is the checkpoint of that generator, of which some
word is not zero. A checkpoint has none exactly when it has a defect, and the gravest is reported:
the version before the fingerprint, and the fingerprint before the words and the index. -/
theorem toGenerator?_inverts_ofGenerator :
    (∀ (c : Checkpoint) (g : Generator), c.toGenerator? = .ok g ↔
      (∃ word ∈ g.twister.words, word ≠ 0) ∧ c = ofGenerator g) ∧
    (∀ c : Checkpoint, (∃ g, c.toGenerator? = .ok g) ↔ c.defects = []) ∧
    ∀ (c : Checkpoint) (cause : Malformed),
      c.toGenerator? = .error cause ↔ c.defects.head? = some cause := by
  refine ⟨fun c g => ?_, fun _ => exists_toGenerator?_eq_ok_iff,
    fun _ _ => toGenerator?_eq_error_iff⟩
  rw [toGenerator?_eq_ok_iff, Snapshot.not_all_zero_iff, and_comm]

end Checkpoint

end Redraw
