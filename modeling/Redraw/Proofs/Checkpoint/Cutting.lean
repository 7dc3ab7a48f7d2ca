import Redraw.Proofs.Checkpoint.Acceptance
import Redraw.Proofs.Json.Delimiting
import Redraw.Proofs.Twister.Seeding

/-!
# JSON texts that are cut off or go on

The JSON text of a checkpoint ends with the bracket that closes it. Without that bracket it stands
for no checkpoint, wherever it was cut off; and with anything but blanks behind it, it stands for
none either. This holds of any text that is read as a checkpoint, up to the blanks at its end.
-/

namespace Redraw

open Json

theorem Snapshot.delimited_reader : Snapshot.layout.reader.Delimited := by
  refine Layout.delimited_reader ?_
  simp only [Snapshot.layout, List.forall_mem_cons]
  exact ⟨Reader.steady_word.map _, Reader.steady_size.map _,
    Reader.steady_word.list.steady.map _, fun _ h => nomatch h⟩

theorem Checkpoint.delimited_reader : Checkpoint.layout.reader.Delimited := by
  refine Layout.delimited_reader ?_
  simp only [Checkpoint.layout, List.forall_mem_cons]
  exact ⟨Reader.steady_halfWord.map _, Snapshot.delimited_reader.steady.map _,
    Reader.delimited_string.steady.map _, fun _ h => nomatch h⟩

/-- The JSON text of a checkpoint ends with a bracket. -/
theorem Checkpoint.suffix_toJson (c : Checkpoint) : ['\x7d'] <:+ c.toJson.toList := by
  rw [toJson, String.toList_ofList]
  exact List.suffix_append ('\x7b' :: _) _

/-- A text that stands for a checkpoint stands for it with blanks behind it, and with nothing else.
-/
theorem Checkpoint.ofJson?_append {text : String} {c : Checkpoint} (h : ofJson? text = .ok c)
    (more : String) : ofJson? (text ++ more) =
      if more.toList.all isBlank then .ok c else .error .trailingCharacters :=
  delimited_reader.whole_append h more

/-- What is left of the JSON text of a checkpoint without its end stands for no checkpoint. -/
theorem Checkpoint.ofJson?_front (c : Checkpoint) {front more : String}
    (hfront : front ++ more = c.toJson) (hmore : more ≠ "") :
    ∃ fault, ofJson? front = .error fault := by
  cases hread : ofJson? front with
  | error fault => exact ⟨fault, rfl⟩
  | ok other =>
    have hwhole := ofJson?_append hread more
    rw [hfront, ofJson?_toJson] at hwhole
    split at hwhole
    · next hblank =>
      -- What is lost ends with a bracket, which is no blank.
      have hbracket : '\x7d' ∈ more.toList := by
        have hsuffix : more.toList <:+ c.toJson.toList := by
          rw [← hfront, String.toList_append]
          exact List.suffix_append _ _
        have hlength : 1 ≤ more.toList.length :=
          List.length_pos_iff.mpr fun hnil => hmore (String.toList_eq_nil_iff.mp hnil)
        exact (List.suffix_of_suffix_length_le c.suffix_toJson hsuffix hlength).mem
          List.mem_cons_self
      exact absurd (List.all_eq_true.mp hblank _ hbracket) (by decide)
    · cases hwhole

/-- The checkpoint of a generator is of no other generator, and of none if the words are all zero.
-/
theorem Checkpoint.toGenerator?_ofGenerator (g : Generator) : (ofGenerator g).toGenerator? =
    if g.twister.words.all (· = 0) then .error (.block .allZero) else .ok g := by
  have hvalid : (ofGenerator g).validate = .ok () := validate_eq_ok_iff.mpr rfl
  have hsnapshot : (ofGenerator g).snapshot = Snapshot.ofGenerator g := rfl
  simp only [toGenerator?, hvalid, hsnapshot, Snapshot.toGenerator?_ofGenerator]
  split <;> rfl

namespace Generator

/-- What the JSON text of a generator stands for with more text behind it. -/
theorem ofJson?_toJson_append (g : Generator) (extra : String) :
    ofJson? (g.toJson ++ extra) =
      if extra.toList.all isBlank then
        if g.twister.words.all (· = 0) then .error (.block .allZero) else .ok g
      else .error (.json .trailingCharacters) := by
  have happend := Checkpoint.ofJson?_append (Checkpoint.ofJson?_toJson (.ofGenerator g)) extra
  by_cases hblank : extra.toList.all isBlank = true
  · rw [if_pos hblank] at happend ⊢
    rw [← Checkpoint.toGenerator?_ofGenerator, ofJson?, toJson, happend]
  · rw [if_neg hblank] at happend ⊢
    rw [ofJson?, toJson, happend]

/-- A generator's JSON text stands for no generator once any of it is cut off. With more behind it,
it stands for that generator if some word is not zero and the rest is blank, and for none otherwise;
a rest that is not blank is reported as such. -/
theorem ofJson?_cut_or_extended :
    (∀ (g : Generator) (front more : String), front ++ more = g.toJson → more ≠ "" →
      ∃ fault, ofJson? front = .error (.json fault)) ∧
    (∀ (g g' : Generator) (extra : String), ofJson? (g.toJson ++ extra) = .ok g' ↔
      g' = g ∧ (∃ word ∈ g.twister.words, word ≠ 0) ∧
        ∀ c ∈ extra.toList, c ∈ [' ', '\t', '\n', '\r']) ∧
    ∀ (g : Generator) (extra : String), (∃ c ∈ extra.toList, c ∉ [' ', '\t', '\n', '\r']) →
      ofJson? (g.toJson ++ extra) = .error (.json .trailingCharacters) := by
  have hblank : ∀ extra : String, extra.toList.all isBlank = true ↔
      ∀ c ∈ extra.toList, c ∈ [' ', '\t', '\n', '\r'] := fun extra =>
    List.all_eq_true.trans (forall₂_congr fun _ _ => isBlank_iff)
  refine ⟨fun g front more hfront hmore => ?_, fun g g' extra => ?_, fun g extra hextra => ?_⟩
  · obtain ⟨fault, hfault⟩ := Checkpoint.ofJson?_front _ hfront hmore
    exact ⟨fault, by rw [ofJson?, hfault]⟩
  · rw [ofJson?_toJson_append, ← hblank, ← Snapshot.not_all_zero_iff]
    by_cases hextra : extra.toList.all isBlank = true
    · by_cases hzero : g.twister.words.all (· = 0) = true
      · rw [if_pos hextra, if_pos hzero]
        exact iff_of_false (fun h => nomatch h) fun h => h.2.1 hzero
      · rw [if_pos hextra, if_neg hzero, Except.ok.injEq, eq_comm]
        exact (and_iff_left ⟨hzero, hextra⟩).symm
    · rw [if_neg hextra]
      exact iff_of_false (fun h => nomatch h) fun h => hextra h.2.2
  · obtain ⟨c, hc, hother⟩ := hextra
    rw [ofJson?_toJson_append, if_neg fun hall => hother ((hblank extra).mp hall c hc)]

/-- The last bracket is cut off, the line is ended, or one bracket more is closed. -/
theorem ofJson?_cut_or_extended_bracket :
    (∃ front fault, front ++ "\x7d" = (ofSeed 5).toJson ∧
      ofJson? front = .error (.json fault)) ∧
    ofJson? ((ofSeed 5).toJson ++ "\n") = .ok (ofSeed 5) ∧
    ofJson? ((ofSeed 5).toJson ++ "\x7d") = .error (.json .trailingCharacters) := by
  obtain ⟨hcut, hblank, htrailing⟩ := ofJson?_cut_or_extended
  refine ⟨?_, (hblank _ _ _).mpr ⟨rfl, ?_, by simp⟩, htrailing _ _ ⟨'\x7d', by simp, by simp⟩⟩
  · obtain ⟨cs, hcs⟩ := (Checkpoint.ofGenerator (ofSeed 5)).suffix_toJson
    have hfront : String.ofList cs ++ "\x7d" = (ofSeed 5).toJson := by
      rw [← String.toList_inj, String.toList_append, String.toList_ofList]
      exact hcs
    obtain ⟨fault, hfault⟩ := hcut _ _ _ hfront (by simp)
    exact ⟨_, fault, hfront, hfault⟩
  · rw [← Snapshot.not_all_zero_iff, Twister.all_words_eq_zero_iff]
    exact fun hzero => Block.not_idle_ofSeed 5 (Block.idle_of_eq_zero hzero)

end Generator

end Redraw
