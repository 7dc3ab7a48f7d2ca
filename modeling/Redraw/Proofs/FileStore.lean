import Redraw.FileStore

/-!
# Files read back

What is written to a file is read back under the same path. Writing puts a file where there was a
file or nothing, so it bars no way: every directory that the path leads through is still there.
-/

namespace Redraw.FileStore

variable {store : FileStore}

/-- A path under which a file can be written, whatever it holds now. -/
def Writable (store : FileStore) (path : String) : Prop :=
  ∃ route, store.target path = .ok route

theorem Writable.exists_write {path : String} (h : store.Writable path) (content : Bytes) :
    ∃ files, store.write path content = .ok files := by
  obtain ⟨route, hroute⟩ := h
  exact ⟨_, by rw [write, hroute]; rfl⟩

theorem node?_insert (store : FileStore) (route other : Route) (node : Node) :
    (store.insert route node).node? other =
      if other = route then some node else store.node? other := by
  rw [node?, insert, List.lookup_cons]
  by_cases h : other = route
  · rw [if_pos h, beq_iff_eq.mpr h]
  · rw [if_neg h, beq_eq_false_iff_ne.mpr h]
    rfl

/-- A name that can be that of a file has the place that its node says. -/
theorem place_of_not_isFixed {name : String} (hfixed : isFixed name = false)
    (hlength : name.utf8ByteSize ≤ nameLimit) (store : FileStore) (here : Route) :
    store.place here name = .ok (match store.node? (here ++ [name]) with
      | some .directory => .directory
      | some (.file content) => .file (here ++ [name]) content
      | none => .free (here ++ [name])) := by
  rw [place, if_neg (ne_true_of_eq_false hfixed), if_neg (Nat.not_lt.mpr hlength)]
  rcases store.node? (here ++ [name]) with _ | _ | _ <;> rfl

theorem place_of_long {name : String} (hfixed : isFixed name = false)
    (hlength : ¬ name.utf8ByteSize ≤ nameLimit) (store : FileStore) (here : Route) :
    store.place here name = .error .nameTooLong := by
  rw [place, if_neg (ne_true_of_eq_false hfixed), if_pos (Nat.lt_of_not_le hlength)]

theorem place_eq_directory_iff {here : Route} {name : String} :
    store.place here name = .ok .directory ↔ isFixed name = true ∨
      name.utf8ByteSize ≤ nameLimit ∧ store.node? (here ++ [name]) = some .directory := by
  cases hfixed : isFixed name with
  | true => exact iff_of_true (by rw [place, if_pos hfixed]) (Or.inl rfl)
  | false =>
    rw [or_iff_right (by decide)]
    by_cases hlength : name.utf8ByteSize ≤ nameLimit
    · rw [place_of_not_isFixed hfixed hlength, and_iff_right hlength]
      rcases store.node? (here ++ [name]) with _ | _ | _ <;> simp
    · rw [place_of_long hfixed hlength]
      exact iff_of_false (fun h => nomatch h) fun h => hlength h.1

/-- A directory is still there when a file is put where there is none. -/
theorem place_insert_of_directory {route here : Route} {name : String}
    (hroute : store.node? route ≠ some .directory) (content : Bytes)
    (h : store.place here name = .ok .directory) :
    (store.insert route (.file content)).place here name = .ok .directory := by
  rw [place_eq_directory_iff] at h ⊢
  refine h.imp_right fun ⟨hlength, hnode⟩ => ⟨hlength, ?_⟩
  have hne : here ++ [name] ≠ route := fun heq => hroute (heq ▸ hnode)
  rw [node?_insert, if_neg hne, hnode]

theorem enter_eq_ok_iff {here there : Route} {name : String} :
    store.enter here name = .ok there ↔
      store.place here name = .ok .directory ∧ step here name = there := by
  unfold enter
  rcases store.place here name with fault | _ | _ | _ <;> simp

/-- Names lead the same way when a file is put where there is no directory. -/
theorem follow_insert {route here there : Route} {names : List String} {last : String}
    (hroute : store.node? route ≠ some .directory) (content : Bytes)
    (h : store.follow here names = .ok (there, last)) :
    (store.insert route (.file content)).follow here names = .ok (there, last) := by
  fun_induction store.follow here names with
  | case1 => exact h
  | case2 => exact h
  | case3 here name names hmore next henter ih =>
    obtain ⟨hplace, hstep⟩ := enter_eq_ok_iff.mp henter
    have henter' := enter_eq_ok_iff.mpr ⟨place_insert_of_directory hroute content hplace, hstep⟩
    rw [follow, henter']
    · exact ih h
    · exact hmore
  | case4 => cases h

theorem approach_eq_ok_iff {path : String} {last : Route × String} :
    store.approach path = .ok last ↔ ¬ path.toList.contains barred = true ∧
      ¬ pathLimit < path.utf8ByteSize ∧ ¬ path.isEmpty = true ∧
        store.follow [] (names path) = .ok last := by
  unfold approach
  by_cases hbarred : path.toList.contains barred = true
  · rw [if_pos hbarred]
    exact iff_of_false (fun h => nomatch h) fun h => h.1 hbarred
  · rw [if_neg hbarred, and_iff_right hbarred]
    by_cases hlong : pathLimit < path.utf8ByteSize
    · rw [if_pos hlong]
      exact iff_of_false (fun h => nomatch h) fun h => h.1 hlong
    · rw [if_neg hlong, and_iff_right hlong]
      by_cases hempty : path.isEmpty = true
      · rw [if_pos hempty]
        exact iff_of_false (fun h => nomatch h) fun h => h.1 hempty
      · rw [if_neg hempty, and_iff_right hempty]

theorem approach_insert {route : Route} {path : String} {last : Route × String}
    (hroute : store.node? route ≠ some .directory) (content : Bytes)
    (h : store.approach path = .ok last) :
    (store.insert route (.file content)).approach path = .ok last := by
  rw [approach_eq_ok_iff] at h ⊢
  exact ⟨h.1, h.2.1, h.2.2.1, follow_insert hroute content h.2.2.2⟩

/-- Where a path leads for writing: it is no name of a directory, and there is none. -/
structure LeadsTo (store : FileStore) (path : String) (here : Route) (name : String) : Prop where
  /-- The last name of the path is looked up in a directory that is there. -/
  approach_eq : store.approach path = .ok (here, name)
  /-- The path does not ask for a directory. -/
  not_asksDirectory : asksDirectory path = false
  /-- Nor does its last name. -/
  not_isFixed : isFixed name = false
  /-- The name is not too long. -/
  length_le : name.utf8ByteSize ≤ nameLimit
  /-- There is no directory of that name. -/
  node?_ne : store.node? (here ++ [name]) ≠ some .directory

/-- A path leads for writing where its last name is that of a file, or of nothing yet. -/
theorem leadsTo_of_place {path name : String} {here route : Route}
    (happroach : store.approach path = .ok (here, name)) (hasks : asksDirectory path = false)
    (h : (∃ content, store.place here name = .ok (.file route content)) ∨
      store.place here name = .ok (.free route)) :
    store.LeadsTo path here name ∧ route = here ++ [name] := by
  have hdirectory : store.place here name ≠ .ok .directory := by
    obtain ⟨content, h⟩ | h := h <;> rw [h] <;> simp
  have hfixed : isFixed name = false :=
    eq_false_of_ne_true fun hfixed => hdirectory (place_eq_directory_iff.mpr (Or.inl hfixed))
  have hlength : name.utf8ByteSize ≤ nameLimit := by
    by_cases hlength : name.utf8ByteSize ≤ nameLimit
    · exact hlength
    · rw [place_of_long hfixed hlength] at h
      obtain ⟨content, h⟩ | h := h <;> cases h
  refine ⟨⟨happroach, hasks, hfixed, hlength, fun hnode => hdirectory ?_⟩, ?_⟩
  · exact place_eq_directory_iff.mpr (Or.inr ⟨hlength, hnode⟩)
  · rw [place_of_not_isFixed hfixed hlength] at h
    cases hnode : store.node? (here ++ [name]) with
    | none =>
      rw [hnode] at h
      obtain ⟨content, h⟩ | h := h <;> cases h
      rfl
    | some node =>
      rw [hnode] at h
      cases node <;> obtain ⟨content, h⟩ | h := h <;> cases h
      rfl

theorem leadsTo_of_target {path : String} {route : Route} (h : store.target path = .ok route) :
    ∃ here name, store.LeadsTo path here name ∧ route = here ++ [name] := by
  unfold target at h
  rcases happroach : store.approach path with fault | ⟨here, name⟩
  · rw [happroach] at h
    cases h
  · simp only [happroach] at h
    cases hasks : asksDirectory path with
    | true => simp [hasks] at h
    | false =>
      simp only [hasks, Bool.false_eq_true, if_false] at h
      refine ⟨here, name, leadsTo_of_place happroach hasks ?_⟩
      rcases hplace : store.place here name with fault | _ | ⟨there, content⟩ | there <;>
        rw [hplace] at h <;> cases h
      · exact Or.inl ⟨content, rfl⟩
      · exact Or.inr rfl

/-- What is written to a file is read back. -/
theorem read_of_write {path : String} {content : Bytes} {files : FileStore}
    (h : store.write path content = .ok files) : files.read path = .ok content := by
  cases htarget : store.target path with
  | error fault => rw [write, htarget] at h; cases h
  | ok route =>
    obtain ⟨here, name, hleads, rfl⟩ := leadsTo_of_target htarget
    rw [write, htarget] at h
    cases h
    have happroach := approach_insert hleads.node?_ne content hleads.approach_eq
    rw [read, locate, happroach]
    simp only [place_of_not_isFixed hleads.not_isFixed hleads.length_le, node?_insert, if_true,
      hleads.not_asksDirectory, Bool.false_eq_true, if_false]

end Redraw.FileStore
