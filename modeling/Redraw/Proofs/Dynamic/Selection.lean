import Redraw.Dynamic.Session
import Redraw.Proofs.Generator.Storing
import Redraw.Proofs.Sampling.Exchange

/-!
# Lists of anything in random order

For a caller without types positions are drawn, and the items of its list are put where the
positions say, one after the other and in the list itself. Since neither shuffling nor sampling
looks at an item, the list then holds what shuffling the items would have made of them, however
often one of them is there, and the generator is the same.
-/

namespace Redraw.Dynamic

variable {α : Type}

private theorem getElem_fold_set {n : Nat} (place : (j : Nat) → j < n → α) (items : Vector α n)
    {k : Nat} (hk : k ≤ n) {i : Nat} (hi : i < n) :
    (k.fold (fun j hj written =>
      written.set j (place j (Nat.lt_of_lt_of_le hj hk)) (Nat.lt_of_lt_of_le hj hk)) items)[i] =
        if i < k then place i hi else items[i] := by
  induction k with
  | zero => rw [Nat.fold_zero, if_neg (Nat.not_lt_zero i)]
  | succ k ih =>
    rw [Nat.fold_succ, Vector.getElem_set, ih (Nat.le_of_succ_le hk)]
    by_cases he : k = i
    · subst he
      rw [if_pos rfl, if_pos (Nat.lt_succ_self k)]
    · rw [if_neg he]
      exact if_congr (by omega) rfl rfl

/-- Overwriting a list while its old items are kept apart puts them all in their places. -/
theorem rearrange_eq_map {n : Nat} (items : Vector α n) (order : Vector (Fin n) n) :
    rearrange items order = order.map items.get := by
  ext i hi
  rw [Vector.getElem_map, rearrange]
  refine (getElem_fold_set (fun j hj => items.get order[j]) items (Nat.le_refl n) hi).trans ?_
  rw [if_pos hi]

/-- Shuffling items is putting them in the places of shuffled positions. -/
theorem shuffleVector_eq {n : Nat} (items : Vector α n) (g : Generator) :
    Generator.positions.shuffleVector items g =
      ((shuffledPositions n g).1.map items.get, (shuffledPositions n g).2) := by
  have hitems : (Vector.ofFn id).map items.get = items := by
    ext i hi
    rw [Vector.getElem_map, Vector.getElem_ofFn]
    rfl
  have hshuffle := Generator.positions.shuffleVector_map items.get (Vector.ofFn id) g
  rwa [hitems] at hshuffle

theorem shuffle_run (items : List α) (g : Generator) (journal : Journal) :
    ((shuffle (.list items)).run.run g).run journal =
      ((.ok (g.shuffle items).1, (g.shuffle items).2), journal) := by
  have hrun : ((shuffle (.list items)).run.run g).run journal =
      ((.ok (rearrange items.toArray.toVector (shuffledPositions _ g).1).toList,
        (shuffledPositions _ g).2), journal) := rfl
  rw [hrun, rearrange_eq_map, Generator.shuffle, IndexSource.shuffle, shuffleVector_eq]

theorem shuffle_eq (items : List α) (g : Generator) :
    g.shuffle items =
      ((g.shuffle (List.finRange items.length)).1.map items.get,
        (g.shuffle (List.finRange items.length)).2) :=
  Generator.positions.shuffle_eq_map_get items g

theorem sample_eq (population : List α) (n : Nat) (g : Generator) :
    g.sample population n =
      ((g.sample (List.finRange population.length) n).1.map (List.map population.get),
        (g.sample (List.finRange population.length) n).2) :=
  Generator.positions.sample_eq_map_get population n g

theorem sample_run (population : List α) (n : UInt64) (g : Generator) (journal : Journal) :
    ((sample (.list population) (.integer n.toNat)).run.run g).run journal =
      (((g.sample population n.toNat).1.mapError (.refused ∘ .shortage),
        (g.sample population n.toNat).2), journal) := by
  have hbelow : (Value.integer n.toNat).below UInt64.size = .ok n.toNat :=
    if_pos n.toNat_lt
  have hdraw : ((modifyGetThe Generator fun g =>
      g.sample (List.finRange population.length) n.toNat : Call _).run.run g).run journal =
        ((.ok (g.sample (List.finRange population.length) n.toNat).1,
          (g.sample (List.finRange population.length) n.toNat).2), journal) := rfl
  rw [sample, Logged.run_bind rfl, hbelow, Logged.run_bind rfl, sample_eq]
  refine (Logged.run_bind hdraw).trans ?_
  rcases g.sample (List.finRange population.length) n.toNat with ⟨shortage | picked, after⟩ <;> rfl

/-- A call on a generator that is held leaves everything else that is held as it was. -/
theorem Turn.withGenerator_run {β : Type} {call : Call β} {session : Session α} {receiver : Nat}
    {g after : Generator} {result : Except Refusal β} {journal journal' : Journal}
    (hreceiver : session.generators[receiver]? = some g)
    (hcall : (call.run.run g).run journal = ((result, after), journal')) :
    ((Turn.withGenerator receiver call).run.run session).run journal =
      ((result, { session with generators := session.generators.set receiver after }),
        journal') := by
  rw [Turn.withGenerator, Logged.run_bind rfl, hreceiver]
  refine (Logged.run_bind (Logged.run_lift hcall session)).trans ?_
  rw [Logged.run_bind rfl]
  cases result <;> rfl

namespace Session

variable {session : Session α} {receiver number : Nat} {g : Generator} {items : List α}

theorem shuffle_run (hreceiver : session.generators[receiver]? = some g)
    (hlist : session.lists[number]? = some items) (journal : Journal) :
    ((Step.call receiver .shuffle [.list number]).take.run.run session).run journal =
      ((.ok .nothing, { session with
        generators := session.generators.set receiver (g.shuffle items).2
        lists := session.lists.set number (g.shuffle items).1 }), journal) := by
  have hitems : (Argument.list number).toItems session.lists = .list items := by
    simp only [Argument.toItems, hlist]
  have hcall := Turn.withGenerator_run hreceiver (Dynamic.shuffle_run items g journal)
  rw [Step.take, Method.perform, Logged.run_bind rfl, hitems]
  exact Logged.run_bind hcall

theorem sample_run_eq (hlist : session.lists[number]? = some items) (n : UInt64)
    (journal : Journal) :
    ((Step.call receiver .sample [.list number, .value (.integer n.toNat)]).take.run.run
      session).run journal =
        ((Turn.withGenerator receiver (Dynamic.sample (.list items) (.integer n.toNat)) >>=
          Turn.holdList).run.run session).run journal := by
  have hitems : (Argument.list number).toItems session.lists = .list items := by
    simp only [Argument.toItems, hlist]
  rw [Step.take, Method.perform, Logged.run_bind rfl, hitems]
  rfl

/-- A selection is a list of its own. -/
theorem sample_run_of_ok (hreceiver : session.generators[receiver]? = some g)
    (hlist : session.lists[number]? = some items) {n : UInt64} {picked : List α} {after : Generator}
    (h : g.sample items n.toNat = (.ok picked, after)) (journal : Journal) :
    ((Step.call receiver .sample [.list number, .value (.integer n.toNat)]).take.run.run
      session).run journal =
        ((.ok (.list session.lists.length), { session with
          generators := session.generators.set receiver after
          lists := session.lists ++ [picked] }), journal) := by
  have hsample := Dynamic.sample_run items n g journal
  rw [h] at hsample
  rw [sample_run_eq hlist]
  exact Logged.run_bind (Turn.withGenerator_run hreceiver hsample)

/-- A selection that is refused changes nothing. -/
theorem sample_run_of_lt (hreceiver : session.generators[receiver]? = some g)
    (hlist : session.lists[number]? = some items) {n : UInt64} (h : items.length < n.toNat)
    (journal : Journal) :
    ((Step.call receiver .sample [.list number, .value (.integer n.toNat)]).take.run.run
      session).run journal =
        ((.error (.refused (.shortage ⟨n.toNat, items.length⟩)), session), journal) := by
  have hsample := Dynamic.sample_run items n g journal
  rw [Generator.sample, IndexSource.sample_of_lt _ h] at hsample
  have hsame : session.generators.set receiver g = session.generators := by
    obtain ⟨hlt, rfl⟩ := List.getElem?_eq_some_iff.mp hreceiver
    exact List.set_getElem_self hlt
  have hcall := Turn.withGenerator_run hreceiver hsample
  rw [hsame] at hcall
  rw [sample_run_eq hlist]
  exact Logged.run_bind_of_error _ hcall

/-- A list that a caller holds is shuffled and sampled as the generator shuffles and samples its
items, and the generator that is held afterwards is the same. Shuffling changes that list and no
other, sampling changes none, and it is refused exactly when more items are asked for than the list
has; then the session is as it was. -/
theorem list_selections_agree (hreceiver : session.generators[receiver]? = some g)
    (hlist : session.lists[number]? = some items) (journal : Journal) :
    ((Step.call receiver .shuffle [.list number]).take.run.run session).run journal =
      ((.ok .nothing, { session with
        generators := session.generators.set receiver (g.shuffle items).2
        lists := session.lists.set number (g.shuffle items).1 }), journal) ∧
    ∀ n : UInt64, ∃ (result : Except Refusal Answer) (after : Session α),
      ((Step.call receiver .sample [.list number, .value (.integer n.toNat)]).take.run.run
        session).run journal = ((result, after), journal) ∧
      (n.toNat ≤ items.length → ∃ picked, (g.sample items n.toNat).1 = .ok picked ∧
        result = .ok (.list session.lists.length) ∧ after = { session with
          generators := session.generators.set receiver (g.sample items n.toNat).2
          lists := session.lists ++ [picked] }) ∧
      ((∃ refusal, result = .error refusal) ↔ items.length < n.toNat) ∧
      ∀ refusal, result = .error refusal →
        refusal.kind.name = "ValueError" ∧ after = session ∧
        g.sample items n.toNat = (.error ⟨n.toNat, items.length⟩, g) ∧
        refusal.message? = some (Shortage.message ⟨n.toNat, items.length⟩) := by
  refine ⟨shuffle_run hreceiver hlist journal, fun n => ?_⟩
  by_cases hlt : items.length < n.toNat
  · refine ⟨_, _, sample_run_of_lt hreceiver hlist hlt journal, fun hle => absurd hlt (by omega),
      iff_of_true ⟨_, rfl⟩ hlt, ?_⟩
    rintro _ ⟨⟩
    exact ⟨rfl, rfl, IndexSource.sample_of_lt _ hlt g, rfl⟩
  · obtain ⟨picked, hpicked⟩ : ∃ picked, (g.sample items n.toNat).1 = .ok picked := by
      by_cases hpos : n.toNat = 0
      · exact ⟨[], by rw [hpos]; rfl⟩
      · exact ⟨_, congrArg Prod.fst (IndexSource.sample_of_le _ hpos (Nat.le_of_not_lt hlt) g)⟩
    have hsample : g.sample items n.toNat = (.ok picked, (g.sample items n.toNat).2) :=
      Prod.ext hpicked rfl
    refine ⟨_, _, sample_run_of_ok hreceiver hlist hsample journal,
      fun _ => ⟨picked, hpicked, rfl, rfl⟩, iff_of_false (fun ⟨_, h⟩ => nomatch h) hlt, ?_⟩
    rintro _ ⟨⟩

/-- Of two letters that are there twice and three times, six cannot be selected. -/
theorem list_selections_agree_letters :
    ([Generator.ofSeed 5][0]? = some (Generator.ofSeed 5) ∧
      [['a'], ['a', 'b', 'b', 'a', 'b']][1]? = some ['a', 'b', 'b', 'a', 'b']) ∧
    ((Step.call 0 .shuffle [.list 1]).take.run.run (⟨.unbound 0, [.ofSeed 5],
      [['a'], ['a', 'b', 'b', 'a', 'b']]⟩ : Session Char)).run [] =
        ((.ok .nothing, ⟨.unbound 0,
          [((Generator.ofSeed 5).shuffle ['a', 'b', 'b', 'a', 'b']).2],
          [['a'], ((Generator.ofSeed 5).shuffle ['a', 'b', 'b', 'a', 'b']).1]⟩), []) ∧
    ∃ refusal,
      ((Step.call 0 .sample [.list 1, .value (.integer 6)]).take.run.run (⟨.unbound 0, [.ofSeed 5],
        [['a'], ['a', 'b', 'b', 'a', 'b']]⟩ : Session Char)).run [] =
          ((.error refusal, ⟨.unbound 0, [.ofSeed 5], [['a'], ['a', 'b', 'b', 'a', 'b']]⟩), []) ∧
      refusal.kind.name = "ValueError" := by
  have hreceiver : (⟨.unbound 0, [.ofSeed 5], [['a'], ['a', 'b', 'b', 'a', 'b']]⟩ :
      Session Char).generators[0]? = some (.ofSeed 5) := rfl
  have hlist : (⟨.unbound 0, [.ofSeed 5], [['a'], ['a', 'b', 'b', 'a', 'b']]⟩ :
      Session Char).lists[1]? = some ['a', 'b', 'b', 'a', 'b'] := rfl
  obtain ⟨hshuffle, hsample⟩ := list_selections_agree hreceiver hlist []
  obtain ⟨result, after, hrun, _, hiff, hrefused⟩ := hsample 6
  obtain ⟨refusal, rfl⟩ := hiff.mpr (by decide)
  obtain ⟨hkind, rfl, _⟩ := hrefused refusal rfl
  exact ⟨⟨hreceiver, hlist⟩, hshuffle, refusal, hrun, hkind⟩

end Session

end Redraw.Dynamic
