import Redraw.Proofs.Generator.Storing

/-!
# How work can fail

Work is put together from steps that do not fail, steps that fail in a known way, and what comes
after them. So the ways in which it can fail are read off the steps, one after the other, and what
is known of the value of a step may rule out failures of those behind it.
-/

namespace Redraw

/-- Whatever it starts from, the work fails in no other ways than these. -/
def FailsOnly {ε σ α : Type} (allowed : ε → Prop) (work : ExceptT ε (StateT σ Logged) α) : Prop :=
  ∀ s journal fault, ((work.run.run s).run journal).1.1 = .error fault → allowed fault

namespace FailsOnly

variable {ε σ α β : Type} {allowed : ε → Prop}

theorem pure (value : α) : FailsOnly allowed (pure value : ExceptT ε (StateT σ Logged) α) :=
  fun _ _ _ h => nomatch h

theorem throw {fault : ε} (h : allowed fault) :
    FailsOnly allowed (throw fault : ExceptT ε (StateT σ Logged) α) := by
  intro s journal fault' he
  cases he
  exact h

theorem modifyGet (f : σ → α × σ) :
    FailsOnly allowed (modifyGet f : ExceptT ε (StateT σ Logged) α) :=
  fun _ _ _ h => nomatch h

theorem lift (work : Logged α) :
    FailsOnly allowed (liftM work : ExceptT ε (StateT σ Logged) α) :=
  fun _ _ _ h => nomatch h

theorem liftState (work : StateT σ Logged α) :
    FailsOnly allowed (ExceptT.lift work : ExceptT ε (StateT σ Logged) α) :=
  fun _ _ _ h => nomatch h

/-- What is known of the value may be used for what comes after it. -/
theorem bind_of {work : ExceptT ε (StateT σ Logged) α} {next : α → ExceptT ε (StateT σ Logged) β}
    (known : α → Prop) (h : FailsOnly allowed work)
    (hknown : ∀ s journal value, ((work.run.run s).run journal).1.1 = .ok value → known value)
    (h' : ∀ value, known value → FailsOnly allowed (next value)) :
    FailsOnly allowed (work >>= next) := by
  intro s journal fault he
  rcases hrun : (work.run.run s).run journal with ⟨⟨failed | value, after⟩, journal'⟩
  · rw [Logged.run_bind_of_error next hrun] at he
    cases he
    exact h s journal fault (by rw [hrun])
  · rw [Logged.run_bind hrun] at he
    exact h' value (hknown s journal value (by rw [hrun])) after journal' fault he

theorem bind {work : ExceptT ε (StateT σ Logged) α} {next : α → ExceptT ε (StateT σ Logged) β}
    (h : FailsOnly allowed work) (h' : ∀ value, FailsOnly allowed (next value)) :
    FailsOnly allowed (work >>= next) :=
  bind_of (fun _ => True) h (fun _ _ _ _ => trivial) fun value _ => h' value

/-- Work of another kind is embedded by what it came to, and by how it failed. -/
theorem bind_lift_run {τ : Type} {work : ExceptT ε (StateT τ Logged) α} {start : τ}
    {next : Except ε α × τ → ExceptT ε (StateT σ Logged) β} (h : FailsOnly allowed work)
    (h' : ∀ result after, (∀ fault, result = .error fault → allowed fault) →
      FailsOnly allowed (next (result, after))) :
    FailsOnly allowed (liftM (work.run.run start) >>= next) := by
  refine bind_of (fun outcome => ∀ fault, outcome.1 = .error fault → allowed fault) (lift _) ?_
    fun outcome hknown => h' _ _ hknown
  rintro s journal _ ⟨⟩
  exact h start journal

theorem map (f : α → β) {work : ExceptT ε (StateT σ Logged) α} (h : FailsOnly allowed work) :
    FailsOnly allowed (f <$> work) := by
  rw [← bind_pure_comp]
  exact h.bind fun value => pure (f value)

end FailsOnly

end Redraw
