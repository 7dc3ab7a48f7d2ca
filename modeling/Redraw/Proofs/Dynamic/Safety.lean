import Redraw.Proofs.Dynamic.Selection
import Redraw.Proofs.Failing
import Redraw.Proofs.Generator.Lookups

/-!
# Sessions do not break off

Callers without types may pass anything anywhere. What is refused is refused before it is drawn
from, so that every step of a session gives something or is refused, however the session came to be.
-/

namespace Redraw.Dynamic

/-- Something that callers can go on after; no call broke off. -/
def Refusal.IsException (refusal : Refusal) : Prop :=
  refusal.kind ≠ .abort

/-- A result that is there or was refused. -/
def IsAnswer {α : Type} (result : Except Refusal α) : Prop :=
  ∀ refusal, result = .error refusal → refusal.IsException

namespace IsAnswer

variable {α β : Type}

theorem ok (a : α) : IsAnswer (.ok a) :=
  fun _ h => nomatch h

theorem error {refusal : Refusal} (h : refusal.IsException) :
    IsAnswer (.error refusal : Except Refusal α) := by
  rintro _ ⟨⟩
  exact h

theorem bind {result : Except Refusal α} {next : α → Except Refusal β} (h : IsAnswer result)
    (h' : ∀ a, IsAnswer (next a)) : IsAnswer (result >>= next) := by
  cases result with
  | error refusal => exact error (h refusal rfl)
  | ok a => exact h' a

end IsAnswer

theorem Refusal.isException_refused (fault : Fault) : (refused fault).IsException := by
  cases fault <;> exact fun h => nomatch h

theorem Value.isAnswer_below (limit : Nat) (value : Value) : IsAnswer (value.below limit) := by
  unfold Value.below
  split
  · exact .error fun h => nomatch h
  · split
    · exact .ok _
    · exact .error fun h => nomatch h
  · exact .error fun h => nomatch h

theorem isAnswer_onlyArgument (arguments : List Value) : IsAnswer (onlyArgument arguments) := by
  unfold onlyArgument
  split
  · exact .ok _
  · exact .ok _
  · exact .error fun h => nomatch h

theorem isAnswer_bound (arguments : List Value) : IsAnswer (bound arguments) := by
  refine (isAnswer_onlyArgument arguments).bind fun value => ?_
  cases value with
  | none => exact .ok _
  | some value => exact (value.isAnswer_below _).bind fun _ => .ok _

theorem Items.isAnswer_toList {α : Type} (items : Items α) : IsAnswer items.toList := by
  cases items with
  | list items => exact .ok items
  | other => exact .error fun h => nomatch h

theorem isAnswer_ofJson (text : String) : IsAnswer (ofJson text) := by
  unfold ofJson
  cases Generator.ofJson? text with
  | ok g => exact .ok g
  | error cause => exact .error (Refusal.isException_refused _)

theorem failsOnly_orRefuse {α : Type} {result : Except Refusal α} (h : IsAnswer result) :
    FailsOnly Refusal.IsException (orRefuse result) := by
  cases result with
  | ok a => exact .pure a
  | error refusal => exact .throw (h refusal rfl)

theorem failsOnly_make (arguments : List Value) :
    FailsOnly Refusal.IsException (make arguments) := by
  unfold make
  split
  · rename_i refusal hargument
    exact .throw (isAnswer_onlyArgument arguments refusal hargument)
  · exact .liftState _
  · exact .liftState _
  · rename_i value _ _
    split
    · exact .pure _
    · rename_i refusal hvalue
      exact .throw (value.isAnswer_below _ refusal hvalue)

theorem failsOnly_integerBelow (arguments : List Value) :
    FailsOnly Refusal.IsException (integerBelow arguments) := by
  refine (failsOnly_orRefuse (isAnswer_bound arguments)).bind fun bound => ?_
  split
  · exact .throw fun h => nomatch h
  · rename_i hbound
    refine FailsOnly.bind_of (fun result => ∃ value, result = .ok value) (.modifyGet _) ?_ ?_
    · rintro g journal _ ⟨⟩
      exact ⟨_, congrArg Prod.fst ((Generator.below_run bound g).trans (if_neg hbound))⟩
    · rintro _ ⟨value, rfl⟩
      exact .pure value

theorem failsOnly_shuffle {α : Type} (items : Items α) :
    FailsOnly Refusal.IsException (shuffle items) :=
  (failsOnly_orRefuse items.isAnswer_toList).bind fun _ => .bind (.modifyGet _) fun _ => .pure _

theorem failsOnly_sample {α : Type} (population : Items α) (choices : Value) :
    FailsOnly Refusal.IsException (sample population choices) := by
  refine (failsOnly_orRefuse population.isAnswer_toList).bind fun _ =>
    (failsOnly_orRefuse (choices.isAnswer_below _)).bind fun n =>
      .bind (.modifyGet _) fun result => ?_
  split
  · exact .pure _
  · exact .throw (Refusal.isException_refused _)

theorem failsOnly_save : FailsOnly Refusal.IsException save := by
  refine .bind (.modifyGet _) fun g => .bind (.lift _) fun (result, sink) => ?_
  dsimp only
  split
  · split
    · exact .pure _
    · exact .throw (Refusal.isException_refused _)
  · exact .throw (Refusal.isException_refused _)

theorem failsOnly_load (text : String) : FailsOnly Refusal.IsException (load text) := by
  refine .bind (.modifyGet _) fun g => .bind (.lift _) fun ((result, g), _) =>
    .bind (.modifyGet _) fun _ => ?_
  split
  · exact .pure _
  · exact .throw (Refusal.isException_refused _)

variable {α β : Type}

namespace Turn

theorem failsOnly_orFail {result : Except Refusal β} (h : IsAnswer result) :
    FailsOnly Refusal.IsException (orFail result : Turn α β) := by
  cases result with
  | ok b => exact .pure b
  | error refusal => exact .throw (h refusal rfl)

theorem failsOnly_withProvider {ask : ExceptT Refusal (StateT SeedProvider Logged) β}
    (h : FailsOnly Refusal.IsException ask) :
    FailsOnly Refusal.IsException (withProvider ask : Turn α β) :=
  .bind (.modifyGet _) fun _ => .bind_lift_run h fun _ _ hresult =>
    .bind (.modifyGet _) fun _ => failsOnly_orFail hresult

theorem failsOnly_withGenerator (receiver : Nat) {call : Call β}
    (h : FailsOnly Refusal.IsException call) :
    FailsOnly Refusal.IsException (withGenerator receiver call : Turn α β) := by
  refine .bind (.modifyGet _) fun session => ?_
  split
  · exact .throw fun h => nomatch h
  · exact .bind_lift_run h fun _ _ hresult =>
      .bind (.modifyGet _) fun _ => failsOnly_orFail hresult

theorem failsOnly_overwrite (argument : Argument) (items : List α) :
    FailsOnly Refusal.IsException (overwrite argument items) := by
  cases argument with
  | list number => exact .bind (.modifyGet _) fun _ => .pure _
  | value | text | generator => exact .pure _

end Turn

theorem Argument.isAnswer_toText (argument : Argument) : IsAnswer argument.toText := by
  cases argument with
  | text t => exact .ok t
  | value | list | generator => exact .error fun h => nomatch h

open Turn

theorem Method.failsOnly_perform (receiver : Nat) (method : Method) (arguments : List Argument) :
    FailsOnly Refusal.IsException (method.perform receiver arguments : Turn α Answer) := by
  unfold Method.perform
  split
  · exact (failsOnly_withGenerator receiver (failsOnly_integerBelow _)).map _
  · exact (failsOnly_withGenerator receiver (.modifyGet _)).map _
  · exact (failsOnly_withGenerator receiver (.bind (.modifyGet _) fun _ => .pure _)).map _
  · exact .bind (.modifyGet _) fun _ => .bind (failsOnly_withGenerator receiver
      (failsOnly_shuffle _)) fun _ => failsOnly_overwrite _ _
  · exact .bind (.modifyGet _) fun _ => .bind (failsOnly_withGenerator receiver
      (failsOnly_sample _ _)) fun _ => .modifyGet _
  · exact (failsOnly_withGenerator receiver failsOnly_save).map _
  · exact .bind (failsOnly_orFail (Argument.isAnswer_toText _)) fun text =>
      .bind (failsOnly_withGenerator receiver (failsOnly_load text)) fun _ => .pure _
  · exact (failsOnly_withGenerator receiver (.bind (.modifyGet _) fun _ => .pure _)).map _
  · exact .bind (.modifyGet _) fun _ => .pure _
  · exact .pure _
  · exact (failsOnly_withGenerator receiver (.map _ (.modifyGet _))).map _
  · exact .throw fun h => nomatch h

theorem Step.failsOnly_take (step : Step) :
    FailsOnly Refusal.IsException (step.take : Turn α Answer) := by
  unfold Step.take
  split
  · exact .bind (failsOnly_withProvider (failsOnly_make _)) fun _ => .modifyGet _
  · exact .bind (failsOnly_orFail (Argument.isAnswer_toText _)) fun text =>
      .bind (failsOnly_orFail (isAnswer_ofJson text)) fun g => .modifyGet _
  · exact .throw fun h => nomatch h
  · exact (failsOnly_withProvider (.liftState _)).map _
  · exact Method.failsOnly_perform _ _ _

namespace Session

/-- Every step of a session has an answer or is refused, whatever the steps before it were. -/
theorem isAnswer_run (steps : List Step) (session : Session α) (journal : Journal) :
    (((run steps).run session).run journal).1.1.length = steps.length ∧
    ∀ answer ∈ (((run steps).run session).run journal).1.1, IsAnswer answer := by
  induction steps generalizing session journal with
  | nil => exact ⟨rfl, fun _ h => nomatch h⟩
  | cons step steps ih =>
    rcases hrun : (step.take.run.run session).run journal with ⟨⟨answer, after⟩, journal'⟩
    have hanswer : IsAnswer answer := fun refusal hrefusal =>
      step.failsOnly_take session journal refusal (by rw [hrun, hrefusal])
    obtain ⟨hlength, hsteps⟩ := ih after journal'
    have hanswers : (((run (step :: steps)).run session).run journal).1.1 =
        answer :: (((run steps).run after).run journal').1.1 := by
      rw [run, StateT.run_bind, StateT.run_bind, hrun]
      rfl
    rw [hanswers]
    exact ⟨congrArg (· + 1) hlength, List.forall_mem_cons.mpr ⟨hanswer, hsteps⟩⟩

end Session

end Redraw.Dynamic
