import Redraw.Command.Arguments
import Redraw.Proofs.Stream.Numeral

/-!
# What accepted arguments ask for

Arguments put values into a draft, one option at a time. What every option keeps true of the draft
is true of it at the end, in whatever order and form the options are given. So no accepted argument
asks for draws below zero: one option sets a bound, and takes no zero.
-/

namespace Redraw

/-- What a result says when there is one. -/
def Ensures {ε α : Type} (P : α → Prop) (result : Except ε α) : Prop :=
  ∀ a, result = .ok a → P a

namespace Ensures

variable {ε α β : Type} {P : α → Prop} {Q : β → Prop}

theorem ok {a : α} (h : P a) : Ensures P (.ok a : Except ε α) := by
  rintro _ ⟨⟩
  exact h

theorem error (fault : ε) : Ensures P (.error fault) :=
  fun _ h => nomatch h

theorem bind {result : Except ε α} {next : α → Except ε β} (h : Ensures P result)
    (h' : ∀ a, P a → Ensures Q (next a)) : Ensures Q (result >>= next) := by
  cases result with
  | error fault => exact error fault
  | ok a => exact h' a (h a rfl)

end Ensures

section Keeping

variable (P : ArgumentDraft → Prop)

/-- Whatever value is read, putting it into a draft keeps the property. -/
def ValueReader.Keeps (read : ValueReader) : Prop :=
  ∀ text, Ensures (fun put => ∀ draft, P draft → P (put draft)) (read text)

/-- Whatever the effect puts into a draft, the property is kept. -/
def Effect.Keeps : Effect → Prop
  | .flag put => ∀ draft, P draft → P (put draft)
  | .value read => read.Keeps P
  | .stop _ => True

/-- The draft has the property and the open option keeps it. -/
structure Progress.Keeps (p : Progress) : Prop where
  /-- The draft has the property. -/
  draft : P p.draft
  /-- An option that is open keeps it. -/
  pending : ∀ o ∈ p.pending, o.read.Keeps P

end Keeping

variable {P : ArgumentDraft → Prop}

namespace CommandOption

theorem ensures_give (option : CommandOption) {read : ValueReader} (h : read.Keeps P)
    (text : String) {draft : ArgumentDraft} (hdraft : P draft) :
    Ensures P (option.give read text draft) := by
  unfold give
  split
  · exact .error _
  · exact (h text).bind fun put hput => .ok (hput draft hdraft)

end CommandOption

namespace Progress

variable {p : Progress}

theorem Keeps.settle (h : p.Keeps P) : Ensures P p.settle := by
  obtain ⟨draft, _ | ⟨option, read, _ | text⟩⟩ := p
  · exact .ok h.draft
  · exact .error _
  · exact option.ensures_give (h.pending _ rfl) text h.draft

theorem keeps_of_draft {draft : ArgumentDraft} (h : P draft) : Keeps P ⟨draft, none⟩ :=
  ⟨h, fun _ ho => nomatch ho⟩

theorem Keeps.answer (h : p.Keeps P) (text : String) : (p.answer text).Keeps P := by
  obtain ⟨draft, _ | ⟨option, read, value⟩⟩ := p
  · exact keeps_of_draft h.draft
  · refine ⟨h.draft, ?_⟩
    rintro _ ⟨⟩
    exact h.pending ⟨option, read, value⟩ rfl

theorem Keeps.take {option : CommandOption} (h : p.Keeps P) (hoption : option.effect.Keeps P)
    (attached : Option String) : Ensures (Keeps P) (p.take option attached) := by
  unfold Progress.take
  split <;> rename_i he
  · rw [he] at hoption
    refine h.settle.bind fun draft hdraft => ?_
    exact (option.ensures_give hoption _ hdraft).bind fun draft hdraft =>
      .ok (keeps_of_draft hdraft)
  · rw [he] at hoption
    refine h.settle.bind fun draft hdraft => .ok ⟨hdraft, ?_⟩
    rintro _ ⟨⟩
    exact hoption
  · rw [he] at hoption
    refine h.settle.bind fun draft hdraft => ?_
    split
    · exact .error _
    · exact .ok (keeps_of_draft (hoption draft hdraft))
  · exact h.settle.bind fun _ _ => .error _
  · exact .error _

variable {options : List CommandOption}

theorem Keeps.takeLong (h : p.Keeps P) (hoptions : ∀ option ∈ options, option.effect.Keeps P)
    (name : String) (attached : Option String) :
    Ensures (Keeps P) (p.takeLong options name attached) := by
  unfold Progress.takeLong
  split
  · rename_i option hfound
    exact h.take (hoptions option (List.mem_of_find?_eq_some hfound)) attached
  · exact .error _

theorem Keeps.takeShort (h : p.Keeps P) (hoptions : ∀ option ∈ options, option.effect.Keeps P)
    (names : List Char) : Ensures (Keeps P) (takeShort options names p) := by
  induction names generalizing p with
  | nil => exact .ok h
  | cons name names ih =>
    rw [Progress.takeShort]
    split
    · exact .error _
    · rename_i option hfound
      have hoption := hoptions option (List.mem_of_find?_eq_some hfound)
      split
      · exact h.take hoption _
      · exact (h.take hoption none).bind fun _ h' => ih h'

end Progress

namespace CommandForm

variable {form : CommandForm} {p : Progress}

/-- What all options of a command and its items keep true of a draft. -/
structure Keeps (P : ArgumentDraft → Prop) (form : CommandForm) : Prop where
  /-- Options keep it. -/
  option : ∀ option ∈ form.allOptions, option.effect.Keeps P
  /-- Items keep it. -/
  items : ∀ draft items, P draft → P { draft with items := items }

theorem Keeps.takeItem (hform : form.Keeps P) (h : p.Keeps P) (text : String) :
    Ensures (Progress.Keeps P) (form.takeItem text p) := by
  unfold CommandForm.takeItem
  split
  · exact h.settle.bind fun draft hdraft => .ok (Progress.keeps_of_draft (hform.items _ _ hdraft))
  · exact .error _

theorem Keeps.takeItems (hform : form.Keeps P) (h : p.Keeps P) (texts : List String) :
    Ensures (Progress.Keeps P) (form.takeItems texts p) := by
  induction texts generalizing p with
  | nil => exact .ok h
  | cons text texts ih => exact (hform.takeItem h text).bind fun _ h' => ih h'

/-- What every option of a command keeps is true of the draft when all arguments are read. -/
theorem Keeps.read (hform : form.Keeps P) (h : p.Keeps P) (texts : List String) :
    Ensures P (form.read texts p) := by
  induction texts generalizing p with
  | nil => exact h.settle
  | cons text texts ih =>
    rw [CommandForm.read]
    split
    · exact (hform.takeItems h texts).bind fun _ h' => h'.settle
    · exact (h.takeLong hform.option _ _).bind fun _ h' => ih h'
    · exact (h.takeShort hform.option _).bind fun _ h' => ih h'
    · split
      · exact ih (h.answer _)
      · exact (hform.takeItem h _).bind fun _ h' => ih h'

end CommandForm

/-- No bound, or one that is not zero. -/
def ArgumentDraft.Bounded (draft : ArgumentDraft) : Prop :=
  draft.bound ≠ some 0

/-- No draw that a command makes is below zero. -/
def Command.Bounded : Command → Prop
  | .draw _ _ bound _ => bound ≠ 0
  | .resume _ _ _ bound => bound ≠ 0
  | _ => True

namespace CommandOption

theorem keeps_path {put : String → ArgumentDraft → ArgumentDraft}
    (h : ∀ text draft, P draft → P (put text draft)) : (path put).Keeps P := by
  intro text
  dsimp only
  split
  · exact .error _
  · exact .ok (h text)

theorem keeps_number {least limit : Nat} {put : Nat → ArgumentDraft → ArgumentDraft}
    (h : ∀ n, least ≤ n → n < limit → ∀ draft, P draft → P (put n draft)) :
    (number least limit put).Keeps P := by
  intro text
  dsimp only
  split
  · rename_i n hread
    split
    · rename_i hleast
      exact .ok (h n hleast (Numeral.read?_eq_some_iff.mp hread).2.2.2)
    · exact .error _
  · exact .error _

/-- The option that sets the bound takes no zero. -/
theorem keeps_max : max.effect.Keeps ArgumentDraft.Bounded := by
  refine keeps_number fun n hleast hlimit draft _ hzero => ?_
  have hn : n = 0 := by
    have hword := congrArg UInt32.toNat (Option.some.inj hzero)
    rwa [UInt32.toNat_ofNat_of_lt' hlimit] at hword
  omega

end CommandOption

namespace CommandForm

open CommandOption

/-- The options of commands. -/
def everyOption : List CommandOption :=
  [.config, .verbose, .help, .seed, .count, .max, .real, .choices, .skip, .out, .state, .json]

theorem keeps_of_mem_everyOption :
    ∀ option ∈ everyOption, option.effect.Keeps ArgumentDraft.Bounded := by
  simp only [everyOption, List.forall_mem_cons]
  -- No other option than the one for the bound puts a bound into a draft.
  exact ⟨keeps_path fun _ _ h => h, fun _ h => h, trivial, keeps_number fun _ _ _ _ h => h,
    keeps_number fun _ _ _ _ h => h, keeps_max, fun _ h => h, keeps_number fun _ _ _ _ h => h,
    keeps_number fun _ _ _ _ h => h, keeps_path fun _ _ h => h, keeps_path fun _ _ h => h,
    fun _ h => h, List.forall_mem_nil _⟩

theorem allOptions_subset : ∀ form ∈ all, form.allOptions ⊆ everyOption := by
  simp [all, allOptions, everyOption, List.cons_subset]

theorem keeps_of_mem_all {form : CommandForm} (h : form ∈ all) :
    form.Keeps ArgumentDraft.Bounded :=
  ⟨fun option ho => keeps_of_mem_everyOption option (allOptions_subset form h ho),
    fun _ _ h => h⟩

/-- From a draft that is read a command is made whose bound is the draft's or the greatest. -/
theorem ensures_complete {form : CommandForm} (h : form ∈ all) {draft : ArgumentDraft}
    (hdraft : draft.Bounded) : Ensures Command.Bounded (form.complete draft) := by
  have hbound : draft.bound.getD defaultBound ≠ 0 := by
    cases hbound : draft.bound with
    | none => decide
    | some bound => exact fun h0 => hdraft (hbound.trans (congrArg some h0))
  have hrequired {α : Type} (value : Option α) : Ensures (fun _ => True) (required value) :=
    fun _ _ => trivial
  simp only [all, List.mem_cons, List.not_mem_nil, or_false] at h
  rcases h with rfl | rfl | rfl | rfl | rfl | rfl
  · exact .ok trivial
  · exact .ok hbound
  · exact .ok trivial
  · exact (hrequired _).bind fun _ _ => .ok trivial
  · exact (hrequired _).bind fun _ _ => .ok trivial
  · exact (hrequired _).bind fun _ _ => .ok hbound

end CommandForm

namespace Invocation

theorem ensures_read (arguments : List String) (p : Progress) :
    Ensures (fun invocation => invocation.command.Bounded) (read arguments p) := by
  have hany {α : Type} (result : Except Usage α) : Ensures (fun _ => True) result :=
    fun _ _ => trivial
  induction arguments, p using Invocation.read.induct with
  | case1 p =>
    rw [Invocation.read]
    exact (hany _).bind fun _ _ => .error _
  | case2 text p htext ih =>
    rw [Invocation.read, htext]
    exact ih
  | case3 text p htext word texts =>
    rw [Invocation.read, htext]
    exact .error _
  | case4 text texts p name value htext ih =>
    rw [Invocation.read.eq_def]
    simp only [htext]
    exact (hany _).bind fun p _ => ih p
  | case5 text texts p names htext ih =>
    rw [Invocation.read.eq_def]
    simp only [htext]
    exact (hany _).bind fun p _ => ih p
  | case6 text texts p word htext hwaiting ih =>
    rw [Invocation.read.eq_def]
    simp only [htext, hwaiting, if_true]
    exact ih
  | case7 text texts p hwaiting htext =>
    rw [Invocation.read.eq_def]
    simp only [htext, hwaiting, if_true]
    exact .error _
  | case8 text texts p word htext hwaiting hhelp hname =>
    rw [Invocation.read.eq_def]
    simp only [htext, hwaiting, hhelp, if_false, hname]
    exact .error _
  | case9 text texts p word htext hwaiting hhelp form hname =>
    rw [Invocation.read.eq_def]
    simp only [htext, hwaiting, hhelp, if_false, hname]
    have hform := List.mem_of_find?_eq_some hname
    have hkeeps := CommandForm.keeps_of_mem_all hform
    have hfresh : Progress.Keeps ArgumentDraft.Bounded {} :=
      Progress.keeps_of_draft (fun h => nomatch h)
    exact (hkeeps.read hfresh texts).bind fun after hafter =>
      (CommandForm.ensures_complete hform hafter).bind fun command hcommand =>
        (hany _).bind fun before _ => .ok hcommand

/-- Accepted arguments ask for no draws below zero. -/
theorem bounded_ofArguments {arguments : List String} {invocation : Invocation}
    (h : ofArguments arguments = .ok invocation) : invocation.command.Bounded :=
  ensures_read arguments {} invocation h

end Invocation

end Redraw
