import Statechart.Proofs.Behaviour

/-!
# Misuse and questions

What a caller gets out of a run, call by call. Which calls are refused is told by the start that
succeeded before, if any, and the configuration by the last call that started or processed. A run
without its refused calls, or without its questions and its requests for a history too, goes the
same way: the calls that are left are answered, logged and performed as they were.
-/

namespace Statechart

variable {C E A S : Type}

inductive Answer
  | settled (configuration : Configuration)
  | accepted (accepts : Bool)
  | refused (misuse : Misuse)
  /-- A history is kept from here on; there is nothing to answer. -/
  | noted
  deriving DecidableEq, Repr

def Answer.of {α : Type} (granted : α → Answer) : Except Misuse α → Answer
  | .ok result => granted result
  | .error misuse => .refused misuse

namespace Execution

/-- A call with what came of it: the answer, what was logged, and the history held afterwards. -/
structure Exchange (E : Type) where
  call : Call E
  answer : Answer
  log : List Log.Entry
  history : Option History

namespace Exchange

def fails (exchange : Exchange E) : Bool :=
  match exchange.answer with
  | .refused _ => true
  | .settled _ | .accepted _ | .noted => false

/-- The configuration that a start or the processing of an event led to. -/
def settled? (exchange : Exchange E) : Option Configuration :=
  match exchange.call, exchange.answer with
  | .start, .settled configuration | .process _ _, .settled configuration => some configuration
  | _, _ => none

/-- A start or the processing of an event, and it did not fail. -/
def acts (exchange : Exchange E) : Bool :=
  match exchange.call with
  | .start | .process _ _ => !exchange.fails
  | .accepts _ | .configuration | .withHistory _ => false

def starts (exchange : Exchange E) : Bool :=
  match exchange.call with
  | .start => !exchange.fails
  | .process _ _ | .accepts _ | .configuration | .withHistory _ => false

def reply (exchange : Exchange E) : Answer × List Log.Entry :=
  (exchange.answer, exchange.log)

/-- An exchange with the times left out. -/
def untimed (exchange : Exchange E) :
    (Answer × List Log.Entry) ×
      Option (List (String × Configuration × Configuration × List String) × Nat) :=
  (exchange.reply, exchange.history.map History.untimed)

end Exchange

/-- Whether a start succeeded. -/
def Begun (exchanges : List (Exchange E)) : Prop :=
  ∃ exchange ∈ exchanges, exchange.starts = true

/-- The configuration that the last successful start or processing led to. -/
def latest (exchanges : List (Exchange E)) : Option Configuration :=
  (exchanges.filterMap Exchange.settled?).getLast?

theorem begun_cons (exchange : Exchange E) (rest : List (Exchange E)) :
    Begun (exchange :: rest) ↔ exchange.starts = true ∨ Begun rest :=
  List.exists_mem_cons_iff ..

theorem latest_cons (exchange : Exchange E) (rest : List (Exchange E)) :
    latest (exchange :: rest) = (latest rest).or exchange.settled? := by
  rw [latest, latest, List.filterMap_cons]
  cases exchange.settled? with
  | none => exact (Option.or_none ..).symm
  | some configuration =>
    rw [List.getLast?_cons]
    cases (rest.filterMap Exchange.settled?).getLast? <;> rfl

section Calls

variable [Event E] [Action A] [Sink A S]

def answer (execution : Execution C E A S) : Call E → Answer
  | .start => .of (.settled ·.configuration) execution.start
  | .process event time => .of (.settled ·.configuration) (execution.process event time)
  | .accepts event => .of .accepted (execution.accepts event)
  | .configuration => .of .settled execution.configuration
  | .withHistory _ => .noted

def logged (execution : Execution C E A S) : Call E → List Log.Entry
  | .start => execution.start.toOption.elim [] (·.log)
  | .process event time => (execution.process event time).toOption.elim [] (·.log)
  | .accepts _ | .configuration | .withHistory _ => []

def exchange (execution : Execution C E A S) (call : Call E) : Exchange E :=
  ⟨call, execution.answer call, execution.logged call, (execution.call call).history⟩

def exchanges (execution : Execution C E A S) : List (Call E) → List (Exchange E)
  | [] => []
  | call :: rest => execution.exchange call :: (execution.call call).exchanges rest

/-! ## One call -/

theorem answer_start (execution : Execution C E A S) (misuse : Misuse) :
    execution.answer (.start : Call E) = .refused misuse ↔
      misuse = .alreadyStarted ∧ execution.isStarted = true := by
  rw [answer, start, isStarted]
  cases execution.active with
  | none => simp [Answer.of]
  | some active => simp [Answer.of, eq_comm]

theorem answer_of_ne_start (execution : Execution C E A S) {call : Call E} (hStart : call ≠ .start)
    (hHistory : ∀ limit, call ≠ .withHistory limit) (misuse : Misuse) :
    execution.answer call = .refused misuse ↔
      misuse = .notStarted ∧ execution.isStarted = false := by
  cases call with
  | start => exact absurd rfl hStart
  | withHistory limit => exact absurd rfl (hHistory limit)
  | process event time =>
    rw [answer, process, isStarted]
    cases execution.active <;> simp [Answer.of, eq_comm]
  | accepts event =>
    rw [answer, accepts, isStarted]
    cases execution.active <;> simp [Answer.of, eq_comm]
  | configuration =>
    rw [answer, configuration, isStarted]
    cases execution.active <;> simp [Answer.of, eq_comm]

theorem isStarted_call (execution : Execution C E A S) (call : Call E) :
    (execution.call call).isStarted =
      (execution.isStarted || (execution.exchange call).starts) := by
  cases call with
  | start =>
    rw [Execution.call, exchange, answer, start, isStarted]
    cases hActive : execution.active with
    | none => simp [Exchange.starts, Exchange.fails, Answer.of, isStarted]
    | some active => simp [isStarted, hActive]
  | process event time =>
    rw [Execution.call, process]
    cases hActive : execution.active <;> simp [isStarted, hActive, exchange, Exchange.starts]
  | accepts | configuration | withHistory =>
    simp [Execution.call, exchange, Exchange.starts, isStarted, withHistory]

theorem configuration_call (execution : Execution C E A S) (call : Call E) :
    (execution.call call).configuration =
      (execution.exchange call).settled?.elim execution.configuration .ok := by
  cases call with
  | start =>
    rw [Execution.call, exchange, answer, start]
    cases execution.active <;> rfl
  | process event time =>
    rw [Execution.call, exchange, answer, process]
    cases execution.active <;> rfl
  | accepts | configuration | withHistory => rfl

/-- A call that fails leaves no trace. -/
theorem of_fails {execution : Execution C E A S} {call : Call E}
    (hFails : (execution.exchange call).fails = true) :
    execution.call call = execution ∧ execution.logged call = [] := by
  rw [exchange, Exchange.fails] at hFails
  cases call with
  | start =>
    rw [answer] at hFails
    cases hStart : execution.start with
    | ok outcome =>
      rw [hStart] at hFails
      cases hFails
    | error misuse =>
      rw [Execution.call, logged, hStart]
      exact ⟨rfl, rfl⟩
  | process event time =>
    rw [answer] at hFails
    cases hProcess : execution.process event time with
    | ok outcome =>
      rw [hProcess] at hFails
      cases hFails
    | error misuse =>
      rw [Execution.call, logged, hProcess]
      exact ⟨rfl, rfl⟩
  | accepts | configuration => exact ⟨rfl, rfl⟩
  | withHistory limit => cases hFails

/-- A call that does not act logs nothing, and all that it may touch is the history. -/
theorem of_not_acts {execution : Execution C E A S} {call : Call E}
    (hActs : (execution.exchange call).acts = false) :
    (∃ history, execution.call call = { execution with history := history }) ∧
      execution.logged call = [] := by
  cases call with
  | start | process =>
    have hFails := (Bool.not_eq_eq_eq_not ..).mp hActs
    exact ⟨⟨execution.history, (of_fails hFails).1⟩, (of_fails hFails).2⟩
  | accepts | configuration => exact ⟨⟨execution.history, rfl⟩, rfl⟩
  | withHistory limit => exact ⟨⟨some (.withLimit limit), rfl⟩, rfl⟩

/-! ## Executions that behave alike -/

section Alike

variable {execution execution' : Execution C E A S} (hBehaves : BehavesAs execution execution')
  {call call' : Call E} (hCall : Call.SameButTime call call')

include hBehaves hCall

theorem BehavesAs.answer : execution'.answer call' = execution.answer call := by
  have hOf : ∀ result : Except Misuse (Outcome C E A S),
      Answer.of (.settled ·.configuration) result =
        Answer.of (.settled ·.1) (result.map Outcome.shown) := by
    intro result
    cases result <;> rfl
  cases hCall with
  | process event time time' =>
    rw [Execution.answer, Execution.answer, hOf, hOf, hBehaves.process event time time']
  | same =>
    cases call with
    | start => rw [Execution.answer, Execution.answer, hOf, hOf, hBehaves.start]
    | process event time =>
      rw [Execution.answer, Execution.answer, hOf, hOf, hBehaves.process event time time]
    | accepts event => rw [Execution.answer, Execution.answer, hBehaves.accepts]
    | configuration => rw [Execution.answer, Execution.answer, hBehaves.configuration]
    | withHistory limit => rfl

theorem BehavesAs.logged : execution'.logged call' = execution.logged call := by
  have hLog : ∀ result : Except Misuse (Outcome C E A S),
      result.toOption.elim [] (·.log) = (result.map Outcome.shown).toOption.elim [] (·.2) := by
    intro result
    cases result <;> rfl
  cases hCall with
  | process event time time' =>
    rw [Execution.logged, Execution.logged, hLog, hLog, hBehaves.process event time time']
  | same =>
    cases call with
    | start => rw [Execution.logged, Execution.logged, hLog, hLog, hBehaves.start]
    | process event time =>
      rw [Execution.logged, Execution.logged, hLog, hLog, hBehaves.process event time time]
    | accepts | configuration | withHistory => rfl

end Alike

/-! ## Runs of calls -/

theorem isStarted_calls (execution : Execution C E A S) (calls : List (Call E)) :
    (execution.calls calls).isStarted = true ↔
      execution.isStarted = true ∨ Begun (execution.exchanges calls) := by
  induction calls generalizing execution with
  | nil => simp [Execution.calls, exchanges, Begun]
  | cons call rest ih =>
    rw [calls_cons, ih, isStarted_call, Bool.or_eq_true, or_assoc, exchanges, begun_cons]

theorem configuration_calls (execution : Execution C E A S) (calls : List (Call E)) :
    (execution.calls calls).configuration =
      (latest (execution.exchanges calls)).elim execution.configuration .ok := by
  induction calls generalizing execution with
  | nil => rfl
  | cons call rest ih =>
    rw [calls_cons, ih, configuration_call, exchanges, latest_cons]
    cases latest ((execution.call call).exchanges rest) <;> rfl

/-- Two runs of which the second one has only the calls that are kept, at times of its own, stay
related if a kept call keeps them so and a call that is left out does too. -/
theorem exchanges_of_kept {β : Type} (related : Execution C E A S → Execution C E A S → Prop)
    (keeps : Exchange E → Bool) (shown : Exchange E → β)
    (hKept : ∀ execution execution' call call', related execution execution' →
      Call.SameButTime call call' → related (execution.call call) (execution'.call call') ∧
        shown (execution'.exchange call') = shown (execution.exchange call))
    (hLeft : ∀ execution execution' call, related execution execution' →
      keeps (execution.exchange call) = false → related (execution.call call) execution')
    {execution execution' : Execution C E A S} (hRelated : related execution execution')
    (calls : List (Call E)) {kept : List (Call E)}
    (hCalls : List.Forall₂ Call.SameButTime
      (((execution.exchanges calls).filter keeps).map (·.call)) kept) :
    related (execution.calls calls) (execution'.calls kept) ∧
      (execution'.exchanges kept).map shown =
        ((execution.exchanges calls).filter keeps).map shown := by
  induction calls generalizing execution execution' kept with
  | nil =>
    cases hCalls
    exact ⟨hRelated, rfl⟩
  | cons call rest ih =>
    rw [exchanges] at hCalls ⊢
    cases hKeeps : keeps (execution.exchange call) with
    | false =>
      rw [List.filter_cons_of_neg (by simp [hKeeps])] at hCalls ⊢
      exact ih (hLeft execution execution' call hRelated hKeeps) hCalls
    | true =>
      rw [List.filter_cons_of_pos hKeeps] at hCalls ⊢
      cases hCalls with
      | cons hCall hRest =>
        obtain ⟨hAfter, hShown⟩ := hKept _ _ _ _ hRelated hCall
        obtain ⟨hEnd, hExchanges⟩ := ih hAfter hRest
        exact ⟨hEnd, congrArg₂ List.cons hShown hExchanges⟩

theorem log_filter_acts (execution : Execution C E A S) (calls : List (Call E)) :
    ((execution.exchanges calls).filter (·.acts)).flatMap (·.log) =
      (execution.exchanges calls).flatMap (·.log) := by
  induction calls generalizing execution with
  | nil => rfl
  | cons call rest ih =>
    rw [exchanges, List.flatMap_cons, ← ih]
    cases hActs : (execution.exchange call).acts with
    | true => rw [List.filter_cons_of_pos hActs, List.flatMap_cons]
    | false =>
      have hLog : (execution.exchange call).log = [] := (of_not_acts hActs).2
      rw [List.filter_cons_of_neg (by simp [hActs]), hLog, List.nil_append]

section Alike

variable {execution execution' : Execution C E A S}

/-- Only the calls that act are kept. -/
theorem BehavesAs.exchanges_acts (hBehaves : BehavesAs execution execution') (calls : List (Call E))
    {kept : List (Call E)} (hCalls : List.Forall₂ Call.SameButTime
      (((execution.exchanges calls).filter (·.acts)).map (·.call)) kept) :
    BehavesAs (execution.calls calls) (execution'.calls kept) ∧
      (execution'.exchanges kept).map Exchange.reply =
        ((execution.exchanges calls).filter (·.acts)).map Exchange.reply := by
  refine exchanges_of_kept BehavesAs Exchange.acts Exchange.reply ?_ ?_ hBehaves calls hCalls
  · intro execution execution' call call' hBehaves hCall
    exact ⟨hBehaves.call hCall, congrArg₂ Prod.mk (hBehaves.answer hCall) (hBehaves.logged hCall)⟩
  · intro execution execution' call hBehaves hActs
    obtain ⟨⟨history, hCall⟩, _⟩ := of_not_acts hActs
    rw [hCall]
    exact ⟨hBehaves.machine, hBehaves.context, hBehaves.sink, hBehaves.active⟩

/-- All calls that do not fail are kept. -/
theorem BehavesAs.exchanges_not_fails (hBehaves : BehavesAs execution execution')
    (hHistory : execution'.history.map History.untimed = execution.history.map History.untimed)
    (calls : List (Call E)) {kept : List (Call E)} (hCalls : List.Forall₂ Call.SameButTime
      (((execution.exchanges calls).filter fun exchange => !exchange.fails).map (·.call)) kept) :
    (execution'.calls kept).history.map History.untimed =
        (execution.calls calls).history.map History.untimed ∧
      (execution'.exchanges kept).map Exchange.untimed =
        ((execution.exchanges calls).filter fun exchange => !exchange.fails).map
          Exchange.untimed := by
  let related (execution execution' : Execution C E A S) : Prop := BehavesAs execution execution' ∧
    execution'.history.map History.untimed = execution.history.map History.untimed
  have hKept : ∀ execution execution' call call', related execution execution' →
      Call.SameButTime call call' → related (execution.call call) (execution'.call call') ∧
        (execution'.exchange call').untimed = (execution.exchange call).untimed := by
    rintro execution execution' call call' ⟨hBehaves, hHistory⟩ hCall
    have hAfter := hBehaves.untimed_call hHistory hCall
    exact ⟨⟨hBehaves.call hCall, hAfter⟩, congrArg₂ Prod.mk
      (congrArg₂ Prod.mk (hBehaves.answer hCall) (hBehaves.logged hCall)) hAfter⟩
  have hLeft : ∀ execution execution' call, related execution execution' →
      (!(execution.exchange call).fails) = false → related (execution.call call) execution' := by
    intro execution execution' call hRelated hFails
    rw [(of_fails (by simpa using hFails)).1]
    exact hRelated
  have hRun := exchanges_of_kept related (fun exchange => !exchange.fails) Exchange.untimed hKept
    hLeft ⟨hBehaves, hHistory⟩ calls hCalls
  exact ⟨hRun.1.2, hRun.2⟩

end Alike

/-- After whatever calls, a start is refused exactly if one succeeded before, and the other calls
that can be refused exactly if none did; the configuration is the one that the latest start or
processing led to. Without its questions, its refused calls and its requests for a history a run
is answered, logged and performed as it was, and with only its refused calls left out its history
is the same too, after each call and at the end; the times of the steps aside, as the calls that
are left may come at other times. -/
theorem misuse_and_questions_leave_no_trace (machine : Machine C E A) (context : C) (sink : S)
    (calls : List (Call E)) :
    let fresh : Execution C E A (Recorder A S) := .new machine context ⟨sink, []⟩
    let exchanges := fresh.exchanges calls
    (∀ misuse, (fresh.calls calls).answer (.start : Call E) = .refused misuse ↔
        misuse = .alreadyStarted ∧ Begun exchanges) ∧
      (∀ call : Call E, call ≠ .start → (∀ limit, call ≠ .withHistory limit) →
        ∀ misuse, (fresh.calls calls).answer call = .refused misuse ↔
          misuse = .notStarted ∧ ¬ Begun exchanges) ∧
      (fresh.calls calls).answer (.configuration : Call E) =
        (latest exchanges).elim (.refused .notStarted) .settled ∧
      (∀ kept, List.Forall₂ Call.SameButTime ((exchanges.filter (·.acts)).map (·.call)) kept →
        (fresh.exchanges kept).map Exchange.reply =
            (exchanges.filter (·.acts)).map Exchange.reply ∧
          (fresh.calls kept).sink = (fresh.calls calls).sink ∧
          (fresh.exchanges kept).flatMap (·.log) = exchanges.flatMap (·.log)) ∧
      ∀ kept, List.Forall₂ Call.SameButTime
          ((exchanges.filter fun exchange => !exchange.fails).map (·.call)) kept →
        (fresh.exchanges kept).map Exchange.untimed =
            (exchanges.filter fun exchange => !exchange.fails).map Exchange.untimed ∧
          (fresh.calls kept).history.map History.untimed =
            (fresh.calls calls).history.map History.untimed := by
  intro fresh exchanges
  have hBegun : (fresh.calls calls).isStarted = true ↔ Begun exchanges := by
    rw [isStarted_calls]
    exact or_iff_right Bool.false_ne_true
  refine ⟨?start, ?others, ?configuration, ?acting, ?granted⟩
  case start =>
    intro misuse
    rw [answer_start, hBegun]
  case others =>
    intro call hStart hHistory misuse
    rw [answer_of_ne_start _ hStart hHistory, ← hBegun, Bool.not_eq_true]
  case configuration =>
    rw [answer, configuration_calls]
    cases latest exchanges <;> rfl
  case acting =>
    intro kept hKept
    obtain ⟨hBehaves, hReplies⟩ := (BehavesAs.refl fresh).exchanges_acts calls hKept
    refine ⟨hReplies, hBehaves.sink, ?_⟩
    have hLogs := congrArg (fun replies => replies.flatMap Prod.snd) hReplies
    rw [List.flatMap_map, List.flatMap_map] at hLogs
    exact hLogs.trans (log_filter_acts fresh calls)
  case granted =>
    intro kept hKept
    obtain ⟨hHistory, hExchanges⟩ := (BehavesAs.refl fresh).exchanges_not_fails rfl calls hKept
    exact ⟨hExchanges, hHistory⟩

end Calls

end Execution

end Statechart
