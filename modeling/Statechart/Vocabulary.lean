import Statechart.Log

/-!
# Events, actions and sinks

What a machine needs to know of the world around it: the kind of an event, the name of an
action, and how an action is performed. Guards may look at the whole event; the choice of
candidates sees its kind alone.
-/

namespace Statechart

class Event (E : Type) where
  kind : E → String

class Action (A : Type) where
  name : A → String

instance : Action String where
  name action := action

/-- Something that actions are performed on; a performance may write log records. -/
class Sink (A S : Type) where
  perform : A → S → S × List Log.Record

instance {A : Type} : Sink A Unit where
  perform _ _ := ((), [])

/-- A sink that also keeps the actions it was given, in order. -/
structure Recorder (A S : Type) where
  sink : S
  performed : List A

instance {A S : Type} [Sink A S] : Sink A (Recorder A S) where
  perform action recorder :=
    let (sink, notes) := Sink.perform action recorder.sink
    (⟨sink, recorder.performed ++ [action]⟩, notes)

/-- A condition on the context and the event, with no effect of its own. -/
structure Guard (C E : Type) where
  check : C → E → Bool

instance {C E : Type} : ToString (Guard C E) where
  toString _ := "Guard(..)"

end Statechart
