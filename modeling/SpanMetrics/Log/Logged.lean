import SpanMetrics.Log.Event

/-!
# Results with their log

What an operation returns together with the events that it reports, in order. A sequence of
operations reports the events of its parts one after the other; nothing is ever taken back.
-/
namespace SpanMetrics

structure Logged (α : Type) where
  value : α
  events : List Log.Event
deriving DecidableEq

namespace Logged

variable {α β : Type}

def quiet (a : α) : Logged α := ⟨a, []⟩

def andThen (x : Logged α) (f : α → Logged β) : Logged β :=
  ⟨(f x.value).value, x.events ++ (f x.value).events⟩

instance : Monad Logged where
  pure := quiet
  bind := andThen

def emit (e : Log.Event) : Logged Unit := ⟨(), [e]⟩

def say (level : Log.Level) (message : String) : Logged Unit := emit (.say level message)

/-- The same result, with every event reported inside a span. -/
def within (span : Log.Span) (x : Logged α) : Logged α :=
  ⟨x.value, x.events.map (·.within span)⟩

@[simp] theorem value_pure (a : α) : (pure a : Logged α).value = a := rfl

@[simp] theorem events_pure (a : α) : (pure a : Logged α).events = [] := rfl

@[simp] theorem value_bind (x : Logged α) (f : α → Logged β) :
    (x >>= f).value = (f x.value).value := rfl

@[simp] theorem events_bind (x : Logged α) (f : α → Logged β) :
    (x >>= f).events = x.events ++ (f x.value).events := rfl

@[simp] theorem value_map (f : α → β) (x : Logged α) : (f <$> x).value = f x.value := rfl

@[simp] theorem events_map (f : α → β) (x : Logged α) : (f <$> x).events = x.events := by
  change x.events ++ [] = x.events
  simp

@[simp] theorem events_emit (e : Log.Event) : (emit e).events = [e] := rfl

@[simp] theorem events_say (level : Log.Level) (message : String) :
    (say level message).events = [.say level message] := rfl

@[simp] theorem value_within (span : Log.Span) (x : Logged α) :
    (x.within span).value = x.value := rfl

@[ext] theorem ext {x y : Logged α} (hv : x.value = y.value) (he : x.events = y.events) :
    x = y := by
  cases x; cases y; simp_all

instance : LawfulMonad Logged :=
  LawfulMonad.mk' Logged (fun _ => Logged.ext rfl (by simp)) (fun _ _ => Logged.ext rfl (by simp))
    (fun _ _ _ => Logged.ext rfl (by simp))

@[simp] theorem value_mapM (f : α → Logged β) (items : List α) :
    (items.mapM f).value = items.map fun a => (f a).value := by
  induction items with
  | nil => rfl
  | cons a items ih => simp only [List.mapM_cons, value_bind, value_pure, ih, List.map_cons]

end Logged
end SpanMetrics
