import SiteConfig.Event
/-!
# Reported results

Results with the events that were caused on the way, in order. Events stay when an operation fails.
-/
namespace SiteConfig

/-- The outcome of an operation that reports events. -/
structure Reported (ε α : Type) where
  events : List Event
  result : Except ε α

namespace Reported

variable {ε α β : Type}

def event (e : Event) : Reported ε Unit := ⟨[e], .ok ()⟩

def ofExcept (result : Except ε α) : Reported ε α := ⟨[], result⟩

def mapError {δ : Type} (f : ε → δ) (x : Reported ε α) : Reported δ α :=
  ⟨x.events, x.result.mapError f⟩

/-- The second operation runs if the first succeeds; its events follow. -/
def andThen (x : Reported ε α) (f : α → Reported ε β) : Reported ε β :=
  match x.result with
  | .ok a =>
    let next := f a
    ⟨x.events ++ next.events, next.result⟩
  | .error e => ⟨x.events, .error e⟩

instance : Monad (Reported ε) where
  pure a := ⟨[], .ok a⟩
  bind := andThen

def fail (e : ε) : Reported ε α := ⟨[], .error e⟩

end Reported
end SiteConfig
