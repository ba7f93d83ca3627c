import SiteConfig.Logging.Record
/-!
# Log filters

Which events and spans are logged. The environment decides on it when a logger is set up; the logger
only gives the level from which they are logged where the environment says nothing else.
-/
namespace SiteConfig

/-- What is logged: the spans, and the events in the spans around them that are. -/
structure LogFilter where
  enablesEvent : Option Span → Event → Bool
  enablesSpan : Span → Bool

namespace LogFilter

def ofLevel (level : Level) : LogFilter where
  enablesEvent _ event := decide (level.severity ≤ event.level.severity)
  enablesSpan span := decide (level.severity ≤ span.level.severity)

/-- The record of an event in a span, none if the event does not pass. A span that does not pass does
not show. -/
def record? (filter : LogFilter) (span : Option Span) (event : Event) : Option LogRecord :=
  let span := span.filter filter.enablesSpan
  if filter.enablesEvent span event then some ⟨event, span⟩ else none

end LogFilter

/-- The surroundings in which a logger is set up. -/
structure LogContext where
  /-- The working directory of the process, by its steps from the root. -/
  directory : List String
  /-- The filter that the environment makes of the level of a logger. -/
  filter : Level → LogFilter

end SiteConfig
