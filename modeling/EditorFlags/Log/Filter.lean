import EditorFlags.Log.Directive

/-!
# Log filters

A filter decides which events are shown. It is a list of directives, each with a
target and the least important level that it lets through. A directive applies
to the speakers whose names begin with its target, if the event has what else is
asked for. Of the directives that apply the one that looks most closely decides,
and of equals the last. An event to which none applies is not shown.
-/

namespace EditorFlags

abbrev Filter := List Directive

namespace Filter

/-- The filter that a text is: directives between commas. -/
def parse (text : String) : Except DirectiveFault Filter :=
  ((text.toList.splitOn ',').filter (!·.isEmpty)).mapM fun part =>
    Directive.parse (String.ofList part)

/-- The filter for a number of wishes to hear more. -/
def ofVerbosity : Nat → Filter
  | 0 => [⟨"", .none, some .warn⟩]
  | 1 => [⟨"", .none, some .info⟩]
  | _ => [⟨"", .none, some .debug⟩]

/-- The filter that a text is, or else the one for the verbosity; `none` if the
text cannot even be cut into its parts. -/
def choose (text : Option String) (verbosity : Nat) : Option Filter :=
  match text.map parse with
  | none => some (ofVerbosity verbosity)
  | some (.ok filter) => some filter
  | some (.error .malformed) => some (ofVerbosity verbosity)
  | some (.error .torn) => none

/-- Of two directives the one that decides. -/
def decisive (first : Option Directive) (second : Directive) : Option Directive :=
  match first with
  | none => some second
  | some directive =>
      if directive.closeness ≤ second.closeness then some second else some directive

/-- Whether an event is shown. -/
def shows (filter : Filter) (event : Event) : Bool :=
  match (filter.filter (·.applies event)).foldl decisive none with
  | none => false
  | some directive => directive.admits event

/-- The events that are shown, in order. -/
def apply (filter : Filter) (events : List Event) : List Event :=
  events.filter filter.shows

end Filter

end EditorFlags
