/-
# Choosing what is logged

Which events are shown follows from the verbosity that the arguments ask for and from log settings,
a text that can say more.  The settings are directives with commas between them: a bare level
replaces what the arguments ask for, and `component=level` sets the level of a component and of
those below it.  A component alone is shown whole.  After a slash there may stand a pattern, and
then only events in whose message it occurs are shown.  A directive or a pattern that makes no sense
is left out with a warning.

The directive with the longest name decides about an event, and of two that are equally long the
later one.
-/
import Disassembler8080.LogEvent
import Disassembler8080.Pattern.Reading

namespace Disassembler8080

/-- One rule about what is shown.  A rule without a component is about all. -/
structure LogDirective where
  component : Option String
  verbosity : Verbosity
deriving DecidableEq, Repr

/-- All rules of a run. -/
structure LogFilter where
  directives : List LogDirective
  /-- What has to occur in the message of an event. -/
  required : Option Pattern.Expression := none
deriving DecidableEq, Repr

/-- Rules together with the warnings that reading them gave. -/
structure LogSettings where
  filter : LogFilter
  warnings : List String := []
deriving DecidableEq, Repr

/-! ## 1. Deciding about an event -/

namespace LogDirective

/-- The length of the name that a directive is about. -/
def specificity (directive : LogDirective) : Nat :=
  (directive.component.map String.length).getD 0

/-- Whether a directive is about a component. -/
def covers (directive : LogDirective) (component : String) : Bool :=
  match directive.component with
  | none => true
  | some name => name.toList.isPrefixOf component.toList

end LogDirective

namespace LogFilter

/-- The rule that decides about a component. -/
def deciding (filter : LogFilter) (component : String) : Option LogDirective :=
  filter.directives.foldl
    (fun best directive =>
      if directive.covers component then
        match best with
        | none => some directive
        | some other =>
          if other.specificity ≤ directive.specificity then some directive else some other
      else best)
    none

/-- Whether an event is shown. -/
def shows (filter : LogFilter) (event : LogEvent) : Bool :=
  (match filter.deciding event.component with
    | none => false
    | some directive => directive.verbosity.shows event.severity)
  && (match filter.required with
    | none => true
    | some wanted => wanted.occursIn event.message.toList)

/-- A rule in place of one about the same component, or else as the last one. -/
def insert (filter : LogFilter) (directive : LogDirective) : LogFilter :=
  if filter.directives.any (·.component == directive.component) then
    { filter with
      directives :=
        filter.directives.map fun other =>
          if other.component = directive.component then directive else other }
  else { filter with directives := filter.directives ++ [directive] }

end LogFilter

/-! ## 2. Reading settings -/

/-- The level that a text names, in letters of either case. -/
def Verbosity.ofName? (name : List Char) : Option Verbosity :=
  match String.ofList (name.map Char.toLower) with
  | "off" => some none
  | "error" => some (some .error)
  | "warn" => some (some .warn)
  | "info" => some (some .info)
  | "debug" => some (some .debug)
  | "trace" => some (some .trace)
  | _ => none

namespace LogSettings

/-- What is said about something that makes no sense. -/
def warning (reason : String) : String := "warning: " ++ reason ++ ", ignoring it"

/-- Why a setting makes no sense. -/
def badSetting (setting : List Char) : String :=
  "invalid logging spec '" ++ String.ofList setting ++ "'"

/-- Why a pattern makes no sense. -/
def badPattern (refusal : Pattern.Refusal) : String :=
  "invalid regex filter - " ++ refusal.message

/-- Adds a rule. -/
def add (settings : LogSettings) (component : Option (List Char)) (verbosity : Verbosity) :
    LogSettings :=
  { settings with filter := settings.filter.insert ⟨component.map String.ofList, verbosity⟩ }

/-- Adds a warning. -/
def warn (settings : LogSettings) (reason : String) : LogSettings :=
  { settings with warnings := settings.warnings ++ [warning reason] }

/-- Adds the pattern that has to occur in messages. -/
def require (settings : LogSettings) (pattern : List Char) : LogSettings :=
  match Pattern.Expression.ofText pattern with
  | .ok wanted =>
    { settings with filter := { settings.filter with required := some wanted } }
  | .error refusal => settings.warn (badPattern refusal)

/-- Reads one directive, from which white space at the ends has been removed. -/
def readDirective (settings : LogSettings) (directive : List Char) : LogSettings :=
  if directive.isEmpty then settings
  else
    match List.splitOn '=' directive with
    | [name] =>
      match Verbosity.ofName? name with
      | some verbosity => settings.add none verbosity
      | none => settings.add (some name) (some .trace)
    | [name, level] =>
      match Text.trim level with
      | [] => settings.add (some name) (some .trace)
      | level =>
        match Verbosity.ofName? level with
        | some verbosity => settings.add (some name) verbosity
        | none => settings.warn (badSetting level)
    | _ => settings.warn (badSetting directive)

/-- Reads directives with commas between them. -/
def readDirectives (settings : LogSettings) (directives : List Char) : LogSettings :=
  ((List.splitOn ',' directives).map Text.trim).foldl readDirective settings

/-- The settings that follow from the level of the arguments and from a text. -/
def ofText (level : Severity) (text : Option String) : LogSettings :=
  let initial : LogSettings := { filter := { directives := [⟨none, some level⟩] } }
  match text with
  | none => initial
  | some text =>
    match List.splitOn '/' text.toList with
    | [directives] => initial.readDirectives directives
    | [directives, pattern] => (initial.readDirectives directives).require pattern
    | _ => initial.warn (badSetting text.toList ++ " (too many '/'s)")

end LogSettings

end Disassembler8080
