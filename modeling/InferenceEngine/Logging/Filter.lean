import InferenceEngine.Logging.Level
import InferenceEngine.Options.Server
import InferenceEngine.Text.Alphanumeric
import InferenceEngine.Text.Blank

/-!
# Filters of events

A filter is a set of directives. Each sets the level up to which events pass, for a target
or for all of them. The set holds one directive for a target and lists the most specific
ones first.
-/

namespace InferenceEngine.Logging

/-- A directive: events of the target pass up to a level. -/
structure Directive where
  target : Option String
  bound : Option Level
  deriving DecidableEq, Inhabited

namespace Directive

def text (d : Directive) : String :=
  match d.target with
  | none => Level.boundWord d.bound
  | some target => target ++ "=" ++ Level.boundWord d.bound

/-!
# Reading
-/

def levelReason : String :=
  "error parsing level filter: expected one of \"off\", \"error\", \"warn\", \"info\", " ++
    "\"debug\", \"trace\", or a number 0-5"

/-- The failure of a directive that starts with a character no target starts with. -/
def directiveReason : String := "invalid filter directive"

def canStart (c : Char) : Bool :=
  c = '-' || c = ':' || c = '_' || Text.Alphanumeric.holds c

/-- Reads the bound after the sign of equality; no text stands for all events. -/
def boundOf (text : List Char) : Except String (Option Level) :=
  if text.isEmpty then .ok (some .trace)
  else
    match Level.boundOfText? text with
    | some bound => .ok bound
    | none => .error levelReason

/-- Reads a directive. The sign of equality is looked for between the blanks at the ends,
and splits the text at the place at which it is found there. -/
def read (text : List Char) : Except String Directive :=
  let inner := Text.trim text
  match inner with
  | [] => .error directiveReason
  | first :: _ =>
    if !canStart first then .error directiveReason
    else
      let place := (inner.takeWhile fun c => c != '=' && c != '[').length
      match inner.drop place with
      | '=' :: _ => do
        let bound ← boundOf (text.drop (place + 1))
        .ok ⟨some (String.ofList (text.take place)), bound⟩
      | [] =>
        match Level.boundOfText? text with
        | some bound => .ok ⟨none, bound⟩
        | none => .ok ⟨some (String.ofList text), some .trace⟩
      | _ => .error directiveReason

end Directive

/-!
# Sets of directives
-/

/-- How specific a target is: longer ones are more so, and then those that come later in
the alphabet. A directive for all targets is the least specific one. -/
def compareTargets (a b : Option String) : Ordering :=
  match a, b with
  | none, none => .eq
  | none, some _ => .lt
  | some _, none => .gt
  | some a, some b => (compare a.utf8ByteSize b.utf8ByteSize).then (compare a b)

/-- Puts a directive at its place, over one for the same target. -/
def insert (d : Directive) : List Directive -> List Directive
  | [] => [d]
  | e :: rest =>
    match compareTargets d.target e.target with
    | .gt => d :: e :: rest
    | .eq => d :: rest
    | .lt => e :: insert d rest

def usualDirectives : String := "tensorserve_core=info"

def splitCommas : List Char -> List (List Char)
  | [] => [[]]
  | c :: rest =>
    if c = ',' then [] :: splitCommas rest
    else
      match splitCommas rest with
      | [] => [[c]]
      | part :: parts => (c :: part) :: parts

/-- Reads the parts of a list of directives; empty parts are skipped. -/
def readAll (parts : List (List Char)) : Except String (List Directive) :=
  (parts.filter fun part => !part.isEmpty).mapM Directive.read

/-- The filter that the options ask for. Without any directive their level holds for all
targets. -/
def filter (options : LoggingOptions) : Except Failure (List Directive) := do
  match Level.ofText? options.level.toList with
  | none => .error (.invalidLevel options.level)
  | some level =>
    let given := options.filter.getD usualDirectives
    match readAll (splitCommas given.toList) with
    | .error reason => .error (.invalidFilter given reason)
    | .ok [] => .ok [⟨none, some level⟩]
    | .ok directives => .ok (directives.foldl (fun ds d => insert d ds) [])

def filterText (directives : List Directive) : String :=
  ",".intercalate (directives.map Directive.text)

/-!
# Installing
-/

/-- Installs the filter that the options ask for; only one can be installed. Gives back
whether one is installed now. -/
def install (installed : Bool) (options : LoggingOptions) : Except Failure Unit × Bool :=
  match filter options with
  | .error e => (.error e, installed)
  | .ok _ => if installed then (.error .loggingInstalled, true) else (.ok (), true)

def installAll (installed : Bool) : List LoggingOptions -> List (Except Failure Unit)
  | [] => []
  | options :: rest =>
    let (result, installed) := install installed options
    result :: installAll installed rest

end InferenceEngine.Logging
