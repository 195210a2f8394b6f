namespace ClassFormat.CommandLine

inductive Command where
  | roundTrip (paths : List String) (failFast : Bool) (jobs : Nat)
  | dump (file : String) (withCode : Bool)
  deriving DecidableEq, Repr

inductive Request where
  | version
  | help
  | perform (verbosity : Nat) (command : Command)
  deriving DecidableEq, Repr

structure Parsed where
  values : List String := []
  flagged : Bool := false
  jobs : Option Nat := none
  verbosity : Nat := 0

/-- A number of jobs: at least one, and no more than fits into a machine word. -/
def jobs? (text : String) : Option Nat :=
  let digits := match text.toList with
    | '+' :: digits => digits
    | digits => digits
  if digits.isEmpty || !digits.all Char.isDigit then none
  else
    let n := digits.foldl (fun n d => 10 * n + (d.toNat - '0'.toNat)) 0
    if n = 0 || 0x10000000000000000 ≤ n then none else some n

/-- The options of a command: the name of its flag, how many values it takes, and whether it takes a
number of jobs. -/
structure Grammar where
  flag : String
  maxValues : Option Nat
  takesJobs : Bool

def roundTripGrammar : Grammar := ⟨"fail-fast", none, true⟩
def dumpGrammar : Grammar := ⟨"code", some 1, false⟩

inductive Step (α : Type) where
  | wrong
  | help
  | next (state : α)

def setJobs (p : Parsed) (text : String) : Step Parsed :=
  match p.jobs, jobs? text with
  | none, some n => .next { p with jobs := some n }
  | _, _ => .wrong

def addValue (g : Grammar) (p : Parsed) (value : String) : Step Parsed :=
  let full := match g.maxValues with
    | some most => most ≤ p.values.length
    | none => false
  if value = "" || full then .wrong else .next { p with values := p.values ++ [value] }

/-- Reads a cluster of one-letter options. A `j` takes the rest as its value, or, if there is none,
asks for the next argument. -/
def shortOptions (g : Grammar) : Parsed → List Char → Step (Parsed × Bool)
  | p, [] => .next (p, false)
  | p, 'v' :: letters => shortOptions g { p with verbosity := p.verbosity + 1 } letters
  | _, 'h' :: _ => .help
  | p, 'j' :: letters =>
    if !g.takesJobs then .wrong
    else match letters with
      | [] => .next (p, true)
      | '=' :: value => attach (setJobs p (String.ofList value))
      | value => attach (setJobs p (String.ofList value))
  | _, _ => .wrong
where
  attach : Step Parsed → Step (Parsed × Bool)
    | .next p => .next (p, false)
    | .wrong => .wrong
    | .help => .help

def attachedJobs? (argument : String) : Option String :=
  let name := "--jobs=".toList
  let letters := argument.toList
  if name.isPrefixOf letters then some (String.ofList (letters.drop name.length)) else none

def readArguments (g : Grammar) : (onlyValues : Bool) → Parsed → List String → Step Parsed
  | _, p, [] => .next p
  | true, p, argument :: arguments =>
    match addValue g p argument with
    | .next p => readArguments g true p arguments
    | stop => stop
  | false, p, argument :: arguments =>
    if argument = "--" then readArguments g true p arguments
    else if argument = "--help" then .help
    else if argument = "--verbose" then
      readArguments g false { p with verbosity := p.verbosity + 1 } arguments
    else if argument = "--" ++ g.flag then
      if p.flagged then .wrong else readArguments g false { p with flagged := true } arguments
    else if argument = "--jobs" && g.takesJobs then
      match arguments with
      | [] => .wrong
      | value :: arguments =>
        match setJobs p value with
        | .next p => readArguments g false p arguments
        | stop => stop
    else match attachedJobs? argument, g.takesJobs, argument.toList with
      | some value, true, _ =>
        match setJobs p value with
        | .next p => readArguments g false p arguments
        | stop => stop
      | _, _, '-' :: '-' :: _ => .wrong
      | _, _, '-' :: letter :: letters =>
        match shortOptions g p (letter :: letters) with
        | .wrong => .wrong
        | .help => .help
        | .next (p, false) => readArguments g false p arguments
        | .next (p, true) =>
          match arguments with
          | [] => .wrong
          | value :: arguments =>
            match setJobs p value with
            | .next p => readArguments g false p arguments
            | stop => stop
      | _, _, _ =>
        match addValue g p argument with
        | .next p => readArguments g false p arguments
        | stop => stop

/-- The options a command counts as given: its own, or else those before its name. -/
def verbosity (before : Nat) (p : Parsed) : Nat := if p.verbosity = 0 then before else p.verbosity

def roundTripRequest (before : Nat) (arguments : List String) : Option Request :=
  match readArguments roundTripGrammar false {} arguments with
  | .wrong => none
  | .help => some .help
  | .next p =>
    if p.values.isEmpty then none
    else some (.perform (verbosity before p) (.roundTrip p.values p.flagged (p.jobs.getD 1)))

def dumpRequest (before : Nat) (arguments : List String) : Option Request :=
  match readArguments dumpGrammar false {} arguments with
  | .wrong => none
  | .help => some .help
  | .next p =>
    match p.values with
    | [file] => some (.perform (verbosity before p) (.dump file p.flagged))
    | _ => none

def leadingOptions : Nat → List Char → Option (Except Request Nat)
  | n, [] => some (.ok n)
  | n, 'v' :: letters => leadingOptions (n + 1) letters
  | _, 'V' :: _ => some (.error .version)
  | _, 'h' :: _ => some (.error .help)
  | _, _ => none

def helpRequest : List String → Option Request
  | [] => some .help
  | [command] => if command ∈ ["roundtrip", "dump", "help"] then some .help else none
  | _ => none

/-- The request that arguments make, unless they are wrong. `verbosity` counts what was given
before. -/
def request? : (verbosity : Nat) → List String → Option Request
  | _, [] => none
  | n, argument :: arguments =>
    if argument = "--verbose" then request? (n + 1) arguments
    else if argument = "--version" then some .version
    else if argument = "--help" then some .help
    else if argument = "help" then helpRequest arguments
    else if argument = "roundtrip" then roundTripRequest n arguments
    else if argument = "dump" then dumpRequest n arguments
    else match argument.toList with
      | '-' :: letter :: letters =>
        match leadingOptions n (letter :: letters) with
        | some (.ok n) => request? n arguments
        | some (.error request) => some request
        | none => none
      | _ => none

end ClassFormat.CommandLine
