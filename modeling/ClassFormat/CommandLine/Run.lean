import ClassFormat.CommandLine.Options
import ClassFormat.Listing
import ClassFormat.Report

namespace ClassFormat.CommandLine

structure Output where
  exitCode : UInt32 := 0
  stdout : String := ""
  stderr : String := ""
  deriving DecidableEq

def indented (mark margin text : String) : String :=
  mark ++ String.join (text.toList.map fun c => if c = '\n' then "\n" ++ margin else c.toString)

def errorText : List String → String
  | [] => ""
  | [message] => "Error: " ++ message ++ "\n"
  | [message, cause] =>
    "Error: " ++ message ++ "\n\nCaused by:\n" ++ indented "    " "    " cause ++ "\n"
  | message :: causes =>
    "Error: " ++ message ++ "\n\nCaused by:\n" ++ String.join (causes.zipIdx.map fun c =>
      indented (Text.flushRight 5 c.2 ++ ": ") "       " c.1 ++ "\n")

def detail (verbosity : Nat) : Level :=
  match verbosity with
  | 0 => .info
  | 1 => .debug
  | _ => .trace

def roundTrip (tree : FileTree) (level : Level) (paths : List String) (failFast : Bool)
    (jobs : Nat) : Output :=
  let (found, searchLog) := Source.findLogged tree (paths.map Path.mk)
  match found with
  | .error failure =>
    { exitCode := 1, stderr := renderLog level searchLog ++ errorText failure.chain }
  | .ok sources =>
    let start : LogLine := ⟨.info, "jclass", s!"found {sources.length} files to check"⟩
    let p := Report.run failFast jobs (sources.map (Source.deliver tree))
    let log := renderLog level (searchLog ++ start :: p.log.reverse)
    let stats := p.stats
    let stdout :=
      s!"checked: {stats.checked}, mismatches: {stats.mismatches}, failures: {stats.failures}\n"
    if stats.isClean then { stdout, stderr := log }
    else
      let verdict :=
        s!"{stats.mismatches} class files didn't round trip, {stats.failures} failed to decode"
      { exitCode := 1, stdout, stderr := log ++ errorText [verdict] }

def dump (tree : FileTree) (level : Level) (file : String) (withCode : Bool) : Output :=
  match tree.read (.mk file) with
  | .error error =>
    { exitCode := 1
      stderr := errorText ["failed to read " ++ Text.quoted file, error.message] }
  | .ok content =>
    let (result, events) := ClassFile.readLogged content.bytes
    let log := renderLog level (events.map (·.line))
    match result with
    | .error failure =>
      let message := "failed to decode " ++ Text.quoted file
      { exitCode := 1, stderr := log ++ errorText (message :: failure.chain) }
    | .ok c =>
      let listing := Listing.ofClass c withCode
      match listing.failure with
      | none => { stdout := listing.text, stderr := log }
      | some failure =>
        { exitCode := 1, stdout := listing.text, stderr := log ++ errorText failure.chain }

def usage : String :=
  "Reads java class files and writes them back, byte for byte\n\n" ++
    "Usage: jclass [OPTIONS] <COMMAND>\n\n" ++
    "Commands:\n" ++
    "  roundtrip  Decodes and re-encodes class files, and reports every one that doesn't come " ++
    "back identical\n" ++
    "  dump       Prints the contents of a class file\n" ++
    "  help       Print this message or the help of the given subcommand(s)\n\n" ++
    "Options:\n" ++
    "  -v, --verbose...  Be verbose. Give twice for trace output\n" ++
    "  -h, --help        Print help\n" ++
    "  -V, --version     Print version\n"

def run (tree : FileTree) (arguments : List String) : Output :=
  match request? 0 arguments with
  | none => { exitCode := 2, stderr := usage }
  | some .version => { stdout := "jclass 0.1.0\n" }
  | some .help => { stdout := usage }
  | some (.perform verbosity (.roundTrip paths failFast jobs)) =>
    roundTrip tree (detail verbosity) paths failFast jobs
  | some (.perform verbosity (.dump file withCode)) => dump tree (detail verbosity) file withCode

end ClassFormat.CommandLine
