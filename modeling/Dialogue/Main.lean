import Dialogue.Command.Run

/-! # The program

Runs the request on the command line. A conversation is held as its lines come in. -/

namespace Dialogue

/-- The next line of the standard input with its line feed, or what is left of it. -/
partial def nextLine (input : IO.FS.Stream) (line : Array UInt8 := #[]) : IO (List UInt8) := do
  let read ← input.read 1
  match read.toList with
  | [] => return line.toList
  | byte :: _ =>
    let line := line.push byte
    if byte == 10 then return line.toList else nextLine input line

/-- Exchanges lines to the end, showing what is written at once. A line is waited for only when the
console has none left and the session wants one. -/
partial def converse (input output : IO.FS.Stream) (c : Conversation) :
    IO (Option ReadFault × Conversation) := do
  output.putStr c.console.output
  output.flush
  let c := { c with console := c.console.emptied }
  let dry := c.console.size == 0 && !c.session.finished
  let c ← if dry then pure { c with console := c.console.feed (← nextLine input) } else pure c
  match c.exchange with
  | (.goingOn, next) => converse input output next
  | (.over, last) => return (none, last)
  | (.broken fault, last) => return (some fault, last)

/-- The fault with a number, which some calls of the system give with a minus. -/
def numberedFault (code : UInt32) (reason : String) : FileFault :=
  match min code.toNat (0 - code).toNat with
  | 2 => .missing
  | 20 => .notDirectory
  | 21 => .isDirectory
  | 36 => .nameTooLong
  | code => .refused code reason

/-- The reason why the system refuses a file. -/
def fileFault : IO.Error → FileFault
  | .noFileOrDirectory .. => .missing
  | .permissionDenied _ code reason => numberedFault code reason
  | .inappropriateType _ code reason => numberedFault code reason
  | .invalidArgument _ code reason => numberedFault code reason
  | e => .refused 5 (toString e)

def readFile (name : String) : IO (String × Except FileFault (List UInt8)) := do
  match ← (IO.FS.readBinFile name).toBaseIO with
  | .ok bytes => return (name, .ok bytes.toList)
  | .error e => return (name, .error (fileFault e))

/-- Shows what a run leaves behind. -/
def conclude (o : Outcome) : IO UInt32 := do
  IO.print o.output
  if let some report := o.report then IO.eprint report
  return o.status.toUInt32

end Dialogue

open Dialogue

def main (args : List String) : IO UInt32 := do
  let request := Request.ofArguments args
  let named ← match request with
    | .command c => c.files.mapM readFile
    | _ => pure []
  let files : Files := fun name => (named.lookup name).getD (.error .missing)
  match request with
  | .command (.play p) =>
    match p.begin files [] with
    | .error f => conclude (.ofFailure f "")
    | .ok c => conclude (p.close (← converse (← IO.getStdin) (← IO.getStdout) c))
  | request => do
    if request = .misuse then IO.eprint Request.usage
    conclude (request.run files [])
