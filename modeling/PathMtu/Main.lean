import PathMtu.CommandLine
import PathMtu.Random.Secure

namespace PathMtu

/-- A secure source on a block of the system's random bytes, used over and over. -/
def blockSource (block : ByteArray) (device : UInt32) : SecureSource :=
  { entropy :=
      { stream := fun n => (block[n % block.size]?).getD 0
        fails := fun _ => false
        reason := "" }
    fallback := Twister.seeded device }

def writeLine (line : Line) : IO Unit :=
  match line.channel with
  | .output => IO.println line.text
  | .diagnostics => IO.eprintln line.text

/-- Runs the simulator with the options of the command line. -/
def runCommand (arguments : List String) : IO UInt32 := do
  match CommandLine.parse arguments with
  | .error error =>
    writeLine (Line.diagnostic s!"Fehler beim Parsen der Kommandozeilenargumente: {error.message}")
    return 1
  | .ok .help =>
    IO.println CommandLine.helpText
    return 0
  | .ok (.simulate request) =>
    let block ← IO.getRandomBytes 1048576
    let device := ofBigEndian (← IO.getRandomBytes 4).toList
    let report := request.run (blockSource block device) device
    report.lines.forM writeLine
    return report.status.toUInt32

end PathMtu

def main (arguments : List String) : IO UInt32 := PathMtu.runCommand arguments
