import PathMtu.Decimal
import PathMtu.Simulator.Simulation

namespace PathMtu

/-- What a run of the simulator leaves: its exit status and all lines it wrote. -/
structure Report where
  status : Nat
  lines : List Line

namespace Report

def output (report : Report) : String := Line.render .output report.lines
def diagnostics (report : Report) : String := Line.render .diagnostics report.lines

/-- Bad options end a run before it starts. -/
def refused (text : String) : Report := ⟨1, [Line.diagnostic text]⟩

/-- A loss rate is written with six significant digits. -/
def lossText (rate : Float) : String := Decimal.general 6 rate

def openingLines (options : Options) : List Line :=
  let config := options.config
  let checksums := if config.framing.checksums then ", mit Prüfsumme" else ""
  [Line.output "PathProbe - Path MTU Discovery Simulator",
    Line.output "=========================================",
    Line.output (s!"Suche in [{config.minSize}, {config.maxSize}], Pfad-MTU {options.pathMtu}, " ++
      s!"RTT {options.rtt} ms, Verlust {lossText options.lossRate}, " ++
      s!"Kompression {config.framing.compression.name}{checksums}")] ++
    if config.enabled then [] else [Line.output "Path MTU Discovery ist deaktiviert"]

def summaryLines {σ : Type} (sim : Simulation σ) : List Line :=
  let session := sim.session
  let tally := session.tally
  [Line.output "",
    Line.output s!"Simulation beendet nach {sim.now / millisecond} ms",
    Line.output s!"  State:            {session.phase.name}",
    Line.output s!"  Fragment size:    {session.fragment} bytes",
    Line.output s!"  Search range:     [{session.low}, {session.high}]",
    Line.output s!"  Path MTU:         {sim.path.mtu} bytes",
    Line.output s!"  Probes sent:      {tally.sent}",
    Line.output s!"  Probes timed out: {tally.timedOut}",
    Line.output s!"  Replies accepted: {tally.accepted}",
    Line.output s!"  Replies rejected: {tally.rejected}",
    Line.output s!"  Dropped (size):   {sim.path.oversize}",
    Line.output s!"  Dropped (loss):   {sim.path.lost}"]

def ofOptions {σ : Type} [RandomSource σ] (options : Options) (source : σ) (device : UInt32) :
    Report :=
  let sim := Simulation.run options source device
  ⟨sim.exitStatus, openingLines options ++ sim.lines.toList ++ summaryLines sim⟩

end Report

end PathMtu
