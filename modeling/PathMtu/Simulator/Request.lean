import PathMtu.Simulator.Report

namespace PathMtu

/-- What the simulator is asked for. The compression scheme is given by name and takes the place of
the one in the options. A simulated search probes more often than others do. -/
structure Request where
  options : Options := { config := { interval := 100 } }
  compression : String := "none"

inductive Refusal where
  | unknownCompression (name : String)
  | invalidOptions (error : OptionError)
  deriving DecidableEq, Repr

def Refusal.message : Refusal → String
  | unknownCompression name => (Compression.unknownName name).describe
  | invalidOptions error => s!"Ungültige Konfiguration: {error.fault.describe}"

namespace Request

/-- The name of the scheme without regard to the case of ASCII letters. -/
def compressionName (request : Request) : String := request.compression.toLower

def withCompression (request : Request) (scheme : Compression) : Options :=
  let config := request.options.config
  { request.options with
    config := { config with framing := { config.framing with compression := scheme } } }

/-- The options to run with. The scheme is looked up before they are validated. -/
def resolve (request : Request) : Except Refusal Options :=
  match Compression.ofName? request.compressionName with
  | none => .error (.unknownCompression request.compressionName)
  | some scheme =>
    match (request.withCompression scheme).validate with
    | .error error => .error (.invalidOptions error)
    | .ok () => .ok (request.withCompression scheme)

def run {σ : Type} [RandomSource σ] (request : Request) (source : σ) (device : UInt32) : Report :=
  match request.resolve with
  | .error refusal => Report.refused refusal.message
  | .ok options => Report.ofOptions options source device

end Request

end PathMtu
