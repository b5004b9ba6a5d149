namespace PathMtu

/-- The area a fault belongs to. Every number is a category; the first four have names. -/
structure FaultCategory where
  number : Int
  deriving DecidableEq, Repr

namespace FaultCategory

def unset : FaultCategory := ⟨0⟩
def configuration : FaultCategory := ⟨1⟩
def runtime : FaultCategory := ⟨2⟩
def external : FaultCategory := ⟨3⟩

def name (category : FaultCategory) : String :=
  if category = unset then "NONE"
  else if category = configuration then "CONFIG"
  else if category = runtime then "RUNTIME"
  else if category = external then "EXTERNAL"
  else "UNKNOWN"

end FaultCategory

/-- What went wrong. Every number is a code; six have names. -/
structure FaultCode where
  number : Int
  deriving DecidableEq, Repr

namespace FaultCode

def success : FaultCode := ⟨0⟩
def unknown : FaultCode := ⟨1⟩
def invalidArgument : FaultCode := ⟨3⟩
def operationFailed : FaultCode := ⟨4⟩
def invalidConfiguration : FaultCode := ⟨501⟩
def externalLibrary : FaultCode := ⟨701⟩

def name (code : FaultCode) : String :=
  if code = success then "SUCCESS"
  else if code = unknown then "UNKNOWN_ERROR"
  else if code = invalidArgument then "INVALID_ARGUMENT"
  else if code = operationFailed then "OPERATION_FAILED"
  else if code = invalidConfiguration then "INVALID_CONFIGURATION"
  else if code = externalLibrary then "EXTERNAL_LIBRARY_ERROR"
  else s!"ERROR_{code.number}"

end FaultCode

/-- A described error. The position is part of its text only when a file is given; the faults that
this library makes itself have none. -/
structure Fault where
  category : FaultCategory := FaultCategory.unset
  code : FaultCode := FaultCode.success
  message : String := ""
  file : String := ""
  line : Int := 0
  deriving DecidableEq, Repr

namespace Fault

def position (fault : Fault) : String :=
  if fault.file = "" then "" else s!" at {fault.file}:{fault.line}"

/-- The category in brackets, the code, the message, and the position if there is one. -/
def describe (fault : Fault) : String :=
  s!"[{fault.category.name}] {fault.code.name}: {fault.message}{fault.position}"

end Fault

end PathMtu
