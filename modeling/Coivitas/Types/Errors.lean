import Mathlib.Data.List.Basic

/-! # Protocol errors and thrown values -/

namespace Coivitas.Types

/-- Error codes; those that no modelled function throws or tests are kept as texts. -/
inductive ProtocolErrorCode where
  | invalidMessage
  | specVersionMismatch
  | internalError
  | other (code : String)
  deriving DecidableEq, Repr

def ProtocolErrorCode.text : ProtocolErrorCode → String
  | .invalidMessage => "INVALID_MESSAGE"
  | .specVersionMismatch => "SPEC_VERSION_MISMATCH"
  | .internalError => "INTERNAL_ERROR"
  | .other code => code

structure ProtocolError where
  code : ProtocolErrorCode
  detail : String
  requestId : Option String := none
  deriving DecidableEq, Repr

/-- A thrown value: a protocol error, an error of one of the sub-protocol layers
with its own code, any other error, or a value that is no error at all. -/
inductive Fault where
  | protocol (error : ProtocolError)
  | subProtocol (code message : String)
  | error (message : String)
  | value (text : String)
  deriving DecidableEq, Repr

/-- `error.message`, or the given text for a value that is no error. -/
def Fault.message (fallback : String) : Fault → String
  | .protocol thrown => "[" ++ thrown.code.text ++ "] " ++ thrown.detail
  | .subProtocol _ message => message
  | .error message => message
  | .value _ => fallback

def normalizeProtocolError : Fault → ProtocolError
  | .protocol thrown => thrown
  | fault => { code := .internalError, detail := fault.message "Unknown orchestrator error." }

/-- What `wrapSubProtocolBoundary` throws instead of a value that came out of the
wrapped operation. -/
def wrapSubProtocolFault (requestId : String) : Fault → Fault
  | .protocol thrown => .protocol thrown
  | .subProtocol code message =>
      .protocol ⟨.internalError, code ++ ": " ++ message, some requestId⟩
  | .error message =>
      .protocol ⟨.internalError, "unknown sub-protocol layer fail: " ++ message, some requestId⟩
  | .value text =>
      .protocol ⟨.internalError, "unknown sub-protocol layer fail: " ++ text, some requestId⟩

end Coivitas.Types
