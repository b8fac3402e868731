import Downhill.Decimal.Notation
import Downhill.Text.Spelling
import Downhill.Work

namespace Downhill

namespace Double

/-- A number in a message, with all its digits. -/
def spoken (v : Float) : String :=
  (ofFloat v).text .spoken

/-- A number in a message, rounded to so many decimals. -/
def rounded (places : Nat) (v : Float) : String :=
  (ofFloat v).scientific places

end Double

/-- A word set off from the text around it. -/
def quoted (word : String) : String :=
  "\x60" ++ word ++ "\x60"

/-- Words offered as alternatives. -/
def alternatives : List String → String
  | [] => ""
  | [w] => quoted w
  | [v, w] => quoted v ++ " or " ++ quoted w
  | words => "one of " ++ ", ".intercalate (words.map quoted)

/-- What a field expects, in words. -/
def Kind.wanted : Kind → String
  | .real => "f64"
  | .count => "usize"
  | .switch => "a boolean"
  | .choice _ => "string or map"

/-- What was found in place of what was expected. -/
def Setting.described : Option (Setting Float) → String
  | none => "null"
  | some (.switch on) => "boolean " ++ quoted (if on then "true" else "false")
  | some (.integer i) => "integer " ++ quoted (toString i.toInt)
  | some (.number v) => "floating point " ++ quoted ((Double.ofFloat v).text .stored)
  | some (.word w) => "string " ++ Spelling.quote w

namespace Reason

def text : Reason Float → String
  | .notPositive v => "must be positive and finite, got " ++ Double.spoken v
  | .outsideUnitInterval v => "must lie in (0, 1), got " ++ Double.spoken v
  | .zero => "must be at least 1"
  | .oddRows rows => "must be a positive even number of rows, got " ++ toString rows.toNat
  | .exceedsDimension dim value =>
    "must not exceed dim (" ++ toString dim.toNat ++ "), got " ++ toString value.toNat
  | .noConstraint => "the interior-point method needs at least one constraint"
  | .wrongKind found wanted => "invalid type: " ++ Setting.described found ++ ", expected " ++ wanted.wanted
  | .negative i => "invalid value: integer " ++ quoted (toString i.toInt) ++ ", expected usize"
  | .unknownWord w words => "unknown variant " ++ quoted w ++ ", expected " ++ alternatives words

end Reason

namespace Failure

/-- The message of a failure. -/
def message : Failure Float → String
  | .settingCount algorithm expected found =>
    algorithm ++ " expects " ++ toString expected ++ " parameters but " ++ toString found ++ " were supplied"
  | .missingSetting algorithm name =>
    algorithm ++ " requires parameter " ++ quoted name ++ ", which is missing"
  | .refusedSetting name reason => "parameter " ++ quoted name ++ " is invalid: " ++ reason.text
  | .singularSystem system => "the linear system solved for " ++ system ++ " is singular"
  | .sizeMismatch expected found =>
    "dimension mismatch: expected " ++ toString expected ++ ", found " ++ toString found
  | .infeasibleStart => "the initial point is not strictly feasible for the constraints"
  | .unstorable => "failed to write run artifacts"
  | .unreadable => "failed to serialize run artifacts"

end Failure

/-- The name of a severity at the front of a line. -/
def Severity.label : Severity → String
  | .warn => "WARN"
  | .info => "INFO"
  | .debug => "DEBUG"

namespace Event

/-- What an event says, with the place where records are stored. -/
def message (place : String) : Event Float → String
  | .ascent slope =>
    "[LineSearch] Search started with a non-descent direction (gᵀd = " ++ Double.rounded 2 slope ++ " > 0)."
  | .searchExhausted shrinks step =>
    "[LineSearch] Armijo condition not met after " ++ toString shrinks ++ " shrinks; keeping t = " ++
      Double.rounded 3 step ++ "."
  | .searchAccepted step evaluations =>
    "[LineSearch] accepted t = " ++ Double.rounded 3 step ++ " after " ++ toString evaluations ++ " evals"
  | .fallback system => "[Linalg] Cholesky failed for " ++ system ++ "; using LU."
  | .newtonStep step value =>
    "[Newton] t = " ++ Double.rounded 3 step ++ ", f = " ++ Double.rounded 6 value
  | .subspaceStep step => "[SubspaceGD] t = " ++ Double.rounded 3 step
  | .proximalExhausted tag shrinks step =>
    "[" ++ tag ++ "] Backtracking stopped after " ++ toString shrinks ++ " shrinks; keeping t = " ++
      Double.rounded 3 step ++ "."
  | .restart counter => "[APGD] restart at k = " ++ toString counter
  | .dropped index multiplier =>
    "[GPM] dropping active constraint " ++ toString index ++ " (λ = " ++ Double.rounded 3 multiplier ++ ")"
  | .noFeasibleStep tag shrinks =>
    "[" ++ tag ++ "] No feasible step after " ++ toString shrinks ++ " shrinks; staying at the current point."
  | .innerSolve iterations finished =>
    "[DynamicBarrier] inner solve: " ++ toString iterations ++ " iterations, finished = " ++
      (if finished then "true" else "false")
  | .interiorStep gap step =>
    "[PrimalDual] eta = " ++ Double.rounded 3 gap ++ ", s = " ++ Double.rounded 3 step
  | .interiorExhausted shrinks =>
    "[PrimalDual] Step search exhausted after " ++ toString shrinks ++ " shrinks; taking a zero step."
  | .stopped tag iterations =>
    "[" ++ tag ++ "] Stop criterion reached after " ++ toString iterations ++ " iterations."
  | .progress tag iteration value =>
    "[" ++ tag ++ "] " ++ toString iteration ++ ": " ++ Double.spoken value
  | .stored series => "[Recorder] wrote " ++ toString series ++ " series to " ++ place

end Event

end Downhill
