import LodelineManager.Go.Time

/-!
# Errors of the fleet client

An error value is the chain that {lit}`errors.Is` and {lit}`errors.As` walk: a wrapped
cause, a {lit}`*url.Error`, the package's own error types, or a value of another
package, known by what its {lit}`Is` and {lit}`Timeout` methods answer.
-/

namespace LodelineManager
namespace Fleet

/-- Error values that are compared by identity; a package variable is named by its
text. -/
inductive Sentinel where
  | canceled
  | deadlineExceeded
  | var (text : String)
  deriving DecidableEq

def errNotFound : Sentinel := .var "fleet: not found"

def errReadAPIDisabled : Sentinel := .var "fleet: read API disabled on lodeline-server"

def errUnauthorized : Sentinel := .var "fleet: unauthorized"

def errServiceUnavailable : Sentinel := .var "fleet: service unavailable"

/-- {lit}`wrap` is {lit}`fmt.Errorf` with the cause behind {lit}`%w` at the end;
{lit}`foreign` has the sentinels its {lit}`Is` method accepts and what its {lit}`Timeout`
method answers, when it has one. -/
inductive GoErr where
  | sentinel (s : Sentinel)
  | wrap (context : String) (cause : GoErr)
  | url (op addr : String) (cause : GoErr)
  | serviceUnavailable (retryAfter : Int)
  | api (status : Nat) (code message : String)
  | foreign (text : String) (matching : List Sentinel) (timeout : Option Bool)
  deriving DecidableEq

namespace GoErr

/-- {lit}`errors.Is(err, target)`. -/
def is : GoErr -> Sentinel -> Bool
  | sentinel s, target => decide (s = target)
  | wrap _ cause, target => cause.is target
  | url _ _ cause, target => cause.is target
  | serviceUnavailable _, target => decide (target = errServiceUnavailable)
  | api _ _ _, _ => false
  | foreign _ matching _, target => decide (target ∈ matching)

/-- What the value's own {lit}`Timeout` method answers.  That of {lit}`*url.Error` asks its
cause, and only the cause itself. -/
def timeout? : GoErr -> Option Bool
  | sentinel .deadlineExceeded => some true
  | sentinel _ => none
  | wrap _ _ => none
  | url _ _ cause => some (cause.timeout?.getD false)
  | serviceUnavailable _ => none
  | api _ _ _ => none
  | foreign _ _ timeout => timeout

/-- {lit}`errors.As(err, &netErr)`: the {lit}`Timeout` of the first {lit}`net.Error` in the
chain. -/
def asNetError : GoErr -> Option Bool
  | wrap _ cause => cause.asNetError
  | e => e.timeout?

/-- {lit}`errors.As(err, &sue)`: the {lit}`RetryAfter` of a {lit}`*ServiceUnavailableError`. -/
def asServiceUnavailable : GoErr -> Option Int
  | serviceUnavailable retryAfter => some retryAfter
  | wrap _ cause => cause.asServiceUnavailable
  | url _ _ cause => cause.asServiceUnavailable
  | _ => none

@[simp] theorem is_wrap (context : String) (cause : GoErr) (target : Sentinel) :
    (wrap context cause).is target = cause.is target := rfl

@[simp] theorem is_url (op addr : String) (cause : GoErr) (target : Sentinel) :
    (url op addr cause).is target = cause.is target := rfl

end GoErr

def isRetryable (err : GoErr) : Bool :=
  if err.is .canceled || err.is .deadlineExceeded then false
  else if err.is errServiceUnavailable then true
  else
    match err.asNetError with
    | some true => true
    | _ => false

theorem isRetryable_of_deadline {err : GoErr} (h : err.is .deadlineExceeded = true) :
    isRetryable err = false := by
  unfold isRetryable
  rw [h, Bool.or_true, if_pos rfl]

end Fleet
end LodelineManager
